import ItemExpr.Proofs.Collections.Increasing
import ItemExpr.Proofs.Placeholders.Registration
import Mathlib.Data.List.Nodup
import Mathlib.Data.List.Pairwise
import Mathlib.Tactic.ByContra

/-! # Consistent tables

A table of placeholders is `Consistent` if its maps fit together: names and placeholders of names
determine each other, values and placeholders of values do so up to equality of values, placeholders
have the shape that expressions need, and the placeholders of values are numbered without a gap. The
empty table is consistent, and no registration disturbs it (`Consistent.registerAll`). -/

namespace ItemExpr.Placeholders

/-- Whether the maps and counters of a table fit together. -/
structure Consistent (table : Placeholders) : Prop where
  /-- No name is in the table twice. -/
  names_distinct : (table.names.map Prod.fst).Nodup
  /-- A placeholder stands for the name that has it. -/
  name?_iff : ∀ {placeholder name : String},
    table.name? placeholder = some name ↔ (name, placeholder) ∈ table.names
  /-- Every placeholder of a name is a mark and word characters. -/
  marked : ∀ {name placeholder : String},
    (name, placeholder) ∈ table.names → IsMarked '#' placeholder
  /-- The counter has only passed placeholders that are taken. -/
  passed : ∀ {number : Nat},
    0 < number → number ≤ table.nameCounter → numbered number ∈ table.taken
  /-- No value is in the table twice, not even as an equal one. -/
  values_distinct : table.values.Pairwise fun first second => (first.1 == second.1) = false
  /-- A placeholder stands for the value that has it. -/
  value?_iff : ∀ {placeholder : String} {value : AttributeValue},
    table.value? placeholder = some value ↔ (value, placeholder) ∈ table.values
  /-- The placeholders of values are numbered from one on, in the order of the values. -/
  values_numbered : table.values.map Prod.snd =
    (List.range' 1 table.values.length).map table.valuePlaceholder
  /-- The counter is the number of values. -/
  values_counted : table.valueCounter = table.values.length

theorem consistent_empty (settings : Settings) : (empty settings).Consistent where
  names_distinct := List.nodup_nil
  name?_iff := by simp [empty, name?, Entries.find?]
  marked := by simp [empty]
  passed := by
    intro number positive small
    exact absurd small (Nat.not_le_of_lt positive)
  values_distinct := List.Pairwise.nil
  value?_iff := by simp [empty, value?, Entries.find?]
  values_numbered := rfl
  values_counted := rfl

/-! ### Looking up in both directions -/

theorem ofName?_eq_none_iff {table : Placeholders} {name : String} :
    table.ofName? name = none ↔ name ∉ table.names.map Prod.fst :=
  Entries.find?_eq_none_iff

theorem ofValue?_eq_none_iff {table : Placeholders} {value : AttributeValue} :
    table.ofValue? value = none ↔ ∀ entry ∈ table.values, (entry.1 == value) = false := by
  simp [ofValue?, List.find?_eq_none]

namespace Consistent

variable {table : Placeholders}

/-- A name has the placeholder that it is in the table with. -/
theorem ofName?_iff_mem (consistent : table.Consistent) {name placeholder : String} :
    table.ofName? name = some placeholder ↔ (name, placeholder) ∈ table.names :=
  Entries.find?_eq_some_iff consistent.names_distinct

/-- Names and their placeholders determine each other. -/
theorem ofName?_iff_name? (consistent : table.Consistent) {name placeholder : String} :
    table.ofName? name = some placeholder ↔ table.name? placeholder = some name :=
  consistent.ofName?_iff_mem.trans consistent.name?_iff.symm

/-- Two entries of equal values are one entry. -/
theorem values_unique (consistent : table.Consistent) {first second : AttributeValue × String}
    (mem : first ∈ table.values) (mem' : second ∈ table.values)
    (equal : (first.1 == second.1) = true) : first = second := by
  by_contra differ
  have : Std.Symm fun a b : AttributeValue × String => (a.1 == b.1) = false :=
    ⟨fun a b unequal => by rw [BEq.comm, unequal]⟩
  have unequal := consistent.values_distinct.forall mem mem' differ
  rw [equal] at unequal
  cases unequal

/-- A value has the placeholder that an equal one is in the table with. -/
theorem ofValue?_iff_mem (consistent : table.Consistent) {value : AttributeValue}
    {placeholder : String} :
    table.ofValue? value = some placeholder ↔
      ∃ known, (known, placeholder) ∈ table.values ∧ (known == value) = true := by
  rw [ofValue?, Option.map_eq_some_iff]
  constructor
  · rintro ⟨⟨known, _⟩, found, rfl⟩
    exact ⟨known, List.mem_of_find?_eq_some found, by simpa using List.find?_some found⟩
  · rintro ⟨known, mem, equal⟩
    have some : (table.values.find? fun entry => entry.1 == value).isSome = true :=
      List.find?_isSome.2 ⟨_, mem, equal⟩
    obtain ⟨⟨other, _⟩, found⟩ := Option.isSome_iff_exists.1 some
    have equal' : (other == value) = true := by simpa using List.find?_some found
    -- Both entries are equal to the value, and so to each other.
    have only := consistent.values_unique (List.mem_of_find?_eq_some found) mem
      (BEq.trans equal' (BEq.symm equal))
    exact ⟨_, found, congrArg Prod.snd only⟩

/-- Values and their placeholders determine each other, up to equality of values. -/
theorem ofValue?_iff_value? (consistent : table.Consistent) {value : AttributeValue}
    {placeholder : String} :
    table.ofValue? value = some placeholder ↔
      ∃ known, table.value? placeholder = some known ∧ (known == value) = true := by
  rw [consistent.ofValue?_iff_mem]
  simp only [consistent.value?_iff]

/-- The placeholders that stand for values are those with the numbers from one to the number of
values. -/
theorem isSome_value?_iff (consistent : table.Consistent) {placeholder : String} :
    (table.value? placeholder).isSome = true ↔
      ∃ number, 1 ≤ number ∧ number ≤ table.values.length ∧
        placeholder = table.valuePlaceholder number := by
  have listed : (table.value? placeholder).isSome = true ↔
      placeholder ∈ table.values.map Prod.snd := by
    rw [Option.isSome_iff_exists, List.mem_map]
    constructor
    · rintro ⟨value, found⟩
      exact ⟨_, consistent.value?_iff.1 found, rfl⟩
    · rintro ⟨⟨value, _⟩, mem, rfl⟩
      exact ⟨value, consistent.value?_iff.2 mem⟩
  -- The list of numbers ends before the number that is next.
  rw [listed, consistent.values_numbered, List.mem_map]
  constructor
  · rintro ⟨number, mem, rfl⟩
    rw [List.mem_range'_1] at mem
    exact ⟨number, mem.1, by omega, rfl⟩
  · rintro ⟨number, positive, small, rfl⟩
    exact ⟨number, List.mem_range'_1.2 ⟨positive, by omega⟩, rfl⟩

/-- Every placeholder of a value is a mark and word characters, if the stem of the settings is fit to
begin one. -/
theorem marked_value (consistent : table.Consistent)
    (stem : Settings.isStem table.settings.stem = true) {placeholder : String}
    {value : AttributeValue} (found : table.value? placeholder = some value) :
    IsMarked ':' placeholder := by
  have bound : (table.value? placeholder).isSome = true := by rw [found, Option.isSome_some]
  obtain ⟨number, _, _, rfl⟩ := consistent.isSome_value?_iff.1 bound
  exact isMarked_valuePlaceholder stem number

/-- No two values have one placeholder. -/
theorem nodup_placeholders (consistent : table.Consistent) :
    (table.values.map Prod.snd).Nodup := by
  rw [consistent.values_numbered]
  exact List.Nodup.map (fun _ _ same => valuePlaceholder_injective same) List.nodup_range'

/-- The placeholder with the next number stands for no value. -/
theorem value?_next (consistent : table.Consistent) :
    table.value? (table.valuePlaceholder (table.valueCounter + 1)) = none := by
  rw [← Option.not_isSome_iff_eq_none, consistent.isSome_value?_iff]
  rintro ⟨number, _, small, same⟩
  have := valuePlaceholder_injective same
  rw [consistent.values_counted] at this
  omega

/-! ### Registrations keep a table consistent -/

/-- Binding a new name to a free placeholder keeps a table consistent. -/
theorem bindName (consistent : table.Consistent) {name placeholder : String} {counter : Nat}
    (missing : table.ofName? name = none) (free : placeholder ∉ table.taken)
    (shape : IsMarked '#' placeholder)
    (passed : ∀ number, table.nameCounter < number → number ≤ counter →
      numbered number ∈ table.taken ∨ numbered number = placeholder) :
    Consistent { table.bindName name placeholder with nameCounter := counter } where
  names_distinct := by
    show ((table.names ++ [(name, placeholder)]).map Prod.fst).Nodup
    rw [List.map_append, List.nodup_append]
    refine ⟨consistent.names_distinct, List.nodup_singleton _, ?_⟩
    intro known mem other new same
    rw [same, List.mem_singleton.1 new] at mem
    exact ofName?_eq_none_iff.1 missing mem
  name?_iff := by
    intro other known
    have unused : table.name? placeholder = none := Entries.find?_eq_none_iff.2 free
    show Entries.find? other (Entries.insert placeholder name _) = some known ↔
      (known, other) ∈ table.names ++ [(name, placeholder)]
    rw [Entries.find?_insert, List.mem_append, List.mem_singleton, ← consistent.name?_iff]
    -- The placeholder was free, so that no binding is overwritten.
    by_cases same : other = placeholder
    · simp [same, unused, eq_comm]
    · simp [same, Placeholders.name?]
  marked := by
    intro known other mem
    rcases List.mem_append.1 mem with mem | mem
    · exact consistent.marked mem
    · cases List.mem_singleton.1 mem
      exact shape
  passed := by
    intro number positive small
    show numbered number ∈ Entries.keys (Entries.insert placeholder name _)
    rw [Entries.mem_keys_insert]
    -- What the counter passes now is taken already, or is the placeholder of the name.
    by_cases before : number ≤ table.nameCounter
    · exact Or.inr (consistent.passed positive before)
    · exact (passed number (by omega) small).symm
  values_distinct := consistent.values_distinct
  value?_iff := consistent.value?_iff
  values_numbered := consistent.values_numbered
  values_counted := consistent.values_counted

/-- Binding a new value to the placeholder with the next number keeps a table consistent. -/
theorem bindValue (consistent : table.Consistent) {value : AttributeValue}
    (missing : table.ofValue? value = none) :
    Consistent
      { table.bindValue value (table.valuePlaceholder (table.valueCounter + 1)) with
        valueCounter := table.valueCounter + 1 } where
  names_distinct := consistent.names_distinct
  name?_iff := consistent.name?_iff
  marked := consistent.marked
  passed := consistent.passed
  values_distinct := by
    refine List.pairwise_append.2 ⟨consistent.values_distinct, List.pairwise_singleton _ _, ?_⟩
    intro first mem second mem'
    cases List.mem_singleton.1 mem'
    exact ofValue?_eq_none_iff.1 missing first mem
  value?_iff := by
    intro other known
    show Entries.find? other (Entries.insert _ value _) = some known ↔
      (known, other) ∈ table.values ++ [(value, _)]
    rw [Entries.find?_insert, List.mem_append, List.mem_singleton, ← consistent.value?_iff]
    -- The placeholder with the next number was free.
    by_cases same : other = table.valuePlaceholder (table.valueCounter + 1)
    · simp [same, consistent.value?_next, eq_comm]
    · simp [same, Placeholders.value?]
  values_numbered := by
    show (table.values ++ [(value, _)]).map Prod.snd =
      (List.range' 1 (table.values ++ [(value, _)]).length).map table.valuePlaceholder
    rw [List.length_append, List.length_singleton, List.range'_1_concat, List.map_append,
      List.map_append, consistent.values_numbered, consistent.values_counted, Nat.add_comm 1]
    rfl
  values_counted := by
    show table.valueCounter + 1 = (table.values ++ [(value, _)]).length
    rw [List.length_append, List.length_singleton, consistent.values_counted]

/-- A registration keeps a table consistent. -/
theorem register (consistent : table.Consistent) (registration : Registration) :
    (table.register registration).Consistent := by
  cases registration with
  | name name =>
    rcases table.addName_cases name with
      ⟨_, _, added⟩ | ⟨_, _, missing, free, shape, _, passed, added⟩
    · rw [Placeholders.register, give, added]
      exact consistent
    · rw [Placeholders.register, give, added]
      exact consistent.bindName missing free shape passed
  | value value =>
    rcases table.addValue_cases value with ⟨_, _, added⟩ | ⟨missing, added⟩
    · rw [Placeholders.register, give, added]
      exact consistent
    · rw [Placeholders.register, give, added]
      exact consistent.bindValue missing

/-- Registrations keep a table consistent. -/
theorem registerAll (consistent : table.Consistent) (registrations : List Registration) :
    (table.registerAll registrations).Consistent := by
  induction registrations generalizing table with
  | nil => exact consistent
  | cons registration registrations ih => exact ih (consistent.register registration)

end Consistent

end ItemExpr.Placeholders
