import ItemExpr.Proofs.Placeholders.Consistency
import Mathlib.Data.List.Induction

/-! # What a table lists

A table that registrations lead to has the names that were registered, each once, and the values
that were registered, each once up to equality; both stand in the order in which they came first. So
the maps of a request have just these (`lists_registerAll`), and the value placeholder of a number
is bound to the literal of that number among those that differ (`value?_registerAll`). -/

namespace ItemExpr

/-! ### Items at their first places -/

section FirstPlaces

variable {α : Type} [BEq α] [EquivBEq α]

/-- Dropping what equals one item drops nothing that equals a different one. -/
theorem any_beq_filter_of_ne {first item : α} (differ : (first == item) = false)
    (items : List α) :
    (items.filter fun other => !other == first).any (· == item) = items.any (· == item) := by
  rw [List.any_filter]
  refine List.any_congr rfl fun other => ?_
  by_cases equal : (other == item) = true
  · rw [BEq.congr_left equal, BEq.comm, differ, equal]
    rfl
  · rw [Bool.not_eq_true] at equal
    rw [equal, Bool.and_false]

omit [EquivBEq α] in
theorem length_filter_lt_cons (first : α) (rest : List α) :
    (rest.filter fun other => !other == first).length < (first :: rest).length :=
  Nat.lt_succ_of_le (List.length_filter_le _ rest)

/-- An item equals one of the items that are kept if it equals one of all items. -/
theorem any_beq_eraseDups (items : List α) (item : α) :
    items.eraseDups.any (· == item) = items.any (· == item) := by
  match items with
  | [] => rfl
  | first :: rest =>
    rw [List.eraseDups_cons, List.any_cons, List.any_cons, any_beq_eraseDups _ item]
    by_cases same : (first == item) = true
    · rw [same, Bool.true_or, Bool.true_or]
    · rw [any_beq_filter_of_ne (Bool.eq_false_iff.2 same)]
termination_by items.length
decreasing_by exact length_filter_lt_cons first rest

/-- An item more is kept if it equals none of those before it. -/
theorem eraseDups_concat (items : List α) (item : α) :
    (items ++ [item]).eraseDups =
      if items.any (· == item) then items.eraseDups else items.eraseDups ++ [item] := by
  match items with
  | [] => rfl
  | first :: rest =>
    rw [List.cons_append, List.eraseDups_cons, List.eraseDups_cons, List.any_cons,
      List.filter_append, List.filter_singleton]
    by_cases same : (first == item) = true
    · rw [BEq.comm, same, Bool.true_or, if_pos rfl, Bool.not_true, cond_false, List.append_nil]
    · rw [Bool.not_eq_true] at same
      rw [BEq.comm, same, Bool.false_or, Bool.not_false, cond_true, eraseDups_concat _ item,
        any_beq_filter_of_ne same]
      split <;> rfl
termination_by items.length
decreasing_by exact length_filter_lt_cons first rest

omit [EquivBEq α] in
theorem eraseDups_eq_nil_iff {items : List α} : items.eraseDups = [] ↔ items = [] := by
  cases items with
  | nil => exact iff_of_true rfl rfl
  | cons first rest =>
    rw [List.eraseDups_cons]
    exact iff_of_false nofun nofun

/-- A change of items that keeps apart what differs keeps the first places. -/
theorem eraseDups_map {β : Type} [BEq β] [EquivBEq β] {change : α → β} {items : List α}
    (kept : ∀ a ∈ items, ∀ b ∈ items, (change a == change b) = (a == b)) :
    (items.map change).eraseDups = items.eraseDups.map change := by
  induction items using List.reverseRecOn with
  | nil => rfl
  | append_singleton items item ih =>
    have before := ih fun a mem b mem' =>
      kept a (List.mem_append_left _ mem) b (List.mem_append_left _ mem')
    have known : (items.map change).any (· == change item) = items.any (· == item) := by
      rw [List.any_map, Bool.eq_iff_iff, List.any_eq_true, List.any_eq_true]
      refine exists_congr fun a => and_congr_right fun mem => ?_
      exact Bool.eq_iff_iff.1 (kept a (List.mem_append_left _ mem) item (by simp))
    rw [List.map_append, List.map_singleton, eraseDups_concat, eraseDups_concat, known, before]
    split
    · rfl
    · rw [List.map_append, List.map_singleton]

end FirstPlaces

/-! ### What registrations are of -/

/-- The name of a mention, if it is one of a name. -/
def Mention.name? {ν : Type} : Mention ν → Option String
  | .name text => some text
  | .value _ => none

/-- The literal of a mention, if it is one of a literal. -/
def Mention.value? {ν : Type} : Mention ν → Option ν
  | .name _ => none
  | .value literal => some literal

namespace Placeholders

/-! ### One registration -/

/-- A name is listed behind the others if it is not listed yet. -/
theorem names_register_name (table : Placeholders) (name : String) :
    (table.register (.name name)).names.map Prod.fst =
      if (table.names.map Prod.fst).any (· == name) then table.names.map Prod.fst
      else table.names.map Prod.fst ++ [name] := by
  have known : (table.names.map Prod.fst).any (· == name) = (table.ofName? name).isSome := by
    rw [ofName?, Option.isSome_map, List.isSome_find?, List.any_map]
    rfl
  rw [known]
  rcases table.addName_cases name with
    ⟨_, found, added⟩ | ⟨_, _, missing, _, _, _, _, added⟩
  · rw [register, give, added, found]
    rfl
  · rw [register, give, added, missing]
    exact List.map_append

/-- A value is listed behind the others if no equal one is listed yet. -/
theorem values_register_value (table : Placeholders) (value : AttributeValue) :
    (table.register (.value value)).values.map Prod.fst =
      if (table.values.map Prod.fst).any (· == value) then table.values.map Prod.fst
      else table.values.map Prod.fst ++ [value] := by
  have known : (table.values.map Prod.fst).any (· == value) = (table.ofValue? value).isSome := by
    rw [ofValue?, Option.isSome_map, List.isSome_find?, List.any_map]
    rfl
  rw [known]
  rcases table.addValue_cases value with ⟨_, found, added⟩ | ⟨missing, added⟩
  · rw [register, give, added, found]
    rfl
  · rw [register, give, added, missing]
    exact List.map_append

/-- A value adds no name. -/
theorem names_register_value (table : Placeholders) (value : AttributeValue) :
    (table.register (.value value)).names = table.names := by
  rcases table.addValue_cases value with ⟨_, _, added⟩ | ⟨_, added⟩ <;>
    rw [register, give, added]
  rfl

/-- A name adds no value. -/
theorem values_register_name (table : Placeholders) (name : String) :
    (table.register (.name name)).values = table.values := by
  rcases table.addName_cases name with ⟨_, _, added⟩ | ⟨_, _, _, _, _, _, _, added⟩ <;>
    rw [register, give, added]
  rfl

/-- A registration keeps the maps in order. -/
theorem sorted_register {table : Placeholders} (names : table.nameMap.Sorted)
    (values : table.valueMap.Sorted) (registration : Registration) :
    (table.register registration).nameMap.Sorted ∧
      (table.register registration).valueMap.Sorted := by
  cases registration with
  | name name =>
    rcases table.addName_cases name with ⟨_, _, added⟩ | ⟨_, _, _, _, _, _, _, added⟩ <;>
      rw [register, give, added]
    · exact ⟨names, values⟩
    · exact ⟨Entries.sorted_insert names, values⟩
  | value value =>
    rcases table.addValue_cases value with ⟨_, _, added⟩ | ⟨_, added⟩ <;>
      rw [register, give, added]
    · exact ⟨names, values⟩
    · exact ⟨names, Entries.sorted_insert values⟩

/-! ### All registrations -/

variable (settings : Settings) (registrations : List Registration)

/-- The names of a table are those that were registered, each at its first place. -/
theorem names_registerAll :
    ((empty settings).registerAll registrations).names.map Prod.fst =
      (registrations.filterMap Mention.name?).eraseDups := by
  induction registrations using List.reverseRecOn with
  | nil => rfl
  | append_singleton registrations registration ih =>
    rw [registerAll_append, registerAll_cons, registerAll_nil, List.filterMap_append]
    cases registration with
    | value value =>
      rw [names_register_value, ih]
      exact congrArg List.eraseDups (List.append_nil _).symm
    | name name =>
      rw [names_register_name, ih, any_beq_eraseDups]
      exact (eraseDups_concat _ name).symm

/-- The values of a table are those that were registered, each at its first place up to equality. -/
theorem values_registerAll :
    ((empty settings).registerAll registrations).values.map Prod.fst =
      (registrations.filterMap Mention.value?).eraseDups := by
  induction registrations using List.reverseRecOn with
  | nil => rfl
  | append_singleton registrations registration ih =>
    rw [registerAll_append, registerAll_cons, registerAll_nil, List.filterMap_append]
    cases registration with
    | name name =>
      rw [values_register_name, ih]
      exact congrArg List.eraseDups (List.append_nil _).symm
    | value value =>
      rw [values_register_value, ih, any_beq_eraseDups]
      exact (eraseDups_concat _ value).symm

/-- The maps of a table are in order. -/
theorem sorted_registerAll :
    ((empty settings).registerAll registrations).nameMap.Sorted ∧
      ((empty settings).registerAll registrations).valueMap.Sorted := by
  induction registrations using List.reverseRecOn with
  | nil => exact ⟨Entries.sorted_nil, Entries.sorted_nil⟩
  | append_singleton registrations registration ih =>
    rw [registerAll_append]
    exact sorted_register ih.1 ih.2 registration

/-! ### Maps -/

/-- A map of entries that are listed the other way round has the things that are listed. -/
theorem perm_of_mem_iff {α : Type} {entries : Entries α} {listed : List (α × String)}
    (sorted : entries.Sorted) (distinct : listed.Nodup)
    (same : ∀ key value, entries.find? key = some value ↔ (value, key) ∈ listed) :
    (entries.map Prod.snd).Perm (listed.map Prod.fst) := by
  have keys := sorted.nodup_keys
  have swapped : (entries.map Prod.swap).Nodup :=
    (List.Nodup.of_map Prod.fst keys).map Prod.swap_injective
  have perm : (entries.map Prod.swap).Perm listed := by
    rw [List.perm_ext_iff_of_nodup swapped distinct]
    rintro ⟨value, key⟩
    rw [← same, Entries.find?_eq_some_iff keys]
    exact List.mem_map_of_injective Prod.swap_injective (a := (key, value))
  have mapped := perm.map Prod.fst
  rw [List.map_map] at mapped
  exact mapped

namespace Consistent

variable {table : Placeholders} (consistent : table.Consistent)

include consistent

/-- The value at a place of the list has the placeholder with the number of this place. -/
theorem placeholder_of_getElem? {place : Nat} {entry : AttributeValue × String}
    (found : table.values[place]? = some entry) :
    entry.2 = table.valuePlaceholder (place + 1) := by
  have numbered := congrArg (·[place]?) consistent.values_numbered
  have inside : place < table.values.length := (List.getElem?_eq_some_iff.1 found).1
  simp only [List.getElem?_map, found, List.getElem?_range' inside, Option.map_some] at numbered
  rw [Option.some.inj numbered, Nat.one_mul, Nat.add_comm]

/-- The value placeholder of a number stands for the value that is listed with this number. -/
theorem value?_valuePlaceholder (number : Nat) :
    table.value? (table.valuePlaceholder (number + 1)) =
      (table.values.map Prod.fst)[number]? := by
  refine Option.ext fun value => ?_
  rw [consistent.value?_iff, List.mem_iff_getElem?, List.getElem?_map, Option.map_eq_some_iff]
  constructor
  · rintro ⟨place, found⟩
    have same := valuePlaceholder_injective (consistent.placeholder_of_getElem? found)
    rw [Nat.succ_injective same]
    exact ⟨_, found, rfl⟩
  · rintro ⟨⟨value, placeholder⟩, found, rfl⟩
    have placed := consistent.placeholder_of_getElem? found
    exact ⟨number, by rw [found, ← placed]⟩

/-- No two entries of values are the same. -/
theorem nodup_values : table.values.Nodup :=
  List.Nodup.of_map Prod.snd consistent.nodup_placeholders

end Consistent

/-- **The value placeholder of a number stands for the literal with this number** among those that
were registered and equal none before them. -/
theorem value?_registerAll (number : Nat) :
    ((empty settings).registerAll registrations).value?
        (settings.stem ++ Number.natText (number + 1)) =
      (registrations.filterMap Mention.value?).eraseDups[number]? := by
  have consistent := (consistent_empty settings).registerAll registrations
  rw [← values_registerAll settings, ← consistent.value?_valuePlaceholder, valuePlaceholder,
    settings_registerAll, settings_empty]

/-- Whether the maps of a table bind placeholders to some names and to some literals, and to nothing
else: to each name once, and to each literal once up to equality. -/
structure Lists (table : Placeholders) (names : List String) (literals : List AttributeValue) :
    Prop where
  /-- Every name has one placeholder. -/
  names : (table.nameMap.map Prod.snd).Perm names.eraseDups
  /-- Every literal that equals none before it has one placeholder. -/
  values : (table.valueMap.map Prod.snd).Perm literals.eraseDups
  /-- No two of them are equal. -/
  distinct : literals.eraseDups.Pairwise fun first second => (first == second) = false
  /-- Every literal equals one of them. -/
  complete : ∀ literal ∈ literals, ∃ known ∈ literals.eraseDups, (known == literal) = true

/-- A map that has some items is left out exactly if there are none. -/
theorem absent_iff_of_perm {α : Type} [BEq α] {entries : Entries α} {items : List α}
    (perm : (entries.map Prod.snd).Perm items.eraseDups) :
    (if entries.isEmpty then none else some entries) = none ↔ items = [] := by
  rw [← eraseDups_eq_nil_iff]
  cases entries with
  | nil => exact iff_of_true rfl (List.perm_nil.1 perm.symm)
  | cons entry entries =>
    refine iff_of_false nofun fun none => ?_
    rw [none] at perm
    cases List.perm_nil.1 perm

namespace Lists

variable {table : Placeholders} {names : List String} {literals : List AttributeValue}
  (lists : table.Lists names literals)

include lists

/-- The map of names is absent exactly if there are no names. -/
theorem bindings_names : table.bindings.names = none ↔ names = [] :=
  absent_iff_of_perm lists.names

/-- The map of values is absent exactly if there are no literals. -/
theorem bindings_values : table.bindings.values = none ↔ literals = [] :=
  absent_iff_of_perm lists.values

end Lists

/-- **A table lists what was registered**, and nothing else. -/
theorem lists_registerAll : ((empty settings).registerAll registrations).Lists
    (registrations.filterMap Mention.name?) (registrations.filterMap Mention.value?) := by
  have consistent := (consistent_empty settings).registerAll registrations
  have sorted := sorted_registerAll settings registrations
  have names := names_registerAll settings registrations
  have values := values_registerAll settings registrations
  refine ⟨?_, ?_, ?_, ?_⟩
  · rw [← names]
    exact perm_of_mem_iff sorted.1 (List.Nodup.of_map Prod.fst consistent.names_distinct)
      fun _ _ => consistent.name?_iff
  · rw [← values]
    exact perm_of_mem_iff sorted.2 consistent.nodup_values fun _ _ => consistent.value?_iff
  · rw [← values]
    exact consistent.values_distinct.map Prod.fst fun _ _ => id
  · intro literal mem
    have kept : (registrations.filterMap Mention.value?).eraseDups.any (· == literal) = true := by
      rw [any_beq_eraseDups]
      exact List.any_eq_true.2 ⟨literal, mem, BEq.rfl⟩
    exact List.any_eq_true.1 kept

end Placeholders

end ItemExpr
