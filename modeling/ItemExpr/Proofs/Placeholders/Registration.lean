import ItemExpr.Proofs.AttributeValue.Canonical
import ItemExpr.Proofs.Placeholders.Numbering

/-! # Registrations

Whatever is compiled, a table of placeholders only ever changes by `Registration`s: a name or a
value asks for its placeholder. `addName_cases` and `addValue_cases` say once what becomes of the
table. A placeholder that was given stays the answer to its registration, whatever is registered
later (`placeholder?_registerAll`). -/

namespace ItemExpr

/-- A **mention** of a name or of a literal in an expression. -/
inductive Mention (ν : Type) where
  /-- A name. -/
  | name (name : String)
  /-- A literal. -/
  | value (value : ν)
deriving Repr

/-- A **registration**: a name or a value that asks a table for its placeholder. -/
abbrev Registration := Mention AttributeValue

namespace Placeholders

/-! ### What a registration does -/

/-- The placeholder that a registration is given, and the table after it. -/
def give (table : Placeholders) : Registration → String × Placeholders
  | .name name => table.addName name
  | .value value => table.addValue value

/-- The table after a registration. -/
def register (table : Placeholders) (registration : Registration) : Placeholders :=
  (table.give registration).2

/-- The table after some registrations, in order. -/
def registerAll (table : Placeholders) (registrations : List Registration) : Placeholders :=
  registrations.foldl register table

/-- The placeholder of a registration that was made before, or of an equal one. -/
def placeholder? (table : Placeholders) : Registration → Option String
  | .name name => table.ofName? name
  | .value value => table.ofValue? value

/-- How a registration that was made before is written. -/
def spell (table : Placeholders) (registration : Registration) : String :=
  (table.placeholder? registration).getD ""

@[simp] theorem registerAll_nil (table : Placeholders) : table.registerAll [] = table := rfl

@[simp] theorem registerAll_cons (table : Placeholders) (registration : Registration)
    (registrations : List Registration) :
    table.registerAll (registration :: registrations) =
      (table.register registration).registerAll registrations := rfl

@[simp] theorem registerAll_append (table : Placeholders) (first second : List Registration) :
    table.registerAll (first ++ second) = (table.registerAll first).registerAll second :=
  List.foldl_append

/-! ### Names -/

/-- What becomes of a table when a name is added: nothing if it is there already; otherwise the name
is bound to a free placeholder, and every number that the counter passes has its placeholder
taken. -/
theorem addName_cases (table : Placeholders) (name : String) :
    (∃ placeholder, table.ofName? name = some placeholder ∧
      table.addName name = (placeholder, table)) ∨
    (∃ placeholder counter, table.ofName? name = none ∧ placeholder ∉ table.taken ∧
      IsMarked '#' placeholder ∧ table.nameCounter ≤ counter ∧
      (∀ number, table.nameCounter < number → number ≤ counter →
        numbered number ∈ table.taken ∨ numbered number = placeholder) ∧
      table.addName name =
        (placeholder, { table.bindName name placeholder with nameCounter := counter })) := by
  rw [addName]
  split
  case h_1 placeholder found => exact Or.inl ⟨placeholder, found, rfl⟩
  case h_2 missing =>
    right
    split
    case isTrue plain =>
      -- The name is its own placeholder, and the counter stays.
      refine ⟨readable name, table.nameCounter, missing, plain.2, isMarked_readable plain.1,
        Nat.le_refl _, ?_, rfl⟩
      intro number after before
      omega
    case isFalse =>
      -- The name gets the next free number, and every number before that one is taken.
      have later := lt_nextFree table.taken table.nameCounter
      refine ⟨numbered (nextFree table.taken table.nameCounter), _, missing,
        numbered_nextFree_notMem _ _, isMarked_numbered _, Nat.le_of_lt later, ?_, rfl⟩
      intro number after before
      by_cases last : number = nextFree table.taken table.nameCounter
      · exact Or.inr (by rw [last])
      · exact Or.inl (numbered_mem_of_lt_nextFree after (by omega))

/-- A name that was bound is found, unless it was there before. -/
theorem ofName?_bindName (table : Placeholders) (name placeholder other : String)
    (counter : Nat) :
    ofName? { table.bindName name placeholder with nameCounter := counter } other =
      (table.ofName? other).or (if name = other then some placeholder else none) := by
  simp only [ofName?, bindName, List.find?_append, Option.map_or]
  by_cases same : name = other <;> simp [same]

/-! ### Values -/

/-- What becomes of a table when a value is added: nothing if an equal one is there already;
otherwise the value is bound to the placeholder with the next number. -/
theorem addValue_cases (table : Placeholders) (value : AttributeValue) :
    (∃ placeholder, table.ofValue? value = some placeholder ∧
      table.addValue value = (placeholder, table)) ∨
    (table.ofValue? value = none ∧
      table.addValue value =
        (table.valuePlaceholder (table.valueCounter + 1),
          { table.bindValue value (table.valuePlaceholder (table.valueCounter + 1)) with
            valueCounter := table.valueCounter + 1 })) := by
  rw [addValue]
  split
  case h_1 placeholder found => exact Or.inl ⟨placeholder, found, rfl⟩
  case h_2 missing => exact Or.inr ⟨missing, rfl⟩

/-- A value that was bound is found, unless an equal one was there before. -/
theorem ofValue?_bindValue (table : Placeholders) (value other : AttributeValue)
    (placeholder : String) (counter : Nat) :
    ofValue? { table.bindValue value placeholder with valueCounter := counter } other =
      (table.ofValue? other).or (if value == other then some placeholder else none) := by
  simp only [ofValue?, bindValue, List.find?_append, Option.map_or]
  by_cases same : (value == other) = true <;> simp [same]

/-! ### What later registrations leave alone -/

/-- A registration gets the placeholder that the table has for it from then on. -/
theorem placeholder?_register_self (table : Placeholders) (registration : Registration) :
    (table.register registration).placeholder? registration =
      some (table.give registration).1 := by
  cases registration with
  | name name =>
    rcases table.addName_cases name with ⟨_, found, added⟩ | ⟨_, _, missing, _, _, _, _, added⟩
    · simp [register, give, added, placeholder?, found]
    · simp [register, give, added, placeholder?, ofName?_bindName, missing]
  | value value =>
    rcases table.addValue_cases value with ⟨_, found, added⟩ | ⟨missing, added⟩
    · simp [register, give, added, placeholder?, found]
    · simp [register, give, added, placeholder?, ofValue?_bindValue, missing]

/-- A placeholder that was given stays, whatever is registered next. -/
theorem placeholder?_register {table : Placeholders} {registration : Registration}
    {placeholder : String} (next : Registration)
    (given : table.placeholder? registration = some placeholder) :
    (table.register next).placeholder? registration = some placeholder := by
  cases next with
  | name name =>
    rcases table.addName_cases name with ⟨_, _, added⟩ | ⟨_, _, _, _, _, _, _, added⟩
    · rw [register, give, added]
      exact given
    · rw [register, give, added]
      cases registration with
      | name other =>
        -- What is found in front hides what is bound behind it.
        rw [placeholder?] at given
        rw [placeholder?, ofName?_bindName, given, Option.some_or]
      | value other => exact given
  | value value =>
    rcases table.addValue_cases value with ⟨_, _, added⟩ | ⟨_, added⟩
    · rw [register, give, added]
      exact given
    · rw [register, give, added]
      cases registration with
      | name other => exact given
      | value other =>
        rw [placeholder?] at given
        rw [placeholder?, ofValue?_bindValue, given, Option.some_or]

/-- A placeholder that was given stays, whatever is registered later. -/
theorem placeholder?_registerAll {table : Placeholders} {registration : Registration}
    {placeholder : String} (later : List Registration)
    (given : table.placeholder? registration = some placeholder) :
    (table.registerAll later).placeholder? registration = some placeholder := by
  induction later generalizing table with
  | nil => exact given
  | cons next later ih => exact ih (placeholder?_register next given)

/-- Entries stay in a table, whatever is registered next. -/
theorem entries_subset_register (table : Placeholders) (registration : Registration) :
    table.names ⊆ (table.register registration).names ∧
      table.values ⊆ (table.register registration).values := by
  cases registration with
  | name name =>
    rcases table.addName_cases name with ⟨_, _, added⟩ | ⟨_, _, _, _, _, _, _, added⟩ <;>
      rw [register, give, added]
    · exact ⟨fun _ mem => mem, fun _ mem => mem⟩
    · exact ⟨fun _ mem => List.mem_append_left _ mem, fun _ mem => mem⟩
  | value value =>
    rcases table.addValue_cases value with ⟨_, _, added⟩ | ⟨_, added⟩ <;>
      rw [register, give, added]
    · exact ⟨fun _ mem => mem, fun _ mem => mem⟩
    · exact ⟨fun _ mem => mem, fun _ mem => List.mem_append_left _ mem⟩

/-- Entries stay in a table, whatever is registered later. -/
theorem entries_subset_registerAll (table : Placeholders) (later : List Registration) :
    table.names ⊆ (table.registerAll later).names ∧
      table.values ⊆ (table.registerAll later).values := by
  induction later generalizing table with
  | nil => exact ⟨fun _ mem => mem, fun _ mem => mem⟩
  | cons next later ih =>
    have first := table.entries_subset_register next
    have rest := ih (table.register next)
    exact ⟨fun _ mem => rest.1 (first.1 mem), fun _ mem => rest.2 (first.2 mem)⟩

/-- What is in a table after a registration was in it before or was registered. -/
theorem mem_register {table : Placeholders} {registration : Registration} :
    (∀ {name placeholder}, (name, placeholder) ∈ (table.register registration).names →
      (name, placeholder) ∈ table.names ∨ .name name = registration) ∧
    (∀ {value placeholder}, (value, placeholder) ∈ (table.register registration).values →
      (value, placeholder) ∈ table.values ∨ .value value = registration) := by
  cases registration with
  | name name =>
    rcases table.addName_cases name with ⟨_, _, added⟩ | ⟨_, _, _, _, _, _, _, added⟩ <;>
      rw [register, give, added]
    · exact ⟨fun mem => Or.inl mem, fun mem => Or.inl mem⟩
    · refine ⟨fun mem => ?_, fun mem => Or.inl mem⟩
      rcases List.mem_append.1 mem with mem | mem
      · exact Or.inl mem
      · cases List.mem_singleton.1 mem
        exact Or.inr rfl
  | value value =>
    rcases table.addValue_cases value with ⟨_, _, added⟩ | ⟨_, added⟩ <;>
      rw [register, give, added]
    · exact ⟨fun mem => Or.inl mem, fun mem => Or.inl mem⟩
    · refine ⟨fun mem => Or.inl mem, fun mem => ?_⟩
      rcases List.mem_append.1 mem with mem | mem
      · exact Or.inl mem
      · cases List.mem_singleton.1 mem
        exact Or.inr rfl

/-- A name that is in a table in the end was in it before or was registered. -/
theorem mem_names_registerAll {table : Placeholders} {registrations : List Registration}
    {name placeholder : String}
    (mem : (name, placeholder) ∈ (table.registerAll registrations).names) :
    (name, placeholder) ∈ table.names ∨ .name name ∈ registrations := by
  induction registrations generalizing table with
  | nil => exact Or.inl mem
  | cons registration registrations ih =>
    -- It was in the table after the first registration, or was registered later.
    rcases ih mem with mem | mem
    · rcases mem_register.1 mem with mem | rfl
      · exact Or.inl mem
      · exact Or.inr List.mem_cons_self
    · exact Or.inr (List.mem_cons_of_mem _ mem)

/-- A value that is in a table in the end was in it before or was registered. -/
theorem mem_values_registerAll {table : Placeholders} {registrations : List Registration}
    {value : AttributeValue} {placeholder : String}
    (mem : (value, placeholder) ∈ (table.registerAll registrations).values) :
    (value, placeholder) ∈ table.values ∨ .value value ∈ registrations := by
  induction registrations generalizing table with
  | nil => exact Or.inl mem
  | cons registration registrations ih =>
    rcases ih mem with mem | mem
    · rcases mem_register.2 mem with mem | rfl
      · exact Or.inl mem
      · exact Or.inr List.mem_cons_self
    · exact Or.inr (List.mem_cons_of_mem _ mem)

@[simp] theorem settings_register (table : Placeholders) (registration : Registration) :
    (table.register registration).settings = table.settings := by
  cases registration with
  | name name =>
    rcases table.addName_cases name with ⟨_, _, added⟩ | ⟨_, _, _, _, _, _, _, added⟩ <;>
      rw [register, give, added]
    rfl
  | value value =>
    rcases table.addValue_cases value with ⟨_, _, added⟩ | ⟨_, added⟩ <;>
      rw [register, give, added]
    rfl

@[simp] theorem settings_registerAll (table : Placeholders) (registrations : List Registration) :
    (table.registerAll registrations).settings = table.settings := by
  induction registrations generalizing table with
  | nil => rfl
  | cons registration registrations ih => rw [registerAll_cons, ih, settings_register]

/-! ### Registrations that were made -/

/-- Whether a table has a placeholder for every one of some registrations. -/
def Covers (table : Placeholders) (registrations : List Registration) : Prop :=
  ∀ registration ∈ registrations, ∃ placeholder,
    table.placeholder? registration = some placeholder

theorem Covers.flatMap {table : Placeholders} {α : Type} {items : List α}
    {mentions : α → List Registration} :
    table.Covers (items.flatMap mentions) ↔ ∀ item ∈ items, table.Covers (mentions item) := by
  constructor
  · intro covers item mem registration mem'
    exact covers registration (List.mem_flatMap.2 ⟨item, mem, mem'⟩)
  · intro each registration mem
    obtain ⟨item, mem, mem'⟩ := List.mem_flatMap.1 mem
    exact each item mem registration mem'

/-- What a table covers, it still covers later. -/
theorem Covers.registerAll {table : Placeholders} {registrations : List Registration}
    (covers : table.Covers registrations) (later : List Registration) :
    (table.registerAll later).Covers registrations := by
  intro registration mem
  obtain ⟨placeholder, given⟩ := covers registration mem
  exact ⟨placeholder, placeholder?_registerAll later given⟩

/-- A table covers what was registered in it. -/
theorem covers_registerAll (table : Placeholders) (registrations : List Registration) :
    (table.registerAll registrations).Covers registrations := by
  induction registrations generalizing table with
  | nil => simp [Covers]
  | cons registration registrations ih =>
    intro other mem
    rcases List.mem_cons.1 mem with rfl | mem
    · exact ⟨_, placeholder?_registerAll registrations (table.placeholder?_register_self _)⟩
    · exact ih (table.register registration) other mem

/-- What a table covers is written the same later. -/
theorem Covers.spell_registerAll {table : Placeholders} {registrations : List Registration}
    (covers : table.Covers registrations) (later : List Registration) :
    ∀ registration ∈ registrations,
      (table.registerAll later).spell registration = table.spell registration := by
  intro registration mem
  obtain ⟨placeholder, given⟩ := covers registration mem
  rw [spell, spell, given, placeholder?_registerAll later given]

/-- What a table has a placeholder for changes nothing when it is registered again. -/
theorem register_of_placeholder? {table : Placeholders} {registration : Registration}
    {placeholder : String} (given : table.placeholder? registration = some placeholder) :
    table.register registration = table := by
  cases registration with
  | name name => exact congrArg Prod.snd (addName_of_ofName? given)
  | value value => exact congrArg Prod.snd (addValue_of_ofValue? given)

/-- What a table covers changes nothing when it is registered again. -/
theorem Covers.registerAll_eq {table : Placeholders} {registrations : List Registration}
    (covers : table.Covers registrations) : table.registerAll registrations = table := by
  induction registrations with
  | nil => rfl
  | cons registration registrations ih =>
    obtain ⟨⟨placeholder, given⟩, rest⟩ := List.forall_mem_cons.1 covers
    rw [registerAll_cons, register_of_placeholder? given, ih rest]

end Placeholders

end ItemExpr
