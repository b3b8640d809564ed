import ItemExpr.Proofs.Placeholders.Consistency

/-! # Paths in placeholders

In an expression a path is spelled with placeholders for its names (`Path.spell`), and whoever reads
the expression looks the placeholders up again (`Path.resolve`). A table that knows the names of a
path gives both directions, and they are inverse to each other (`Path.resolve_spell`). -/

namespace ItemExpr

/-! ### Spellings and their inverses -/

/-- Whether two look-ups give back what registrations are spelled as: each name itself, each value
up to equality. -/
def Inverts (spell : Registration → String) (names : String → Option String)
    (values : String → Option AttributeValue) (registrations : List Registration) : Prop :=
  ∀ registration ∈ registrations, match registration with
    | .name name => names (spell (.name name)) = some name
    | .value value => ∃ known, values (spell (.value value)) = some known ∧ (known == value) = true

theorem inverts_append {spell : Registration → String} {names : String → Option String}
    {values : String → Option AttributeValue} {first second : List Registration} :
    Inverts spell names values (first ++ second) ↔
      Inverts spell names values first ∧ Inverts spell names values second := by
  simp only [Inverts, List.mem_append, or_imp, forall_and]

theorem inverts_cons {spell : Registration → String} {names : String → Option String}
    {values : String → Option AttributeValue} {registration : Registration}
    {registrations : List Registration} :
    Inverts spell names values (registration :: registrations) ↔
      Inverts spell names values [registration] ∧ Inverts spell names values registrations :=
  @inverts_append _ _ _ [registration] registrations

/-- A consistent table gives back what it covers. -/
theorem Placeholders.Consistent.inverts {table : Placeholders} (consistent : table.Consistent)
    {registrations : List Registration} (covers : table.Covers registrations) :
    Inverts table.spell table.name? table.value? registrations := by
  intro registration mem
  obtain ⟨placeholder, given⟩ := covers registration mem
  have spelled : table.spell registration = placeholder := by
    rw [Placeholders.spell, given, Option.getD_some]
  cases registration with
  | name name =>
    show table.name? (table.spell (.name name)) = some name
    rw [spelled]
    exact consistent.ofName?_iff_name?.1 given
  | value value =>
    show ∃ known, table.value? (table.spell (.value value)) = some known ∧ _
    rw [spelled]
    exact consistent.ofValue?_iff_value?.1 given

/-- A mention, spelled in placeholders. -/
def Mention.spell (spelling : Registration → String) : Registration → Mention String
  | .name text => .name (spelling (.name text))
  | .value literal => .value (spelling (.value literal))

/-- Mentions are spelled alike by spellings that agree on them. -/
theorem Mention.map_spell_congr {f g : Registration → String} {registrations : List Registration}
    (agree : ∀ registration ∈ registrations, f registration = g registration) :
    registrations.map (Mention.spell f) = registrations.map (Mention.spell g) := by
  refine List.map_congr_left fun registration mem => ?_
  cases registration with
  | name text => rw [spell, spell, agree _ mem]
  | value literal => rw [spell, spell, agree _ mem]

/-- What is spelled item by item mentions what the items mention, spelled. -/
theorem Mention.flatMap_map {α β : Type} {f : Registration → String} {spelled : α → β}
    {mentions : α → List Registration} {mentions' : β → List (Mention String)}
    (each : ∀ item, mentions' (spelled item) = (mentions item).map (Mention.spell f))
    (items : List α) :
    (items.map spelled).flatMap mentions' = (items.flatMap mentions).map (Mention.spell f) := by
  induction items with
  | nil => rfl
  | cons item items ih =>
    rw [List.map_cons, List.flatMap_cons, List.flatMap_cons, List.map_append, each, ih]

/-- Items that are found again one by one in their spelling are found again as a list. -/
theorem Inverts.mapM_resolve {α β γ : Type} [BEq γ] {f : Registration → String}
    {names : String → Option String} {values : String → Option AttributeValue}
    {mentions : α → List Registration} {spelled : α → β} {meant : α → γ} {resolve : β → Option γ}
    (each : ∀ item, Inverts f names values (mentions item) →
      ∃ found, resolve (spelled item) = some found ∧ (found == meant item) = true)
    {items : List α} (inverts : Inverts f names values (items.flatMap mentions)) :
    ∃ found, (items.map spelled).mapM resolve = some found ∧
      (found == items.map meant) = true := by
  induction items with
  | nil => exact ⟨[], rfl, rfl⟩
  | cons item items ih =>
    rw [List.flatMap_cons, inverts_append] at inverts
    obtain ⟨first, found, equal⟩ := each item inverts.1
    obtain ⟨rest, found', equal'⟩ := ih inverts.2
    refine ⟨first :: rest, ?_, ?_⟩
    · rw [List.map_cons, List.mapM_cons, found, found']
      rfl
    · rw [List.map_cons, List.cons_beq_cons, equal, equal', Bool.and_self]

namespace Path

variable {ν : Type}

/-! ### Paths -/

/-- A step with its name replaced. -/
def Step.mapName (f : String → String) : Step → Step
  | .field name => .field (f name)
  | .index position => .index position

/-- The step that a step in placeholders stands for. -/
def Step.resolve (names : String → Option String) : Step → Option Step
  | .field placeholder => (names placeholder).map .field
  | .index position => some (.index position)

/-- The **mentions of a path**: its names, in order. -/
def mentions (path : Path) : List (Mention ν) := path.names.map .name

/-- A path, **spelled** in placeholders. -/
def spell (spelling : Registration → String) (path : Path) : Path where
  root := spelling (.name path.root)
  steps := path.steps.map (Step.mapName fun name => spelling (.name name))

/-- The path that a path in placeholders stands for. -/
def resolve (names : String → Option String) (path : Path) : Option Path :=
  match names path.root, path.steps.mapM (Step.resolve names) with
  | some root, some steps => some ⟨root, steps⟩
  | _, _ => none

/-- The mentions of the steps of a path. -/
def stepMentions (steps : List Step) : List (Mention ν) :=
  (steps.filterMap Step.name?).map .name

@[simp] theorem mentions_mk (root : String) (steps : List Step) :
    (mentions ⟨root, steps⟩ : List (Mention ν)) = .name root :: stepMentions steps := rfl

@[simp] theorem stepMentions_nil : (stepMentions [] : List (Mention ν)) = [] := rfl

@[simp] theorem stepMentions_field (name : String) (steps : List Step) :
    (stepMentions (.field name :: steps) : List (Mention ν)) =
      .name name :: stepMentions steps := rfl

@[simp] theorem stepMentions_index (position : Nat) (steps : List Step) :
    (stepMentions (.index position :: steps) : List (Mention ν)) = stepMentions steps := rfl

/-- Steps are spelled alike by spellings that agree on their names. -/
theorem map_mapName_congr {f g : Registration → String} {steps : List Step}
    (agree : ∀ registration ∈ stepMentions steps, f registration = g registration) :
    steps.map (Step.mapName fun name => f (.name name)) =
      steps.map (Step.mapName fun name => g (.name name)) := by
  induction steps with
  | nil => rfl
  | cons step steps ih =>
    cases step with
    | field name =>
      rw [stepMentions_field, List.forall_mem_cons] at agree
      rw [List.map_cons, List.map_cons, ih agree.2, Step.mapName, Step.mapName, agree.1]
    | index position =>
      rw [List.map_cons, List.map_cons, ih agree]
      rfl

/-- A path is spelled alike by spellings that agree on its names. -/
theorem spell_congr {f g : Registration → String} {path : Path}
    (agree : ∀ registration ∈ path.mentions, f registration = g registration) :
    path.spell f = path.spell g := by
  obtain ⟨root, steps⟩ := path
  rw [mentions_mk, List.forall_mem_cons] at agree
  rw [spell, spell, map_mapName_congr agree.2, agree.1]

/-- The mentions of spelled steps are the spelled mentions. -/
theorem stepMentions_map_mapName (f : Registration → String) (steps : List Step) :
    stepMentions (steps.map (Step.mapName fun name => f (.name name))) =
      (stepMentions steps).map (Mention.spell f) := by
  induction steps with
  | nil => rfl
  | cons step steps ih =>
    cases step with
    | field name =>
      rw [List.map_cons, Step.mapName, stepMentions_field, stepMentions_field, List.map_cons, ih]
      rfl
    | index position =>
      rw [List.map_cons, Step.mapName, stepMentions_index, stepMentions_index, ih]

/-- The mentions of a spelled path are its mentions, spelled. -/
@[simp] theorem mentions_spell (f : Registration → String) (path : Path) :
    (path.spell f).mentions = path.mentions.map (Mention.spell f) := by
  obtain ⟨root, steps⟩ := path
  rw [spell, mentions_mk, mentions_mk, stepMentions_map_mapName, List.map_cons]
  rfl

/-- The mentions of spelled paths are their mentions, spelled. -/
theorem flatMap_mentions_map_spell (f : Registration → String) (paths : List Path) :
    ((paths.map (spell f)).flatMap mentions : List (Mention String)) =
      (paths.flatMap mentions).map (Mention.spell f) :=
  Mention.flatMap_map (mentions_spell f) paths

/-- Steps are found again in their spelling. -/
theorem mapM_resolve_map_mapName {f : Registration → String} {names : String → Option String}
    {values : String → Option AttributeValue} {steps : List Step}
    (inverts : Inverts f names values (stepMentions steps)) :
    (steps.map (Step.mapName fun name => f (.name name))).mapM (Step.resolve names) =
      some steps := by
  induction steps with
  | nil => rfl
  | cons step steps ih =>
    cases step with
    | field name =>
      rw [stepMentions_field, inverts_cons] at inverts
      have found : names (f (.name name)) = some name := inverts.1 _ List.mem_cons_self
      rw [List.map_cons, List.mapM_cons, ih inverts.2, Step.mapName, Step.resolve, found]
      rfl
    | index position =>
      rw [List.map_cons, List.mapM_cons, ih inverts]
      rfl

/-- A path is found again in its spelling. -/
theorem resolve_spell {f : Registration → String} {names : String → Option String}
    {values : String → Option AttributeValue} {path : Path}
    (inverts : Inverts f names values path.mentions) :
    (path.spell f).resolve names = some path := by
  obtain ⟨root, steps⟩ := path
  rw [mentions_mk, inverts_cons] at inverts
  have found : names (f (.name root)) = some root := inverts.1 _ List.mem_cons_self
  rw [resolve, spell, mapM_resolve_map_mapName inverts.2, found]

end Path

end ItemExpr
