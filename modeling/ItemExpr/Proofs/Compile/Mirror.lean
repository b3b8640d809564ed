import ItemExpr.Proofs.Collections.Increasing
import ItemExpr.Proofs.Compile.Phrase

/-! # Compilations with other literals

Take two compilations that differ in their literals only, in a way that keeps which of them are
equal and of which types they are (`KeepsPattern`). One runs as the mirror of the other
(`Compile.Mirrors`): it has the same result or is refused for the same reason, and its table differs
in the values that the placeholders stand for, and in nothing else. Mirrors compose as compilations
do, because no result gives a literal away. -/

namespace ItemExpr

/-! ### Images of literals -/

/-- Whether images of literals **keep their pattern**: equal literals have equal images and
different ones different images, types are kept, and the codes of types are their own images. -/
structure KeepsPattern (image : AttributeValue → AttributeValue) : Prop where
  /-- Images are equal exactly if the literals are. -/
  equal : ∀ a b, (image a == image b) = (a == b)
  /-- An image is of the type of the literal. -/
  type : ∀ a, (image a).type = a.type
  /-- The code of a type is its own image. -/
  code : ∀ type : AttributeType, image (.string type.code) = .string type.code

namespace Placeholders

/-- A table that stands for the images of its values. -/
def mapValues (image : AttributeValue → AttributeValue) (table : Placeholders) : Placeholders :=
  { table with
    values := table.values.map fun entry => (image entry.1, entry.2)
    valuesByPlaceholder := table.valuesByPlaceholder.map fun entry => (entry.1, image entry.2) }

@[simp] theorem mapValues_empty (image : AttributeValue → AttributeValue) (settings : Settings) :
    (empty settings).mapValues image = empty settings := rfl

variable {image : AttributeValue → AttributeValue} (table : Placeholders)

/-- A name is given what it is given without the images. -/
theorem addName_mapValues (name : String) :
    (table.mapValues image).addName name =
      ((table.addName name).1, (table.addName name).2.mapValues image) := by
  have known : (table.mapValues image).ofName? name = table.ofName? name := rfl
  rw [addName, addName, known]
  cases table.ofName? name with
  | some placeholder => rfl
  | none =>
    by_cases plain : isPlainName name ∧ readable name ∉ table.taken
    · rw [if_pos plain]
      exact if_pos plain
    · rw [if_neg plain]
      exact if_neg plain

/-- The image of a value has the placeholder of the value. -/
theorem ofValue?_mapValues (keeps : KeepsPattern image) (value : AttributeValue) :
    (table.mapValues image).ofValue? (image value) = table.ofValue? value := by
  have same : (fun entry : AttributeValue × String => entry.1 == image value) ∘
      (fun entry : AttributeValue × String => (image entry.1, entry.2)) =
        fun entry : AttributeValue × String => entry.1 == value :=
    funext fun entry => keeps.equal entry.1 value
  rw [ofValue?, mapValues, List.find?_map, Option.map_map, ofValue?, same]
  rfl

/-- The image of a value is given what the value is given. -/
theorem addValue_mapValues (keeps : KeepsPattern image) (value : AttributeValue) :
    (table.mapValues image).addValue (image value) =
      ((table.addValue value).1, (table.addValue value).2.mapValues image) := by
  rw [addValue, addValue, table.ofValue?_mapValues keeps]
  cases table.ofValue? value with
  | some placeholder => rfl
  | none =>
    refine congrArg (Prod.mk _) ?_
    -- The image stands in both maps where the value stands.
    have bound : (table.mapValues image).bindValue (image value)
          (table.valuePlaceholder (table.valueCounter + 1)) =
        (table.bindValue value (table.valuePlaceholder (table.valueCounter + 1))).mapValues
          image := by
      simp only [bindValue, mapValues, List.map_append, Entries.insert_map]
      rfl
    exact congrArg (fun after : Placeholders =>
      { after with valueCounter := table.valueCounter + 1 }) bound

end Placeholders

/-! ### Mirrors -/

/-- Whether two refusals are **alike**: they are the same, or the same defect was found at places
that are named differently. -/
inductive CompileError.Alike : CompileError → CompileError → Prop
  /-- The same refusal. -/
  | refl (refusal : CompileError) : Alike refusal refusal
  /-- The same defect. -/
  | malformed (place place' : String) (defect : Defect) :
      Alike (.malformed place defect) (.malformed place' defect)

namespace Compile

variable {α β : Type} {image : AttributeValue → AttributeValue}

/-- Whether two outcomes are alike: results that agree, or refusals that are alike. -/
def AlikeOutcomes (agree : α → α → Prop) : Except CompileError α → Except CompileError α → Prop
  | .ok result, .ok result' => agree result result'
  | .error refusal, .error refusal' => refusal.Alike refusal'
  | _, _ => False

/-- Whether a compilation **mirrors** another one: from a table with the images of the values it
comes to a result that agrees, and to a table with the images of the values. -/
def Mirrors (image : AttributeValue → AttributeValue) (agree : α → α → Prop)
    (compile compile' : Compile α) : Prop :=
  ∀ table, AlikeOutcomes agree (compile.runOn table).1
      (compile'.runOn (table.mapValues image)).1 ∧
    (compile'.runOn (table.mapValues image)).2 = (compile.runOn table).2.mapValues image

namespace Mirrors

variable {agree : α → α → Prop}

theorem pure {result result' : α} (same : agree result result') :
    Mirrors image agree (Pure.pure result) (Pure.pure result') :=
  fun _ => ⟨same, rfl⟩

theorem throw (refusal : CompileError) :
    Mirrors image agree (MonadExcept.throw refusal) (MonadExcept.throw refusal) :=
  fun _ => ⟨.refl refusal, rfl⟩

theorem refuse (place place' : String) (defect : Defect) :
    Mirrors image agree (Compile.refuse place defect) (Compile.refuse place' defect) :=
  fun _ => ⟨.malformed place place' defect, rfl⟩

theorem name (text : String) :
    Mirrors image Eq (Compile.name text) (Compile.name text) := by
  intro table
  rw [runOn_name, runOn_name, table.addName_mapValues]
  exact ⟨rfl, rfl⟩

/-- The image of a literal mirrors the literal. -/
theorem value (keeps : KeepsPattern image) (literal : AttributeValue) :
    Mirrors image Eq (Compile.value literal) (Compile.value (image literal)) := by
  intro table
  rw [runOn_value, runOn_value, table.addValue_mapValues keeps]
  exact ⟨rfl, rfl⟩

/-- What mirrors is gone on with as long as the results are the same. -/
theorem bind {agree : β → β → Prop} {first first' : Compile α} {next next' : α → Compile β}
    (front : Mirrors image Eq first first') (behind : ∀ a, Mirrors image agree (next a) (next' a)) :
    Mirrors image agree (first >>= next) (first' >>= next') := by
  intro table
  obtain ⟨alike, after⟩ := front table
  rw [runOn_bind, runOn_bind]
  rcases ran : first.runOn table with ⟨refusal | result, between⟩ <;>
    rcases ran' : first'.runOn (table.mapValues image) with ⟨refusal' | result', between'⟩ <;>
    rw [ran, ran'] at alike after
  · exact ⟨alike, after⟩
  · cases alike
  · cases alike
  · cases alike
    cases after
    exact behind result between

/-- A compilation may look at the table, as long as it does not see the values. -/
theorem get {next next' : Placeholders → Compile α}
    (behind : ∀ table, Mirrors image agree (next table) (next' (table.mapValues image))) :
    Mirrors image agree (MonadState.get >>= next) (MonadState.get >>= next') :=
  fun table => behind table table

/-- A transaction mirrors one of what mirrors. -/
theorem transaction {compile compile' : Compile α} (inner : Mirrors image agree compile compile') :
    Mirrors image agree (Compile.transaction compile) (Compile.transaction compile') := by
  intro table
  obtain ⟨alike, after⟩ := inner table
  rw [runOn_transaction, runOn_transaction]
  rcases ran : compile.runOn table with ⟨refusal | result, between⟩ <;>
    rcases ran' : compile'.runOn (table.mapValues image) with ⟨refusal' | result', between'⟩ <;>
    rw [ran, ran'] at alike after
  · exact ⟨alike, rfl⟩
  · cases alike
  · cases alike
  · exact ⟨alike, after⟩

/-- The length of a text is the same. -/
theorem limitLength (clause : Clause) (text : String) :
    Mirrors image Eq (Compile.limitLength clause text) (Compile.limitLength clause text) := by
  refine .get fun table => ?_
  show Mirrors image Eq (ite _ _ _) (ite (table.settings.maxBytes < _) _ _)
  split
  · exact .throw _
  · exact .pure rfl

/-- A path has no literals. -/
theorem steps (steps : List Path.Step) :
    Mirrors image Eq (Compile.steps steps) (Compile.steps steps) := by
  induction steps with
  | nil => exact .pure rfl
  | cons step steps ih =>
    cases step with
    | field field => exact (name field).bind fun _ => ih.bind fun _ => .pure rfl
    | index position => exact ih.bind fun _ => .pure rfl

theorem path (text : String) : Mirrors image Eq (Compile.path text) (Compile.path text) := by
  rw [Compile.path]
  cases Path.parse text with
  | error defect => exact refuse text text (.path defect)
  | ok path => exact (name path.root).bind fun _ => (steps path.steps).bind fun _ => .pure rfl

end Mirrors

end Compile

end ItemExpr
