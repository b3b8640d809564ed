import ItemExpr.Proofs.Request.Leaves
import ItemExpr.Proofs.Update.Outcome

/-! # The literals of updates

The operand of an action contributes a literal in one of two ways: it is one, or it refers to an
attribute and falls back on one. Either way the literal is a value of the table when the update
compiles. But only literals of the first kind are looked at. What a reference falls back on is taken
as it is, so that it can be replaced by any other literal and the update is still well-formed
(`Update.wellFormed_withoutFallbacks`). An update that compiles has no literal of the wrong kind
exactly if its references fall back on none (`Update.compile_takes_direct_literals`), and there are
updates that compile with such a literal (`Update.compile_sends_wrong_fallback`). -/

namespace ItemExpr.Update

open Compile

/-! ### Contributed literals -/

/-- The literal that an operand **contributes**. -/
def Operand.literal? : Operand → Option AttributeValue
  | .value literal => some literal
  | .reference _ fallback => fallback

/-- The literal that an action **contributes**. -/
def Action.literal? (action : Action) : Option AttributeValue :=
  action.operand?.bind Operand.literal?

/-- An action contributes its operand, or what that falls back on. -/
theorem Action.literal?_eq_some_iff {action : Action} {literal : AttributeValue} :
    action.literal? = some literal ↔ action.operand? = some (.value literal) ∨
      ∃ reference, action.operand? = some (.reference reference (some literal)) := by
  rw [literal?, Option.bind_eq_some_iff]
  constructor
  · rintro ⟨operand, has, contributes⟩
    cases operand with
    | value other =>
      cases contributes
      exact Or.inl has
    | reference path fallback =>
      cases contributes
      exact Or.inr ⟨path, has⟩
  · rintro (has | ⟨path, has⟩)
    · exact ⟨_, has, rfl⟩
    · exact ⟨_, has, rfl⟩

/-- What an action contributes is at one of its leaves. -/
theorem mem_leaves_of_literal? {update : Update} {entry : String × Action} (mem : entry ∈ update)
    {literal : AttributeValue} (contributes : entry.2.literal? = some literal) :
    literal ∈ update.leaves.filterMap ItemExpr.Operand.literal? := by
  obtain ⟨operand, has, contributes⟩ := Option.bind_eq_some_iff.1 contributes
  refine List.mem_filterMap.2 ⟨.value literal, List.mem_flatMap.2 ⟨entry, mem, ?_⟩, rfl⟩
  rw [has, Option.toList_some, List.flatMap_singleton]
  refine List.mem_cons_of_mem _ ?_
  cases operand with
  | value other =>
    cases contributes
    exact List.mem_singleton_self _
  | reference path fallback =>
    cases contributes
    exact List.mem_cons_of_mem _ (List.mem_singleton_self _)

/-- What the actions of an update contribute are values of the table after it. -/
theorem exists_value_of_literal? {update : Update} {table after : Placeholders} {text : String}
    (consistent : table.Consistent) (compiled : update.compile.runOn table = (.ok text, after))
    {entry : String × Action} (mem : entry ∈ update) {literal : AttributeValue}
    (contributes : entry.2.literal? = some literal) :
    ∃ sent, after.value? (after.spell (.value literal)) = some sent ∧ (sent == literal) = true := by
  obtain ⟨terms, reads, rfl⟩ := update.registersLeaves_compile compiled
  have listed := mem_leaves_of_literal? mem contributes
  rw [← ItemExpr.Operand.filterMap_literal? reads, ← Term.values_flatMap_mentions] at listed
  obtain ⟨mention, mentioned, same⟩ := List.mem_filterMap.1 listed
  have inverts := (consistent.registerAll _).inverts
    (table.covers_registerAll (terms.flatMap Term.mentions)) mention mentioned
  cases mention with
  | name name => cases same
  | value value =>
    cases same
    exact inverts

/-! ### Updates without fallbacks -/

/-- An operand without what it falls back on. -/
def Operand.withoutFallback : Operand → Operand
  | .value literal => .value literal
  | .reference path _ => .reference path none

/-- An action whose operand is changed. -/
def Action.mapOperand (change : Operand → Operand) : Action → Action
  | .set operand => .set (change operand)
  | .add operand => .add (change operand)
  | .subtract operand => .subtract (change operand)
  | .append operand => .append (change operand)
  | .prepend operand => .prepend (change operand)
  | .remove => .remove
  | .addToSet operand => .addToSet (change operand)
  | .deleteFromSet operand => .deleteFromSet (change operand)

/-- An update **without what its references fall back on**. -/
def withoutFallbacks (update : Update) : Update :=
  update.map fun entry => (entry.1, entry.2.mapOperand Operand.withoutFallback)

section Fallbacks

variable {action : Action} {change : Operand → Operand} {literal : AttributeValue} {path : String}

@[simp] theorem Action.operand?_mapOperand :
    (action.mapOperand change).operand? = action.operand?.map change := by
  cases action <;> rfl

@[simp] theorem Action.takes_mapOperand :
    (action.mapOperand change).Takes literal ↔ action.Takes literal := by
  cases action <;> rfl

theorem Operand.withoutFallback_eq_value_iff {operand : Operand} :
    operand.withoutFallback = .value literal ↔ operand = .value literal := by
  cases operand <;> simp [withoutFallback]

theorem Operand.withoutFallback_eq_reference_iff {operand : Operand} {text : String}
    {fallback : Option AttributeValue} : operand.withoutFallback = .reference text fallback ↔
      fallback = none ∧ ∃ fallback', operand = .reference text fallback' := by
  cases operand <;> simp [withoutFallback, and_comm, eq_comm]

/-- Whether an action is sound does not depend on what it falls back on. -/
theorem Action.isSound_withoutFallback :
    (action.mapOperand Operand.withoutFallback).IsSound path ↔ action.IsSound path := by
  constructor
  · rintro ⟨taken, target, reference⟩
    refine ⟨fun literal operand => ?_, target, fun text fallback operand => ?_⟩
    · refine takes_mapOperand.1 (taken literal ?_)
      rw [operand?_mapOperand, operand]
      rfl
    · refine reference text none ?_
      rw [operand?_mapOperand, operand]
      rfl
  · rintro ⟨taken, target, reference⟩
    refine ⟨fun literal operand => ?_, target, fun text fallback operand => ?_⟩
    · rw [operand?_mapOperand, Option.map_eq_some_iff] at operand
      obtain ⟨operand, has, same⟩ := operand
      rw [Operand.withoutFallback_eq_value_iff.1 same] at has
      exact takes_mapOperand.2 (taken literal has)
    · rw [operand?_mapOperand, Option.map_eq_some_iff] at operand
      obtain ⟨operand, has, same⟩ := operand
      obtain ⟨_, fallback', rfl⟩ := Operand.withoutFallback_eq_reference_iff.1 same
      exact reference text fallback' has

/-- **Whether an update is well-formed does not depend on what its references fall back on.** -/
theorem wellFormed_withoutFallbacks {update : Update} :
    update.withoutFallbacks.WellFormed ↔ update.WellFormed := by
  have targets : update.withoutFallbacks.map Prod.fst = update.map Prod.fst := by
    rw [withoutFallbacks, List.map_map]
    rfl
  have sound : (∀ entry ∈ update.withoutFallbacks, entry.2.IsSound entry.1) ↔
      ∀ entry ∈ update, entry.2.IsSound entry.1 := by
    rw [withoutFallbacks, List.forall_mem_map]
    exact forall₂_congr fun entry _ => Action.isSound_withoutFallback
  constructor
  · rintro ⟨nonempty, once, sound'⟩
    exact ⟨fun empty => nonempty (List.map_eq_nil_iff.2 empty), targets ▸ once, sound.1 sound'⟩
  · rintro ⟨nonempty, once, sound'⟩
    exact ⟨fun empty => nonempty (List.map_eq_nil_iff.1 empty), targets ▸ once, sound.2 sound'⟩

end Fallbacks

/-! ### Literals of compiled updates -/

/-- **What is looked at in a compiled update, and what is not.** On every table that a run has
reached, the literals that the actions of an update that compiles contribute are values of the table
after it. An action takes the literal that is its operand, so that all actions take what they
contribute exactly if they take what their references fall back on. But this is not looked at: with
any other literals to fall back on, or none, the update still comes out, unless its text is then too
long. -/
theorem compile_takes_direct_literals {settings : Settings} (tasks : List Task) (update : Update)
    {text : String} {after : Placeholders}
    (compiled : update.compile.runOn ((Placeholders.empty settings).run tasks) =
      (.ok text, after)) :
    (∀ entry ∈ update, ∀ literal, entry.2.literal? = some literal →
      ∃ sent, after.value? (after.spell (.value literal)) = some sent ∧
        (sent == literal) = true) ∧
    (∀ entry ∈ update, ∀ literal, entry.2.operand? = some (.value literal) →
      entry.2.Takes literal) ∧
    ((∀ entry ∈ update, ∀ literal, entry.2.literal? = some literal → entry.2.Takes literal) ↔
      ∀ entry ∈ update, ∀ reference literal,
        entry.2.operand? = some (.reference reference (some literal)) →
          entry.2.Takes literal) ∧
    ∀ (table : Placeholders) (other : Update),
      other.withoutFallbacks = update.withoutFallbacks →
        ∃ text', other.IsWrittenAs table text' ∧
          (other.compile.runOn table).1 =
            if table.settings.maxBytes < text'.utf8ByteSize then
              .error (.tooLong .update text'.utf8ByteSize table.settings.maxBytes)
            else .ok text' := by
  have consistent : ((Placeholders.empty settings).run tasks).Consistent :=
    (Placeholders.consistent_empty settings).run tasks
  have wellFormed := wellFormed_of_runOn_compile compiled
  have direct : ∀ entry ∈ update, ∀ literal, entry.2.operand? = some (.value literal) →
      entry.2.Takes literal := fun entry mem => (wellFormed.sound entry mem).taken
  refine ⟨fun entry mem literal => exists_value_of_literal? consistent compiled mem, direct, ?_, ?_⟩
  · constructor
    · intro taken entry mem reference literal has
      exact taken entry mem literal (Action.literal?_eq_some_iff.2 (Or.inr ⟨reference, has⟩))
    · intro taken entry mem literal contributes
      rcases Action.literal?_eq_some_iff.1 contributes with has | ⟨reference, has⟩
      · exact direct entry mem literal has
      · exact taken entry mem reference literal has
  · intro table other same
    have wellFormed' : other.WellFormed := by
      rw [← wellFormed_withoutFallbacks, same, wellFormed_withoutFallbacks]
      exact wellFormed
    obtain ⟨text', written⟩ := wellFormed'.exists_isWrittenAs table
    exact ⟨text', written, runOn_compile_of_wellFormed wellFormed' written⟩

/-- A sum that falls back on a number, behind a list that is joined to another one: both actions
take their literals. With a text to fall back on, the update is written as well. -/
theorem compile_takes_direct_literals_number :
    ∃ (update other : Update) (after : Placeholders) (text' : String),
      update = [("log", .append (.value (.list []))),
        ("total", .add (.reference "delta" (some (.number "10"))))] ∧
      other = [("log", .append (.value (.list []))),
        ("total", .add (.reference "delta" (some (.string "ten"))))] ∧
      update.compile.runOn ((Placeholders.empty {}).run [.name "log"]) =
        (.ok "SET #log = list_append(#log, :v1), #total = #total + if_not_exists(#delta, :v2)",
          after) ∧
      (∃ sent, after.value? (after.spell (.value (.number "10"))) = some sent ∧
        (sent == .number "10") = true) ∧
      (∀ entry ∈ update, ∀ literal, entry.2.literal? = some literal → entry.2.Takes literal) ∧
      other.IsWrittenAs (Placeholders.empty {}) text' := by
  have ran : (compile [("log", .append (.value (.list []))),
        ("total", .add (.reference "delta" (some (.number "10"))))]).runOn
        ((Placeholders.empty {}).run [.name "log"]) =
      (.ok "SET #log = list_append(#log, :v1), #total = #total + if_not_exists(#delta, :v2)", _) :=
    runOn_eq_of_toOption (by decide +kernel)
  obtain ⟨sent, _, taken, indifferent⟩ := compile_takes_direct_literals [.name "log"] _ ran
  obtain ⟨text', written, _⟩ := indifferent (Placeholders.empty {})
    [("log", .append (.value (.list []))),
      ("total", .add (.reference "delta" (some (.string "ten"))))] rfl
  refine ⟨_, _, _, text', rfl, rfl, ran, ?_, taken.2 ?_, written⟩
  · exact sent _ (List.mem_cons_of_mem _ (List.mem_singleton_self _)) _ rfl
  · simp only [List.forall_mem_cons]
    refine ⟨nofun, ?_, nofun⟩
    rintro _ _ ⟨⟩
    decide

/-- A sum that falls back on a text: the update compiles, the text is a value of the table, and it
is written where a number has to be. -/
theorem compile_sends_wrong_fallback :
    ∃ (update : Update) (text : String) (after : Placeholders),
      update = [("total", .add (.reference "delta" (some (.string "ten"))))] ∧
      update.compile.runOn (Placeholders.empty {}) = (.ok text, after) ∧
      text = "SET #total = #total + if_not_exists(#delta, :v1)" ∧
      after.value? ":v1" = some (.string "ten") ∧
      ¬∀ entry ∈ update, ∀ literal, entry.2.literal? = some literal →
        entry.2.Takes literal := by
  refine ⟨_, _, _, rfl, runOn_eq_of_toOption (by decide +kernel), rfl, rfl, fun taken => ?_⟩
  have wrong := taken _ (List.mem_singleton_self _) (.string "ten") rfl
  revert wrong
  decide

end ItemExpr.Update
