import ItemExpr.Proofs.Condition.Reading
import ItemExpr.Proofs.Update.Change
import ItemExpr.Update.Compile

/-! # What updates say

`Update.read` gives the changes that an update says, in the order of its actions, or the first
reason to refuse it. The compiler of updates registers the mentions of these changes in order and
writes their texts by parts (`Update.runOn_compile`). -/

namespace ItemExpr.Update

open Compile

/-! ### Reading -/

/-- The source that an operand says. -/
def Operand.read : Operand → Except CompileError (Source AttributeValue)
  | .value literal => return .value literal
  | .reference path fallback => do
    let path ← Path.read path
    return .reference path fallback

/-- The change that an action says on a target. -/
def Action.readOn (target : Path) : Action → Except CompileError (Change AttributeValue)
  | .set operand => return .change .set target (← operand.read)
  | .add operand => return .change .add target (← operand.read)
  | .subtract operand => return .change .subtract target (← operand.read)
  | .append operand => return .change .append target (← operand.read)
  | .prepend operand => return .change .prepend target (← operand.read)
  | .remove => return .remove target
  | .addToSet operand => return .change .addToSet target (← operand.read)
  | .deleteFromSet operand => return .change .deleteFromSet target (← operand.read)

/-- The change that an action says on the attribute of a path. -/
def Action.read (path : String) (action : Action) :
    Except CompileError (Change AttributeValue) :=
  match action.literalDefect? with
  | some defect => .error (.malformed path defect)
  | none => do
    let target ← Path.read path
    action.readOn target

/-- The changes that some actions say, in order. -/
def readAll : Update → Except CompileError (List (Change AttributeValue))
  | [] => return []
  | (path, action) :: rest => do
    let change ← action.read path
    let changes ← readAll rest
    return change :: changes

/-- The **changes that an update says**. -/
def read (update : Update) : Except CompileError (List (Change AttributeValue)) :=
  if update.isEmpty then .error .emptyUpdate
  else
    match firstRepeated? [] (update.map Prod.fst) with
    | some path => .error (.malformed path .repeatedTarget)
    | none => update.readAll

/-- An update that is read has its actions read one by one. -/
theorem readAll_of_read {update : Update} {changes : List (Change AttributeValue)}
    (reads : update.read = .ok changes) : update.readAll = .ok changes := by
  rw [read] at reads
  split at reads
  · cases reads
  · split at reads
    · cases reads
    · exact reads

/-! ### Compiling -/

/-- An operand writes its spelling. -/
theorem Operand.compile_denotes (operand : Operand) :
    operand.compile.Denotes fun _ => operand.read.map Source.phrase := by
  cases operand with
  | value literal => exact Denotes.value literal
  | reference path fallback =>
    cases fallback with
    | none =>
      refine (Compile.path_denotes path).congr fun settings => ?_
      rw [read]
      cases Path.read path <;> rfl
    | some fallback =>
      refine ((Compile.path_denotes path).map₂ (Denotes.value fallback)
        fun reference literal => Function.ifNotExists.call [reference, literal]).congr
        fun settings => ?_
      rw [read]
      cases Path.read path <;> rfl

/-- What an action with an operand writes, if it writes the text of a change. -/
theorem Action.compile_denotes_of_operand {path : String} {operand : Operand} {kind : Change.Kind}
    {layOut : String → String → String}
    (text : ∀ target source, (Change.change kind target source).text =
      layOut target.text source.text) :
    (do let target ← Compile.path path; let text ← operand.compile; return layOut target text
      : Compile String).Denotes fun _ =>
      (do let target ← Path.read path; return .change kind target (← operand.read)
        : Except CompileError (Change AttributeValue)).map Change.phrase := by
  refine ((Compile.path_denotes path).map₂ operand.compile_denotes layOut).congr
    fun settings => ?_
  cases Path.read path with
  | error refusal => rfl
  | ok target =>
    cases operand.read with
    | error refusal => rfl
    | ok source =>
      have same : (Change.change kind target source).phrase =
          target.phrase.map₂ layOut source.phrase := by
        simp only [Change.phrase, Change.spell, text]
        rfl
      exact congrArg Except.ok same.symm

/-- An action writes the spelling of the change that it says. -/
theorem Action.compile_denotes (path : String) (action : Action) :
    (action.compile path).Denotes fun _ => (action.read path).map Change.phrase := by
  rw [compile, read]
  cases action.literalDefect? with
  | some defect => exact Denotes.refuse path defect
  | none =>
    cases action with
    -- Nothing but a removal has no operand.
    | remove =>
      refine ((Compile.path_denotes path).map fun target => target).congr fun settings => ?_
      cases Path.read path <;> rfl
    | _ => exact Action.compile_denotes_of_operand fun _ _ => rfl

theorem Action.part_of_read {path : String} {action : Action} {change : Change AttributeValue}
    (reads : action.read path = .ok change) : change.part = action.part := by
  rw [read] at reads
  split at reads
  · cases reads
  · obtain ⟨target, _, reads⟩ := bind_eq_ok_iff.1 reads
    cases action with
    | remove =>
      cases reads
      rfl
    | _ =>
      obtain ⟨source, _, reads⟩ := bind_eq_ok_iff.1 reads
      cases reads
      rfl

/-- The actions of an update write the spellings of the changes that they say. -/
theorem entries_denotes (update : Update) :
    update.entries.Denotes fun _ => update.readAll.map Change.phraseAll := by
  induction update with
  | nil => exact Denotes.pure []
  | cons entry rest ih =>
    obtain ⟨path, action⟩ := entry
    refine ((action.compile_denotes path).map₂ ih
      fun entry tail => (action.part, entry) :: tail).congr fun settings => ?_
    rw [readAll]
    cases reads : action.read path with
    | error refusal => rfl
    | ok change =>
      -- An action is written in the part of the change that it says.
      rw [← Action.part_of_read reads]
      cases readAll rest <;> rfl

/-- An update comes out as the changes that it says, written by parts. -/
theorem runOn_compile (update : Update) (table : Placeholders) :
    update.compile.runOn table =
      clauseOutcome .update partsText table (update.read.map Change.phraseAll) := by
  rw [compile, read]
  by_cases empty : update.isEmpty = true
  · rw [if_pos empty, if_pos empty]
    rfl
  · rw [if_neg empty, if_neg empty]
    cases firstRepeated? [] (update.map Prod.fst) with
    | some path => rfl
    | none => exact update.entries_denotes.runOn_clause .update partsText table

end ItemExpr.Update
