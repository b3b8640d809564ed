import ItemExpr.Placeholders
import ItemExpr.Update.Basic

/-! # Compiling updates

The text of an update has up to four parts, in the order SET, REMOVE, ADD and DELETE: each part
that has actions is its word and their entries in the order of the update, separated by commas.

An update is refused if it has no actions or names a target twice, in the same spelling; then at
its first action whose literal operand is of the wrong kind or whose target or reference is no
path; and last if its text is too long. -/

namespace ItemExpr.Update

/-- The text of an operand. -/
def Operand.compile : Operand → Compile String
  | .value literal => Compile.value literal
  | .reference path none => Compile.path path
  | .reference path (some fallback) => do
    let reference ← Compile.path path
    let literal ← Compile.value fallback
    pure (Function.ifNotExists.call [reference, literal])

/-- The defect of an action whose operand is a literal of the wrong kind. -/
def Action.literalDefect? (action : Action) : Option Defect :=
  match action.literalKind?, action.operand? with
  | some kind, some (.value value) =>
    if kind.admits value then none else some (.literalKind kind value.type)
  | _, _ => none

/-- The entry of an action on a target. -/
def Action.compileOn (target : String) : Action → Compile String
  | .set operand => do
    let text ← operand.compile
    pure (target ++ " = " ++ text)
  | .add operand => do
    let text ← operand.compile
    pure (target ++ " = " ++ target ++ " + " ++ text)
  | .subtract operand => do
    let text ← operand.compile
    pure (target ++ " = " ++ target ++ " - " ++ text)
  | .append operand => do
    let text ← operand.compile
    pure (target ++ " = " ++ Function.listAppend.call [target, text])
  | .prepend operand => do
    let text ← operand.compile
    pure (target ++ " = " ++ Function.listAppend.call [text, target])
  | .remove => pure target
  | .addToSet operand => do
    let text ← operand.compile
    pure (target ++ " " ++ text)
  | .deleteFromSet operand => do
    let text ← operand.compile
    pure (target ++ " " ++ text)

/-- The entry of an action on the attribute of a path. -/
def Action.compile (path : String) (action : Action) : Compile String :=
  match action.literalDefect? with
  | some defect => Compile.refuse path defect
  | none => do
    let target ← Compile.path path
    action.compileOn target

/-- The entries of an update with their parts, in order. -/
def entries : Update → Compile (List (UpdatePart × String))
  | [] => pure []
  | (path, action) :: rest => do
    let entry ← action.compile path
    let tail ← entries rest
    pure ((action.part, entry) :: tail)

/-- The text of one part, if it has entries. -/
def partText? (entries : List (UpdatePart × String)) (part : UpdatePart) : Option String :=
  match (entries.filter fun entry => entry.1 = part).map Prod.snd with
  | [] => none
  | texts => some (part.word ++ " " ++ ", ".intercalate texts)

/-- The text of all parts that have entries. -/
def partsText (entries : List (UpdatePart × String)) : String :=
  " ".intercalate (UpdatePart.all.filterMap (partText? entries))

/-- The first path that repeats one of those before it. -/
def firstRepeated? (seen : List String) : List String → Option String
  | [] => none
  | path :: paths => if path ∈ seen then some path else firstRepeated? (path :: seen) paths

/-- The **text of an update**. -/
def compile (update : Update) : Compile String :=
  Compile.transaction do
    if update.isEmpty then throw .emptyUpdate
    else
      match firstRepeated? [] (update.map Prod.fst) with
      | some path => Compile.refuse path .repeatedTarget
      | none =>
        -- Placeholders are numbered in the order of the actions, not of the parts.
        let entries ← update.entries
        Compile.limitLength .update (partsText entries)

end ItemExpr.Update
