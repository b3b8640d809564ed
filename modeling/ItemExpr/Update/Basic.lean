import ItemExpr.AttributeValue.Summary
import ItemExpr.CompileError
import ItemExpr.Words

/-! # Updates

An `Update` is a list of actions, each on one attribute of an item. The operand of an action is a
literal or another attribute of the item, with a literal to fall back on if there is none. -/

namespace ItemExpr

/-- The **operand** of an action. -/
inductive Update.Operand where
  /-- A literal. -/
  | value (value : AttributeValue)
  /-- Another attribute, with a literal in its place if it does not exist. -/
  | reference (path : String) (fallback : Option AttributeValue)
deriving Repr

/-- An **action** on an attribute. -/
inductive Update.Action where
  /-- Give it a value. -/
  | set (operand : Update.Operand)
  /-- Add to a number. -/
  | add (operand : Update.Operand)
  /-- Subtract from a number. -/
  | subtract (operand : Update.Operand)
  /-- Join items to the end of a list. -/
  | append (operand : Update.Operand)
  /-- Join items to the front of a list. -/
  | prepend (operand : Update.Operand)
  /-- Take the attribute away. -/
  | remove
  /-- Put members into a set, or add to a number. -/
  | addToSet (operand : Update.Operand)
  /-- Take members from a set. -/
  | deleteFromSet (operand : Update.Operand)
deriving Repr

/-- An **update**: actions by path, in order. -/
abbrev Update := List (String × Update.Action)

namespace Update

/-- Whether two operands are equal. -/
def Operand.same : Operand → Operand → Bool
  | .value a, .value b => a == b
  | .reference p a, .reference q b => p == q && a == b
  | _, _ => false

instance : BEq Operand := ⟨Operand.same⟩

/-- Whether two actions are equal. -/
def Action.same : Action → Action → Bool
  | .set a, .set b => a == b
  | .add a, .add b => a == b
  | .subtract a, .subtract b => a == b
  | .append a, .append b => a == b
  | .prepend a, .prepend b => a == b
  | .remove, .remove => true
  | .addToSet a, .addToSet b => a == b
  | .deleteFromSet a, .deleteFromSet b => a == b
  | _, _ => false

instance : BEq Action := ⟨Action.same⟩

/-- The part of an update that an action is written in. -/
def Action.part : Action → UpdatePart
  | .set _ | .add _ | .subtract _ | .append _ | .prepend _ => .set
  | .remove => .remove
  | .addToSet _ => .add
  | .deleteFromSet _ => .delete

/-- The operand of an action. -/
def Action.operand? : Action → Option Operand
  | .set operand | .add operand | .subtract operand | .append operand | .prepend operand
  | .addToSet operand | .deleteFromSet operand => some operand
  | .remove => none

/-- The kind of literal that an action takes, if it does not take any. -/
def Action.literalKind? : Action → Option LiteralKind
  | .add _ | .subtract _ => some .number
  | .append _ | .prepend _ => some .list
  | .addToSet _ => some .setOrNumber
  | .deleteFromSet _ => some .set
  | .set _ | .remove => none

end Update

end ItemExpr
