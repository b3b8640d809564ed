import ItemExpr.Base64
import ItemExpr.Json.Draft

/-! # Why a document is not of its wire form

A reader of wire forms takes the parts of a draft in the order of its text and stops at the first
`Fault`. `Fault.message?` gives its text; a text that is not JSON where its reader goes on has
none.

A reader knows a document that is there as a whole better than one that it is just reading from a
text (`Origin`): what it cannot take in a document has a fault of its own, and in a text stands
where something else should. -/

namespace ItemExpr.Wire

/-- What a reader **wanted**. -/
inductive Wanted where
  /-- A string. -/
  | text
  /-- A truth value. -/
  | boolean
  /-- A 32-bit integer. -/
  | int32
  /-- An array. -/
  | sequence
  /-- An object with members of any names. -/
  | map
  /-- A null beside the name of a choice. -/
  | unit
  /-- A choice between names. -/
  | choice
  /-- The record of a name. -/
  | record (name : String)
  /-- An attribute value. -/
  | attributeValue
deriving DecidableEq, Repr

/-- The text of what was wanted. -/
def Wanted.phrase : Wanted → String
  | .text => "a string"
  | .boolean => "a boolean"
  | .int32 => "i32"
  | .sequence => "a sequence"
  | .map => "a map"
  | .unit => "unit"
  | .choice => "string or map"
  | .record name => "struct " ++ name
  | .attributeValue => "an AttributeValue object with exactly one type key"

/-- A **fault** of a document. -/
inductive Fault where
  /-- The text is not JSON where its reader goes on. -/
  | malformed
  /-- A part looks different from what was wanted. -/
  | look (found : Json.Draft.Look) (wanted : Wanted)
  /-- An integer is out of range. -/
  | range (found : Int) (wanted : Wanted)
  /-- A record lacks a required field. -/
  | missing (field : String)
  /-- A record has a field twice. -/
  | repeated (field : String)
  /-- A record written as an array lacks the element at this position. -/
  | tooShort (position : Nat) (record : String) (fields : Nat)
  /-- A record written as an array has more elements than fields. -/
  | tooLong (elements : Nat)
  /-- A choice written as an object has no member or more than one. -/
  | notSingle
  /-- A name is none of the choices. -/
  | choice (found : String) (known : List String)
  /-- The member of an attribute value is named for no type. -/
  | typeCode (found : String) (known : List String)
  /-- An attribute value has no member or more than one. -/
  | memberCount
  /-- A text is not base64. -/
  | base64 (fault : Base64.Fault)
deriving DecidableEq, Repr

/-- A name between grave accents. -/
def ticked (name : String) : String := "`" ++ name ++ "`"

/-- What may stand in place of a name. -/
def alternatives : List String → String
  | [] => "there are none"
  | [only] => "expected " ++ ticked only
  | [first, second] => "expected " ++ ticked first ++ " or " ++ ticked second
  | names => "expected one of " ++ ", ".intercalate (names.map ticked)

/-- The text of a fault, if it has one. -/
def Fault.message? : Fault → Option String
  | .malformed => none
  | .look found wanted =>
    some ("invalid type: " ++ found.text ++ ", expected " ++ wanted.phrase)
  | .range found wanted =>
    some ("invalid value: " ++ (Json.Draft.Look.number (.integer found)).text ++ ", expected " ++
      wanted.phrase)
  | .missing field => some ("missing field " ++ ticked field)
  | .repeated field => some ("duplicate field " ++ ticked field)
  | .tooShort position record fields =>
    some ("invalid length " ++ Number.natText position ++ ", expected struct " ++ record ++
      " with " ++ Number.natText fields ++ " elements")
  | .tooLong elements =>
    some ("invalid length " ++ Number.natText elements ++ ", expected fewer elements in array")
  | .notSingle => some "invalid value: map, expected map with a single key"
  | .choice found known => some ("unknown variant " ++ ticked found ++ ", " ++ alternatives known)
  | .typeCode found known => some ("unknown field " ++ ticked found ++ ", " ++ alternatives known)
  | .memberCount => some "AttributeValue must have exactly one key"
  | .base64 fault => some fault.message

/-- The fault of a draft that is not what was wanted. -/
def Fault.unexpected (found : Json.Draft) (wanted : Wanted) : Fault :=
  match found.look? with
  | some shown => .look shown wanted
  | none => .malformed

/-- Where a draft **comes from**. -/
inductive Origin where
  /-- From a text that is read from left to right: what follows is not known yet. -/
  | text
  /-- From a document that is there as a whole. -/
  | document
deriving DecidableEq, Repr

/-- The fault of what cannot be taken, if a document has one of its own for it. -/
def Origin.fault : Origin → Fault → Fault
  | .text, _ => .malformed
  | .document, fault => fault

/-- What was read of a container, if its end was reached. -/
def closed {α : Type} (isClosed : Bool) (value : α) : Except Fault α :=
  if isClosed then .ok value else .error .malformed

@[simp] theorem closed_true {α : Type} (value : α) : closed true value = .ok value := rfl

end ItemExpr.Wire
