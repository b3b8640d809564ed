import ItemExpr.Collections
import ItemExpr.Json.Reader
import ItemExpr.Wire.Fault

/-! # Codecs

A `Codec` writes the values of a type as documents and reads them back, from a document
(`Codec.ofDocument`) or from a text (`Codec.ofText`). This file has the codecs of texts, truth
values, 32-bit integers, lists, maps and of types that are a choice between names. -/

namespace ItemExpr.Wire

open Json (Draft)

/-- A **codec** between a type and JSON documents. -/
structure Codec (α : Type) where
  /-- The document of a value. -/
  encode : α → Json
  /-- The value of a draft, or its first fault. -/
  decode : Origin → Draft → Except Fault α

namespace Codec

variable {α : Type}

/-- The value of a document, or its first fault. -/
def ofDocument (codec : Codec α) (document : Json) : Except Fault α :=
  codec.decode .document document.draft

/-- The value of a text, or its first fault. What follows the document is looked at last. -/
def ofText (codec : Codec α) (text : String) : Except Fault α := do
  let reading := Json.read text
  let value ← codec.decode .text reading.draft
  closed reading.ended value

/-- Texts. -/
def text : Codec String where
  encode := .string
  decode
    | _, .string text => .ok text
    | _, other => .error (.unexpected other .text)

/-- Truth values. -/
def boolean : Codec Bool where
  encode := .bool
  decode
    | _, .bool flag => .ok flag
    | _, other => .error (.unexpected other .boolean)

/-- Integers of 32 bits. -/
def int32 : Codec Int32 where
  encode n := .number (.integer n.toInt)
  decode
    | _, .number (.integer n) =>
      if -2147483648 ≤ n ∧ n < 2147483648 then .ok (Int32.ofInt n) else .error (.range n .int32)
    | _, other => .error (.unexpected other .int32)

/-- Decode the items of an array, in order. -/
def decodeItems (decode : Draft → Except Fault α) : List Draft → Except Fault (List α)
  | [] => .ok []
  | item :: items => do
    let first ← decode item
    let rest ← decodeItems decode items
    pure (first :: rest)

/-- Decode the members of an object, in order. -/
def decodeMembers (decode : Draft → Except Fault α) :
    List (Option String × Draft) → Except Fault (List (String × α))
  | [] => .ok []
  | (some name, member) :: members => do
    let first ← decode member
    let rest ← decodeMembers decode members
    pure ((name, first) :: rest)
  | (none, _) :: _ => .error .malformed

/-- Lists, as arrays. -/
def list (codec : Codec α) : Codec (List α) where
  encode items := .array (items.map codec.encode)
  decode
    | origin, .array items isClosed => do
      let values ← decodeItems (codec.decode origin) items
      closed isClosed values
    | _, other => .error (.unexpected other .sequence)

/-- Maps, as objects; of members with one name the last one counts. -/
def entries (codec : Codec α) : Codec (Entries α) where
  encode entries := .object (entries.map fun entry => (entry.1, codec.encode entry.2))
  decode
    | origin, .object members isClosed => do
      let pairs ← decodeMembers (codec.decode origin) members
      closed isClosed (Entries.ofList pairs)
    | _, other => .error (.unexpected other .map)

/-- The choice of a name. -/
def findChoice (name : α → String) (all : List α) (found : String) : Except Fault α :=
  match all.find? fun choice => name choice = found with
  | some choice => .ok choice
  | none => .error (.choice found (all.map name))

/-- Read the null beside the name of a choice. -/
def readUnit : Draft → Except Fault Unit
  | .null => .ok ()
  | other => .error (.unexpected other .unit)

/-- A **choice between names**, as a text. A reader also takes an object with the name beside a
null as its only member. -/
def choice (name : α → String) (all : List α) : Codec α where
  encode choice := .string (name choice)
  decode
    | _, .string found => findChoice name all found
    | origin, .object members isClosed =>
      -- The number of members is known beforehand only of a document.
      if origin = .document ∧ members.length ≠ 1 then .error .notSingle
      else
        match members with
        | (some found, payload) :: rest => do
          let choice ← findChoice name all found
          readUnit payload
          closed (isClosed && rest.isEmpty) choice
        | _ => .error .malformed
    | origin, other => .error (origin.fault (.unexpected other .choice))

end Codec

end ItemExpr.Wire
