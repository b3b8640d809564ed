import ItemExpr.AttributeValue.Basic
import ItemExpr.Wire.Codec

/-! # The wire form of attribute values

On the wire a value is an object with exactly one member, named for the value's type and holding
its contents: bytes in base64, sets as arrays, lists and maps in wire form themselves. The name is
looked at before the contents, and the contents before what follows them. -/

namespace ItemExpr.AttributeValue

open Wire
open Json (Draft)

/-- The contents of a byte string, as base64. -/
def encodeBinary (bytes : Bytes) : Json := .string (Base64.encode bytes)

mutual

/-- The contents of a value on the wire. -/
def encodePayload : AttributeValue → Json
  | .string text => .string text
  | .number text => .string text
  | .binary bytes => encodeBinary bytes
  | .stringSet members => .array (members.map .string)
  | .numberSet members => .array (members.map .string)
  | .binarySet members => .array (members.map encodeBinary)
  | .boolean flag => .bool flag
  | .null flag => .bool flag
  | .list items => .array (encodeItems items)
  | .map entries => .object (encodeEntries entries)

/-- The wire forms of the items of a list. -/
def encodeItems : List AttributeValue → List Json
  | [] => []
  | item :: items => .object [(item.type.code, encodePayload item)] :: encodeItems items

/-- The wire forms of the entries of a map. -/
def encodeEntries : List (String × AttributeValue) → List (String × Json)
  | [] => []
  | (key, value) :: entries =>
    (key, .object [(value.type.code, encodePayload value)]) :: encodeEntries entries

end

/-- The **wire form** of a value. -/
def encode (value : AttributeValue) : Json := .object [(value.type.code, encodePayload value)]

/-- The bytes of a base64 text. -/
def decodeBinary (text : String) : Except Fault Bytes :=
  (Base64.decode text).mapError .base64

/-- The byte strings of base64 texts. -/
def decodeBinaries : List String → Except Fault (List Bytes)
  | [] => .ok []
  | text :: texts => do
    let first ← decodeBinary text
    let rest ← decodeBinaries texts
    pure (first :: rest)

/-- The contents of a value that holds no other values. They look the same wherever the draft
comes from. -/
def decodeScalar (type : AttributeType) (payload : Draft) : Except Fault AttributeValue :=
  match type with
  | .string => (Codec.text.decode .document payload).map .string
  | .number => (Codec.text.decode .document payload).map .number
  | .binary => do
    let text ← Codec.text.decode .document payload
    (decodeBinary text).map .binary
  | .stringSet => (Codec.text.list.decode .document payload).map .stringSet
  | .numberSet => (Codec.text.list.decode .document payload).map .numberSet
  | .binarySet => do
    let texts ← Codec.text.list.decode .document payload
    (decodeBinaries texts).map .binarySet
  | .boolean => (Codec.boolean.decode .document payload).map .boolean
  | .null => (Codec.boolean.decode .document payload).map .null
  | .list => .error (.unexpected payload .sequence)
  | .map => .error (.unexpected payload .map)

/-- A value with nothing behind its only member. The name of a second member is enough to refuse
it. -/
def onlyMember (value : AttributeValue) (isClosed : Bool) :
    List (Option String × Draft) → Except Fault AttributeValue
  | [] => closed isClosed value
  | (some _, _) :: _ => .error .memberCount
  | (none, _) :: _ => .error .malformed

mutual

/-- The **value of a wire form**, or its first fault. -/
def decode : Draft → Except Fault AttributeValue
  | .object [] isClosed => .error (if isClosed then .memberCount else .malformed)
  | .object ((some code, payload) :: rest) isClosed =>
    match AttributeType.ofCode? code with
    | none => .error (.typeCode code (AttributeType.all.map AttributeType.code))
    | some type => do
      let value ← decodePayload type payload
      onlyMember value isClosed rest
  | .object ((none, _) :: _) _ => .error .malformed
  | other => .error (.unexpected other .attributeValue)

/-- The value of a type with these contents. -/
def decodePayload (type : AttributeType) : Draft → Except Fault AttributeValue
  | .array items isClosed =>
    if type = .list then do
      let values ← decodeItems items
      closed isClosed (.list values)
    else decodeScalar type (.array items isClosed)
  | .object members isClosed =>
    if type = .map then do
      let pairs ← decodeMembers members
      closed isClosed (.map (Entries.ofList pairs))
    else decodeScalar type (.object members isClosed)
  | payload => decodeScalar type payload

/-- The values of the items of a list, in order. -/
def decodeItems : List Draft → Except Fault (List AttributeValue)
  | [] => .ok []
  | item :: items => do
    let first ← decode item
    let rest ← decodeItems items
    pure (first :: rest)

/-- The values of the members of a map, in order. -/
def decodeMembers : List (Option String × Draft) → Except Fault (List (String × AttributeValue))
  | [] => .ok []
  | (some name, member) :: members => do
    let first ← decode member
    let rest ← decodeMembers members
    pure ((name, first) :: rest)
  | (none, _) :: _ => .error .malformed

end

/-- The codec of attribute values. -/
def codec : Codec AttributeValue := ⟨encode, fun _ => decode⟩

end ItemExpr.AttributeValue
