import ItemExpr.AttributeValue.Basic
import ItemExpr.Number.Text
import ItemExpr.Text.Quoted

/-! # What attribute values come down to

Two values are equal when they have one type and equal contents (`same`): sets as sets, whatever
the order and repetition of their members, lists item by item, maps entry by entry. `fingerprint`
is the sequence of parts that a value feeds to a hash function: equal values feed the same
sequence.

`summary` is the short text by which errors name a literal: the code of its type and its contents,
with only a count for bytes, sets of byte strings, lists and maps. -/

namespace ItemExpr.AttributeValue

/-! ### Equality -/

mutual

/-- Whether two values are **equal**. -/
def same : AttributeValue → AttributeValue → Bool
  | .string a, .string b => a == b
  | .number a, .number b => a == b
  | .binary a, .binary b => a == b
  | .stringSet a, .stringSet b => Members.distinct a == Members.distinct b
  | .numberSet a, .numberSet b => Members.distinct a == Members.distinct b
  | .binarySet a, .binarySet b => Members.distinct a == Members.distinct b
  | .boolean a, .boolean b => a == b
  | .null a, .null b => a == b
  | .list a, .list b => sameItems a b
  | .map a, .map b => sameEntries a b
  | _, _ => false

/-- Whether two lists of values are equal item by item. -/
def sameItems : List AttributeValue → List AttributeValue → Bool
  | [], [] => true
  | a :: as, b :: bs => same a b && sameItems as bs
  | _, _ => false

/-- Whether two lists of entries have the same keys with equal values. -/
def sameEntries : List (String × AttributeValue) → List (String × AttributeValue) → Bool
  | [], [] => true
  | (key, a) :: as, (key', b) :: bs => key == key' && same a b && sameEntries as bs
  | _, _ => false

end

instance : BEq AttributeValue := ⟨same⟩

theorem beq_def (a b : AttributeValue) : (a == b) = same a b := rfl

/-! ### Fingerprints -/

/-- One **part of a fingerprint**. -/
inductive Part where
  /-- The type of the value that follows. -/
  | type (type : AttributeType)
  /-- How many parts of a container follow. -/
  | count (count : Nat)
  /-- A text, closed by a mark of its own. -/
  | text (text : String)
  /-- Bytes, whose number was given before. -/
  | bytes (bytes : Bytes)
  /-- A truth value. -/
  | flag (flag : Bool)
deriving DecidableEq, Repr

/-- The parts of a byte string: its length and its bytes. -/
def bytesParts (bytes : Bytes) : List Part := [.count bytes.length, .bytes bytes]

/-- The parts of a set of texts: how many distinct members it has, and these in order. -/
def textSetParts (members : List String) : List Part :=
  let distinct := Members.distinct members
  .count distinct.length :: distinct.map Part.text

/-- The parts of a set of byte strings: how many distinct members it has, and these in order. -/
def bytesSetParts (members : List Bytes) : List Part :=
  let distinct := Members.distinct members
  .count distinct.length :: distinct.flatMap bytesParts

mutual

/-- The **fingerprint** of a value: its type, then its contents with a count before each
container. -/
def fingerprint : AttributeValue → List Part
  | .string text => [.type .string, .text text]
  | .number text => [.type .number, .text text]
  | .binary bytes => .type .binary :: bytesParts bytes
  | .stringSet members => .type .stringSet :: textSetParts members
  | .numberSet members => .type .numberSet :: textSetParts members
  | .binarySet members => .type .binarySet :: bytesSetParts members
  | .boolean flag => [.type .boolean, .flag flag]
  | .null flag => [.type .null, .flag flag]
  | .list items => .type .list :: .count items.length :: fingerprintItems items
  | .map entries => .type .map :: .count entries.length :: fingerprintEntries entries

/-- The fingerprints of the items of a list, in order. -/
def fingerprintItems : List AttributeValue → List Part
  | [] => []
  | item :: items => fingerprint item ++ fingerprintItems items

/-- The keys and fingerprints of the entries of a map, in the order of the keys. -/
def fingerprintEntries : List (String × AttributeValue) → List Part
  | [] => []
  | (key, value) :: entries => .text key :: fingerprint value ++ fingerprintEntries entries

end

/-! ### Summaries -/

/-- The contents of a value in its summary. -/
def contentSummary : AttributeValue → String
  | .string text => text
  | .number text => text
  | .binary bytes => Number.natText bytes.length ++ " bytes"
  | .stringSet members => Text.quotedList members
  | .numberSet members => Text.quotedList members
  | .binarySet members => Number.natText members.length ++ " items"
  | .boolean flag => if flag then "true" else "false"
  | .null flag => if flag then "true" else "false"
  | .list items => Number.natText items.length ++ " items"
  | .map entries => Number.natText entries.length ++ " keys"

/-- The **summary** of a value: `{S: hello}`. -/
def summary (value : AttributeValue) : String :=
  "\x7b" ++ value.type.code ++ ": " ++ value.contentSummary ++ "\x7d"

end ItemExpr.AttributeValue
