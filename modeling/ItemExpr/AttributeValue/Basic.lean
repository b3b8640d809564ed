import ItemExpr.Base64
import ItemExpr.Collections

/-! # Attribute values

An `AttributeValue` is what an attribute of a stored item holds and what a literal of an
expression stands for: a scalar, a set, a list or a map, of one of ten `AttributeType`s. Numbers
are kept as text, so that no digit is lost. A set is kept as the list it was given as; the set
constructors `ofStrings`, `ofNumbers` and `ofBinaries` give it in increasing order without
repetition. A map is kept as `Entries`. -/

namespace ItemExpr

/-- The ten **attribute types**. -/
inductive AttributeType where
  /-- Text. -/
  | string
  /-- A number of any precision. -/
  | number
  /-- Bytes. -/
  | binary
  /-- A set of texts. -/
  | stringSet
  /-- A set of numbers. -/
  | numberSet
  /-- A set of byte strings. -/
  | binarySet
  /-- A truth value. -/
  | boolean
  /-- The null value. -/
  | null
  /-- A list of values of any types. -/
  | list
  /-- Values by name. -/
  | map
deriving DecidableEq, Repr

namespace AttributeType

/-- Every type, in the order in which error texts name them. -/
def all : List AttributeType :=
  [.string, .number, .binary, .stringSet, .numberSet, .binarySet, .boolean, .null, .list, .map]

/-- The **code** of a type. -/
def code : AttributeType → String
  | .string => "S"
  | .number => "N"
  | .binary => "B"
  | .stringSet => "SS"
  | .numberSet => "NS"
  | .binarySet => "BS"
  | .boolean => "BOOL"
  | .null => "NULL"
  | .list => "L"
  | .map => "M"

/-- The type of a code. -/
def ofCode? (code : String) : Option AttributeType :=
  all.find? fun type => type.code = code

/-- Whether values of a type are sets. -/
def isSet : AttributeType → Bool
  | .stringSet | .numberSet | .binarySet => true
  | _ => false

theorem mem_all (type : AttributeType) : type ∈ all := by cases type <;> decide

@[simp] theorem ofCode?_code (type : AttributeType) : ofCode? type.code = some type := by
  cases type <;> decide

end AttributeType

/-- An **attribute value**. -/
inductive AttributeValue where
  /-- A text. -/
  | string (text : String)
  /-- A number, as its text. -/
  | number (text : String)
  /-- A byte string. -/
  | binary (bytes : Bytes)
  /-- A set of texts. -/
  | stringSet (members : List String)
  /-- A set of numbers, as their texts. -/
  | numberSet (members : List String)
  /-- A set of byte strings. -/
  | binarySet (members : List Bytes)
  /-- A truth value. -/
  | boolean (flag : Bool)
  /-- The null value; the store only takes it with the flag set. -/
  | null (flag : Bool)
  /-- A list. -/
  | list (items : List AttributeValue)
  /-- A map, its entries in increasing order of their keys. -/
  | map (entries : List (String × AttributeValue))
deriving Repr, Inhabited

namespace AttributeValue

/-- The type of a value. -/
def type : AttributeValue → AttributeType
  | .string _ => .string
  | .number _ => .number
  | .binary _ => .binary
  | .stringSet _ => .stringSet
  | .numberSet _ => .numberSet
  | .binarySet _ => .binarySet
  | .boolean _ => .boolean
  | .null _ => .null
  | .list _ => .list
  | .map _ => .map

/-- Whether a value is a set. -/
def isSet (value : AttributeValue) : Bool := value.type.isSet

/-- The text, if the value is one. -/
def asString? : AttributeValue → Option String
  | .string text => some text
  | _ => none

/-- The text of the number, if the value is one. -/
def asNumber? : AttributeValue → Option String
  | .number text => some text
  | _ => none

/-- The items, if the value is a list. -/
def asList? : AttributeValue → Option (List AttributeValue)
  | .list items => some items
  | _ => none

/-- The set of some texts. -/
def ofStrings (members : List String) : AttributeValue := .stringSet (Members.distinct members)

/-- The set of some numbers, told apart by their texts. -/
def ofNumbers (members : List String) : AttributeValue := .numberSet (Members.distinct members)

/-- The set of some byte strings. -/
def ofBinaries (members : List Bytes) : AttributeValue := .binarySet (Members.distinct members)

/-- The map of some pairs; of pairs with one key the last one counts. -/
def ofPairs (pairs : List (String × AttributeValue)) : AttributeValue := .map (Entries.ofList pairs)

mutual

/-- Whether every map in a value has its entries in order. Every value that this library builds
does. -/
def Ordered : AttributeValue → Prop
  | .list items => OrderedItems items
  | .map entries => Entries.Sorted entries ∧ OrderedEntries entries
  | _ => True

/-- Whether every map in some values has its entries in order. -/
def OrderedItems : List AttributeValue → Prop
  | [] => True
  | item :: items => Ordered item ∧ OrderedItems items

/-- Whether every map in the values of some entries has its entries in order. -/
def OrderedEntries : List (String × AttributeValue) → Prop
  | [] => True
  | (_, value) :: entries => Ordered value ∧ OrderedEntries entries

end

end AttributeValue

end ItemExpr
