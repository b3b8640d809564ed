import ItemExpr.Number.Text

/-! # JSON trees and their text

A JSON document as a tree. Objects keep their members in the order of the text, repeated names
included: what a repeated name means is decided by whoever reads the tree. Numbers are told apart
as JSON readers do: an integer that fits in 64 bits, with or without a sign, and any other
number, which is a 64-bit binary one.

The text of a document (`Json.print`) stands on one line, without blanks. In strings the quote, the
backslash and the controls are escaped; every other character stands for itself. -/

namespace ItemExpr

/-- A **JSON number**. -/
inductive Json.Number where
  /-- An integer from `-2 ^ 63` to `2 ^ 64 - 1`. -/
  | integer (value : Int)
  /-- Any other number, negative zero included. -/
  | real (negative : Bool) (size : Number.Magnitude)
deriving DecidableEq, Repr

/-- The text of a number, in the one way that JSON writers spell it. -/
def Json.Number.text : Json.Number → String
  | .integer value => ItemExpr.Number.intText value
  | .real negative size => ItemExpr.Number.exchangeText negative size

/-- A **JSON document**. -/
inductive Json where
  /-- The literal `null`. -/
  | null
  /-- A truth value. -/
  | bool (flag : Bool)
  /-- A number. -/
  | number (value : Json.Number)
  /-- A text. -/
  | string (text : String)
  /-- An array. -/
  | array (items : List Json)
  /-- An object, its members in the order of the text. -/
  | object (members : List (String × Json))
deriving Repr, Inhabited

namespace Json

/-! ### Printing -/

/-- One character inside a JSON string. -/
def printChar (c : Char) : List Char :=
  if c = '"' then ['\\', '"']
  else if c = '\\' then ['\\', '\\']
  else if c < ' ' then '\\' :: 'u' :: Text.padded 16 4 c.toNat
  else [c]

/-- A JSON string. -/
def printString (text : String) : String :=
  String.ofList ('"' :: text.toList.flatMap printChar ++ ['"'])

mutual

/-- The text of a document. -/
def print : Json → String
  | .null => "null"
  | .bool flag => if flag then "true" else "false"
  | .number value => value.text
  | .string text => printString text
  | .array items => "[" ++ ",".intercalate (printItems items) ++ "]"
  | .object members => "\x7b" ++ ",".intercalate (printMembers members) ++ "\x7d"

/-- The texts of an array's items. -/
def printItems : List Json → List String
  | [] => []
  | item :: items => print item :: printItems items

/-- The texts of an object's members. -/
def printMembers : List (String × Json) → List String
  | [] => []
  | (name, value) :: members => (printString name ++ ":" ++ print value) :: printMembers members

end

end Json

end ItemExpr
