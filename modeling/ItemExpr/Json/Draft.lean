import ItemExpr.Json.Printer
import ItemExpr.Text.Quoted

/-! # Drafts of documents

A reader of JSON text takes its parts in the order of the text, and may find a fault of its own
before the text stops being JSON. A `Draft` is a document as far as its text goes: a part may be
`broken`, a container may have been cut off, and a string or a number may be spelled as JSON
demands and still stand for nothing.

Every document is a draft without such parts (`Json.draft`), and `Draft.json?` gives it back
(`json?_draft`). -/

namespace ItemExpr.Json

/-- A **draft** of a document. -/
inductive Draft where
  /-- The literal `null`. -/
  | null
  /-- A truth value. -/
  | bool (flag : Bool)
  /-- A number. -/
  | number (value : Json.Number)
  /-- A text. -/
  | string (text : String)
  /-- An array and whether its end was reached. -/
  | array (items : List Draft) (closed : Bool)
  /-- An object and whether its end was reached. A member has no name if its name is a string with
  half a surrogate pair. -/
  | object (members : List (Option String × Draft)) (closed : Bool)
  /-- A number too large for 64-bit arithmetic, or a string with half a surrogate pair. -/
  | void
  /-- A place where something else stands than a document. -/
  | broken
deriving Repr, Inhabited

namespace Draft

mutual

/-- Whether a draft is **well formed**: nothing in it is broken or cut off. -/
def wellFormed : Draft → Bool
  | .array items closed => closed && wellFormedItems items
  | .object members closed => closed && wellFormedMembers members
  | .broken => false
  | _ => true

/-- Whether the items of an array are well formed. -/
def wellFormedItems : List Draft → Bool
  | [] => true
  | item :: items => wellFormed item && wellFormedItems items

/-- Whether the members of an object are well formed. -/
def wellFormedMembers : List (Option String × Draft) → Bool
  | [] => true
  | (_, value) :: members => wellFormed value && wellFormedMembers members

end

mutual

/-- The **document of a draft**, if it is well formed and all of it stands for something. -/
def json? : Draft → Option Json
  | .null => some .null
  | .bool flag => some (.bool flag)
  | .number value => some (.number value)
  | .string text => some (.string text)
  | .array items closed => if closed then (jsonItems? items).map .array else none
  | .object members closed => if closed then (jsonMembers? members).map .object else none
  | .void => none
  | .broken => none

/-- The documents of the items of an array. -/
def jsonItems? : List Draft → Option (List Json)
  | [] => some []
  | item :: items => do
    let first ← json? item
    let rest ← jsonItems? items
    pure (first :: rest)

/-- The documents of the members of an object. -/
def jsonMembers? : List (Option String × Draft) → Option (List (String × Json))
  | [] => some []
  | (some name, value) :: members => do
    let first ← json? value
    let rest ← jsonMembers? members
    pure ((name, first) :: rest)
  | (none, _) :: _ => none

end

/-! ### Looks -/

/-- The **look of a draft** without its contents, as error texts name it. -/
inductive Look where
  /-- The literal `null`. -/
  | null
  /-- A truth value. -/
  | bool (flag : Bool)
  /-- A number. -/
  | number (value : Json.Number)
  /-- A text. -/
  | string (text : String)
  /-- An array. -/
  | array
  /-- An object. -/
  | object
deriving DecidableEq, Repr

/-- The look of a draft. A container shows it with its first character; what is void or broken has
none. -/
def look? : Draft → Option Look
  | .null => some .null
  | .bool flag => some (.bool flag)
  | .number value => some (.number value)
  | .string text => some (.string text)
  | .array _ _ => some .array
  | .object _ _ => some .object
  | .void => none
  | .broken => none

/-- The text of a look. -/
def Look.text : Look → String
  | .null => "null"
  | .bool flag => "boolean `" ++ (if flag then "true" else "false") ++ "`"
  | .number (.integer value) => "integer `" ++ (Json.Number.integer value).text ++ "`"
  | .number (.real negative size) =>
    "floating point `" ++ (Json.Number.real negative size).text ++ "`"
  | .string text => "string " ++ Text.quoted text
  | .array => "sequence"
  | .object => "map"

end Draft

/-! ### Documents as drafts -/

mutual

/-- The **draft of a document**. -/
def draft : Json → Draft
  | .null => .null
  | .bool flag => .bool flag
  | .number value => .number value
  | .string text => .string text
  | .array items => .array (draftItems items) true
  | .object members => .object (draftMembers members) true

/-- The drafts of the items of an array. -/
def draftItems : List Json → List Draft
  | [] => []
  | item :: items => draft item :: draftItems items

/-- The drafts of the members of an object. -/
def draftMembers : List (String × Json) → List (Option String × Draft)
  | [] => []
  | (name, value) :: members => (some name, draft value) :: draftMembers members

end

@[simp] theorem draftItems_eq_map (items : List Json) : draftItems items = items.map draft := by
  induction items with
  | nil => rfl
  | cons item items ih => simp [draftItems, ih]

@[simp] theorem draftMembers_eq_map (members : List (String × Json)) :
    draftMembers members = members.map fun member => (some member.1, draft member.2) := by
  induction members with
  | nil => rfl
  | cons member members ih => simp [draftMembers, ih]

mutual

/-- A document is the document of its draft. -/
theorem json?_draft : ∀ document : Json, document.draft.json? = some document
  | .null => rfl
  | .bool _ => rfl
  | .number _ => rfl
  | .string _ => rfl
  | .array items => by simp [draft, Draft.json?, jsonItems?_draftItems items, - draftItems_eq_map]
  | .object members => by
    simp [draft, Draft.json?, jsonMembers?_draftMembers members, - draftMembers_eq_map]

theorem jsonItems?_draftItems :
    ∀ items : List Json, Draft.jsonItems? (draftItems items) = some items
  | [] => rfl
  | item :: items => by
    simp [draftItems, Draft.jsonItems?, json?_draft item, jsonItems?_draftItems items,
      - draftItems_eq_map]

theorem jsonMembers?_draftMembers :
    ∀ members : List (String × Json), Draft.jsonMembers? (draftMembers members) = some members
  | [] => rfl
  | (_, value) :: members => by
    simp [draftMembers, Draft.jsonMembers?, json?_draft value, jsonMembers?_draftMembers members,
      - draftMembers_eq_map]

end

end ItemExpr.Json
