import ItemExpr.Number.Text

/-! # Document paths

A `Path` leads into an item: it starts at a top-level attribute, its `root`, and each `Step` goes
to a field of a map or to an item of a list. `Path.parse` reads the text of a path and
`Path.text` writes it: `profile.tags[0]`. Indexes are below `2 ^ 64` and may be spelled with leading
zeros. -/

namespace ItemExpr

/-- One **step** of a path. -/
inductive Path.Step where
  /-- To a field of a map. -/
  | field (name : String)
  /-- To an item of a list. -/
  | index (position : Nat)
deriving DecidableEq, Repr

/-- A **document path**. -/
structure Path where
  /-- The top-level attribute. -/
  root : String
  /-- The steps from there. -/
  steps : List Path.Step
deriving DecidableEq, Repr

/-- Why a text is not a path. -/
inductive Path.Defect where
  /-- There is no text. -/
  | empty
  /-- A segment between points does not start with a name. -/
  | nameless
  /-- A name contains a closing bracket. -/
  | unbalanced
  /-- Something other than an index follows an index. -/
  | trailing
  /-- An index is not closed. -/
  | unterminated
  /-- An index is not made of digits. -/
  | notANumber
  /-- An index does not fit in 64 bits. -/
  | tooLarge
deriving DecidableEq, Repr

/-- The text of a defect. -/
def Path.Defect.reason : Path.Defect → String
  | .empty => "attribute path is empty"
  | .nameless => "every path segment must start with an attribute name"
  | .unbalanced => "unbalanced ']' in path"
  | .trailing => "unexpected characters after list index"
  | .unterminated => "unterminated list index"
  | .notANumber => "list index must be a non-negative integer"
  | .tooLarge => "list index is out of range"

namespace Path

/-! ### Writing -/

/-- The text of a step. -/
def Step.text : Step → String
  | .field name => "." ++ name
  | .index position => "[" ++ Number.natText position ++ "]"

/-- The **text of a path**. -/
def text (path : Path) : String := path.root ++ String.join (path.steps.map Step.text)

/-- The name of a step, if it goes to a field. -/
def Step.name? : Step → Option String
  | .field name => some name
  | .index _ => none

/-- The names on a path, in order. -/
def names (path : Path) : List String := path.root :: path.steps.filterMap Step.name?

/-! ### Reading -/

/-- The position that digits stand for. -/
def position (digits : List Char) : Except Defect Nat :=
  if digits.isEmpty || !digits.all Char.isDigit then .error .notANumber
  else if Text.ofDigits digits < Number.wordBound then .ok (Text.ofDigits digits)
  else .error .tooLarge

/-- Read the indexes behind a name. Inside brackets the characters since the opening one are
given, the last one first. -/
def indexes : Option (List Char) → List Char → Except Defect (List Nat)
  | none, [] => .ok []
  | none, c :: cs => if c = '[' then indexes (some []) cs else .error .trailing
  | some _, [] => .error .unterminated
  | some inside, c :: cs =>
    if c = ']' then do
      let first ← position inside.reverse
      let rest ← indexes none cs
      pure (first :: rest)
    else indexes (some (c :: inside)) cs

/-- Read one segment between points: a name and the indexes behind it. -/
def segment (cs : List Char) : Except Defect (String × List Nat) :=
  let name := cs.takeWhile (· ≠ '[')
  if name.isEmpty then .error .nameless
  else if ']' ∈ name then .error .unbalanced
  else do
    let positions ← indexes none (cs.dropWhile (· ≠ '['))
    pure (String.ofList name, positions)

/-- Read the segments behind the first one. -/
def segments : List (List Char) → Except Defect (List Step)
  | [] => .ok []
  | cs :: rest => do
    let (name, positions) ← segment cs
    let steps ← segments rest
    pure (.field name :: positions.map .index ++ steps)

/-- The **path of a text**, or its first defect from the left. -/
def parse (text : String) : Except Defect Path :=
  if text.isEmpty then .error .empty
  else
    match text.toList.splitOn '.' with
    | [] => .error .empty
    | first :: rest => do
      let (root, positions) ← segment first
      let steps ← segments rest
      pure ⟨root, positions.map .index ++ steps⟩

/-- The part of a text before its first point or opening bracket. It is the root of the path, if
the text is one. -/
def rootText (text : String) : String :=
  String.ofList (text.toList.takeWhile fun c => c ≠ '.' && c ≠ '[')

end Path

end ItemExpr
