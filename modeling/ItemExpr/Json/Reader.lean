import ItemExpr.Json.Token

/-! # Reading JSON text

A text is cut into tokens, and the tokens are taken one by one by a machine with a stack: a frame
for each array or object that is still open, and what may come next. Where the machine cannot go on
the open containers are cut off, which makes a `Draft` of every text (`Json.read`). The text is a
document if the machine ends with no frame open and one document read (`Json.parse?`). -/

namespace ItemExpr.Json

/-- An **open container**, what it holds so far with the last part first. -/
inductive Frame where
  /-- An array. -/
  | array (before : List Draft)
  /-- An object, inside the member of this name. -/
  | object (before : List (Option String × Draft)) (name : Option String)

/-- What the machine **waits for**. -/
inductive Expected where
  /-- A document. -/
  | value
  /-- The first item of an array, or its end. -/
  | firstItem
  /-- The first name of an object, or its end. -/
  | firstName
  /-- The next name of an object with these members, the last one first. -/
  | name (before : List (Option String × Draft))
  /-- The colon behind a name. -/
  | colon (before : List (Option String × Draft)) (name : Option String)
  /-- What follows this document: a comma, the end of a container, or the end of the text. -/
  | after (value : Draft)

/-- The open containers, the innermost one first, and what may come next. -/
abbrev ReaderState := List Frame × Expected

/-- Take a token where a document is expected. -/
def startValue (stack : List Frame) : Token → Option ReaderState
  | .scalar value => some (stack, .after value)
  | .string text => some (stack, .after ((text.map .string).getD .void))
  | .openArray => some (stack, .firstItem)
  | .openObject => some (stack, .firstName)
  | _ => none

/-- Take one token. -/
def step : ReaderState → Token → Option ReaderState
  | (stack, .value), token => startValue stack token
  | (stack, .firstItem), .closeArray => some (stack, .after (.array [] true))
  | (stack, .firstItem), token => startValue (.array [] :: stack) token
  | (stack, .firstName), .closeObject => some (stack, .after (.object [] true))
  | (stack, .firstName), .string name => some (stack, .colon [] name)
  | (stack, .name before), .string name => some (stack, .colon before name)
  | (stack, .colon before name), .colon => some (.object before name :: stack, .value)
  | (.array before :: stack, .after value), .comma =>
    some (.array (value :: before) :: stack, .value)
  | (.array before :: stack, .after value), .closeArray =>
    some (stack, .after (.array (value :: before).reverse true))
  | (.object before name :: stack, .after value), .comma =>
    some (stack, .name ((name, value) :: before))
  | (.object before name :: stack, .after value), .closeObject =>
    some (stack, .after (.object ((name, value) :: before).reverse true))
  | _, _ => none

/-! ### Cutting off -/

/-- The innermost draft of a machine that cannot go on. -/
def Expected.cut : Expected → Draft
  | .value => .broken
  | .firstItem => .array [] false
  | .firstName => .object [] false
  | .name before => .object before.reverse false
  | .colon before label => .object ((label, .broken) :: before).reverse false
  | .after last => last

/-- An open container cut off behind a last part. -/
def Frame.cut (last : Draft) : Frame → Draft
  | .array before => .array (last :: before).reverse false
  | .object before name => .object ((name, last) :: before).reverse false

/-- The draft of a machine that cannot go on. -/
def ReaderState.cut (state : ReaderState) : Draft := state.1.foldl Frame.cut state.2.cut

/-! ### Reading -/

/-- What a **text reads as**. -/
structure Reading where
  /-- The document, as far as it goes. -/
  draft : Draft
  /-- Whether the text ends behind a document. -/
  ended : Bool
deriving Repr

/-- Take tokens for as long as the machine goes on. -/
def run (state : ReaderState) : List Token → Reading
  | [] =>
    match state with
    | ([], .after value) => ⟨value, true⟩
    | state => ⟨ReaderState.cut state, false⟩
  | token :: tokens =>
    match step state token with
    | some state => run state tokens
    | none => ⟨ReaderState.cut state, false⟩

/-- **Read a text** as far as it is JSON. -/
def read (text : String) : Reading := run ([], .value) (Token.ofChars text.toList)

/-- The **document of a text**, or `none` if the text is not one. -/
def parse? (text : String) : Option Json :=
  let reading := read text
  if reading.ended then reading.draft.json? else none

end ItemExpr.Json
