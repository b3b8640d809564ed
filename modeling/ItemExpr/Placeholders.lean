import ItemExpr.AttributeValue.Summary
import ItemExpr.AttributeValue.Wire
import ItemExpr.CompileError
import ItemExpr.Wire.Record

/-! # The table of placeholders

Expressions never hold names or literals themselves: a `Placeholders` table gives each name and
each value a placeholder, the same one whenever it comes again, and the compilers write that. A
name of word characters gets itself behind a `#`; any other name, or one whose placeholder is
taken, gets the next free number, as `#n1`. A value gets the next number behind the stem of the
settings. Counters only go up, and no placeholder is ever bound anew.

The `Settings` are what a compiler of expressions is told beforehand: how value placeholders begin,
and the limits on the length of an expression and on the candidates of a membership test.
`Settings.ofTexts` reads them from three optional texts, each on its own, and keeps the default for
a text that does not fit. The `Bindings` are what a request says about the placeholders in its
expressions: which attribute name each `#` placeholder stands for and which value each `:`
placeholder. A map that is absent differs from an empty one.

`Compile` is a computation on such a table that may be refused. A clause is compiled on a scratch
copy of the table (`Compile.transaction`), so that a refused clause leaves nothing behind. -/

namespace ItemExpr

/-! ### Settings -/

/-- The **settings** of a compiler. -/
structure Settings where
  /-- How a value placeholder begins; a number follows. -/
  stem : String := ":v"
  /-- The greatest length of one expression, in bytes of UTF-8. -/
  maxBytes : Nat := 4096
  /-- The greatest number of candidates in one membership test. -/
  maxCandidates : Nat := 100
deriving DecidableEq, Repr, Inhabited

namespace Settings

/-- Whether a character may stand in a placeholder behind its mark: ASCII letters, digits and the
underscore. -/
def isWordChar (c : Char) : Bool := c.isAlphanum || c = '_'

/-- Whether a text begins value placeholders: a colon and word characters, possibly none. -/
def isStem (text : String) : Bool :=
  match text.toList with
  | ':' :: rest => rest.all isWordChar
  | _ => false

/-- The natural of a text below `2 ^ 64`: decimal digits, with a plus sign in front or not. -/
def natural? (text : String) : Option Nat :=
  let digits := match text.toList with
    | '+' :: digits => digits
    | digits => digits
  if digits.isEmpty || !digits.all Char.isDigit then none
  else if Text.ofDigits digits < Number.wordBound then some (Text.ofDigits digits) else none

/-- The limit of a text: a positive natural. -/
def limit? (text : String) : Option Nat := (natural? text).filter (0 < ·)

/-- The settings of three texts that may be missing: the stem of value placeholders, the greatest
length and the greatest number of candidates. -/
def ofTexts (stem maxBytes maxCandidates : Option String) : Settings :=
  let default : Settings := {}
  { stem := (stem.filter isStem).getD default.stem
    maxBytes := (maxBytes.bind limit?).getD default.maxBytes
    maxCandidates := (maxCandidates.bind limit?).getD default.maxCandidates }

end Settings

/-! ### Bindings -/

/-- The **bindings** of a request. -/
structure Bindings where
  /-- Names by placeholder. -/
  names : Option (Entries String) := none
  /-- Values by placeholder. -/
  values : Option (Entries AttributeValue) := none
deriving Repr, Inhabited

namespace Bindings

open Wire

/-- The wire form of bindings. -/
def record : Record Bindings where
  name := "ExpressionAttributes"
  blank := {}
  fields :=
    [.optional "ExpressionAttributeNames" Codec.text.entries (·.names)
        fun names b => { b with names },
      .optional "ExpressionAttributeValues" AttributeValue.codec.entries (·.values)
        fun values b => { b with values }]

end Bindings

/-! ### Tables -/

/-- A **table of placeholders**. Each kind of placeholder has two maps, one for either direction. -/
structure Placeholders where
  /-- The settings of the compilers that share the table. -/
  settings : Settings
  /-- The placeholders of names, in the order in which the names came. -/
  names : List (String × String) := []
  /-- The names by placeholder. -/
  namesByPlaceholder : Entries String := []
  /-- The placeholders of values, in the order in which the values came. -/
  values : List (AttributeValue × String) := []
  /-- The values by placeholder. -/
  valuesByPlaceholder : Entries AttributeValue := []
  /-- The last number tried for a name. -/
  nameCounter : Nat := 0
  /-- The last number given to a value. -/
  valueCounter : Nat := 0
deriving Repr, Inhabited

namespace Placeholders

/-! ### Looking up -/

/-- The table with nothing in it. -/
def empty (settings : Settings) : Placeholders := { settings }

/-- The placeholder of a name. -/
def ofName? (table : Placeholders) (name : String) : Option String :=
  (table.names.find? fun entry => entry.1 = name).map Prod.snd

/-- The name of a placeholder. -/
def name? (table : Placeholders) (placeholder : String) : Option String :=
  table.namesByPlaceholder.find? placeholder

/-- The placeholder of a value, or of an equal one. -/
def ofValue? (table : Placeholders) (value : AttributeValue) : Option String :=
  (table.values.find? fun entry => entry.1 == value).map Prod.snd

/-- The value of a placeholder. -/
def value? (table : Placeholders) (placeholder : String) : Option AttributeValue :=
  table.valuesByPlaceholder.find? placeholder

/-- Whether nothing is in the table. -/
def isEmpty (table : Placeholders) : Bool := table.names.isEmpty && table.values.isEmpty

/-- The placeholders of names that are taken. -/
def taken (table : Placeholders) : List String := table.namesByPlaceholder.keys

/-! ### Adding -/

/-- Whether a name can be its own placeholder: word characters, at least one. -/
def isPlainName (name : String) : Bool :=
  !name.isEmpty && name.toList.all Settings.isWordChar

/-- The placeholder that shows a name. -/
def readable (name : String) : String := "#" ++ name

/-- The placeholder with a number. -/
def numbered (number : Nat) : String := "#n" ++ Number.natText number

/-- The first number after `last` whose placeholder is not taken. Each number passed over uses up
one taken placeholder. -/
def nextFree (taken : List String) (last : Nat) : Nat :=
  if numbered (last + 1) ∈ taken then nextFree (taken.erase (numbered (last + 1))) (last + 1)
  else last + 1
termination_by taken.length
decreasing_by
  rename_i mem
  rw [List.length_erase_of_mem mem]
  exact Nat.sub_lt (List.length_pos_of_mem mem) Nat.one_pos

/-- Bind a placeholder to a name, both ways. -/
def bindName (table : Placeholders) (name placeholder : String) : Placeholders :=
  { table with
    names := table.names ++ [(name, placeholder)]
    namesByPlaceholder := table.namesByPlaceholder.insert placeholder name }

/-- Give a name its placeholder. -/
def addName (table : Placeholders) (name : String) : String × Placeholders :=
  match table.ofName? name with
  | some placeholder => (placeholder, table)
  | none =>
    if isPlainName name ∧ readable name ∉ table.taken then
      (readable name, table.bindName name (readable name))
    else
      -- A name such as `n1` may hold the placeholder of a number.
      let number := nextFree table.taken table.nameCounter
      (numbered number, { table.bindName name (numbered number) with nameCounter := number })

/-- The placeholder of a value with a number. -/
def valuePlaceholder (table : Placeholders) (number : Nat) : String :=
  table.settings.stem ++ Number.natText number

/-- Bind a placeholder to a value, both ways. -/
def bindValue (table : Placeholders) (value : AttributeValue) (placeholder : String) :
    Placeholders :=
  { table with
    values := table.values ++ [(value, placeholder)]
    valuesByPlaceholder := table.valuesByPlaceholder.insert placeholder value }

/-- Give a value its placeholder. -/
def addValue (table : Placeholders) (value : AttributeValue) : String × Placeholders :=
  match table.ofValue? value with
  | some placeholder => (placeholder, table)
  | none =>
    let number := table.valueCounter + 1
    let placeholder := table.valuePlaceholder number
    (placeholder, { table.bindValue value placeholder with valueCounter := number })

/-! ### Bindings of a table -/

/-- The names by placeholder, as a request takes them. -/
def nameMap (table : Placeholders) : Entries String := table.namesByPlaceholder

/-- The values by placeholder, as a request takes them. -/
def valueMap (table : Placeholders) : Entries AttributeValue := table.valuesByPlaceholder

/-- The bindings of a table; a map without entries is absent. -/
def bindings (table : Placeholders) : Bindings where
  names := if table.nameMap.isEmpty then none else some table.nameMap
  values := if table.valueMap.isEmpty then none else some table.valueMap

@[simp] theorem settings_empty (settings : Settings) : (empty settings).settings = settings := rfl

/-- A name that is in the table already changes nothing. -/
theorem addName_of_ofName? {table : Placeholders} {name placeholder : String}
    (found : table.ofName? name = some placeholder) :
    table.addName name = (placeholder, table) := by
  simp [addName, found]

/-- A value that is in the table already changes nothing. -/
theorem addValue_of_ofValue? {table : Placeholders} {value : AttributeValue} {placeholder : String}
    (found : table.ofValue? value = some placeholder) :
    table.addValue value = (placeholder, table) := by
  simp [addValue, found]

end Placeholders

/-- A **compilation**: it works on a table of placeholders and yields a result or is refused. What
it has added to the table by then stays in it, so that a clause is compiled in a `transaction`. -/
abbrev Compile := ExceptT CompileError (StateM Placeholders)

namespace Compile

variable {α β : Type}

/-- Run a compilation on a table: what it yields, and the table that it leaves. -/
def runOn (compile : Compile α) (table : Placeholders) :
    Except CompileError α × Placeholders :=
  (compile.run.run table).run

/-- Compile on a scratch copy of the table, which is kept only if there is a result. -/
def transaction (compile : Compile α) : Compile α := fun table =>
  match compile.runOn table with
  | (.ok result, scratch) => (.ok result, scratch)
  | (.error refusal, _) => (.error refusal, table)

/-- Refuse a part of an expression at a place. -/
def refuse (place : String) (defect : Defect) : Compile α :=
  throw (.malformed place defect)

/-- The placeholder of a name. -/
def name (name : String) : Compile String := fun table =>
  let (placeholder, after) := table.addName name
  (.ok placeholder, after)

/-- The placeholder of a value. -/
def value (value : AttributeValue) : Compile String := fun table =>
  let (placeholder, after) := table.addValue value
  (.ok placeholder, after)

/-- The steps of a path, its names replaced by placeholders. -/
def steps : List Path.Step → Compile String
  | [] => pure ""
  | .field field :: rest => do
    let placeholder ← Compile.name field
    let tail ← steps rest
    pure ("." ++ placeholder ++ tail)
  | .index position :: rest => do
    let tail ← steps rest
    pure ((Path.Step.index position).text ++ tail)

/-- The text of a path, its names replaced by placeholders. Nothing is added for a text that is
not a path. -/
def path (text : String) : Compile String := do
  match Path.parse text with
  | .error defect => refuse text (.path defect)
  | .ok path =>
    let root ← Compile.name path.root
    let tail ← steps path.steps
    pure (root ++ tail)

/-- Refuse the text of a clause if it is too long. -/
def limitLength (clause : Clause) (text : String) : Compile String := do
  let limit := (← get).settings.maxBytes
  if limit < text.utf8ByteSize then throw (.tooLong clause text.utf8ByteSize limit)
  else pure text

/-! ### Running step by step -/

@[simp] theorem runOn_pure (result : α) (table : Placeholders) :
    runOn (pure result) table = (.ok result, table) := rfl

@[simp] theorem runOn_throw (refusal : CompileError) (table : Placeholders) :
    runOn (throw refusal : Compile α) table = (.error refusal, table) := rfl

@[simp] theorem runOn_get (table : Placeholders) :
    runOn (get : Compile Placeholders) table = (.ok table, table) := rfl

@[simp] theorem runOn_name (text : String) (table : Placeholders) :
    runOn (name text) table = (.ok (table.addName text).1, (table.addName text).2) := rfl

@[simp] theorem runOn_value (literal : AttributeValue) (table : Placeholders) :
    runOn (value literal) table = (.ok (table.addValue literal).1, (table.addValue literal).2) :=
  rfl

@[simp] theorem runOn_refuse (place : String) (defect : Defect) (table : Placeholders) :
    runOn (refuse place defect : Compile α) table = (.error (.malformed place defect), table) :=
  rfl

/-- A computation goes on with the result and the table of its first part, if that has one. -/
theorem runOn_bind (first : Compile α) (next : α → Compile β) (table : Placeholders) :
    runOn (first >>= next) table =
      match first.runOn table with
      | (.ok result, after) => (next result).runOn after
      | (.error refusal, after) => (.error refusal, after) := by
  simp only [runOn, ExceptT.run_bind, StateT.run_bind, Id.run_bind]
  rcases (first.run.run table).run with ⟨_ | _, _⟩ <;> rfl

/-- A refused transaction leaves the table as it was. -/
theorem runOn_transaction (compile : Compile α) (table : Placeholders) :
    runOn (transaction compile) table =
      match compile.runOn table with
      | (.ok result, scratch) => (.ok result, scratch)
      | (.error refusal, _) => (.error refusal, table) := rfl

end Compile

/-- An **expression** with the table of its placeholders. -/
structure Expression where
  /-- The text. -/
  text : String
  /-- What the placeholders in the text stand for. -/
  placeholders : Placeholders
deriving Repr

/-- Run a compilation of an expression's text on a table. -/
def Compile.expression (compile : Compile String) (table : Placeholders) :
    Except CompileError Expression :=
  match compile.runOn table with
  | (.ok text, placeholders) => .ok ⟨text, placeholders⟩
  | (.error refusal, _) => .error refusal

end ItemExpr
