import ItemExpr.Json.Draft
import ItemExpr.Number.Binary
import ItemExpr.Number.Text

/-! # JSON tokens

`Token.ofChars` cuts a text into tokens, up to the first place where there is none. Strings are
decoded on the way: each escape is replaced by its character and a pair of surrogate escapes by one
character. A string with half a pair is a token, but one without a text, and a number too large is
one without a value. A bare control character is no part of a string, and a digit does not follow
a leading zero. -/

namespace ItemExpr.Json

/-- A **token** of JSON text. -/
inductive Token where
  /-- `[` -/
  | openArray
  /-- `]` -/
  | closeArray
  /-- An opening brace. -/
  | openObject
  /-- A closing brace. -/
  | closeObject
  /-- `,` -/
  | comma
  /-- `:` -/
  | colon
  /-- A string, as a value or a member's name; it has no text if it has half a surrogate pair. -/
  | string (text : Option String)
  /-- A number or one of the literals `null`, `true` and `false`. -/
  | scalar (value : Draft)
  /-- No token. -/
  | broken

/-- Whether a character may stand between tokens. -/
def isBlank (c : Char) : Bool := c = ' ' || c = '\n' || c = '\t' || c = '\r'

/-! ### Strings -/

/-- The value of a hexadecimal digit. -/
def hexValue? (c : Char) : Option Nat :=
  if '0' ≤ c ∧ c ≤ '9' then some (c.toNat - '0'.toNat)
  else if 'a' ≤ c ∧ c ≤ 'f' then some (c.toNat - 'a'.toNat + 10)
  else if 'A' ≤ c ∧ c ≤ 'F' then some (c.toNat - 'A'.toNat + 10)
  else none

/-- The 16-bit unit of four hexadecimal digits. -/
def unit? (a b c d : Char) : Option Nat := do
  let a ← hexValue? a
  let b ← hexValue? b
  let c ← hexValue? c
  let d ← hexValue? d
  pure (((a * 16 + b) * 16 + c) * 16 + d)

/-- Whether a unit opens a surrogate pair. -/
def isHighSurrogate (unit : Nat) : Bool := 0xD800 ≤ unit && unit < 0xDC00

/-- Whether a unit closes a surrogate pair. -/
def isLowSurrogate (unit : Nat) : Bool := 0xDC00 ≤ unit && unit < 0xE000

/-- The character of a surrogate pair. -/
def pairChar (high low : Nat) : Char :=
  Char.ofNat (0x10000 + (high - 0xD800) * 0x400 + (low - 0xDC00))

/-- A **piece of a string** as it is spelled. -/
inductive Piece where
  /-- A character, by itself or escaped by letter. -/
  | char (c : Char)
  /-- A 16-bit unit, escaped by its digits. -/
  | unit (unit : Nat)

/-- The characters of the pieces of a string: two units that are a surrogate pair are one
character, and half a pair is none. -/
def charsOfPieces? : List Piece → Option (List Char)
  | [] => some []
  | .char c :: rest => (charsOfPieces? rest).map (c :: ·)
  | .unit high :: .unit low :: rest =>
    if isHighSurrogate high && isLowSurrogate low then
      (charsOfPieces? rest).map (pairChar high low :: ·)
    else if isHighSurrogate high || isLowSurrogate high then none
    else (charsOfPieces? (.unit low :: rest)).map (Char.ofNat high :: ·)
  | .unit unit :: rest =>
    if isHighSurrogate unit || isLowSurrogate unit then none
    else (charsOfPieces? rest).map (Char.ofNat unit :: ·)

/-- The character of an escape by letter. -/
def escapedChar? : Char → Option Char
  | '"' => some '"'
  | '\\' => some '\\'
  | '/' => some '/'
  | 'b' => some '\x08'
  | 'f' => some '\x0c'
  | 'n' => some '\n'
  | 'r' => some '\r'
  | 't' => some '\t'
  | _ => none

/-- Read the pieces of a string from behind its opening quote; `before` are those read so far, the
last one first. -/
def readPieces (before : List Piece) : List Char → Option (List Piece × List Char)
  | '"' :: rest => some (before.reverse, rest)
  | '\\' :: 'u' :: a :: b :: c :: d :: rest =>
    match unit? a b c d with
    | none => none
    | some unit => readPieces (.unit unit :: before) rest
  | '\\' :: letter :: rest =>
    match escapedChar? letter with
    | none => none
    | some c => readPieces (.char c :: before) rest
  | c :: rest => if c < ' ' then none else readPieces (.char c :: before) rest
  | [] => none

/-- Read a string from behind its opening quote. -/
def readString (cs : List Char) : Option (Option String × List Char) :=
  (readPieces [] cs).map fun (pieces, rest) => ((charsOfPieces? pieces).map String.ofList, rest)

theorem readPieces_length {before pieces : List Piece} {cs rest : List Char}
    (read : readPieces before cs = some (pieces, rest)) : rest.length < cs.length := by
  fun_induction readPieces before cs <;> simp_all <;> omega

/-- Reading a string leaves less text. -/
theorem readString_length {cs rest : List Char} {text : Option String}
    (read : readString cs = some (text, rest)) : rest.length < cs.length := by
  simp only [readString, Option.map_eq_some_iff, Prod.mk.injEq, Prod.exists] at read
  obtain ⟨pieces, rest', read, -, rfl⟩ := read
  exact readPieces_length read

/-! ### Numbers -/

/-- The parts of a number's text. -/
structure NumberText where
  /-- Whether a minus sign stands in front. -/
  negative : Bool
  /-- The digits before the point. -/
  whole : List Char
  /-- The digits after the point. -/
  fraction : List Char
  /-- The exponent, if one is written. -/
  exponent : Option Int

/-- The number of a text. Without a point and an exponent it is an integer if that fits in 64
bits; negative zero never is one. A number too large for 64-bit arithmetic has no value. -/
def NumberText.value? (text : NumberText) : Option Json.Number :=
  let digits := ItemExpr.Text.ofDigits text.whole
  let real := (ItemExpr.Number.ofLiteral (text.whole.map ItemExpr.Text.digitValue)
    (text.fraction.map ItemExpr.Text.digitValue) (text.exponent.getD 0)).map (.real text.negative)
  if text.fraction.isEmpty && text.exponent.isNone then
    if text.negative then
      -- Integers have no negative zero.
      if 0 < digits ∧ digits ≤ ItemExpr.Number.twoPow 63 then some (.integer (-digits)) else real
    else if digits < ItemExpr.Number.wordBound then some (.integer digits) else real
  else real

/-- Cut the digits off the front of a text. -/
def spanDigits (cs : List Char) : List Char × List Char :=
  (cs.takeWhile Char.isDigit, cs.dropWhile Char.isDigit)

/-- The whole part of a number: one zero, or digits that do not start with zero. -/
def readWhole : List Char → Option (List Char × List Char)
  | '0' :: rest => if (spanDigits rest).1.isEmpty then some (['0'], rest) else none
  | cs => if (spanDigits cs).1.isEmpty then none else some (spanDigits cs)

/-- The fraction of a number, if a point follows. -/
def readFraction : List Char → Option (List Char × List Char)
  | '.' :: cs => if (spanDigits cs).1.isEmpty then none else some (spanDigits cs)
  | cs => some ([], cs)

/-- The digits of an exponent behind its sign. -/
def readExponentDigits (negative : Bool) (cs : List Char) : Option (Option Int × List Char) :=
  if (spanDigits cs).1.isEmpty then none
  else
    let size : Int := ItemExpr.Text.ofDigits (spanDigits cs).1
    some (some (if negative then -size else size), (spanDigits cs).2)

/-- The exponent of a number behind its letter. -/
def readSignedExponent : List Char → Option (Option Int × List Char)
  | '+' :: cs => readExponentDigits false cs
  | '-' :: cs => readExponentDigits true cs
  | cs => readExponentDigits false cs

/-- The exponent of a number, if one follows. -/
def readExponent : List Char → Option (Option Int × List Char)
  | 'e' :: cs => readSignedExponent cs
  | 'E' :: cs => readSignedExponent cs
  | cs => some (none, cs)

/-- The draft of a number's text. -/
def NumberText.draft (text : NumberText) : Draft :=
  match text.value? with
  | some value => .number value
  | none => .void

/-- A number behind its sign. -/
def readUnsigned (negative : Bool) (cs : List Char) : Option (Draft × List Char) :=
  (readWhole cs).bind fun (whole, cs) =>
    (readFraction cs).bind fun (fraction, cs) =>
      (readExponent cs).map fun (exponent, cs) =>
        (NumberText.draft ⟨negative, whole, fraction, exponent⟩, cs)

theorem length_spanDigits (cs : List Char) :
    (spanDigits cs).1.length + (spanDigits cs).2.length = cs.length := by
  rw [← List.length_append, spanDigits, List.takeWhile_append_dropWhile]

theorem readWhole_length {cs rest whole : List Char} (read : readWhole cs = some (whole, rest)) :
    rest.length < cs.length := by
  have := length_spanDigits cs
  unfold readWhole at read
  split at read
  · grind
  · grind [List.length_pos_iff]

theorem readFraction_length {cs rest fraction : List Char}
    (read : readFraction cs = some (fraction, rest)) : rest.length ≤ cs.length := by
  unfold readFraction at read
  split at read
  · next tail =>
    have := length_spanDigits tail
    grind
  · grind

theorem readExponentDigits_length {negative : Bool} {cs rest : List Char} {exponent : Option Int}
    (read : readExponentDigits negative cs = some (exponent, rest)) : rest.length ≤ cs.length := by
  have := length_spanDigits cs
  grind [readExponentDigits]

theorem readSignedExponent_length {cs rest : List Char} {exponent : Option Int}
    (read : readSignedExponent cs = some (exponent, rest)) : rest.length ≤ cs.length := by
  unfold readSignedExponent at read
  split at read <;> have := readExponentDigits_length read <;> grind

theorem readExponent_length {cs rest : List Char} {exponent : Option Int}
    (read : readExponent cs = some (exponent, rest)) : rest.length ≤ cs.length := by
  unfold readExponent at read
  split at read
  · have := readSignedExponent_length read; grind
  · have := readSignedExponent_length read; grind
  · grind

/-- Reading a number leaves less text. -/
theorem readUnsigned_length {negative : Bool} {cs rest : List Char} {value : Draft}
    (read : readUnsigned negative cs = some (value, rest)) : rest.length < cs.length := by
  simp only [readUnsigned, Option.bind_eq_some_iff, Option.map_eq_some_iff, Prod.exists,
    Prod.mk.injEq] at read
  obtain ⟨whole, cs₁, first, fraction, cs₂, second, exponent, cs₃, third, -, rfl⟩ := read
  have := readWhole_length first
  have := readFraction_length second
  have := readExponent_length third
  omega

/-! ### Tokens -/

/-- The token that starts with a character, and the text behind it. -/
def token? (c : Char) (rest : List Char) : Option (Token × List Char) :=
  match c, rest with
  | '[', rest => some (.openArray, rest)
  | ']', rest => some (.closeArray, rest)
  | '\x7b', rest => some (.openObject, rest)
  | '\x7d', rest => some (.closeObject, rest)
  | ',', rest => some (.comma, rest)
  | ':', rest => some (.colon, rest)
  | '"', rest => (readString rest).map fun (text, rest) => (.string text, rest)
  | 'n', 'u' :: 'l' :: 'l' :: rest => some (.scalar .null, rest)
  | 't', 'r' :: 'u' :: 'e' :: rest => some (.scalar (.bool true), rest)
  | 'f', 'a' :: 'l' :: 's' :: 'e' :: rest => some (.scalar (.bool false), rest)
  | '-', rest => (readUnsigned true rest).map fun (value, rest) => (.scalar value, rest)
  | c, rest => (readUnsigned false (c :: rest)).map fun (value, rest) => (.scalar value, rest)

/-- A token takes at least one character. -/
theorem token?_length {c : Char} {rest after : List Char} {token : Token}
    (read : token? c rest = some (token, after)) : after.length < (c :: rest).length := by
  unfold token? at read
  split at read <;> simp only [Option.map_eq_some_iff, Option.some.injEq, Prod.mk.injEq,
    Prod.exists] at read
  case h_7 =>
    obtain ⟨text, rest', read, -, rfl⟩ := read
    exact Nat.lt_succ_of_lt (readString_length read)
  case h_11 =>
    obtain ⟨value, rest', read, -, rfl⟩ := read
    exact Nat.lt_succ_of_lt (readUnsigned_length read)
  case h_12 =>
    obtain ⟨value, rest', read, -, rfl⟩ := read
    exact readUnsigned_length read
  all_goals obtain ⟨-, rfl⟩ := read
  all_goals simp only [List.length_cons]
  all_goals omega

/-- The **tokens of a text**, blanks between them left out. Where no token starts the list ends
with `broken`. -/
def Token.ofChars (cs : List Char) : List Token :=
  match cs with
  | [] => []
  | c :: rest =>
    if isBlank c then Token.ofChars rest
    else
      match _found : token? c rest with
      | none => [.broken]
      | some (token, after) => token :: Token.ofChars after
termination_by cs.length
decreasing_by
  · simp
  · exact token?_length _found

end ItemExpr.Json
