/-! # Base64

Bytes as text over the standard alphabet, padded with `=` to groups of four symbols. Decoding is
strict: the padding is required and the unused bits of the last symbol are zero, so each byte
string has one text. A refused text is reported by the first fault found, with byte offsets into
the UTF-8 text. -/

namespace ItemExpr

/-- A string of bytes. -/
abbrev Bytes := List UInt8

namespace Base64

/-- Why a text is not base64. -/
inductive Fault where
  /-- A byte that cannot stand at this offset. -/
  | symbol (byte : UInt8) (offset : Nat)
  /-- So few symbols that they hold no whole byte. -/
  | length (count : Nat)
  /-- Too little or too much padding. -/
  | padding
  /-- A last symbol with unused bits set. -/
  | lastSymbol (byte : UInt8) (offset : Nat)
deriving DecidableEq, Repr

/-- The text of a fault. -/
def Fault.message : Fault → String
  | .symbol byte offset => s!"Invalid symbol {byte.toNat}, offset {offset}."
  | .length count => s!"Invalid input length: {count}"
  | .padding => "Invalid padding"
  | .lastSymbol byte offset => s!"Invalid last symbol {byte.toNat}, offset {offset}."

/-- The padding symbol `=`. -/
def pad : UInt8 := 61

/-- The symbol of a value below 64: `A` to `Z`, `a` to `z`, `0` to `9`, `+` and `/`. -/
def symbolOf (value : Nat) : UInt8 :=
  UInt8.ofNat <|
    if value < 26 then 65 + value
    else if value < 52 then 97 + (value - 26)
    else if value < 62 then 48 + (value - 52)
    else if value = 62 then 43
    else 47

/-- The value of a symbol, if it is in the alphabet. -/
def valueOf? (symbol : UInt8) : Option Nat :=
  let code := symbol.toNat
  if 65 ≤ code ∧ code ≤ 90 then some (code - 65)
  else if 97 ≤ code ∧ code ≤ 122 then some (code - 97 + 26)
  else if 48 ≤ code ∧ code ≤ 57 then some (code - 48 + 52)
  else if code = 43 then some 62
  else if code = 47 then some 63
  else none

/-! ### Encoding -/

/-- The symbols of a byte string: four for each three bytes, the last group padded. -/
def encodeSymbols : Bytes → List UInt8
  | [] => []
  | [a] =>
    let n := a.toNat
    [symbolOf (n / 4), symbolOf (n % 4 * 16), pad, pad]
  | [a, b] =>
    let n := a.toNat * 256 + b.toNat
    [symbolOf (n / 1024), symbolOf (n / 16 % 64), symbolOf (n % 16 * 4), pad]
  | a :: b :: c :: rest =>
    let n := (a.toNat * 256 + b.toNat) * 256 + c.toNat
    symbolOf (n / 262144) :: symbolOf (n / 4096 % 64) :: symbolOf (n / 64 % 64) ::
      symbolOf (n % 64) :: encodeSymbols rest

/-- The base64 text of a byte string. -/
def encode (bytes : Bytes) : String :=
  String.ofList ((encodeSymbols bytes).map fun symbol => Char.ofNat symbol.toNat)

/-! ### Decoding -/

/-- The value of the symbol at an offset. -/
def value (offset : Nat) (symbol : UInt8) : Except Fault Nat :=
  match valueOf? symbol with
  | some value => .ok value
  | none => .error (.symbol symbol offset)

/-- The bytes of a full group of values. -/
def fullGroup (w x y z : Nat) : Bytes :=
  [UInt8.ofNat (w * 4 + x / 16), UInt8.ofNat (x % 16 * 16 + y / 4), UInt8.ofNat (y % 4 * 64 + z)]

/-- Read the symbols of the last group, `position` of them gone: the values before the padding,
and where padding began. Padding cannot begin before the third place, and nothing follows it. -/
def scanLast (offset position : Nat) (padAt : Option Nat) :
    List UInt8 → Except Fault (List Nat × Nat)
  | [] => .ok ([], 0)
  | symbol :: rest =>
    if symbol = pad then
      if position < 2 then .error (.symbol pad (offset + position))
      else do
        let (values, pads) ← scanLast offset (position + 1) (padAt.or (some position)) rest
        pure (values, pads + 1)
    else
      match padAt with
      | some first => .error (.symbol pad (offset + first))
      | none => do
        let first ← value (offset + position) symbol
        let (values, pads) ← scanLast offset (position + 1) none rest
        pure (first :: values, pads)

/-- The bytes of the last group of a text, which starts at `offset`. -/
def decodeLast (offset : Nat) (group : List UInt8) : Except Fault Bytes := do
  let (values, pads) ← scanLast offset 0 none group
  match values with
  | [] => if group.isEmpty then .ok [] else .error (.length offset)
  | [_] => .error (.length (offset + 1))
  | [w, x] =>
    if pads ≠ 2 then .error .padding
    else if x % 16 ≠ 0 then .error (.lastSymbol (symbolOf x) (offset + 1))
    else .ok [UInt8.ofNat (w * 4 + x / 16)]
  | [w, x, y] =>
    if pads ≠ 1 then .error .padding
    else if y % 4 ≠ 0 then .error (.lastSymbol (symbolOf y) (offset + 2))
    else .ok [UInt8.ofNat (w * 4 + x / 16), UInt8.ofNat (x % 16 * 16 + y / 4)]
  | w :: x :: y :: z :: _ =>
    if pads ≠ 0 then .error .padding else .ok (fullGroup w x y z)

/-- The bytes of the groups from `offset` on: each group but the last has four symbols. -/
def decodeGroups (offset : Nat) : List UInt8 → Except Fault Bytes
  | a :: b :: c :: d :: e :: rest => do
    let w ← value offset a
    let x ← value (offset + 1) b
    let y ← value (offset + 2) c
    let z ← value (offset + 3) d
    let tail ← decodeGroups (offset + 4) (e :: rest)
    pure (fullGroup w x y z ++ tail)
  | last => decodeLast offset last

/-- The byte at the end of a text that leaves one symbol over, if it is no symbol at all. -/
def strayLast? (symbols : List UInt8) : Option UInt8 :=
  if symbols.length % 4 = 1 then
    symbols.getLast?.filter fun last => last ≠ pad && (valueOf? last).isNone
  else none

/-- The byte string of a base64 text, or its first fault. A stray byte at the very end, such as a
line feed, is looked for first. -/
def decode (text : String) : Except Fault Bytes :=
  -- Offsets count bytes, so characters outside ASCII are taken apart.
  let symbols := text.toUTF8.data.toList
  match strayLast? symbols with
  | some last => .error (.symbol last (symbols.length - 1))
  | none => decodeGroups 0 symbols

end Base64

end ItemExpr
