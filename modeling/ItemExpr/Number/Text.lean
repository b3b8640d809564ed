import ItemExpr.Number.Binary

/-! # How numbers are written

Naturals are written with a fixed least number of places (`Text.padded`) and read back from digits
(`Text.ofDigits`).

The decimals that read back as a given binary number fill an interval around it: half the gap to
its neighbour on each side, the ends included when the mantissa is even. `shortest` picks the
decimal on the coarsest grid of powers of ten that meets this interval, and of two on that grid
the nearer one. There are two ways to write a binary number by its shortest decimal.

* `Datum.plain` never uses an exponent and writes a whole number without a point.
* `exchangeText` always shows a point or an exponent: positional when the leading digit's exponent is
  from -5 to 15, scientific otherwise, with the sign of the exponent always written. -/

namespace ItemExpr

/-! ### Fields of digits -/

namespace Text

/-- A natural in a base, filled up with zeros on the left to a least number of places. -/
def padded (base places n : Nat) : List Char :=
  let digits := Nat.toDigits base n
  List.replicate (places - digits.length) '0' ++ digits

/-- The value of a digit character. -/
def digitValue (c : Char) : Nat := c.toNat - '0'.toNat

/-- The natural a list of decimal digits stands for. -/
def ofDigits (digits : List Char) : Nat :=
  digits.foldl (fun n c => 10 * n + digitValue c) 0

@[simp] theorem ofDigits_nil : ofDigits [] = 0 := rfl

end Text

/-! ### Shortest decimals -/

namespace Number

/-- A **decimal**: `digits * 10 ^ exponent`. -/
structure Decimal where
  /-- The whole multiple of the grid's step. -/
  digits : Nat
  /-- The power of ten that is the grid's step. -/
  exponent : Int
deriving DecidableEq, Repr

/-- Which of two equally near decimals is taken. -/
inductive Tie where
  /-- The larger one. -/
  | up
  /-- The one with an even last digit. -/
  | even
deriving DecidableEq, Repr

/-- The **interval of a binary number**: the number and both ends of what reads back as it, over
one denominator. -/
structure Interval where
  /-- The lower end. -/
  low : Nat
  /-- The number itself. -/
  value : Nat
  /-- The upper end. -/
  high : Nat
  /-- The common denominator. -/
  den : Nat
  /-- Whether the ends read back too. -/
  closed : Bool

/-- The interval of a magnitude in a format. Below a power of two the gap is half as wide, except
at the least exponent. -/
def Format.interval (format : Format) (x : Magnitude) : Interval :=
  -- Counted in quarters of the unit: the gap below may be a half of the gap above.
  let scale := twoPow x.exponent.toNat
  let narrow := x.mantissa = twoPow (format.precision - 1) ∧ format.leastExponent < x.exponent
  { low := (4 * x.mantissa - if narrow then 1 else 2) * scale
    value := 4 * x.mantissa * scale
    high := (4 * x.mantissa + 2) * scale
    den := 4 * twoPow (-x.exponent).toNat
    closed := x.mantissa % 2 == 0 }

/-- Whether a numerator over the common denominator lies in the interval. -/
def Interval.holds (i : Interval) (num : Nat) : Bool :=
  if i.closed then i.low ≤ num && num ≤ i.high else i.low < num && num < i.high

/-- The interval over a denominator that is `factor` times as large. -/
def Interval.rescale (i : Interval) (factor : Nat) : Interval :=
  { low := i.low * factor
    value := i.value * factor
    high := i.high * factor
    den := i.den * factor
    closed := i.closed }

/-- The multiple of `step` in the interval that is nearest to the number, if there is one other
than zero. Only the two multiples next to the number are candidates: if any other lies in the
interval, so does one of them. -/
def Interval.multiple? (tie : Tie) (i : Interval) (step : Nat) : Option Nat :=
  let below := i.value / step
  let beyond := 2 * (i.value - below * step)
  match decide (below ≠ 0) && i.holds (below * step), i.holds ((below + 1) * step) with
  | true, true =>
    if beyond < step then some below
    else if step < beyond then some (below + 1)
    else match tie with
      | .up => some (below + 1)
      | .even => if below % 2 = 0 then some below else some (below + 1)
  | true, false => some below
  | false, true => some (below + 1)
  | false, false => none

/-- The decimal on the grid of `10 ^ exponent` that reads back as the number, if there is one. -/
def Interval.onGrid? (tie : Tie) (i : Interval) (exponent : Int) : Option Decimal :=
  let fine := i.rescale (tenPow (-exponent).toNat)
  (fine.multiple? tie (i.den * tenPow exponent.toNat)).map (⟨·, exponent⟩)

/-- An exponent of ten whose power exceeds `mantissa * 2 ^ exponent`: a bit is worth less than
0.30103 decimal places. -/
def Magnitude.exponentAbove (x : Magnitude) : Int :=
  ((x.mantissa.log2 : Int) + 1 + x.exponent) * 30103 / 100000 + 2

/-- How many grids are tried: seventeen digits always suffice, and the first grids may lie above
the number. -/
def gridCount : Nat := 24

/-- The **shortest decimal** that reads back as a positive magnitude. -/
def shortest (format : Format) (tie : Tie) (x : Magnitude) : Decimal :=
  let top := x.exponentAbove
  let grids := (List.range gridCount).map fun (i : Nat) => top - i
  (grids.findSome? ((format.interval x).onGrid? tie)).getD ⟨0, 0⟩

/-! ### Texts of numbers -/

/-- The decimal digits of a natural. -/
def digitsOf (n : Nat) : List Char := Nat.toDigits 10 n

/-- The text of a natural. -/
def natText (n : Nat) : String := String.ofList (digitsOf n)

/-- The text of an integer, a sign only before a negative one. -/
def intText (n : Int) : String :=
  if n < 0 then "-" ++ natText n.natAbs else natText n.natAbs

/-- So many zeros. -/
def zeros (count : Nat) : List Char := List.replicate count '0'

/-- A decimal without an exponent: the part before the point and the part after it. -/
def Decimal.parts (x : Decimal) : List Char × List Char :=
  let digits := digitsOf x.digits
  if 0 ≤ x.exponent then (digits ++ zeros x.exponent.toNat, [])
  else
    let places := (-x.exponent).toNat
    if places < digits.length then digits.splitAt (digits.length - places)
    else (['0'], zeros (places - digits.length) ++ digits)

/-- The exponent of ten of a decimal's leading digit. -/
def Decimal.leadingExponent (x : Decimal) : Int :=
  x.exponent + (digitsOf x.digits).length - 1

/-- The sign in front of a number's digits. -/
def signText (negative : Bool) : String := if negative then "-" else ""

/-- A decimal without an exponent and without an empty fraction. -/
def Decimal.plain (x : Decimal) : String :=
  match x.parts with
  | (whole, []) => String.ofList whole
  | (whole, fraction) => String.ofList (whole ++ '.' :: fraction)

/-- A decimal without an exponent and with at least one place after the point. -/
def Decimal.pointed (x : Decimal) : String :=
  match x.parts with
  | (whole, []) => String.ofList (whole ++ ['.', '0'])
  | (whole, fraction) => String.ofList (whole ++ '.' :: fraction)

/-- A decimal with one digit before the point and a signed exponent. -/
def Decimal.scientific (x : Decimal) : String :=
  let exponent := x.leadingExponent
  let mantissa := match digitsOf x.digits with
    | first :: second :: rest => first :: '.' :: second :: rest
    | digits => digits
  String.ofList mantissa ++ (if exponent < 0 then "e-" else "e+") ++ natText exponent.natAbs

/-- **Plain text** of a binary number: shortest digits, ties upward, never an exponent. -/
def Datum.plain (format : Format) : Datum → String
  | .nan => "NaN"
  | .infinite negative => signText negative ++ "inf"
  | .finite negative x =>
    signText negative ++
      if x.mantissa = 0 then "0" else (shortest format .up x).plain

/-- **Exchange text** of a finite 64-bit number: shortest digits, ties to even, with a point or an
exponent. -/
def exchangeText (negative : Bool) (x : Magnitude) : String :=
  signText negative ++
    if x.mantissa = 0 then "0.0"
    else
      let decimal := shortest binary64 .even x
      if -5 ≤ decimal.leadingExponent ∧ decimal.leadingExponent ≤ 15 then decimal.pointed
      else decimal.scientific

end Number

end ItemExpr
