/-! # Binary floating-point numbers

A finite number of a binary format is a mantissa times a power of two, with a bounded mantissa and
a bounded exponent. This file decodes the interchange bits of a format (`Datum.ofBits`) and rounds
a ratio of naturals to the nearest number of a format, ties to the even mantissa
(`Format.round`). All arithmetic is exact.

A decimal literal with a fraction, an exponent or too many digits denotes a 64-bit number. Its
leading digits, as many as fit in a 64-bit word, are read as one natural, and that is scaled by a
power of ten with one rounding per operation (`ofLiteral`). Up to 2 ^ 53 and powers up to 10 ^ 22
both factors are exact and the result is the nearest number. -/

namespace ItemExpr.Number

/-! ### Powers and words -/

/-- A **power of two**. -/
def twoPow (exponent : Nat) : Nat := Nat.pow 2 exponent

/-- A **power of ten**. -/
def tenPow (exponent : Nat) : Nat := Nat.pow 10 exponent

/-- The **bound of words**: the naturals below it fit in 64 bits. -/
def wordBound : Nat := 18446744073709551616

example : wordBound = twoPow 64 := by decide

/-! ### Formats and rounding -/

/-- A **binary format**: how many bits a mantissa has, how many an exponent field has, and the
least and greatest exponent of a mantissa's unit. -/
structure Format where
  /-- Bits of a full mantissa. -/
  precision : Nat
  /-- Bits of the exponent field. -/
  exponentBits : Nat
  /-- The exponent of the unit of the smallest numbers. -/
  leastExponent : Int
  /-- The exponent of the unit of the largest numbers. -/
  greatestExponent : Int

/-- The 32-bit format. -/
def binary32 : Format := ⟨24, 8, -149, 104⟩

/-- The 64-bit format. -/
def binary64 : Format := ⟨53, 11, -1074, 971⟩

/-- A **magnitude**: `mantissa * 2 ^ exponent`. -/
structure Magnitude where
  /-- The whole multiple of the unit. -/
  mantissa : Nat
  /-- The power of two that is the unit. -/
  exponent : Int
deriving DecidableEq, Repr

/-- What the bits of a format stand for. -/
inductive Datum where
  /-- Not a number. -/
  | nan
  /-- An infinity of either sign. -/
  | infinite (negative : Bool)
  /-- A finite number; zero has a sign too. -/
  | finite (negative : Bool) (size : Magnitude)
deriving DecidableEq, Repr

/-- Decode interchange bits: from the most significant end a sign, an exponent field and the
mantissa without its leading bit, which is set unless the field is zero. -/
def Datum.ofBits (format : Format) (bits : Nat) : Datum :=
  let leading := twoPow (format.precision - 1)
  let fields := twoPow format.exponentBits
  let fraction := bits % leading
  let field := bits / leading % fields
  let negative := bits / leading / fields % 2 == 1
  if field = fields - 1 then
    if fraction = 0 then .infinite negative else .nan
  else if field = 0 then
    -- The leading bit is not set here, and the unit is that of field 1.
    .finite negative ⟨fraction, format.leastExponent⟩
  else
    .finite negative ⟨leading + fraction, format.leastExponent + ((field - 1 : Nat) : Int)⟩

/-- A quotient rounded to the nearest natural, a tie to the even one. -/
def roundDiv (num den : Nat) : Nat :=
  let whole := num / den
  let twice := 2 * (num % den)
  if twice < den ∨ (twice = den ∧ whole % 2 = 0) then whole else whole + 1

/-- The ratio `num / den` counted in units of `2 ^ exponent`, as a ratio. -/
def inUnits (num den : Nat) (exponent : Int) : Nat × Nat :=
  (num * twoPow (-exponent).toNat, den * twoPow exponent.toNat)

/-- The exponent of the unit in which `num / den` has a full mantissa, or the least one. -/
def Format.unitExponent (format : Format) (num den : Nat) : Int :=
  let guess := max format.leastExponent ((num.log2 : Int) - den.log2 - format.precision)
  let counted := inUnits num den guess
  if counted.1 / counted.2 < twoPow format.precision then guess else guess + 1

/-- The number of the format nearest to `num / den`, a tie to the even mantissa; `none` if it is
too large for the format. -/
def Format.round (format : Format) (num den : Nat) : Option Magnitude :=
  if num = 0 then some ⟨0, format.leastExponent⟩
  else
    let exponent := format.unitExponent num den
    let counted := inUnits num den exponent
    let mantissa := roundDiv counted.1 counted.2
    -- Rounding up may carry into one more bit.
    let result : Magnitude :=
      if mantissa = twoPow format.precision then ⟨twoPow (format.precision - 1), exponent + 1⟩
      else ⟨mantissa, exponent⟩
    if result.exponent ≤ format.greatestExponent then some result else none

/-- A magnitude as a ratio of naturals. -/
def Magnitude.ratio (x : Magnitude) : Nat × Nat :=
  (x.mantissa * twoPow x.exponent.toNat, twoPow (-x.exponent).toNat)

/-- The product of two magnitudes in a format. -/
def Format.product (format : Format) (x y : Magnitude) : Option Magnitude :=
  format.round (x.ratio.1 * y.ratio.1) (x.ratio.2 * y.ratio.2)

/-- The quotient of two magnitudes in a format. -/
def Format.quotient (format : Format) (x y : Magnitude) : Option Magnitude :=
  format.round (x.ratio.1 * y.ratio.2) (x.ratio.2 * y.ratio.1)

/-! ### Decimal literals -/

/-- Take digits into a natural for as long as it fits in a 64-bit word; the rest is returned. -/
def absorbDigits (sofar : Nat) : List Nat → Nat × List Nat
  | [] => (sofar, [])
  | digit :: digits =>
    if 10 * sofar + digit < wordBound then absorbDigits (10 * sofar + digit) digits
    else (sofar, digit :: digits)

/-- The largest power of ten used in one scaling. -/
def greatestPower : Nat := 308

/-- The 64-bit number nearest to `10 ^ power`. -/
def powerOfTen (power : Nat) : Option Magnitude := binary64.round (tenPow power) 1

/-- Divide a number by another so many times, or until nothing is left of it. -/
def divideTimes (divisor : Magnitude) : Nat → Magnitude → Option Magnitude
  | 0, x => some x
  | times + 1, x =>
    if x.mantissa = 0 then some x
    else (binary64.quotient x divisor).bind (divideTimes divisor times)

/-- Divide by `10 ^ power`, by at most `10 ^ greatestPower` at a time. -/
def scaleDown (x : Magnitude) (power : Nat) : Option Magnitude :=
  let times := (power - 1) / greatestPower
  (powerOfTen greatestPower).bind fun divisor =>
    (divideTimes divisor times x).bind fun y =>
      (powerOfTen (power - times * greatestPower)).bind (binary64.quotient y)

/-- Multiply by `10 ^ power`. -/
def scaleUp (x : Magnitude) (power : Nat) : Option Magnitude :=
  if greatestPower < power then if x.mantissa = 0 then some x else none
  else (powerOfTen power).bind (binary64.product x)

/-- The 64-bit number `significand * 10 ^ exponent`, rounded after each operation; `none` if it is
too large. -/
def ofScientific (significand : Nat) (exponent : Int) : Option Magnitude :=
  (binary64.round significand 1).bind fun x =>
    if exponent < 0 then scaleDown x (-exponent).toNat else scaleUp x exponent.toNat

/-- The 64-bit number of a literal given by the digits before and after its point and its
exponent. Digits of the whole part that do not fit count as places. -/
def ofLiteral (whole fraction : List Nat) (exponent : Int) : Option Magnitude :=
  let upper := absorbDigits 0 whole
  -- Digits of the fraction are tried even if not all of the whole part did fit.
  let lower := absorbDigits upper.1 fraction
  ofScientific lower.1
    (upper.2.length - (fraction.length - lower.2.length : Nat) + exponent)

end ItemExpr.Number
