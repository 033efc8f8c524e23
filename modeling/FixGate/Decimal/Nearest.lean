/-!
# The floating-point number nearest to a fraction

A decimal numeral denotes a fraction, and the number kept for it is the nearest one that a
double-precision word can hold; of two equally near ones, the one with the even significand.

* `binaryExponent` : the power of two that scales a fraction to a full significand
* `roundQuotient` : a quotient to the nearest integer, ties to the even one
* `ofFraction` : the double-precision number nearest to a fraction
* `ofScientific` : the same for digits and a power of ten
-/

namespace FixGate.Decimal

/-- A quotient to the nearest integer; a tie goes to the even one. -/
def roundQuotient (num den : Nat) : Nat :=
  let q := num / den
  let r := num % den
  if 2 * r < den then q
  else if den < 2 * r then q + 1
  else if q % 2 == 0 then q else q + 1

/-- Numerator and denominator after division by a power of two, whose exponent may be negative. -/
def scale (num den : Nat) (e : Int) : Nat × Nat :=
  if 0 ≤ e then (num, den * Nat.pow 2 e.toNat) else (num * Nat.pow 2 (-e).toNat, den)

/-- The exponent `e` for which a fraction divided by `2 ^ e` lies in `[2 ^ 52, 2 ^ 53)`, but never
less than the least exponent of the format. -/
def binaryExponent (num den : Nat) : Int :=
  let guess : Int := (num.log2 : Int) - (den.log2 : Int) - 52
  let (a, b) := scale num den guess
  let exact := if a < b * Nat.pow 2 52 then guess - 1 else guess
  max exact (-1074)

/-- The double-precision number `m * 2 ^ e`, with `m` at most `2 ^ 53` and `e` at least `-1074`. -/
def assemble (m : Nat) (e : Int) : Float :=
  let (m, e) := if m == Nat.pow 2 53 then (Nat.pow 2 52, e + 1) else (m, e)
  if m < Nat.pow 2 52 then Float.ofBits (UInt64.ofNat m)
  else if 971 < e then Float.ofBits 0x7ff0000000000000
  else Float.ofBits (UInt64.ofNat ((e + 1075).toNat * Nat.pow 2 52 + (m - Nat.pow 2 52)))

/-- The double-precision number nearest to a fraction with a positive denominator. -/
def ofFraction (num den : Nat) : Float :=
  if num == 0 then 0
  else
    let e := binaryExponent num den
    let (a, b) := scale num den e
    assemble (roundQuotient a b) e

/-- The number nearest to `digits * 10 ^ exponent`. Exponents beyond the range of the format are
settled without computing the power. -/
def ofScientific (digits : Nat) (exponent : Int) : Float :=
  let size : Int := (Nat.toDigits 10 digits).length
  if digits == 0 || exponent + size < -330 then 0
  else if 310 < exponent + size then Float.ofBits 0x7ff0000000000000
  else if 0 ≤ exponent then ofFraction (digits * Nat.pow 10 exponent.toNat) 1
  else ofFraction digits (Nat.pow 10 (-exponent).toNat)

end FixGate.Decimal
