import FixGate.Decimal.Nearest

/-!
# Decimal text of floating-point numbers

Two texts are in use. The exact one has the fewest digits that read back as the same number. The
rounded one has at most six significant digits and no zeros at its end.

* `Magnitude` : the exact value `m * 2 ^ q` of a finite number
* `shortest` : the fewest digits that read back, and the power of ten of the last one
* `Layout` : where positional notation ends and how an exponent is written
* `exactText`, `roundedText` : the two texts
-/

namespace FixGate.Decimal

/-- The absolute value `significand * 2 ^ exponent` of a finite number. -/
structure Magnitude where
  significand : Nat
  exponent : Int
  deriving DecidableEq, Repr

/-- The absolute value held by a double-precision word, unless it is infinite or no number. -/
def Magnitude.ofBits (bits : Nat) : Option Magnitude :=
  let e : Nat := bits / Nat.pow 2 52 % Nat.pow 2 11
  let f := bits % Nat.pow 2 52
  if e == 2047 then none
  else if e == 0 then some ⟨f, -1074⟩
  else some ⟨Nat.pow 2 52 + f, e - 1075⟩

/-- A fraction whose denominator is positive. -/
structure Ratio where
  num : Nat
  den : Nat

/-- The fraction `a * 2 ^ e * 10 ^ (-k)`. -/
def Ratio.scaled (a : Nat) (e k : Int) : Ratio :=
  let num := a * (if 0 ≤ e then Nat.pow 2 e.toNat else 1) * (if k ≤ 0 then Nat.pow 10 (-k).toNat else 1)
  let den := (if 0 ≤ e then 1 else Nat.pow 2 (-e).toNat) * (if k ≤ 0 then 1 else Nat.pow 10 k.toNat)
  ⟨num, den⟩

/-- The number of decimal digits of a positive number. -/
def digitCount (n : Nat) : Nat :=
  (Nat.toDigits 10 n).length

/-- The power of ten of the first digit of a positive fraction. -/
def leadingPower (r : Ratio) : Int :=
  let guess : Int := (digitCount r.num : Int) - (digitCount r.den : Int)
  let fits := if 0 ≤ guess then decide (r.den * Nat.pow 10 guess.toNat ≤ r.num)
    else decide (r.den ≤ r.num * Nat.pow 10 (-guess).toNat)
  if fits then guess else guess - 1

/-- A point `t * 10 ^ k` of a decimal grid reads back as the number: it lies between the midpoints to
the neighbouring numbers, which belong to the interval if the significand is even. -/
def readsBack (m : Magnitude) (t : Nat) (k : Int) : Bool :=
  let even := m.significand % 2 == 0
  -- everything in quarters of the last binary place
  let below := if m.significand == Nat.pow 2 52 && -1074 < m.exponent then 1 else 2
  let lo := Ratio.scaled (4 * m.significand - below) (m.exponent - 2) k
  let hi := Ratio.scaled (4 * m.significand + 2) (m.exponent - 2) k
  if even then lo.num ≤ t * lo.den && t * hi.den ≤ hi.num
  else lo.num < t * lo.den && t * hi.den < hi.num

/-- The point of the grid of multiples of `10 ^ k` that is nearest to the number among those that read
back; a tie goes to the even one. -/
def gridPoint (m : Magnitude) (k : Int) : Option Nat :=
  let v := Ratio.scaled m.significand m.exponent k
  let t := v.num / v.den
  let r := v.num % v.den
  let upFirst := v.den < 2 * r || (2 * r == v.den && t % 2 == 1)
  let first := if upFirst then t + 1 else t
  let second := if upFirst then t else t + 1
  if readsBack m first k then some first
  else if readsBack m second k then some second
  else none

/-- The first grid with a point that reads back, trying ever more digits. -/
def shortestFrom (m : Magnitude) (k : Int) : Nat → Nat × Int
  | 0 => (m.significand, 0)
  | tries + 1 =>
    match gridPoint m k with
    | some t => (t, k)
    | none => shortestFrom m (k - 1) tries

/-- The fewest digits that read back as a positive number, with the power of ten of the last. -/
def shortest (m : Magnitude) : Nat × Int :=
  shortestFrom m (leadingPower (Ratio.scaled m.significand m.exponent 0)) 18

/-- How digits are laid out: the powers of the first digit that are written positionally, and whether
a whole number shows a fraction of zero. -/
structure Layout where
  leastPositional : Int
  greatestPositional : Int
  wholeMark : String

/-- Digits with the point after the first `whole` of them, zeros filled in on either side. -/
def positional (digits : List Char) (whole : Int) (wholeMark : String) : String :=
  if whole ≤ 0 then
    "0." ++ String.ofList (List.replicate (-whole).toNat '0' ++ digits)
  else if (digits.length : Int) ≤ whole then
    String.ofList (digits ++ List.replicate (whole.toNat - digits.length) '0') ++ wholeMark
  else
    String.ofList (digits.take whole.toNat) ++ "." ++ String.ofList (digits.drop whole.toNat)

/-- An exponent with its sign and at least two digits. -/
def exponentText (e : Int) : String :=
  let digits := Nat.toDigits 10 e.natAbs
  (if e < 0 then "e-" else "e+") ++ String.ofList (if digits.length < 2 then '0' :: digits else digits)

/-- Digits without zeros at their end, laid out with the first one at the given power of ten. -/
def Layout.write (l : Layout) (digits : List Char) (power : Int) : String :=
  let digits := match (digits.reverse.dropWhile (· == '0')).reverse with
    | [] => ['0']
    | ds => ds
  if l.leastPositional ≤ power && power ≤ l.greatestPositional then
    positional digits (power + 1) l.wholeMark
  else
    match digits with
    | [] => exponentText power
    | [d] => String.ofList [d] ++ exponentText power
    | d :: ds => String.ofList (d :: '.' :: ds) ++ exponentText power

/-- The exact text: positional from `10 ^ -4` to below `10 ^ 16`, and `.0` after a whole number. -/
def exactLayout : Layout := ⟨-4, 15, ".0"⟩

/-- The rounded text: positional from `10 ^ -4` to below `10 ^ 6`, and nothing after a whole number. -/
def roundedLayout : Layout := ⟨-4, 5, ""⟩

/-- The text of a word of double precision, given how to write a positive magnitude and zero. -/
def textOfBits (bits : Nat) (zero : String) (write : Magnitude → String) : String :=
  let sign := if bits / Nat.pow 2 63 % 2 == 1 then "-" else ""
  match Magnitude.ofBits bits with
  | none => if bits % Nat.pow 2 52 == 0 then sign ++ "inf" else "nan"
  | some m => sign ++ if m.significand == 0 then zero else write m

/-- The fewest digits of a number that read back. -/
def exactText (x : Float) : String :=
  textOfBits x.toBits.toNat "0.0" fun m =>
    let (t, k) := shortest m
    let digits := Nat.toDigits 10 t
    exactLayout.write digits (k + digits.length - 1)

/-- A number to six significant digits. -/
def roundedText (x : Float) : String :=
  textOfBits x.toBits.toNat "0" fun m =>
    let power := leadingPower (Ratio.scaled m.significand m.exponent 0)
    let v := Ratio.scaled m.significand m.exponent (power - 5)
    let t := roundQuotient v.num v.den
    let digits := Nat.toDigits 10 t
    roundedLayout.write digits (power - 5 + digits.length - 1)

end FixGate.Decimal
