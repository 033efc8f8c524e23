import FixGate.Decimal.Nearest
import FixGate.Text.Integer
import FixGate.Text.Case

/-!
# Reading real numbers

A real number in a text has digits with an optional point and an optional power of ten, or is one of
the words for infinity and for no number; single underscores may stand between digits and blanks
around the whole.

* `readReal` : the number that a text denotes
-/

namespace FixGate.Decimal

open FixGate.Text

/-- A positive infinity. -/
def infinity : Float :=
  Float.ofBits 0x7ff0000000000000

/-- No number. -/
def notANumber : Float :=
  Float.ofBits 0x7ff8000000000000

/-- The plain digit of a decimal digit of any script; other characters stay. -/
def plainDigit (c : Char) : Char :=
  match digitValue? c with
  | some n => Char.ofNat ('0'.toNat + n)
  | none => c

/-- Digits with single underscores between them at the start of a text, and what follows; the flag
says that a digit stands before the text. -/
def digitRunFrom (afterDigit : Bool) : List Char → List Char × List Char
  | [] => ([], [])
  | '_' :: d :: rest =>
    if afterDigit && d.isDigit then
      let (ds, left) := digitRunFrom true rest
      (d :: ds, left)
    else ([], '_' :: d :: rest)
  | c :: cs =>
    if c.isDigit then
      let (ds, left) := digitRunFrom true cs
      (c :: ds, left)
    else ([], c :: cs)

/-- Digits with single underscores between them at the start of a text, and what follows. -/
def digitRun (cs : List Char) : List Char × List Char :=
  digitRunFrom false cs

/-- The integer after an exponent mark, which must be all that is left. -/
def exponentOf : List Char → Option Int
  | '-' :: cs => match digitRun cs with
    | (d :: ds, []) => some (-(readDigits (d :: ds) : Int))
    | _ => none
  | '+' :: cs => match digitRun cs with
    | (d :: ds, []) => some (readDigits (d :: ds))
    | _ => none
  | cs => match digitRun cs with
    | (d :: ds, []) => some (readDigits (d :: ds))
    | _ => none

/-- The number denoted by digits, a point, digits and an exponent, of which some may be missing. -/
def readNumeral (cs : List Char) : Option Float :=
  let (whole, rest) := digitRun cs
  let (fraction, rest) := match rest with
    | '.' :: more => digitRun more
    | _ => ([], rest)
  if whole.isEmpty && fraction.isEmpty then none
  else
    let digits := readDigits (whole ++ fraction)
    let places : Int := fraction.length
    match rest with
    | [] => some (ofScientific digits (-places))
    | e :: more =>
      if e == 'e' || e == 'E' then
        (exponentOf more).map fun x => ofScientific digits (x - places)
      else none

/-- The number denoted by a text without sign or blanks. -/
def readUnsigned (cs : List Char) : Option Float :=
  let word := String.ofList (cs.map Char.toLower)
  if word == "inf" || word == "infinity" then some infinity
  else if word == "nan" then some notANumber
  else readNumeral cs

/-- The number that a text denotes. -/
def readReal (s : String) : Option Float :=
  match (stripNumber s.toList).map plainDigit with
  | '-' :: cs => (readUnsigned cs).map fun x => -x
  | '+' :: cs => readUnsigned cs
  | cs => readUnsigned cs

/-- The integer part of a number, unless it is infinite or no number. -/
def truncate? (x : Float) : Option Int :=
  let bits := x.toBits.toNat
  let e : Nat := bits / Nat.pow 2 52 % Nat.pow 2 11
  let f : Nat := bits % Nat.pow 2 52
  if e == 2047 then none
  else
    let magnitude : Nat :=
      if e < 1075 then (Nat.pow 2 52 + f) / Nat.pow 2 (1075 - e)
      else (Nat.pow 2 52 + f) * Nat.pow 2 (e - 1075)
    let magnitude : Nat := if e == 0 then 0 else magnitude
    some (if bits / Nat.pow 2 63 % 2 == 1 then -(magnitude : Int) else magnitude)

end FixGate.Decimal
