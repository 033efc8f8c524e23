import FixGate.Text.Blank
import FixGate.Text.Digit

/-!
# Integers in texts

An integer is written in decimal digits of any script, with an optional sign, single underscores
between digits and blanks around the whole. The number of its digits is bounded, since reading and
writing take time that grows with its square.

* `Text.digitLimit`, `Text.isTooLong` : the bound on the digits of an integer
* `Text.readInteger` : the integer that a text denotes, or why it denotes none
* `Text.readNatural` : the same without sign or blanks
-/

namespace FixGate.Text

/-- A blank that may stand around a number: any but the four information separators. -/
def isNumberBlank (c : Char) : Bool :=
  isBlank c && !(0x1c ≤ c.toNat && c.toNat ≤ 0x1f)

/-- The text without the blanks that may stand around a number. -/
def stripNumber (cs : List Char) : List Char :=
  dropRightWhile isNumberBlank (cs.dropWhile isNumberBlank)

/-- How many digits an integer may be read from or written in. -/
def digitLimit : Nat := 4300

/-- Why a text denotes no integer. -/
inductive IntegerFault where
  | malformed
  | tooLong (digits : Nat)
  deriving DecidableEq, Repr

/-- An integer too large to be written. -/
def isTooLong (n : Int) : Bool :=
  Nat.pow 10 digitLimit ≤ n.natAbs

/-- The digits at the start of a text, single underscores between them left out, and what follows; given
the digits read so far and whether the last character was an underscore. An underscore that does not
stand between digits is a fault. -/
def digitsFrom (read : List Char) (bar : Bool) : List Char → Option (List Char × List Char)
  | [] => if bar then none else some (read.reverse, [])
  | c :: cs =>
    if c == '_' then
      if bar || read.isEmpty then none else digitsFrom read true cs
    else if isDecimal c then digitsFrom (c :: read) false cs
    else if bar then none
    else some (read.reverse, c :: cs)

/-- The number denoted by digits, unless there are too many of them. -/
def numberOf (digits : List Char) : Except IntegerFault Nat :=
  if digitLimit < digits.length then .error (.tooLong digits.length) else .ok (readDigits digits)

/-- The number denoted by digits with single underscores between them. Digits that are too many are a
fault before anything that follows them. -/
def readNatural (cs : List Char) : Except IntegerFault Nat :=
  match digitsFrom [] false cs with
  | none => .error .malformed
  | some (digits, rest) => do
    let n ← numberOf digits
    if digits.isEmpty || !rest.isEmpty then .error .malformed else pure n

/-- The integer that a text denotes. -/
def readInteger (s : String) : Except IntegerFault Int :=
  match stripNumber s.toList with
  | '-' :: cs => (readNatural cs).map fun n => -(n : Int)
  | '+' :: cs => (readNatural cs).map Int.ofNat
  | cs => (readNatural cs).map Int.ofNat

example : (readInteger " -1_000\n").toOption = some (-1000) := by decide +kernel
example : (readInteger "1__0").toOption = none := by decide +kernel

end FixGate.Text
