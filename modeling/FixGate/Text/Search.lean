/-!
# Looking for one text in another

Tests and cuts by a fixed text, all by plain comparison of characters.

* `startsWith`, `endsWith`, `contains` : the three tests
* `occursIn` : the test that `contains` makes, on characters
* `before` : what stands before the first occurrence of a character
-/

namespace FixGate.Text

/-- One run of characters occurs in another. -/
def occursIn (needle : List Char) : List Char → Bool
  | [] => needle.isEmpty
  | c :: cs => needle.isPrefixOf (c :: cs) || occursIn needle cs

/-- A text begins with another. -/
def startsWith (s start : String) : Bool :=
  start.toList.isPrefixOf s.toList

/-- A text ends with another. -/
def endsWith (s ending : String) : Bool :=
  ending.toList.isSuffixOf s.toList

/-- A text contains another. -/
def contains (s needle : String) : Bool :=
  occursIn needle.toList s.toList

/-- A text contains one of several. -/
def containsAny (s : String) (needles : List String) : Bool :=
  needles.any (contains s)

/-- The part of a text before the first occurrence of a character, all of it if there is none. -/
def before (stop : Char) (cs : List Char) : List Char :=
  cs.takeWhile (· != stop)

/-- Every character of one kind becomes another. -/
def replaceChar (old new : Char) (s : String) : String :=
  String.ofList (s.toList.map fun c => if c == old then new else c)

/-- The text without the given character at its end, however often it stands there. -/
def trimEnd (stop : Char) (s : String) : String :=
  String.ofList (s.toList.reverse.dropWhile (· == stop)).reverse

/-- A lower-case digit of base sixteen. -/
def hexDigit (n : Nat) : Char :=
  ['0', '1', '2', '3', '4', '5', '6', '7', '8', '9', 'a', 'b', 'c', 'd', 'e', 'f'].getD (n % 16) '0'

/-- The last `width` digits of a number in base sixteen. -/
def hexDigits (n : Nat) : Nat → List Char
  | 0 => []
  | width + 1 => hexDigits (n / 16) width ++ [hexDigit n]

/-- The value of a digit of base sixteen, in either case. -/
def hexValue? (c : Char) : Option Nat :=
  if '0' ≤ c && c ≤ '9' then some (c.toNat - '0'.toNat)
  else if 'a' ≤ c && c ≤ 'f' then some (c.toNat - 'a'.toNat + 10)
  else if 'A' ≤ c && c ≤ 'F' then some (c.toNat - 'A'.toNat + 10)
  else none

example : contains "buffer-overflow" "overflow" = true := by decide
example : trimEnd '/' "build//" = "build" := by decide
example : String.ofList (hexDigits 0x2f 4) = "002f" := by decide

end FixGate.Text
