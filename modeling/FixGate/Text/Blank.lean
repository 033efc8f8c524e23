/-!
# Blank characters

Which characters separate words and are cut from the ends of a text, and the three operations that
rest on them.

* `isBlank` : spaces, tabs, line ends, the four information separators and the wide spaces
* `stripChars`, `stripRightChars` : a text without the blanks at its ends
* `wordsOf` : the maximal runs of characters that are not blank
-/

namespace FixGate.Text

/-- A character that separates words. The zero-width space and the byte-order mark do not. -/
def isBlank (c : Char) : Bool :=
  let n := c.toNat
  (9 ≤ n && n ≤ 13) || (0x1c ≤ n && n ≤ 0x20) || n == 0x85 || n == 0xa0 || n == 0x1680
    || (0x2000 ≤ n && n ≤ 0x200a) || n == 0x2028 || n == 0x2029 || n == 0x202f || n == 0x205f
    || n == 0x3000

/-- The text from its first character that is not blank. -/
def stripLeftChars (cs : List Char) : List Char :=
  cs.dropWhile isBlank

/-- The longest initial part of the text after which the test holds of every character. -/
def dropRightWhile (p : Char → Bool) (cs : List Char) : List Char :=
  (cs.reverse.dropWhile p).reverse

/-- The text up to its last character that is not blank. -/
def stripRightChars (cs : List Char) : List Char :=
  dropRightWhile isBlank cs

/-- The text without the blanks at both ends. -/
def stripChars (cs : List Char) : List Char :=
  stripRightChars (stripLeftChars cs)

/-- The text without the blanks at both ends. -/
def strip (s : String) : String :=
  String.ofList (stripChars s.toList)

/-- The text without the blanks at its end. -/
def stripRight (s : String) : String :=
  String.ofList (stripRightChars s.toList)

/-- A text of blanks only. -/
def isBlankText (s : String) : Bool :=
  s.toList.all isBlank

/-- The words of a text, with the word begun so far, newest character first. -/
def wordsFrom : List Char → List Char → List String
  | [], [] => []
  | [], w => [String.ofList w.reverse]
  | c :: cs, w =>
    if isBlank c then
      match w with
      | [] => wordsFrom cs []
      | _ => String.ofList w.reverse :: wordsFrom cs []
    else wordsFrom cs (c :: w)

/-- The words of a text: its maximal runs of characters that are not blank. -/
def wordsOf (s : String) : List String :=
  wordsFrom s.toList []

example : strip "\t a b\u00a0\n" = "a b" := by decide
example : wordsOf " fix  2 " = ["fix", "2"] := by decide

end FixGate.Text
