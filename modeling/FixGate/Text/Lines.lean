/-!
# Lines of a text

Three ways of cutting a text at line ends are in use, and they must not be confused. Compilers count
lines by the line feed alone; reports of tools are cut at every character that ends a line in some
script; and a text read for scanning has its line ends unified first.

* `splitFeeds` : the pieces between line feeds
* `breakLines` : the lines between breaks of any kind, without the breaks
* `unifyLineEnds` : carriage returns, alone or before a line feed, become line feeds
-/

namespace FixGate.Text

/-- The pieces between line feeds; a text without any is one piece. -/
def splitFeeds (s : String) : List String :=
  (s.toList.splitOn '\n').map String.ofList

/-- A character that ends a line in some convention. -/
def isLineBreak (c : Char) : Bool :=
  let n := c.toNat
  (10 ≤ n && n ≤ 13) || (0x1c ≤ n && n ≤ 0x1e) || n == 0x85 || n == 0x2028 || n == 0x2029

/-- The lines of a text, with the line begun so far, newest character first. -/
def breakLinesFrom : List Char → List Char → List String
  | [], [] => []
  | [], line => [String.ofList line.reverse]
  | '\r' :: '\n' :: cs, line => String.ofList line.reverse :: breakLinesFrom cs []
  | c :: cs, line =>
    if isLineBreak c then String.ofList line.reverse :: breakLinesFrom cs []
    else breakLinesFrom cs (c :: line)

/-- The lines of a text, cut at breaks of any kind; a break at the end opens no further line. -/
def breakLines (s : String) : List String :=
  breakLinesFrom s.toList []

/-- Carriage returns, alone or before a line feed, become line feeds. -/
def unifyLineEndsChars : List Char → List Char
  | [] => []
  | '\r' :: '\n' :: cs => '\n' :: unifyLineEndsChars cs
  | c :: cs => (if c == '\r' then '\n' else c) :: unifyLineEndsChars cs

/-- Carriage returns, alone or before a line feed, become line feeds. -/
def unifyLineEnds (s : String) : String :=
  String.ofList (unifyLineEndsChars s.toList)

/-- The first line of a text, if it has one. -/
def firstLine? (s : String) : Option String :=
  (breakLines s).head?

example : breakLines "a\r\nb\u2028\nc\r" = ["a", "b", "", "c"] := by decide
example : splitFeeds "a\n\nb\n" = ["a", "", "b", ""] := by decide

end FixGate.Text
