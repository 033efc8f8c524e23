import FixGate.Failure
import FixGate.Text.Utf8

/-!
# Lines of a source file

Compilers and analyzers count lines by the line feed, so a source file is cut at line feeds only, and
every line keeps its own terminator. Form feeds and the like stay inside their line.

* `linesOf` : the lines of a text, each with its terminator
* `bare` : a line without its terminator
* `span` : a range of lines, counted from zero, where a negative bound counts from the end
* `extract` : the text of a range of lines, counted from one
* `splice` : a range of lines replaced, everything else kept as it is
-/

namespace FixGate.Source

/-- The lines of a text, each with its terminator; the last one may have none. -/
def linesOf : List Char → List (List Char)
  | [] => []
  | c :: cs =>
    if c = '\n' then ['\n'] :: linesOf cs
    else
      match linesOf cs with
      | [] => [[c]]
      | l :: ls => (c :: l) :: ls

/-- A text without one given character at its end. -/
def dropEnd (x : Char) (cs : List Char) : List Char :=
  if cs.getLast? = some x then cs.dropLast else cs

/-- A line without its terminator: a line feed, and then a carriage return. -/
def bare (line : List Char) : List Char :=
  dropEnd '\r' (dropEnd '\n' line)

/-- A line is terminated. -/
def terminated (line : List Char) : Bool :=
  line.getLast? == some '\n'

/-- The terminator to write after a line that follows the given one's convention. -/
def terminator (line : List Char) : List Char :=
  if ['\r', '\n'].isSuffixOf line then ['\r', '\n'] else ['\n']

/-- A bound of a range, brought into a list: a negative one counts from the end. -/
def bound (length : Nat) (i : Int) : Nat :=
  if i < 0 then (i + length).toNat else min i.toNat length

/-- The elements from one bound up to another. -/
def span (xs : List α) (lo hi : Int) : List α :=
  (xs.take (bound xs.length hi)).drop (bound xs.length lo)

/-- The elements up to a bound. -/
def spanTo (xs : List α) (hi : Int) : List α :=
  xs.take (bound xs.length hi)

/-- The elements from a bound on. -/
def spanFrom (xs : List α) (lo : Int) : List α :=
  xs.drop (bound xs.length lo)

/-- The text of the lines from `first` to `last`, without their terminators. -/
def extractChars (content : List Char) (first last : Int) : List Char :=
  ['\n'].intercalate ((span (linesOf content) (first - 1) last).map bare)

/-- The text of the lines from `first` to `last`, counted from one and joined by line feeds. -/
def extract (content : String) (first last : Int) : String :=
  String.ofList (extractChars content.toList first last)

/-- The pieces of a replacement between line feeds; a line feed at the end opens no further piece. -/
def pieces (code : List Char) : List (List Char) :=
  let ps := code.splitOn '\n'
  if code.isEmpty || terminated code then ps.dropLast else ps

/-- A list with its last element changed. -/
def mapLast (f : α → α) (xs : List α) : List α :=
  match xs.getLast? with
  | none => []
  | some x => xs.dropLast ++ [f x]

/-- The lines of a text after a range of them is replaced, the range starting at a line of the text or
directly after its last one. The replacement follows the terminator of the first line it replaces, or
else of the last line of the text, and a terminator missing at the end of the text stays missing. -/
def spliceLines (lines : List (List Char)) (first last : Int) (code : List Char) : List (List Char) :=
  let head := spanTo lines (first - 1)
  let replaced := span lines (first - 1) last
  let tail := spanFrom lines last
  let eol := terminator ((replaced.head?.or lines.getLast?).getD ['\n'])
  let replacement := (pieces code).map fun p => bare p ++ eol
  let openEnd := match replaced.getLast? with
    | some l => tail.isEmpty && !terminated l
    | none => false
  let openHead := match head.getLast? with
    | some l => !terminated l
    | none => false
  let closing := if openEnd then mapLast bare replacement else replacement
  let leading := if !replacement.isEmpty && openHead then mapLast (· ++ eol) head else head
  leading ++ closing ++ tail

/-- A text with the lines from `first` to `last`, counted from one, replaced by other code. -/
def splice (content : String) (first last : Int) (code : String) : Except Failure String :=
  let lines := linesOf content.toList
  if first < 1 || (lines.length : Int) + 1 < first then
    .error (.value (.startOutside first lines.length))
  else .ok (String.ofList (spliceLines lines first last code.toList).flatten)

/-- The text of a source file, bytes that are no text dropped. -/
def decode (bytes : List UInt8) : String :=
  Text.Utf8.decodeDropping bytes

example : (splice "a\r\nb" 1 1 "x\ny").toOption = some "x\r\ny\r\nb" := by decide +kernel

end FixGate.Source
