import FixGate.Source.Lines
import FixGate.Source.Signature

/-!
# The window around a line

A fix replaces a window of lines that contains the line of the finding: the function around it where
one is found, else a fixed number of lines on either side.

* `Context` : the fixed number of lines before and after
* `functionStart` : the nearest head of a function at or above a line
* `functionEnd` : the line at which the braces opened since then are closed
* `Window`, `window` : the window of a file around a line
-/

namespace FixGate.Source

/-- How many lines around a finding are taken where no function is found. -/
structure Context where
  before : Int
  after : Int
  deriving DecidableEq, Repr, Inhabited

/-- A range of lines of a file, counted from one, with its text. -/
structure Window where
  file : Path
  first : Int
  last : Int
  code : String
  deriving Inhabited

/-- The number of lines of a window. -/
def Window.count (w : Window) : Int :=
  w.last - w.first + 1

/-- How many lines above a line the head of its function is looked for. -/
def searchDepth : Nat := 50

/-- The line at which a function starts, if line `i` shows it: its head, or its opening brace alone on a
line below its head. -/
def startAt (lines : List (List Char)) (i : Nat) : Option Nat :=
  let text := Text.stripChars (lines.getD i [])
  if text.isEmpty || isComment text then none
  else if isControl text then none
  else if isSignature text && !startsLikeControl text then some i
  else if text == ['\x7b'] && 0 < i && isSignature (Text.stripChars (lines.getD (i - 1) [])) then
    some (i - 1)
  else none

/-- The first start found at line `i` or the `depth` lines above it. -/
def searchUp (lines : List (List Char)) (i : Nat) : Nat → Option Nat
  | 0 => startAt lines i
  | depth + 1 =>
    match startAt lines i with
    | some s => some s
    | none => if i = 0 then none else searchUp lines (i - 1) depth

/-- The start of the function around line `i`, counted from zero, or else of the fixed window. -/
def functionStart (ctx : Context) (lines : List (List Char)) (i : Nat) : Int :=
  match searchUp lines i searchDepth with
  | some s => s
  | none => max 0 ((i : Int) - ctx.before)

/-- Braces opened and not yet closed, and whether one was opened at all. -/
structure Depth where
  excess : Int
  seen : Bool
  deriving DecidableEq, Repr

/-- The effect of one character on the open braces. -/
def Depth.step (d : Depth) (c : Char) : Depth :=
  if c = '\x7b' then ⟨d.excess + 1, true⟩
  else if c = '\x7d' then ⟨d.excess - 1, d.seen⟩
  else d

/-- All braces that were opened are closed. -/
def Depth.closed (d : Depth) : Bool :=
  d.seen && decide (d.excess ≤ 0)

/-- The first of the given lines at whose end all braces are closed, with the number of the first line
and the braces open before it. -/
def closingLine (d : Depth) (i : Nat) : List (List Char) → Option Nat
  | [] => none
  | l :: ls =>
    let d := l.foldl Depth.step d
    if d.closed then some i else closingLine d (i + 1) ls

/-- The end of the function that starts at line `start`, or else of the fixed window. -/
def functionEnd (ctx : Context) (lines : List (List Char)) (start : Int) (i : Nat) : Int :=
  match closingLine ⟨0, false⟩ start.toNat (lines.drop start.toNat) with
  | some e => e
  | none => min ((lines.length : Int) - 1) (i + ctx.after)

/-- The bounds of the window around line `i`, counted from zero. A function that ends before the line
does not contain it, and the fixed window is taken instead. -/
def bounds (ctx : Context) (lines : List (List Char)) (i : Nat) : Int × Int :=
  let start := functionStart ctx lines i
  let stop := functionEnd ctx lines start i
  if stop < i then
    (max 0 ((i : Int) - ctx.before), min ((lines.length : Int) - 1) (i + ctx.after))
  else (start, stop)

/-- The window of a text around a line, counted from one. -/
def windowOf (ctx : Context) (file : Path) (content : String) (line : Int) : Except Failure Window :=
  let lines := (linesOf content.toList).map bare
  if lines.isEmpty then .error (.value (.emptyFile file))
  else if line < 1 || (lines.length : Int) < line then
    .error (.value (.noSuchLine line file lines.length))
  else
    let (start, stop) := bounds ctx lines (line - 1).toNat
    .ok {
      file
      first := start + 1
      last := stop + 1
      code := String.ofList (['\n'].intercalate (span lines start (stop + 1))) }

end FixGate.Source
