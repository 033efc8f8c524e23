import FixGate.Text.Point
import FixGate.Text.Printable
import FixGate.Text.Search

/-!
# Quoted texts

A text shown inside a list, or in a complaint about it, stands between quotes with the characters
that would not show escaped. Single quotes are used unless the text has one and no double quote.

* `quoted` : the text between quotes
-/

namespace FixGate.Text

/-- The quote that encloses a text: single, unless only double ones avoid an escape. -/
def enclosingQuote (cs : List Char) : Char :=
  if cs.contains '\x27' && !cs.contains '"' then '"' else '\x27'

/-- A code point in as few digits as its size allows. -/
def escapedPoint (n : Nat) : List Char :=
  if n < 0x100 then '\\' :: 'x' :: hexDigits n 2
  else if n < 0x10000 then '\\' :: 'u' :: hexDigits n 4
  else '\\' :: 'U' :: hexDigits n 8

/-- One code point between quotes; a half of a pair is never printable. -/
def quotedPoint (quote : Char) (n : Nat) : List Char :=
  let c := Char.ofNat n
  if c == '\\' || c == quote then ['\\', c]
  else if c == '\n' then ['\\', 'n']
  else if c == '\r' then ['\\', 'r']
  else if c == '\t' then ['\\', 't']
  else if isPrintable c then [c]
  else escapedPoint n

/-- A text between quotes. -/
def quoted (s : String) : String :=
  let q := enclosingQuote s.toList
  String.ofList (q :: (pointsOf s).flatMap (quotedPoint q) ++ [q])

example : quoted "it's" = "\"it's\"" := by decide +kernel
example : quoted "a\n" = "'a\\n'" := by decide +kernel

end FixGate.Text
