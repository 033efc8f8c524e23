import FixGate.Failure
import FixGate.Value

/-!
# Markup

Printed lines carry tags in brackets. A text from elsewhere is escaped, so that what looks like a tag in
it is shown as it is: a backslash goes before the bracket, and the backslashes before it are doubled. A
single backslash at the very end is doubled, too, lest it escape what follows.

* `escape` : a text with its tags escaped
-/

namespace FixGate.Markup

/-- A character that makes a bracket the start of a tag. -/
def startsTag (c : Char) : Bool :=
  ('a' ≤ c && c ≤ 'z') || c == '#' || c == '/' || c == '@'

/-- The number of characters up to a closing bracket, if it comes before any opening one. -/
def toClosing : List Char → Option Nat
  | [] => none
  | c :: cs =>
    if c == ']' then some 1
    else if c == '[' then none
    else (toClosing cs).map (· + 1)

/-- The number of characters of a tag after its opening bracket, if a tag starts there. -/
def tagLength : List Char → Option Nat
  | [] => none
  | c :: cs => if startsTag c then (toClosing cs).map (· + 1) else none

/-- A text with its tags escaped, given how many characters belong to a tag already escaped and how many
backslashes stand directly before. -/
def escapeFrom : Nat → Nat → List Char → List Char
  | _, slashes, [] => List.replicate slashes '\\'
  | inTag + 1, _, c :: cs => c :: escapeFrom inTag 0 cs
  | 0, slashes, c :: cs =>
    if c == '\\' then escapeFrom 0 (slashes + 1) cs
    else if c == '[' then
      match tagLength cs with
      | some n => List.replicate (2 * slashes + 1) '\\' ++ c :: escapeFrom n 0 cs
      | none => List.replicate slashes '\\' ++ c :: escapeFrom 0 0 cs
    else List.replicate slashes '\\' ++ c :: escapeFrom 0 0 cs

/-- A text whose last backslash, if it stands alone, is doubled. -/
def closeEnd (cs : List Char) : List Char :=
  match cs.reverse with
  | '\\' :: '\\' :: _ => cs
  | '\\' :: _ => cs ++ ['\\']
  | _ => cs

/-- A text with its tags escaped. -/
def escape (s : String) : String :=
  String.ofList (closeEnd (escapeFrom 0 0 s.toList))

/-- A value with its tags escaped, which must be a text. -/
def escapeValue : Value → Except Failure String
  | .text s => .ok (escape s)
  | v => .error (.shape (.notSearchable v.kind))

example : escape "x [red]y\\[z]" = "x \\[red]y\\\\\\[z]" := by decide +kernel

end FixGate.Markup
