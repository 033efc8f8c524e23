import FixGate.Failure

/-!
# Words of a command line

A recorded compile command is cut into words as a shell would cut it: at blanks, with single quotes,
double quotes and backslashes taken away. Inside double quotes a backslash only escapes a double quote
or another backslash.

* `Words.split` : the words of a command line
-/

namespace FixGate.Words

/-- Where in a command line the reader stands. -/
inductive Mode where
  | between
  | inWord
  | single
  | double
  | escaped
  | escapedInDouble
  deriving DecidableEq, Repr

/-- A blank between words. -/
def isGap (c : Char) : Bool :=
  c == ' ' || c == '\t' || c == '\r' || c == '\n'

/-- What a character begins where it stands for itself: another mode, or a part of the word. -/
def enter (c : Char) : Option Mode :=
  if c == '\x27' then some .single
  else if c == '"' then some .double
  else if c == '\\' then some .escaped
  else none

/-- The words from a place in a command line on, with the word begun so far, newest character first. -/
def splitFrom : Mode → List Char → List Char → Except ValueFault (List String)
  | .between, _, [] => .ok []
  | .inWord, w, [] => .ok [String.ofList w.reverse]
  | .single, _, [] => .error .unclosedQuote
  | .double, _, [] => .error .unclosedQuote
  | .escaped, _, [] => .error .trailingEscape
  | .escapedInDouble, _, [] => .error .trailingEscape
  | .between, _, c :: cs =>
    if isGap c then splitFrom .between [] cs
    else
      match enter c with
      | some m => splitFrom m [] cs
      | none => splitFrom .inWord [c] cs
  | .inWord, w, c :: cs =>
    if isGap c then do
      let rest ← splitFrom .between [] cs
      pure (String.ofList w.reverse :: rest)
    else
      match enter c with
      | some m => splitFrom m w cs
      | none => splitFrom .inWord (c :: w) cs
  | .single, w, c :: cs =>
    if c == '\x27' then splitFrom .inWord w cs else splitFrom .single (c :: w) cs
  | .double, w, c :: cs =>
    if c == '"' then splitFrom .inWord w cs
    else if c == '\\' then splitFrom .escapedInDouble w cs
    else splitFrom .double (c :: w) cs
  | .escaped, w, c :: cs => splitFrom .inWord (c :: w) cs
  | .escapedInDouble, w, c :: cs =>
    if c == '\\' || c == '"' then splitFrom .double (c :: w) cs
    else splitFrom .double (c :: '\\' :: w) cs

/-- The words of a command line. -/
def split (s : String) : Except ValueFault (List String) :=
  splitFrom .between [] s.toList

example : (split "gcc '-DX=a b' \"\"").toOption = some ["gcc", "-DX=a b", ""] := by decide

end FixGate.Words
