import FixGate.Text.Blank
import FixGate.Text.Search

/-!
# Function signatures

A line looks like the head of a function if it has a type, a name and a parameter list, and after the
list at most the word `const` and an opening brace. What stands in the parameter list does not matter,
as long as it has no semicolon.

The characters before the parameter list never include an opening parenthesis, so the list starts at
the first one of the line; nothing that may follow the list is a closing parenthesis, so the list ends
at the last one.

* `isSignature` : the test on a line without blanks at its ends
* `isControl` : a line that begins a control statement
-/

namespace FixGate.Source

/-- A letter of the plain alphabet or an underscore. -/
def startsName (c : Char) : Bool :=
  c.isAlpha || c == '_'

/-- A character of a name, which may be qualified. -/
def isNameChar (c : Char) : Bool :=
  c.isAlphanum || c == '_' || c == ':'

/-- A character of the type in front of a name. -/
def isTypeChar (c : Char) : Bool :=
  isNameChar c || c == '*' || c == '<' || c == '>' || c == ',' || c == '&' || Text.isBlank c

/-- A name with the stars and ampersands that may stand directly before it. -/
def isDeclarator (cs : List Char) : Bool :=
  match cs.dropWhile fun c => c == '*' || c == '&' with
  | [] => false
  | c :: rest => startsName c && rest.all isNameChar

/-- A type and a name: the name is what follows the last blank. -/
def isTypeAndName (cs : List Char) : Bool :=
  let last := cs.reverse.takeWhile fun c => !Text.isBlank c
  let front := (cs.reverse.dropWhile fun c => !Text.isBlank c).reverse
  match front with
  | [] => false
  | c :: rest => startsName c && rest.all isTypeChar && isDeclarator last.reverse

/-- What may follow a parameter list: the word `const` and an opening brace, both optional. -/
def isTrailer (cs : List Char) : Bool :=
  let cs := Text.stripLeftChars cs
  let cs := if "const".toList.isPrefixOf cs then Text.stripLeftChars (cs.drop 5) else cs
  cs == [] || cs == ['\x7b']

/-- A parameter list and what may follow it, after the opening parenthesis. -/
def isParameterList (cs : List Char) : Bool :=
  match cs.reverse.dropWhile (· != ')') with
  | [] => false
  | _ :: inner => !inner.contains ';' && isTrailer (cs.reverse.takeWhile (· != ')')).reverse

/-- A line that looks like the head of a function. -/
def isSignature (line : List Char) : Bool :=
  match line.dropWhile (· != '(') with
  | [] => false
  | _ :: rest => isTypeAndName (Text.stripRightChars (line.takeWhile (· != '('))) && isParameterList rest

/-- The words that begin control statements. -/
def controlWords : List String :=
  ["if", "for", "while", "switch", "else", "do", "return"]

/-- A line that starts with the letters of a control word. -/
def startsLikeControl (line : List Char) : Bool :=
  controlWords.any fun w => w.toList.isPrefixOf line

/-- A line whose text before the first parenthesis is a control word. -/
def isControl (line : List Char) : Bool :=
  controlWords.contains (String.ofList (Text.stripChars (line.takeWhile (· != '('))))

/-- The marks that begin a line of comment. -/
def commentMarks : List String := ["//", "/*", "*"]

/-- A line of comment, judged by its first characters. -/
def isComment (line : List Char) : Bool :=
  commentMarks.any fun m => m.toList.isPrefixOf line

example : isSignature "static void copy(char *d, const char *s) \x7b".toList = true := by decide +kernel
example : isSignature "copy(d, s);".toList = false := by decide +kernel

end FixGate.Source
