import FixGate.Compile.Cargo
import FixGate.Fix.Verdict
import FixGate.Text.Integer

/-!
# Diagnostics in compiler output

Compilers of the C family write `file:line:column: error: message`, one to a line; Maven writes
`[ERROR] file.java:[line,column] message` anywhere in a line; cargo writes records.

In the first two forms, the blanks between the parts may include line ends: a message is then taken from
the line on which it stands. Lines and columns with too many digits are a failure, but only in what is
otherwise a diagnostic.

* `Written` : a diagnostic as it is written
* `Diagnostic.ofFamilyOutput` : the diagnostics of a compiler of the C family
* `Diagnostic.ofMavenOutput` : those of Maven
* `Diagnostic.ofCargoReport` : those of cargo
-/

namespace FixGate.Diagnostic

/-- A diagnostic as it is written, its numbers in digits. -/
structure Written where
  file : String
  line : List Char
  column : List Char
  message : String
  deriving DecidableEq, Repr

/-- The number that digits of a diagnostic denote. -/
def numberOf (digits : List Char) : Except Failure Int :=
  match Text.numberOf digits with
  | .ok n => .ok n
  | .error f => .error (.value (.ofInteger (String.ofList digits) f))

/-- The diagnostic that is written, with the severity that compilers give by default. -/
def Written.read (w : Written) : Except Failure Diagnostic := do
  let line ← numberOf w.line
  let column ← numberOf w.column
  pure ⟨.text w.file, line, column, .text w.message, .text "error"⟩

/-- The digits at the start of a text, if there are any, and the text after them. -/
def readNumber (cs : List Char) : Option (List Char × List Char) :=
  match cs.takeWhile Text.isDecimal with
  | [] => none
  | ds => some (ds, cs.dropWhile Text.isDecimal)

/-- The text after a given one at its start. -/
def skipWord (word : String) (cs : List Char) : Option (List Char) :=
  if word.toList.isPrefixOf cs then some (cs.drop word.length) else none

/-- The text after blanks, up to the end of its line, and what follows. -/
def readMessage (cs : List Char) : String × List Char :=
  let cs := Text.stripLeftChars cs
  (String.ofList (Text.stripChars (cs.takeWhile (· != '\n'))), cs.dropWhile (· != '\n'))

/-- The diagnostic at the start of a line of a compiler of the C family, and what follows it. -/
def familyLine (cs : List Char) : Option (Written × List Char) := do
  let isNamePart c := c != ':' && c != '\n'
  let file := cs.takeWhile isNamePart
  if file.isEmpty then none
  else
    let rest ← skipWord ":" (cs.dropWhile isNamePart)
    let (line, rest) ← readNumber rest
    let rest ← skipWord ":" rest
    let (column, rest) ← readNumber rest
    let rest ← skipWord ":" rest
    let rest := Text.stripLeftChars rest
    let rest ← (skipWord "fatal error:" rest).or (skipWord "error:" rest)
    let (message, rest) := readMessage rest
    pure (⟨String.ofList file, line, column, message⟩, rest)

/-- The text from the next line on. -/
def nextLine (cs : List Char) : List Char :=
  (cs.dropWhile (· != '\n')).drop 1

/-- The diagnostics in the lines of a text, with at most `fuel` lines. -/
def familyLines : Nat → List Char → List Written
  | 0, _ => []
  | _, [] => []
  | fuel + 1, cs =>
    match familyLine cs with
    | some (d, rest) => d :: familyLines fuel (nextLine rest)
    | none => familyLines fuel (nextLine cs)

/-- The diagnostics of a compiler of the C family. -/
def ofFamilyOutput (output : String) : Except Failure (List Diagnostic) :=
  let cs := output.toList
  (familyLines (cs.length + 1) cs).mapM Written.read

/-- The line and column in brackets after the name of a source of Java, and what follows. -/
def javaPosition (cs : List Char) : Option (List Char × List Char × List Char) := do
  let rest ← skipWord ".java:[" cs
  let (line, rest) ← readNumber rest
  let rest ← skipWord "," rest
  let (column, rest) ← readNumber rest
  let rest ← skipWord "]" rest
  pure (line, column, rest)

/-- The shortest name, with what precedes it newest first, that a position follows. -/
def javaName : List Char → List Char → Option (List Char × List Char × List Char × List Char)
  | _, [] => none
  | name, c :: cs =>
    if Text.isBlank c then none
    else
      match javaPosition cs with
      | some (line, column, rest) => some ((c :: name).reverse ++ ".java".toList, line, column, rest)
      | none => javaName (c :: name) cs

/-- The diagnostic at a mark of Maven, and what follows it. -/
def mavenMark (cs : List Char) : Option (Written × List Char) := do
  let rest ← skipWord "[ERROR]" cs
  let spaced := Text.stripLeftChars rest
  if spaced.length == rest.length then none
  else
    let (file, line, column, rest) ← javaName [] spaced
    let (message, rest) := readMessage rest
    pure (⟨String.ofList file, line, column, message⟩, rest)

/-- The diagnostics at the marks of a text, with at most `fuel` characters. -/
def mavenMarks : Nat → List Char → List Written
  | 0, _ => []
  | _, [] => []
  | fuel + 1, c :: cs =>
    match mavenMark (c :: cs) with
    | some (d, rest) => d :: mavenMarks fuel rest
    | none => mavenMarks fuel cs

/-- The diagnostics of Maven. -/
def ofMavenOutput (output : String) : Except Failure (List Diagnostic) :=
  let cs := output.toList
  (mavenMarks (cs.length + 1) cs).mapM Written.read

/-- The diagnostic of a message of cargo. -/
def ofCargoMessage (m : CargoMessage) : Except Failure Diagnostic := do
  let file ← m.span.getOr "file_name" (.text "")
  let line ← (← m.span.getOr "line_start" (.int 0)).toInteger
  let column ← (← m.span.getOr "column_start" (.int 0)).toInteger
  pure ⟨file, line, column, m.message, m.level⟩

/-- The level of an error. -/
def isError (m : CargoMessage) : Bool :=
  match m.level with
  | .text "error" => true
  | _ => false

/-- The diagnostics of the errors among messages. -/
def ofCargoMessages : List (Except Failure CargoMessage) → Except Failure (List Diagnostic)
  | [] => .ok []
  | .error f :: _ => .error f
  | .ok m :: rest => do
    if isError m then
      let d ← ofCargoMessage m
      let ds ← ofCargoMessages rest
      pure (d :: ds)
    else ofCargoMessages rest

/-- The diagnostics of the errors in a report of cargo. -/
def ofCargoReport (report : String) : Except Failure (List Diagnostic) :=
  ofCargoMessages (cargoMessages report)

end FixGate.Diagnostic
