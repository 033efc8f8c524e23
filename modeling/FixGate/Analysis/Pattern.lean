import FixGate.Analysis.Analyzer
import FixGate.Source.Signature
import FixGate.Text.Word

/-!
# The pattern analyzer

Rules on single lines for calls that are known to be dangerous. It needs no external program, so it can
always run. Lines of comment are passed over.

A rule is a recogniser: given the text from a word boundary on, it gives the text after the match, which
is as long as the rule allows.

* `PatternRule`, `builtinRules` : the rules
* `findMatch` : the first match of a recogniser in a line
* `patternFindings` : the findings in the text of a file
* `Analyzer.pattern` : the analyzer
-/

namespace FixGate

namespace Pattern

/-- The text after a match at the start of a text, if there is one. -/
abbrev Recogniser := List Char → Option (List Char)

/-- The text after one of several words, blanks and an opening parenthesis. -/
def callOf (names : List String) : Recogniser := fun cs =>
  match names.find? fun n => n.toList.isPrefixOf cs with
  | none => none
  | some n =>
    match Text.stripLeftChars (cs.drop n.length) with
    | '(' :: rest => some rest
    | _ => none

/-- A call whatever its arguments. -/
def anyCall (names : List String) : Recogniser := callOf names

/-- The text after the last `%s` in the text up to a double quote. -/
def afterLastStringField : List Char → Option (List Char)
  | [] => none
  | c :: cs =>
    if c == '"' then none
    else
      match afterLastStringField cs with
      | some rest => some rest
      | none =>
        match c, cs with
        | '%', 's' :: rest => some rest
        | _, _ => none

/-- A call whose first argument is a literal with a string field without a bound. -/
def unboundedField (names : List String) : Recogniser := fun cs => do
  let rest ← callOf names cs
  match Text.stripLeftChars rest with
  | '"' :: rest => afterLastStringField rest
  | _ => none

/-- A call whose only argument is a variable. -/
def callOnVariable (names : List String) : Recogniser := fun cs => do
  let rest ← callOf names cs
  match Text.stripLeftChars rest with
  | c :: rest =>
    if Source.startsName c then
      match Text.stripLeftChars (rest.dropWhile fun c => c.isAlphanum || c == '_') with
      | ')' :: rest => some rest
      | _ => none
    else none
  | [] => none

/-- A call whose first argument starts with a variable. -/
def callFromVariable (names : List String) : Recogniser := fun cs => do
  let rest ← callOf names cs
  match Text.stripLeftChars rest with
  | c :: rest => if Source.startsName c then some rest else none
  | [] => none

/-- A call without arguments. -/
def emptyCall (names : List String) : Recogniser := fun cs => do
  let rest ← callOf names cs
  match Text.stripLeftChars rest with
  | ')' :: rest => some rest
  | _ => none

/-- A keyword before an opening brace. -/
def blockOf (keyword : String) : Recogniser := fun cs =>
  if keyword.toList.isPrefixOf cs then
    match Text.stripLeftChars (cs.drop keyword.length) with
    | '\x7b' :: rest => some rest
    | _ => none
  else none

/-- Where a match starts, counted from zero, and its text. -/
structure Match where
  start : Nat
  text : String
  deriving DecidableEq, Repr

/-- The first match at a word boundary, given whether the character before the text is part of a word
and the number of characters before it. -/
def findFrom (r : Recogniser) (afterWord : Bool) (start : Nat) : List Char → Option Match
  | [] => none
  | c :: cs =>
    let here := if afterWord then none else r (c :: cs)
    match here with
    | some rest => some ⟨start, String.ofList ((c :: cs).take (cs.length + 1 - rest.length))⟩
    | none => findFrom r (Text.isWord c) (start + 1) cs

/-- How many code points stand before a match. -/
def Match.offset (m : Match) (line : String) : Nat :=
  (Text.points (line.toList.take m.start)).length

/-- The first match of a recogniser in a line. -/
def findMatch (r : Recogniser) (line : String) : Option Match :=
  findFrom r false 0 line.toList

end Pattern

/-- A rule on single lines. -/
structure PatternRule where
  id : String
  recognise : Pattern.Recogniser
  message : String
  severity : Severity
  category : Category
  languages : List Language

/-- The built-in rules, in the order in which they are tried. -/
def builtinRules : List PatternRule := [
  { id := "buffer-overflow-strcpy", recognise := Pattern.anyCall ["strcpy"]
    message := "Unsafe use of strcpy() can lead to buffer overflow"
    severity := .high, category := .bufferOverflow, languages := [.cFamily] },
  { id := "buffer-overflow-strcat", recognise := Pattern.anyCall ["strcat"]
    message := "Unsafe use of strcat() can lead to buffer overflow"
    severity := .high, category := .bufferOverflow, languages := [.cFamily] },
  { id := "buffer-overflow-sprintf", recognise := Pattern.anyCall ["sprintf"]
    message := "Unsafe use of sprintf() can lead to buffer overflow"
    severity := .high, category := .bufferOverflow, languages := [.cFamily] },
  { id := "buffer-overflow-gets", recognise := Pattern.anyCall ["gets"]
    message := "gets() is inherently unsafe and should never be used"
    severity := .critical, category := .bufferOverflow, languages := [.cFamily] },
  { id := "buffer-overflow-scanf", recognise := Pattern.unboundedField ["scanf"]
    message := "scanf() with unbounded %s can overflow the destination buffer"
    severity := .high, category := .bufferOverflow, languages := [.cFamily] },
  { id := "format-string-printf", recognise := Pattern.callOnVariable ["printf", "syslog"]
    message := "Non-literal format string passed to printf-family function"
    severity := .high, category := .formatString, languages := [.cFamily] },
  { id := "command-injection-system", recognise := Pattern.callFromVariable ["system", "popen"]
    message := "Shell command built from a variable"
    severity := .critical, category := .commandInjection, languages := [.cFamily] },
  { id := "insecure-random-rand", recognise := Pattern.emptyCall ["rand"]
    message := "rand() is not suitable for security-sensitive randomness"
    severity := .low, category := .insecureRandom, languages := [.cFamily] },
  { id := "unsafe-block", recognise := Pattern.blockOf "unsafe"
    message := "unsafe block bypasses Rust's memory-safety guarantees"
    severity := .medium, category := .unsafeCode, languages := [.rust] }]

/-- The finding of a rule in a line of a file, the line counted from one. -/
def PatternRule.finding? (r : PatternRule) (file : Path) (number : Nat) (line : String) : Option Issue :=
  if !r.languages.contains (Language.ofPath file) then none
  else
    match Pattern.findMatch r.recognise line with
    | none => none
    | some m =>
      some (Issue.withFingerprint {
        id := s!"{r.id}-{file.name}-{number}"
        title := .text r.message
        category := r.category
        place := ⟨file, number, m.offset line + 1, Text.strip line⟩
        severity := r.severity
        description := .text r.message
        analyzer := "pattern"
        fingerprint := ""
        metadata := [("rule_id", .text r.id), ("matched_code", .text m.text)] })

/-- The findings in a line of a file; a line of comment has none. -/
def lineFindings (rules : List PatternRule) (file : Path) (number : Nat) (line : String) : List Issue :=
  if Source.isComment (Text.stripChars line.toList) then []
  else rules.filterMap fun r => r.finding? file number line

/-- The findings in the lines of a file, the first one with the given number. -/
def linesFindings (rules : List PatternRule) (file : Path) (number : Nat) : List String → List Issue
  | [] => []
  | line :: rest => lineFindings rules file number line ++ linesFindings rules file (number + 1) rest

/-- The findings in the text of a file. -/
def patternFindings (rules : List PatternRule) (file : Path) (text : String) : List Issue :=
  linesFindings rules file 1 (Text.splitFeeds text)

/-- The text of a file as the rules see it: bytes that are no text dropped, line ends unified. -/
def scannedText (bytes : List UInt8) : String :=
  Text.unifyLineEnds (Text.Utf8.decodeDropping bytes)

/-- The analyzer with given rules. -/
def Analyzer.patternWith (rules : List PatternRule) : Analyzer where
  name := "pattern"
  family := "pattern"
  languages := [.cFamily, .rust]
  available := pure true
  version := pure "builtin"
  analyze file := do
    let bytes ←
      try Act.readBytes file
      catch
        | .os _ _ => throw (.analyzer (.unreadable file))
        | f => throw f
    let is := patternFindings rules file (scannedText bytes)
    is.forM fun i => Act.ofExcept i.checkFingerprint
    pure is

/-- The analyzer with the built-in rules. -/
def Analyzer.pattern : Analyzer :=
  Analyzer.patternWith builtinRules

end FixGate
