import FixGate.Analysis.Clippy
import FixGate.Analysis.Pattern
import FixGate.Analysis.Semgrep

/-!
# The analyzers of a project

A scan runs every analyzer that can run over every source file that is not excluded. The first report of
a fingerprint is kept, and the graver findings come first. To check a finding again, the analyzer that
reported it is preferred, and else the usual ones of the language.

* `Registry` : the analyzers in order
* `Registry.get?`, `Registry.forIssue` : the analyzer of a name, and the one to check a finding with
* `sourceFiles` : the files that a scan covers
* `keepFirst`, `inOrder` : findings without repeats, and in order
* `Registry.scan` : the findings of all analyzers
-/

namespace FixGate

/-- The analyzers of a project, in order. -/
abbrev Registry := List Analyzer

/-- All analyzers with given programs. -/
def Registry.standard (tools : Tools) : Registry :=
  [Analyzer.pattern, Analyzer.semgrep tools 1, Analyzer.clippy tools 2]

/-- The analyzer of a family or name, whatever its case. -/
def Registry.get? (r : Registry) (family : String) : Option Analyzer :=
  let key := Text.lower family
  r.find? fun a => Text.lower a.family == key || Text.lower a.name == key

/-- The analyzers that check findings of a language again, the preferred one first. -/
def usualFamilies : Language → List String
  | .cFamily => ["pattern", "semgrep"]
  | .rust => ["clippy", "pattern"]
  | .java => ["semgrep"]
  | .unknown => []

/-- The first analyzer of a list of families that can run. -/
def Registry.firstAvailable (r : Registry) : List String → Act (Option Analyzer)
  | [] => pure none
  | family :: rest => do
    match r.get? family with
    | none => r.firstAvailable rest
    | some a => if ← a.available then pure (some a) else r.firstAvailable rest

/-- The families to try for a finding: the one that reported it, and then the usual ones. -/
def familiesFor (i : Issue) (language : Option Language) : List String :=
  let usual := usualFamilies (language.getD (Language.ofPath i.file))
  if i.analyzer.isEmpty then usual else i.analyzer :: usual

/-- The analyzer to check a finding again with. -/
def Registry.forIssue (r : Registry) (i : Issue) (language : Option Language) : Act (Option Analyzer) :=
  r.firstAvailable (familiesFor i language)

/-- An entry of the exclusions leaves out a path that contains it, slashes at its end apart. -/
def excludes (entry : Value) (relative : String) : Except Failure Bool := do
  let s ← entry.textFor "rstrip"
  pure (Text.contains relative (Text.trimEnd '/' s))

/-- One of the entries leaves out a path. -/
def excludedBy (relative : String) : List Value → Except Failure Bool
  | [] => .ok false
  | e :: rest => do
    if ← excludes e relative then pure true else excludedBy relative rest

/-- The sources among the places below a directory that are not left out. -/
def keptSources (exclude : Value) (dir : Path) :
    List (List String × Entry) → Except Failure (List Path)
  | [] => .ok []
  | (names, e) :: rest => do
    let file : Path := { dir with names := dir.names ++ names }
    match e with
    | .dir => keptSources exclude dir rest
    | .file _ =>
      if Language.ofPath file == .unknown then keptSources exclude dir rest
      else
        let entries ← exclude.elements
        if ← excludedBy ("/".intercalate names) entries then keptSources exclude dir rest
        else
          let files ← keptSources exclude dir rest
          pure (file :: files)

/-- The files that a scan of a path covers: the file itself, or the sources below the directory, in the
order of their paths. -/
def sourceFiles (d : Disk) (path : Path) (exclude : Value) : Except Failure (List Path) :=
  match d.locate path with
  | .ok (_, .file _) => .ok (if Language.ofPath path == .unknown then [] else [path])
  | .ok (l, .dir) => do
    let files ← keptSources exclude path (d.tree.below l)
    pure (files.mergeSort Path.le)
  | .error f => if f.meansNothing then .ok [] else .error (.ofPath f path)

/-- Findings without those whose fingerprint was seen before. -/
def keepFirst (seen : List String) : List Issue → List Issue
  | [] => []
  | i :: rest =>
    if seen.contains i.fingerprint then keepFirst seen rest
    else i :: keepFirst (i.fingerprint :: seen) rest

/-- A finding comes before another: graver, or else earlier by the code points of its file, or else by its
line. -/
def Issue.le (i j : Issue) : Bool :=
  if i.severity.level ≠ j.severity.level then j.severity.level < i.severity.level
  else if Text.pointsOf i.file.text ≠ Text.pointsOf j.file.text then
    decide (Text.pointsOf i.file.text < Text.pointsOf j.file.text)
  else decide (i.line ≤ j.line)

/-- Findings in order; those of the same rank, file and line keep theirs. -/
def inOrder (is : List Issue) : List Issue :=
  is.mergeSort Issue.le

/-- The findings of an analyzer in a file, none if it does not read the language, cannot run or fails. -/
def Analyzer.findings (a : Analyzer) (file : Path) : Act (List Issue) := do
  if !a.supports file then pure []
  else if !(← a.available) then pure []
  else
    try a.analyze file
    catch
      | .analyzer _ => pure []
      | f => throw f

/-- The findings of analyzers in a file. -/
def findingsIn (file : Path) : List Analyzer → Act (List Issue)
  | [] => pure []
  | a :: rest => do
    let is ← a.findings file
    let js ← findingsIn file rest
    pure (is ++ js)

/-- The findings of analyzers in files. -/
def findingsAcross (r : Registry) : List Path → Act (List Issue)
  | [] => pure []
  | file :: rest => do
    let is ← findingsIn file r
    let js ← findingsAcross r rest
    pure (is ++ js)

/-- The findings of all analyzers in the sources of a path. -/
def Registry.scan (r : Registry) (path : Path) (exclude : Value) : Act (List Issue) := do
  let files ← Act.ofExcept (sourceFiles (← Act.disk) path exclude)
  let is ← findingsAcross r files
  pure (inOrder (keepFirst [] is))

end FixGate
