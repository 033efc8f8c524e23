import FixGate.Compile.Database
import FixGate.Compile.Diagnostics
import FixGate.Process
import FixGate.Issue.Language
import FixGate.Settings

/-!
# Toolchains

A candidate is checked by compiling only. For C and C++ the compiler and its flags come from the
compilation database of the project, for Java and Rust the nearest project manifest says where to run
the build tool. A toolchain keeps the databases that it has found, so each directory is searched once.

* `Toolchain`, `Toolchain.detect` : the toolchain of a file
* `Invocation`, `Toolchain.resolve` : the command that checks a file
* `Toolchain.diagnostics` : the complaints in what the command printed
* `CompileReport.diagnostics` : the complaints of a report in words
-/

namespace FixGate

/-- The databases found for directories, and the absence of one. -/
abbrev DatabaseCache := List (Path × Option Database)

/-- A way of checking files of one language. -/
inductive Toolchain where
  | cFamily (tools : Tools) (project : Option Path) (cache : DatabaseCache)
  | java (tools : Tools)
  | rust (tools : Tools)
  deriving Inhabited

/-- A command and the directory to run it in. -/
structure Invocation where
  args : List Value
  dir : Path
  deriving Inhabited

namespace Toolchain

/-- The toolchain of a file, told by its extension. One for C and C++ resolves the project. -/
def detect (d : Disk) (file : Path) (tools : Tools) (project : Option Path) :
    Except Failure (Option Toolchain) := do
  match Language.ofPath file with
  | .cFamily => pure (some (.cFamily tools (← project.mapM d.resolveChecked) []))
  | .java => pure (some (.java tools))
  | .rust => pure (some (.rust tools))
  | .unknown => pure none

/-- The settings that a toolchain was made with. -/
def tools : Toolchain → Tools
  | .cFamily t _ _ => t
  | .java t => t
  | .rust t => t

/-- The database for a resolved file: the one kept for its directory, or else the one found now. -/
def databaseFor (d : Disk) (project : Option Path) (cache : DatabaseCache) (file : Path) :
    Except Failure (Option Database) :=
  match cache.lookup file.parent with
  | some kept => .ok kept
  | none => Database.find d file project

/-- The databases with the one of a directory set. -/
def keep (cache : DatabaseCache) (dir : Path) (db : Option Database) : DatabaseCache :=
  (dir, db) :: cache.filter fun x => x.1 != dir

/-- The command that checks a resolved file with a recorded command: the same flags, and nothing
written. -/
def checkCommand (d : Disk) (file : Path) (c : Command) : Except Failure Invocation := do
  let flags ← c.flags d
  pure {
    args := c.compiler :: flags.map Value.text ++ [.text file.text, .text "-fsyntax-only"]
    dir := c.directory }

/-- The command that checks a file of C or C++, and the databases kept from then on. -/
def resolveFamily (d : Disk) (project : Option Path) (cache : DatabaseCache) (file : Path) :
    DatabaseCache × Except Failure Invocation :=
  match d.resolveChecked file with
  | .error f => (cache, .error f)
  | .ok file =>
    match databaseFor d project cache file with
    | .error f => (cache, .error f)
    | .ok none => (keep cache file.parent none, .error (.toolchain .noCommand))
    | .ok (some db) =>
      match db.load d with
      | .error f => (keep cache file.parent (some db), .error f)
      | .ok db =>
        (keep cache file.parent (some db), do
          match ← db.commandFor d file with
          | none => .error (.toolchain .noCommand)
          | some c => checkCommand d file c)

/-- The command of a build tool, run where the nearest manifest is. -/
def inProject (d : Disk) (file : Path) (manifest : String) (args : List Value) :
    Except Failure Invocation := do
  match ← d.nearestWith file manifest with
  | none => .error (.toolchain (.noManifest manifest file))
  | some dir => .ok ⟨args, dir⟩

/-- The command that checks a file, and the toolchain from then on. -/
def resolve (d : Disk) (t : Toolchain) (file : Path) : Toolchain × Except Failure Invocation :=
  match t with
  | .cFamily tools project cache =>
    let (cache, r) := resolveFamily d project cache file
    (.cFamily tools project cache, r)
  | .java tools => (t, inProject d file "pom.xml" [tools.mavenPath, .text "-q", .text "compile"])
  | .rust tools =>
    (t, inProject d file "Cargo.toml" [tools.cargoPath, .text "check", .text "--message-format=json"])

/-- The complaints in what a check printed. -/
def diagnostics (t : Toolchain) (out : Printed) : Except Failure (List Diagnostic) :=
  match t with
  | .cFamily _ _ _ => Diagnostic.ofFamilyOutput out.combined
  | .java _ => Diagnostic.ofMavenOutput out.combined
  | .rust _ => Diagnostic.ofCargoReport out.stdout

/-- The outcome of a check that printed something. -/
def report (t : Toolchain) (out : Printed) : Except Failure CompileReport := do
  let errors ← if out.timedOut then pure [] else t.diagnostics out
  pure {
    success := out.exitCode == 0 && !out.timedOut
    output := out.combined
    exitCode := out.exitCode
    errors
    timedOut := out.timedOut }

end Toolchain

/-- The complaints of a report in words: the diagnostics, or else all output, or else the status. -/
def CompileReport.diagnostics (r : CompileReport) : List String :=
  if !r.errors.isEmpty then r.errors.map Diagnostic.text
  else
    let text := Text.strip r.output
    if !text.isEmpty then [text] else [s!"exit code {r.exitCode}"]

end FixGate
