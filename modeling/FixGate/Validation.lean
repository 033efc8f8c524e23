import FixGate.Analysis.Registry
import FixGate.Fix.Verdict

/-!
# Validation

A candidate is put in the place of its file for as long as it takes to compile it and to look for the
finding again. Whatever happens, the file is then restored from a copy beside it, and the copy removed.

* `stillFound` : the fresh finding that is the same as a given one
* `Validator` : what a validation needs to know
* `Validator.validate` : the verdict on a candidate
* `Validator.whileInPlace` : an action with a candidate in the place of its file
-/

namespace FixGate

/-- A fresh finding is the same as a given one: by its fingerprint, or by its category, file and line,
where lines may differ by the tolerance. -/
def sameFinding (tolerance : Int) (sought fresh : Issue) : Bool :=
  (!fresh.fingerprint.isEmpty && fresh.fingerprint == sought.fingerprint)
    || (fresh.category == sought.category && Path.sameFile fresh.file sought.file
        && decide (((fresh.line - sought.line).natAbs : Int) ≤ tolerance))

/-- The first fresh finding that is the same as a given one. -/
def stillFound (fresh : List Issue) (sought : Issue) (tolerance : Int) : Option Issue :=
  fresh.find? (sameFinding tolerance sought)

/-- What a validation needs to know: the project, as an absolute path, its settings and its analyzers. -/
structure Validator where
  project : Option Path
  settings : Settings
  registry : Registry

/-- What is added to the name of a file to name its copy. -/
def copySuffix : String := ".remedy.bak"

/-- The copy of a file beside it. -/
def copyOf (file : Path) : Path :=
  file.withName (file.name ++ copySuffix)

namespace Validator

/-- A validator for a project, whose path is resolved once. -/
def make (d : Disk) (project : Option Path) (settings : Settings) (registry : Registry) :
    Except Failure Validator := do
  pure ⟨← project.mapM d.resolveChecked, settings, registry⟩

/-- The toolchain for a file: the one kept for it, or else a new one, which is then kept. -/
def toolchainFor (v : Validator) (file : Path) : Act (Option Toolchain) := do
  let s ← get
  let key := s.disk.resolve file
  match s.toolchains.lookup key with
  | some t => pure t
  | none =>
    let t ← Act.ofExcept (Toolchain.detect s.disk key v.settings.tools v.project)
    set { s with toolchains := (key, t) :: s.toolchains }
    pure t

/-- A toolchain kept for a file from now on. -/
def keepToolchain (file : Path) (t : Toolchain) : Act Unit :=
  modify fun s =>
    let key := s.disk.resolve file
    { s with toolchains := (key, some t) :: s.toolchains.filter fun x => x.1 != key }

/-- The command that checks a file; the toolchain keeps what it found on the way. -/
def resolve (t : Toolchain) (file : Path) : Act Invocation := do
  let (t, r) := Toolchain.resolve (← Act.disk) t file
  keepToolchain file t
  Act.ofExcept r

/-- The outcome of running a command that checks a file. -/
def check (t : Toolchain) (c : Invocation) : Act CompileReport := do
  let out ←
    try Act.run c.args (some c.dir) t.tools.timeout
    catch
      | .os _ text => throw (.toolchain (.notStarted ((c.args.head?.getD .null).display) text))
      | f => throw f
  Act.ofExcept (t.report out)

/-- The verdict on a candidate that does not compile. -/
def rejectedByCompiler (v : Validator) (r : CompileReport) : Validation :=
  let reason :=
    if r.timedOut then
      "Compilation timed out after " ++ Decimal.roundedText v.settings.tools.timeout ++ "s"
    else s!"Compilation failed with {max r.errors.length 1} error(s)"
  Validation.reject reason r.diagnostics (some r)

/-- The verdict on a candidate that compiles, after looking for the finding again. -/
def checkFinding (v : Validator) (file : Path) (sought : Issue) (r : CompileReport) :
    Act Validation := do
  match ← v.registry.forIssue sought none with
  | none => pure (.pass "Compiled, but could not re-verify: no analyzer available" (some r))
  | some a =>
    try
      let fresh ← a.analyze file
      match stillFound fresh sought v.settings.lineTolerance with
      | some i =>
        pure (.reject "Original issue still detected"
          [s!"{i.title.display} at line {i.line} ({a.name})"] (some r))
      | none => pure (.pass s!"Compiled and {a.name} no longer reports the issue" (some r))
    catch
      | .analyzer f => pure (.pass ("Compiled, but could not re-verify: " ++ f.message) (some r))
      | f => throw f

/-- The verdict on a candidate, given what came of compiling it. -/
def verdictAfter (v : Validator) (file : Path) (sought : Option Issue) :
    Except ToolchainFault CompileReport → Act Validation
  | .error f => pure (.reject ("Toolchain not available: " ++ f.message) [] none)
  | .ok r =>
    if !r.success then pure (v.rejectedByCompiler r)
    else
      match sought with
      | none => pure (.pass "Compilation successful" (some r))
      | some i => v.checkFinding file i r

/-- The verdict on the candidate that stands in the place of a file. -/
def judge (v : Validator) (t : Toolchain) (c : Invocation) (file : Path) (sought : Option Issue) :
    Act Validation := do
  let r ←
    try Except.ok <$> check t c
    catch
      | .toolchain f => pure (.error f)
      | f => throw f
  v.verdictAfter file sought r

/-- The file restored from its copy, and the copy removed. -/
def restore (file : Path) : Act Unit := do
  Act.copyFile (copyOf file) file
  Act.removeFile (copyOf file)

/-- An action with a candidate in the place of its file, which is restored in any case. -/
def whileInPlace (file : Path) (candidate : String) (a : Act α) : Act α := do
  Act.copyFile file (copyOf file)
  Act.ensure (do Act.writeText file candidate; a) (restore file)

/-- The verdict on a candidate for a file, with respect to a finding if one is given. -/
def validate (v : Validator) (file : Path) (candidate : String) (sought : Option Issue) :
    Act Validation := do
  if !(← Act.ofExcept ((← Act.disk).reaches file)) then
    pure (.reject s!"File not found: {file}" [] none)
  else
    match ← v.toolchainFor file with
    | none =>
      let kind := if file.suffix.isEmpty then file.name else file.suffix
      pure (.reject ("Unsupported file type: " ++ kind) [] none)
    | some t =>
      let c ←
        try Except.ok <$> resolve t file
        catch
          | .toolchain f => pure (.error f)
          | f => throw f
      match c with
      | .error f => pure (.reject f.message [] none)
      | .ok c => whileInPlace file candidate (v.judge t c file sought)

end Validator

end FixGate
