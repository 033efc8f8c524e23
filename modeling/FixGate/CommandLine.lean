import FixGate.Options
import FixGate.Session

/-!
# The command line

Three commands: one scans a target and can fail if something grave is found, one makes fixes for a file
and asks before each is written, and one opens an interactive session. Fixes for a file are made from the
bottom up, so that a fix does not move the lines of the findings that are still to come.

* `Task`, `Task.ofWords` : what the words of the command line ask for
* `scan`, `fixFile`, `shell` : the three commands
* `Failure.status` : the exit status after a failure
* `CommandLine.run` : the words of the command line carried out
-/

namespace FixGate

/-- The exit status after a failure. -/
def Failure.status : Failure → Nat
  | .exit status => status
  | .usage => 2
  | _ => 1

namespace CommandLine

/-- How fixes for a file are made. -/
structure FixOptions where
  line : Option Int
  retries : Option Int
  preview : Bool
  yes : Bool
  deriving DecidableEq, Repr, Inhabited

/-- What the command line asks for. -/
inductive Task where
  | scan (target : Path) (failOn : Option Severity)
  | fix (file : Path) (options : FixOptions)
  | shell (target : Path)
  deriving DecidableEq, Repr

/-- The option that asks for a description. -/
def helpOption : OptionSpec := ⟨"help", none, false⟩

/-- The options before the command. -/
def generalOptions : List OptionSpec := [⟨"version", none, false⟩, ⟨"verbose", some 'v', false⟩, helpOption]

/-- The options of a scan. -/
def scanOptions : List OptionSpec := [⟨"fail-on", none, true⟩, helpOption]

/-- The options of fixing a file. -/
def fixOptions : List OptionSpec :=
  [⟨"line", some 'l', true⟩, ⟨"retries", some 'r', true⟩, ⟨"preview", none, false⟩,
   ⟨"yes", some 'y', false⟩, helpOption]

/-- A written path asks for a directory: it ends with a slash, or with a slash and a dot. -/
def asksDirectory (written : String) : Bool :=
  Text.endsWith written "/" || Text.endsWith written "/."

/-- The path that a word of the command line denotes; something must stand there. -/
def existing (d : Disk) (word : String) : Except Failure Path :=
  let p := Path.ofText word
  match Path.nameFault? word with
  | some f => .error (.ofPath f p)
  | none =>
    if word.isEmpty || Path.longestText < Text.Utf8.nameBytes word then .error .usage
    else
      match d.entryAt p with
      | none => .error .usage
      | some .dir => .ok p
      | some (.file _) => if asksDirectory word then .error .usage else .ok p

/-- The path of the only word after the options, or of a default. -/
def onlyPath (d : Disk) (default : Option String) (words : List String) : Except Failure Path := do
  match words, default with
  | [], none => .error .usage
  | [], some word => existing d word
  | word :: rest, _ =>
    let p ← existing d word
    if rest.isEmpty then pure p else .error .usage

/-- The integer given for an option. -/
def integerOf (g : Given) (key : String) : Except Failure (Option Int) :=
  match g.valueOf key with
  | none => .ok none
  | some word =>
    match Text.readInteger word with
    | .ok n => .ok (some n)
    | .error _ => .error .usage

/-- The severity given for an option, by its key. -/
def severityOf (g : Given) (key : String) : Except Failure (Option Severity) :=
  match g.valueOf key with
  | none => .ok none
  | some word =>
    match Severity.ofKey? word with
    | some s => .ok (some s)
    | none => .error .usage

/-- What was given to a command, unless it asks for a description, which ends the program. -/
def givenOf (specs : List OptionSpec) (mixed : Bool) (words : List String) : Except Failure Given := do
  let g ← Given.ofWords specs mixed words
  if g.has "help" || g.has "version" then .error (.exit 0) else pure g

namespace Task

/-- A task may ask the user something. -/
def asks : Task → Bool
  | .scan _ _ => false
  | .fix _ o => !o.yes && !o.preview
  | .shell _ => true

/-- The words of a scan. -/
def ofScanWords (d : Disk) (words : List String) : Except Failure Task := do
  let g ← givenOf scanOptions true words
  let failOn ← severityOf g "fail-on"
  let target ← onlyPath d (some ".") g.words
  pure (.scan target failOn)

/-- The words of fixing a file, which must not be a directory. -/
def ofFixWords (d : Disk) (words : List String) : Except Failure Task := do
  let g ← givenOf fixOptions true words
  let line ← integerOf g "line"
  let retries ← integerOf g "retries"
  let file ← onlyPath d none g.words
  if d.entryAt file == some .dir then .error .usage
  else pure (.fix file ⟨line, retries, g.has "preview", g.has "yes"⟩)

/-- The words of a session. -/
def ofShellWords (d : Disk) (words : List String) : Except Failure Task := do
  let g ← givenOf [helpOption] true words
  let target ← onlyPath d (some ".") g.words
  pure (.shell target)

/-- What the words of the command line ask for. Where they name no command, they are read once more as
options before it, so that even behind two dashes a description can be asked for. -/
def ofWords (d : Disk) (words : List String) : Except Failure Task := do
  let g ← givenOf generalOptions false words
  match g.words with
  | "scan" :: rest => ofScanWords d rest
  | "fix" :: rest => ofFixWords d rest
  | "shell" :: rest => ofShellWords d rest
  | words => do
    let _ ← givenOf generalOptions false words
    .error .usage

end Task

/-- The project is the current directory. -/
def project : Act Path := do
  pure (Path.ofLocation (← Act.disk).here)

/-- The settings of the project. -/
def settings : Act Settings := do
  Act.ofExcept (Settings.load (← Act.disk) (← project))

/-- The names of the analyzers that cannot run. -/
def unavailable : Registry → Act (List String)
  | [] => pure []
  | a :: rest => do
    let here ← a.available
    let names ← unavailable rest
    pure (if here then names else a.name :: names)

/-- A finding is at least as grave as a severity. -/
def reachesSeverity (s : Severity) (i : Issue) : Bool :=
  s.level ≤ i.severity.level

/-- The findings of a target are printed; with a severity given, one as grave makes the command fail. -/
def scan (target : Path) (failOn : Option Severity) : Act Unit := do
  let s ← settings
  let registry := Registry.standard s.tools
  Act.notify (.task s!"Scanning {target}...")
  let is ← registry.scan target s.exclude
  let missing ← unavailable registry
  if !missing.isEmpty then
    Act.say ("  [dim]Skipped unavailable analyzers: " ++ ", ".intercalate missing ++ "[/dim]")
  printIssues is issuesTitle
  match failOn with
  | none => pure ()
  | some least =>
    if is.any (reachesSeverity least) then
      Act.say s!"  [red]Issues at or above {least.key} found.[/red]"
      throw (.exit 1)

/-- The answer in the lines that the user types: yes or no, an empty line being a no. A line that is
neither is passed over, and the end of the lines ends the command. -/
def confirmFrom : List String → Act Bool
  | [] => throw .aborted
  | line :: rest => do
    modify fun st => { st with input := rest }
    if line.isEmpty then pure false
    else
      match Text.lower (Text.strip line) with
      | "y" => pure true
      | "n" => pure false
      | _ => confirmFrom rest

/-- The user is asked and says yes. -/
def confirmed : Act Bool := do
  confirmFrom (← get).input

/-- A change written, after the user has agreed where asking is due: the ledger then, and whether the
change could not be written. -/
def offer (l : Ledger) (o : FixOptions) (c : Change) : Act (Ledger × Bool) := do
  let l := l.stage c
  let agreed ← if o.yes then pure true else confirmed
  if !agreed then
    Act.say "  [dim]Skipped.[/dim]"
    pure (l.discard, false)
  else
    match ← Act.caught l.accept with
    | .ok (a, l) => do
      printApplied a
      pure (l, false)
    | .error f =>
      if f.isOwn then
        Act.complain s!"  [red]Could not apply {c.id}: {f.message}[/red]"
        pure (l.discard, true)
      else throw f

/-- A fix for one finding made, shown and offered: the ledger then, and whether it failed. -/
def fixOne (r : Repair) (is : List Issue) (o : FixOptions) (l : Ledger) (i : Issue) :
    Act (Ledger × Bool) := do
  Act.say s!"\n  [bold]Fixing[/bold] {i.text}"
  match ← Act.caught (r.fixWithNeighbours i is o.retries) with
  | .error (.generation text feedback attempts _) => do
    printFailure text feedback attempts
    pure (l, true)
  | .error f => throw f
  | .ok c => do
    printChange c
    if o.preview then pure (l, false) else offer l o c

/-- Fixes for findings one after another: how many of them failed. -/
def fixEach (r : Repair) (is : List Issue) (o : FixOptions) (l : Ledger) : List Issue → Act Nat
  | [] => pure 0
  | i :: rest => do
    let (l, failed) ← fixOne r is o l i
    let more ← fixEach r is o l rest
    pure (if failed then more + 1 else more)

/-- Findings from the bottom of the file up; those on one line keep their order. -/
def fromBottom (is : List Issue) : List Issue :=
  is.mergeSort fun i j => decide (j.line ≤ i.line)

/-- The findings that are to be fixed: all, or those on one line. -/
def chosen (line : Option Int) (is : List Issue) : List Issue :=
  match line with
  | none => is
  | some n => is.filter fun i => i.line == n

/-- Fixes for the findings of a file; if any fails, so does the command. -/
def fixFile (file : Path) (o : FixOptions) : Act Unit := do
  let s ← settings
  let registry := Registry.standard s.tools
  let is := chosen o.line (← registry.scan file s.exclude)
  if is.isEmpty then Act.say s!"\n  [green]No issues to fix in {file}.[/green]\n"
  else
    let r ← Repair.byModel s (← project) registry
    let l ← Act.ofExcept (Ledger.new s.historySize)
    let failed ← fixEach r is o l (fromBottom is)
    if failed != 0 then
      Act.say s!"\n  [red]{failed} of {is.length} fixes failed.[/red]\n"
      throw (.exit 1)

/-- An interactive session on a target, which starts with a scan. -/
def shell (target : Path) : Act Unit := do
  let settings ← settings
  let session ← Act.ofExcept
    (Session.new target (← project) settings (Registry.standard settings.tools))
  Act.say "\n  [bold]Remedy shell[/bold]  (type \x60help\x60 for commands)\n"
  let (session, scanned) ← session.rescan
  Act.ofExcept scanned
  let session ← session.converse (← get).input
  if session.ledger.pending.isSome then
    Act.say "  [yellow]Pending fix discarded on exit.[/yellow]"

/-- A task carried out. -/
def Task.carryOut : Task → Act Unit
  | .scan target failOn => CommandLine.scan target failOn
  | .fix file options => fixFile file options
  | .shell target => CommandLine.shell target

/-- The words of the command line carried out. -/
def run (words : List String) : Act Unit := do
  let task ← Act.ofExcept (Task.ofWords (← Act.disk) words)
  task.carryOut

end CommandLine

end FixGate
