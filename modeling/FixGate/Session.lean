import FixGate.Ledger
import FixGate.Repair
import FixGate.Report.Printing

/-!
# Interactive sessions

A session scans a target, prepares one fix at a time, and writes or restores files on command. Failures
of the program's own parts are told to the user and do not end the session; what a command changed
before another failure stays changed.

* `Session`, `Session.new` : the findings of the last scan and the ledger of changes
* `Command`, `Command.ofLine` : what a typed line asks for
* `Session.perform` : a command carried out, told apart from its failure
* `Session.handle`, `Session.converse` : one line, and all lines up to the end
-/

namespace FixGate

/-- What is scanned and with what, the findings of the last scan, and the ledger of changes. -/
structure Session where
  target : Path
  project : Path
  settings : Settings
  registry : Registry
  ledger : Ledger
  issues : List Issue

/-- What a typed line asks for. -/
inductive Session.Command where
  | nothing
  | quit
  | help
  | scan
  | fix (number : Option String)
  | view
  | accept
  | discard
  | rollback
  | history
  | unknown (word : String)
  deriving DecidableEq, Repr

namespace Session

/-- The command of a typed line: its first word, whatever the case, and what follows it. -/
def Command.ofLine (line : String) : Command :=
  match Text.wordsOf line with
  | [] => .nothing
  | first :: rest =>
    match Text.lower first with
    | "quit" => .quit
    | "exit" => .quit
    | "q" => .quit
    | "help" => .help
    | "scan" => .scan
    | "fix" => .fix rest.head?
    | "show" => .view
    | "accept" => .accept
    | "discard" => .discard
    | "rollback" => .rollback
    | "history" => .history
    | word => .unknown word

/-- The description of the commands. -/
def helpText : String :=
  "\n".intercalate [
    "  scan              re-scan the target",
    "  fix <n>           generate a fix for issue #n from the last scan",
    "  show              show the pending fix",
    "  accept            write the pending fix to disk",
    "  discard           drop the pending fix",
    "  rollback          undo the most recently accepted fix",
    "  history           list accepted fixes, most recent first",
    "  help              show this help",
    "  quit              leave the shell"]

/-- A session without findings or changes. -/
def new (target project : Path) (settings : Settings) (registry : Registry) :
    Except Failure Session := do
  pure ⟨target, project, settings, registry, ← Ledger.new settings.historySize, []⟩

/-- What comes of a command: the session after it, and a failure if there was one. -/
abbrev Outcome := Session × Except Failure Unit

/-- The session after an action, or unchanged if it fails. -/
def orUnchanged (s : Session) (a : Act Session) : Act Outcome := do
  match ← Act.caught a with
  | .ok t => pure (t, .ok ())
  | .error f => pure (s, .error f)

/-- The findings of a new scan, taken up before they are printed. -/
def rescan (s : Session) : Act Outcome := do
  match ← Act.caught (s.registry.scan s.target s.settings.exclude) with
  | .error f => pure (s, .error f)
  | .ok is => do
    let printed ← Act.caught (printIssues is issuesTitle)
    pure ({ s with issues := is }, printed)

/-- The finding in a row of the last scan, counted from one. -/
def issueAt (s : Session) (number : Int) : Option Issue :=
  if number < 1 then none else s.issues[(number - 1).toNat]?

/-- A word is a row number as far as its characters go: they all look like digits. -/
def looksNumber (word : String) : Bool :=
  !word.isEmpty && word.toList.all Text.looksDigit

/-- A fix for the finding in a row made the pending one. A fix that cannot be made is told. -/
def prepare (s : Session) (i : Issue) : Act Session := do
  let r ← Repair.byModel s.settings s.project s.registry
  match ← Act.caught (r.fixWithNeighbours i s.issues none) with
  | .ok c => do
    printChange c
    Act.say "  [dim]Type \x60accept\x60 to apply or \x60discard\x60 to drop it.[/dim]"
    pure { s with ledger := s.ledger.stage c }
  | .error (.generation text feedback attempts _) => do
    printFailure text feedback attempts
    pure s
  | .error f => throw f

/-- A fix for the finding in the row that a word names. -/
def prepareNumbered (s : Session) (word : Option String) : Act Session := do
  match word.filter looksNumber with
  | none => do
    Act.say "  Usage: fix <n>"
    pure s
  | some word =>
    let number ← Act.ofExcept (Value.toInteger (.text word))
    match s.issueAt number with
    | none => do
      Act.say s!"  [yellow]No issue #{number}; run \x60scan\x60 first.[/yellow]"
      pure s
    | some i => s.prepare i

/-- The pending fix shown. -/
def view (s : Session) : Act Session := do
  match s.ledger.pending with
  | none => Act.say "  [dim]No pending fix.[/dim]"
  | some c => printChange c
  pure s

/-- The pending fix written. The lines of the findings no longer hold. -/
def accept (s : Session) : Act Session := do
  let (a, ledger) ← s.ledger.accept
  printApplied a
  Act.say "  [dim]Run \x60scan\x60 again before fixing another issue.[/dim]"
  pure { s with ledger, issues := [] }

/-- The pending fix dropped. -/
def discard (s : Session) : Act Session := do
  match s.ledger.pending with
  | none => Act.say "  [dim]No pending fix.[/dim]"
  | some c => Act.say s!"  Discarded {c.id}"
  pure { s with ledger := s.ledger.discard }

/-- The fix written last undone. The lines of the findings no longer hold. -/
def rollback (s : Session) : Act Session := do
  let (a, ledger) ← s.ledger.rollback
  printRollback a
  pure { s with ledger, issues := [] }

/-- An action that leaves the session as it is. -/
def telling (s : Session) (a : Act Unit) : Act Session := do
  a
  pure s

/-- A command carried out. -/
def perform (s : Session) : Command → Act Outcome
  | .nothing => s.orUnchanged (pure s)
  | .quit => s.orUnchanged (pure s)
  | .help => s.orUnchanged (s.telling (Act.say helpText))
  | .scan => s.rescan
  | .fix word => s.orUnchanged (s.prepareNumbered word)
  | .view => s.orUnchanged s.view
  | .accept => s.orUnchanged s.accept
  | .discard => s.orUnchanged s.discard
  | .rollback => s.orUnchanged s.rollback
  | .history => s.orUnchanged (s.telling (printHistory s.ledger.history))
  | .unknown word =>
    s.orUnchanged (s.telling
      (Act.say s!"  [yellow]Unknown command: {word}[/yellow] (type \x60help\x60)"))

/-- A failure that is told to the user and does not end the session. -/
def isTold : Failure → Bool
  | .refused _ => true
  | f => f.isOwn

/-- One typed line: the session after it, and whether it goes on, unless a failure ends it. -/
def handle (s : Session) (line : String) : Act (Session × Except Failure Bool) := do
  let c := Command.ofLine line
  let (t, r) ← s.perform c
  match r with
  | .ok () => pure (t, .ok (c != .quit))
  | .error f =>
    if isTold f then
      Act.complain ("  [red]" ++ Markup.escape f.message ++ "[/red]")
      pure (t, .ok true)
    else pure (t, .error f)

/-- Typed lines one after another, up to the end of the session or of the lines. -/
def converse (s : Session) : List String → Act Session
  | [] => pure s
  | line :: rest => do
    modify fun st => { st with input := rest }
    match ← s.handle line with
    | (_, .error f) => throw f
    | (t, .ok true) => t.converse rest
    | (t, .ok false) => pure t

end Session

end FixGate
