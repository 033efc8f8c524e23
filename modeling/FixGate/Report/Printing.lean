import FixGate.Act.Basic
import FixGate.Fix.Change
import FixGate.Report.Markup
import FixGate.Text.Lines

/-!
# What is printed

Findings as a table, a pending fix as a panel with its coloured difference, and a line each for what was
applied, rolled back or failed.

* `Severity.label` : a severity in its colour
* `printIssues`, `printChange`, `printFailure` : tables and panels
* `printApplied`, `printRollback`, `printHistory` : applied changes
-/

namespace FixGate

/-- The colour of a severity. -/
def Severity.colour : Severity → String
  | .critical => "red"
  | .high => "red"
  | .medium => "yellow"
  | .low => "blue"
  | .info => "dim"

/-- A severity in its colour. -/
def Severity.label (s : Severity) : String :=
  s!"[{s.colour}]● {s.name}[/{s.colour}]"

/-- The columns of the table of findings. -/
def issueColumns : List String := ["#", "Severity", "Category", "Location", "Issue", "Analyzer"]

/-- The row of a finding. -/
def issueRow (number : Nat) (i : Issue) : Except Failure (List String) := do
  let place := Markup.escape i.place.text
  let title ← Markup.escapeValue i.title
  pure [toString number, i.severity.label, i.category.title, place, title, i.analyzer]

/-- The rows of findings, numbered from a given number on. -/
def issueRows (number : Nat) : List Issue → Except Failure (List (List String))
  | [] => .ok []
  | i :: rest => do
    let row ← issueRow number i
    let rows ← issueRows (number + 1) rest
    pure (row :: rows)

/-- The findings that are high or critical. -/
def graveCount (is : List Issue) : Nat :=
  (is.filter fun i => Severity.high.level ≤ i.severity.level).length

/-- Findings as a numbered table. -/
def printIssues (is : List Issue) (title : String) : Act Unit := do
  if is.isEmpty then Act.say "\n  [green]✅ No issues found.[/green]\n"
  else
    let rows ← Act.ofExcept (issueRows 1 is)
    Act.notify (.out (.table ("[bold]" ++ title ++ "[/bold]") issueColumns rows))
    Act.say s!"  {is.length} issues ({graveCount is} high or critical)\n"

/-- The title of the table of findings. -/
def issuesTitle : String := "Security Issues"

/-- A line of a difference: added lines green, removed ones red. -/
def differenceLine (line : String) : String :=
  let shown := Markup.escape line
  if Text.startsWith line "-" && !Text.startsWith line "---" then "  [red]" ++ shown ++ "[/red]"
  else if Text.startsWith line "+" && !Text.startsWith line "+++" then
    "  [green]" ++ shown ++ "[/green]"
  else "  " ++ shown

/-- The lines of the preview of a change: finding, plan, verdicts and difference. -/
def previewLines (c : Change) : List String :=
  ["  " ++ Markup.escape c.issue.text,
   "",
   "  [bold]Plan:[/bold]",
   Markup.escape c.plan.format,
   "",
   "  Review:     [green]" ++ Markup.escape c.review.text ++ "[/green]",
   "  Validation: [green]" ++ Markup.escape c.validation.text ++ "[/green]",
   "",
   "  " ++ Markup.escape c.file.text ++ s!":{c.first}-{c.last}"] ++
    (Text.breakLines c.difference).map differenceLine

/-- A pending fix as a panel. -/
def printChange (c : Change) : Act Unit :=
  Act.notify (.out (.panel ("[bold]Fix Preview - " ++ c.id ++ "[/bold]") "green"
    ("\n".intercalate (previewLines c))))

/-- An applied change in a line. -/
def printApplied (a : Applied) : Act Unit :=
  Act.say ("  [green]✅ Applied " ++ a.id ++ "[/green]  " ++ Markup.escape a.change.summary)

/-- A change that was rolled back, in a line. -/
def printRollback (a : Applied) : Act Unit :=
  Act.say ("  [yellow]↩ Rolled back " ++ a.id ++ "[/yellow]  restored " ++ Markup.escape a.file.text)

/-- A number in at least two places. -/
def inTwoPlaces (n : Nat) : String :=
  if n < 10 then s!" {n}" else toString n

/-- Applied changes in a line each, numbered from a given number on. -/
def printEntries (number : Nat) : List Applied → Act Unit
  | [] => pure ()
  | a :: rest => do
    Act.say ("  " ++ inTwoPlaces number ++ ". " ++ a.time ++ "  " ++ Markup.escape a.summary)
    printEntries (number + 1) rest

/-- The applied changes, the latest first. -/
def printHistory (history : List Applied) : Act Unit :=
  if history.isEmpty then Act.say "  [dim]No applied changes.[/dim]" else printEntries 1 history

/-- A repair that failed, with the last feedback as it is. -/
def printFailure (text feedback : String) (attempts : Int) : Act Unit :=
  let first := if text.isEmpty then "Fix failed" else (Text.firstLine? text).getD ""
  let more :=
    if feedback.isEmpty then "" else "\n\n[bold]Last feedback:[/bold]\n" ++ Markup.escape feedback
  Act.notify (.err (.panel s!"[bold]Fix failed after {attempts} attempt(s)[/bold]" "red"
    (Markup.escape first ++ more)))

end FixGate
