import FixGate.Analysis.Analyzer

/-!
# Semgrep

Semgrep reports its results as JSON. A result that lacks something, or has it of the wrong kind, is
passed over, unless the wrong kind shows in a place where a member of it is asked for.

* `semgrepCategory` : the category that a rule's name and message point to
* `semgrepFinding` : the finding of a result
* `semgrepFindings` : the findings of a report
* `Analyzer.semgrep` : the analyzer
-/

namespace FixGate

namespace Semgrep

/-- The words that point to a category, in the order in which they are looked for. -/
def categoryRules : List CategoryRule := [
  ⟨["buffer-overflow", "buffer overflow", "strcpy", "strcat", "insecure-use-gets"], .bufferOverflow⟩,
  ⟨["use-after-free", "use after free"], .useAfterFree⟩,
  ⟨["double-free", "double free"], .doubleFree⟩,
  ⟨["memory-leak", "memory leak"], .memoryLeak⟩,
  ⟨["null-deref", "null pointer", "null-pointer"], .nullDereference⟩,
  ⟨["sql-injection", "sql injection", "sqli"], .sqlInjection⟩,
  ⟨["command-injection", "command injection"], .commandInjection⟩,
  ⟨["path-traversal", "path traversal"], .pathTraversal⟩,
  ⟨["format-string", "format string"], .formatString⟩,
  ⟨["weak-crypto", "weak hash", "md5", "sha1"], .weakCrypto⟩,
  ⟨["hardcoded-secret", "hardcoded password", "hardcoded key", "hard-coded"], .hardcodedSecret⟩,
  ⟨["insecure-random"], .insecureRandom⟩,
  ⟨["race-condition", "race condition", "toctou"], .raceCondition⟩,
  ⟨["deadlock"], .deadlock⟩,
  ⟨["integer-overflow", "integer overflow"], .integerOverflow⟩,
  ⟨["resource-leak", "not closed"], .resourceLeak⟩]

/-- The category that a rule's name and message point to. -/
def category (rule message : String) : Category :=
  firstRule categoryRules (rule ++ " " ++ message) .unknown

/-- The severity of a word of the report; other words count as low. -/
def severity (word : String) : Severity :=
  let word := Text.capitals word
  if word == "ERROR" then .critical
  else if word == "WARNING" then .high
  else if word == "INFO" then .medium
  else .low

/-- A fingerprint of the report, unless it is a sentence or no text at all. -/
def usableFingerprint : Value → String
  | .text s => if s.toList.contains ' ' then "" else s
  | _ => ""

/-- The finding of a result. -/
def finding (result : Value) : Except Failure Issue := do
  let rule ← result.field "check_id"
  let extra ← result.getOr "extra" (.table [])
  let message ← extra.getOr "message" rule
  let start ← result.field "start"
  let line ← (← start.field "line").toInteger
  let about ← extra.getOr "metadata" .null
  let notes ← if about.isTrue then about.fields else pure []
  let file ← (← result.field "path").toPath
  let column ← (← start.getOr "col" (.int 0)).toInteger
  let snippet ← (← extra.getOr "lines" (.text "")).textFor "strip"
  let grade ← extra.getOr "severity" (.text "")
  let print ← extra.getOr "fingerprint" .null
  reported {
    id := s!"{rule.display}:{line}"
    title := rule
    category := category rule.display message.display
    place := ⟨file, line, column, Text.strip snippet⟩
    severity := severity grade.display
    description := message
    analyzer := "semgrep"
    fingerprint := usableFingerprint print
    metadata := ("check_id", rule) :: notes.map fun n => ("semgrep_" ++ n.1, n.2) }

/-- A result that fails in this way is passed over; another failure ends the reading. -/
def passesOver : Failure → Bool
  | .missingField _ => true
  | .shape f => !f.isMember
  | f => f.isValue

/-- The findings of results, those that are not well formed passed over. -/
def findingsOf : List Value → Except Failure (List Issue)
  | [] => .ok []
  | r :: rest =>
    match finding r with
    | .ok i => do
      let is ← findingsOf rest
      pure (i :: is)
    | .error f => if passesOver f then findingsOf rest else .error f

/-- The findings of a report. -/
def findings (report : String) : Except Failure (List Issue) :=
  match Json.read report with
  | .error c => .error (c.fault.limit?.getD (.analyzer (.unreadableReport c.message)))
  | .ok data => do
    let results ← (← data.getOr "results" (.list [])).elements
    findingsOf results

/-- The command that analyzes a file. -/
def command (tools : Tools) (file : Path) : List Value :=
  [tools.semgrepPath, .text "--json", .text "--quiet", .text "--disable-version-check",
   .text "--config", tools.semgrepConfig, .text file.text]

end Semgrep

/-- The analyzer that runs semgrep, keeping its version in a slot. -/
def Analyzer.semgrep (tools : Tools) (slot : Nat) : Analyzer where
  name := "semgrep"
  family := "semgrep"
  languages := [.cFamily, .java, .rust]
  available := do pure (← Act.keptVersion slot [tools.semgrepPath]).isSome
  version := do
    match ← Act.keptVersion slot [tools.semgrepPath] with
    | none => pure "unavailable"
    | some v => pure (if v.isEmpty then "unknown" else v)
  analyze file := do
    if !(← Act.ofExcept ((← Act.disk).reaches file)) then throw (.analyzer (.absent file))
    else if (← Act.keptVersion slot [tools.semgrepPath]).isNone then
      throw (.analyzer .semgrepUnavailable)
    else
      let out ←
        try Act.run (Semgrep.command tools file) none tools.timeout
        catch
          | .os _ text => throw (.analyzer (.notStarted "semgrep" text))
          | f => throw f
      if out.timedOut then
        throw (.analyzer (.timedOut "semgrep" (Decimal.exactText tools.timeout)))
      else Act.ofExcept (Semgrep.findings out.stdout)

end FixGate
