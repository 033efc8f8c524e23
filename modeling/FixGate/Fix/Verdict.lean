import FixGate.Value

/-!
# Verdicts

What the compiler, the reviewer and the validator say about one attempt.

* `Diagnostic`, `CompileReport` : a compiler's complaints, and the outcome of a compile check
* `Review`, `Validation` : the verdicts of the reviewer and of the validator
-/

namespace FixGate

/-- A compiler's complaint about a place. File, message and severity are texts as a rule, but a report
may hold other values in their place. -/
structure Diagnostic where
  file : Value
  line : Int
  column : Int
  message : Value
  severity : Value
  deriving Inhabited

/-- The complaint in one line. -/
def Diagnostic.text (d : Diagnostic) : String :=
  s!"[{d.severity.display}] {d.file.display}:{d.line}:{d.column} - {d.message.display}"

/-- The outcome of a compile check. -/
structure CompileReport where
  success : Bool
  output : String
  exitCode : Int
  errors : List Diagnostic
  timedOut : Bool
  deriving Inhabited

/-- The verdict of the reviewer on one attempt. -/
structure Review where
  passed : Bool
  reason : String
  issues : List String
  deriving DecidableEq, Repr, Inhabited

/-- The verdict of the validator on one attempt. -/
structure Validation where
  passed : Bool
  reason : String
  issues : List String
  compile : Option CompileReport
  deriving Inhabited

namespace Review

/-- A passed review. -/
def pass (reason : String) : Review := ⟨true, reason, []⟩

/-- A failed review with what is wrong. -/
def reject (reason : String) (issues : List String) : Review := ⟨false, reason, issues⟩

/-- The verdict in words, what is wrong on lines of its own. -/
def text (r : Review) : String :=
  if r.passed then "PASS: " ++ r.reason
  else "\n".intercalate (("FAIL: " ++ r.reason) :: r.issues.map fun i => "  - " ++ i)

end Review

namespace Validation

/-- A passed validation. -/
def pass (reason : String) (compile : Option CompileReport) : Validation := ⟨true, reason, [], compile⟩

/-- A failed validation with what is wrong. -/
def reject (reason : String) (issues : List String) (compile : Option CompileReport) : Validation :=
  ⟨false, reason, issues, compile⟩

/-- The verdict in words, with the number of things that are wrong. -/
def text (v : Validation) : String :=
  if v.passed then "PASS: " ++ v.reason
  else s!"FAIL: {v.reason} ({v.issues.length} issues)"

end Validation

end FixGate
