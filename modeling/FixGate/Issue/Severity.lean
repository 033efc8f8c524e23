import FixGate.Text.Blank
import FixGate.Text.Case

/-!
# Severity

How grave a finding is, from critical to informational. Levels order the severities, and a name that
is not known counts as the least of them.

* `Severity.level` : the order
* `Severity.parse` : the severity that a name denotes
-/

namespace FixGate

/-- How grave a finding is. -/
inductive Severity where
  | critical
  | high
  | medium
  | low
  | info
  deriving DecidableEq, Repr, Inhabited

namespace Severity

/-- All severities, the gravest first. -/
def all : List Severity := [.critical, .high, .medium, .low, .info]

/-- The rank of a severity, greater for a graver one. -/
def level : Severity → Nat
  | .critical => 4
  | .high => 3
  | .medium => 2
  | .low => 1
  | .info => 0

/-- The word that stands for a severity in data and on the command line. -/
def key : Severity → String
  | .critical => "critical"
  | .high => "high"
  | .medium => "medium"
  | .low => "low"
  | .info => "info"

/-- The word that stands for a severity in reports. -/
def name : Severity → String
  | .critical => "CRITICAL"
  | .high => "HIGH"
  | .medium => "MEDIUM"
  | .low => "LOW"
  | .info => "INFO"

/-- The severity with a key. -/
def ofKey? (s : String) : Option Severity :=
  all.find? fun x => x.key == s

/-- The severity that a name denotes, whatever its case and the blanks around it. -/
def parse (s : String) : Severity :=
  (ofKey? (Text.lower (Text.strip s))).getD .info

theorem mem_all (s : Severity) : s ∈ all := by
  cases s <;> decide

end Severity

end FixGate
