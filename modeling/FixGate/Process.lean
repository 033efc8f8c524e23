import FixGate.Failure
import FixGate.Text.Blank
import FixGate.Text.Utf8
import FixGate.Value

/-!
# Running programs

A program is started with its words, in a directory, for a limited time, and ends, is stopped when the
time is up, or cannot be started. What it printed is kept; of a stopped program it may be bytes.

* `Request`, `Outcome` : what is asked of the system, and what comes of it
* `Printed` : what a run leaves behind
* `Printed.combined` : both streams as one text
-/

namespace FixGate

/-- A program to be run. -/
structure Request where
  args : List String
  dir : Option Path
  timeout : Float
  deriving Inhabited

/-- What was caught of a stream before a program was stopped. -/
inductive Captured where
  | nothing
  | text (s : String)
  | bytes (bs : List UInt8)
  deriving Inhabited

/-- The caught text; bytes that are no text are replaced. -/
def Captured.decoded : Captured → String
  | .nothing => ""
  | .text s => s
  | .bytes bs => Text.Utf8.decodeReplacing bs

/-- What comes of running a program. -/
inductive Outcome where
  | ended (code : Int) (stdout stderr : Option String)
  | stopped (stdout stderr : Captured)
  | failed (f : Failure)
  deriving Inhabited

/-- What a run leaves behind. -/
structure Printed where
  exitCode : Int
  stdout : String
  stderr : String
  timedOut : Bool
  deriving Inhabited

namespace Printed

/-- Both streams as one text, with a line end between them. -/
def combined (p : Printed) : String :=
  if !p.stdout.isEmpty && !p.stderr.isEmpty then Text.stripRight p.stdout ++ "\n" ++ p.stderr
  else if !p.stdout.isEmpty then p.stdout
  else p.stderr

/-- What an outcome leaves behind, given the time that the program had. -/
def ofOutcome (timeout : Float) : Outcome → Except Failure Printed
  | .ended code stdout stderr => .ok ⟨code, stdout.getD "", stderr.getD "", false⟩
  | .stopped stdout stderr =>
    let err := stderr.decoded
    let err :=
      if err.isEmpty then "Timed out after " ++ Decimal.exactText timeout ++ " seconds" else err
    .ok ⟨-1, stdout.decoded, err, true⟩
  | .failed f => .error f

end Printed

end FixGate
