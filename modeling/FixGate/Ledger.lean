import FixGate.Act.Files
import FixGate.Fix.Change

/-!
# The ledger of changes

At most one change is pending. Accepting it writes it to its file and enters it at the front of a history
of bounded length; rolling back restores the file of the front entry. A step that fails changes neither
the ledger nor the files.

* `Ledger`, `Ledger.new` : a ledger, whose history holds at least one entry
* `Ledger.stage`, `Ledger.discard`, `Ledger.clear` : changes of the ledger alone
* `Ledger.accept`, `Ledger.rollback` : changes of the files, too
-/

namespace FixGate

/-- At most one pending change, and the applied ones, the latest first. -/
structure Ledger where
  size : Nat
  pending : Option Change
  history : List Applied
  deriving Inhabited

namespace Ledger

/-- A ledger whose history holds so many entries. -/
def new (size : Int) : Except Failure Ledger :=
  if size < 1 then .error (.value .noHistory) else .ok ⟨size.toNat, none, []⟩

/-- A change made the pending one, in place of any other. -/
def stage (l : Ledger) (c : Change) : Ledger :=
  { l with pending := some c }

/-- No pending change. -/
def discard (l : Ledger) : Ledger :=
  { l with pending := none }

/-- No applied changes. -/
def clear (l : Ledger) : Ledger :=
  { l with history := [] }

/-- The pending change entered as applied; the oldest entries beyond the size are dropped. -/
def enter (l : Ledger) (a : Applied) : Ledger :=
  { l with pending := none, history := (a :: l.history).take l.size }

/-- The window of a change still has its old code, line feeds at the end apart. -/
def isCurrent (c : Change) (content : String) : Bool :=
  Text.trimEnd '\n' (Source.extract content c.first c.last) == Text.trimEnd '\n' c.oldCode

/-- The text of a file after a change of it. -/
def updated (c : Change) (content : String) : Except Failure String :=
  if isCurrent c content then Source.splice content c.first c.last c.newCode
  else .error (.change (.stale c.file c.first c.last))

/-- The pending change written to its file, and entered as applied. -/
def accept (l : Ledger) : Act (Applied × Ledger) := do
  match l.pending with
  | none => throw (.change .nothingPending)
  | some c =>
    let before ← Act.readStrict c.file
    let after ← Act.ofExcept (updated c before)
    Act.replaceFile c.file after
    let id ← Act.drawId "change"
    let a : Applied := { id, file := c.file, before, change := c, time := ← Act.drawTime }
    pure (a, l.enter a)

/-- The file of the latest applied change restored, and its entry dropped. -/
def rollback (l : Ledger) : Act (Applied × Ledger) := do
  match l.history with
  | [] => throw (.change .nothingApplied)
  | a :: rest =>
    Act.replaceFile a.file a.before
    pure (a, { l with history := rest })

end Ledger

end FixGate
