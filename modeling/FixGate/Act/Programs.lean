import FixGate.Act.Files

/-!
# Running programs

A program is started with words that must all be texts. Its version is the first line that it prints
when asked for it, and is asked for once by each analyzer that uses it.

* `Act.run` : a program run to its end
* `Act.version` : the version of a program, nothing if it cannot run
* `Act.keptVersion` : the same, asked for once
-/

namespace FixGate.Act

/-- The words of a command, which must all be texts. -/
def textsFrom (position : Nat) : List Value → Except Failure (List String)
  | [] => .ok []
  | .text s :: rest => do
    let ss ← textsFrom (position + 1) rest
    pure (s :: ss)
  | v :: _ => .error (.shape (.notText position v.kind))

/-- A program started: the start is recorded, and the surroundings decide what comes of it. -/
def start (r : Request) : Act Outcome := do
  let s ← get
  let (o, t) := (← read).run s.runs.length r s.disk.tree
  set { s with runs := s.runs ++ [(r, s.disk.tree)], disk := { s.disk with tree := t } }
  pure o

/-- A program run to its end, or until its time is up. -/
def run (args : List Value) (dir : Option Path) (timeout : Float) : Act Printed := do
  let args ← ofExcept (textsFrom 0 args)
  let o ← start ⟨args, dir, timeout⟩
  ofExcept (Printed.ofOutcome timeout o)

/-- How long a program may take to tell its version. -/
def versionTimeout : Float := 15

/-- The version of a program: the first line that it prints, or nothing if it cannot run. -/
def version (program : List Value) : Act (Option String) := do
  try
    let out ← run (program ++ [.text "--version"]) none versionTimeout
    if out.exitCode != 0 then pure none
    else pure (some ((Text.firstLine? (Text.strip out.stdout)).getD ""))
  catch
    | .os _ _ => pure none
    | f => throw f

/-- The version of a program, asked for at the first use of a slot and kept there. -/
def keptVersion (slot : Nat) (program : List Value) : Act (Option String) := do
  match (← get).versions.lookup slot with
  | some v => pure v
  | none =>
    let v ← version program
    modify fun s => { s with versions := (slot, v) :: s.versions }
    pure v

/-- The version kept in a slot, if it was asked for. -/
def knownVersion (slot : Nat) : Act (Option String) := do
  pure ((← get).versions.lookup slot).join

end FixGate.Act
