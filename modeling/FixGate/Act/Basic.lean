import FixGate.Compile.Toolchain
import FixGate.Fix.Plan
import FixGate.Process

/-!
# Actions

An action reads and changes the state of the program's surroundings, may fail, and keeps what it changed
when it fails. What the surroundings do of their own accord (programs that are started, the model that
is asked, the disk that refuses) is a parameter, so that a statement about an action can hold for
everything they may do.

* `Host` : the behaviour of the surroundings
* `State` : the file tree, and everything that has been asked, drawn, printed and kept
* `Act` : actions
* `Act.ensure` : an action with another that follows it in any case
-/

namespace FixGate

/-- A question to the model. -/
structure Query where
  role : Role
  model : Value
  maxTokens : Int
  prompt : String
  deriving Inhabited

/-- What the model answers: blocks with their kinds and texts. -/
inductive Reply where
  | blocks (bs : List (String × String))
  | failed (f : Failure)
  deriving Inhabited

/-- A step of the disk that may be refused. -/
inductive DiskStep where
  | read (p : Path)
  | create (p : Path)
  | write (p : Path)
  | keepMode (p : Path)
  | replace (p : Path)
  deriving DecidableEq, Repr

/-- The behaviour of the surroundings. Programs and the model may change the file tree. -/
structure Host where
  /-- There is a key for the model. -/
  hasKey : Bool
  /-- The package that talks to the model is installed. -/
  hasPackage : Bool
  /-- What comes of the program started as the `n`-th. -/
  run : Nat → Request → FileTree → Outcome × FileTree
  /-- What comes of the question asked as the `n`-th. -/
  ask : Nat → Query → FileTree → Reply × FileTree
  /-- The refusal of the `n`-th step of the disk, if it is refused. -/
  refuse : Nat → DiskStep → Option OsFault
  /-- The time of day when the `n`-th id is drawn. -/
  clock : Nat → String

/-- A disk that refuses nothing. -/
def Host.steady (h : Host) : Prop :=
  ∀ n s, h.refuse n s = none

/-- Something printed: a line with markup, a table or a panel. -/
inductive Content where
  | line (markup : String)
  | table (title : String) (columns : List String) (rows : List (List String))
  | panel (title border body : String)
  deriving Inhabited

/-- Something printed, and where: to the user, as an error, or as the name of a task in progress. -/
inductive Notice where
  | out (c : Content)
  | err (c : Content)
  | task (name : String)
  deriving Inhabited

/-- A call of one of the parts that make a fix, with what it was given. -/
inductive Call where
  | plan (code : String) (feedback : Option String)
  | implement (code : String) (plan : Plan)
  | review (code : String) (plan : Plan) (newCode : String)
  | validate (file : Path) (candidate : String)
  deriving Inhabited

/-- The state of the surroundings, and what the program remembers. -/
structure State where
  disk : Disk
  /-- The programs started, each with the file tree at that moment, in order. -/
  runs : List (Request × FileTree) := []
  /-- The questions asked, in order. -/
  queries : List Query := []
  /-- The calls of parts that keep a record, in order. -/
  calls : List Call := []
  /-- How many ids have been drawn. -/
  ids : Nat := 0
  /-- How many steps the disk has taken. -/
  diskSteps : Nat := 0
  /-- What was printed, in order. -/
  notices : List Notice := []
  /-- The lines that the user will type. -/
  input : List String := []
  /-- The versions of tools, asked for once by each analyzer. -/
  versions : List (Nat × Option String) := []
  /-- The toolchains kept for files. -/
  toolchains : List (Path × Option Toolchain) := []
  deriving Inhabited

/-- An action: it may fail, and what it changed is kept when it does. -/
abbrev Act := ReaderT Host (ExceptT Failure (StateM State))

namespace Act

/-- The result of an action, and the state after it. -/
def outcome (a : Act α) (h : Host) (s : State) : Except Failure α × State :=
  (a h).run.run s

/-- The action with a given result and state after it. -/
def ofOutcome (f : Host → State → Except Failure α × State) : Act α :=
  fun h => ExceptT.mk (StateT.mk fun s => pure (f h s))

/-- The result of a step that can fail. -/
def ofExcept (r : Except Failure α) : Act α :=
  match r with
  | .ok a => pure a
  | .error f => throw f

/-- The first action and then the second in any case; a failure of the second comes before one of the
first. -/
def ensure (a : Act α) (after : Act Unit) : Act α :=
  ofOutcome fun h s =>
    let (r, s) := a.outcome h s
    let (q, s) := after.outcome h s
    match q with
    | .ok _ => (r, s)
    | .error f => (.error f, s)

/-- The result of an action, a failure included. -/
def caught (a : Act α) : Act (Except Failure α) := do
  try Except.ok <$> a
  catch f => pure (.error f)

/-- The disk as it is now. -/
def disk : Act Disk := do
  pure (← get).disk

/-- A change of the file tree. -/
def setTree (t : FileTree) : Act Unit :=
  modify fun s => { s with disk := { s.disk with tree := t } }

/-- A fresh id of a kind: the number of ids drawn so far, in eight digits. -/
def drawId (kind : String) : Act String := do
  let n := (← get).ids + 1
  modify fun s => { s with ids := n }
  pure (kind ++ "_" ++ String.ofList (Text.hexDigits n 8))

/-- The time of day when the last id was drawn. -/
def drawTime : Act String := do
  pure ((← read).clock (← get).ids)

/-- A record of a call. -/
def record (c : Call) : Act Unit :=
  modify fun s => { s with calls := s.calls ++ [c] }

/-- Something printed. -/
def notify (n : Notice) : Act Unit :=
  modify fun s => { s with notices := s.notices ++ [n] }

/-- A line printed for the user. -/
def say (markup : String) : Act Unit :=
  notify (.out (.line markup))

/-- A line printed as an error. -/
def complain (markup : String) : Act Unit :=
  notify (.err (.line markup))

/-- The next line that the user types, if there is one. -/
def nextLine : Act (Option String) := do
  match (← get).input with
  | [] => pure none
  | l :: rest =>
    modify fun s => { s with input := rest }
    pure (some l)

end Act

end FixGate
