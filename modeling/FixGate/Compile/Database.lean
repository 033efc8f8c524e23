import FixGate.Compile.Words
import FixGate.Files.Disk
import FixGate.Json.Reader
import FixGate.Value.Access

/-!
# Compilation databases

A build records the command with which each file is compiled. An entry that is not well formed is left
out, and does not hinder the others.

* `Command`, `Command.flags` : a recorded command, and its arguments without output and source
* `Command.ofEntry` : the command of an entry
* `Database.find` : the nearest database above a file, up to a given directory
* `Database.load` : reading the file, once
* `Database.commandFor` : the command of a file, by its path or else by its name
-/

namespace FixGate

/-- A recorded compile command: the directory it runs in, the file it compiles and its words. -/
structure Command where
  directory : Path
  file : Path
  arguments : List Value
  deriving Inhabited

namespace Command

/-- The compiler: the first word. -/
def compiler (c : Command) : Value :=
  c.arguments.head?.getD (.text "cc")

/-- An argument denotes the file that is compiled, or a file of the same name. -/
def isSource (d : Disk) (c : Command) (arg : String) : Except Failure Bool := do
  if Text.startsWith arg "-" then pure false
  else
    let p := Path.ofText arg
    let resolved ← d.resolveChecked (c.directory.join p)
    pure (resolved == c.file || p.name == c.file.name)

/-- The arguments that say how to compile, not what to: the output and the source are left out. -/
def flagsFrom (d : Disk) (c : Command) : List Value → Except Failure (List String)
  | [] => .ok []
  | .text "-o" :: [] => .ok []
  | .text "-o" :: _ :: rest => flagsFrom d c rest
  | .text arg :: rest => do
    if Text.startsWith arg "-o" || arg == "-c" then flagsFrom d c rest
    else if ← isSource d c arg then flagsFrom d c rest
    else pure (arg :: (← flagsFrom d c rest))
  | arg :: _ => .error (.shape (.noMember arg.kind "startswith"))

/-- The arguments after the compiler that say how to compile. -/
def flags (d : Disk) (c : Command) : Except Failure (List String) :=
  flagsFrom d c c.arguments.tail

/-- The words of an entry: a list of arguments, or else a command line. -/
def wordsOfEntry (entry : Value) : Except Failure (List Value) := do
  let listed ← if ← entry.mentions "arguments" then entry.field "arguments" else pure .null
  if listed.isTrue then listed.elements
  else
    match ← entry.field "command" with
    | .text s =>
      match Words.split s with
      | .ok ws => pure (ws.map Value.text)
      | .error f => .error (.value f)
    | .null => pure []
    | v => .error (.shape (.noMember v.kind "read"))

/-- The command of an entry. -/
def ofEntry (d : Disk) (entry : Value) : Except Failure Command := do
  let directory ← (← entry.field "directory").toPath
  let file ← (← entry.field "file").toPath
  let arguments ← wordsOfEntry entry
  let file ← d.resolveChecked (directory.join file)
  pure { directory, file, arguments }

end Command

/-- An entry that fails in this way is left out; another failure ends the reading. -/
def Failure.marksEntry : Failure → Bool
  | .missingField _ => true
  | .shape f => !f.isMember
  | f => f.isValue

/-- A compilation database: its file, and its commands once they are read. -/
structure Database where
  file : Path
  commands : Option (List Command)
  deriving Inhabited

namespace Database

/-- The name of a database file. -/
def fileName : String := "compile_commands.json"

/-- A database that is not read yet. -/
def ofFile (file : Path) : Database := ⟨file, none⟩

/-- The database in a directory, or else in its build directory. -/
def inDirectory (d : Disk) (dir : Path) : Except Failure (Option Database) := do
  if ← d.reaches (dir.below fileName) then pure (some (ofFile (dir.below fileName)))
  else if ← d.reaches ((dir.below "build").below fileName) then
    pure (some (ofFile ((dir.below "build").below fileName)))
  else pure none

/-- The first database in a list of directories, which ends with the root directory if that is in it. -/
def findIn (d : Disk) (root : Option Path) : List Path → Except Failure (Option Database)
  | [] => .ok none
  | dir :: dirs => do
    match ← inDirectory d dir with
    | some db => pure (some db)
    | none => if root == some dir then pure none else findIn d root dirs

/-- The nearest database above a path, up to a root directory. -/
def find (d : Disk) (start : Path) (root : Option Path) : Except Failure (Option Database) := do
  findIn d root (if ← d.isDir start then start :: start.parents else start.parents)

/-- The commands of the entries, those that are not well formed left out. -/
def commandsOf (d : Disk) : List Value → Except Failure (List Command)
  | [] => .ok []
  | entry :: rest =>
    match Command.ofEntry d entry with
    | .ok c => do
      let cs ← commandsOf d rest
      pure (c :: cs)
    | .error f => if f.marksEntry then commandsOf d rest else .error f

/-- The commands in the file, nothing if it is not there or holds no data. -/
def readCommands (d : Disk) (file : Path) : Except Failure (Option (List Command)) := do
  if !(← d.reaches file) then pure none
  else
    match d.readText file with
    | .error (.os _ _) => pure none
    | .error f => .error f
    | .ok s =>
      match ← Json.whole? s with
      | none => pure none
      | some v =>
        let entries ← v.elements
        let cs ← commandsOf d entries
        pure (some cs)

/-- The database with its commands read, which is done once; a reading that fails is tried again. -/
def load (d : Disk) (db : Database) : Except Failure Database :=
  match db.commands with
  | some _ => .ok db
  | none => do
    let cs ← readCommands d db.file
    pure { db with commands := cs }

/-- The command of a file in a list, by its path or else by its name. -/
def commandIn (target : Path) (cs : List Command) : Option Command :=
  (cs.find? fun c => c.file == target).or (cs.find? fun c => c.file.name == target.name)

/-- The command of a file in a database, none if that is not read. -/
def commandFor (d : Disk) (db : Database) (file : Path) : Except Failure (Option Command) :=
  match db.commands with
  | none => .ok none
  | some cs => do
    let target ← d.resolveChecked file
    pure (commandIn target cs)

end Database

end FixGate
