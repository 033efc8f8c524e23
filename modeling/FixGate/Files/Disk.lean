import FixGate.Failure
import FixGate.Files.Tree
import FixGate.Text.Lines
import FixGate.Text.Utf8

/-!
# The disk

The file tree seen from the current directory. A path that leads nowhere is answered like one where
nothing stands. No system call takes a path with a null character, or with half of a pair of code units,
so such a path leads nowhere, and it can be neither read, written nor resolved. A name that is longer
than a directory admits is refused even where it is only asked what stands there.

* `Disk` : a tree and the current directory
* `Disk.locate`, `Disk.locateNew` : the place a path leads to, and the place of a file to be written
* `Disk.entryAt`, `Disk.content` : what stands there
* `Disk.reaches`, `Disk.isFile`, `Disk.isDir` : the questions what stands there, which may be refused
* `Disk.resolve`, `Disk.resolveChecked` : the absolute path without dots that a path denotes
* `Disk.nearestWith` : the nearest directory above a file that has a marker
-/

namespace FixGate

/-- A file tree seen from a directory in it. -/
structure Disk where
  tree : FileTree
  here : Location
  deriving Inhabited

namespace Disk

/-- Where a path leads, and what stands there. -/
def locate (d : Disk) (p : Path) : Except PathFault (Location × Entry) := do
  match p.fault? with
  | some f => .error f
  | none =>
    let l ← d.tree.walk [] (p.fromRoot d.here)
    match d.tree.get? l with
    | some e => pure (l, e)
    | none => .error .absent

/-- What stands where a path leads, if anything does. -/
def entryAt (d : Disk) (p : Path) : Option Entry :=
  match d.locate p with
  | .ok (_, e) => some e
  | .error _ => none

/-- What stands where a path leads, if anything does; a name may be too long to be asked about. -/
def lookUp (d : Disk) (p : Path) : Except Failure (Option Entry) :=
  match d.locate p with
  | .ok (_, e) => .ok (some e)
  | .error f => if f.meansNothing then .ok none else .error (.ofPath f p)

/-- Something stands where a path leads. -/
def reaches (d : Disk) (p : Path) : Except Failure Bool := do
  pure (← d.lookUp p).isSome

/-- A path leads to a file. -/
def isFile (d : Disk) (p : Path) : Except Failure Bool := do
  match ← d.lookUp p with
  | some (.file _) => pure true
  | _ => pure false

/-- A path leads to a directory. -/
def isDir (d : Disk) (p : Path) : Except Failure Bool := do
  pure ((← d.lookUp p) == some .dir)

/-- The content of the file that a path leads to. -/
def content (d : Disk) (p : Path) : Except PathFault (List UInt8) :=
  match d.locate p with
  | .ok (_, .file bytes) => .ok bytes
  | .ok (_, .dir) => .error .isDirectory
  | .error f => .error f

/-- The place of a file to be written at a path: its directory exists, and no directory is in its
way. -/
def locateNew (d : Disk) (p : Path) : Except PathFault Location := do
  let names := p.fromRoot d.here
  match p.fault?, names.getLast? with
  | some f, _ => .error f
  | none, none => .error .isDirectory
  | none, some name =>
    let parent ← d.tree.walk [] names.dropLast
    match d.tree.get? parent with
    | none => .error .absent
    | some (.file _) => .error .notDirectory
    | some .dir =>
      if name == ".." then .error .isDirectory
      else if Path.isTooLongName name then .error .nameTooLong
      else
        match d.tree.get? (parent ++ [name]) with
        | some .dir => .error .isDirectory
        | _ => pure (parent ++ [name])

/-- The absolute path without dots that a path denotes. -/
def resolve (d : Disk) (p : Path) : Path :=
  p.resolve d.here

/-- The same for a path that may hold what no path may. -/
def resolveChecked (d : Disk) (p : Path) : Except Failure Path :=
  match p.obstacle? with
  | some (f, reached) => .error (.ofPath f reached)
  | none => .ok (d.resolve p)

/-- The nearest directory above a file in which a marker exists. -/
def nearestWith (d : Disk) (p : Path) (marker : String) : Except Failure (Option Path) := do
  let file ← d.resolveChecked p
  file.parents.findM? fun dir => d.reaches (dir.join (Path.ofText marker))

/-- The text of a file, bytes that are no text being refused and line ends unified. -/
def readText (d : Disk) (p : Path) : Except Failure String :=
  match d.content p with
  | .error f => .error (.ofPath f p)
  | .ok bytes =>
    match Text.Utf8.decodeStrict bytes with
    | some s => .ok (Text.unifyLineEnds s)
    | none => .error (.undecodable (Text.Utf8.complaint bytes))

end Disk

end FixGate
