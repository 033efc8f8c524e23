import FixGate.Act.Basic
import FixGate.Source.Lines

/-!
# Actions on files

Reading, writing, copying and removing files. A file is replaced as a whole: the new content is written
to a temporary file beside it, which then takes its place, so that at no time is it half written, and
the temporary file is gone whatever happens.

* `Act.step` : a step of the disk, which may be refused
* `Act.readSource`, `Act.readStrict` : the text of a file
* `Act.writeText`, `Act.copyFile`, `Act.removeFile` : changes in place
* `Act.placeBeside` : the place of a temporary file
* `Act.replaceFile` : the content of a file replaced as a whole
-/

namespace FixGate.Act

/-- A step of the disk on a path, which may be refused. -/
def step (s : DiskStep) (p : Path) : Act Unit := do
  let n := (← get).diskSteps
  modify fun st => { st with diskSteps := n + 1 }
  match (← read).refuse n s with
  | none => pure ()
  | some f => throw (.refusal f p)

/-- The result of looking up a path, whose failure names the path. -/
def found (p : Path) (r : Except PathFault α) : Act α :=
  match r with
  | .ok a => pure a
  | .error f => throw (.ofPath f p)

/-- The content of a file. -/
def readBytes (p : Path) : Act (List UInt8) := do
  step (.read p) p
  found p ((← disk).content p)

/-- The text of a source file, bytes that are no text dropped. -/
def readSource (p : Path) : Act String := do
  pure (Source.decode (← readBytes p))

/-- The text of a file, which must be text. -/
def readStrict (p : Path) : Act String := do
  let bytes ← readBytes p
  match Text.Utf8.decodeStrict bytes with
  | some s => pure s
  | none => throw (.undecodable (Text.Utf8.complaint bytes))

/-- The content of a file set, the file made if there is none. -/
def writeBytes (p : Path) (bytes : List UInt8) : Act Unit := do
  let d ← disk
  let l ← found p (d.locateNew p)
  step (.write p) p
  setTree (d.tree.put l (.file bytes))

/-- The text of a file set. The file is emptied first, and stays so if the text has no bytes. -/
def writeText (p : Path) (s : String) : Act Unit := do
  let checked := Failure.checkText s
  writeBytes p (if checked.isOk then Text.Utf8.encode s else [])
  ofExcept checked

/-- A file copied; into a directory under its own name. -/
def copyFile (source target : Path) : Act Unit := do
  let inside := (← disk).entryAt target == some .dir
  let target := if inside then target.below source.name else target
  let bytes ← readBytes source
  writeBytes target bytes

/-- A file removed. -/
def removeFile (p : Path) : Act Unit := do
  let d ← disk
  let (l, e) ← found p (d.locate p)
  match e with
  | .file _ => setTree (d.tree.remove l)
  | .dir => throw (.ofPath .isDirectory p)

/-- The name of a temporary file beside a file, with a number in it. -/
def tempName (name : String) (n : Nat) : String :=
  "." ++ name ++ "." ++ String.ofList (Text.hexDigits n 8) ++ ".tmp"

/-- The first of so many numbered places, from a number on, at which nothing stands. -/
def firstFree (t : FileTree) (place : Nat → Location) : Nat → Nat → Option Location
  | 0, _ => none
  | left + 1, n => if (t.get? (place n)).isNone then some (place n) else firstFree t place left (n + 1)

/-- How many names for temporary files there are beside a file. -/
def tempNames : Nat := Nat.pow 16 8

/-- A place in a directory where nothing stands, for a temporary file. -/
def freshPlace (t : FileTree) (dir : Location) (name : String) : Option Location :=
  firstFree t (fun n => dir ++ [tempName name n]) tempNames 0

/-- The place of a temporary file beside a path: its directory exists, one of the names is free, and it
is not too long. -/
def placeBeside (d : Disk) (p : Path) : Except Failure Location :=
  let dir := (d.resolve p.parent).names
  match ({ d with here := [] } : Disk).locate (Path.ofLocation dir) with
  | .error f => .error (.ofPath f p)
  | .ok (_, .file _) => .error (.ofPath .notDirectory p)
  | .ok (_, .dir) =>
    match freshPlace d.tree dir p.name with
    | none => .error (.os .other "[Errno 17] No usable temporary file name found")
    | some place =>
      match d.locateNew (Path.ofLocation place) with
      | .error f => .error (.ofPath f p)
      | .ok _ => .ok place

/-- The mode of the file at a path carried over, if there is one. -/
def keepMode (p : Path) : Act Unit := do
  if ← ofExcept ((← disk).reaches p) then step (.keepMode p) p

/-- A temporary file that holds a text moved to a path. -/
def moveTo (p : Path) (temp : Location) (s : String) : Act Unit := do
  step (.replace p) p
  let now ← disk
  let l ← found p (now.locateNew p)
  setTree ((now.tree.remove temp).put l (.file (Text.Utf8.encode s)))

/-- A temporary file filled with a text, and moved to a path. -/
def fillAndMove (p : Path) (temp : Location) (s : String) : Act Unit := do
  ofExcept (Failure.checkText s)
  step (.write p) p
  setTree ((← disk).tree.put temp (.file (Text.Utf8.encode s)))
  keepMode p
  moveTo p temp s

/-- The text of a file replaced as a whole by way of a temporary file beside it, which is gone in any
case. -/
def replaceFile (p : Path) (s : String) : Act Unit := do
  let d ← disk
  let temp ← ofExcept (placeBeside d p)
  step (.create p) p
  setTree (d.tree.put temp (.file []))
  try fillAndMove p temp s
  catch f =>
    setTree ((← disk).tree.remove temp)
    throw f

end FixGate.Act
