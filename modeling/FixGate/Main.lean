import FixGate.CommandLine

/-!
# The program

The outer layer: the files below the current directory are read into a file tree, the command line is
carried out on it, what was printed is shown with its markup, and the files that changed are written.
Here no programs can be started and no model can be asked, so only the built-in rules find anything, and
no fix passes.

* `loadEntry`, `writeBack` : the file tree read and written
* `main` : the program
-/

namespace FixGate

/-- Surroundings without programs, and without a model. -/
def Host.alone : Host where
  hasKey := true
  hasPackage := false
  run _ r t := (.failed (.os .absent ("not found: " ++ r.args.head?.getD "")), t)
  ask _ _ t := (.failed .noPackage, t)
  refuse _ _ := none
  clock _ := "00:00:00"

/-- The text of something printed, with its markup. -/
def Content.plain : Content → String
  | .line markup => markup
  | .table title columns rows =>
    "\n".intercalate (title :: (columns :: rows).map fun cells => "  " ++ "  ".intercalate cells)
  | .panel title _ body => title ++ "\n" ++ body

/-- A file tree with an entry of a directory of the system, and everything below it, put below a place. -/
partial def loadEntry (l : Location) (t : FileTree) (e : IO.FS.DirEntry) : IO FileTree := do
  let place := l ++ [Text.keep e.fileName]
  if ← e.path.isDir then (← e.path.readDir).foldlM (loadEntry place) (t.put place .dir)
  else pure (t.put place (.file (← IO.FS.readBinFile e.path).toList))

/-- The changed files of a tree written to the system. -/
def writeBack (before after : FileTree) : IO Unit := do
  for (l, content) in before.changes after do
    let file := Text.release (Path.ofLocation l).text
    match content with
    | some bytes => IO.FS.writeBinFile file ⟨bytes.toArray⟩
    | none => IO.FS.removeFile file

/-- Something printed, shown where it belongs. -/
def showNotice : Notice → IO Unit
  | .out c => IO.println (Text.release c.plain)
  | .err c => IO.eprintln (Text.release c.plain)
  | .task name => IO.eprintln (Text.release name)

/-- The lines of the standard input, where a task may ask for them. -/
def typedLines (task : Except Failure CommandLine.Task) : IO (List String) := do
  if !(task.map (·.asks)).toOption.getD false then return []
  let lines := Text.splitFeeds (Text.unifyLineEnds (Text.keep (← (← IO.getStdin).readToEnd)))
  pure (if lines.getLast? == some "" then lines.dropLast else lines)

/-- The words of the command line carried out on the files below the current directory. -/
def runHere (words : List String) : IO UInt32 := do
  let dir ← IO.currentDir
  let here := (Path.ofText (Text.keep dir.toString)).names
  let tree ← (← dir.readDir).foldlM (loadEntry here) (FileTree.empty.withDirs here)
  let disk : Disk := ⟨tree, here⟩
  let words := words.map Text.keep
  let input ← typedLines (CommandLine.Task.ofWords disk words)
  let (result, s) := (CommandLine.run words).outcome .alone { disk, input }
  s.notices.forM showNotice
  writeBack tree s.disk.tree
  match result with
  | .ok () => pure 0
  | .error f => do
    if !f.endsCommand then IO.eprintln (Text.release f.message)
    pure (UInt32.ofNat f.status)

end FixGate

/-- The program, with the words after its name. -/
def main (words : List String) : IO UInt32 :=
  FixGate.runHere words
