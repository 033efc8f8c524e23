import FixGate.Files.Path

/-!
# The file tree

The files and directories under the root. There are no links, so a path leads along directories to
one place at most, and every name of it but the last must be a directory that exists.

* `Entry`, `FileTree` : what can stand at a place, and all places
* `FileTree.get?`, `FileTree.put`, `FileTree.remove`, `FileTree.removeAll` : the tree as a map
* `FileTree.walk` : where names lead from a place, or why they lead nowhere
* `FileTree.below` : every place below a directory
* `FileTree.changes` : the files in which two trees differ
-/

namespace FixGate

/-- What stands at a place. -/
inductive Entry where
  | file (bytes : List UInt8)
  | dir
  deriving DecidableEq, Repr, Inhabited

/-- The entries of all places but the root, which is a directory. -/
structure FileTree where
  entries : List (Location × Entry)
  deriving Inhabited

namespace FileTree

/-- No files. -/
def empty : FileTree := ⟨[]⟩

/-- What stands at a place. -/
def get? (t : FileTree) (l : Location) : Option Entry :=
  match l with
  | [] => some .dir
  | _ => t.entries.lookup l

/-- Entries with one set. -/
def putIn (l : Location) (e : Entry) : List (Location × Entry) → List (Location × Entry)
  | [] => [(l, e)]
  | (k, old) :: rest => if k == l then (k, e) :: rest else (k, old) :: putIn l e rest

/-- The tree with the entry of one place set. -/
def put (t : FileTree) (l : Location) (e : Entry) : FileTree :=
  ⟨putIn l e t.entries⟩

/-- The tree without one place. -/
def remove (t : FileTree) (l : Location) : FileTree :=
  ⟨t.entries.filter fun x => x.1 != l⟩

/-- The tree without one place and all below it. -/
def removeAll (t : FileTree) (l : Location) : FileTree :=
  ⟨t.entries.filter fun x => !l.isPrefixOf x.1⟩

/-- The tree with all directories on the way to a place. -/
def withDirs (t : FileTree) (l : Location) : FileTree :=
  (List.range l.length).foldl
    (fun t n => let d := l.take (n + 1); if (t.get? d).isSome then t else t.put d .dir) t

/-- The place reached from a place by following names through directories that exist. -/
def walk (t : FileTree) (l : Location) : List String → Except PathFault Location
  | [] => .ok l
  | n :: ns =>
    match t.get? l with
    | none => .error .absent
    | some (.file _) => .error .notDirectory
    | some .dir =>
      if n == ".." then t.walk l.dropLast ns
      else if Path.isTooLongName n then .error .nameTooLong
      else
        match t.get? (l ++ [n]) with
        | none => .error .absent
        | some _ => t.walk (l ++ [n]) ns

/-- Every place below a directory, with its names from there. -/
def below (t : FileTree) (l : Location) : List (List String × Entry) :=
  t.entries.filterMap fun (k, e) =>
    if l.isPrefixOf k && l.length < k.length then some (k.drop l.length, e) else none

/-- The places where two trees hold different files, with the content in the second; a place without a
file there has none. -/
def changes (before after : FileTree) : List (Location × Option (List UInt8)) :=
  let changed := after.entries.filterMap fun (k, e) =>
    match e with
    | .file bytes =>
      match before.get? k with
      | some (.file old) => if old == bytes then none else some (k, some bytes)
      | _ => some (k, some bytes)
    | .dir => none
  let gone := before.entries.filterMap fun (k, e) =>
    match e, after.get? k with
    | .file _, some (.file _) => none
    | .file _, _ => some (k, none)
    | .dir, _ => none
  changed ++ gone

end FileTree

end FixGate
