import FixGate.Text.Utf8

/-!
# Paths

A path is an anchor and a list of names. Writing a path drops empty names and single dots; a double
dot stays, since only the file tree can tell what it leads to. Exactly two slashes at the start are an
anchor of their own.

* `Path.ofText`, `Path.text` : reading and writing
* `Path.name`, `Path.suffix`, `Path.parent`, `Path.parents` : its parts
* `Path.join` : a path below another
* `Path.resolve` : the absolute path without dots that it denotes, seen from a directory
* `Path.sameFile` : whether one path is the other with names cut from its front
* `PathFault`, `Path.fault?` : why a path leads nowhere, and what no system call takes
* `Path.obstacle?` : what stands in the way of resolving a path, and how far the way was clear
-/

namespace FixGate

/-- What a path starts from: the current directory, the root, or the root written with two slashes. -/
inductive Anchor where
  | here
  | root
  | doubleRoot
  deriving DecidableEq, Repr, Inhabited

/-- The written form of an anchor. -/
def Anchor.text : Anchor → String
  | .here => ""
  | .root => "/"
  | .doubleRoot => "//"

/-- An anchor and the names below it. -/
structure Path where
  anchor : Anchor
  names : List String
  deriving DecidableEq, Repr, Inhabited

/-- The names from the root to a place in the file tree. -/
abbrev Location := List String

/-- Why a path leads nowhere, or not to what is wanted. -/
inductive PathFault where
  | absent
  | notDirectory
  | isDirectory
  | nameTooLong
  | nullByte
  | unencodable
  deriving DecidableEq, Repr

/-- A fault that answers the question what stands at a path: nothing does. -/
def PathFault.meansNothing : PathFault → Bool
  | .nameTooLong => false
  | _ => true

namespace Path

/-- The names of a path, between slashes; empty ones and single dots do not count. -/
def namesOf (s : String) : List String :=
  ((s.toList.splitOn '/').map String.ofList).filter fun n => n != "" && n != "."

/-- The path that a text denotes. -/
def ofText (s : String) : Path :=
  match s.toList with
  | '/' :: '/' :: '/' :: _ => ⟨.root, namesOf s⟩
  | '/' :: '/' :: _ => ⟨.doubleRoot, namesOf s⟩
  | '/' :: _ => ⟨.root, namesOf s⟩
  | _ => ⟨.here, namesOf s⟩

/-- The written form of a path; the current directory is a dot. -/
def text (p : Path) : String :=
  match p.anchor, p.names with
  | .here, [] => "."
  | a, ns => a.text ++ "/".intercalate ns

instance : ToString Path := ⟨text⟩

/-- The path to a place in the file tree. -/
def ofLocation (l : Location) : Path := ⟨.root, l⟩

/-- The path starts from the root. -/
def isAbsolute (p : Path) : Bool := p.anchor != .here

/-- The last name, empty if there is none. -/
def name (p : Path) : String :=
  p.names.getLast?.getD ""

/-- The end of a name from its last dot, unless the dot is at either end of it. -/
def suffixOf (name : String) : String :=
  let reversed := name.toList.reverse
  let tail := reversed.takeWhile (· != '.')
  match reversed.dropWhile (· != '.') with
  | [] => ""
  | [_] => ""
  | _ => if tail.isEmpty then "" else String.ofList ('.' :: tail.reverse)

/-- The extension of a path with its dot, empty if there is none. -/
def suffix (p : Path) : String :=
  suffixOf p.name

/-- The path without its last name. -/
def parent (p : Path) : Path :=
  { p with names := p.names.dropLast }

/-- The paths above a path, nearest first. -/
def parents (p : Path) : List Path :=
  (List.range p.names.length).reverse.map fun n => { p with names := p.names.take n }

/-- A path seen from another one. -/
def join (base p : Path) : Path :=
  if p.isAbsolute then p else { base with names := base.names ++ p.names }

/-- A further name below a path. -/
def below (base : Path) (name : String) : Path :=
  { base with names := base.names ++ [name] }

/-- The same path with another last name. -/
def withName (p : Path) (name : String) : Path :=
  { p with names := p.names.dropLast ++ [name] }

/-- The names of a path from the root, seen from a directory. -/
def fromRoot (p : Path) (cwd : Location) : List String :=
  if p.isAbsolute then p.names else cwd ++ p.names

/-- The place reached from another by following names, a double dot leading one up. -/
def follow : Location → List String → Location
  | l, [] => l
  | l, n :: ns => if n == ".." then follow l.dropLast ns else follow (l ++ [n]) ns

/-- The absolute path without dots that a path denotes, seen from a directory. -/
def resolve (p : Path) (cwd : Location) : Path :=
  ofLocation (follow [] (p.fromRoot cwd))

/-- How many bytes a name may take. -/
def longestName : Nat := 255

/-- How many bytes a path may take. -/
def longestText : Nat := 4095

/-- What no system call takes in a name: a half that stands for no byte, or else a null character. -/
def nameFault? (name : String) : Option PathFault :=
  if (Text.Utf8.nameComplaint? name).isSome then some .unencodable
  else if name.toList.contains '\x00' then some .nullByte
  else none

/-- A name that is too long for a directory to hold. -/
def isTooLongName (name : String) : Bool :=
  longestName < Text.Utf8.nameBytes name

/-- What no system call takes in a path as a whole. -/
def fault? (p : Path) : Option PathFault :=
  match nameFault? p.text with
  | some f => some f
  | none => if longestText < Text.Utf8.nameBytes p.text then some .nameTooLong else none

/-- The shortest path to where one name more leads: a double dot takes the last name back, and stays where
there is none to take back, unless the path starts from the root. -/
def step (p : Path) (name : String) : Path :=
  if name != ".." then p.below name
  else if p.isAbsolute || !(p.name == "" || p.name == "..") then p.parent
  else p.below name

/-- What stands in the way of following names one by one from a path, with the path it was met at. -/
def obstacleFrom (p : Path) : List String → Option (PathFault × Path)
  | [] => none
  | n :: ns =>
    match nameFault? n with
    | some f => some (f, p.below n)
    | none => obstacleFrom (p.step n) ns

/-- What stands in the way of following the names of a path one by one, with the path it was met at. -/
def obstacle? (p : Path) : Option (PathFault × Path) :=
  obstacleFrom ⟨if p.isAbsolute then .root else .here, []⟩ p.names

/-- Two paths may mean the same file: the written forms are equal, or one ends with a slash and the
other. -/
def sameFile (p q : Path) : Bool :=
  let a := p.text.toList
  let b := q.text.toList
  a == b || ('/' :: b).isSuffixOf a || ('/' :: a).isSuffixOf b

/-- The names that the order of paths compares, by their code points, the anchor first where there is
one. -/
def orderKey (p : Path) : List (List Nat) :=
  match p.anchor with
  | .here => p.names.map Text.pointsOf
  | a => Text.pointsOf a.text :: p.names.map Text.pointsOf

/-- Paths in order, name by name. -/
def le (p q : Path) : Bool :=
  !(decide (q.orderKey < p.orderKey))

end Path

end FixGate
