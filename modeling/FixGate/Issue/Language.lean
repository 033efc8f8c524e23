import FixGate.Files.Path
import FixGate.Text.Case

/-!
# Languages

The language of a source file, told by the extension of its name.

* `Language.ofPath` : the language of a file
-/

namespace FixGate

/-- A language that sources are written in. -/
inductive Language where
  | cFamily
  | java
  | rust
  | unknown
  deriving DecidableEq, Repr, Inhabited

namespace Language

/-- All languages. -/
def all : List Language := [.cFamily, .java, .rust, .unknown]

/-- The word that stands for a language in data. -/
def key : Language → String
  | .cFamily => "c_cpp"
  | .java => "java"
  | .rust => "rust"
  | .unknown => "unknown"

/-- The words that stand for a language in reports. -/
def title : Language → String
  | .cFamily => "C/C++"
  | .java => "Java"
  | .rust => "Rust"
  | .unknown => "Unknown"

/-- The word after the opening marks of a code block. -/
def fence : Language → String
  | .cFamily => "c"
  | .java => "java"
  | .rust => "rust"
  | .unknown => ""

/-- The language with a key. -/
def ofKey? (s : String) : Option Language :=
  all.find? fun l => l.key == s

/-- The extensions of C and C++ sources and headers. -/
def cExtensions : List String := [".c", ".cc", ".cpp", ".cxx", ".h", ".hh", ".hpp"]

/-- The language of a file, told by its extension in either case. -/
def ofPath (p : Path) : Language :=
  let suffix := Text.lower p.suffix
  if cExtensions.contains suffix then .cFamily
  else if suffix == ".java" then .java
  else if suffix == ".rs" then .rust
  else .unknown

end Language

end FixGate
