import FixGate.Digest
import FixGate.Failure
import FixGate.Issue.Category
import FixGate.Issue.Language
import FixGate.Issue.Severity
import FixGate.Text.Utf8
import FixGate.Value

/-!
# Findings

A finding is a weakness reported at a line of a file. Its fingerprint tells whether two findings are
the same one; where an analyzer gives none, it is derived from the category and the place.

* `SourcePlace`, `Issue` : places and findings
* `Issue.make` : a finding from its parts, which needs a title
* `fingerprint`, `fingerprintText` : the derived fingerprint, and the text that it digests
* `Issue.summary` : the description handed to the planner, coder and reviewer
-/

namespace FixGate

/-- A position in a source file, with the text that was found there. -/
structure SourcePlace where
  file : Path
  line : Int
  column : Int
  snippet : String
  deriving Inhabited

/-- The written form of a place. -/
def SourcePlace.text (p : SourcePlace) : String :=
  s!"{p.file}:{p.line}"

/-- A weakness reported by an analyzer. Title and description are texts as a rule, but a report may
hold other values in their place. -/
structure Issue where
  id : String
  title : Value
  category : Category
  place : SourcePlace
  severity : Severity
  description : Value
  analyzer : String
  fingerprint : String
  metadata : Fields
  deriving Inhabited

/-- The text whose digest is the derived fingerprint: category, file, line and column. -/
def fingerprintText (c : Category) (p : SourcePlace) : String :=
  s!"{c.key}:{p.file}:{p.line}:{p.column}"

/-- The fingerprint derived from a category and a place. -/
def fingerprint (c : Category) (p : SourcePlace) : String :=
  String.ofList ((Digest.sha256 (Text.Utf8.encode (fingerprintText c p))).toList.take 16)

namespace Issue

/-- The finding as given, with a derived fingerprint in place of an empty one. -/
def withFingerprint (i : Issue) : Issue :=
  if i.fingerprint.isEmpty then { i with fingerprint := FixGate.fingerprint i.category i.place } else i

/-- The text that a derived fingerprint digests must have bytes. -/
def checkFingerprint (i : Issue) : Except Failure Unit :=
  Failure.checkText (fingerprintText i.category i.place)

/-- A finding must have a title, and a fingerprint that is given or can be derived. -/
def make (i : Issue) : Except Failure Issue := do
  if !i.title.isTrue then .error (.value .untitled)
  else
    if i.fingerprint.isEmpty then i.checkFingerprint
    pure i.withFingerprint

/-- The file of a finding. -/
def file (i : Issue) : Path := i.place.file

/-- The line of a finding. -/
def line (i : Issue) : Int := i.place.line

/-- The description handed to the planner, coder and reviewer. -/
def summary (i : Issue) : String :=
  let parts :=
    ["Title: " ++ i.title.display,
     "Category: " ++ i.category.title,
     "Severity: " ++ i.severity.name,
     "Location: " ++ i.place.text]
  "\n".intercalate (if i.description.isTrue then parts ++ ["Description: " ++ i.description.display] else parts)

/-- The finding in one line. -/
def text (i : Issue) : String :=
  s!"[{i.severity.name}] {i.title.display} at {i.place.text}"

end Issue

end FixGate
