import FixGate.Diff.Unified
import FixGate.Fix.Plan
import FixGate.Fix.Verdict
import FixGate.Issue.Basic
import FixGate.Source.Lines
import FixGate.Text.Lines

/-!
# Changes

A change replaces a window of a file. It exists only once a review and a validation have passed, and
is kept until someone accepts or discards it.

* `Change`, `Change.make` : a verified change
* `Change.difference` : the change as a unified difference
* `Applied` : a change that was written, with the text of the file before it
-/

namespace FixGate

/-- A verified change of a window of a file, held until it is accepted or discarded. -/
structure Change where
  id : String
  issue : Issue
  file : Path
  first : Int
  last : Int
  oldCode : String
  newCode : String
  plan : Plan
  review : Review
  validation : Validation
  deriving Inhabited

/-- A change that was written, with the text of the whole file before it and the time of day. -/
structure Applied where
  id : String
  file : Path
  before : String
  change : Change
  time : String
  deriving Inhabited

/-- A text that ends in a line feed. -/
def withFeed (cs : List Char) : List Char :=
  if Source.terminated cs then cs else cs ++ ['\n']

namespace Change

/-- A change must have passed review and validation, and its window must be a range of lines. -/
def make (c : Change) : Except Failure Change :=
  if !(c.review.passed && c.validation.passed) then .error (.value .unverified)
  else if c.first < 1 || c.last < c.first then .error (.value (.badRange c.first c.last))
  else .ok c

/-- The number of lines of the longer side of a change. -/
def lineCount (c : Change) : Nat :=
  max (Text.breakLines c.oldCode).length (Text.breakLines c.newCode).length

/-- The change in one line. -/
def summary (c : Change) : String :=
  s!"{c.file.name}:{c.first}-{c.last}: {c.issue.title.display}"

/-- How many unchanged lines a difference shows around a change. -/
def shownAround : Nat := 2

/-- The lines of the unified difference of the window, before and after. -/
def differenceLines (c : Change) : List (List Char) :=
  Diff.unified shownAround ("a/" ++ c.file.text) ("b/" ++ c.file.text)
    (Source.linesOf (withFeed c.oldCode.toList)) (Source.linesOf (withFeed c.newCode.toList))

/-- The unified difference of the window, before and after. -/
def difference (c : Change) : String :=
  String.ofList c.differenceLines.flatten

end Change

/-- The applied change in one line. -/
def Applied.summary (a : Applied) : String :=
  s!"[{a.id}] {a.change.summary}"

end FixGate
