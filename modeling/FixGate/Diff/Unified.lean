import FixGate.Diff.Blocks

/-!
# Unified differences

The difference of two sequences of lines as it is printed: groups of changes with a few unchanged lines
around them, each line under a mark that tells whether it was kept, removed or added.

* `Step`, `steps` : what becomes of each range of lines
* `groups` : the steps around each change, with at most `n` unchanged lines on either side
* `unified` : the printed difference, nothing if the sequences are equal
-/

namespace FixGate.Diff

/-- What becomes of a range of lines. -/
inductive Kind where
  | keep
  | remove
  | add
  | replace
  deriving DecidableEq, Repr

/-- A range of lines in each sequence, and what becomes of it. -/
structure Step where
  kind : Kind
  leftFrom : Nat
  leftTo : Nat
  rightFrom : Nat
  rightTo : Nat
  deriving DecidableEq, Repr

/-- The steps from given positions on, along the common blocks that follow. -/
def stepsFrom (i j leftEnd rightEnd : Nat) : List Block → List Step
  | [] =>
    if i < leftEnd && j < rightEnd then [⟨.replace, i, leftEnd, j, rightEnd⟩]
    else if i < leftEnd then [⟨.remove, i, leftEnd, j, rightEnd⟩]
    else if j < rightEnd then [⟨.add, i, leftEnd, j, rightEnd⟩]
    else []
  | b :: bs =>
    let rest := ⟨.keep, b.left, b.left + b.size, b.right, b.right + b.size⟩ ::
      stepsFrom (b.left + b.size) (b.right + b.size) leftEnd rightEnd bs
    if i < b.left && j < b.right then ⟨.replace, i, b.left, j, b.right⟩ :: rest
    else if i < b.left then ⟨.remove, i, b.left, j, b.right⟩ :: rest
    else if j < b.right then ⟨.add, i, b.left, j, b.right⟩ :: rest
    else rest

/-- What becomes of each range of lines, in order. -/
def steps [BEq α] (left right : List α) : List Step :=
  stepsFrom 0 0 left.length right.length (blocks left right)

/-- Only the last `n` lines of a kept range. -/
def Step.lastKept (n : Nat) (s : Step) : Step :=
  if s.kind == .keep then
    { s with leftFrom := max s.leftFrom (s.leftTo - n), rightFrom := max s.rightFrom (s.rightTo - n) }
  else s

/-- Only the first `n` lines of a kept range. -/
def Step.firstKept (n : Nat) (s : Step) : Step :=
  if s.kind == .keep then
    { s with leftTo := min s.leftTo (s.leftFrom + n), rightTo := min s.rightTo (s.rightFrom + n) }
  else s

/-- The steps with unchanged lines at either end cut to `n`. -/
def trimEnds (n : Nat) (ss : List Step) : List Step :=
  let ss := match ss with
    | [] => []
    | s :: rest => s.lastKept n :: rest
  match ss.getLast? with
  | none => []
  | some s => ss.dropLast ++ [s.firstKept n]

/-- Steps divided where more than `2 * n` lines are unchanged, given the group begun, newest first. -/
def groupsFrom (n : Nat) : List Step → List Step → List (List Step)
  | group, [] => [group.reverse]
  | group, s :: rest =>
    if s.kind == .keep && 2 * n < s.leftTo - s.leftFrom then
      (s.firstKept n :: group).reverse :: groupsFrom n [s.lastKept n] rest
    else groupsFrom n (s :: group) rest

/-- A group that shows a change. -/
def showsChange (group : List Step) : Bool :=
  match group with
  | [] => false
  | [s] => s.kind != .keep
  | _ => true

/-- The steps around each change. A group without one can only be the last. -/
def groups (n : Nat) (ss : List Step) : List (List Step) :=
  let gs := groupsFrom n [] (trimEnds n ss)
  match gs.getLast? with
  | none => []
  | some g => if showsChange g then gs else gs.dropLast

/-- A range of lines in a group's heading: the number of the first line, and the count unless it is
one. -/
def rangeText (start stop : Nat) : String :=
  let count := stop - start
  if count = 1 then toString (start + 1)
  else if count = 0 then s!"{start},0"
  else s!"{start + 1},{count}"

/-- The lines of a range, each under a mark. -/
def marked (mark : Char) (lines : List (List Char)) (start stop : Nat) : List (List Char) :=
  ((lines.take stop).drop start).map (mark :: ·)

/-- The printed lines of a step. -/
def Step.lines (left right : List (List Char)) (s : Step) : List (List Char) :=
  match s.kind with
  | .keep => marked ' ' left s.leftFrom s.leftTo
  | .remove => marked '-' left s.leftFrom s.leftTo
  | .add => marked '+' right s.rightFrom s.rightTo
  | .replace => marked '-' left s.leftFrom s.leftTo ++ marked '+' right s.rightFrom s.rightTo

/-- The heading of a group. -/
def heading (group : List Step) : List Char :=
  match group.head?, group.getLast? with
  | some a, some z =>
    (s!"@@ -{rangeText a.leftFrom z.leftTo} +{rangeText a.rightFrom z.rightTo} @@\n").toList
  | _, _ => []

/-- The printed lines of a group. -/
def groupLines (left right : List (List Char)) (group : List Step) : List (List Char) :=
  heading group :: group.flatMap (Step.lines left right)

/-- The printed difference of two sequences of lines, with `n` unchanged lines around each change. -/
def unified (n : Nat) (leftName rightName : String) (left right : List (List Char)) : List (List Char) :=
  match groups n (steps left right) with
  | [] => []
  | gs =>
    ("--- " ++ leftName ++ "\n").toList :: ("+++ " ++ rightName ++ "\n").toList ::
      gs.flatMap (groupLines left right)

end FixGate.Diff
