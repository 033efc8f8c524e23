/-!
# Blocks common to two sequences

A comparison of two sequences rests on the blocks that they have in common: the longest one first, and
then, on either side of it, the longest of what is left there. In a long second sequence, elements that
occur very often do not start a block, but a block started elsewhere may extend over them.

* `Block` : a run of equal elements
* `longest` : the longest block within two ranges, the earliest one if several are as long
* `blocks` : the blocks of two sequences in order, touching ones joined
-/

namespace FixGate.Diff

variable {α : Type} [BEq α]

/-- A run of equal elements: where it starts in each sequence, and its length. -/
structure Block where
  left : Nat
  right : Nat
  size : Nat
  deriving DecidableEq, Repr, Inhabited

/-- Ranges of the two sequences, the upper bounds not included. -/
structure Region where
  leftFrom : Nat
  leftTo : Nat
  rightFrom : Nat
  rightTo : Nat
  deriving DecidableEq, Repr

/-- The length from which on the second sequence counts as long. -/
def longLength : Nat := 200

/-- The positions of an element in the second sequence at which a block may start or go on. In a long
sequence of `n` elements, one that occurs more than `n / 100 + 1` times has none. -/
def anchors (right : List α) (x : α) : List Nat :=
  let here := (right.zipIdx.filter fun p => p.1 == x).map (·.2)
  if longLength ≤ right.length && right.length / 100 + 1 < here.length then [] else here

/-- The lengths of the blocks that end at one element of the first sequence, by the position of their
end in the second, given those that end one element earlier. -/
def nextRow (r : Region) (row : List (Nat × Nat)) : List Nat → List (Nat × Nat)
  | [] => []
  | j :: js =>
    if j < r.rightFrom || r.rightTo ≤ j then nextRow r row js
    else
      let before := if j = 0 then 0 else (row.lookup (j - 1)).getD 0
      (j, before + 1) :: nextRow r row js

/-- The longer of a block and those of a row that ends at element `i` of the first sequence. -/
def improve (i : Nat) (best : Block) (row : List (Nat × Nat)) : Block :=
  row.foldl (fun b (j, k) => if b.size < k then ⟨i + 1 - k, j + 1 - k, k⟩ else b) best

/-- The longest block that consists of anchors only. -/
def longestAnchored (left right : List α) (r : Region) : Block :=
  let elements := ((left.take r.leftTo).drop r.leftFrom).zipIdx r.leftFrom
  let start : Block := ⟨r.leftFrom, r.rightFrom, 0⟩
  (elements.foldl
    (fun (s : Block × List (Nat × Nat)) p =>
      let row := nextRow r s.2 (anchors right p.1)
      (improve p.2 s.1 row, row))
    (start, [])).1

/-- Two positions hold equal elements. -/
def agree (left right : Array α) (i j : Nat) : Bool :=
  match left[i]?, right[j]? with
  | some x, some y => x == y
  | _, _ => false

/-- A block extended towards the start of its region, by at most `fuel` elements. -/
def extendBack (left right : Array α) (r : Region) : Nat → Block → Block
  | 0, b => b
  | fuel + 1, b =>
    if r.leftFrom < b.left && r.rightFrom < b.right && agree left right (b.left - 1) (b.right - 1) then
      extendBack left right r fuel ⟨b.left - 1, b.right - 1, b.size + 1⟩
    else b

/-- A block extended towards the end of its region, by at most `fuel` elements. -/
def extendForth (left right : Array α) (r : Region) : Nat → Block → Block
  | 0, b => b
  | fuel + 1, b =>
    if b.left + b.size < r.leftTo && b.right + b.size < r.rightTo
        && agree left right (b.left + b.size) (b.right + b.size) then
      extendForth left right r fuel { b with size := b.size + 1 }
    else b

/-- The longest block within a region. -/
def longest (left right : List α) (r : Region) : Block :=
  let b := longestAnchored left right r
  let b := extendBack left.toArray right.toArray r b.left b
  extendForth left.toArray right.toArray r left.length b

/-- The blocks within a region, in order. -/
def blocksIn (left right : List α) : Nat → Region → List Block
  | 0, _ => []
  | fuel + 1, r =>
    let b := longest left right r
    if b.size = 0 then []
    else
      let before :=
        if r.leftFrom < b.left && r.rightFrom < b.right then
          blocksIn left right fuel ⟨r.leftFrom, b.left, r.rightFrom, b.right⟩
        else []
      let after :=
        if b.left + b.size < r.leftTo && b.right + b.size < r.rightTo then
          blocksIn left right fuel ⟨b.left + b.size, r.leftTo, b.right + b.size, r.rightTo⟩
        else []
      before ++ b :: after

/-- Blocks that touch in both sequences become one. -/
def joinTouching : List Block → List Block
  | [] => []
  | b :: bs =>
    match joinTouching bs with
    | [] => [b]
    | c :: cs =>
      if b.left + b.size = c.left && b.right + b.size = c.right then
        ⟨b.left, b.right, b.size + c.size⟩ :: cs
      else b :: c :: cs

/-- The blocks common to two sequences, in order. -/
def blocks (left right : List α) : List Block :=
  joinTouching
    (blocksIn left right (left.length + right.length + 1) ⟨0, left.length, 0, right.length⟩)

end FixGate.Diff
