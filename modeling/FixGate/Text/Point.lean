/-!
# Texts as code points

Some data can name one half of a pair of code units that together stand for a character. A half that
stands alone is no character and has no bytes, but it takes part in a text until the text is written. So a
text stands for code points, of which halves are some. Almost every character stands for its own code
point. A half is kept as the private character that lies a fixed distance above it; a mark before such a
private character, or before another mark, says that it stands for itself. A half therefore never joins
with what stands beside it, and the texts of two runs of code points, one behind the other, are the text
of both.

* `points` : the code points that characters stand for
* `ofPoint`, `ofPoints` : the characters that stand for code points
* `keep`, `release` : a text with only characters in it, as a text with code points, and back
* `points_ofPoints` : code points survive being kept
-/

namespace FixGate.Text

/-- The first half of a pair. -/
def isHigh (n : Nat) : Bool :=
  0xd800 ≤ n && n < 0xdc00

/-- The second half of a pair. -/
def isLow (n : Nat) : Bool :=
  0xdc00 ≤ n && n < 0xe000

/-- Half of a pair. -/
def isHalf (n : Nat) : Bool :=
  0xd800 ≤ n && n < 0xe000

/-- The code point of a pair. -/
def pairPoint (high low : Nat) : Nat :=
  0x10000 + (high - 0xd800) * 0x400 + (low - 0xdc00)

/-- A code point: a character or a half. -/
def isPoint (n : Nat) : Bool :=
  n < 0x110000

/-- How far the character that keeps a half lies above it. -/
def keptAbove : Nat := 0x100000

/-- The code point of the mark. -/
def markPoint : Nat := 0x10ffff

/-- The mark: the character behind it stands for itself. -/
def mark : Char := Char.ofNat markPoint

/-- A character that stands for itself only behind the mark. -/
def needsMark (n : Nat) : Bool :=
  isHalf (n - keptAbove) || n == markPoint

/-- The characters that stand for a code point. -/
def ofPoint (n : Nat) : List Char :=
  if isHalf n then [Char.ofNat (keptAbove + n)]
  else if needsMark n then [mark, Char.ofNat n]
  else [Char.ofNat n]

/-- The characters that stand for code points. -/
def ofPoints (ns : List Nat) : List Char :=
  ns.flatMap ofPoint

/-- The code point that a character without a mark stands for. -/
def pointOf (c : Char) : Nat :=
  if isHalf (c.toNat - keptAbove) then c.toNat - keptAbove else c.toNat

/-- The code points that characters stand for. -/
def points : List Char → List Nat
  | [] => []
  | [c] => [pointOf c]
  | c :: d :: cs => if c == mark then d.toNat :: points cs else pointOf c :: points (d :: cs)

/-- The code points of a text. -/
def pointsOf (s : String) : List Nat :=
  points s.toList

/-- A text with only characters in it, as a text that stands for them. -/
def keep (s : String) : String :=
  String.ofList (ofPoints (s.toList.map Char.toNat))

/-- The characters that a text stands for; no character being a half, the replacement character shows
it. -/
def release (s : String) : String :=
  String.ofList ((pointsOf s).map fun n => if isHalf n then '\ufffd' else Char.ofNat n)

/-! ## Code points survive being kept -/

/-- A character other than the mark takes nothing from what stands behind it. -/
theorem points_cons {c : Char} (h : c ≠ mark) (cs : List Char) :
    points (c :: cs) = pointOf c :: points cs := by
  cases cs with
  | nil => rfl
  | cons d cs => simp [points, h]

/-- The number of a character that is no half is the number it was made of. -/
theorem toNat_ofNat {n : Nat} (point : isPoint n = true) (whole : isHalf n = false) :
    (Char.ofNat n).toNat = n := by
  have valid : n.isValidChar := by
    simp only [isPoint, isHalf, decide_eq_true_eq, Bool.and_eq_false_iff, decide_eq_false_iff_not] at *
    simp only [Nat.isValidChar]
    omega
  unfold Char.ofNat
  rw [dif_pos valid]
  rfl

/-- A code point is read back from its characters, whatever stands behind them. -/
theorem points_ofPoint_append {n : Nat} (point : isPoint n = true) (cs : List Char) :
    points (ofPoint n ++ cs) = n :: points cs := by
  have numberOfMark : mark.toNat = markPoint := toNat_ofNat (by decide) (by decide)
  by_cases half : isHalf n
  · have number : (Char.ofNat (keptAbove + n)).toNat = keptAbove + n := by
      apply toNat_ofNat <;> grind [isPoint, isHalf, keptAbove]
    have other : Char.ofNat (keptAbove + n) ≠ mark := fun h => by
      rw [h, numberOfMark] at number
      simp [isHalf, keptAbove, markPoint] at half number
      omega
    simp [ofPoint, half, points_cons other, pointOf, number]
  · have whole : isHalf n = false := by simpa using half
    have number := toNat_ofNat point whole
    by_cases marked : needsMark n
    · simp [ofPoint, whole, marked, points, number]
    · have other : Char.ofNat n ≠ mark := fun h => by
        rw [h, numberOfMark] at number
        simp [needsMark, ← number] at marked
      have above : isHalf (n - keptAbove) = false := by
        simp only [needsMark, Bool.or_eq_true, not_or, Bool.not_eq_true] at marked
        exact marked.1
      simp [ofPoint, whole, marked, points_cons other, pointOf, number, above]

/-- Code points are read back from their characters. -/
theorem points_ofPoints {ns : List Nat} (h : ∀ n ∈ ns, isPoint n = true) :
    points (ofPoints ns) = ns := by
  induction ns with
  | nil => rfl
  | cons n ns ih =>
    rw [ofPoints, List.flatMap_cons, points_ofPoint_append (h n (by simp))]
    exact congrArg (n :: ·) (ih fun m hm => h m (by simp [hm]))

example : points (ofPoints [0xd83d, 0x61, 0xde00, 0xd83d]) = [0xd83d, 0x61, 0xde00, 0xd83d] := by
  decide +kernel
example : points (ofPoints [0xdbf6, 0xdc00]) = [0xdbf6, 0xdc00] := by decide +kernel

end FixGate.Text
