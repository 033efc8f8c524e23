import FixGate.Source.Window
import Mathlib.Tactic.SplitIfs

/-!
# The window lies around its line

Whatever the text looks like, the window of a line is a range of lines of the text with that line in it,
and its code is what the range holds. So the window can be replaced, and a later look at the same text
finds the same code in it.

* `Source.bounds_spec` : the bounds of a window
* `Source.Window.Fits`, `Source.fits_windowOf` : a window that fits a text
* `Source.splice_of_start`, `Source.Window.Fits.exists_splice` : the window can be replaced
-/

namespace FixGate.Source

variable {lines : List (List Char)} {ctx : Context} {content : String} {i : Nat}

/-! ## Bounds -/

theorem startAt_le {s : Nat} (h : startAt lines i = some s) : s ≤ i := by
  unfold startAt at h
  simp only at h
  split_ifs at h <;> cases h
  · exact Nat.le_refl _
  · omega

/-- The head of a function is found at or above the line. -/
theorem searchUp_le {depth s : Nat} (h : searchUp lines i depth = some s) : s ≤ i := by
  induction depth generalizing i with
  | zero => exact startAt_le h
  | succ depth ih =>
    unfold searchUp at h
    split at h
    · next hs =>
      cases h
      exact startAt_le hs
    · split_ifs at h
      have := ih h
      omega

/-- The line that closes the braces is one of the lines searched. -/
theorem closingLine_bounds {d : Depth} {n e : Nat} {ls : List (List Char)}
    (h : closingLine d n ls = some e) : n ≤ e ∧ e < n + ls.length := by
  induction ls generalizing d n with
  | nil => cases h
  | cons l ls ih =>
    unfold closingLine at h
    simp only at h
    split_ifs at h
    · cases h
      simp
    · have := ih h
      simp
      omega

/-- The bounds of a window enclose the line, and are lines of the text. -/
theorem bounds_spec (before : 0 ≤ ctx.before) (after : 0 ≤ ctx.after) (hi : i < lines.length) :
    0 ≤ (bounds ctx lines i).1 ∧ (bounds ctx lines i).1 ≤ i ∧ (i : Int) ≤ (bounds ctx lines i).2 ∧
      (bounds ctx lines i).2 < lines.length := by
  have hstart : 0 ≤ functionStart ctx lines i ∧ functionStart ctx lines i ≤ i := by
    unfold functionStart
    split
    · next s hs =>
      have := searchUp_le hs
      omega
    · omega
  have hstop : functionEnd ctx lines (functionStart ctx lines i) i < lines.length := by
    unfold functionEnd
    split
    · next e he =>
      have := closingLine_bounds he
      rw [List.length_drop] at this
      omega
    · omega
  unfold bounds
  simp only
  split_ifs
  · simp only
    omega
  · simp only
    omega

/-! ## Windows that fit -/

/-- A window fits a text: it is a range of its lines, and holds their code. -/
structure Window.Fits (w : Window) (content : String) : Prop where
  first : 1 ≤ w.first
  order : w.first ≤ w.last
  last : w.last ≤ (linesOf content.toList).length
  code : w.code = extract content w.first w.last

theorem span_map {α β : Type} (f : α → β) (xs : List α) (lo hi : Int) :
    span (xs.map f) lo hi = (span xs lo hi).map f := by
  unfold span
  rw [List.length_map, ← List.map_take, ← List.map_drop]

/-- A window holds the code of its lines, wherever they are. -/
theorem code_of_windowOf {file : Path} {line : Int} {w : Window}
    (h : windowOf ctx file content line = .ok w) : w.code = extract content w.first w.last := by
  unfold windowOf at h
  simp only at h
  split_ifs at h
  cases h
  unfold extract extractChars
  simp only [span_map, Int.add_sub_cancel]

/-- The window of a line fits the text, and encloses the line. -/
theorem fits_windowOf {file : Path} {line : Int} {w : Window} (before : 0 ≤ ctx.before)
    (after : 0 ≤ ctx.after) (h : windowOf ctx file content line = .ok w) :
    w.Fits content ∧ w.file = file ∧ w.first ≤ line ∧ line ≤ w.last := by
  have hcode := code_of_windowOf h
  unfold windowOf at h
  simp only at h
  split_ifs at h with hempty hline
  cases h
  simp only [List.length_map, Bool.or_eq_true, decide_eq_true_eq, not_or, Int.not_lt] at hline
  have hi : (line - 1).toNat < ((linesOf content.toList).map bare).length := by
    rw [List.length_map]
    omega
  obtain ⟨h0, hstart, hstop, hend⟩ := bounds_spec before after hi
  rw [List.length_map] at hend
  exact ⟨⟨by simp only; omega, by simp only; omega, by simp only; omega, hcode⟩, rfl,
    by simp only; omega, by simp only; omega⟩

/-- A range that starts at a line of the text, or directly after the last one, can be replaced. -/
theorem splice_of_start {first : Int} (pos : 1 ≤ first) (start : first ≤ (linesOf content.toList).length + 1)
    (last : Int) (code : String) :
    splice content first last code =
      .ok (String.ofList (spliceLines (linesOf content.toList) first last code.toList).flatten) := by
  apply if_neg
  simp only [Bool.or_eq_true, decide_eq_true_eq, not_or, Int.not_lt]
  exact ⟨pos, start⟩

/-- A window that fits can be replaced. -/
theorem Window.Fits.exists_splice {w : Window} (fits : w.Fits content) (code : String) :
    ∃ candidate, splice content w.first w.last code = .ok candidate := by
  have := fits.order
  have := fits.last
  exact ⟨_, splice_of_start fits.first (by omega) w.last code⟩

end FixGate.Source
