import FixGate.Text.Lines
import Mathlib.Tactic.SplitIfs

/-!
# Cutting at breaks of any kind

A text that is cut wherever some convention ends a line is cut at every line feed too, so each of its lines is cut by
itself. What holds no break stays whole.

* `Text.breakLinesFrom_of_unbroken` : what holds no break is one line
* `Text.exists_breakLinesFrom_append`, `Text.breakLinesFrom_feed_append` : the text up to a line feed and the rest
* `Text.breakLinesFrom_break`, `Text.length_breakLinesFrom_pos` : what a break does
-/

namespace FixGate.Text

variable {cs ds line : List Char} {b : Char}

theorem breakLinesFrom_nil (filled : line ≠ []) : breakLinesFrom [] line = [String.ofList line.reverse] := by
  cases line with
  | nil => exact absurd rfl filled
  | cons c line => rfl

/-- One character, unless it is a carriage return that a line feed follows. -/
theorem breakLinesFrom_step (alone : b = '\r' → ds.head? ≠ some '\n') (line : List Char) :
    breakLinesFrom (b :: ds) line =
      if isLineBreak b then String.ofList line.reverse :: breakLinesFrom ds [] else breakLinesFrom ds (b :: line) := by
  rw [breakLinesFrom]
  rintro rest hb rfl
  exact alone hb rfl

theorem breakLinesFrom_cons {c : Char} (hreturn : c ≠ '\r') (cs line : List Char) :
    breakLinesFrom (c :: cs) line =
      if isLineBreak c then String.ofList line.reverse :: breakLinesFrom cs [] else breakLinesFrom cs (c :: line) :=
  breakLinesFrom_step (fun hc => absurd hc hreturn) line

/-- A break ends a line; a carriage return does so by itself unless a line feed follows. -/
theorem breakLinesFrom_break (hbreak : isLineBreak b = true) (alone : b = '\r' → ds.head? ≠ some '\n')
    (line : List Char) : breakLinesFrom (b :: ds) line = String.ofList line.reverse :: breakLinesFrom ds [] := by
  rw [breakLinesFrom_step alone, if_pos hbreak]

theorem breakLinesFrom_feed (ds line : List Char) :
    breakLinesFrom ('\n' :: ds) line = String.ofList line.reverse :: breakLinesFrom ds [] :=
  breakLinesFrom_break (by decide) (fun h => absurd h (by decide)) line

/-- What holds no break goes into the line that was begun. -/
theorem breakLinesFrom_append_of_unbroken (h : ∀ c ∈ cs, isLineBreak c = false) (ds line : List Char) :
    breakLinesFrom (cs ++ ds) line = breakLinesFrom ds (cs.reverse ++ line) := by
  induction cs generalizing line with
  | nil => rfl
  | cons c cs ih =>
    have hc := h c List.mem_cons_self
    have hreturn : c ≠ '\r' := by
      rintro rfl
      exact absurd hc (by decide)
    rw [List.cons_append, breakLinesFrom_cons hreturn, hc, if_neg Bool.false_ne_true,
      ih (fun d hd => h d (List.mem_cons_of_mem c hd)), List.reverse_cons, List.append_assoc, List.singleton_append]

/-- What holds no break is one line. -/
theorem breakLinesFrom_of_unbroken (h : ∀ c ∈ cs, isLineBreak c = false) (filled : line ≠ [] ∨ cs ≠ []) :
    breakLinesFrom cs line = [String.ofList (line.reverse ++ cs)] := by
  have hcut := breakLinesFrom_append_of_unbroken h [] line
  rw [List.append_nil] at hcut
  rw [hcut, breakLinesFrom_nil, List.reverse_append, List.reverse_reverse]
  intro hnil
  rw [List.append_eq_nil_iff, List.reverse_eq_nil_iff] at hnil
  rcases filled with hfilled | hfilled
  · exact hfilled hnil.2
  · exact hfilled hnil.1

/-- A text that is not empty has a line. -/
theorem length_breakLinesFrom_pos (filled : cs ≠ []) (line : List Char) : 1 ≤ (breakLinesFrom cs line).length := by
  fun_induction breakLinesFrom cs line with
  | case1 => exact absurd rfl filled
  | case2 => simp
  | case3 => simp
  | case4 => simp
  | case5 c cs line alone hkept ih =>
    cases cs with
    | nil => exact Nat.le_refl 1
    | cons d cs => exact ih (by simp)

/-- A text before a line feed is cut by itself; a further line between may be empty. -/
theorem exists_breakLinesFrom_append (cs line : List Char) :
    ∃ gap, (gap = [] ∨ gap = [""]) ∧ ∀ ds,
      breakLinesFrom (cs ++ '\n' :: ds) line = breakLinesFrom cs line ++ gap ++ breakLinesFrom ds [] := by
  fun_induction breakLinesFrom cs line with
  | case1 => exact ⟨[""], .inr rfl, fun ds => breakLinesFrom_feed ds []⟩
  | case2 line _ => exact ⟨[], .inl rfl, fun ds => breakLinesFrom_feed ds line⟩
  | case3 cs line ih =>
    obtain ⟨gap, hgap, h⟩ := ih
    exact ⟨gap, hgap, fun ds => congrArg (String.ofList line.reverse :: ·) (h ds)⟩
  | case4 c cs line alone hbreak ih =>
    rcases cs with _ | ⟨d, cs⟩
    · -- a carriage return before the line feed makes one break with it
      by_cases hreturn : c = '\r'
      · subst hreturn
        exact ⟨[], .inl rfl, fun ds => rfl⟩
      · refine ⟨[""], .inr rfl, fun ds => ?_⟩
        rw [List.singleton_append, breakLinesFrom_cons hreturn, if_pos hbreak, breakLinesFrom_feed]
        rfl
    · obtain ⟨gap, hgap, h⟩ := ih
      refine ⟨gap, hgap, fun ds => ?_⟩
      have later : c = '\r' → (d :: cs ++ '\n' :: ds).head? ≠ some '\n' := by
        intro hc hd
        exact alone cs hc (by rw [Option.some.inj hd])
      rw [List.cons_append, breakLinesFrom_break hbreak later, h]
      rfl
  | case5 c cs line alone hkept ih =>
    obtain ⟨gap, hgap, h⟩ := ih
    have hreturn : c ≠ '\r' := by
      rintro rfl
      exact hkept (by decide)
    refine ⟨gap, hgap, fun ds => ?_⟩
    rw [List.cons_append, breakLinesFrom_cons hreturn, if_neg hkept]
    exact h ds

/-- Up to a line feed a text is cut as if nothing followed. -/
theorem breakLinesFrom_feed_append (cs ds line : List Char) :
    breakLinesFrom (cs ++ ['\n'] ++ ds) line = breakLinesFrom (cs ++ ['\n']) line ++ breakLinesFrom ds [] := by
  obtain ⟨gap, -, h⟩ := exists_breakLinesFrom_append cs line
  rw [List.append_assoc, List.singleton_append, h ds, h []]
  exact congrArg (· ++ breakLinesFrom ds []) (List.append_nil _).symm

end FixGate.Text
