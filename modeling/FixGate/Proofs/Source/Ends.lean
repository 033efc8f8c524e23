import FixGate.Proofs.Source.Window
import Mathlib.Data.Nat.Find
import Mathlib.Order.Bounds.Basic
import Mathlib.Tactic.ByContra

/-!
# Where a function ends

The end of a function is looked for by its braces: it is the first line from the start on at whose end a brace has been
opened and as many have been closed as were opened. It does not matter in which order they stand there. Where there is
no such line, a fixed number of lines is taken; and where it lies above the line of the finding, the start that was
found is given up as well.

* `Source.foldl_step` : the braces of a text, counted
* `Source.ClosedAt` : a line with which all braces since the start are closed
* `Source.closingLine_eq_some_iff`, `Source.closingLine_eq_none_iff` : the search for the first such line
* `Source.function_end_least` : the end of a function, and when its start is given up
-/

namespace FixGate.Source

variable {lines ls : List (List Char)} {ctx : Context} {d : Depth} {e i j n start : Nat}

/-! ## Braces counted -/

/-- How many braces are open after a text, and whether one was opened, is a matter of how many there are. -/
theorem foldl_step (d : Depth) (cs : List Char) :
    cs.foldl Depth.step d = ⟨d.excess + cs.count '\x7b' - cs.count '\x7d', d.seen || cs.contains '\x7b'⟩ := by
  induction cs generalizing d with
  | nil => simp
  | cons c cs ih =>
    rw [List.foldl_cons, ih]
    unfold Depth.step
    split_ifs with hopen hclose
    · subst hopen
      simp
      omega
    · subst hclose
      simp
      omega
    · have hopen' : '\x7b' ≠ c := Ne.symm hopen
      simp [hopen, hopen', hclose]

/-- All braces that a text opens are closed in it, and it opens one. -/
def Balanced (cs : List Char) : Prop :=
  '\x7b' ∈ cs ∧ cs.count '\x7b' ≤ cs.count '\x7d'

instance (cs : List Char) : Decidable (Balanced cs) :=
  inferInstanceAs (Decidable (_ ∧ _))

/-- The flag and the depth of the search say the same as the counts. -/
theorem closed_foldl_iff (cs : List Char) : (cs.foldl Depth.step ⟨0, false⟩).closed = true ↔ Balanced cs := by
  rw [foldl_step]
  unfold Depth.closed Balanced
  simp only [Bool.false_or, Bool.and_eq_true, decide_eq_true_eq, List.contains_iff_mem]
  refine and_congr_right fun _ => ?_
  omega

/-! ## The first line at which the braces are closed -/

/-- With line `j` all braces that were opened since line `start` are closed, and one was opened. -/
structure ClosedAt (lines : List (List Char)) (start j : Nat) : Prop where
  order : start ≤ j
  inside : j < lines.length
  balanced : Balanced ((lines.take (j + 1)).drop start).flatten

instance (lines : List (List Char)) (start j : Nat) : Decidable (ClosedAt lines start j) :=
  decidable_of_iff (start ≤ j ∧ j < lines.length ∧ Balanced ((lines.take (j + 1)).drop start).flatten)
    ⟨fun ⟨order, inside, balanced⟩ => ⟨order, inside, balanced⟩, fun h => ⟨h.order, h.inside, h.balanced⟩⟩

/-- The search stops at the first line with which the braces are closed, those that were open before counted in. -/
theorem closingLine_eq_some_iff : closingLine d n ls = some e ↔
    ∃ m, e = n + m ∧ m < ls.length ∧ ((ls.take (m + 1)).flatten.foldl Depth.step d).closed = true ∧
      ∀ k < m, ¬ ((ls.take (k + 1)).flatten.foldl Depth.step d).closed = true := by
  induction ls generalizing d n with
  | nil => simp [closingLine]
  | cons l ls ih =>
    unfold closingLine
    by_cases hclosed : (l.foldl Depth.step d).closed = true
    · -- the line itself: nothing after it is looked at
      simp only [hclosed, if_true, Option.some.injEq]
      constructor
      · rintro rfl
        exact ⟨0, rfl, by simp, by simpa using hclosed, by simp⟩
      · rintro ⟨m, rfl, -, -, earlier⟩
        have hm : m = 0 := by
          by_contra hm
          exact earlier 0 (by omega) (by simpa using hclosed)
        rw [hm, Nat.add_zero]
    · simp only [hclosed, Bool.false_eq_true, if_false, ih]
      constructor
      · rintro ⟨m, rfl, hm, hhere, earlier⟩
        refine ⟨m + 1, by omega, by simpa using hm, ?_, ?_⟩
        · rwa [List.take_succ_cons, List.flatten_cons, List.foldl_append]
        · intro k hk
          cases k with
          | zero => simpa using hclosed
          | succ k =>
            rw [List.take_succ_cons, List.flatten_cons, List.foldl_append]
            exact earlier k (by omega)
      · rintro ⟨m, rfl, hm, hhere, earlier⟩
        cases m with
        | zero => exact absurd (by simpa using hhere) hclosed
        | succ m =>
          refine ⟨m, by omega, by simpa using hm, ?_, ?_⟩
          · rwa [List.take_succ_cons, List.flatten_cons, List.foldl_append] at hhere
          · intro k hk
            have hlater := earlier (k + 1) (by omega)
            rwa [List.take_succ_cons, List.flatten_cons, List.foldl_append] at hlater

/-- The lines of a stretch, counted from its start. -/
theorem closedAt_iff : ClosedAt lines start j ↔ ∃ m, j = start + m ∧ m < (lines.drop start).length ∧
    (((lines.drop start).take (m + 1)).flatten.foldl Depth.step ⟨0, false⟩).closed = true := by
  have stretch : ∀ m, (lines.take (start + m + 1)).drop start = (lines.drop start).take (m + 1) := by
    intro m
    rw [List.drop_take, Nat.add_assoc, Nat.add_sub_cancel_left]
  constructor
  · rintro ⟨order, inside, balanced⟩
    obtain ⟨m, rfl⟩ := Nat.exists_eq_add_of_le order
    refine ⟨m, rfl, by rw [List.length_drop]; omega, ?_⟩
    rwa [closed_foldl_iff, ← stretch]
  · rintro ⟨m, rfl, hm, hclosed⟩
    rw [List.length_drop] at hm
    exact ⟨by omega, by omega, by rwa [closed_foldl_iff, ← stretch] at hclosed⟩

theorem closingLine_drop_eq_some_iff :
    closingLine ⟨0, false⟩ start (lines.drop start) = some e ↔ IsLeast {j | ClosedAt lines start j} e := by
  rw [closingLine_eq_some_iff]
  constructor
  · rintro ⟨m, rfl, hm, hclosed, earlier⟩
    refine ⟨closedAt_iff.2 ⟨m, rfl, hm, hclosed⟩, fun j hj => ?_⟩
    obtain ⟨k, rfl, -, hk⟩ := closedAt_iff.1 hj
    by_contra hlt
    exact earlier k (by omega) hk
  · rintro ⟨here, least⟩
    obtain ⟨m, rfl, hm, hclosed⟩ := closedAt_iff.1 here
    refine ⟨m, rfl, hm, hclosed, fun k hk hclosed' => ?_⟩
    have hle := least (closedAt_iff.2 ⟨k, rfl, by omega, hclosed'⟩)
    omega

/-- The search finds nothing only where there is nothing. -/
theorem closingLine_drop_eq_none_iff :
    closingLine ⟨0, false⟩ start (lines.drop start) = none ↔ ∀ j, ¬ ClosedAt lines start j := by
  rw [Option.eq_none_iff_forall_ne_some]
  constructor
  · intro hnone j hj
    classical
    exact hnone _ (closingLine_drop_eq_some_iff.2 ⟨Nat.find_spec ⟨j, hj⟩, fun k hk => Nat.find_min' _ hk⟩)
  · intro hnone e he
    exact hnone e (closingLine_drop_eq_some_iff.1 he).1

/-! ## The end of a function -/

/-- The end is the first line with which the braces are closed, or the last line of the context. -/
theorem functionEnd_cases (ctx : Context) (lines : List (List Char)) (start i : Nat) :
    (∃ e, IsLeast {j | ClosedAt lines start j} e ∧ functionEnd ctx lines start i = e) ∨
      (∀ j, ¬ ClosedAt lines start j) ∧
        functionEnd ctx lines start i = min ((lines.length : Int) - 1) (i + ctx.after) := by
  unfold functionEnd
  rw [Int.toNat_natCast]
  cases hsearch : closingLine ⟨0, false⟩ start (lines.drop start) with
  | some e => exact .inl ⟨e, closingLine_drop_eq_some_iff.1 hsearch, rfl⟩
  | none => exact .inr ⟨closingLine_drop_eq_none_iff.1 hsearch, rfl⟩

theorem functionEnd_lt_iff (after : 0 ≤ ctx.after) (hi : i < lines.length) (start : Nat) :
    functionEnd ctx lines start i < i ↔ ∃ e, IsLeast {j | ClosedAt lines start j} e ∧ e < i := by
  rcases functionEnd_cases ctx lines start i with ⟨e, least, hend⟩ | ⟨none, hend⟩
  · rw [hend]
    constructor
    · exact fun hlt => ⟨e, least, by omega⟩
    · rintro ⟨e', least', hlt⟩
      rw [least.unique least']
      omega
  · refine iff_of_false (by omega) ?_
    rintro ⟨e, least, -⟩
    exact none e least.1

theorem exists_functionStart (ctx : Context) (lines : List (List Char)) (i : Nat) :
    ∃ start : Nat, functionStart ctx lines i = start := by
  apply Int.eq_ofNat_of_zero_le
  unfold functionStart
  split
  · omega
  · omega

/-- The window of a line is given by its bounds. -/
theorem exists_windowOf_bounds (ctx : Context) (file : Path) {content : String}
    (hlines : (linesOf content.toList).map bare = lines) (hi : i < lines.length) :
    ∃ w, windowOf ctx file content (i + 1) = .ok w ∧
      w.first = (bounds ctx lines i).1 + 1 ∧ w.last = (bounds ctx lines i).2 + 1 := by
  have filled : lines.isEmpty = false := by
    rw [List.isEmpty_eq_false_iff]
    rintro rfl
    simp at hi
  have inside : (decide ((i : Int) + 1 < 1) || decide ((lines.length : Int) < i + 1)) = false := by
    simp only [Bool.or_eq_false_iff, decide_eq_false_iff_not]
    omega
  have hindex : ((i : Int) + 1 - 1).toNat = i := by omega
  unfold windowOf
  simp only [hlines, filled, inside, hindex, Bool.false_eq_true, if_false]
  exact ⟨_, rfl, rfl, rfl⟩

/-- **The end of a function is the first line at which its braces are closed.** From whatever line on they are counted,
it is the first line such that the lines up to it open a brace and close as many as they open, in whatever order, and
the last line of the context if there is none. The window of a line starts at the start that was found and goes to that
end, unless the end lies above the line: then, and only then, it is the lines of the context instead. -/
theorem function_end_least (after : 0 ≤ ctx.after) (hi : i < lines.length) :
    (∀ start : Nat, (∃ e, IsLeast {j | ClosedAt lines start j} e ∧ functionEnd ctx lines start i = e) ∨
      (∀ j, ¬ ClosedAt lines start j) ∧
        functionEnd ctx lines start i = min ((lines.length : Int) - 1) (i + ctx.after)) ∧
    (∃ start : Nat, functionStart ctx lines i = start ∧
      ((∃ e, IsLeast {j | ClosedAt lines start j} e ∧ e < i) → bounds ctx lines i =
        (max 0 ((i : Int) - ctx.before), min ((lines.length : Int) - 1) (i + ctx.after))) ∧
      (¬ (∃ e, IsLeast {j | ClosedAt lines start j} e ∧ e < i) →
        bounds ctx lines i = ((start : Int), functionEnd ctx lines start i))) ∧
    ∀ file content, (linesOf content.toList).map bare = lines →
      ∃ w, windowOf ctx file content (i + 1) = .ok w ∧
        w.first = (bounds ctx lines i).1 + 1 ∧ w.last = (bounds ctx lines i).2 + 1 := by
  refine ⟨fun start => functionEnd_cases ctx lines start i, ?_, ?_⟩
  · obtain ⟨start, hstart⟩ := exists_functionStart ctx lines i
    refine ⟨start, hstart, ?_, ?_⟩
    · intro above
      unfold bounds
      rw [hstart]
      exact if_pos ((functionEnd_lt_iff after hi start).2 above)
    · intro below
      unfold bounds
      rw [hstart]
      exact if_neg fun hlt => below ((functionEnd_lt_iff after hi start).1 hlt)
  · exact fun file content hlines => exists_windowOf_bounds ctx file hlines hi

/-- A function and two lines after it, the brace closed at the end of a line. -/
def closedAbove : List (List Char) :=
  ["int f() \x7b".toList, "  return 1; \x7d".toList, "x;".toList, "y;".toList]

/-- The function is closed above the line, and its start is given up for the line before. -/
theorem function_end_least_above :
    0 ≤ (⟨1, 0⟩ : Context).after ∧ 2 < closedAbove.length ∧ IsLeast {j | ClosedAt closedAbove 0 j} 1 ∧
      functionStart ⟨1, 0⟩ closedAbove 2 = 0 ∧ functionEnd ⟨1, 0⟩ closedAbove 0 2 = 1 ∧
      bounds ⟨1, 0⟩ closedAbove 2 = (1, 2) := by
  have hleast : IsLeast {j | ClosedAt closedAbove 0 j} 1 := by
    refine ⟨by decide, fun j hj => ?_⟩
    by_contra hlt
    obtain rfl : j = 0 := by omega
    exact absurd hj (by decide)
  obtain ⟨hends, ⟨start, hstart, hgiven, -⟩, -⟩ :=
    @function_end_least closedAbove ⟨1, 0⟩ 2 (by decide) (by decide)
  have hzero : functionStart ⟨1, 0⟩ closedAbove 2 = 0 := by decide +kernel
  obtain rfl : start = 0 := by omega
  refine ⟨by decide, by decide, hleast, hzero, ?_, hgiven ⟨1, hleast, by decide⟩⟩
  rcases hends 0 with ⟨e, least, hend⟩ | ⟨hnone, -⟩
  · rw [least.unique hleast] at hend
    exact hend
  · exact absurd hleast.1 (hnone 1)

/-- Braces are counted and not matched: those of a line that closes one and then opens one are as good as closed. -/
example : ClosedAt ["\x7d else \x7b".toList, "x;".toList] 0 0 := by decide

end FixGate.Source
