import FixGate.Proofs.Source.Lines

/-!
# Ranges of lines

A range with its bounds inside a text takes the lines from its first to its last one. Its code, cut at the line feeds,
is these lines without their terminators again, so it has as many lines as the range. In particular the window of a
line, where there is one, has as many lines as it counts, and there is one for each line that the text has.

* `Source.span_pred`, `Source.spanTo_pred`, `Source.spanFrom_natCast` : ranges inside a list
* `Source.splitOn_extractChars`, `Source.length_splitOn_extract` : the lines of the code of a range
* `Source.window_of_line` : for which lines there is a window, and what it is
-/

namespace FixGate.Source

variable {α : Type} {cs : List Char} {content : String} {ctx : Context} {first last line : Int} {s e : Nat}

/-! ## Bounds inside a list -/

theorem bound_natCast (length n : Nat) : bound length n = min n length := by
  unfold bound
  rw [if_neg (by omega), Int.toNat_natCast]

theorem spanFrom_natCast (xs : List α) (n : Nat) : spanFrom xs n = xs.drop n := by
  unfold spanFrom
  rw [bound_natCast]
  by_cases hn : n ≤ xs.length
  · rw [Nat.min_eq_left hn]
  · have hover : xs.length ≤ n := by omega
    rw [Nat.min_eq_right hover, List.drop_length, List.drop_eq_nil_of_le hover]

theorem spanTo_natCast (xs : List α) (n : Nat) : spanTo xs n = xs.take n := by
  unfold spanTo
  rw [bound_natCast, ← List.take_eq_take_min]

/-- Up to the line before the one that is counted as `s`. -/
theorem spanTo_pred (start : 1 ≤ s) (xs : List α) : spanTo xs ((s : Int) - 1) = xs.take (s - 1) := by
  have hpred : (s : Int) - 1 = (s - 1 : Nat) := by omega
  rw [hpred, spanTo_natCast]

/-- From the line that is counted as `s` up to the one that is counted as `e`. -/
theorem span_pred (start : 1 ≤ s) (xs : List α) (e : Nat) : span xs ((s : Int) - 1) e = (xs.take e).drop (s - 1) := by
  have hpred : (s : Int) - 1 = (s - 1 : Nat) := by omega
  unfold span
  rw [hpred, bound_natCast, bound_natCast, ← List.take_eq_take_min]
  by_cases hs : s - 1 ≤ xs.length
  · rw [Nat.min_eq_left hs]
  · have hlength : (xs.take e).length ≤ xs.length := List.length_take_le' e xs
    rw [List.drop_eq_nil_of_le (by omega), List.drop_eq_nil_of_le (by omega)]

/-- A range inside a list has as many elements as its bounds are apart. -/
theorem length_span {xs : List α} (low : 1 ≤ first) (order : first ≤ last) (high : last ≤ xs.length) :
    ((span xs (first - 1) last).length : Int) = last - first + 1 := by
  obtain ⟨s, rfl⟩ := Int.eq_ofNat_of_zero_le (by omega : 0 ≤ first)
  obtain ⟨e, rfl⟩ := Int.eq_ofNat_of_zero_le (by omega : 0 ≤ last)
  rw [span_pred (by omega), List.length_drop, List.length_take]
  omega

/-! ## The code of a range -/

/-- The code of a range, cut at its line feeds, is the lines of the range without their terminators. -/
theorem splitOn_extractChars (filled : span (linesOf cs) (first - 1) last ≠ []) :
    (extractChars cs first last).splitOn '\n' = (span (linesOf cs) (first - 1) last).map bare := by
  unfold extractChars
  apply List.splitOn_intercalate
  · intro p hp
    obtain ⟨l, hl, rfl⟩ := List.mem_map.1 hp
    have held : l ∈ linesOf cs := List.mem_of_mem_take (List.mem_of_mem_drop hl)
    exact feed_not_mem_bare held
  · rwa [Ne, List.map_eq_nil_iff]

/-- The code of a range has as many lines as the range. -/
theorem length_splitOn_extract (low : 1 ≤ first) (order : first ≤ last)
    (high : last ≤ (linesOf content.toList).length) :
    (((extract content first last).toList.splitOn '\n').length : Int) = last - first + 1 := by
  have hlength := length_span low order high
  have filled : span (linesOf content.toList) (first - 1) last ≠ [] := by
    intro hnil
    rw [hnil, List.length_nil] at hlength
    omega
  unfold extract
  rw [String.toList_ofList, splitOn_extractChars filled, List.length_map, hlength]

/-- Lines between others are read by their numbers. -/
theorem extract_of_linesOf {before mid tail : List (List Char)} (start : 1 ≤ s) (hs : before.length = s - 1)
    (hlines : linesOf content.toList = before ++ (mid ++ tail)) :
    extract content s (s + mid.length - 1) = String.ofList (['\n'].intercalate (mid.map bare)) := by
  have hlast : (s : Int) + mid.length - 1 = (before.length + mid.length : Nat) := by omega
  have hspan : span (linesOf content.toList) ((s : Int) - 1) (before.length + mid.length : Nat) = mid := by
    rw [span_pred start, hlines, ← List.append_assoc, ← List.length_append, List.take_left', List.drop_left' hs]
    rfl
  unfold extract extractChars
  rw [hlast, hspan]

/-! ## The window of a line -/

theorem exists_windowOf_of_line (before : 0 ≤ ctx.before) (after : 0 ≤ ctx.after) (file : Path) (low : 1 ≤ line)
    (high : line ≤ (linesOf content.toList).length) : ∃ w, windowOf ctx file content line = .ok w := by
  have hn : (line - 1).toNat < (linesOf content.toList).length := by omega
  obtain ⟨w, hw, -⟩ := exists_windowOf before after file (List.getElem?_eq_getElem hn)
  have hline : (((line - 1).toNat : Nat) : Int) + 1 = line := by omega
  exact ⟨w, hline ▸ hw⟩

theorem windowOf_of_no_line (ctx : Context) (file : Path)
    (outside : linesOf content.toList = [] ∨ line < 1 ∨ ((linesOf content.toList).length : Int) < line) :
    ∃ cause, windowOf ctx file content line = .error (.value cause) := by
  unfold windowOf
  simp only
  split_ifs with hempty hline
  · exact ⟨_, rfl⟩
  · exact ⟨_, rfl⟩
  · simp only [List.isEmpty_iff, List.map_eq_nil_iff] at hempty
    simp only [List.length_map, Bool.or_eq_true, decide_eq_true_eq] at hline
    rcases outside with hnil | houtside
    · exact absurd hnil hempty
    · exact absurd houtside hline

/-- **The window of a line lies around the line.** It is refused, as a fault of the values, exactly for a text without
lines and for a number that is none of its lines'. For every other there is a window: it starts and ends inside the
text, with the line between, its code is what stands there, and it counts as many lines as its code has. -/
theorem window_of_line (before : 0 ≤ ctx.before) (after : 0 ≤ ctx.after) (file : Path) (content : String)
    (line : Int) :
    ((∃ cause, windowOf ctx file content line = .error (.value cause)) ↔
      linesOf content.toList = [] ∨ line < 1 ∨ ((linesOf content.toList).length : Int) < line) ∧
    (¬ (linesOf content.toList = [] ∨ line < 1 ∨ ((linesOf content.toList).length : Int) < line) →
      ∃ w, windowOf ctx file content line = .ok w ∧ w.file = file ∧
        1 ≤ w.first ∧ w.first ≤ line ∧ line ≤ w.last ∧ w.last ≤ (linesOf content.toList).length ∧
        w.code = extract content w.first w.last ∧ ((w.code.toList.splitOn '\n').length : Int) = w.count) := by
  by_cases outside : linesOf content.toList = [] ∨ line < 1 ∨ ((linesOf content.toList).length : Int) < line
  · exact ⟨⟨fun _ => outside, windowOf_of_no_line ctx file⟩, fun inside => absurd outside inside⟩
  · have inside := outside
    rw [not_or, not_or, Int.not_lt, Int.not_lt] at inside
    obtain ⟨w, hw⟩ := exists_windowOf_of_line before after file inside.2.1 inside.2.2
    obtain ⟨fits, hfile, hfirst, hlast⟩ := fits_windowOf before after hw
    refine ⟨⟨?_, fun h => absurd h outside⟩, fun _ => ?_⟩
    · rintro ⟨cause, herror⟩
      rw [hw] at herror
      cases herror
    · refine ⟨w, hw, hfile, fits.first, hfirst, hlast, fits.last, fits.code, ?_⟩
      rw [fits.code, length_splitOn_extract fits.first fits.order fits.last, Window.count]

/-- The function above the line is closed before it, so the window is the lines that are always taken. -/
theorem window_of_line_below_function :
    ∃ w, windowOf ⟨1, 0⟩ ⟨.here, ["a.c"]⟩ "int f() \x7b return 1; \x7d\r\nx;\r\ny;" 3 = .ok w ∧
      (w.first, w.last, w.code) = (2, 3, "x;\ny;") ∧ w.first ≤ 3 ∧ 3 ≤ w.last ∧
      ((w.code.toList.splitOn '\n').length : Int) = w.count := by
  obtain ⟨w, hw, -, -, hfirst, hlast, -, -, hcount⟩ := (@window_of_line ⟨1, 0⟩ (by decide) (by decide)
    ⟨.here, ["a.c"]⟩ "int f() \x7b return 1; \x7d\r\nx;\r\ny;" 3).2 (by decide)
  have hparts : (windowOf ⟨1, 0⟩ ⟨.here, ["a.c"]⟩ "int f() \x7b return 1; \x7d\r\nx;\r\ny;" 3).toOption.map
      (fun w => (w.first, w.last, w.code)) = some (2, 3, "x;\ny;") := by decide +kernel
  rw [hw] at hparts
  exact ⟨w, hw, Option.some.inj hparts, hfirst, hlast, hcount⟩

end FixGate.Source
