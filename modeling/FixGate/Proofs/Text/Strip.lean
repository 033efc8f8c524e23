import FixGate.Text.Blank
import Mathlib.Data.List.TakeWhile

/-!
# Blanks at the ends of a text

A text is what is left of it without the blanks at its ends, between blanks. What neither begins nor ends with a blank
is left of it, whatever blanks are put around it.

* `takeWhile_append_stop`, `dropWhile_append_stop` : the first part of a list, up to what fails a test
* `eq_of_append_cons` : the first part of a list, up to a separator
* `Text.exists_blanks_around_strip` : a text between blanks
* `Text.stripChars_between` : what is left when blanks are put around a text
* `Text.stripRightChars_isPrefix`, `Text.head_of_stripped` : how the rest begins
-/

namespace FixGate

/-! ## The first part of a list -/

section Span

variable {α : Type} {p : α → Bool} {xs ys : List α}

/-- What passes a test is the first part of a list that goes on with what does not. -/
theorem takeWhile_append_stop (hxs : ∀ x ∈ xs, p x = true) (hys : ∀ y ∈ ys.head?, p y = false) :
    (xs ++ ys).takeWhile p = xs := by
  rw [List.takeWhile_append_of_pos hxs]
  cases ys with
  | nil => exact List.append_nil xs
  | cons y ys => rw [List.takeWhile_cons_of_neg (by simp [hys y rfl]), List.append_nil]

theorem dropWhile_of_stop (hys : ∀ y ∈ ys.head?, p y = false) : ys.dropWhile p = ys := by
  cases ys with
  | nil => rfl
  | cons y ys => exact List.dropWhile_cons_of_neg (by simp [hys y rfl])

theorem dropWhile_append_stop (hxs : ∀ x ∈ xs, p x = true) (hys : ∀ y ∈ ys.head?, p y = false) :
    (xs ++ ys).dropWhile p = ys := by
  rw [List.dropWhile_append_of_pos hxs, dropWhile_of_stop hys]

/-- What stands before the first separator is told by the whole. -/
theorem eq_of_append_cons [DecidableEq α] {x : α} {rest tail : List α} (hxs : x ∉ xs) (hys : x ∉ ys)
    (h : xs ++ x :: rest = ys ++ x :: tail) : xs = ys := by
  have first {zs : List α} (hzs : x ∉ zs) (after : List α) : (zs ++ x :: after).takeWhile (· != x) = zs := by
    apply takeWhile_append_stop
    · intro z hz
      simpa using ne_of_mem_of_not_mem hz hzs
    · rintro y ⟨⟩
      simp
  rw [← first hxs rest, h, first hys tail]

end Span

namespace Text

/-! ## Blanks at the ends -/

variable {cs gap gap' : List Char}

theorem exists_blanks_behind_stripRight (cs : List Char) :
    ∃ gap, cs = stripRightChars cs ++ gap ∧ ∀ c ∈ gap, isBlank c = true := by
  refine ⟨(cs.reverse.takeWhile isBlank).reverse, ?_, ?_⟩
  · rw [stripRightChars, dropRightWhile, ← List.reverse_append, List.takeWhile_append_dropWhile, List.reverse_reverse]
  · intro c hc
    exact List.mem_takeWhile_imp (List.mem_reverse.1 hc)

/-- A text is what is left of it, between blanks. -/
theorem exists_blanks_around_strip (cs : List Char) :
    ∃ gap gap', cs = gap ++ stripChars cs ++ gap' ∧ (∀ c ∈ gap, isBlank c = true) ∧ ∀ c ∈ gap', isBlank c = true := by
  obtain ⟨gap', hcut, hgap'⟩ := exists_blanks_behind_stripRight (stripLeftChars cs)
  refine ⟨cs.takeWhile isBlank, gap', ?_, fun c hc => List.mem_takeWhile_imp hc, hgap'⟩
  rw [stripChars, List.append_assoc, ← hcut, stripLeftChars, List.takeWhile_append_dropWhile]

theorem stripRightChars_isPrefix (cs : List Char) : stripRightChars cs <+: cs := by
  obtain ⟨gap, hcut, -⟩ := exists_blanks_behind_stripRight cs
  exact ⟨gap, hcut.symm⟩

/-- What neither begins nor ends with a blank is left, whatever blanks are put around it. -/
theorem stripChars_between (hgap : ∀ c ∈ gap, isBlank c = true) (hgap' : ∀ c ∈ gap', isBlank c = true)
    (first : ∀ c ∈ cs.head?, isBlank c = false) (last : ∀ c ∈ cs.getLast?, isBlank c = false) :
    stripChars (gap ++ cs ++ gap') = cs := by
  have left : stripLeftChars (gap ++ cs ++ gap') = stripLeftChars (cs ++ gap') := by
    rw [stripLeftChars, List.append_assoc, List.dropWhile_append_of_pos hgap, stripLeftChars]
  rw [stripChars, left]
  cases cs with
  | nil =>
    rw [List.nil_append, stripLeftChars, List.dropWhile_eq_nil_iff.2 hgap']
    rfl
  | cons c cs =>
    have kept : stripLeftChars (c :: cs ++ gap') = c :: cs ++ gap' :=
      List.dropWhile_cons_of_neg (by simp [first c rfl])
    have stop : ∀ d ∈ (c :: cs).reverse.head?, isBlank d = false := by
      rw [List.head?_reverse]
      exact last
    rw [kept, stripRightChars, dropRightWhile, List.reverse_append,
      dropWhile_append_stop (fun d hd => hgap' d (List.mem_reverse.1 hd)) stop, List.reverse_reverse]

/-- A text without blanks at its ends begins with no blank. -/
theorem head_of_stripped {s : String} (stripped : strip s = s) : ∀ c ∈ s.toList.head?, isBlank c = false := by
  intro c hc
  have chars : stripChars s.toList = s.toList := by
    rw [← String.toList_ofList (l := stripChars s.toList)]
    exact congrArg String.toList stripped
  have shorter : s.toList.length ≤ (stripLeftChars s.toList).length :=
    calc s.toList.length = (stripChars s.toList).length := by rw [chars]
      _ ≤ (stripLeftChars s.toList).length := (stripRightChars_isPrefix _).length_le
  have whole : stripLeftChars s.toList = s.toList := (List.dropWhile_suffix _).eq_of_length_le shorter
  have first := List.head?_dropWhile_not isBlank s.toList
  rw [stripLeftChars] at whole
  rw [whole, Option.mem_def.1 hc] at first
  exact first

end Text

end FixGate
