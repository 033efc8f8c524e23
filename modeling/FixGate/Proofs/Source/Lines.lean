import FixGate.Proofs.Source.LineCount

/-!
# A text and its lines

The lines of a text, put one after another, are the text again. Each of them is closed by a line feed, which is the
only one in it, but for the last, which may lack it. Lines of this kind are the lines of the text that they make, so
a text can be taken apart at any of its lines and put together from others.

* `Source.Closed` : a line with its line feed
* `Source.exists_cut` : every text is closed lines and a rest without line feeds
* `Source.flatten_linesOf`, `Source.linesOf_flatten_append` : lines and the text that they make
* `Source.linesOf_flatten_drop` : the lines of the end of a text
* `Source.getLast?_linesOf` : whether the last line is closed is whether the text ends with a line feed
* `Source.bare_append_terminator`, `Source.feed_not_mem_bare` : lines without their terminators
-/

namespace FixGate.Source

variable {cs p rest l line : List Char} {ls : List (List Char)} {x : Char} {i : Nat}

/-! ## Lines that make a text -/

/-- A line with its line feed, which is the only one in it. -/
def Closed (l : List Char) : Prop :=
  ∃ p, '\n' ∉ p ∧ l = p ++ ['\n']

theorem Closed.cons {c : Char} (hc : c ≠ '\n') (closed : Closed l) : Closed (c :: l) := by
  obtain ⟨p, feed, rfl⟩ := closed
  refine ⟨c :: p, ?_, rfl⟩
  intro h
  rcases List.mem_cons.1 h with h | h
  · exact hc h.symm
  · exact feed h

/-- A closed line at the start of a text is its first line. -/
theorem linesOf_closed_append (closed : Closed l) (cs : List Char) : linesOf (l ++ cs) = l :: linesOf cs := by
  obtain ⟨p, feed, rfl⟩ := closed
  induction p with
  | nil => exact linesOf_feed cs
  | cons c p ih =>
    rw [List.mem_cons, not_or] at feed
    have hrest : linesOf (p ++ ['\n'] ++ cs) = (p ++ ['\n']) :: linesOf cs := ih feed.2
    rw [List.cons_append, List.cons_append, linesOf_of_ne (Ne.symm feed.1), hrest]
    rfl

/-- Closed lines at the start of a text are its first lines. -/
theorem linesOf_flatten_append (closed : ∀ l ∈ ls, Closed l) (cs : List Char) :
    linesOf (ls.flatten ++ cs) = ls ++ linesOf cs := by
  induction ls with
  | nil => rfl
  | cons l ls ih =>
    have first : Closed l := closed l List.mem_cons_self
    have later : ∀ k ∈ ls, Closed k := fun k hk => closed k (List.mem_cons_of_mem _ hk)
    rw [List.flatten_cons, List.append_assoc, linesOf_closed_append first, ih later, List.cons_append]

/-- What holds no line feed is a single line. -/
theorem linesOf_of_not_mem (feed : '\n' ∉ p) : linesOf p = if p = [] then [] else [p] := by
  induction p with
  | nil => rfl
  | cons c p ih =>
    rw [List.mem_cons, not_or] at feed
    rw [linesOf_of_ne (Ne.symm feed.1), ih feed.2]
    by_cases hp : p = []
    · simp [hp]
    · simp [hp]

/-- Every text is closed lines and a rest that holds no line feed. These are its lines, unless the rest is empty. -/
theorem exists_cut (cs : List Char) :
    ∃ ls rest, (∀ l ∈ ls, Closed l) ∧ '\n' ∉ rest ∧ cs = ls.flatten ++ rest ∧
      linesOf cs = ls ++ if rest = [] then [] else [rest] := by
  suffices cut : ∃ (ls : List (List Char)) (rest : List Char),
      (∀ l ∈ ls, Closed l) ∧ '\n' ∉ rest ∧ cs = ls.flatten ++ rest by
    obtain ⟨ls, rest, closed, feed, rfl⟩ := cut
    exact ⟨ls, rest, closed, feed, rfl, by rw [linesOf_flatten_append closed, linesOf_of_not_mem feed]⟩
  induction cs with
  | nil => exact ⟨[], [], by simp, by simp, rfl⟩
  | cons c cs ih =>
    obtain ⟨ls, rest, closed, feed, rfl⟩ := ih
    by_cases hc : c = '\n'
    · subst hc
      refine ⟨['\n'] :: ls, rest, ?_, feed, rfl⟩
      intro l hl
      rcases List.mem_cons.1 hl with rfl | hl
      · exact ⟨[], by simp, rfl⟩
      · exact closed l hl
    · cases ls with
      | nil => exact ⟨[], c :: rest, by simp, by simp [Ne.symm hc, feed], rfl⟩
      | cons l ls =>
        refine ⟨(c :: l) :: ls, rest, ?_, feed, rfl⟩
        intro k hk
        rcases List.mem_cons.1 hk with rfl | hk
        · exact (closed l List.mem_cons_self).cons hc
        · exact closed k (List.mem_cons_of_mem _ hk)

/-- The lines of a text, one after another, are the text. -/
theorem flatten_linesOf (cs : List Char) : (linesOf cs).flatten = cs := by
  obtain ⟨ls, rest, -, -, rfl, hlines⟩ := exists_cut cs
  rw [hlines]
  by_cases hrest : rest = []
  · simp [hrest]
  · simp [hrest]

/-- Lines that other lines follow are closed. -/
theorem closed_of_mem_take (hi : i < (linesOf cs).length) (hl : l ∈ (linesOf cs).take i) : Closed l := by
  obtain ⟨ls, rest, closed, -, -, hlines⟩ := exists_cut cs
  have hle : i ≤ ls.length := by
    rw [hlines] at hi
    by_cases hrest : rest = []
    · simp [hrest] at hi
      omega
    · simp [hrest] at hi
      omega
  rw [hlines, List.take_append_of_le_length hle] at hl
  exact closed l (List.mem_of_mem_take hl)

/-- A line is closed, or it is the rest of a text after its last line feed. -/
theorem closed_or_open (hl : l ∈ linesOf cs) : Closed l ∨ '\n' ∉ l := by
  obtain ⟨ls, rest, closed, feed, -, hlines⟩ := exists_cut cs
  rw [hlines, List.mem_append] at hl
  rcases hl with hl | hl
  · exact .inl (closed l hl)
  · by_cases hrest : rest = []
    · simp [hrest] at hl
    · simp [hrest] at hl
      exact .inr (hl ▸ feed)

theorem ne_nil_of_mem_linesOf (hl : l ∈ linesOf cs) : l ≠ [] := by
  obtain ⟨ls, rest, closed, -, -, hlines⟩ := exists_cut cs
  rw [hlines, List.mem_append] at hl
  rcases hl with hl | hl
  · obtain ⟨p, -, rfl⟩ := closed l hl
    simp
  · by_cases hrest : rest = []
    · simp [hrest] at hl
    · simp [hrest] at hl
      exact hl ▸ hrest

/-- The last line ends as the text ends. -/
theorem getLast?_linesOf (hl : (linesOf cs).getLast? = some l) : l.getLast? = cs.getLast? := by
  obtain ⟨before, hlines⟩ := List.getLast?_eq_some_iff.1 hl
  have filled : l ≠ [] := ne_nil_of_mem_linesOf (List.mem_of_getLast? hl)
  have htext : before.flatten ++ l = cs := by
    rw [← flatten_linesOf cs, hlines]
    simp
  rw [← htext, List.getLast?_append, List.getLast?_eq_some_getLast filled, Option.some_or]

/-- The lines of the end of a text are the last lines of the text. -/
theorem linesOf_flatten_drop (cs : List Char) (i : Nat) :
    linesOf ((linesOf cs).drop i).flatten = (linesOf cs).drop i := by
  by_cases hi : i < (linesOf cs).length
  · have closed : ∀ l ∈ (linesOf cs).take i, Closed l := fun l hl => closed_of_mem_take hi hl
    have hcut : linesOf cs = (linesOf cs).take i ++ linesOf ((linesOf cs).drop i).flatten := by
      rw [← linesOf_flatten_append closed, ← List.flatten_append, List.take_append_drop, flatten_linesOf]
    have hsame : (linesOf cs).take i ++ linesOf ((linesOf cs).drop i).flatten =
        (linesOf cs).take i ++ (linesOf cs).drop i := by
      rw [← hcut, List.take_append_drop]
    exact List.append_cancel_left hsame
  · rw [List.drop_eq_nil_of_le (Nat.le_of_not_lt hi)]
    rfl

/-! ## Lines without their terminators -/

theorem dropEnd_concat (x : Char) (p : List Char) : dropEnd x (p ++ [x]) = p := by
  simp [dropEnd]

theorem dropEnd_of_not_mem (clean : x ∉ p) : dropEnd x p = p := by
  unfold dropEnd
  split_ifs with hlast
  · exact absurd (List.mem_of_getLast? hlast) clean
  · rfl

theorem mem_of_mem_dropEnd {c : Char} (hc : c ∈ dropEnd x p) : c ∈ p := by
  unfold dropEnd at hc
  split_ifs at hc
  · exact (List.dropLast_sublist p).subset hc
  · exact hc

theorem bare_of_not_mem (feed : '\n' ∉ p) (returns : '\r' ∉ p) : bare p = p := by
  unfold bare
  rw [dropEnd_of_not_mem feed, dropEnd_of_not_mem returns]

theorem bare_concat_feed (returns : '\r' ∉ p) : bare (p ++ ['\n']) = p := by
  unfold bare
  rw [dropEnd_concat, dropEnd_of_not_mem returns]

/-- The terminator that is put after a line is taken off again. -/
theorem bare_append_terminator (returns : '\r' ∉ p) (line : List Char) : bare (p ++ terminator line) = p := by
  unfold terminator
  split_ifs
  · have hsplit : p ++ ['\r', '\n'] = p ++ ['\r'] ++ ['\n'] := by simp
    rw [hsplit]
    unfold bare
    rw [dropEnd_concat, dropEnd_concat]
  · exact bare_concat_feed returns

/-- Without its terminator a line holds no line feed. -/
theorem feed_not_mem_bare (hl : l ∈ linesOf cs) : '\n' ∉ bare l := by
  intro hfeed
  have hfeed : '\n' ∈ dropEnd '\n' l := mem_of_mem_dropEnd hfeed
  rcases closed_or_open hl with ⟨p, feed, rfl⟩ | feed
  · rw [dropEnd_concat] at hfeed
    exact feed hfeed
  · exact feed (mem_of_mem_dropEnd hfeed)

end FixGate.Source
