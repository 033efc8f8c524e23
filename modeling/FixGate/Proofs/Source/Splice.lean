import FixGate.Proofs.Source.Ranges

/-!
# A range of lines replaced

What is put in place of a range of lines is cut into lines of its own. They stand in the result between the lines
before the range and those after it, each with the terminator of the first line that they replace; a text that
lacks the line feed at its end lacks it afterwards. How the lines of the replacement were ended does not matter. The
lines of the result are those that were put together, so what was put can be read back.

* `Source.lineTexts`, `Source.pieces_eq_lineTexts` : the lines of a replacement
* `Source.bare_pieces_withReturns` : the same lines with other line ends
* `Source.spliceLines_eq` : the lines of the result
* `Source.linesOf_closing` : they are the lines of the text that they make
* `Source.splice_range` : the text of the result, and what is read back from it
-/

namespace FixGate.Source

variable {α : Type} {cs code rest l line eol : List Char} {ls ps qs lines : List (List Char)} {content : String}
  {s e : Nat}

/-! ## The lines of a replacement -/

/-- A list without one empty text at its end. -/
def withoutEmptyEnd (ps : List (List Char)) : List (List Char) :=
  if ps.getLast? = some [] then ps.dropLast else ps

/-- What stands between the line feeds of a text; nothing after the last of them is no line. -/
def lineTexts (code : List Char) : List (List Char) :=
  withoutEmptyEnd (code.splitOn '\n')

theorem splitOn_flatten_append (closed : ∀ l ∈ ls, Closed l) (feed : '\n' ∉ rest) :
    (ls.flatten ++ rest).splitOn '\n' = ls.map (dropEnd '\n') ++ [rest] := by
  induction ls with
  | nil => exact List.splitOn_eq_singleton feed
  | cons l ls ih =>
    obtain ⟨p, clean, rfl⟩ := closed l List.mem_cons_self
    have later : ∀ k ∈ ls, Closed k := fun k hk => closed k (List.mem_cons_of_mem _ hk)
    have hsplit : (p ++ ['\n']) ++ ls.flatten ++ rest = p ++ '\n' :: (ls.flatten ++ rest) := by simp
    rw [List.flatten_cons, hsplit, List.splitOn_append_cons_self_of_not_mem clean, ih later, List.map_cons,
      dropEnd_concat, List.cons_append]

/-- Closed lines make a text that is empty or ends with a line feed, and anything after them one that does not. -/
theorem flatten_append_ends_iff (closed : ∀ l ∈ ls, Closed l) (feed : '\n' ∉ rest) :
    (ls.flatten ++ rest = [] ∨ (ls.flatten ++ rest).getLast? = some '\n') ↔ rest = [] := by
  by_cases hrest : rest = []
  · subst hrest
    simp only [List.append_nil, iff_true]
    rcases List.eq_nil_or_concat ls with rfl | ⟨before, l, rfl⟩
    · exact .inl rfl
    · obtain ⟨p, -, rfl⟩ := closed l (by simp)
      exact .inr (by simp)
  · simp only [hrest, iff_false, not_or, List.append_eq_nil_iff, not_and, not_false_eq_true, implies_true, true_and]
    intro hlast
    rw [List.getLast?_append, List.getLast?_eq_some_getLast hrest, Option.some_or] at hlast
    exact feed (Option.some.inj hlast ▸ List.getLast_mem hrest)

/-- The lines of a text without their line feeds. -/
theorem map_dropEnd_linesOf (code : List Char) : (linesOf code).map (dropEnd '\n') = lineTexts code := by
  obtain ⟨ls, rest, closed, feed, rfl, hlines⟩ := exists_cut code
  unfold lineTexts withoutEmptyEnd
  rw [hlines, splitOn_flatten_append closed feed, List.getLast?_concat, List.dropLast_concat, List.map_append]
  by_cases hrest : rest = []
  · simp [hrest]
  · simp [hrest, dropEnd_of_not_mem feed]

/-- The pieces of a replacement are the texts of its lines. -/
theorem pieces_eq_lineTexts (code : List Char) : pieces code = lineTexts code := by
  obtain ⟨ls, rest, closed, feed, rfl, -⟩ := exists_cut code
  have hends := flatten_append_ends_iff closed feed
  unfold pieces terminated lineTexts withoutEmptyEnd
  simp only [Bool.or_eq_true, List.isEmpty_iff, beq_iff_eq, hends]
  rw [splitOn_flatten_append closed feed, List.getLast?_concat]
  simp only [Option.some.injEq]

theorem mem_of_mem_linesOf {c : Char} (hl : l ∈ linesOf cs) (hc : c ∈ l) : c ∈ cs := by
  rw [← flatten_linesOf cs]
  exact List.mem_flatten_of_mem hl hc

/-- The text of a line holds no line feed, and no carriage return that is not in the replacement. -/
theorem clean_of_mem_lineTexts (returns : '\r' ∉ code) {p : List Char} (hp : p ∈ lineTexts code) :
    '\n' ∉ p ∧ '\r' ∉ p := by
  rw [← map_dropEnd_linesOf] at hp
  obtain ⟨l, hl, rfl⟩ := List.mem_map.1 hp
  have hreturns : '\r' ∉ l := fun h => returns (mem_of_mem_linesOf hl h)
  refine ⟨?_, fun h => hreturns (mem_of_mem_dropEnd h)⟩
  rcases closed_or_open hl with ⟨q, feed, rfl⟩ | feed
  · rwa [dropEnd_concat]
  · exact fun h => feed (mem_of_mem_dropEnd h)

theorem bare_pieces (returns : '\r' ∉ code) : (pieces code).map bare = lineTexts code := by
  have unchanged : ∀ p ∈ lineTexts code, bare p = p := by
    intro p hp
    obtain ⟨feed, returns'⟩ := clean_of_mem_lineTexts returns hp
    exact bare_of_not_mem feed returns'
  rw [pieces_eq_lineTexts, List.map_congr_left unchanged, List.map_id']

/-! ## Other line ends -/

/-- A text with a carriage return before each of its line feeds. -/
def withReturns (cs : List Char) : List Char :=
  cs.flatMap fun c => if c = '\n' then ['\r', '\n'] else [c]

theorem withReturns_append (cs ds : List Char) : withReturns (cs ++ ds) = withReturns cs ++ withReturns ds :=
  List.flatMap_append

theorem withReturns_of_not_mem (feed : '\n' ∉ cs) : withReturns cs = cs := by
  induction cs with
  | nil => rfl
  | cons c cs ih =>
    rw [List.mem_cons, not_or] at feed
    show (if c = '\n' then ['\r', '\n'] else [c]) ++ withReturns cs = c :: cs
    rw [if_neg (Ne.symm feed.1), ih feed.2]
    rfl

theorem withReturns_concat_feed {p : List Char} (feed : '\n' ∉ p) :
    withReturns (p ++ ['\n']) = p ++ ['\r'] ++ ['\n'] := by
  rw [withReturns_append, withReturns_of_not_mem feed, List.append_assoc]
  rfl

theorem Closed.withReturns (closed : Closed l) : Closed (withReturns l) := by
  obtain ⟨p, feed, rfl⟩ := closed
  exact ⟨p ++ ['\r'], by simpa using feed, withReturns_concat_feed feed⟩

theorem withReturns_flatten (ls : List (List Char)) : withReturns ls.flatten = (ls.map withReturns).flatten := by
  induction ls with
  | nil => rfl
  | cons l ls ih => rw [List.flatten_cons, withReturns_append, ih, List.map_cons, List.flatten_cons]

/-- The lines stay where they are when their line ends are changed. -/
theorem linesOf_withReturns (cs : List Char) : linesOf (withReturns cs) = (linesOf cs).map withReturns := by
  obtain ⟨ls, rest, closed, feed, rfl, hlines⟩ := exists_cut cs
  have closed' : ∀ l ∈ ls.map withReturns, Closed l := by
    intro l hl
    obtain ⟨k, hk, rfl⟩ := List.mem_map.1 hl
    exact (closed k hk).withReturns
  have hrest : withReturns rest = rest := withReturns_of_not_mem feed
  rw [hlines, withReturns_append, withReturns_flatten, hrest, linesOf_flatten_append closed', linesOf_of_not_mem feed,
    List.map_append]
  by_cases hnil : rest = []
  · simp [hnil]
  · simp [hnil, hrest]

/-- With carriage returns before the line feeds a replacement has the same lines. -/
theorem bare_pieces_withReturns (returns : '\r' ∉ code) : (pieces (withReturns code)).map bare = lineTexts code := by
  rw [pieces_eq_lineTexts, ← map_dropEnd_linesOf, linesOf_withReturns, List.map_map, List.map_map,
    ← map_dropEnd_linesOf]
  apply List.map_congr_left
  intro l hl
  have hreturns : '\r' ∉ l := fun h => returns (mem_of_mem_linesOf hl h)
  show bare (dropEnd '\n' (withReturns l)) = dropEnd '\n' l
  rcases closed_or_open hl with ⟨p, feed, rfl⟩ | feed
  · rw [withReturns_concat_feed feed, dropEnd_concat, dropEnd_concat]
    have feed' : '\n' ∉ p ++ ['\r'] := by simpa using feed
    unfold bare
    rw [dropEnd_of_not_mem feed', dropEnd_concat]
  · rw [withReturns_of_not_mem feed, dropEnd_of_not_mem feed, bare_of_not_mem feed hreturns]

/-! ## The lines of the result -/

theorem mapLast_concat (f : α → α) (xs : List α) (x : α) : mapLast f (xs ++ [x]) = xs ++ [f x] := by
  unfold mapLast
  rw [List.getLast?_concat, List.dropLast_concat]

/-- A range reaches the end of a text that does not end with a line feed. -/
def OpenEnd (cs : List Char) (e : Nat) : Prop :=
  (linesOf cs).length ≤ e ∧ cs.getLast? ≠ some '\n'

instance (cs : List Char) (e : Nat) : Decidable (OpenEnd cs e) :=
  inferInstanceAs (Decidable (_ ∧ _))

/-- Lines with a terminator after each, or after each but the last. -/
def closing (eol : List Char) (ps : List (List Char)) (isOpen : Prop) [Decidable isOpen] : List (List Char) :=
  if isOpen then mapLast bare (ps.map (· ++ eol)) else ps.map (· ++ eol)

/-- Lines that other lines follow are terminated. -/
theorem terminated_of_closed (closed : Closed l) : terminated l = true := by
  obtain ⟨p, -, rfl⟩ := closed
  simp [terminated]

/-- The range from a line of the text on starts with this line. -/
theorem head?_range (start : 1 ≤ s) (order : s ≤ e) (hline : lines[s - 1]? = some line) :
    ((lines.take e).drop (s - 1)).head? = some line := by
  rw [List.head?_drop, List.getElem?_take_of_lt (by omega), hline]

/-- Where a range reaches the end of a text, it ends as the text does. -/
theorem exists_getLast?_range (start : 1 ≤ s) (order : s ≤ e) (hs : s - 1 < (linesOf cs).length) :
    ∃ last, (((linesOf cs).take e).drop (s - 1)).getLast? = some last ∧
      (((linesOf cs).drop e).isEmpty && !terminated last) = decide (OpenEnd cs e) := by
  obtain ⟨last, hlast⟩ : ∃ last, (((linesOf cs).take e).drop (s - 1)).getLast? = some last := by
    apply Option.isSome_iff_exists.1
    rw [List.getLast?_isSome, Ne, List.drop_eq_nil_iff, List.length_take]
    omega
  refine ⟨last, hlast, ?_⟩
  by_cases hend : (linesOf cs).length ≤ e
  · have hwhole : (linesOf cs).getLast? = some last := by
      rw [List.take_of_length_le hend, List.getLast?_drop, if_neg (by omega)] at hlast
      exact hlast
    have hempty : ((linesOf cs).drop e).isEmpty = true := by rw [List.drop_eq_nil_of_le hend, List.isEmpty_nil]
    rw [hempty, Bool.true_and]
    by_cases hfeed : cs.getLast? = some '\n'
    · simp [OpenEnd, hend, terminated, getLast?_linesOf hwhole, hfeed]
    · simp [OpenEnd, hend, terminated, getLast?_linesOf hwhole, hfeed]
  · have hempty : ((linesOf cs).drop e).isEmpty = false := by
      rw [List.isEmpty_eq_false_iff, Ne, List.drop_eq_nil_iff]
      exact hend
    simp [hempty, OpenEnd, hend]

/-- A range that starts at a line of the text is replaced by lines of their own. -/
theorem spliceLines_eq (start : 1 ≤ s) (order : s ≤ e) (hline : (linesOf cs)[s - 1]? = some line)
    (code : List Char) :
    spliceLines (linesOf cs) s e code = (linesOf cs).take (s - 1) ++
      closing (terminator line) ((pieces code).map bare) (OpenEnd cs e) ++ (linesOf cs).drop e := by
  obtain ⟨hs, -⟩ := List.getElem?_eq_some_iff.1 hline
  obtain ⟨last, hlast, hopen⟩ := exists_getLast?_range start order hs
  have hpieces : (pieces code).map (fun p => bare p ++ terminator line) =
      ((pieces code).map bare).map (· ++ terminator line) := by
    rw [List.map_map]
    rfl
  unfold spliceLines closing
  simp only [spanTo_pred start, span_pred start, spanFrom_natCast, head?_range start order hline, Option.some_or,
    Option.getD_some, hlast, hopen, decide_eq_true_eq, hpieces]
  cases hhead : ((linesOf cs).take (s - 1)).getLast? with
  | none => simp only [Bool.and_false, Bool.false_eq_true, if_false]
  | some l =>
    have closed : Closed l := closed_of_mem_take hs (List.mem_of_getLast? hhead)
    simp only [terminated_of_closed closed, Bool.not_true, Bool.and_false, Bool.false_eq_true, if_false]

/-! ## The text of the result -/

theorem closing_of_not_open {isOpen : Prop} [Decidable isOpen] (hopen : ¬ isOpen) (eol : List Char)
    (ps : List (List Char)) : closing eol ps isOpen = ps.map (· ++ eol) :=
  if_neg hopen

theorem closing_nil (eol : List Char) (isOpen : Prop) [Decidable isOpen] : closing eol [] isOpen = [] := by
  unfold closing
  split_ifs
  · rfl
  · rfl

/-- At an open end the last line stands without a terminator. -/
theorem closing_concat {isOpen : Prop} [Decidable isOpen] (hopen : isOpen) {q : List Char} (returns : '\r' ∉ q)
    (line : List Char) (qs : List (List Char)) :
    closing (terminator line) (qs ++ [q]) isOpen = qs.map (· ++ terminator line) ++ [q] := by
  unfold closing
  rw [if_pos hopen, List.map_append, List.map_singleton, mapLast_concat, bare_append_terminator returns]

theorem flatten_map_append (eol : List Char) (qs : List (List Char)) (q : List Char) :
    (qs.map (· ++ eol)).flatten ++ q = eol.intercalate (qs ++ [q]) := by
  induction qs with
  | nil => exact (List.intercalate_singleton).symm
  | cons p qs ih =>
    have filled : qs ++ [q] ≠ [] := by simp
    rw [List.map_cons, List.flatten_cons, List.append_assoc, ih, List.cons_append,
      List.intercalate_cons_of_ne_nil filled, List.append_assoc]

/-- The lines as they are written. -/
theorem flatten_closing {isOpen : Prop} [Decidable isOpen] (returns : ∀ p ∈ ps, '\r' ∉ p) (line : List Char) :
    (closing (terminator line) ps isOpen).flatten =
      if isOpen then (terminator line).intercalate ps else (ps.map (· ++ terminator line)).flatten := by
  by_cases hopen : isOpen
  · rw [if_pos hopen]
    rcases List.eq_nil_or_concat ps with rfl | ⟨qs, q, rfl⟩
    · rw [closing_nil]
      rfl
    · rw [List.concat_eq_append] at returns ⊢
      rw [closing_concat hopen (returns q (by simp)), List.flatten_append, List.flatten_singleton,
        flatten_map_append]
  · rw [if_neg hopen, closing_of_not_open hopen]

theorem closed_append_terminator (feed : '\n' ∉ rest) (line : List Char) : Closed (rest ++ terminator line) := by
  unfold terminator
  split_ifs
  · exact ⟨rest ++ ['\r'], by simpa using feed, by simp⟩
  · exact ⟨rest, feed, rfl⟩

/-- Without their terminators the lines of the replacement are the texts that were put. -/
theorem map_bare_closing (clean : ∀ p ∈ ps, '\n' ∉ p ∧ '\r' ∉ p) (line : List Char) (isOpen : Prop)
    [Decidable isOpen] : (closing (terminator line) ps isOpen).map bare = ps := by
  have back : ∀ qs : List (List Char), (∀ q ∈ qs, '\r' ∉ q) → (qs.map (· ++ terminator line)).map bare = qs := by
    intro qs returns
    rw [List.map_map]
    have same : ∀ q ∈ qs, (bare ∘ (· ++ terminator line)) q = q := by
      intro q hq
      exact bare_append_terminator (returns q hq) line
    rw [List.map_congr_left same, List.map_id']
  by_cases hopen : isOpen
  · rcases List.eq_nil_or_concat ps with rfl | ⟨qs, q, rfl⟩
    · rw [closing_nil]
      rfl
    · rw [List.concat_eq_append] at clean ⊢
      obtain ⟨feed, returns⟩ := clean q (by simp)
      rw [closing_concat hopen returns, List.map_append, List.map_singleton, bare_of_not_mem feed returns,
        back qs fun k hk => (clean k (by simp [hk])).2]
  · rw [closing_of_not_open hopen, back ps fun p hp => (clean p hp).2]

/-- The lines of the replacement, with the lines after the range, are the lines of the text that they make, but for
an empty last line at an open end. -/
theorem linesOf_closing {isOpen : Prop} [Decidable isOpen] {tail : List (List Char)}
    (clean : ∀ p ∈ ps, '\n' ∉ p ∧ '\r' ∉ p) (line : List Char) (ends : isOpen → tail = [])
    (filled : ¬ (isOpen ∧ ps.getLast? = some [])) (htail : linesOf tail.flatten = tail) :
    linesOf ((closing (terminator line) ps isOpen).flatten ++ tail.flatten) =
      closing (terminator line) ps isOpen ++ tail := by
  have closed : ∀ qs : List (List Char), (∀ q ∈ qs, '\n' ∉ q) → ∀ l ∈ qs.map (· ++ terminator line), Closed l := by
    intro qs feed l hl
    obtain ⟨q, hq, rfl⟩ := List.mem_map.1 hl
    exact closed_append_terminator (feed q hq) line
  by_cases hopen : isOpen
  · obtain rfl := ends hopen
    rcases List.eq_nil_or_concat ps with rfl | ⟨qs, q, rfl⟩
    · rw [closing_nil]
      rfl
    · rw [List.concat_eq_append] at clean filled ⊢
      obtain ⟨feed, returns⟩ := clean q (by simp)
      have hq : q ≠ [] := by
        rintro rfl
        exact filled ⟨hopen, List.getLast?_concat⟩
      rw [closing_concat hopen returns, List.flatten_append, List.flatten_singleton, List.flatten_nil, List.append_nil,
        linesOf_flatten_append (closed qs fun k hk => (clean k (by simp [hk])).1), linesOf_of_not_mem feed, if_neg hq,
        List.append_nil]
  · rw [closing_of_not_open hopen, linesOf_flatten_append (closed ps fun p hp => (clean p hp).1), htail]

/-- **What replaces a range of lines.** Where line `s` of a text is replaced, with the lines after it up to `e`, the
result is the text before that line, the lines of the replacement, each with the terminator of line `s`, and the text
after line `e`; only where the range reaches the end of a text without a line feed at its end, the last terminator is
left out. It is the same for a replacement written with carriage returns before its line feeds. The lines that were
put are read back from the place where they were put, unless the last of them is empty and has no terminator. -/
theorem splice_range {code : String} (start : 1 ≤ s) (order : s ≤ e)
    (hline : (linesOf content.toList)[s - 1]? = some line) (returns : '\r' ∉ code.toList) :
    ∃ result, splice content s e code = .ok result ∧
      result.toList = ((linesOf content.toList).take (s - 1)).flatten ++
        (if OpenEnd content.toList e then (terminator line).intercalate (lineTexts code.toList)
          else ((lineTexts code.toList).map (· ++ terminator line)).flatten) ++
        ((linesOf content.toList).drop e).flatten ∧
      splice content s e (String.ofList (withReturns code.toList)) = .ok result ∧
      (¬ (OpenEnd content.toList e ∧ (lineTexts code.toList).getLast? = some []) →
        extract result s (s + (lineTexts code.toList).length - 1) =
          String.ofList (['\n'].intercalate (lineTexts code.toList))) := by
  obtain ⟨hs, -⟩ := List.getElem?_eq_some_iff.1 hline
  have low : 1 ≤ (s : Int) := by omega
  have high : (s : Int) ≤ (linesOf content.toList).length + 1 := by omega
  have hsplice := splice_of_start low high e
  have clean : ∀ p ∈ lineTexts code.toList, '\n' ∉ p ∧ '\r' ∉ p := fun p hp => clean_of_mem_lineTexts returns hp
  have hlines : ∀ d : List Char, (pieces d).map bare = lineTexts code.toList →
      (spliceLines (linesOf content.toList) s e d).flatten = ((linesOf content.toList).take (s - 1)).flatten ++
        ((closing (terminator line) (lineTexts code.toList) (OpenEnd content.toList e)).flatten ++
          ((linesOf content.toList).drop e).flatten) := by
    intro d hd
    rw [spliceLines_eq start order hline, hd, List.flatten_append, List.flatten_append, List.append_assoc]
  refine ⟨_, hsplice code, ?_, ?_, ?_⟩
  · rw [String.toList_ofList, hlines _ (bare_pieces returns), flatten_closing fun p hp => (clean p hp).2,
      List.append_assoc]
  · rw [hsplice, String.toList_ofList, hlines _ (bare_pieces returns),
      hlines _ (bare_pieces_withReturns returns)]
  · intro filled
    have closed : ∀ l ∈ (linesOf content.toList).take (s - 1), Closed l := fun l hl => closed_of_mem_take hs hl
    have ends : OpenEnd content.toList e → (linesOf content.toList).drop e = [] := fun h => List.drop_eq_nil_of_le h.1
    have hread := map_bare_closing clean line (OpenEnd content.toList e)
    have hcount := congrArg List.length hread
    rw [List.length_map] at hcount
    have hbefore : ((linesOf content.toList).take (s - 1)).length = s - 1 := by
      rw [List.length_take, Nat.min_eq_left (Nat.le_of_lt hs)]
    have hresult : linesOf (String.ofList (spliceLines (linesOf content.toList) s e code.toList).flatten).toList =
        (linesOf content.toList).take (s - 1) ++
          (closing (terminator line) (lineTexts code.toList) (OpenEnd content.toList e) ++
            (linesOf content.toList).drop e) := by
      rw [String.toList_ofList, hlines _ (bare_pieces returns), linesOf_flatten_append closed,
        linesOf_closing clean line ends filled (linesOf_flatten_drop _ e)]
    rw [← hcount, extract_of_linesOf start hbefore hresult, hread]

/-- Lines with mixed ends are replaced to the end of a text without a line feed at its end, the range reaching past
it: the second one's end is used, and the last is left out. -/
theorem splice_range_past_end :
    '\r' ∉ "x\n\ny\n".toList ∧
    ∃ result, splice "a\nb\r\nc" 2 7 "x\n\ny\n" = .ok result ∧ result.toList = "a\nx\r\n\r\ny".toList ∧
      splice "a\nb\r\nc" 2 7 (String.ofList (withReturns "x\n\ny\n".toList)) = .ok result ∧
      extract result 2 4 = "x\n\ny" := by
  refine ⟨by decide, ?_⟩
  obtain ⟨result, hresult, htext, hreturns, hread⟩ := @splice_range "b\r\n".toList "a\nb\r\nc" 2 7 "x\n\ny\n"
    (by decide) (by decide) (by decide) (by decide)
  exact ⟨result, hresult, htext.trans (by decide +kernel), hreturns, hread (by decide +kernel)⟩

end FixGate.Source
