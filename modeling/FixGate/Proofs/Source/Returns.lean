import FixGate.Proofs.Source.Splice

/-!
# Line ends with carriage returns

In some texts a carriage return stands before every line feed. Code from a model has none, so what replaces lines of
such a text is given the line ends of the first line that is replaced. That line need not have one: the last line of a
text may lack it, and then the line feeds between the lines of the replacement are left alone.

* `Source.Returned` : every line feed has a carriage return before it
* `Source.returned_iff_lines` : the same, said of the lines
* `Source.returned_put` : when this is so after lines were put between others
* `Source.splice_returned_iff` : when a replacement leaves a text as it was in this respect
-/

namespace FixGate.Source

variable {cs ds l line : List Char} {ls ps : List (List Char)} {content : String} {s e : Nat}

/-! ## Texts with carriage returns -/

/-- Every line feed of a text has a carriage return before it. -/
def Returned (cs : List Char) : Prop :=
  ∀ before after, cs = before ++ '\n' :: after → before.getLast? = some '\r'

theorem returned_of_not_mem (feed : '\n' ∉ cs) : Returned cs := by
  rintro before after rfl
  exact absurd (by simp) feed

theorem getLast?_eq_return_iff {p : List Char} : p.getLast? = some '\r' ↔ ['\r', '\n'] <:+ p ++ ['\n'] := by
  constructor
  · intro hlast
    obtain ⟨before, rfl⟩ := List.getLast?_eq_some_iff.1 hlast
    exact ⟨before, by simp⟩
  · rintro ⟨before, hsplit⟩
    have hp : before ++ ['\r'] = p := List.append_cancel_right (by simpa using hsplit)
    rw [← hp, List.getLast?_concat]

/-- A line at the start of a text has its own line feed, and the other line feeds are those of the rest. -/
theorem returned_closed_append (closed : Closed l) :
    Returned (l ++ ds) ↔ ['\r', '\n'] <:+ l ∧ Returned ds := by
  obtain ⟨p, feed, rfl⟩ := closed
  rw [← getLast?_eq_return_iff]
  constructor
  · intro returned
    refine ⟨returned p ds (by simp), ?_⟩
    rintro before after rfl
    have hlast := returned (p ++ ['\n'] ++ before) after (by simp)
    cases before using List.reverseRecOn with
    | nil => simp at hlast
    | append_singleton before c =>
      rw [← List.append_assoc, List.getLast?_concat] at hlast
      rwa [List.getLast?_concat]
  · rintro ⟨hreturn, returned⟩ before after hsplit
    rcases List.append_eq_append_iff.1 hsplit with ⟨mid, rfl, hds⟩ | ⟨mid, hline, hrest⟩
    · have hmid := returned mid after hds
      rw [List.getLast?_append, hmid, Option.some_or]
    · -- the line feed is the one of the line, or the first character after it, which `returned` excludes
      rcases List.eq_nil_or_concat mid with rfl | ⟨mid, c, rfl⟩
      · have hnil := returned [] after (by simpa using hrest.symm)
        simp at hnil
      · rw [List.concat_eq_append, ← List.append_assoc] at hline
        obtain ⟨rfl, hc⟩ := List.append_inj' hline rfl
        cases mid with
        | nil => rwa [List.append_nil] at hreturn
        | cons d mid =>
          obtain ⟨rfl, -⟩ := List.cons.inj hrest
          exact absurd (by simp) feed

/-- Closed lines before a text. -/
theorem returned_flatten_append (closed : ∀ l ∈ ls, Closed l) :
    Returned (ls.flatten ++ ds) ↔ (∀ l ∈ ls, ['\r', '\n'] <:+ l) ∧ Returned ds := by
  induction ls with
  | nil => simp
  | cons l ls ih =>
    have first : Closed l := closed l List.mem_cons_self
    have later : ∀ k ∈ ls, Closed k := fun k hk => closed k (List.mem_cons_of_mem _ hk)
    rw [List.flatten_cons, List.append_assoc, returned_closed_append first, ih later, List.forall_mem_cons, and_assoc]

/-- Every line that is closed ends with a carriage return and a line feed. -/
theorem returned_iff_lines : Returned cs ↔ ∀ l ∈ linesOf cs, '\n' ∈ l → ['\r', '\n'] <:+ l := by
  obtain ⟨ls, rest, closed, feed, rfl, hlines⟩ := exists_cut cs
  have held : ∀ l ∈ ls, '\n' ∈ l := by
    intro l hl
    obtain ⟨p, -, rfl⟩ := closed l hl
    simp
  have hrest : ∀ l ∈ (if rest = [] then [] else [rest]), '\n' ∉ l := by
    intro l hl
    by_cases hnil : rest = []
    · simp [hnil] at hl
    · simp only [hnil, if_false, List.mem_singleton] at hl
      exact hl ▸ feed
  rw [returned_flatten_append closed, hlines, and_iff_left (returned_of_not_mem feed)]
  constructor
  · intro returned l hl hfeed
    rcases List.mem_append.1 hl with hl | hl
    · exact returned l hl
    · exact absurd hfeed (hrest l hl)
  · exact fun returned l hl => returned l (List.mem_append_left _ hl) (held l hl)

instance (cs : List Char) : Decidable (Returned cs) :=
  decidable_of_iff (∀ l ∈ linesOf cs, '\n' ∈ l → ['\r', '\n'] <:+ l) returned_iff_lines.symm

/-- What stands before a line and what stands from a later line on. -/
theorem Returned.around (returned : Returned cs) (hs : s < (linesOf cs).length) :
    (∀ l ∈ (linesOf cs).take s, ['\r', '\n'] <:+ l) ∧ Returned ((linesOf cs).drop e).flatten := by
  refine ⟨?_, ?_⟩
  · intro l hl
    obtain ⟨p, -, rfl⟩ := closed_of_mem_take hs hl
    exact returned_iff_lines.1 returned _ (List.mem_of_mem_take hl) (by simp)
  · rw [returned_iff_lines, linesOf_flatten_drop]
    exact fun l hl => returned_iff_lines.1 returned l (List.mem_of_mem_drop hl)

/-! ## Lines that are put -/

theorem terminator_of_returned (hline : ['\r', '\n'] <:+ line) : terminator line = ['\r', '\n'] := by
  unfold terminator
  rw [if_pos (List.isSuffixOf_iff_suffix.2 hline)]

theorem terminator_of_open (feed : '\n' ∉ line) : terminator line = ['\n'] := by
  unfold terminator
  rw [if_neg]
  intro hsuffix
  exact feed ((List.isSuffixOf_iff_suffix.1 hsuffix).subset (by simp))

/-- Lines with carriage returns after each, put before a text that has them. -/
theorem returned_put (clean : ∀ p ∈ ps, '\n' ∉ p ∧ '\r' ∉ p) (hline : ['\r', '\n'] <:+ line) {isOpen : Prop}
    [Decidable isOpen] (ends : isOpen → ds = []) (returned : Returned ds) :
    Returned ((closing (terminator line) ps isOpen).flatten ++ ds) := by
  have hterm := terminator_of_returned hline
  have whole : ∀ qs : List (List Char), (∀ q ∈ qs, '\n' ∉ q) → ∀ ds : List Char, Returned ds →
      Returned ((qs.map (· ++ terminator line)).flatten ++ ds) := by
    intro qs feed ds returned
    rw [returned_flatten_append]
    · refine ⟨?_, returned⟩
      simp only [List.mem_map, forall_exists_index, and_imp, forall_apply_eq_imp_iff₂, hterm]
      exact fun q _ => List.suffix_append q _
    · intro l hl
      obtain ⟨q, hq, rfl⟩ := List.mem_map.1 hl
      exact closed_append_terminator (feed q hq) line
  by_cases hopen : isOpen
  · obtain rfl := ends hopen
    rcases List.eq_nil_or_concat ps with rfl | ⟨qs, q, rfl⟩
    · rw [closing_nil]
      exact returned
    · rw [List.concat_eq_append] at clean ⊢
      obtain ⟨feed, returns⟩ := clean q (by simp)
      rw [closing_concat hopen returns, List.flatten_append, List.flatten_singleton, List.append_nil]
      exact whole qs (fun k hk => (clean k (by simp [hk])).1) q (returned_of_not_mem feed)
  · rw [closing_of_not_open hopen]
    exact whole ps (fun p hp => (clean p hp).1) ds returned

/-- Lines with line feeds alone between them: there is one as soon as there are two lines. -/
theorem returned_put_open_iff (clean : ∀ p ∈ ps, '\n' ∉ p ∧ '\r' ∉ p) (feed : '\n' ∉ line) {isOpen : Prop}
    [Decidable isOpen] (hopen : isOpen) :
    Returned (closing (terminator line) ps isOpen).flatten ↔ ps.length ≤ 1 := by
  rcases List.eq_nil_or_concat ps with rfl | ⟨qs, q, rfl⟩
  · rw [closing_nil]
    exact iff_of_true (returned_of_not_mem (by simp)) (by simp)
  · rw [List.concat_eq_append] at clean ⊢
    obtain ⟨feed', returns⟩ := clean q (by simp)
    rw [closing_concat hopen returns, List.flatten_append, List.flatten_singleton, terminator_of_open feed]
    have closed : ∀ l ∈ qs.map (· ++ ['\n']), Closed l := by
      intro l hl
      obtain ⟨p, hp, rfl⟩ := List.mem_map.1 hl
      exact ⟨p, (clean p (by simp [hp])).1, rfl⟩
    rw [returned_flatten_append closed, and_iff_left (returned_of_not_mem feed')]
    cases qs with
    | nil => simp
    | cons p qs =>
      refine iff_of_false ?_ (by simp)
      intro all
      have hlast := getLast?_eq_return_iff.2 (all _ (List.mem_map_of_mem List.mem_cons_self))
      exact (clean p (by simp)).2 (List.mem_of_getLast? hlast)

/-! ## The result of a replacement -/

/-- A line without a line feed is the last one, and the text has none at its end. -/
theorem openEnd_of_open (start : 1 ≤ s) (order : s ≤ e) (hline : (linesOf cs)[s - 1]? = some line)
    (feed : '\n' ∉ line) : OpenEnd cs e := by
  obtain ⟨hs, rfl⟩ := List.getElem?_eq_some_iff.1 hline
  have hlast : s = (linesOf cs).length := by
    by_contra hne
    have later : s < (linesOf cs).length := by omega
    obtain ⟨p, -, hp⟩ := closed_of_mem_take later (List.mem_take_iff_getElem.2 ⟨s - 1, by omega, rfl⟩)
    exact feed (by rw [hp]; simp)
  refine ⟨by omega, fun hfeed => feed ?_⟩
  have hwhole : (linesOf cs).getLast? = some (linesOf cs)[s - 1] := by
    rw [List.getLast?_eq_getElem?, ← hlast, hline]
  exact List.mem_of_getLast? ((getLast?_linesOf hwhole).trans hfeed)

/-- **When line ends with carriage returns stay.** Let every line feed of a text have a carriage return before it, and
replace lines of it, the first of them line `s`, by code without carriage returns. Then there is a result, and its line
feeds have carriage returns before them exactly if line `s` has a line feed or the code is at most one line: from the
last line of a text that does not end with a line feed no line end can be taken, and the one that is put between the
lines of the code is a line feed alone. -/
theorem splice_returned_iff {code : String} (returned : Returned content.toList) (start : 1 ≤ s) (order : s ≤ e)
    (hline : (linesOf content.toList)[s - 1]? = some line) (returns : '\r' ∉ code.toList) :
    ∃ result, splice content s e code = .ok result ∧
      (Returned result.toList ↔ '\n' ∈ line ∨ (linesOf code.toList).length ≤ 1) := by
  obtain ⟨hs, -⟩ := List.getElem?_eq_some_iff.1 hline
  have low : 1 ≤ (s : Int) := by omega
  have high : (s : Int) ≤ (linesOf content.toList).length + 1 := by omega
  refine ⟨_, splice_of_start low high e code, ?_⟩
  have clean : ∀ p ∈ lineTexts code.toList, '\n' ∉ p ∧ '\r' ∉ p := fun p hp => clean_of_mem_lineTexts returns hp
  obtain ⟨hhead, htail⟩ := returned.around (e := e) hs
  have closed : ∀ l ∈ (linesOf content.toList).take (s - 1), Closed l := fun l hl => closed_of_mem_take hs hl
  have ends : OpenEnd content.toList e → ((linesOf content.toList).drop e).flatten = [] := by
    intro hopen
    rw [List.drop_eq_nil_of_le hopen.1, List.flatten_nil]
  rw [String.toList_ofList, spliceLines_eq start order hline, bare_pieces returns, List.append_assoc,
    List.flatten_append, List.flatten_append, returned_flatten_append closed, and_iff_right hhead]
  by_cases hfeed : '\n' ∈ line
  · have hreturn := returned_iff_lines.1 returned line (List.mem_of_getElem? hline) hfeed
    exact iff_of_true (returned_put clean hreturn ends htail) (.inl hfeed)
  · have hopen := openEnd_of_open start order hline hfeed
    have hcount : (lineTexts code.toList).length = (linesOf code.toList).length := by
      rw [← map_dropEnd_linesOf, List.length_map]
    rw [ends hopen, List.append_nil, returned_put_open_iff clean hfeed hopen, hcount]
    simp only [hfeed, false_or]

/-- Both lines of a text without a line feed at its end are replaced: the line end of the first is used. -/
theorem splice_returned_from_first_line :
    Returned "a\r\nb".toList ∧ '\r' ∉ "x\ny".toList ∧
    ∃ result, splice "a\r\nb" 1 2 "x\ny" = .ok result ∧
      (Returned result.toList ↔ '\n' ∈ "a\r\n".toList ∨ (linesOf "x\ny".toList).length ≤ 1) :=
  ⟨by decide, by decide, splice_returned_iff (s := 1) (e := 2) (by decide) (by decide) (by decide) rfl (by decide)⟩

/-- The last line alone is replaced by two: the line feed between them has no carriage return before it. -/
theorem not_returned_after_last_line :
    Returned "a\r\nb".toList ∧ '\r' ∉ "x\ny".toList ∧ (linesOf "a\r\nb".toList).length = 2 ∧
    ∃ result, splice "a\r\nb" 2 2 "x\ny" = .ok result ∧ ¬ Returned result.toList :=
  ⟨by decide, by decide, by decide, "a\r\nx\ny", by rfl, by decide⟩

end FixGate.Source
