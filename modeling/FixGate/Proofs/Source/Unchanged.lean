import FixGate.Proofs.Source.Splice

/-!
# Code put back as it was taken

The code of a range of lines is put back where it was taken from. Where no line ends in a carriage return this gives
the text again, unless the range ends with a line that holds nothing but its line feed: the code then ends with a line
feed, and as nothing after a last line feed counts as a line, the blank line is lost. So the window of a finding is
put back unchanged exactly where its last line is not blank.

* `Source.openEnd_iff_not_closed` : an open end is a last line without a line feed
* `Source.spliceLines_extractChars` : the lines when a range is put back
* `Source.splice_extract_iff` : where a range and a window are put back unchanged
-/

namespace FixGate.Source

variable {cs l line last : List Char} {ms : List (List Char)} {content : String} {ctx : Context} {s e : Nat}

/-! ## Lines without carriage returns -/

theorem terminator_of_not_mem (returns : '\r' ∉ line) : terminator line = ['\n'] := by
  unfold terminator
  rw [if_neg]
  intro h
  have hsuffix : ['\r', '\n'] <:+ line := List.isSuffixOf_iff_suffix.1 h
  exact returns (hsuffix.subset List.mem_cons_self)

theorem bare_append_feed (returns : '\r' ∉ l) (closed : Closed l) : bare l ++ ['\n'] = l := by
  obtain ⟨p, -, rfl⟩ := closed
  rw [bare_concat_feed fun h => returns (by simp [h])]

/-- Only a blank line has no text. -/
theorem bare_eq_nil_iff (returns : '\r' ∉ l) (hl : l ∈ linesOf cs) : bare l = [] ↔ l = ['\n'] := by
  rcases closed_or_open hl with closed | feed
  · have hback := bare_append_feed returns closed
    constructor
    · intro hnil
      rw [hnil] at hback
      exact hback.symm
    · rintro rfl
      rfl
  · have hne : l ≠ ['\n'] := by
      rintro rfl
      exact feed List.mem_cons_self
    rw [bare_of_not_mem feed returns]
    exact ⟨fun hnil => absurd hnil (ne_nil_of_mem_linesOf hl), fun h => absurd h hne⟩

/-- Where a range ends with the last line of the text, its end is open exactly where this line has no line feed. -/
theorem openEnd_iff_not_closed (low : 1 ≤ e) (hlast : (linesOf cs)[e - 1]? = some last) :
    OpenEnd cs e ↔ ¬ Closed last := by
  obtain ⟨he, -⟩ := List.getElem?_eq_some_iff.1 hlast
  by_cases hend : e < (linesOf cs).length
  · have closed : Closed last := by
      apply closed_of_mem_take hend
      rw [List.mem_iff_getElem?]
      exact ⟨e - 1, by rw [List.getElem?_take_of_lt (by omega), hlast]⟩
    have inside : ¬ (linesOf cs).length ≤ e := by omega
    simp [OpenEnd, closed, inside]
  · have hnumber : e = (linesOf cs).length := by omega
    have hwhole : (linesOf cs).getLast? = some last := by rw [List.getLast?_eq_getElem?, ← hnumber, hlast]
    unfold OpenEnd
    rw [← getLast?_linesOf hwhole]
    refine ⟨fun h closed => ?_, fun isOpen => ⟨by omega, fun hfeed => ?_⟩⟩
    · obtain ⟨p, -, rfl⟩ := closed
      exact h.2 List.getLast?_concat
    · rcases closed_or_open (List.mem_of_getElem? hlast) with closed | feed
      · exact isOpen closed
      · exact feed (List.mem_of_getLast? hfeed)

/-! ## A range put back -/

theorem exists_line {lines : List (List Char)} {n : Nat} (hn : n < lines.length) : ∃ line, lines[n]? = some line :=
  ⟨_, List.getElem?_eq_getElem hn⟩

/-- From line `e` on there are it and those after it. -/
theorem drop_pred {lines : List (List Char)} (low : 1 ≤ e) (hlast : lines[e - 1]? = some last) :
    lines.drop (e - 1) = last :: lines.drop e := by
  obtain ⟨he, hlast⟩ := List.getElem?_eq_some_iff.1 hlast
  rw [List.drop_eq_getElem_cons he, hlast, Nat.sub_add_cancel low]

/-- The lines up to the last one of a range are those before it, and it. -/
theorem take_drop_eq_concat (start : 1 ≤ s) (order : s ≤ e) (hlast : (linesOf cs)[e - 1]? = some last) :
    ((linesOf cs).take e).drop (s - 1) = ((linesOf cs).take (e - 1)).drop (s - 1) ++ [last] := by
  obtain ⟨he, -⟩ := List.getElem?_eq_some_iff.1 hlast
  have htake : (linesOf cs).take e = (linesOf cs).take (e - 1) ++ [last] := by
    have hpred : e = e - 1 + 1 := by omega
    rw [hpred, List.take_add_one, Nat.add_sub_cancel, hlast, Option.toList_some]
  rw [htake, List.drop_append_of_le_length]
  rw [List.length_take]
  omega

/-- The texts that are put back: those of the lines that were taken, but for a blank last one. -/
theorem lineTexts_extractChars (start : 1 ≤ s) (order : s ≤ e) (hlast : (linesOf cs)[e - 1]? = some last) :
    lineTexts (extractChars cs s e) =
      (((linesOf cs).take (e - 1)).drop (s - 1)).map bare ++ if bare last = [] then [] else [bare last] := by
  have hspan : span (linesOf cs) ((s : Int) - 1) e = ((linesOf cs).take (e - 1)).drop (s - 1) ++ [last] := by
    rw [span_pred start, take_drop_eq_concat start order hlast]
  have filled : span (linesOf cs) ((s : Int) - 1) e ≠ [] := by simp [hspan]
  unfold lineTexts withoutEmptyEnd
  rw [splitOn_extractChars filled, hspan, List.map_append, List.map_singleton, List.getLast?_concat,
    List.dropLast_concat]
  by_cases hblank : bare last = []
  · simp [hblank]
  · simp [hblank]

theorem mem_of_mem_intercalate {sep : List Char} {ls : List (List Char)} {c : Char} (hc : c ∈ sep.intercalate ls) :
    c ∈ sep ∨ ∃ l ∈ ls, c ∈ l := by
  induction ls with
  | nil => cases hc
  | cons l ls ih =>
    by_cases hls : ls = []
    · rw [hls, List.intercalate_singleton] at hc
      exact .inr ⟨l, List.mem_cons_self, hc⟩
    · rw [List.intercalate_cons_of_ne_nil hls, List.mem_append, List.mem_append] at hc
      rcases hc with (hc | hc) | hc
      · exact .inr ⟨l, List.mem_cons_self, hc⟩
      · exact .inl hc
      · rcases ih hc with hsep | ⟨k, hk, hck⟩
        · exact .inl hsep
        · exact .inr ⟨k, List.mem_cons_of_mem l hk, hck⟩

/-- The code of a range holds no carriage return that is not in the text. -/
theorem returns_not_mem_extractChars (returns : '\r' ∉ cs) (first stop : Int) : '\r' ∉ extractChars cs first stop := by
  intro h
  unfold extractChars at h
  rcases mem_of_mem_intercalate h with hsep | ⟨p, hp, hreturn⟩
  · simp at hsep
  · obtain ⟨l, hl, rfl⟩ := List.mem_map.1 hp
    have held : l ∈ linesOf cs := List.mem_of_mem_take (List.mem_of_mem_drop hl)
    exact returns (mem_of_mem_linesOf held (mem_of_mem_dropEnd (mem_of_mem_dropEnd hreturn)))

/-- Closed lines without carriage returns are written as they were. -/
theorem map_bare_append_terminator (clean : ∀ l ∈ ms, '\r' ∉ l ∧ Closed l) (returns : '\r' ∉ line) :
    (ms.map bare).map (· ++ terminator line) = ms := by
  have same : ∀ l ∈ ms, ((· ++ terminator line) ∘ bare) l = l := by
    intro l hl
    show bare l ++ terminator line = l
    rw [terminator_of_not_mem returns, bare_append_feed (clean l hl).1 (clean l hl).2]
  rw [List.map_map, List.map_congr_left same, List.map_id']

/-- Lines without carriage returns are written as they were, the last of them with its line feed or without. -/
theorem closing_map_bare {isOpen : Prop} [Decidable isOpen] (clean : ∀ l ∈ ms, '\r' ∉ l ∧ Closed l)
    (returns : '\r' ∉ line) (hreturns : '\r' ∉ last) (hlast : last ∈ linesOf cs) (hopen : isOpen ↔ ¬ Closed last) :
    closing (terminator line) (ms.map bare ++ [bare last]) isOpen = ms ++ [last] := by
  by_cases closed : Closed last
  · have all : ∀ l ∈ ms ++ [last], '\r' ∉ l ∧ Closed l := by
      intro l hl
      rcases List.mem_append.1 hl with hl | hl
      · exact clean l hl
      · obtain rfl := List.mem_singleton.1 hl
        exact ⟨hreturns, closed⟩
    have notOpen : ¬ isOpen := fun h => hopen.1 h closed
    rw [closing_of_not_open notOpen, ← List.map_singleton, ← List.map_append, map_bare_append_terminator all returns]
  · have feed : '\n' ∉ last := (closed_or_open hlast).resolve_left closed
    rw [bare_of_not_mem feed hreturns, closing_concat (hopen.2 closed) hreturns,
      map_bare_append_terminator clean returns]

/-- When the code of a range is put back, the lines are those of the text, but for a blank last one of the range. -/
theorem spliceLines_extractChars (returns : '\r' ∉ cs) (start : 1 ≤ s) (order : s ≤ e)
    (hlast : (linesOf cs)[e - 1]? = some last) :
    spliceLines (linesOf cs) s e (extractChars cs s e) =
      (linesOf cs).take (e - 1) ++ ((if last = ['\n'] then [] else [last]) ++ (linesOf cs).drop e) := by
  obtain ⟨he, -⟩ := List.getElem?_eq_some_iff.1 hlast
  have held : last ∈ linesOf cs := List.mem_of_getElem? hlast
  have clean : ∀ l ∈ linesOf cs, '\r' ∉ l := fun l hl h => returns (mem_of_mem_linesOf hl h)
  obtain ⟨line, hline⟩ := exists_line (by omega : s - 1 < (linesOf cs).length)
  have hreturns : '\r' ∉ line := clean line (List.mem_of_getElem? hline)
  have hhead : (linesOf cs).take (e - 1) = (linesOf cs).take (s - 1) ++ ((linesOf cs).take (e - 1)).drop (s - 1) := by
    have hshort : ((linesOf cs).take (e - 1)).take (s - 1) = (linesOf cs).take (s - 1) := by
      rw [List.take_take, Nat.min_eq_left (by omega)]
    rw [← hshort, List.take_append_drop]
  have hclosed : ∀ l ∈ ((linesOf cs).take (e - 1)).drop (s - 1), '\r' ∉ l ∧ Closed l := by
    intro l hl
    have hbefore : l ∈ (linesOf cs).take (e - 1) := List.mem_of_mem_drop hl
    exact ⟨clean l (List.mem_of_mem_take hbefore), closed_of_mem_take he hbefore⟩
  have hopen := openEnd_iff_not_closed (by omega) hlast
  have htexts := lineTexts_extractChars start order hlast
  rw [spliceLines_eq start order hline, bare_pieces (returns_not_mem_extractChars returns s e), hhead,
    List.append_assoc, List.append_assoc, List.append_cancel_left_eq, ← List.append_assoc, List.append_cancel_right_eq]
  by_cases hblank : last = ['\n']
  · have notOpen : ¬ OpenEnd cs e := fun h => hopen.1 h ⟨[], by simp, hblank⟩
    rw [if_pos ((bare_eq_nil_iff (clean last held) held).2 hblank), List.append_nil] at htexts
    rw [if_pos hblank, List.append_nil, htexts, closing_of_not_open notOpen,
      map_bare_append_terminator hclosed hreturns]
  · rw [if_neg fun h => hblank ((bare_eq_nil_iff (clean last held) held).1 h)] at htexts
    rw [if_neg hblank, htexts, closing_map_bare hclosed hreturns (clean last held) held hopen]

/-- The code of a range that ends with a blank line is put back without the line, and any other as it was. -/
theorem splice_extract (returns : '\r' ∉ content.toList) (start : 1 ≤ s) (order : s ≤ e)
    (hlast : (linesOf content.toList)[e - 1]? = some last) :
    splice content s e (extract content s e) = .ok (if last = ['\n']
      then String.ofList ((linesOf content.toList).take (e - 1) ++ (linesOf content.toList).drop e).flatten
      else content) := by
  obtain ⟨he, -⟩ := List.getElem?_eq_some_iff.1 hlast
  rw [splice_of_start (by omega) (by omega), extract, String.toList_ofList, spliceLines_extractChars returns start order hlast]
  by_cases hblank : last = ['\n']
  · rw [if_pos hblank, if_pos hblank, List.nil_append]
  · rw [if_neg hblank, if_neg hblank, List.singleton_append, ← drop_pred (by omega) hlast, List.take_append_drop,
      flatten_linesOf, String.ofList_toList]

/-! ## What is put back unchanged -/

/-- Line `e` of a text, counted from one, holds nothing but its line feed. -/
def BlankAt (content : String) (e : Nat) : Prop :=
  (linesOf content.toList)[e - 1]? = some ['\n']

/-- A text is not the same without one of its blank lines. -/
theorem ofList_without_blank_ne (low : 1 ≤ e) (blank : BlankAt content e) :
    String.ofList ((linesOf content.toList).take (e - 1) ++ (linesOf content.toList).drop e).flatten ≠ content := by
  intro h
  have hshort := congrArg (fun x : String => x.toList.length) h
  have hwhole : ((linesOf content.toList).take (e - 1) ++ (linesOf content.toList).drop (e - 1)).flatten.length =
      content.toList.length := by
    rw [List.take_append_drop, flatten_linesOf]
  rw [drop_pred low blank] at hwhole
  simp only [String.toList_ofList, List.flatten_append, List.flatten_cons, List.length_append, List.length_singleton]
    at hshort hwhole
  omega

/-- A range that is put back gives the text again exactly where it does not end with a blank line. -/
theorem exists_splice_extract (returns : '\r' ∉ content.toList) (start : 1 ≤ s) (order : s ≤ e)
    (stays : e ≤ (linesOf content.toList).length) :
    ∃ result, splice content s e (extract content s e) = .ok result ∧ (result = content ↔ ¬ BlankAt content e) ∧
      (BlankAt content e → result.toList =
        ((linesOf content.toList).take (e - 1) ++ (linesOf content.toList).drop e).flatten) := by
  obtain ⟨last, hlast⟩ := exists_line (by omega : e - 1 < (linesOf content.toList).length)
  have hblank : BlankAt content e ↔ last = ['\n'] := by
    rw [BlankAt, hlast, Option.some.injEq]
  refine ⟨_, splice_extract returns start order hlast, ?_, ?_⟩
  · by_cases blank : BlankAt content e
    · have hne := ofList_without_blank_ne (by omega) blank
      rw [if_pos (hblank.1 blank)]
      exact ⟨fun h => absurd h hne, fun h => absurd blank h⟩
    · rw [if_neg fun h => blank (hblank.2 h)]
      exact ⟨fun _ => blank, fun _ => rfl⟩
  · intro blank
    rw [if_pos (hblank.1 blank), String.toList_ofList]

/-- **Code put back unchanged.** In a text without carriage returns every range of lines can be put back where it was
taken. The result is the text exactly where the last line of the range is not blank, and otherwise the text without
that line. So it is with every window: there is one around each line of the text, and its code put back in its place
gives the text exactly where the last line of the window is not blank. -/
theorem splice_extract_iff (returns : '\r' ∉ content.toList) :
    (∀ s e : Nat, 1 ≤ s → s ≤ e → e ≤ (linesOf content.toList).length →
      ∃ result, splice content s e (extract content s e) = .ok result ∧ (result = content ↔ ¬ BlankAt content e) ∧
        (BlankAt content e → result.toList =
          ((linesOf content.toList).take (e - 1) ++ (linesOf content.toList).drop e).flatten)) ∧
    ∀ (ctx : Context) (file : Path) (line : Int), 0 ≤ ctx.before → 0 ≤ ctx.after → 1 ≤ line →
      line ≤ (linesOf content.toList).length →
      ∃ w result, windowOf ctx file content line = .ok w ∧ splice content w.first w.last w.code = .ok result ∧
        (result = content ↔ ¬ BlankAt content w.last.toNat) := by
  refine ⟨fun s e start order stays => exists_splice_extract returns start order stays, ?_⟩
  intro ctx file line before after low high
  obtain ⟨w, hw⟩ := exists_windowOf_of_line before after file low high
  obtain ⟨fits, -⟩ := fits_windowOf before after hw
  have hfirst := fits.first
  have horder := fits.order
  have hlast := fits.last
  have hs : (w.first.toNat : Int) = w.first := by omega
  have he : (w.last.toNat : Int) = w.last := by omega
  obtain ⟨result, hresult, hsame, -⟩ := exists_splice_extract (s := w.first.toNat) (e := w.last.toNat) returns
    (by omega) (by omega) (by omega)
  rw [hs, he, ← fits.code] at hresult
  exact ⟨w, result, hw, hresult, hsame⟩

/-- A blank line within a range, or one that the range leaves out, is kept. -/
theorem splice_extract_iff_inner_blank :
    '\r' ∉ "int x;\n\nint y;\n\n".toList ∧
    ∃ result, splice "int x;\n\nint y;\n\n" 1 3 (extract "int x;\n\nint y;\n\n" 1 3) = .ok result ∧
      result = "int x;\n\nint y;\n\n" := by
  refine ⟨by decide, ?_⟩
  obtain ⟨result, hresult, hsame, -⟩ := (@splice_extract_iff "int x;\n\nint y;\n\n" (by decide)).1 1 3 (by decide)
    (by decide) (by decide)
  refine ⟨result, hresult, hsame.2 ?_⟩
  unfold BlankAt
  decide

/-- The window of the first line ends with a blank line, which is lost when the code of the window is put back. -/
theorem not_splice_extract_blank_end :
    '\r' ∉ "int x;\n\n".toList ∧ (linesOf "int x;\n\n".toList).length = 2 ∧
    ∃ w, windowOf ⟨10, 20⟩ ⟨.here, ["a.c"]⟩ "int x;\n\n" 1 = .ok w ∧ w.first = 1 ∧ w.last = 2 ∧
      w.code = extract "int x;\n\n" 1 2 ∧ splice "int x;\n\n" 1 2 w.code = .ok "int x;\n" ∧
      "int x;\n" ≠ "int x;\n\n" := by
  have hwindow : (windowOf ⟨10, 20⟩ ⟨.here, ["a.c"]⟩ "int x;\n\n" 1).toOption.map (fun w => (w.first, w.last)) =
      some (1, 2) := by decide +kernel
  obtain ⟨w, hw⟩ := @exists_windowOf_of_line "int x;\n\n" ⟨10, 20⟩ 1 (by decide) (by decide) ⟨.here, ["a.c"]⟩
    (by decide) (by decide)
  have hcode := code_of_windowOf hw
  rw [hw] at hwindow
  obtain ⟨hfirst, hlast⟩ : w.first = 1 ∧ w.last = 2 := Prod.mk.inj (Option.some.inj hwindow)
  rw [hfirst, hlast] at hcode
  refine ⟨by decide, by decide, w, hw, hfirst, hlast, hcode, ?_, by decide⟩
  have hlost := @splice_extract ['\n'] "int x;\n\n" 1 2 (by decide) (by decide) (by decide) (by decide)
  rw [hcode]
  exact hlost

end FixGate.Source
