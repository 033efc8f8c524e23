import FixGate.Proofs.Source.Splice
import FixGate.Proofs.Text.Encoding

/-!
# Lines above a replaced range

A line of a text above a range that is replaced stays where it is, with its terminator, whatever replaces the range,
and it is read there again after the result was written. A line of the range, or below it, is not safe: some
replacement puts other text in its place.

* `Source.lineAt` : a line of a text, with its terminator
* `Source.exists_splice_head` : what stands above a range is not touched
* `Source.lineAt_decode_encode_splice` : a line above a range is read again
* `Source.lineAt_splice_iff` : the lines that stay whatever replaces a range are those above it
-/

namespace FixGate.Source

open Text

variable {cs rest line : List Char} {ls : List (List Char)} {content x y : String} {first last n : Int} {s e j : Nat}

/-- Line `n` of a text, counted from one, with its terminator. -/
def lineAt (content : String) (n : Int) : Option (List Char) :=
  if n < 1 then none else (linesOf content.toList)[(n - 1).toNat]?

/-! ## Lines above the range -/

/-- A line is found among the first lines of a text if there are as many. -/
theorem lineAt_of_head (closed : ∀ l ∈ ls, Closed l) (hx : x.toList = ls.flatten ++ rest) (hn : n ≤ ls.length) :
    lineAt x n = if n < 1 then none else ls[(n - 1).toNat]? := by
  unfold lineAt
  rw [hx, linesOf_flatten_append closed]
  split_ifs with low
  · rfl
  · rw [List.getElem?_append_left (by omega)]

/-- A range that starts at a line of a text is replaced by something, and what stands above it is not touched. -/
theorem exists_splice_head (low : 1 ≤ first) (inside : first ≤ (linesOf content.toList).length) {code : String}
    (hy : splice content first last code = .ok y) :
    ∃ rest, y.toList = ((linesOf content.toList).take (first.toNat - 1)).flatten ++ rest := by
  obtain ⟨k, rfl⟩ := Int.eq_ofNat_of_zero_le (show 0 ≤ first by omega)
  have hs : k - 1 < (linesOf content.toList).length := by omega
  rw [splice_of_start low (by omega)] at hy
  obtain rfl := Except.ok.inj hy
  rw [String.toList_ofList, Int.toNat_natCast]
  unfold spliceLines
  simp only [spanTo_pred (show 1 ≤ k by omega)]
  -- all lines above the range are terminated, as one of the text follows them
  cases hhead : ((linesOf content.toList).take (k - 1)).getLast? with
  | none =>
    simp only [Bool.and_false, Bool.false_eq_true, if_false, List.append_assoc, List.flatten_append]
    exact ⟨_, rfl⟩
  | some l =>
    have closed : Closed l := closed_of_mem_take hs (List.mem_of_getLast? hhead)
    simp only [terminated_of_closed closed, Bool.not_true, Bool.and_false, Bool.false_eq_true, if_false,
      List.append_assoc, List.flatten_append]
    exact ⟨_, rfl⟩

/-- The lines above a range are the first lines of the text. -/
theorem flatten_take_append (cs : List Char) (k : Nat) :
    cs = ((linesOf cs).take k).flatten ++ ((linesOf cs).drop k).flatten := by
  rw [← List.flatten_append, List.take_append_drop, flatten_linesOf]

theorem length_take_pred (low : 1 ≤ first) (inside : first ≤ (linesOf content.toList).length) :
    (((linesOf content.toList).take (first.toNat - 1)).length : Int) = first - 1 := by
  rw [List.length_take]
  omega

/-- A line above a range stays where it is, whatever replaces the range. -/
theorem lineAt_splice (low : 1 ≤ first) (inside : first ≤ (linesOf content.toList).length) (above : n < first)
    {code : String} (hy : splice content first last code = .ok y) : lineAt y n = lineAt content n := by
  have closed : ∀ l ∈ (linesOf content.toList).take (first.toNat - 1), Closed l := fun l hl =>
    closed_of_mem_take (by omega) hl
  have hcount := length_take_pred low inside
  obtain ⟨rest, hrest⟩ := exists_splice_head low inside hy
  rw [lineAt_of_head closed hrest (by omega), lineAt_of_head closed (flatten_take_append _ _) (by omega)]

/-- Closed lines at the beginning of a text that was read stand for characters, too. -/
theorem isKept_flatten (kept : Utf8.IsKept (ls.flatten ++ rest)) (closed : ∀ l ∈ ls, Closed l) :
    Utf8.IsKept ls.flatten := by
  apply kept.of_feed
  rcases List.eq_nil_or_concat ls with rfl | ⟨before, l, rfl⟩
  · exact .inl rfl
  · obtain ⟨p, -, rfl⟩ := closed l (by simp)
    exact .inr (by simp)

/-- A line above a range of a text that was read is read again after the range was replaced. -/
theorem lineAt_decode_encode_splice (kept : Utf8.IsKept content.toList) (low : 1 ≤ first)
    (inside : first ≤ (linesOf content.toList).length) (above : n < first) {code : String}
    (hy : splice content first last code = .ok y) : lineAt (decode (Utf8.encode y)) n = lineAt content n := by
  have closed : ∀ l ∈ (linesOf content.toList).take (first.toNat - 1), Closed l := fun l hl =>
    closed_of_mem_take (by omega) hl
  have hcount := length_take_pred low inside
  obtain ⟨rest, hrest⟩ := exists_splice_head low inside hy
  have keptHead := isKept_flatten (flatten_take_append content.toList (first.toNat - 1) ▸ kept) closed
  have hread : (decode (Utf8.encode y)).toList = ((linesOf content.toList).take (first.toNat - 1)).flatten ++
      (Utf8.decodeDropping (Utf8.encode (String.ofList rest))).toList := by
    rw [← String.ofList_toList (s := y), hrest, decode, keptHead.decodeDropping_encode, String.toList_ofList]
  rw [lineAt_of_head closed hread (by omega), lineAt_of_head closed (flatten_take_append _ _) (by omega)]

/-! ## Lines of the range, and below it -/

/-- Lines that are ended by line feeds. -/
def fed (ps : List (List Char)) : List Char :=
  (ps.map (· ++ ['\n'])).flatten

theorem lineTexts_fed {ps : List (List Char)} (feed : ∀ p ∈ ps, '\n' ∉ p) : lineTexts (fed ps) = ps := by
  have closed : ∀ l ∈ ps.map (· ++ ['\n']), Closed l := by
    intro l hl
    obtain ⟨p, hp, rfl⟩ := List.mem_map.1 hl
    exact ⟨p, feed p hp, rfl⟩
  have same : ∀ p ∈ ps, (dropEnd '\n' ∘ (· ++ ['\n'])) p = p := fun p _ => dropEnd_concat '\n' p
  have hlines := linesOf_flatten_append closed []
  rw [List.append_nil] at hlines
  unfold fed
  rw [← map_dropEnd_linesOf, hlines, linesOf, List.append_nil, List.map_map, List.map_congr_left same, List.map_id']

/-- What replaces a range can be read back where it was put, line by line. -/
theorem lineAt_splice_of_lineTexts (start : 1 ≤ s) (order : s ≤ e)
    (hline : (linesOf content.toList)[s - 1]? = some line) {code : String} (returns : '\r' ∉ code.toList)
    (filled : (lineTexts code.toList).getLast? ≠ some []) (hj : j < (lineTexts code.toList).length)
    (hy : splice content s e code = .ok y) : (lineAt y (s + j)).map bare = (lineTexts code.toList)[j]? := by
  obtain ⟨hs, -⟩ := List.getElem?_eq_some_iff.1 hline
  have clean : ∀ p ∈ lineTexts code.toList, '\n' ∉ p ∧ '\r' ∉ p := fun p hp => clean_of_mem_lineTexts returns hp
  have closed : ∀ l ∈ (linesOf content.toList).take (s - 1), Closed l := fun l hl => closed_of_mem_take hs hl
  have ends : OpenEnd content.toList e → (linesOf content.toList).drop e = [] := fun h => List.drop_eq_nil_of_le h.1
  have hread := map_bare_closing clean line (OpenEnd content.toList e)
  have hcount := congrArg List.length hread
  rw [List.length_map] at hcount
  have hlines : linesOf y.toList = (linesOf content.toList).take (s - 1) ++
      (closing (terminator line) (lineTexts code.toList) (OpenEnd content.toList e) ++
        (linesOf content.toList).drop e) := by
    rw [splice_of_start (by omega) (by omega)] at hy
    rw [← Except.ok.inj hy, String.toList_ofList, spliceLines_eq start order hline, bare_pieces returns,
      List.append_assoc, List.flatten_append, List.flatten_append, linesOf_flatten_append closed,
      linesOf_closing clean line ends (fun h => filled h.2) (linesOf_flatten_drop _ e)]
  have hplace : ((s : Int) + j - 1).toNat = s - 1 + j := by omega
  have hbefore : ((linesOf content.toList).take (s - 1)).length = s - 1 := by
    rw [List.length_take]
    omega
  unfold lineAt
  rw [if_neg (by omega), hlines, hplace, List.getElem?_append_right (by omega), hbefore, Nat.add_sub_cancel_left,
    List.getElem?_append_left (by omega), ← List.getElem?_map, hread]

/-- A character on a line of its own, so many lines below the first. -/
def lowered (c : Char) (j : Nat) : List (List Char) :=
  List.replicate j [] ++ [[c]]

/-- A range can be replaced so that the text of any line from its first one on is some character. -/
theorem exists_lineAt_splice (start : 1 ≤ s) (order : s ≤ e) (hline : (linesOf content.toList)[s - 1]? = some line)
    {c : Char} (feed : c ≠ '\n') (returns : c ≠ '\r') (j : Nat) :
    ∃ code y, splice content s e code = .ok y ∧ (lineAt y (s + j)).map bare = some [c] := by
  obtain ⟨hs, -⟩ := List.getElem?_eq_some_iff.1 hline
  have inner : ∀ p ∈ lowered c j, p = [] ∨ p = [c] := by
    intro p hp
    simp only [lowered, List.mem_append, List.mem_replicate, List.mem_singleton] at hp
    exact hp.imp_left And.right
  have htexts : lineTexts (String.ofList (fed (lowered c j))).toList = lowered c j := by
    rw [String.toList_ofList]
    apply lineTexts_fed
    intro p hp
    rcases inner p hp with rfl | rfl
    · exact List.not_mem_nil
    · simpa using feed.symm
  have clean : '\r' ∉ (String.ofList (fed (lowered c j))).toList := by
    rw [String.toList_ofList]
    intro hmem
    obtain ⟨l, hl, hreturn⟩ := List.mem_flatten.1 hmem
    obtain ⟨p, hp, rfl⟩ := List.mem_map.1 hl
    rcases inner p hp with rfl | rfl
    · simp at hreturn
    · simp [returns.symm] at hreturn
  obtain ⟨y, hy⟩ : ∃ y, splice content s e (String.ofList (fed (lowered c j))) = .ok y :=
    ⟨_, splice_of_start (by omega) (by omega) _ _⟩
  have filled : (lineTexts (String.ofList (fed (lowered c j))).toList).getLast? ≠ some [] := by
    rw [htexts, lowered, List.getLast?_concat]
    simp
  have hj : j < (lineTexts (String.ofList (fed (lowered c j))).toList).length := by
    rw [htexts, lowered, List.length_append, List.length_replicate]
    exact Nat.lt_succ_self j
  refine ⟨_, y, hy, ?_⟩
  rw [lineAt_splice_of_lineTexts start order hline clean filled hj hy, htexts]
  simp [lowered]

/-- **The lines that stay.** Exactly the lines above a range are the same whatever replaces it. -/
theorem lineAt_splice_iff (low : 1 ≤ first) (order : first ≤ last)
    (inside : first ≤ (linesOf content.toList).length) (n : Int) :
    (∀ code y, splice content first last code = .ok y → lineAt y n = lineAt content n) ↔ n < first := by
  refine ⟨fun stays => ?_, fun above code y hy => lineAt_splice low inside above hy⟩
  by_contra inRange
  obtain ⟨k, rfl⟩ := Int.eq_ofNat_of_zero_le (show 0 ≤ first by omega)
  obtain ⟨m, rfl⟩ := Int.eq_ofNat_of_zero_le (show 0 ≤ last by omega)
  obtain ⟨line, hline⟩ : ∃ line, (linesOf content.toList)[k - 1]? = some line :=
    ⟨_, List.getElem?_eq_getElem (by omega)⟩
  obtain ⟨j, hj⟩ := Int.le.dest (not_lt.1 inRange)
  -- two replacements put different texts there, and the line has one text
  have put {c : Char} (feed : c ≠ '\n') (returns : c ≠ '\r') : (lineAt content n).map bare = some [c] := by
    obtain ⟨code, y, hy, hc⟩ := exists_lineAt_splice (show 1 ≤ k by omega) (show k ≤ m by omega) hline feed returns j
    rw [← stays code y hy, ← hj]
    exact hc
  have first := put (c := 'a') (by decide) (by decide)
  have second := put (c := 'b') (by decide) (by decide)
  rw [first] at second
  exact absurd second (by decide)

end FixGate.Source
