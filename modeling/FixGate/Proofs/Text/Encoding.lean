import FixGate.Issue.Basic
import FixGate.Proofs.Text.Utf8
import Mathlib.Data.Nat.Digits.Defs

/-!
# The bytes of a text are a text

A text that was written can be read again, however strictly. It has bytes exactly if no half of a pair is among
its code points, and text around it that is ASCII changes nothing about that, so a fingerprint can be derived
wherever the name of the file has bytes.

* `Text.Utf8.segments_encodeChar` : the bytes of a character are read as this character
* `Text.Utf8.exists_decodeStrict_encode` : the bytes of a text are a text
* `Text.Utf8.checkText_eq_ok_iff` : a text has bytes if no code point is a half
* `Text.Utf8.checkText_between_iff` : ASCII characters around it change nothing about that
* `Text.Utf8.IsKept.decodeDropping_encode` : a text that was read is read again, whatever is written behind it
* `Issue.checkFingerprint_eq_ok_iff` : the fingerprint of a finding can be derived if the name of its file has bytes
-/

namespace FixGate

namespace Text.Utf8

variable {a b c d : UInt8} {rest : List UInt8} {bits : Nat} {x : String} {as bs cs ds : List Char} {n : Nat}

/-! ## Reading what was written -/

/-- Behind a character that was begun, its last byte completes it. -/
theorem segmentsFrom_last (hb : 0x80 ≤ b.toNat) (hb' : b.toNat ≤ 0xbf) :
    segmentsFrom (some ⟨1, 0x80, 0xbf, bits⟩) (b :: rest) =
      some (Char.ofNat (bits * 64 + (b.toNat - 0x80))) :: segmentsFrom none rest := by
  simp only [segmentsFrom, hb, hb', decide_true, Bool.and_self, if_true, Nat.le_refl]

/-- An inner byte adds its bits. -/
theorem segmentsFrom_inner {owed least greatest : Nat} (hb : least ≤ b.toNat) (hb' : b.toNat ≤ greatest) :
    segmentsFrom (some ⟨owed + 2, least, greatest, bits⟩) (b :: rest) =
      segmentsFrom (some ⟨owed + 1, 0x80, 0xbf, bits * 64 + (b.toNat - 0x80)⟩) rest := by
  have more : ¬ owed + 2 ≤ 1 := by omega
  simp only [segmentsFrom, hb, hb', decide_true, Bool.and_self, if_true, more, if_false]
  rfl

theorem segmentsFrom_two (ha : 0xc2 ≤ a.toNat) (ha' : a.toNat < 0xe0) (hb : 0x80 ≤ b.toNat) (hb' : b.toNat ≤ 0xbf) :
    segmentsFrom none (a :: b :: rest) =
      some (Char.ofNat ((a.toNat - 0xc0) * 64 + (b.toNat - 0x80))) :: segmentsFrom none rest := by
  have hlead : lead a = .start ⟨1, 0x80, 0xbf, a.toNat - 0xc0⟩ := by
    unfold lead
    simp only
    rw [if_neg (by omega), if_neg (by omega), if_pos ha']
  rw [segmentsFrom, hlead]
  exact segmentsFrom_last hb hb'

theorem segmentsFrom_three (ha : 0xe0 ≤ a.toNat) (ha' : a.toNat < 0xf0) (hb : 0x80 ≤ b.toNat) (hb' : b.toNat ≤ 0xbf)
    (hc : 0x80 ≤ c.toNat) (hc' : c.toNat ≤ 0xbf) (long : a.toNat = 0xe0 → 0xa0 ≤ b.toNat)
    (whole : a.toNat = 0xed → b.toNat ≤ 0x9f) :
    segmentsFrom none (a :: b :: c :: rest) =
      some (Char.ofNat (((a.toNat - 0xe0) * 64 + (b.toNat - 0x80)) * 64 + (c.toNat - 0x80))) ::
        segmentsFrom none rest := by
  obtain ⟨least, greatest, hlead, hleast, hgreatest⟩ : ∃ least greatest,
      lead a = .start ⟨2, least, greatest, a.toNat - 0xe0⟩ ∧ least ≤ b.toNat ∧ b.toNat ≤ greatest := by
    unfold lead
    simp only [beq_iff_eq]
    rw [if_neg (by omega), if_neg (by omega), if_neg (by omega)]
    split_ifs with hfirst hpair
    · exact ⟨0xa0, 0xbf, by rw [hfirst], long hfirst, hb'⟩
    · exact ⟨0x80, 0x9f, by rw [hpair], hb, whole hpair⟩
    · exact ⟨0x80, 0xbf, rfl, hb, hb'⟩
  rw [segmentsFrom, hlead]
  exact (segmentsFrom_inner hleast hgreatest).trans (segmentsFrom_last hc hc')

theorem segmentsFrom_four (ha : 0xf0 ≤ a.toNat) (ha' : a.toNat ≤ 0xf4) (hb : 0x80 ≤ b.toNat) (hb' : b.toNat ≤ 0xbf)
    (hc : 0x80 ≤ c.toNat) (hc' : c.toNat ≤ 0xbf) (hd : 0x80 ≤ d.toNat) (hd' : d.toNat ≤ 0xbf)
    (long : a.toNat = 0xf0 → 0x90 ≤ b.toNat) (point : a.toNat = 0xf4 → b.toNat ≤ 0x8f) :
    segmentsFrom none (a :: b :: c :: d :: rest) =
      some (Char.ofNat ((((a.toNat - 0xf0) * 64 + (b.toNat - 0x80)) * 64 + (c.toNat - 0x80)) * 64 +
        (d.toNat - 0x80))) :: segmentsFrom none rest := by
  obtain ⟨least, greatest, hlead, hleast, hgreatest⟩ : ∃ least greatest,
      lead a = .start ⟨3, least, greatest, a.toNat - 0xf0⟩ ∧ least ≤ b.toNat ∧ b.toNat ≤ greatest := by
    unfold lead
    simp only [beq_iff_eq]
    rw [if_neg (by omega), if_neg (by omega), if_neg (by omega), if_neg (by omega), if_neg (by omega),
      if_neg (by omega)]
    split_ifs with hfirst hinner hlast
    · exact ⟨0x90, 0xbf, by rw [hfirst], long hfirst, hb'⟩
    · exact ⟨0x80, 0xbf, rfl, hb, hb'⟩
    · exact ⟨0x80, 0x8f, by rw [hlast], hb, point hlast⟩
    · omega
  rw [segmentsFrom, hlead]
  exact (segmentsFrom_inner hleast hgreatest).trans
    ((segmentsFrom_inner hc hc').trans (segmentsFrom_last hd hd'))

/-- The bytes of a character are read as this character, whatever stands behind them. -/
theorem segments_encodeChar (k : Char) (rest : List UInt8) :
    segmentsFrom none (String.utf8EncodeChar k ++ rest) = some k :: segmentsFrom none rest := by
  have valid : k.toNat < 0xd800 ∨ 0xdfff < k.toNat ∧ k.toNat < 0x110000 := k.valid
  have bytes := encodeChar_ofNat (isPoint_toNat k) (isHalf_toNat k)
  have hk : Char.ofNat k.toNat = k := Char.ofNat_toNat k
  rw [hk] at bytes
  have number {m : Nat} (hm : m < 256) : (UInt8.ofNat m).toNat = m := by
    rw [UInt8.toNat_ofNat', Nat.mod_eq_of_lt hm]
  rw [bytes]
  generalize hn : k.toNat = n at *
  split_ifs with h₁ h₂ h₃
  · have hlead : lead (UInt8.ofNat n) = .whole k := by
      unfold lead
      simp only [number (show n < 256 by omega)]
      rw [if_pos (by omega), hk]
    rw [List.singleton_append, segmentsFrom, hlead]
  · simp only [List.cons_append, List.nil_append]
    rw [segmentsFrom_two]
    all_goals simp only [number (show n / 64 % 0x20 + 0xc0 < 256 by omega),
      number (show n % 0x40 + 0x80 < 256 by omega)]
    · rw [show (n / 64 % 0x20 + 0xc0 - 0xc0) * 64 + (n % 0x40 + 0x80 - 0x80) = n by omega, hk]
    all_goals omega
  · simp only [List.cons_append, List.nil_append]
    rw [segmentsFrom_three]
    all_goals simp only [number (show n / 4096 % 0x10 + 0xe0 < 256 by omega),
      number (show n / 64 % 0x40 + 0x80 < 256 by omega), number (show n % 0x40 + 0x80 < 256 by omega)]
    · rw [show ((n / 4096 % 0x10 + 0xe0 - 0xe0) * 64 + (n / 64 % 0x40 + 0x80 - 0x80)) * 64 +
        (n % 0x40 + 0x80 - 0x80) = n by omega, hk]
    all_goals omega
  · simp only [List.cons_append, List.nil_append]
    rw [segmentsFrom_four]
    all_goals simp only [number (show n / 262144 % 0x08 + 0xf0 < 256 by omega),
      number (show n / 4096 % 0x40 + 0x80 < 256 by omega), number (show n / 64 % 0x40 + 0x80 < 256 by omega),
      number (show n % 0x40 + 0x80 < 256 by omega)]
    · rw [show (((n / 262144 % 0x08 + 0xf0 - 0xf0) * 64 + (n / 4096 % 0x40 + 0x80 - 0x80)) * 64 +
        (n / 64 % 0x40 + 0x80 - 0x80)) * 64 + (n % 0x40 + 0x80 - 0x80) = n by omega, hk]
    all_goals omega

theorem segments_flatMap (cs : List Char) :
    segmentsFrom none (cs.flatMap String.utf8EncodeChar) = cs.map some := by
  induction cs with
  | nil => rfl
  | cons k cs ih => rw [List.flatMap_cons, segments_encodeChar, ih, List.map_cons]

theorem mapM_map_some (cs : List Char) : (cs.map some).mapM id = some cs := by
  induction cs with
  | nil => rfl
  | cons k cs ih => simp [List.mapM_cons, ih]

/-- The bytes of a text are those of the characters that its code points are. -/
theorem encode_eq_flatMap (x : String) :
    encode x = ((pointsOf x).map Char.ofNat).flatMap String.utf8EncodeChar := by
  rw [List.flatMap_map]
  rfl

/-- The bytes of a text are a text. -/
theorem exists_decodeStrict_encode (x : String) : ∃ y, decodeStrict (encode x) = some y := by
  unfold decodeStrict segments
  rw [encode_eq_flatMap, segments_flatMap, mapM_map_some]
  exact ⟨_, rfl⟩

/-! ## Texts that have bytes -/

/-- A text has bytes if no code point is a half. -/
theorem checkText_eq_ok_iff : Failure.checkText x = .ok () ↔ ∀ n ∈ pointsOf x, isHalf n = false := by
  have hcheck : Failure.checkText x = .ok () ↔ encodeComplaint? x = none := by
    unfold Failure.checkText
    cases encodeComplaint? x <;> simp
  rw [hcheck]
  unfold encodeComplaint?
  refine ⟨fun hnone n hn => ?_, complaintAbout?_of_whole⟩
  cases half : isHalf n with
  | false => rfl
  | true =>
    -- the first half begins a run, and a run is complained about
    exfalso
    unfold complaintAbout? at hnone
    simp only [Bool.or_false] at hnone
    generalize pointsOf x = ns at hn hnone
    induction ns with
    | nil => cases hn
    | cons m ns ih =>
      cases hm : isHalf m with
      | true =>
        simp only [hm, Bool.not_true, List.takeWhile_cons, List.length_nil, List.drop_zero, Bool.false_eq_true,
          if_false, if_true] at hnone
        unfold runComplaint at hnone
        split at hnone
        all_goals simp_all
      | false =>
        rcases List.mem_cons.1 hn with rfl | hn
        · rw [hm] at half
          cases half
        · apply ih hn
          simp only [hm, Bool.not_false, List.takeWhile_cons, if_true, List.length_cons, List.drop_succ_cons] at hnone
          unfold runComplaint at hnone ⊢
          split at hnone
          all_goals simp_all

/-- Behind ASCII characters, the code points are those of the rest. -/
theorem points_ascii_append (ascii : Ascii as) (cs : List Char) :
    points (as ++ cs) = as.map Char.toNat ++ points cs := by
  induction as with
  | nil => rfl
  | cons a as ih =>
    have ha := ascii a List.mem_cons_self
    have hmark : a ≠ mark := by
      rintro rfl
      revert ha
      decide
    have single : Ascii [a] := fun d hd => by rwa [List.mem_singleton.1 hd]
    have hpoint := points_of_ascii single
    rw [List.cons_append, points_cons hmark, ih fun d hd => ascii d (List.mem_cons_of_mem _ hd), List.map_cons]
    exact congrArg (· :: (as.map Char.toNat ++ points cs)) (List.singleton_inj.1 hpoint)

/-- ASCII characters behind a text add no half to it, and take none away. -/
theorem mem_points_append_ascii (ascii : Ascii as) (half : isHalf n = true) :
    n ∈ points (cs ++ as) ↔ n ∈ points cs := by
  have whole : n ∉ as.map Char.toNat := by
    intro hn
    obtain ⟨k, -, rfl⟩ := List.mem_map.1 hn
    rw [isHalf_toNat k] at half
    cases half
  induction cs using points.induct with
  | case1 =>
    rw [List.nil_append, points_of_ascii ascii]
    exact iff_of_false whole List.not_mem_nil
  | case2 c =>
    cases as with
    | nil => rw [List.append_nil]
    | cons a as =>
      by_cases hmark : c = mark
      · -- a mark at the end of the text says that what follows it stands for itself
        subst hmark
        have rest : points as = as.map Char.toNat := points_of_ascii fun d hd => ascii d (List.mem_cons_of_mem _ hd)
        change n ∈ a.toNat :: points as ↔ n ∈ [pointOf mark]
        rw [rest]
        refine iff_of_false whole ?_
        intro hn
        rw [List.mem_singleton.1 hn] at half
        exact absurd half (by decide +kernel)
      · rw [List.singleton_append, points_cons hmark, points_of_ascii ascii, List.mem_cons]
        exact (or_iff_left whole).trans List.mem_singleton.symm
  | case3 c d cs hmark ih =>
    obtain rfl : c = mark := by simpa using hmark
    change n ∈ d.toNat :: points (cs ++ as) ↔ n ∈ d.toNat :: points cs
    rw [List.mem_cons, List.mem_cons]
    exact or_congr_right ih
  | case4 c d cs hmark ih =>
    have hmark : c ≠ mark := by simpa using hmark
    rw [List.cons_append, points_cons hmark, points_cons hmark, List.mem_cons, List.mem_cons]
    exact or_congr_right ih

/-- A text between ASCII characters has bytes exactly if it has them by itself. -/
theorem checkText_between_iff {before after : String} (hbefore : Ascii before.toList) (hafter : Ascii after.toList) :
    Failure.checkText (before ++ x ++ after) = .ok () ↔ Failure.checkText x = .ok () := by
  rw [checkText_eq_ok_iff, checkText_eq_ok_iff]
  unfold pointsOf
  rw [String.toList_append, String.toList_append, List.append_assoc, points_ascii_append hbefore]
  constructor
  · intro h n hn
    cases half : isHalf n with
    | false => rfl
    | true => rw [← h n (List.mem_append_right _ ((mem_points_append_ascii hafter half).2 hn)), half]
  · intro h n hn
    rcases List.mem_append.1 hn with hn | hn
    · obtain ⟨k, -, rfl⟩ := List.mem_map.1 hn
      exact isHalf_toNat k
    · cases half : isHalf n with
      | false => rfl
      | true => rw [← h n ((mem_points_append_ascii hafter half).1 hn), half]

/-- Numbers are written in ASCII. -/
theorem ascii_toString (k : Int) : Ascii (toString k).toList := by
  have digits (m : Nat) : Ascii m.repr.toList := by
    intro c hc
    unfold Nat.repr at hc
    rw [String.toList_ofList] at hc
    have hdigit := Nat.isDigit_of_mem_toDigits (by decide) (by decide) hc
    simp only [Char.isDigit, Bool.and_eq_true, decide_eq_true_eq] at hdigit
    have : c.toNat ≤ 57 := hdigit.2
    omega
  cases k with
  | ofNat m => exact digits m
  | negSucc m =>
    change Ascii ("-" ++ (m + 1).repr).toList
    rw [String.toList_append]
    exact Ascii.append (by decide) (digits (m + 1))

/-! ## Texts that were read -/

/-- Characters that stand for characters, none of them for half of a pair, as in a text that was read. -/
def IsKept (cs : List Char) : Prop :=
  ∃ ks : List Char, cs = ofPoints (ks.map Char.toNat)

theorem isKept_decodeDropping (bs : List UInt8) : IsKept (decodeDropping bs).toList :=
  ⟨(segments bs).filterMap id, by
    unfold decodeDropping textOf keep
    rw [String.toList_ofList, String.toList_ofList]⟩

/-- A character of a text that is read stands for itself, alone or behind the mark. -/
theorem ofPoint_cases (c : Char) : ofPoint c.toNat = [c] ∨ ofPoint c.toNat = [mark, c] := by
  unfold ofPoint
  rw [isHalf_toNat, if_neg Bool.false_ne_true, Char.ofNat_toNat]
  split_ifs
  · exact .inr rfl
  · exact .inl rfl

/-- A line feed is no mark, so it does not end what begins a character. -/
theorem getLast?_ne_feed_of_ofPoint {k : Char} (h : ofPoint k.toNat = cs ++ ds) (cut : ds ≠ []) :
    cs.getLast? ≠ some '\n' := by
  have before : cs = [] ∨ cs = [mark] := by
    rcases ofPoint_cases k with hpoint | hpoint
    all_goals
      rw [hpoint] at h
      simp only [List.cons_eq_append_iff, List.nil_eq, List.append_eq_nil_iff] at h
      grind
  rcases before with rfl | rfl
  · decide
  · decide

/-- What stands before the end of a line stands for characters if the whole text does. -/
theorem IsKept.of_feed (kept : IsKept (cs ++ ds)) (feed : cs = [] ∨ cs.getLast? = some '\n') : IsKept cs := by
  obtain ⟨ks, hks⟩ := kept
  induction ks generalizing cs with
  | nil =>
    obtain ⟨rfl, -⟩ := List.append_eq_nil_iff.1 hks
    exact ⟨[], rfl⟩
  | cons k ks ih =>
    rcases feed with rfl | feed
    · exact ⟨[], rfl⟩
    have hsplit : cs ++ ds = ofPoint k.toNat ++ ofPoints (ks.map Char.toNat) := hks
    obtain ⟨cs', rfl, hend⟩ : ∃ cs', cs = ofPoint k.toNat ++ cs' ∧ (cs' = [] ∨ cs'.getLast? = some '\n') := by
      rcases List.append_eq_append_iff.1 hsplit with ⟨mid, hpoint, -⟩ | ⟨cs', rfl, -⟩
      · refine ⟨[], ?_, .inl rfl⟩
        rcases List.eq_nil_or_concat mid with rfl | ⟨mid', z, rfl⟩
        · rw [hpoint]
          simp
        · exact absurd feed (getLast?_ne_feed_of_ofPoint hpoint (by simp))
      · refine ⟨cs', rfl, ?_⟩
        rcases List.eq_nil_or_concat cs' with rfl | ⟨before, z, rfl⟩
        · exact .inl rfl
        · rw [List.concat_eq_append] at feed ⊢
          rw [← List.append_assoc, List.getLast?_concat] at feed
          exact .inr (by rw [List.getLast?_concat, feed])
    rw [List.append_assoc] at hsplit
    obtain ⟨js, rfl⟩ := ih hend (List.append_cancel_left hsplit)
    exact ⟨k :: js, rfl⟩

/-- A kept text is read as the characters that it stands for, whatever stands behind it. -/
theorem points_ofPoints_append (ks cs : List Char) :
    points (ofPoints (ks.map Char.toNat) ++ cs) = ks.map Char.toNat ++ points cs := by
  induction ks with
  | nil => rfl
  | cons k ks ih =>
    have hsplit : ofPoints ((k :: ks).map Char.toNat) = ofPoint k.toNat ++ ofPoints (ks.map Char.toNat) := rfl
    rw [hsplit, List.append_assoc, points_ofPoint_append (isPoint_toNat k), ih]
    rfl

/-- What was written and is read again. -/
theorem decodeDropping_encode (x : String) : decodeDropping (encode x) = textOf ((pointsOf x).map Char.ofNat) := by
  unfold decodeDropping segments
  rw [encode_eq_flatMap, segments_flatMap, List.filterMap_map]
  exact congrArg textOf List.filterMap_some

/-- A text that was read is read again, whatever is written behind it. -/
theorem IsKept.decodeDropping_encode (kept : IsKept cs) (ds : List Char) :
    decodeDropping (encode (String.ofList (cs ++ ds))) =
      String.ofList (cs ++ (decodeDropping (encode (String.ofList ds))).toList) := by
  obtain ⟨ks, rfl⟩ := kept
  have same : (ks.map Char.toNat).map Char.ofNat = ks := by
    rw [List.map_map]
    exact List.map_id'' Char.ofNat_toNat ks
  rw [Utf8.decodeDropping_encode, Utf8.decodeDropping_encode]
  unfold textOf keep pointsOf
  simp only [String.toList_ofList]
  rw [points_ofPoints_append, List.map_append, same, List.map_append]
  unfold ofPoints
  rw [List.flatMap_append]

end Text.Utf8

open Text Utf8

/-- The fingerprint of a finding can be derived exactly if the name of its file has bytes. -/
theorem Issue.checkFingerprint_eq_ok_iff {i : Issue} :
    i.checkFingerprint = .ok () ↔ Failure.checkText i.file.text = .ok () := by
  have hkey : Ascii (i.category.key ++ ":").toList := by
    rw [String.toList_append]
    refine Ascii.append ?_ (by decide)
    cases i.category <;> decide
  have hplace : Ascii (":" ++ toString i.place.line ++ ":" ++ toString i.place.column).toList := by
    simp only [String.toList_append]
    exact ((Ascii.append (by decide) (ascii_toString _)).append (by decide)).append (ascii_toString _)
  have htext : fingerprintText i.category i.place = i.category.key ++ ":" ++ i.file.text ++
      (":" ++ toString i.place.line ++ ":" ++ toString i.place.column) := by
    unfold fingerprintText
    simp only [String.append_assoc]
    rfl
  unfold Issue.checkFingerprint
  rw [htext]
  exact checkText_between_iff hkey hplace

end FixGate
