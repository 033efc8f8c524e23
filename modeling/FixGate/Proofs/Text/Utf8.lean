import FixGate.Failure
import Mathlib.Tactic.SplitIfs

/-!
# Bytes that are a text are the bytes of that text

A file that is read as a text and written again keeps its bytes: where no byte is at fault, the characters
read are the ones whose bytes stand there, one after another. Such a text has no half of a pair in it, so
it can always be written, and reading it strictly or with faults dropped comes to the same.

* `Text.Utf8.flatMap_of_segments` : characters read without a fault have the bytes that were read
* `Text.Utf8.encode_of_decodeStrict` : a text that was read is written as it was
* `Text.Utf8.decodeDropping_of_decodeStrict` : where there is no fault, none is dropped
* `Text.Utf8.checkText_of_decodeStrict` : a text that was read can be written
* `Text.Utf8.nameComplaint?_of_ascii`, `Text.Utf8.nameBytes_of_ascii` : names of ASCII characters
-/

namespace FixGate.Text.Utf8

variable {bs : List UInt8} {cs : List Char} {s : Begun} {x : String}

/-! ## The bytes of a character -/

/-- The bytes of the character with a given number, by the length of its encoding. -/
theorem encodeChar_ofNat {n : Nat} (point : isPoint n = true) (whole : isHalf n = false) :
    String.utf8EncodeChar (Char.ofNat n) =
      if n ≤ 0x7f then [UInt8.ofNat n]
      else if n ≤ 0x7ff then [UInt8.ofNat (n / 64 % 0x20 + 0xc0), UInt8.ofNat (n % 0x40 + 0x80)]
      else if n ≤ 0xffff then
        [UInt8.ofNat (n / 4096 % 0x10 + 0xe0), UInt8.ofNat (n / 64 % 0x40 + 0x80),
          UInt8.ofNat (n % 0x40 + 0x80)]
      else
        [UInt8.ofNat (n / 262144 % 0x08 + 0xf0), UInt8.ofNat (n / 4096 % 0x40 + 0x80),
          UInt8.ofNat (n / 64 % 0x40 + 0x80), UInt8.ofNat (n % 0x40 + 0x80)] := by
  have hn : (Char.ofNat n).val.toNat = n := toNat_ofNat point whole
  unfold String.utf8EncodeChar
  simp only [hn]

/-- A byte is the one made of a number if that is its number. -/
theorem ofNat_eq {b : UInt8} {n : Nat} (h : n = b.toNat) : UInt8.ofNat n = b := by
  rw [h, UInt8.ofNat_toNat]

theorem encodeChar_two {a b : UInt8} (ha : 0xc2 ≤ a.toNat) (ha' : a.toNat < 0xe0)
    (hb : 0x80 ≤ b.toNat) (hb' : b.toNat ≤ 0xbf) :
    String.utf8EncodeChar (Char.ofNat ((a.toNat - 0xc0) * 64 + (b.toNat - 0x80))) = [a, b] := by
  rw [encodeChar_ofNat (by simp [isPoint]; omega) (by simp [isHalf]; omega), if_neg (by omega),
    if_pos (by omega)]
  rw [ofNat_eq (b := a) (by omega), ofNat_eq (b := b) (by omega)]

theorem encodeChar_three {a b c : UInt8} (ha : 0xe0 ≤ a.toNat) (ha' : a.toNat < 0xf0)
    (hb : 0x80 ≤ b.toNat) (hb' : b.toNat ≤ 0xbf) (hc : 0x80 ≤ c.toNat) (hc' : c.toNat ≤ 0xbf)
    (long : a.toNat = 0xe0 → 0xa0 ≤ b.toNat) (whole : a.toNat = 0xed → b.toNat ≤ 0x9f) :
    String.utf8EncodeChar (Char.ofNat
      (((a.toNat - 0xe0) * 64 + (b.toNat - 0x80)) * 64 + (c.toNat - 0x80))) = [a, b, c] := by
  rw [encodeChar_ofNat (by simp [isPoint]; omega) (by simp [isHalf]; omega), if_neg (by omega),
    if_neg (by omega), if_pos (by omega)]
  rw [ofNat_eq (b := a) (by omega), ofNat_eq (b := b) (by omega), ofNat_eq (b := c) (by omega)]

theorem encodeChar_four {a b c d : UInt8} (ha : 0xf0 ≤ a.toNat) (ha' : a.toNat ≤ 0xf4)
    (hb : 0x80 ≤ b.toNat) (hb' : b.toNat ≤ 0xbf) (hc : 0x80 ≤ c.toNat) (hc' : c.toNat ≤ 0xbf)
    (hd : 0x80 ≤ d.toNat) (hd' : d.toNat ≤ 0xbf) (long : a.toNat = 0xf0 → 0x90 ≤ b.toNat)
    (point : a.toNat = 0xf4 → b.toNat ≤ 0x8f) :
    String.utf8EncodeChar (Char.ofNat
      ((((a.toNat - 0xf0) * 64 + (b.toNat - 0x80)) * 64 + (c.toNat - 0x80)) * 64 +
        (d.toNat - 0x80))) = [a, b, c, d] := by
  rw [encodeChar_ofNat (by simp [isPoint]; omega) (by simp [isHalf]; omega), if_neg (by omega),
    if_neg (by omega), if_neg (by omega)]
  rw [ofNat_eq (b := a) (by omega), ofNat_eq (b := b) (by omega), ofNat_eq (b := c) (by omega),
    ofNat_eq (b := d) (by omega)]

/-! ## Reading without a fault -/

/-- What a byte that starts a character says about the bytes to come. -/
theorem lead_start {a : UInt8} (h : lead a = .start s) :
    (0xc2 ≤ a.toNat ∧ a.toNat < 0xe0 ∧ s = ⟨1, 0x80, 0xbf, a.toNat - 0xc0⟩) ∨
      (0xe0 ≤ a.toNat ∧ a.toNat < 0xf0 ∧ s.owed = 2 ∧ s.bits = a.toNat - 0xe0 ∧ 0x80 ≤ s.least ∧
        s.greatest ≤ 0xbf ∧ (a.toNat = 0xe0 → 0xa0 ≤ s.least) ∧
        (a.toNat = 0xed → s.greatest ≤ 0x9f)) ∨
      (0xf0 ≤ a.toNat ∧ a.toNat ≤ 0xf4 ∧ s.owed = 3 ∧ s.bits = a.toNat - 0xf0 ∧ 0x80 ≤ s.least ∧
        s.greatest ≤ 0xbf ∧ (a.toNat = 0xf0 → 0x90 ≤ s.least) ∧
        (a.toNat = 0xf4 → s.greatest ≤ 0x8f)) := by
  unfold lead at h
  simp only [beq_iff_eq] at h
  -- the byte lies in one of seven ranges that start a character, which are the cases left
  split_ifs at h <;> cases h
  · exact .inl ⟨by omega, by omega, rfl⟩
  · exact .inr (.inl ⟨by omega, by omega, rfl, by simp [*], by simp, by simp, by simp, by simp [*]⟩)
  · exact .inr (.inl ⟨by omega, by omega, rfl, by simp [*], by simp, by simp, by omega, by simp⟩)
  · exact .inr (.inl ⟨by omega, by omega, rfl, rfl, by simp, by simp, by omega, by omega⟩)
  · exact .inr (.inr ⟨by omega, by omega, rfl, by simp [*], by simp, by simp, by simp, by omega⟩)
  · exact .inr (.inr ⟨by omega, by omega, rfl, rfl, by simp, by simp, by omega, by omega⟩)
  · exact .inr (.inr ⟨by omega, by omega, rfl, by simp [*], by simp, by simp, by omega, by simp⟩)

theorem lead_whole {a : UInt8} {c : Char} (h : lead a = .whole c) :
    a.toNat < 0x80 ∧ c = Char.ofNat a.toNat := by
  unfold lead at h
  simp only [beq_iff_eq] at h
  split_ifs at h with ha
  cases h
  exact ⟨ha, rfl⟩

/-- A character begun that is completed without a fault goes on with a byte within its bounds. -/
theorem exists_next (h : segmentsFrom (some s) bs = cs.map some) :
    ∃ b rest, bs = b :: rest ∧ s.least ≤ b.toNat ∧ b.toNat ≤ s.greatest ∧
      (if s.owed ≤ 1 then
        some (Char.ofNat (s.bits * 64 + (b.toNat - 0x80))) :: segmentsFrom none rest
      else segmentsFrom (some ⟨s.owed - 1, 0x80, 0xbf, s.bits * 64 + (b.toNat - 0x80)⟩) rest) =
        cs.map some := by
  cases bs with
  | nil =>
    cases cs <;> simp [segmentsFrom] at h
  | cons b rest =>
    unfold segmentsFrom at h
    split at h
    · next hb =>
      simp only [Bool.and_eq_true, decide_eq_true_eq] at hb
      exact ⟨b, rest, rfl, hb.1, hb.2, h⟩
    · split at h
      all_goals cases cs <;> simp at h

/-- The last byte of a character that is completed without a fault. -/
theorem exists_last (h : segmentsFrom (some s) bs = cs.map some) (owed : s.owed = 1) :
    ∃ b rest cs', bs = b :: rest ∧ s.least ≤ b.toNat ∧ b.toNat ≤ s.greatest ∧
      cs = Char.ofNat (s.bits * 64 + (b.toNat - 0x80)) :: cs' ∧
      segmentsFrom none rest = cs'.map some := by
  obtain ⟨b, rest, rfl, hb, hb', hrest⟩ := exists_next h
  rw [if_pos (by omega)] at hrest
  cases cs with
  | nil => cases hrest
  | cons c cs' =>
    obtain ⟨hc, hcs⟩ := List.cons.inj hrest
    exact ⟨b, rest, cs', rfl, hb, hb', by rw [Option.some.inj hc], hcs⟩

/-- A byte of such a character that is not its last. -/
theorem exists_inner (h : segmentsFrom (some s) bs = cs.map some) (owed : 1 < s.owed) :
    ∃ b rest, bs = b :: rest ∧ s.least ≤ b.toNat ∧ b.toNat ≤ s.greatest ∧
      segmentsFrom (some ⟨s.owed - 1, 0x80, 0xbf, s.bits * 64 + (b.toNat - 0x80)⟩) rest =
        cs.map some := by
  obtain ⟨b, rest, rfl, hb, hb', hrest⟩ := exists_next h
  rw [if_neg (by omega)] at hrest
  exact ⟨b, rest, rfl, hb, hb', hrest⟩

/-- A character that starts with a byte, completed without a fault, has the bytes that were read. -/
theorem exists_char {a : UInt8} (hlead : lead a = .start s)
    (h : segmentsFrom (some s) bs = cs.map some) :
    ∃ c read rest cs', bs = read ++ rest ∧ cs = c :: cs' ∧
      String.utf8EncodeChar c = a :: read ∧ segmentsFrom none rest = cs'.map some := by
  rcases lead_start hlead with ⟨ha, ha', rfl⟩ | ⟨ha, ha', owed, bits, least, greatest, long, whole⟩ |
    ⟨ha, ha', owed, bits, least, greatest, long, point⟩
  · obtain ⟨b, rest, cs', rfl, hb, hb', rfl, hrest⟩ := exists_last h rfl
    exact ⟨_, [b], rest, cs', rfl, rfl, encodeChar_two ha ha' hb hb', hrest⟩
  · obtain ⟨b, rest, rfl, hb, hb', h⟩ := exists_inner h (by omega)
    obtain ⟨c, rest, cs', rfl, hc, hc', rfl, hrest⟩ := exists_last h (by simp [owed])
    refine ⟨_, [b, c], rest, cs', rfl, rfl, ?_, hrest⟩
    rw [bits]
    exact encodeChar_three ha ha' (by omega) (by omega) hc hc' (fun hlow => Nat.le_trans (long hlow) hb)
      fun hhigh => Nat.le_trans hb' (whole hhigh)
  · obtain ⟨b, rest, rfl, hb, hb', h⟩ := exists_inner h (by omega)
    obtain ⟨c, rest, rfl, hc, hc', h⟩ := exists_inner h (by simp [owed])
    obtain ⟨d, rest, cs', rfl, hd, hd', rfl, hrest⟩ := exists_last h (by simp [owed])
    refine ⟨_, [b, c, d], rest, cs', rfl, rfl, ?_, hrest⟩
    rw [bits]
    exact encodeChar_four ha ha' (by omega) (by omega) hc hc' hd hd'
      (fun hlow => Nat.le_trans (long hlow) hb) fun hhigh => Nat.le_trans hb' (point hhigh)

/-- Characters read without a fault have the bytes that were read. -/
theorem flatMap_of_segments (bs : List UInt8) (cs : List Char)
    (h : segmentsFrom none bs = cs.map some) : cs.flatMap String.utf8EncodeChar = bs := by
  induction hlen : bs.length using Nat.strongRecOn generalizing bs cs with
  | ind len ih =>
    subst hlen
    cases bs with
    | nil =>
      cases cs with
      | nil => rfl
      | cons c cs => simp [segmentsFrom] at h
    | cons a bs =>
      simp only [segmentsFrom] at h
      split at h
      · next c hlead =>
        obtain ⟨ha, rfl⟩ := lead_whole hlead
        cases cs with
        | nil => cases h
        | cons c cs =>
          obtain ⟨hc, hcs⟩ := List.cons.inj h
          rw [List.flatMap_cons, ← Option.some.inj hc, ih _ (by simp) bs cs hcs rfl,
            encodeChar_ofNat (by simp [isPoint]; omega) (by simp [isHalf]; omega), if_pos (by omega),
            ofNat_eq rfl]
          rfl
      · next s hlead =>
        obtain ⟨c, read, rest, cs', rfl, rfl, hc, hrest⟩ := exists_char hlead h
        have hshorter : rest.length < (a :: (read ++ rest)).length := by
          rw [List.length_cons, List.length_append]
          omega
        rw [List.flatMap_cons, hc, ih _ hshorter rest cs' hrest rfl, List.cons_append]
      · cases cs <;> simp at h

/-! ## Texts that were read -/

theorem eq_map_of_mapM {xs : List (Option Char)} (h : xs.mapM id = some cs) : xs = cs.map some := by
  induction xs generalizing cs with
  | nil =>
    cases h
    rfl
  | cons x xs ih =>
    cases x with
    | none => simp at h
    | some c =>
      cases hxs : xs.mapM id with
      | none => simp [hxs] at h
      | some ds =>
        obtain rfl : c :: ds = cs := by simpa [hxs] using h
        rw [ih hxs]
        rfl

/-- A text that was read consists of the characters read, none of them a fault. -/
theorem exists_chars_of_decodeStrict (h : decodeStrict bs = some x) :
    ∃ cs, segmentsFrom none bs = cs.map some ∧ x = textOf cs := by
  unfold decodeStrict at h
  cases hm : (segments bs).mapM id with
  | none =>
    rw [hm] at h
    cases h
  | some cs =>
    rw [hm] at h
    cases h
    exact ⟨cs, eq_map_of_mapM hm, rfl⟩

/-- A character is no half. -/
theorem isHalf_toNat (c : Char) : isHalf c.toNat = false := by
  have : c.toNat < 0xd800 ∨ 0xdfff < c.toNat ∧ c.toNat < 0x110000 := c.valid
  simp only [isHalf, Bool.and_eq_false_iff, decide_eq_false_iff_not]
  omega

theorem isPoint_toNat (c : Char) : isPoint c.toNat = true := by
  have : c.toNat < 0xd800 ∨ 0xdfff < c.toNat ∧ c.toNat < 0x110000 := c.valid
  simp only [isPoint, decide_eq_true_eq]
  omega

/-- The characters of a text stand for their own code points. -/
theorem pointsOf_textOf (cs : List Char) : pointsOf (textOf cs) = cs.map Char.toNat := by
  unfold textOf keep pointsOf
  rw [String.toList_ofList, String.toList_ofList]
  apply points_ofPoints
  intro n hn
  obtain ⟨c, -, rfl⟩ := List.mem_map.1 hn
  exact isPoint_toNat c

/-- A text that was read is written as it was. -/
theorem encode_of_decodeStrict (h : decodeStrict bs = some x) : encode x = bs := by
  obtain ⟨cs, hcs, rfl⟩ := exists_chars_of_decodeStrict h
  unfold encode
  rw [pointsOf_textOf, List.flatMap_map]
  simp only [Char.ofNat_toNat]
  exact flatMap_of_segments bs cs hcs

/-- Where there is no fault, none is dropped. -/
theorem decodeDropping_of_decodeStrict (h : decodeStrict bs = some x) : decodeDropping bs = x := by
  obtain ⟨cs, hcs, rfl⟩ := exists_chars_of_decodeStrict h
  unfold decodeDropping segments
  rw [hcs]
  simp

/-- There is nothing to complain about where no code point is a half. -/
theorem complaintAbout?_of_whole {admitted : Nat → Bool} {ns : List Nat}
    (whole : ∀ n ∈ ns, isHalf n = false) : complaintAbout? admitted ns = none := by
  have before : ns.takeWhile (fun n => !isHalf n || admitted n) = ns := by
    induction ns with
    | nil => rfl
    | cons n ns ih =>
      have hn := whole n List.mem_cons_self
      simpa [hn] using ih fun m hm => whole m (List.mem_cons_of_mem _ hm)
  unfold complaintAbout?
  simp only [before, List.drop_length, List.takeWhile_nil]
  rfl

/-- A text that was read can be written. -/
theorem checkText_of_decodeStrict (h : decodeStrict bs = some x) : Failure.checkText x = .ok () := by
  obtain ⟨cs, -, rfl⟩ := exists_chars_of_decodeStrict h
  have none_wrong : encodeComplaint? (textOf cs) = none := by
    unfold encodeComplaint?
    rw [pointsOf_textOf]
    apply complaintAbout?_of_whole
    intro n hn
    obtain ⟨c, -, rfl⟩ := List.mem_map.1 hn
    exact isHalf_toNat c
  unfold Failure.checkText
  rw [none_wrong]

/-! ## Names of ASCII characters -/

/-- All characters are ASCII characters. -/
def Ascii (cs : List Char) : Prop :=
  ∀ c ∈ cs, c.toNat < 0x80

instance (cs : List Char) : Decidable (Ascii cs) :=
  List.decidableBAll (fun c : Char => c.toNat < 0x80) cs

theorem Ascii.append {cs ds : List Char} (hc : Ascii cs) (hd : Ascii ds) : Ascii (cs ++ ds) := by
  intro c h
  rcases List.mem_append.1 h with h | h
  · exact hc c h
  · exact hd c h

theorem Ascii.cons {c : Char} {cs : List Char} (hc : c.toNat < 0x80) (hcs : Ascii cs) :
    Ascii (c :: cs) := by
  intro d h
  rcases List.mem_cons.1 h with rfl | h
  · exact hc
  · exact hcs d h

/-- ASCII characters stand for their own code points. -/
theorem points_of_ascii {cs : List Char} (h : Ascii cs) : points cs = cs.map Char.toNat := by
  induction cs with
  | nil => rfl
  | cons c cs ih =>
    have hc := h c List.mem_cons_self
    have hmark : c ≠ mark := by
      rintro rfl
      revert hc
      decide
    have hpoint : pointOf c = c.toNat := by
      unfold pointOf
      rw [if_neg]
      unfold isHalf keptAbove
      simp only [Bool.and_eq_true, decide_eq_true_eq, not_and, Nat.not_lt]
      omega
    rw [points_cons hmark, ih fun d hd => h d (List.mem_cons_of_mem _ hd), hpoint]
    rfl

theorem hexDigit_ascii (n : Nat) : (hexDigit n).toNat < 0x80 := by
  have digits : ∀ k < 16, (['0', '1', '2', '3', '4', '5', '6', '7', '8', '9', 'a', 'b', 'c', 'd', 'e',
      'f'].getD k '0').toNat < 0x80 := by decide
  exact digits _ (Nat.mod_lt n (by decide))

theorem hexDigits_ascii (n width : Nat) : Ascii (hexDigits n width) := by
  induction width generalizing n with
  | zero => exact fun _ hc => absurd hc List.not_mem_nil
  | succ width ih => exact (ih _).append (Ascii.cons (hexDigit_ascii n) (by decide))

theorem length_hexDigits (n width : Nat) : (hexDigits n width).length = width := by
  induction width generalizing n with
  | zero => rfl
  | succ width ih => simp [hexDigits, ih]

theorem foldr_add_replicate (n : Nat) : (List.replicate n 1).foldr (· + ·) 0 = n := by
  induction n with
  | zero => rfl
  | succ n ih => rw [List.replicate_succ, List.foldr_cons, ih, Nat.add_comm]

theorem nameComplaint?_of_ascii {name : String} (h : Ascii name.toList) : nameComplaint? name = none := by
  unfold nameComplaint? pointsOf
  rw [points_of_ascii h]
  apply complaintAbout?_of_whole
  intro n hn
  obtain ⟨c, -, rfl⟩ := List.mem_map.1 hn
  exact isHalf_toNat c

/-- A name of ASCII characters takes a byte for each. -/
theorem nameBytes_of_ascii {name : String} (h : Ascii name.toList) :
    nameBytes name = name.toList.length := by
  have hsize : ∀ n ∈ name.toList.map Char.toNat,
      (if standsForByte n then 1 else (Char.ofNat n).utf8Size) = 1 := by
    intro n hn
    obtain ⟨c, hc, rfl⟩ := List.mem_map.1 hn
    split
    · rfl
    · rw [Char.ofNat_toNat, Char.utf8Size_eq_one_iff]
      have hval : c.val.toNat < 0x80 := h c hc
      exact UInt32.le_iff_toNat_le.2 (by change c.val.toNat ≤ 127; omega)
  unfold nameBytes pointsOf
  rw [points_of_ascii h, List.map_congr_left hsize, List.map_const', foldr_add_replicate,
    List.length_map]

end FixGate.Text.Utf8
