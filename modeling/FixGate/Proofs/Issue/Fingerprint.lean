import FixGate.Proofs.Analysis.Clippy
import FixGate.Proofs.Analysis.Ordered
import FixGate.Proofs.Text.Strip
import FixGate.Proofs.Validation.Matching
import Mathlib

/-!
# Derived fingerprints

The fingerprint of a finding that was made without one is the start of a digest. The text that is digested joins the
category, the file, the line and the column with colons. The category and the numbers hold no colon, so the text
determines the four, whatever colons and digits are in the name of the file. Two derived fingerprints are the same
exactly if the four agree or the digests of two different texts start alike, and so a scan keeps one finding for two,
and a validation takes one for another by its fingerprint, in these cases only.

* `fingerprintText_inj` : the text that is digested determines category, file, line and column
* `Text.Spelled`, `Text.Utf8.encode_inj` : texts that are those of their code points, and their bytes
* `Issue.Derived`, `Issue.Coincide`, `Issue.Collide` : findings with derived fingerprints
* `Issue.fingerprint_eq_iff` : what it means that two of these are the same
* `fingerprint_determines` : all of these, for the scan and the validation
-/

namespace FixGate

/-! ## The text that is digested -/

section Joined

variable {c c' : Category} {p q : SourcePlace} {cs ds rest tail : List Char}

/-- What stands behind the last separator is told by the whole, as is what stands before it. -/
theorem append_cons_inj_of_last {α : Type} [DecidableEq α] {x : α} {xs ys rest tail : List α} (hrest : x ∉ rest)
    (htail : x ∉ tail) (h : xs ++ x :: rest = ys ++ x :: tail) : xs = ys ∧ rest = tail := by
  have hreverse : rest.reverse ++ x :: xs.reverse = tail.reverse ++ x :: ys.reverse := by
    simpa using congrArg List.reverse h
  have hend : rest.reverse = tail.reverse :=
    eq_of_append_cons (by simpa using hrest) (by simpa using htail) hreverse
  obtain rfl : rest = tail := List.reverse_inj.1 hend
  exact ⟨List.append_cancel_right h, rfl⟩

theorem Category.colon_not_mem_key (c : Category) : ':' ∉ c.key.toList := by
  cases c <;> decide

theorem Category.key_inj : c.key = c'.key ↔ c = c' := by
  refine ⟨fun h => ?_, congrArg Category.key⟩
  revert h
  cases c <;> cases c' <;> decide

theorem colon_not_mem_toString (k : Int) : ':' ∉ (toString k).toList := by
  have digits (m : ℕ) : ':' ∉ m.repr.toList := by
    rw [Nat.repr_eq_ofList_toDigits, String.toList_ofList]
    intro h
    exact absurd (Nat.isDigit_of_mem_toDigits (by decide) (by decide) h) (by decide)
  rw [Int.toString_eq_repr, Int.repr_eq_if]
  split
  · exact digits _
  · rw [String.toList_append]
    simpa using digits _

theorem toList_fingerprintText (c : Category) (p : SourcePlace) : (fingerprintText c p).toList =
    (c.key.toList ++ ':' :: p.file.text.toList ++ ':' :: (toString p.line).toList) ++
      ':' :: (toString p.column).toList := by
  have htext : fingerprintText c p =
      c.key ++ ":" ++ p.file.text ++ ":" ++ toString p.line ++ ":" ++ toString p.column := rfl
  rw [htext]
  simp

/-- The text that is digested determines the category, the text of the file, the line and the column. -/
theorem fingerprintText_inj : fingerprintText c p = fingerprintText c' q ↔
    c = c' ∧ p.file.text = q.file.text ∧ p.line = q.line ∧ p.column = q.column := by
  constructor
  · intro h
    have hlist := congrArg String.toList h
    rw [toList_fingerprintText, toList_fingerprintText] at hlist
    obtain ⟨hplace, hcolumn⟩ := append_cons_inj_of_last (colon_not_mem_toString _) (colon_not_mem_toString _) hlist
    obtain ⟨hfile, hline⟩ := append_cons_inj_of_last (colon_not_mem_toString _) (colon_not_mem_toString _) hplace
    have hkey := eq_of_append_cons c.colon_not_mem_key c'.colon_not_mem_key hfile
    rw [hkey] at hfile
    exact ⟨Category.key_inj.1 (String.toList_inj.1 hkey),
      String.toList_inj.1 (List.cons.inj (List.append_cancel_left hfile)).2,
      Int.repr_inj.1 (String.toList_inj.1 hline), Int.repr_inj.1 (String.toList_inj.1 hcolumn)⟩
  · rintro ⟨rfl, hfile, hline, hcolumn⟩
    apply String.toList_inj.1
    rw [toList_fingerprintText, toList_fingerprintText, hfile, hline, hcolumn]

end Joined

/-! ## Texts and their bytes -/

namespace Text

variable {x y : String} {cs : List Char} {n : ℕ}

/-- A text is the text of its code points: nothing in it is written in another way than a text of them is. -/
def Spelled (x : String) : Prop :=
  x.toList = ofPoints (pointsOf x)

instance (x : String) : Decidable (Spelled x) :=
  inferInstanceAs (Decidable (_ = _))

theorem isPoint_pointOf (c : Char) : isPoint (pointOf c) = true := by
  unfold pointOf
  split
  · have := Utf8.isPoint_toNat c
    simp only [isPoint, decide_eq_true_eq] at this ⊢
    omega
  · exact Utf8.isPoint_toNat c

/-- What characters stand for are code points. -/
theorem isPoint_of_mem_points (h : n ∈ points cs) : isPoint n = true := by
  induction cs using points.induct with
  | case1 => cases h
  | case2 c =>
    rw [List.mem_singleton.1 h]
    exact isPoint_pointOf c
  | case3 c d cs hmark ih =>
    obtain rfl : c = mark := by simpa using hmark
    change n ∈ d.toNat :: points cs at h
    rcases List.mem_cons.1 h with rfl | h
    · exact Utf8.isPoint_toNat d
    · exact ih h
  | case4 c d cs hmark ih =>
    have hmark : c ≠ mark := by simpa using hmark
    rw [points_cons hmark, List.mem_cons] at h
    rcases h with heq | h
    · rw [heq]
      exact isPoint_pointOf c
    · exact ih h

/-- Code points are read back from their characters, whatever stands behind them. -/
theorem points_ofPoints_append {ns : List ℕ} (hns : ∀ n ∈ ns, isPoint n = true) (cs : List Char) :
    points (ofPoints ns ++ cs) = ns ++ points cs := by
  induction ns with
  | nil => rfl
  | cons n ns ih =>
    obtain ⟨hn, hrest⟩ := List.forall_mem_cons.1 hns
    have hsplit : ofPoints (n :: ns) = ofPoint n ++ ofPoints ns := rfl
    rw [hsplit, List.append_assoc, points_ofPoint_append hn, ih hrest, List.cons_append]

/-- A spelled text in front of another keeps its code points. -/
theorem Spelled.pointsOf_append (hx : Spelled x) (y : String) : pointsOf (x ++ y) = pointsOf x ++ pointsOf y := by
  have hsplit : pointsOf (x ++ y) = points (ofPoints (pointsOf x) ++ y.toList) := by
    rw [← hx, ← String.toList_append]
    rfl
  rw [hsplit]
  exact points_ofPoints_append (fun _ h => isPoint_of_mem_points h) y.toList

theorem Spelled.append (hx : Spelled x) (hy : Spelled y) : Spelled (x ++ y) := by
  unfold Spelled
  rw [hx.pointsOf_append, String.toList_append, hx, hy]
  exact (List.flatMap_append ..).symm

theorem Spelled.of_ascii (ascii : Utf8.Ascii x.toList) : Spelled x := by
  have single : ∀ c ∈ x.toList, ofPoint c.toNat = [c] := by
    intro c hc
    have hlow := ascii c hc
    have unmarked : needsMark c.toNat = false := by
      rw [needsMark, Nat.sub_eq_zero_of_le (by unfold keptAbove; omega)]
      have hne : c.toNat ≠ markPoint := by
        unfold markPoint
        omega
      rw [beq_eq_false_iff_ne.2 hne]
      rfl
    unfold ofPoint
    rw [Utf8.isHalf_toNat, unmarked, if_neg Bool.false_ne_true, if_neg Bool.false_ne_true, Char.ofNat_toNat]
  unfold Spelled pointsOf
  rw [Utf8.points_of_ascii ascii, ofPoints, List.flatMap_map, List.flatMap_congr single]
  exact (List.flatMap_singleton' x.toList).symm

/-- A spelled text is determined by its code points. -/
theorem Spelled.inj (hx : Spelled x) (hy : Spelled y) (h : pointsOf x = pointsOf y) : x = y := by
  apply String.toList_inj.1
  rw [hx, hy, h]

/-- Every run of code points is spelled by exactly one text. -/
theorem existsUnique_spelled {ns : List ℕ} (hns : ∀ n ∈ ns, isPoint n = true) : ∃! x, Spelled x ∧ pointsOf x = ns := by
  have hpoints : pointsOf (String.ofList (ofPoints ns)) = ns := by
    unfold pointsOf
    rw [String.toList_ofList, points_ofPoints hns]
  refine ⟨String.ofList (ofPoints ns), ⟨?_, hpoints⟩, ?_⟩
  · unfold Spelled
    rw [hpoints, String.toList_ofList]
  · rintro y ⟨spelled, rfl⟩
    rw [← spelled, String.ofList_toList]

namespace Utf8

/-- The code points of a text that has bytes are read back from them. -/
theorem pointsOf_decodeDropping_encode (whole : Failure.checkText x = .ok ()) :
    pointsOf (decodeDropping (encode x)) = pointsOf x := by
  rw [checkText_eq_ok_iff] at whole
  rw [decodeDropping_encode, pointsOf_textOf, List.map_map]
  exact (List.map_congr_left fun n hn => toNat_ofNat (isPoint_of_mem_points hn) (whole n hn)).trans (List.map_id _)

/-- Spelled texts that have bytes are determined by them. -/
theorem encode_inj (hx : Spelled x) (hy : Spelled y) (whole : Failure.checkText x = .ok ())
    (whole' : Failure.checkText y = .ok ()) : encode x = encode y ↔ x = y := by
  refine ⟨fun h => hx.inj hy ?_, congrArg encode⟩
  rw [← pointsOf_decodeDropping_encode whole, h, pointsOf_decodeDropping_encode whole']

end Utf8

end Text

theorem spelled_fingerprintText (c : Category) {p : SourcePlace} (spelled : Text.Spelled p.file.text) :
    Text.Spelled (fingerprintText c p) := by
  have key : Text.Spelled c.key := .of_ascii (by cases c <;> decide)
  have colon : Text.Spelled ":" := .of_ascii (by decide)
  have number (k : ℤ) : Text.Spelled (toString k) := .of_ascii (Text.Utf8.ascii_toString k)
  exact (((((key.append colon).append spelled).append colon).append (number _)).append colon).append (number _)

/-! ## Findings with derived fingerprints -/

namespace Issue

variable {i j : Issue}

/-- The text that is digested for a finding, if it has no fingerprint. -/
def digested (i : Issue) : String :=
  fingerprintText i.category i.place

/-- The fingerprint of a finding is derived: the finding was made without one. The text of its file is one that stands
for code points. -/
structure Derived (i : Issue) : Prop where
  made : ∃ raw : Issue, raw.fingerprint = "" ∧ raw.make = .ok i
  spelled : Text.Spelled i.file.text

/-- Two findings agree in category, file, line and column. -/
def Coincide (i j : Issue) : Prop :=
  i.category = j.category ∧ i.file.text = j.file.text ∧ i.line = j.line ∧ i.place.column = j.place.column

instance (i j : Issue) : Decidable (i.Coincide j) :=
  inferInstanceAs (Decidable (_ ∧ _ ∧ _ ∧ _))

/-- The bytes that are digested for two findings differ, but their digests start with the same sixteen digits. -/
def Collide (i j : Issue) : Prop :=
  Text.Utf8.encode i.digested ≠ Text.Utf8.encode j.digested ∧
    (Digest.sha256 (Text.Utf8.encode i.digested)).toList.take 16 =
      (Digest.sha256 (Text.Utf8.encode j.digested)).toList.take 16

theorem digested_eq_iff : i.digested = j.digested ↔ i.Coincide j :=
  fingerprintText_inj

theorem eq_of_make {raw : Issue} (empty : raw.fingerprint = "") (hmake : raw.make = .ok i) :
    raw.checkFingerprint = .ok () ∧ i = { raw with fingerprint := FixGate.fingerprint raw.category raw.place } := by
  have titled : raw.title.isTrue = true := by
    by_contra untitled
    unfold make at hmake
    rw [if_pos (by simpa using untitled)] at hmake
    cases hmake
  rw [Clippy.make_of_titled titled empty] at hmake
  cases hcheck : raw.checkFingerprint with
  | error f =>
    rw [hcheck] at hmake
    cases hmake
  | ok u =>
    rw [hcheck] at hmake
    obtain rfl : raw.withFingerprint = i := Except.ok.inj hmake
    refine ⟨rfl, ?_⟩
    unfold withFingerprint
    rw [if_pos (by rw [empty]; rfl)]

theorem Derived.fingerprint_eq (h : i.Derived) : i.fingerprint =
    String.ofList ((Digest.sha256 (Text.Utf8.encode i.digested)).toList.take 16) := by
  obtain ⟨raw, empty, hmake⟩ := h.made
  obtain ⟨-, rfl⟩ := eq_of_make empty hmake
  rfl

theorem Derived.checkText_digested (h : i.Derived) : Failure.checkText i.digested = .ok () := by
  obtain ⟨raw, empty, hmake⟩ := h.made
  obtain ⟨hcheck, rfl⟩ := eq_of_make empty hmake
  exact hcheck

/-- Two derived fingerprints are the same exactly if what they are derived from is the same, or for a collision. -/
theorem fingerprint_eq_iff (hi : i.Derived) (hj : j.Derived) :
    i.fingerprint = j.fingerprint ↔ i.Coincide j ∨ i.Collide j := by
  have bytes : Text.Utf8.encode i.digested = Text.Utf8.encode j.digested ↔ i.Coincide j :=
    (Text.Utf8.encode_inj (spelled_fingerprintText _ hi.spelled) (spelled_fingerprintText _ hj.spelled)
      hi.checkText_digested hj.checkText_digested).trans digested_eq_iff
  rw [hi.fingerprint_eq, hj.fingerprint_eq, String.ofList_inj]
  constructor
  · intro hstart
    by_cases hbytes : Text.Utf8.encode i.digested = Text.Utf8.encode j.digested
    · exact .inl (bytes.1 hbytes)
    · exact .inr ⟨hbytes, hstart⟩
  · rintro (coincide | collide)
    · rw [bytes.2 coincide]
    · exact collide.2

end Issue

/-- **What a derived fingerprint tells.** The text that is digested determines category, file, line and column, and the
written form of a path that is read determines the path. Two findings with derived fingerprints have the same one
exactly if they agree in these four, or if the digests of two different texts start alike. So where a scan leaves out a
finding for one with its fingerprint, the two agree in all four or their digests collide, and so do a finding and the
one in which a validation finds it again, unless these have one category, files that may be the same and lines that are
near enough. -/
theorem fingerprint_determines :
    (∀ (c c' : Category) (p q : SourcePlace), fingerprintText c p = fingerprintText c' q ↔
      c = c' ∧ p.file.text = q.file.text ∧ p.line = q.line ∧ p.column = q.column) ∧
    (∀ p q : Path, p.Normal → q.Normal → (p.text = q.text ↔ p = q)) ∧
    (∀ i j : Issue, i.Derived → j.Derived → (i.fingerprint = j.fingerprint ↔ i.Coincide j ∨ i.Collide j)) ∧
    (∀ (r : Registry) (path : Path) (exclude : Value) (h : Host) (s u : State) (is : List Issue),
      (r.scan path exclude).outcome h s = (.ok is, u) →
      ∃ files lists, sourceFiles s.disk path exclude = .ok files ∧
        Registry.Reported h s (r.questions files) lists u ∧ (∀ i ∈ is, i ∈ lists.flatten) ∧
        ∀ j ∈ lists.flatten, j.Derived → j ∉ is →
          ∃ i ∈ is, i.fingerprint = j.fingerprint ∧ (i.Derived → i.Coincide j ∨ i.Collide j)) ∧
    ∀ (fresh : List Issue) (sought i : Issue) (t : Int), stillFound fresh sought t = some i → i.Derived →
      sought.Derived → i.Coincide sought ∨ i.Collide sought ∨
        i.category = sought.category ∧ Path.sameFile i.file sought.file = true ∧
          sought.line - t ≤ i.line ∧ i.line ≤ sought.line + t := by
  refine ⟨fun _ _ _ _ => fingerprintText_inj, fun p q hp hq => ⟨fun h => ?_, congrArg Path.text⟩,
    fun i j hi hj => Issue.fingerprint_eq_iff hi hj, fun r path exclude h s u is hscan => ?_,
    fun fresh sought i t hfound hi hsought => ?_⟩
  · rw [← Path.ofText_text hp, h, Path.ofText_text hq]
  · obtain ⟨files, lists, hfiles, hreported, rfl⟩ := Registry.scan_eq_ok_iff.1 hscan
    refine ⟨files, lists, hfiles, hreported, fun i hi => ?_, fun j hj derived _ => ?_⟩
    · obtain ⟨-, before, after, hcut, -⟩ := mem_keepFirst_iff.1 (mem_inOrder_iff.1 hi)
      simp [hcut]
    · obtain ⟨i, hi, hprint⟩ := exists_mem_keepFirst hj List.not_mem_nil
      exact ⟨i, mem_inOrder_iff.2 hi, hprint, fun hderived => (Issue.fingerprint_eq_iff hderived derived).1 hprint⟩
  · rcases (stillFound_eq_some_iff.1 hfound).1 with ⟨-, hprint⟩ | near
    · exact ((Issue.fingerprint_eq_iff hi hsought).1 hprint).imp_right .inl
    · exact .inr (.inr near)

/-- What a finding at a place in a file is made from, without a fingerprint. -/
def rawAt (title file : String) (line column : ℤ) : Issue :=
  { (default : Issue) with title := .text title, place := ⟨Path.ofText file, line, column, ""⟩ }

theorem derived_rawAt {title file : String} {line column : ℤ} (titled : title ≠ "")
    (bytes : Failure.checkText (Path.ofText file).text = .ok ()) (spelled : Text.Spelled (Path.ofText file).text) :
    (rawAt title file line column).withFingerprint.Derived := by
  have checked : (rawAt title file line column).checkFingerprint = .ok () := Issue.checkFingerprint_eq_ok_iff.2 bytes
  have isTrue : (rawAt title file line column).title.isTrue = true := by
    simpa [rawAt, Value.isTrue] using titled
  refine ⟨⟨rawAt title file line column, rfl, ?_⟩, ?_⟩
  · rw [Clippy.make_of_titled isTrue rfl, checked]
    rfl
  · rw [Issue.file, place_withFingerprint]
    exact spelled

/-- A finding in a file with a colon and a digit in its name. -/
def atColon : Issue := (rawAt "gets" "a:1" (-2) 3).withFingerprint

/-- Another finding at the same place. -/
def besideColon : Issue := (rawAt "rand" "a:1" (-2) 3).withFingerprint

/-- A finding in the file without these. -/
def withoutColon : Issue := (rawAt "gets" "a" 1 (-2)).withFingerprint

/-- The two findings at one place have one fingerprint, so that a scan leaves out the second of them and a validation
takes it for the first. The third has another fingerprint, and no digests collide. -/
theorem fingerprint_determines_colons :
    ((Path.ofText "a:1").text = (Path.ofText "a").text ↔ Path.ofText "a:1" = Path.ofText "a") ∧
    atColon.fingerprint = besideColon.fingerprint ∧
    (atColon.fingerprint ≠ withoutColon.fingerprint ∧ ¬ atColon.Collide withoutColon) ∧
    (∃ is u, (Registry.scan [.constant "pattern" (.ok [atColon, besideColon, withoutColon])] ⟨.here, ["main.c"]⟩
        (exclusions [])).outcome Host.quiet { disk := vendoring } = (.ok is, u) ∧ besideColon ∉ is ∧
      ∃ i ∈ is, i.fingerprint = besideColon.fingerprint ∧
        (i.Derived → i.Coincide besideColon ∨ i.Collide besideColon)) ∧
    (stillFound [besideColon] atColon 0 = some besideColon ∧ (besideColon.Coincide atColon ∨
      besideColon.Collide atColon ∨ besideColon.category = atColon.category ∧
        Path.sameFile besideColon.file atColon.file = true ∧
          atColon.line - 0 ≤ besideColon.line ∧ besideColon.line ≤ atColon.line + 0)) := by
  obtain ⟨-, hpath, hprint, hscan, hfound⟩ := fingerprint_determines
  have first : atColon.Derived := derived_rawAt (by decide) (by rfl) (by decide +kernel)
  have again : besideColon.Derived := derived_rawAt (by decide) (by rfl) (by decide +kernel)
  have other : withoutColon.Derived := derived_rawAt (by decide) (by rfl) (by decide +kernel)
  have coincide : atColon.Coincide besideColon := by
    simp only [Issue.Coincide, Issue.file, Issue.line, atColon, besideColon, category_withFingerprint,
      place_withFingerprint]
    exact ⟨rfl, rfl, rfl, rfl⟩
  have same : atColon.fingerprint = besideColon.fingerprint := (hprint _ _ first again).2 (.inl coincide)
  have differ : atColon.fingerprint ≠ withoutColon.fingerprint := by decide +kernel
  refine ⟨hpath _ _ (Path.normal_ofText _) (Path.normal_ofText _), same,
    ⟨differ, fun collide => differ ((hprint _ _ first other).2 (.inr collide))⟩, ?_, ?_⟩
  · have hfiles : sourceFiles vendoring ⟨.here, ["main.c"]⟩ (exclusions []) = .ok [⟨.here, ["main.c"]⟩] := by rfl
    have gives : (Registry.scan [.constant "pattern" (.ok [atColon, besideColon, withoutColon])] ⟨.here, ["main.c"]⟩
        (exclusions [])).outcome Host.quiet { disk := vendoring } =
          (.ok (inOrder (keepFirst [] [[atColon, besideColon, withoutColon]].flatten)), { disk := vendoring }) :=
      Registry.scan_eq_ok_iff.2 ⟨_, _, hfiles, .cons rfl (.nil _), rfl⟩
    have leftOut : besideColon ∉ inOrder (keepFirst [] [[atColon, besideColon, withoutColon]].flatten) := by
      rw [mem_inOrder_iff, mem_keepFirst_iff]
      rintro ⟨-, before, after, hcut, hfree⟩
      cases before with
      | nil =>
        have htitle := congrArg Issue.title (List.cons.inj hcut).1
        rw [atColon, besideColon, Clippy.title_withFingerprint, Clippy.title_withFingerprint] at htitle
        exact absurd htitle (by simp [rawAt])
      | cons b before =>
        obtain rfl : atColon = b := (List.cons.inj hcut).1
        exact hfree _ List.mem_cons_self same
    refine ⟨_, _, gives, leftOut, ?_⟩
    obtain ⟨files, lists, hfiles', hreported, -, hkept⟩ := hscan _ _ _ _ _ _ _ gives
    obtain rfl := Except.ok.inj (hfiles.symm.trans hfiles')
    have reported : lists = [[atColon, besideColon, withoutColon]] := by
      change Registry.Reported _ _ [(_, _)] _ _ at hreported
      cases hreported with
      | cons hanswer hrest =>
        cases hrest
        cases hanswer
        rfl
    exact hkept _ (by simp [reported]) again leftOut
  · have found : stillFound [besideColon] atColon 0 = some besideColon := by
      refine stillFound_eq_some_iff.2 ⟨.inr ⟨coincide.1.symm, ?_, ?_, ?_⟩, [], [], rfl, by simp⟩
      · simp [Path.sameFile, coincide.2.1]
      · rw [coincide.2.2.1]
        omega
      · rw [coincide.2.2.1]
        omega
    exact ⟨found, hfound _ _ _ _ found again first⟩

end FixGate
