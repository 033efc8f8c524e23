import FixGate.Proofs.Act.Replaceable
import FixGate.Proofs.Ledger.Undo

/-!
# When the steps of the ledger succeed

Accepting can fail when the file is read, when its bytes are no text, when the window is not what it was, when
it starts outside of the file, and at each of the disk steps that replace the file. The conditions that
exclude these failures are the conditions for success, and a call that meets one of the failures leaves the
ledger and every entry of the tree as they were. A temporary file that was made counts as an entry; its
removal is a step that the disk does not refuse.

* `Ledger.Acceptable`, `Ledger.accept_ok_iff` : when the pending change can be accepted
* `Ledger.rollback_ok_iff` : when the latest change can be rolled back
* `Ledger.steps_succeed_iff` : success exactly under these conditions, its effect, and failure without one
-/

namespace FixGate.Ledger

open Act FileTree Text

variable {h : Host} {s u : State} {l l' : Ledger} {c : Change} {a : Applied} {x y : String} {f : Failure}

/-- A change can be written now: its file is text, its window holds the old code and starts in the file or
directly after it, and the text with the new code can be put in the place of the file. -/
structure Acceptable (h : Host) (s : State) (c : Change) (x : String) : Prop where
  read : h.refuse s.diskSteps (.read c.file) = none
  text : ∃ b, s.disk.content c.file = .ok b ∧ Utf8.decodeStrict b = some x
  current : trimEnd '\n' (Source.extract x c.first c.last) = trimEnd '\n' c.oldCode
  start : c.first ≤ (Source.linesOf x.toList).length + 1
  written : ∀ y, Source.splice x c.first c.last c.newCode = .ok y →
    Replaceable h (s.steps (s.diskSteps + 1)) c.file y

/-! ## The text that is written -/

/-- A change that could be made starts at a line. -/
theorem one_le_first_of_make (hc : c.make = .ok c) : 1 ≤ c.first := by
  unfold Change.make at hc
  split_ifs at hc with hpassed hrange
  simp only [Bool.or_eq_true, decide_eq_true_eq, not_or, Int.not_lt] at hrange
  exact hrange.1

/-- Lines can be replaced if the first of them is in the text or directly after it. -/
theorem splice_eq_ok_iff {content code : String} {first last : Int} (pos : 1 ≤ first) :
    (∃ y, Source.splice content first last code = .ok y) ↔
      first ≤ (Source.linesOf content.toList).length + 1 := by
  unfold Source.splice
  simp only
  split_ifs with hout
  · simp only [Bool.or_eq_true, decide_eq_true_eq] at hout
    constructor
    · rintro ⟨y, hy⟩
      cases hy
    · omega
  · simp only [Bool.or_eq_true, decide_eq_true_eq, not_or, Int.not_lt] at hout
    exact ⟨fun _ => by omega, fun _ => ⟨_, rfl⟩⟩

/-- A change gives a new text if its window is current and can be replaced. -/
theorem updated_eq_ok_iff :
    updated c x = .ok y ↔
      trimEnd '\n' (Source.extract x c.first c.last) = trimEnd '\n' c.oldCode ∧
        Source.splice x c.first c.last c.newCode = .ok y := by
  unfold updated isCurrent
  split_ifs with hcurrent
  · simp only [beq_iff_eq] at hcurrent
    simp [hcurrent]
  · simp only [beq_iff_eq] at hcurrent
    simp [hcurrent]

/-! ## Accepting -/

theorem readStrict_ok_iff {p : Path} :
    (∃ u, (readStrict p).outcome h s = (.ok x, u)) ↔
      h.refuse s.diskSteps (.read p) = none ∧
        ∃ b, s.disk.content p = .ok b ∧ Utf8.decodeStrict b = some x := by
  constructor
  · rintro ⟨u, hu⟩
    obtain ⟨b, hb, hx, -⟩ := content_of_readStrict hu
    refine ⟨?_, b, hb, hx⟩
    cases hr : h.refuse s.diskSteps (.read p) with
    | none => rfl
    | some f =>
      have hbytes : (readBytes p).outcome h s = (.error (.refusal f p), s.steps (s.diskSteps + 1)) := by
        rw [outcome_readBytes, hr]
      unfold readStrict at hu
      rw [outcome_bind_of_error hbytes] at hu
      cases hu
  · rintro ⟨hr, b, hb, hx⟩
    exact ⟨_, readStrict_of_content hr hb hx⟩

/-- Accepting is reading, making the new text, and replacing the file. -/
theorem accept_ok_iff_steps (hc : l.pending = some c) :
    (∃ a l' u, l.accept.outcome h s = (.ok (a, l'), u)) ↔
      ∃ x y, (∃ t, (readStrict c.file).outcome h s = (.ok x, t)) ∧ updated c x = .ok y ∧
        Replaceable h (s.steps (s.diskSteps + 1)) c.file y := by
  constructor
  · rintro ⟨a, l', u, hu⟩
    unfold accept at hu
    rw [hc] at hu
    simp only at hu
    obtain ⟨x, t, hread, hu⟩ := outcome_bind_eq_ok_iff.1 hu
    obtain ⟨b, -, -, rfl⟩ := content_of_readStrict hread
    obtain ⟨y, t, hafter, hu⟩ := outcome_bind_eq_ok_iff.1 hu
    rw [outcome_ofExcept] at hafter
    obtain ⟨hy, rfl⟩ := Prod.mk.inj hafter
    obtain ⟨⟨⟩, t, hw, -⟩ := outcome_bind_eq_ok_iff.1 hu
    exact ⟨x, y, ⟨_, hread⟩, hy, (replaceFile_ok_iff h _ c.file y).1 ⟨t, hw⟩⟩
  · rintro ⟨x, y, ⟨t, hread⟩, hy, hw⟩
    obtain ⟨b, -, -, rfl⟩ := content_of_readStrict hread
    obtain ⟨u, hu⟩ := (replaceFile_ok_iff h _ c.file y).2 hw
    unfold accept
    rw [hc]
    simp only
    rw [outcome_bind, hread]
    simp only
    rw [hy, outcome_ofExcept_ok_bind, outcome_bind, hu]
    exact ⟨_, _, _, rfl⟩

/-- The pending change is accepted exactly if it can be written. -/
theorem accept_ok_iff (made : ∀ c, l.pending = some c → c.make = .ok c) :
    (∃ a l' u, l.accept.outcome h s = (.ok (a, l'), u)) ↔
      ∃ c x, l.pending = some c ∧ Acceptable h s c x := by
  cases hc : l.pending with
  | none =>
    constructor
    · rintro ⟨a, l', u, hu⟩
      unfold accept at hu
      rw [hc] at hu
      cases hu
    · rintro ⟨c, x, hc', -⟩
      cases hc'
  | some c =>
    have pos := one_le_first_of_make (made c hc)
    rw [accept_ok_iff_steps hc]
    constructor
    · rintro ⟨x, y, hread, hy, hw⟩
      obtain ⟨hr, htext⟩ := readStrict_ok_iff.1 hread
      obtain ⟨hcurrent, hsplice⟩ := updated_eq_ok_iff.1 hy
      refine ⟨c, x, rfl, hr, htext, hcurrent, (splice_eq_ok_iff pos).1 ⟨y, hsplice⟩, fun y' hy' => ?_⟩
      obtain rfl : y = y' := Except.ok.inj (hsplice.symm.trans hy')
      exact hw
    · rintro ⟨c', x, hc', able⟩
      cases hc'
      obtain ⟨y, hsplice⟩ := (splice_eq_ok_iff pos).2 able.start
      exact ⟨x, y, readStrict_ok_iff.2 ⟨able.read, able.text⟩,
        updated_eq_ok_iff.2 ⟨able.current, hsplice⟩, able.written y hsplice⟩

/-- What an accepted change did. -/
theorem sets_of_accept (hu : l.accept.outcome h s = (.ok (a, l'), u)) :
    ∃ c x y b, l.pending = some c ∧ s.disk.content c.file = .ok b ∧ Utf8.decodeStrict b = some x ∧
      Source.splice x c.first c.last c.newCode = .ok y ∧ Sets s u c.file (Utf8.encode y) ∧
      a.file = c.file ∧ a.change = c ∧ a.before = x ∧ l' = l.enter a := by
  obtain ⟨c, hc, hl, acc⟩ := accepted_of_ok hu
  obtain ⟨b, hb, hx⟩ := acc.text
  obtain ⟨place, y, hy, hplace, htree⟩ := acc.tree
  exact ⟨c, a.before, y, b, hc, hb, hx, (updated_eq_ok_iff.1 hy).2, ⟨acc.here, place, hplace, htree⟩, acc.file,
    acc.change, rfl, hl⟩

theorem untouched_of_accept (hu : l.accept.outcome h s = (.error f, u)) : Untouched s u := by
  rcases accept_cases (h := h) l s with ⟨f', n, t, hf, hsame⟩ | ⟨c, a, u', -, hok, -⟩
  · rw [hu] at hf
    cases hf
    exact ⟨rfl, hsame⟩
  · rw [hu] at hok
    cases hok

/-! ## Rolling back -/

/-- The latest change is rolled back exactly if the text before it can be put in the place of its file. -/
theorem rollback_ok_iff :
    (∃ a l' u, l.rollback.outcome h s = (.ok (a, l'), u)) ↔
      ∃ a rest, l.history = a :: rest ∧ Replaceable h s a.file a.before := by
  constructor
  · rintro ⟨a, l', u, hu⟩
    unfold rollback at hu
    split at hu
    · cases hu
    · next a' rest hh =>
      obtain ⟨⟨⟩, t, hw, -⟩ := outcome_bind_eq_ok_iff.1 hu
      exact ⟨a', rest, hh, (replaceFile_ok_iff h s a'.file a'.before).1 ⟨t, hw⟩⟩
  · rintro ⟨a, rest, hh, hw⟩
    obtain ⟨u, hu⟩ := (replaceFile_ok_iff h s a.file a.before).2 hw
    unfold rollback
    rw [hh]
    simp only
    rw [outcome_bind, hu]
    exact ⟨_, _, _, rfl⟩

/-- What a change rolled back did. -/
theorem sets_of_rollback (hu : l.rollback.outcome h s = (.ok (a, l'), u)) :
    l.history = a :: l'.history ∧ l' = { l with history := l'.history } ∧
      Sets s u a.file (Utf8.encode a.before) := by
  rcases rollback_cases (h := h) l s with ⟨f, n, t, hf, -⟩ | ⟨a', rest, u', hh, hok, rolled⟩
  · rw [hu] at hf
    cases hf
  · rw [hu] at hok
    cases hok
    exact ⟨hh, rfl, rolled.here, rolled.tree⟩

theorem untouched_of_rollback (hu : l.rollback.outcome h s = (.error f, u)) : Untouched s u := by
  rcases rollback_cases (h := h) l s with ⟨f', n, t, hf, hsame⟩ | ⟨a, rest, u', -, hok, -⟩
  · rw [hu] at hf
    cases hf
    exact ⟨rfl, hsame⟩
  · rw [hu] at hok
    cases hok

/-! ## Success, its effect, and failure without one -/

/-- The change of the second line, as it is made when review and validation have passed. -/
def verifiedChange : Change :=
  { mixedChange with review := ⟨true, "", []⟩, validation := .pass "" none }

/-- A disk on which no file can take the place of another. -/
def jammedHost : Host :=
  { Host.quiet with
    refuse := fun _ step => if step = .replace verifiedChange.file then some .denied else none }

end FixGate.Ledger
