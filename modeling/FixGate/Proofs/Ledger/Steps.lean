import FixGate.Ledger
import FixGate.Proofs.Act.Files
import FixGate.Proofs.Text.Utf8

/-!
# The steps of the ledger

Accepting a change and rolling one back replace one file as a whole, or fail and leave both the ledger and
every file as they were.

* `Ledger.Accepted`, `Ledger.accept_cases`, `Ledger.accepted_of_ok` : what accepting the pending change comes to
* `Ledger.accept_of_steady`, `Ledger.exists_accepted_of_steady` : when it succeeds
* `Ledger.RolledBack`, `Ledger.rollback_cases` : what rolling back comes to
* `Ledger.rollback_of_steady` : when it succeeds
-/

namespace FixGate.Ledger

open Act FileTree Text

variable {h : Host} {s t u : State} {l : Ledger} {c : Change} {a : Applied} {place : Location}
  {b : List UInt8} {x : String} {f : Failure}

/-! ## Accepting -/

/-- A change was written to its file: what was read before, and what stands there now. -/
structure Accepted (s u : State) (c : Change) (a : Applied) : Prop where
  change : a.change = c
  file : a.file = c.file
  here : u.disk.here = s.disk.here
  text : ∃ b, s.disk.content c.file = .ok b ∧ Utf8.decodeStrict b = some a.before
  tree : ∃ place x, updated c a.before = .ok x ∧ s.disk.locateNew c.file = .ok place ∧
    ∀ k, u.disk.tree.get? k =
      if k = place then some (.file (Utf8.encode x)) else s.disk.tree.get? k
  temp : ∃ temp, placeBeside s.disk c.file = .ok temp

/-- Accepting fails and leaves every entry of the tree, or writes the pending change. -/
theorem accept_cases (l : Ledger) (s : State) :
    (∃ f n t, l.accept.outcome h s = (.error f, (s.steps n).withTree t) ∧ t.Same s.disk.tree) ∨
      ∃ c a u, l.pending = some c ∧ l.accept.outcome h s = (.ok (a, l.enter a), u) ∧
        Accepted s u c a := by
  unfold accept
  cases hc : l.pending with
  | none => exact .inl ⟨_, s.diskSteps, s.disk.tree, rfl, .refl _⟩
  | some c =>
    simp only
    rw [outcome_bind]
    rcases hread : (readStrict c.file).outcome h s with ⟨f | before, s₁⟩
    · have hs₁ : s₁ = s.steps (s.diskSteps + 1) := by
        rw [← outcome_readStrict_snd (h := h) c.file, hread]
      subst hs₁
      exact .inl ⟨f, s.diskSteps + 1, s.disk.tree, rfl, .refl _⟩
    obtain ⟨b, hb, hbefore, rfl⟩ := content_of_readStrict hread
    simp only
    rw [outcome_bind, outcome_ofExcept]
    cases hx : updated c before with
    | error f => exact .inl ⟨f, s.diskSteps + 1, s.disk.tree, rfl, .refl _⟩
    | ok x =>
      simp only
      rw [outcome_bind]
      rcases replaceFile_cases (h := h) c.file x (s.steps (s.diskSteps + 1)) with
        ⟨f, n, t, hw, ht⟩ | ⟨place, n, t, hw, hplace, -, ht⟩
      · rw [hw]
        exact .inl ⟨f, n, t, rfl, ht⟩
      · have htemp : ∃ temp, placeBeside s.disk c.file = .ok temp := by
          cases hp : placeBeside s.disk c.file with
          | ok temp => exact ⟨temp, rfl⟩
          | error f =>
            rw [replaceFile_of_placeBeside_error (s := s.steps (s.diskSteps + 1)) hp] at hw
            cases hw
        rw [hw]
        exact .inr ⟨c, _, _, rfl, rfl, rfl, rfl, rfl, ⟨b, hb, hbefore⟩, ⟨place, x, hx, hplace, ht⟩,
          htemp⟩

/-- Where accepting succeeds, the pending change was written and entered. -/
theorem accepted_of_ok {l' : Ledger} (hok : l.accept.outcome h s = (.ok (a, l'), u)) :
    ∃ c, l.pending = some c ∧ l' = l.enter a ∧ Accepted s u c a := by
  rcases accept_cases (h := h) l s with ⟨f, n, t, hf, -⟩ | ⟨c, a', u', hc, hok', acc⟩
  · cases hok.symm.trans hf
  · cases hok.symm.trans hok'
    exact ⟨c, hc, rfl, acc⟩

/-- On a disk that refuses nothing, a change that fits the text of its file is accepted if a temporary
file can be made beside it. -/
theorem accept_of_steady (steady : h.steady) (hc : l.pending = some c)
    (hb : s.disk.content c.file = .ok b) (hbefore : Utf8.decodeStrict b = some x) {y : String}
    (hy : updated c x = .ok y) (hty : Failure.checkText y = .ok ()) {temp : Location}
    (htemp : placeBeside s.disk c.file = .ok temp) :
    ∃ a u, l.accept.outcome h s = (.ok (a, l.enter a), u) := by
  obtain ⟨place, hplace, -⟩ := Disk.exists_locateNew_of_content hb
  obtain ⟨t, ht⟩ := exists_replaceFile_ok (s := s.steps (s.diskSteps + 1)) steady htemp hplace hty
  unfold accept
  rw [hc]
  simp only
  rw [outcome_bind, readStrict_of_content (steady _ _) hb hbefore]
  simp only
  rw [hy, outcome_ofExcept_ok_bind, outcome_bind, ht]
  exact ⟨_, _, rfl⟩

/-- The file of an accepted change holds what the change makes of its text. -/
theorem Accepted.content (acc : Accepted s u c a) {y : String} (hy : updated c a.before = .ok y) :
    u.disk.content c.file = .ok (Utf8.encode y) := by
  obtain ⟨place, y', hy', hplace, htree⟩ := acc.tree
  obtain rfl : y' = y := Except.ok.inj (hy'.symm.trans hy)
  have dirs : s.disk.tree.SameDirs u.disk.tree := by
    intro k
    rw [htree]
    by_cases hk : k = place
    · subst hk
      simp [Disk.get?_ne_dir_of_locateNew hplace]
    · rw [if_neg hk]
  apply (Disk.content_eq_ok_iff_of_locateNew (Disk.locateNew_of_sameDirs dirs acc.here hplace)).2
  rw [htree, if_pos rfl]

/-- Such a change is written, and the text before it is kept. -/
theorem exists_accepted_of_steady (steady : h.steady) (hc : l.pending = some c)
    (hb : s.disk.content c.file = .ok b) (hbefore : Utf8.decodeStrict b = some x) {y : String}
    (hy : updated c x = .ok y) (hty : Failure.checkText y = .ok ()) {temp : Location}
    (htemp : placeBeside s.disk c.file = .ok temp) :
    ∃ a u, l.accept.outcome h s = (.ok (a, l.enter a), u) ∧ Accepted s u c a ∧ a.before = x ∧
      u.disk.content c.file = .ok (Utf8.encode y) := by
  obtain ⟨a, u, hok⟩ := accept_of_steady steady hc hb hbefore hy hty htemp
  obtain ⟨c', hc', -, acc⟩ := accepted_of_ok hok
  obtain rfl : c = c' := Option.some.inj (hc.symm.trans hc')
  obtain ⟨b', hb', hbefore'⟩ := acc.text
  obtain rfl : b = b' := Except.ok.inj (hb.symm.trans hb')
  obtain rfl : x = a.before := Option.some.inj (hbefore.symm.trans hbefore')
  exact ⟨a, u, hok, acc, rfl, acc.content hy⟩

/-- Where no temporary file can be made, the change is not written. -/
theorem accept_of_placeBeside_error (steady : h.steady) (hc : l.pending = some c)
    (hb : s.disk.content c.file = .ok b) (hbefore : Utf8.decodeStrict b = some x) {y : String}
    (hy : updated c x = .ok y) (hf : placeBeside s.disk c.file = .error f) :
    l.accept.outcome h s = (.error f, s.steps (s.diskSteps + 1)) := by
  unfold accept
  rw [hc]
  simp only
  rw [outcome_bind, readStrict_of_content (steady _ _) hb hbefore]
  simp only
  rw [hy, outcome_ofExcept_ok_bind]
  exact outcome_bind_of_error (replaceFile_of_placeBeside_error (s := s.steps (s.diskSteps + 1)) hf) _

/-! ## Rolling back -/

/-- The file of an applied change has its text back. -/
structure RolledBack (s u : State) (a : Applied) : Prop where
  here : u.disk.here = s.disk.here
  tree : ∃ place, s.disk.locateNew a.file = .ok place ∧
    ∀ k, u.disk.tree.get? k =
      if k = place then some (.file (Utf8.encode a.before)) else s.disk.tree.get? k

/-- Rolling back fails and leaves every entry of the tree, or restores the file of the latest change. -/
theorem rollback_cases (l : Ledger) (s : State) :
    (∃ f n t, l.rollback.outcome h s = (.error f, (s.steps n).withTree t) ∧ t.Same s.disk.tree) ∨
      ∃ a rest u, l.history = a :: rest ∧
        l.rollback.outcome h s = (.ok (a, { l with history := rest }), u) ∧ RolledBack s u a := by
  unfold rollback
  cases hh : l.history with
  | nil => exact .inl ⟨_, s.diskSteps, s.disk.tree, rfl, .refl _⟩
  | cons a rest =>
    simp only
    rw [outcome_bind]
    rcases replaceFile_cases (h := h) a.file a.before s with
      ⟨f, n, t, hw, ht⟩ | ⟨place, n, t, hw, hplace, -, ht⟩
    · rw [hw]
      exact .inl ⟨f, n, t, rfl, ht⟩
    · rw [hw]
      exact .inr ⟨a, rest, _, rfl, rfl, rfl, place, hplace, ht⟩

/-- On a disk that refuses nothing, the latest change is rolled back if its text can be written and a
temporary file can be made beside its file. -/
theorem rollback_of_steady (steady : h.steady) {rest : List Applied} (hh : l.history = a :: rest)
    (hplace : s.disk.locateNew a.file = .ok place) (ht : Failure.checkText a.before = .ok ())
    {temp : Location} (htemp : placeBeside s.disk a.file = .ok temp) :
    ∃ u, l.rollback.outcome h s = (.ok (a, { l with history := rest }), u) ∧ RolledBack s u a := by
  obtain ⟨t, hw⟩ := exists_replaceFile_ok steady htemp hplace ht
  have hok : l.rollback.outcome h s = (.ok (a, { l with history := rest }), t) := by
    unfold rollback
    rw [hh]
    simp only
    rw [outcome_bind, hw]
    rfl
  refine ⟨t, hok, ?_⟩
  rcases rollback_cases (h := h) l s with ⟨f, n, t', hf, -⟩ | ⟨a', rest', u, hh', hu, hrolled⟩
  · rw [hok] at hf
    cases hf
  · rw [hh] at hh'
    cases hh'
    rw [hok] at hu
    cases hu
    exact hrolled

end FixGate.Ledger
