import FixGate.Proofs.Analysis.Analyzers

/-!
# Which analyzer looks for a finding again

The families to try are asked in order: the one that reported the finding, and then the usual ones of the
language. The first that has an analyzer which can run is chosen, and where none has one, no analyzer is.

* `Registry.NoneCanRun` : families that were asked in vain
* `Registry.Chosen` : the analyzer of the first family that was not
* `Registry.forIssue_eq_none_iff`, `Registry.forIssue_eq_some_iff` : the choice comes to one or the other
* `Registry.Chosen.disk` : choosing changes no file itself
-/

namespace FixGate.Registry

open Act

variable {r : Registry} {h : Host} {s t u : State} {families rest : List String} {family : String}
  {a : Analyzer}

/-- Each of these families, asked in turn, has no analyzer, or one that cannot run. -/
inductive NoneCanRun (r : Registry) (h : Host) : List String → State → State → Prop
  | nil (s : State) : NoneCanRun r h [] s s
  | absent {family : String} {rest : List String} {s t : State} :
      r.get? family = none → NoneCanRun r h rest s t → NoneCanRun r h (family :: rest) s t
  | unable {family : String} {rest : List String} {a : Analyzer} {s t u : State} :
      r.get? family = some a → a.available.outcome h s = (.ok false, t) →
        NoneCanRun r h rest t u → NoneCanRun r h (family :: rest) s u

/-- The analyzer of the first of these families that has one which can run. -/
def Chosen (r : Registry) (h : Host) (families : List String) (a : Analyzer) (s u : State) : Prop :=
  ∃ before family after t, families = before ++ family :: after ∧ r.NoneCanRun h before s t ∧
    r.get? family = some a ∧ a.available.outcome h t = (.ok true, u)

/-! ## Asking one family after another -/

theorem outcome_firstAvailable_of_absent (absent : r.get? family = none) :
    (r.firstAvailable (family :: rest)).outcome h s = (r.firstAvailable rest).outcome h s := by
  rw [firstAvailable, absent]

theorem outcome_firstAvailable_of_unable (found : r.get? family = some a)
    (unable : a.available.outcome h s = (.ok false, t)) :
    (r.firstAvailable (family :: rest)).outcome h s = (r.firstAvailable rest).outcome h t := by
  rw [firstAvailable, found]
  exact outcome_bind_of_ok unable _

theorem outcome_firstAvailable_of_able (found : r.get? family = some a)
    (able : a.available.outcome h s = (.ok true, t)) :
    (r.firstAvailable (family :: rest)).outcome h s = (.ok (some a), t) := by
  rw [firstAvailable, found]
  exact outcome_bind_of_ok able _

/-- A choice among a family and others that was made leaves the family out, or is its analyzer. -/
theorem firstAvailable_cons_cases {x : Option Analyzer}
    (hx : (r.firstAvailable (family :: rest)).outcome h s = (.ok x, u)) :
    (r.get? family = none ∧ (r.firstAvailable rest).outcome h s = (.ok x, u)) ∨
      (∃ a t, r.get? family = some a ∧ a.available.outcome h s = (.ok false, t) ∧
        (r.firstAvailable rest).outcome h t = (.ok x, u)) ∨
      ∃ a, r.get? family = some a ∧ a.available.outcome h s = (.ok true, u) ∧ x = some a := by
  cases found : r.get? family with
  | none =>
    rw [outcome_firstAvailable_of_absent found] at hx
    exact .inl ⟨rfl, hx⟩
  | some a =>
    right
    rw [firstAvailable, found] at hx
    obtain ⟨ready, t, hready, hrest⟩ := outcome_bind_eq_ok_iff.1 hx
    cases ready with
    | false => exact .inl ⟨a, t, rfl, hready, hrest⟩
    | true =>
      cases hrest
      exact .inr ⟨a, rfl, hready, rfl⟩

theorem firstAvailable_eq_none_iff :
    (r.firstAvailable families).outcome h s = (.ok none, u) ↔ r.NoneCanRun h families s u := by
  constructor
  · intro hnone
    induction families generalizing s with
    | nil =>
      cases hnone
      exact .nil _
    | cons family rest ih =>
      rcases firstAvailable_cons_cases hnone with ⟨absent, hrest⟩ | ⟨a, t, found, unable, hrest⟩ |
        ⟨a, -, -, hsome⟩
      · exact .absent absent (ih hrest)
      · exact .unable found unable (ih hrest)
      · cases hsome
  · intro vain
    induction vain with
    | nil s => rfl
    | absent absent _ ih =>
      rw [outcome_firstAvailable_of_absent absent]
      exact ih
    | unable found unable _ ih =>
      rw [outcome_firstAvailable_of_unable found unable]
      exact ih

theorem firstAvailable_eq_some_iff :
    (r.firstAvailable families).outcome h s = (.ok (some a), u) ↔ r.Chosen h families a s u := by
  constructor
  · intro hsome
    induction families generalizing s with
    | nil => cases hsome
    | cons family rest ih =>
      rcases firstAvailable_cons_cases hsome with ⟨absent, hrest⟩ | ⟨b, t, found, unable, hrest⟩ |
        ⟨b, found, able, heq⟩
      · obtain ⟨before, chosen, after, w, rfl, vain, hchosen⟩ := ih hrest
        exact ⟨family :: before, chosen, after, w, rfl, .absent absent vain, hchosen⟩
      · obtain ⟨before, chosen, after, w, rfl, vain, hchosen⟩ := ih hrest
        exact ⟨family :: before, chosen, after, w, rfl, .unable found unable vain, hchosen⟩
      · cases heq
        exact ⟨[], family, rest, _, rfl, .nil _, found, able⟩
  · rintro ⟨before, family, after, t, rfl, vain, found, able⟩
    induction vain with
    | nil s => exact outcome_firstAvailable_of_able found able
    | absent absent _ ih =>
      rw [List.cons_append, outcome_firstAvailable_of_absent absent]
      exact ih able
    | unable found' unable _ ih =>
      rw [List.cons_append, outcome_firstAvailable_of_unable found' unable]
      exact ih able

/-! ## The analyzer of a finding -/

/-- No analyzer is chosen exactly if none of the families of a finding has one that can run. -/
theorem forIssue_eq_none_iff {i : Issue} {language : Option Language} :
    (r.forIssue i language).outcome h s = (.ok none, u) ↔
      r.NoneCanRun h (familiesFor i language) s u :=
  firstAvailable_eq_none_iff

/-- An analyzer is chosen exactly if it is that of the first family of a finding which has one that can
run. -/
theorem forIssue_eq_some_iff {i : Issue} {language : Option Language} :
    (r.forIssue i language).outcome h s = (.ok (some a), u) ↔
      r.Chosen h (familiesFor i language) a s u :=
  firstAvailable_eq_some_iff

/-- Where programs leave the files alone, so do analyzers that are asked whether they can run. -/
theorem Chosen.disk (alone : ∀ n r t, (h.run n r t).2 = t) (hr : ∀ a ∈ r, a.Outsourced)
    (chosen : r.Chosen h families a s u) : u.disk = s.disk := by
  have hasked := (firstAvailable_outsourced hr families).disk_eq alone s
  rw [firstAvailable_eq_some_iff.2 chosen] at hasked
  exact hasked

end FixGate.Registry
