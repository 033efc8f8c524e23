import FixGate.Ledger
import FixGate.Proofs.Repair.Generation

/-!
# Where a change comes from

A repair works through its parts. What each of them keeps, the whole repair keeps, whatever comes of it; and
if a change comes of it, then what the change makes of the text that was read has passed a validation, which
was the last thing the repair did. This holds for windows of any kind.

* `Repair.Stays` : a relation between states that the parts of a repair keep
* `Repair.Stays.fixWithNote` : so does the repair
* `Validated` : what a change makes of a text passed a validation
* `Repair.exists_validated_of_fixWithNote` : a change that a repair makes was validated
-/

namespace FixGate

open Act

variable {r : Repair} {i : Issue} {h : Host} {R : State → State → Prop} {s t u : State} {c : Change}
  {k : Task} {p : Plan} {code : String} {review : Review} {feedback note : Option String}

/-- What a change makes of a text was validated for a finding, between two states, and passed. -/
structure Validated (r : Repair) (i : Issue) (h : Host) (content : String) (c : Change) (t w : State) :
    Prop where
  file : c.file = i.file
  passed : c.validation.passed = true
  candidate : ∃ x, Ledger.updated c content = .ok x ∧
    (r.parts.validate i.file x i).outcome h t = (.ok c.validation, w)

namespace Repair

/-! ## What the parts keep -/

/-- The parts that work on a finding keep a relation between states, and so do the steps of the disk and the
ids that are drawn. -/
structure Stays (r : Repair) (i : Issue) (h : Host) (R : State → State → Prop) : Prop where
  refl : ∀ s, R s s
  trans : ∀ s t u, R s t → R t u → R s u
  plan : ∀ code feedback, Keeps h R (r.parts.plan i code feedback)
  implement : ∀ code p, Keeps h R (r.parts.implement code p i)
  review : ∀ code p newCode, Keeps h R (r.parts.review code p newCode i)
  validate : ∀ candidate, Keeps h R (r.parts.validate i.file candidate i)
  steps : ∀ (s : State) (n : Nat), R s (s.steps n)
  drawId : Keeps h R (drawId "fix")

namespace Stays

theorem rejected (stays : r.Stays i h R) (k : Task) (reason : String → String) :
    Keeps h R (k.rejected reason) :=
  (Keeps.ofExcept stays.refl _).bind stays.trans fun _ => Keeps.pure stays.refl _

theorem validateCode (stays : r.Stays k.issue h R) (p : Plan) (code : String) (review : Review) :
    Keeps h R (r.validateCode k p code review) := by
  refine (Keeps.ofExcept stays.refl _).bind stays.trans fun x =>
    (stays.validate x).bind stays.trans fun v => ?_
  split
  · exact stays.rejected k _
  · exact stays.drawId.bind stays.trans fun _ =>
      (Keeps.ofExcept stays.refl _).bind stays.trans fun _ => Keeps.pure stays.refl _

theorem reviewCode (stays : r.Stays k.issue h R) (p : Plan) (code : String) :
    Keeps h R (r.reviewCode k p code) := by
  refine (stays.review _ _ _).bind stays.trans fun review => ?_
  split
  · exact stays.rejected k _
  · exact stays.validateCode p code review

theorem followPlan (stays : r.Stays k.issue h R) (p : Plan) : Keeps h R (r.followPlan k p) := by
  refine (stays.implement _ _).bind stays.trans fun code => ?_
  split
  · exact Keeps.throw stays.refl _
  · exact stays.reviewCode p code

/-- An attempt keeps what the parts keep. -/
theorem attempt (stays : r.Stays k.issue h R) (feedback : Option String) :
    Keeps h R (r.attempt k feedback) := by
  refine (stays.plan _ _).bind stays.trans fun p => ?_
  split
  · exact Keeps.throw stays.refl _
  · exact stays.followPlan p

/-- So do the attempts that are left. -/
theorem attemptsFrom (stays : r.Stays i h R) (content : String) (w : Source.Window) (retries : Nat)
    (note feedback : Option String) (left : Nat) :
    Keeps h R (r.attemptsFrom i content w retries note feedback left) := by
  induction left generalizing feedback with
  | zero => exact Keeps.throw stays.refl _
  | succ left ih =>
    unfold Repair.attemptsFrom
    refine (stays.attempt (k := ⟨i, content, w, _, retries⟩) _).caught.bind stays.trans fun x => ?_
    split
    · exact Keeps.pure stays.refl _
    · exact ih _
    · split
      · exact Keeps.throw stays.refl _
      · exact (Keeps.ofExcept stays.refl _).bind stays.trans fun _ => ih _

theorem windowFor (stays : r.Stays i h R) : Keeps h R (r.windowFor i) := by
  intro s
  obtain ⟨n, ⟨b, w, -, -, hw⟩ | ⟨f, hf⟩⟩ := windowFor_cases (h := h) r i s
  · rw [hw]
    exact stays.steps s n
  · rw [hf]
    exact stays.steps s n

/-- So does the whole repair. -/
theorem fixWithNote (stays : r.Stays i h R) (maxRetries : Option Int) (note : Option String) :
    Keeps h R (r.fixWithNote i maxRetries note) := by
  unfold Repair.fixWithNote
  simp only
  split
  · exact Keeps.throw stays.refl _
  · refine (Keeps.disk stays.refl).bind stays.trans fun d =>
      (Keeps.ofExcept stays.refl _).bind stays.trans fun there => ?_
    split
    · exact Keeps.throw stays.refl _
    · exact stays.windowFor.bind stays.trans fun x => stays.attemptsFrom _ _ _ _ _ _

end Stays

/-! ## The validation of a change -/

/-- A change that the end of an attempt makes was validated there. -/
theorem exists_validated_of_validateCode
    (current : k.window.code = Source.extract k.content k.window.first k.window.last)
    (hmade : (r.validateCode k p code review).outcome h s = (.ok (.made c), u)) :
    ∃ w, Validated r k.issue h k.content c s w ∧ u = { w with ids := w.ids + 1 } := by
  unfold validateCode at hmade
  simp only at hmade
  obtain ⟨x, s', hx, hmade⟩ := outcome_bind_eq_ok_iff.1 hmade
  rw [outcome_ofExcept] at hx
  obtain ⟨hsplice, rfl⟩ := Prod.mk.inj hx
  obtain ⟨verdict, w, hvalid, hmade⟩ := outcome_bind_eq_ok_iff.1 hmade
  cases hpass : verdict.passed with
  | false =>
    simp only [hpass, Bool.not_false, if_true] at hmade
    obtain ⟨text, t, -, hrejected⟩ := outcome_bind_eq_ok_iff.1 hmade
    cases hrejected
  | true =>
    simp only [hpass, Bool.not_true, Bool.false_eq_true, if_false] at hmade
    rw [outcome_bind, outcome_drawId] at hmade
    simp only at hmade
    obtain ⟨c', t, hdrawn, hmade⟩ := outcome_bind_eq_ok_iff.1 hmade
    rw [outcome_ofExcept] at hdrawn
    obtain ⟨hc, rfl⟩ := Prod.mk.inj hdrawn
    cases hmade
    obtain rfl := eq_of_make hc
    refine ⟨w, ⟨rfl, hpass, x, ?_, hvalid⟩, rfl⟩
    unfold Ledger.updated Ledger.isCurrent
    simp only [current, beq_self_eq_true, if_true]
    exact hsplice

/-- A change that an attempt makes was validated at its end. -/
theorem exists_validated_of_attempt (stays : r.Stays k.issue h R)
    (current : k.window.code = Source.extract k.content k.window.first k.window.last)
    (hmade : (r.attempt k feedback).outcome h s = (.ok (.made c), u)) :
    ∃ t w, R s t ∧ Validated r k.issue h k.content c t w ∧ u = { w with ids := w.ids + 1 } := by
  unfold attempt at hmade
  obtain ⟨p, t₁, hplan, hmade⟩ := outcome_bind_eq_ok_iff.1 hmade
  split_ifs at hmade
  · cases hmade
  unfold followPlan at hmade
  obtain ⟨code, t₂, hcode, hmade⟩ := outcome_bind_eq_ok_iff.1 hmade
  split_ifs at hmade
  · cases hmade
  unfold reviewCode at hmade
  obtain ⟨review, t₃, hreview, hmade⟩ := outcome_bind_eq_ok_iff.1 hmade
  split_ifs at hmade
  · obtain ⟨text, t, -, hrejected⟩ := outcome_bind_eq_ok_iff.1 hmade
    cases hrejected
  obtain ⟨w, validated, hu⟩ := exists_validated_of_validateCode current hmade
  have planned := stays.plan k.window.code feedback s
  have implemented := stays.implement k.window.code p t₁
  have reviewed := stays.review k.window.code p code t₂
  rw [hplan] at planned
  rw [hcode] at implemented
  rw [hreview] at reviewed
  exact ⟨t₃, w, stays.trans _ _ _ (stays.trans _ _ _ planned implemented) reviewed, validated, hu⟩

/-- A change that comes of the attempts that are left was validated at the end of the last one. -/
theorem exists_validated_of_attemptsFrom (stays : r.Stays i h R) {content : String} {w : Source.Window}
    (current : w.code = Source.extract content w.first w.last) {retries left : Nat}
    (hmade : (r.attemptsFrom i content w retries note feedback left).outcome h s = (.ok c, u)) :
    ∃ t w, R s t ∧ Validated r i h content c t w ∧ u = { w with ids := w.ids + 1 } := by
  induction left generalizing feedback s with
  | zero => cases hmade
  | succ left ih =>
    unfold attemptsFrom at hmade
    simp only at hmade
    rw [outcome_bind, outcome_caught] at hmade
    have attempted := stays.attempt (k := ⟨i, content, w, retries - left, retries⟩)
      (joinedFeedback [note, feedback]) s
    rcases hx : (r.attempt ⟨i, content, w, retries - left, retries⟩
      (joinedFeedback [note, feedback])).outcome h s with ⟨x, t⟩
    rw [hx] at hmade attempted
    simp only at hmade attempted
    -- after an attempt in vain the change comes of those that are left
    have later {feedback : Option String}
        (hlater : (r.attemptsFrom i content w retries note feedback left).outcome h t = (.ok c, u)) :
        ∃ t w, R s t ∧ Validated r i h content c t w ∧ u = { w with ids := w.ids + 1 } := by
      obtain ⟨t', w', ht, hlast⟩ := ih hlater
      exact ⟨t', w', stays.trans _ _ _ attempted ht, hlast⟩
    rcases x with f | c' | reason
    · simp only at hmade
      split_ifs at hmade
      · cases hmade
      · obtain ⟨text, t', htext, hmade⟩ := outcome_bind_eq_ok_iff.1 hmade
        rw [outcome_ofExcept] at htext
        obtain ⟨-, rfl⟩ := Prod.mk.inj htext
        exact later hmade
    · cases hmade
      exact exists_validated_of_attempt (k := ⟨i, content, w, retries - left, retries⟩) stays current hx
    · exact later hmade

/-- **A change that a repair makes was validated**: what it makes of the text that the repair read passed,
and nothing but its id was drawn since. -/
theorem exists_validated_of_fixWithNote (stays : r.Stays i h R) {maxRetries : Option Int}
    (hfix : (r.fixWithNote i maxRetries note).outcome h s = (.ok c, u)) :
    ∃ b t w, s.disk.content i.file = .ok b ∧ R s t ∧ Validated r i h (Source.decode b) c t w ∧
      u = { w with ids := w.ids + 1 } := by
  obtain ⟨n, b, w, hb, hspec, hattempts⟩ := exists_attemptsFrom_of_fixWithNote hfix
  obtain ⟨t', w', ht, hlast⟩ := exists_validated_of_attemptsFrom stays (Source.code_of_windowOf hspec) hattempts
  exact ⟨b, t', w', hb, stays.trans _ _ _ (stays.steps s n) ht, hlast⟩

end Repair

end FixGate
