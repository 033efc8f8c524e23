import FixGate.Repair
import FixGate.Proofs.Act.Outcome
import FixGate.Proofs.Source.Window

/-!
# The attempts of a repair

What a repair does to its surroundings is to call the parts that make a fix, one after another. The calls
fall into attempts, each of which goes through planning, coding, review and validation as far as it gets,
and no further. Whatever the parts answer, the attempts are made up to the first one that passes, or all
of them are.

* `Exchange`, `Repair.Exchanged` : a call with its answer, and a sequence of them that leads from one state
  to another
* `Attempt`, `Attempt.Proper` : an attempt by how far it got, and what each answer must be like for that
* `Attempt.Makes` : a change that holds what one attempt came to
* `Setback`, `Attempt.Meets` : how an attempt ends that gives no change
* `Repair.attempt_turns` : one attempt gives a change or meets a setback
* `Repair.attempt_ends`, `Repair.exists_attempt_made` : one attempt whose window fits the text
* `Repair.outcome_attemptsFrom_succ`, `Repair.attemptsFrom_spec` : the attempts that are left
-/

namespace FixGate

open Act

/-! ## Calls and answers -/

/-- What a part answers a call with. -/
def Call.Answer : Call → Type
  | .plan _ _ => Plan
  | .implement _ _ => String
  | .review _ _ _ => Review
  | .validate _ _ => Validation

/-- A call, and what came of it. -/
structure Exchange where
  call : Call
  answer : Except Failure call.Answer

/-- What a part does when it is called. -/
def Repair.answer (r : Repair) (i : Issue) : (c : Call) → Act c.Answer
  | .plan code feedback => r.parts.plan i code feedback
  | .implement code p => r.parts.implement code p i
  | .review code p newCode => r.parts.review code p newCode i
  | .validate file candidate => r.parts.validate file candidate i

/-- Calls made one after another, with what came of each, lead from a state to another. -/
inductive Repair.Exchanged (r : Repair) (i : Issue) (h : Host) : State → List Exchange → State → Prop
  | nil (s : State) : Exchanged r i h s [] s
  | cons {s t u : State} {e : Exchange} {es : List Exchange} :
      (r.answer i e.call).outcome h s = (e.answer, t) → Exchanged r i h t es u →
        Exchanged r i h s (e :: es) u

variable {r : Repair} {i : Issue} {h : Host} {s t u : State} {es es' : List Exchange}
  {content : String} {w : Source.Window}

theorem Repair.Exchanged.append (first : r.Exchanged i h s es t) (second : r.Exchanged i h t es' u) :
    r.Exchanged i h s (es ++ es') u := by
  induction first with
  | nil s => exact second
  | cons he _ ih => exact .cons he (ih second)

theorem Repair.Exchanged.concat {e : Exchange} (first : r.Exchanged i h s es t)
    (he : (r.answer i e.call).outcome h t = (e.answer, u)) : r.Exchanged i h s (es ++ [e]) u :=
  first.append (.cons he (.nil u))

/-- The last of some calls follows the others. -/
theorem Repair.Exchanged.of_concat {e : Exchange} (exch : r.Exchanged i h s (es ++ [e]) u) :
    ∃ t, r.Exchanged i h s es t ∧ (r.answer i e.call).outcome h t = (e.answer, u) := by
  induction es generalizing s with
  | nil =>
    cases exch with
    | cons he rest =>
      cases rest
      exact ⟨s, .nil s, he⟩
  | cons e' es ih =>
    cases exch with
    | cons he rest =>
      obtain ⟨t, ht, hlast⟩ := ih rest
      exact ⟨t, .cons he ht, hlast⟩

/-! ## Attempts -/

/-- An attempt, by the last part that it called: what that part answered, and what the ones before it
gave. -/
inductive Attempt where
  | planned (feedback : Option String) (plan : Except Failure Plan)
  | implemented (feedback : Option String) (plan : Plan) (code : Except Failure String)
  | reviewed (feedback : Option String) (plan : Plan) (code : String) (review : Except Failure Review)
  | validated (feedback : Option String) (plan : Plan) (code : String) (review : Review)
      (candidate : String) (validation : Except Failure Validation)

namespace Attempt

/-- The calls of an attempt to fix some code of a file: each part once, in order, as far as it got. -/
def exchanges (file : Path) (old : String) : Attempt → List Exchange
  | planned feedback plan => [⟨.plan old feedback, plan⟩]
  | implemented feedback plan code => [⟨.plan old feedback, .ok plan⟩, ⟨.implement old plan, code⟩]
  | reviewed feedback plan code review =>
    [⟨.plan old feedback, .ok plan⟩, ⟨.implement old plan, .ok code⟩, ⟨.review old plan code, review⟩]
  | validated feedback plan code review candidate validation =>
    [⟨.plan old feedback, .ok plan⟩, ⟨.implement old plan, .ok code⟩,
      ⟨.review old plan code, .ok review⟩, ⟨.validate file candidate, validation⟩]

/-- What the planner was told at an attempt. -/
def feedback : Attempt → Option String
  | planned feedback _ => feedback
  | implemented feedback _ _ => feedback
  | reviewed feedback _ _ _ => feedback
  | validated feedback _ _ _ _ _ => feedback

/-- An attempt got as far as its answers allow: the coder follows a plan with steps, the reviewer code
that is not blank, and the validator a passed review, on the text with the window replaced by the code. -/
def Proper (content : String) (w : Source.Window) : Attempt → Prop
  | planned _ plan => ∀ p, plan = .ok p → p.steps = []
  | implemented _ plan code => plan.steps ≠ [] ∧ ∀ c, code = .ok c → Text.isBlankText c = true
  | reviewed _ plan code review =>
    plan.steps ≠ [] ∧ Text.isBlankText code = false ∧ ∀ v, review = .ok v → v.passed = false
  | validated _ plan code review candidate _ =>
    plan.steps ≠ [] ∧ Text.isBlankText code = false ∧ review.passed = true ∧
      Source.splice content w.first w.last code = .ok candidate

/-- An attempt got to its last part: the coder follows a plan with steps, the reviewer code that is not blank,
and the validator a passed review, on the text with the window replaced by the code. -/
def Reached (content : String) (w : Source.Window) : Attempt → Prop
  | planned _ _ => True
  | implemented _ plan _ => plan.steps ≠ []
  | reviewed _ plan code _ => plan.steps ≠ [] ∧ Text.isBlankText code = false
  | validated _ plan code review candidate _ =>
    plan.steps ≠ [] ∧ Text.isBlankText code = false ∧ review.passed = true ∧
      Source.splice content w.first w.last code = .ok candidate

/-- Review and validation passed. -/
def passed : Attempt → Bool
  | validated _ _ _ review _ (.ok v) => review.passed && v.passed
  | _ => false

/-- A change of a window holds the plan, the code, the review and the validation of an attempt. -/
def Makes (i : Issue) (w : Source.Window) (c : Change) : Attempt → Prop
  | validated _ plan code review _ (.ok v) =>
    c.issue = i ∧ c.file = i.file ∧ c.first = w.first ∧ c.last = w.last ∧ c.oldCode = w.code ∧
      c.newCode = code ∧ c.plan = plan ∧ c.review = review ∧ c.validation = v
  | _ => False

/-- What an attempt validates is its own file. -/
theorem file_of_mem_exchanges {file file' : Path} {old candidate : String}
    {e : Exchange} {a : Attempt} (he : e ∈ a.exchanges file old)
    (hcall : e.call = .validate file' candidate) :
    file' = file := by
  cases a <;> simp only [exchanges, List.mem_cons, List.not_mem_nil, or_false] at he
  · subst he; cases hcall
  · rcases he with rfl | rfl <;> cases hcall
  · rcases he with rfl | rfl | rfl <;> cases hcall
  · rcases he with rfl | rfl | rfl | rfl <;> cases hcall
    rfl

/-- An attempt that is validated was reviewed. -/
theorem exchanges_validated (file : Path) (old : String) (feedback : Option String) (plan : Plan)
    (code : String) (review : Review) (candidate : String) (validation : Except Failure Validation) :
    (validated feedback plan code review candidate validation).exchanges file old =
      (reviewed feedback plan code (.ok review)).exchanges file old ++
        [⟨.validate file candidate, validation⟩] := rfl

end Attempt

/-! ## Setbacks -/

/-- How an attempt ends that gives no change: with a failure, or with a verdict on its plan. -/
inductive Setback where
  | raised (f : Failure)
  | review (p : Plan) (r : Review)
  | validation (p : Plan) (v : Validation)

namespace Setback

/-- What is said about the setback of an attempt, by the number of the attempt among all of them. -/
def told (n retries : Nat) : Setback → String
  | raised f => failureFeedback s!"{n}/{retries}" f
  | review p r => reviewFeedback s!"{n}/{retries}" p r
  | validation p v => validationFeedback s!"{n}/{retries}" p v

/-- A verdict, and not a failure. -/
def isVerdict : Setback → Bool
  | raised _ => false
  | _ => true

/-- What an attempt with a setback comes to. Its number may be too large to be written. -/
def result (n retries : Nat) : Setback → Except Failure Attempted
  | raised f => .error f
  | b => if Text.isTooLong retries then .error (.value .tooLongToWrite) else .ok (.rejected (b.told n retries))

variable {b : Setback} {n retries : Nat}

theorem result_raised (n retries : Nat) (f : Failure) : (raised f).result n retries = .error f := rfl

theorem result_review (n retries : Nat) (p : Plan) (r : Review) :
    (review p r).result n retries =
      if Text.isTooLong retries then .error (.value .tooLongToWrite)
      else .ok (.rejected (reviewFeedback s!"{n}/{retries}" p r)) := rfl

theorem result_validation (n retries : Nat) (p : Plan) (v : Validation) :
    (validation p v).result n retries =
      if Text.isTooLong retries then .error (.value .tooLongToWrite)
      else .ok (.rejected (validationFeedback s!"{n}/{retries}" p v)) := rfl

theorem exists_of_not_isVerdict (hb : b.isVerdict = false) : ∃ f, b = .raised f := by
  cases b with
  | raised f => exact ⟨f, rfl⟩
  | review p r => cases hb
  | validation p v => cases hb

theorem result_of_isVerdict (hb : b.isVerdict = true) (writable : Text.isTooLong retries = false) :
    b.result n retries = .ok (.rejected (b.told n retries)) := by
  cases b with
  | raised f => cases hb
  | review p r => rw [result_review, writable, if_neg (by decide), told]
  | validation p v => rw [result_validation, writable, if_neg (by decide), told]

/-- Where the number of attempts cannot be written, every setback is a failure. -/
theorem exists_result_of_tooLong (b : Setback) (n : Nat) (tooLong : Text.isTooLong retries = true) :
    ∃ f, b.result n retries = .error f := by
  cases b with
  | raised f => exact ⟨f, rfl⟩
  | review p r => exact ⟨_, by rw [result_review, if_pos tooLong]⟩
  | validation p v => exact ⟨_, by rw [result_validation, if_pos tooLong]⟩

end Setback

namespace Attempt

/-- The setback of an attempt, by what its last part answered: it failed, or its answer was empty, or a
verdict was against the plan, or else the code that passed could not be put in its place, or no change be
made of it. -/
inductive Meets (i : Issue) (content : String) (w : Source.Window) : Attempt → Setback → Prop
  | planFailed (fb : Option String) (f : Failure) : Meets i content w (planned fb (.error f)) (.raised f)
  | noSteps {fb : Option String} {p : Plan} :
      p.steps = [] → Meets i content w (planned fb (.ok p)) (.raised (.role .noSteps))
  | codeFailed (fb : Option String) (p : Plan) (f : Failure) :
      Meets i content w (implemented fb p (.error f)) (.raised f)
  | noCode {fb : Option String} {p : Plan} {code : String} :
      Text.isBlankText code = true → Meets i content w (implemented fb p (.ok code)) (.raised (.role .noCode))
  | reviewFailed (fb : Option String) (p : Plan) (code : String) (f : Failure) :
      Meets i content w (reviewed fb p code (.error f)) (.raised f)
  | reviewed {fb : Option String} {p : Plan} {code : String} {r : Review} :
      r.passed = false → Meets i content w (.reviewed fb p code (.ok r)) (.review p r)
  | unplaced {fb : Option String} {p : Plan} {code : String} {r : Review} {f : Failure} :
      r.passed = true → Source.splice content w.first w.last code = .error f →
        Meets i content w (.reviewed fb p code (.ok r)) (.raised f)
  | validationFailed (fb : Option String) (p : Plan) (code : String) (r : Review) (candidate : String)
      (f : Failure) : Meets i content w (validated fb p code r candidate (.error f)) (.raised f)
  | validated {fb : Option String} {p : Plan} {code : String} {r : Review} {candidate : String}
      {v : Validation} :
      v.passed = false → Meets i content w (.validated fb p code r candidate (.ok v)) (.validation p v)
  | unmade {fb : Option String} {p : Plan} {code : String} {r : Review} {candidate : String} {v : Validation}
      {c : Change} {f : Failure} :
      v.passed = true → (validated fb p code r candidate (.ok v)).Makes i w c → c.make = .error f →
        Meets i content w (validated fb p code r candidate (.ok v)) (.raised f)

end Attempt

/-! ## One attempt -/

namespace Repair

/-- An attempt that does not pass fails, or is rejected with a reason if the reason can be written. -/
def Fails (retries : Nat) (x : Except Failure Attempted) : Prop :=
  (∃ f, x = .error f) ∨ Text.isTooLong retries = false ∧ ∃ reason, x = .ok (.rejected reason)

/-- An outcome is that of an attempt that began in a state: the parts were called as far as their answers
allow, and there is a change of what the attempt came to if it passed, or else it failed. -/
def Ends (r : Repair) (k : Task) (h : Host) (s : State) (out : Except Failure Attempted × State) :
    Prop :=
  ∃ (a : Attempt) (t : State), a.Proper k.content k.window ∧
    r.Exchanged k.issue h s (a.exchanges k.issue.file k.window.code) t ∧
    ((a.passed = true ∧ ∃ c, a.Makes k.issue k.window c ∧
        out = (.ok (.made c), { t with ids := t.ids + 1 })) ∨
      (a.passed = false ∧ ∃ x, Fails k.retries x ∧ out = (x, t)))

variable {k : Task} {feedback : Option String} {p : Plan} {code : String} {review : Review}

/-- A change that is made is the one that was given. -/
theorem eq_of_make {c c' : Change} (hc : c.make = .ok c') : c' = c := by
  unfold Change.make at hc
  split_ifs at hc
  cases hc
  rfl

/-- A change of a window that fits can be made if review and validation passed. -/
theorem make_of_passed {c : Change} (review : c.review.passed = true)
    (validation : c.validation.passed = true) (first : 1 ≤ c.first) (order : c.first ≤ c.last) :
    c.make = .ok c := by
  unfold Change.make
  rw [if_neg (by simp [review, validation]), if_neg]
  simp only [Bool.or_eq_true, decide_eq_true_eq, not_or, Int.not_lt]
  exact ⟨first, order⟩

/-- An outcome is that of an attempt that began in a state, and in which the planner was told something: the
parts were called as far as their answers allow, and there is a change of what the attempt came to, or what its
setback comes to. An id is drawn if review and validation passed. -/
def Turns (r : Repair) (k : Task) (feedback : Option String) (h : Host) (s : State)
    (out : Except Failure Attempted × State) : Prop :=
  ∃ (a : Attempt) (t : State) (n : Nat), a.feedback = feedback ∧ a.Reached k.content k.window ∧
    r.Exchanged k.issue h s (a.exchanges k.issue.file k.window.code) t ∧ out.2 = { t with ids := n } ∧
    ((∃ c, n = t.ids + 1 ∧ a.Proper k.content k.window ∧ a.passed = true ∧ a.Makes k.issue k.window c ∧
        out.1 = .ok (.made c)) ∨
      ∃ b, (a.passed = false → n = t.ids) ∧ a.Meets k.issue k.content k.window b ∧
        out.1 = b.result k.number k.retries)

/-- An attempt without a change that drew no id. -/
theorem Turns.setback {a : Attempt} {b : Setback} {out : Except Failure Attempted × State}
    (told : a.feedback = feedback) (reached : a.Reached k.content k.window)
    (exchanged : r.Exchanged k.issue h s (a.exchanges k.issue.file k.window.code) t)
    (meets : a.Meets k.issue k.content k.window b) (hout : out = (b.result k.number k.retries, t)) :
    r.Turns k feedback h s out := by
  rw [hout]
  exact ⟨a, t, t.ids, told, reached, exchanged, rfl, .inr ⟨b, fun _ => rfl, meets, rfl⟩⟩

theorem outcome_rejected (k : Task) (reason : String → String) (t : State) :
    (k.rejected reason).outcome h t =
      (if Text.isTooLong k.retries then .error (.value .tooLongToWrite)
        else .ok (.rejected (reason s!"{k.number}/{k.retries}")), t) := by
  unfold Task.rejected attemptText
  split <;> rfl

theorem validateCode_turns
    (before : r.Exchanged k.issue h s
      ((Attempt.reviewed feedback p code (.ok review)).exchanges k.issue.file k.window.code) t)
    (steps : p.steps ≠ []) (text : Text.isBlankText code = false) (passed : review.passed = true) :
    r.Turns k feedback h s ((r.validateCode k p code review).outcome h t) := by
  unfold validateCode
  simp only
  rw [outcome_bind, outcome_ofExcept]
  cases hsplice : Source.splice k.content k.window.first k.window.last code with
  | error f =>
    exact .setback (a := .reviewed feedback p code _) rfl ⟨steps, text⟩ before (.unplaced passed hsplice) rfl
  | ok candidate =>
    simp only
    rw [outcome_bind]
    rcases hv : (r.parts.validate k.issue.file candidate k.issue).outcome h t with ⟨validation, u⟩
    have after := before.concat (e := ⟨.validate k.issue.file candidate, validation⟩) hv
    rw [← Attempt.exchanges_validated] at after
    have reached : (Attempt.validated feedback p code review candidate validation).Reached k.content k.window :=
      ⟨steps, text, passed, hsplice⟩
    cases validation with
    | error f => exact .setback rfl reached after (.validationFailed ..) rfl
    | ok v =>
      cases hpass : v.passed with
      | false =>
        simp only [hpass, Bool.not_false, if_true]
        refine .setback rfl reached after (.validated hpass) ?_
        rw [outcome_rejected, Setback.result_validation]
      | true =>
        simp only [hpass, Bool.not_true, Bool.false_eq_true, if_false]
        rw [outcome_bind, outcome_drawId]
        simp only
        rw [outcome_bind, outcome_ofExcept]
        have hall : (Attempt.validated feedback p code review candidate (.ok v)).passed = true := by
          simp [Attempt.passed, passed, hpass]
        generalize hc : Change.mk _ _ _ _ _ _ _ _ _ _ = c
        have hmakes : (Attempt.validated feedback p code review candidate (.ok v)).Makes k.issue k.window c := by
          subst hc
          exact ⟨rfl, rfl, rfl, rfl, rfl, rfl, rfl, rfl, rfl⟩
        refine ⟨_, u, u.ids + 1, rfl, reached, after, ?_⟩
        cases hmake : c.make with
        | error f =>
          exact ⟨rfl, .inr ⟨.raised f, by rw [hall]; rintro ⟨⟩, .unmade hpass hmakes hmake, rfl⟩⟩
        | ok c' =>
          obtain rfl := eq_of_make hmake
          exact ⟨rfl, .inl ⟨c', rfl, reached, hall, hmakes, rfl⟩⟩

theorem reviewCode_turns
    (before : r.Exchanged k.issue h s
      ((Attempt.implemented feedback p (.ok code)).exchanges k.issue.file k.window.code) t)
    (steps : p.steps ≠ []) (text : Text.isBlankText code = false) :
    r.Turns k feedback h s ((r.reviewCode k p code).outcome h t) := by
  unfold reviewCode
  rw [outcome_bind]
  rcases hr : (r.parts.review k.window.code p code k.issue).outcome h t with ⟨review, u⟩
  have after := before.concat (e := ⟨.review k.window.code p code, review⟩) hr
  cases review with
  | error f => exact .setback (a := .reviewed feedback p code _) rfl ⟨steps, text⟩ after (.reviewFailed ..) rfl
  | ok review =>
    cases hpass : review.passed with
    | false =>
      simp only [hpass, Bool.not_false, if_true]
      refine .setback (a := .reviewed feedback p code _) rfl ⟨steps, text⟩ after (.reviewed hpass) ?_
      rw [outcome_rejected, Setback.result_review]
    | true =>
      simp only [hpass, Bool.not_true, Bool.false_eq_true, if_false]
      exact validateCode_turns after steps text hpass

theorem followPlan_turns
    (before : r.Exchanged k.issue h s
      ((Attempt.planned feedback (.ok p)).exchanges k.issue.file k.window.code) t)
    (steps : p.steps ≠ []) : r.Turns k feedback h s ((r.followPlan k p).outcome h t) := by
  unfold followPlan
  rw [outcome_bind]
  rcases hc : (r.parts.implement k.window.code p k.issue).outcome h t with ⟨code, u⟩
  have after := before.concat (e := ⟨.implement k.window.code p, code⟩) hc
  cases code with
  | error f => exact .setback (a := .implemented feedback p _) rfl steps after (.codeFailed ..) rfl
  | ok code =>
    cases hblank : Text.isBlankText code with
    | true =>
      simp only [hblank, if_true]
      exact .setback (a := .implemented feedback p _) rfl steps after (.noCode hblank) rfl
    | false =>
      simp only [hblank, Bool.false_eq_true, if_false]
      exact reviewCode_turns after steps hblank

/-- One attempt gives a change or meets a setback, whatever the window is like. -/
theorem attempt_turns (r : Repair) (k : Task) (feedback : Option String) (s : State) :
    r.Turns k feedback h s ((r.attempt k feedback).outcome h s) := by
  unfold attempt
  rw [outcome_bind]
  rcases hp : (r.parts.plan k.issue k.window.code feedback).outcome h s with ⟨p, t⟩
  have after : r.Exchanged k.issue h s [⟨.plan k.window.code feedback, p⟩] t := .cons hp (.nil t)
  cases p with
  | error f => exact .setback (a := .planned feedback _) rfl trivial after (.planFailed ..) rfl
  | ok p =>
    by_cases hsteps : p.steps = []
    · simp only [hsteps, List.isEmpty_nil, if_true]
      exact .setback (a := .planned feedback _) rfl trivial after (.noSteps hsteps) rfl
    · have hfull : p.steps.isEmpty = false := by simpa using hsteps
      simp only [hfull, Bool.false_eq_true, if_false]
      exact followPlan_turns after hsteps

/-- An attempt whose window fits the text met a setback only if it did not pass. -/
theorem proper_of_meets {a : Attempt} {b : Setback} (fits : w.Fits content) (reached : a.Reached content w)
    (meets : a.Meets i content w b) : a.Proper content w ∧ a.passed = false := by
  cases meets with
  | planFailed fb f => exact ⟨by simp [Attempt.Proper], rfl⟩
  | noSteps hsteps => exact ⟨by rintro q ⟨⟩; exact hsteps, rfl⟩
  | codeFailed fb p f => exact ⟨⟨reached, by simp⟩, rfl⟩
  | noCode hblank => exact ⟨⟨reached, by rintro c ⟨⟩; exact hblank⟩, rfl⟩
  | reviewFailed fb p code f => exact ⟨⟨reached.1, reached.2, by simp⟩, rfl⟩
  | reviewed hpass => exact ⟨⟨reached.1, reached.2, by rintro v ⟨⟩; exact hpass⟩, rfl⟩
  | unplaced good hsplice =>
    obtain ⟨candidate, hok⟩ := fits.exists_splice _
    rw [hok] at hsplice
    cases hsplice
  | validationFailed fb p code r candidate f => exact ⟨reached, rfl⟩
  | validated hpass => exact ⟨reached, by simp [Attempt.passed, hpass]⟩
  | unmade hpass hmakes hmake =>
    obtain ⟨-, -, hfirst, hlast, -, -, -, hreview, hvalidation⟩ := hmakes
    rw [make_of_passed (hreview ▸ reached.2.2.1) (hvalidation ▸ hpass) (hfirst ▸ fits.first)
      (hfirst ▸ hlast ▸ fits.order)] at hmake
    cases hmake

/-- What a setback comes to is a failure, or a rejection if its reason can be written. -/
theorem fails_result (b : Setback) (n retries : Nat) : Fails retries (b.result n retries) := by
  cases hb : b.isVerdict with
  | false =>
    obtain ⟨f, rfl⟩ := Setback.exists_of_not_isVerdict hb
    exact .inl ⟨f, rfl⟩
  | true =>
    cases hlong : Text.isTooLong retries with
    | true => exact .inl (b.exists_result_of_tooLong n hlong)
    | false => exact .inr ⟨hlong, _, Setback.result_of_isVerdict hb hlong⟩

/-- One attempt calls the parts as far as their answers allow. It makes a change of what it came to if it
passes, and else fails. -/
theorem attempt_ends (fits : k.window.Fits k.content) (r : Repair) (feedback : Option String)
    (s : State) : r.Ends k h s ((r.attempt k feedback).outcome h s) := by
  obtain ⟨a, t, n, -, hreached, hexch, hstate, hend⟩ := attempt_turns (h := h) r k feedback s
  generalize (r.attempt k feedback).outcome h s = out at hstate hend ⊢
  obtain ⟨x, u⟩ := out
  simp only at hstate hend
  subst hstate
  rcases hend with ⟨c, hn, hproper, hpass, hmakes, rfl⟩ | ⟨b, hids, hmeets, rfl⟩
  · exact ⟨a, t, hproper, hexch, .inl ⟨hpass, c, hmakes, by rw [hn]⟩⟩
  · obtain ⟨hproper, hfail⟩ := proper_of_meets fits hreached hmeets
    have hn : n = t.ids := hids hfail
    exact ⟨a, t, hproper, hexch, .inr ⟨hfail, _, fails_result b _ _, by rw [hn]⟩⟩

/-- An attempt makes a change if all the parts answer as they should. -/
theorem exists_attempt_made {t₁ t₂ t₃ t₄ : State} {candidate : String} {validation : Validation}
    (planned : (r.parts.plan k.issue k.window.code feedback).outcome h s = (.ok p, t₁))
    (steps : p.steps.isEmpty = false)
    (implemented : (r.parts.implement k.window.code p k.issue).outcome h t₁ = (.ok code, t₂))
    (text : Text.isBlankText code = false)
    (reviewed : (r.parts.review k.window.code p code k.issue).outcome h t₂ = (.ok review, t₃))
    (good : review.passed = true)
    (spliced : Source.splice k.content k.window.first k.window.last code = .ok candidate)
    (validated : (r.parts.validate k.issue.file candidate k.issue).outcome h t₃ = (.ok validation, t₄))
    (passed : validation.passed = true) (first : 1 ≤ k.window.first)
    (order : k.window.first ≤ k.window.last) :
    ∃ c u, (r.attempt k feedback).outcome h s = (.ok (.made c), u) := by
  unfold attempt
  rw [outcome_bind, planned]
  simp only [steps, Bool.false_eq_true, if_false]
  unfold followPlan
  rw [outcome_bind, implemented]
  simp only [text, Bool.false_eq_true, if_false]
  unfold reviewCode
  rw [outcome_bind, reviewed]
  simp only [good, Bool.not_true, Bool.false_eq_true, if_false]
  unfold validateCode
  simp only
  rw [spliced, outcome_ofExcept_ok_bind, outcome_bind, validated]
  simp only [passed, Bool.not_true, Bool.false_eq_true, if_false]
  rw [outcome_bind, outcome_drawId]
  simp only
  rw [outcome_bind, outcome_ofExcept, make_of_passed good passed first order]
  exact ⟨_, _, rfl⟩

/-! ## All attempts -/

/-- Attempts made one after another up to the first that passes: their calls lead from a state to
another. -/
structure Tried (r : Repair) (i : Issue) (h : Host) (content : String) (w : Source.Window) (s : State)
    (as : List Attempt) (t : State) : Prop where
  proper : ∀ a ∈ as, a.Proper content w
  failed : ∀ a ∈ as.dropLast, a.passed = false
  exchanged : r.Exchanged i h s (as.flatMap (Attempt.exchanges i.file w.code)) t

variable {a : Attempt} {as : List Attempt}

theorem Tried.nil (s : State) : r.Tried i h content w s [] s :=
  ⟨by simp, by simp, .nil s⟩

theorem Tried.single (proper : a.Proper content w)
    (exchanged : r.Exchanged i h s (a.exchanges i.file w.code) t) : r.Tried i h content w s [a] t :=
  ⟨by simpa using proper, by simp, by simpa using exchanged⟩

/-- An attempt that did not pass comes before others. -/
theorem Tried.cons (proper : a.Proper content w)
    (exchanged : r.Exchanged i h s (a.exchanges i.file w.code) t) (failed : a.passed = false)
    (rest : r.Tried i h content w t as u) : r.Tried i h content w s (a :: as) u where
  proper := by
    rintro b hb
    rcases List.mem_cons.1 hb with rfl | hb
    · exact proper
    · exact rest.proper b hb
  failed := by
    intro b hb
    cases as with
    | nil => simp at hb
    | cons c cs =>
      rw [List.dropLast_cons_cons] at hb
      rcases List.mem_cons.1 hb with rfl | hb
      · exact failed
      · exact rest.failed b hb
  exchanged := by
    rw [List.flatMap_cons]
    exact exchanged.append rest.exchanged

/-- What was tried last is a validation, and the calls before it belong to the same file. -/
theorem Tried.exists_last {w : Source.Window} {content candidate : String} {as : List Attempt}
    {feedback : Option String} {plan : Plan} {code : String} {review : Review}
    {verdict : Except Failure Validation}
    (tried : r.Tried i h content w s
      (as ++ [.validated feedback plan code review candidate verdict]) u) :
    ∃ es t, r.Exchanged i h s es t ∧
      (∀ e ∈ es, ∀ file candidate, e.call = .validate file candidate → file = i.file) ∧
      (r.parts.validate i.file candidate i).outcome h t = (verdict, u) := by
  have exch := tried.exchanged
  rw [List.flatMap_append, List.flatMap_singleton, Attempt.exchanges_validated, ← List.append_assoc]
    at exch
  obtain ⟨t, hbefore, hvalid⟩ := exch.of_concat
  refine ⟨_, t, hbefore, ?_, hvalid⟩
  intro e he file candidate hcall
  rcases List.mem_append.1 he with he | he
  · obtain ⟨a, -, he⟩ := List.mem_flatMap.1 he
    exact Attempt.file_of_mem_exchanges he hcall
  · exact Attempt.file_of_mem_exchanges he hcall

/-- The outcome of a repair that made attempts: a change of what the last of them came to if that passed,
or else, all attempts being used up, a failure that says so. -/
def Comes (i : Issue) (w : Source.Window) (most retries : Nat) (as : List Attempt) (t : State)
    (out : Except Failure Change × State) : Prop :=
  (∃ a c, as.getLast? = some a ∧ a.passed = true ∧ as.length ≤ most ∧ a.Makes i w c ∧
      out = (.ok c, { t with ids := t.ids + 1 })) ∨
    ((∀ a ∈ as, a.passed = false) ∧ as.length = most ∧
      ∃ text feedback cause, out = (.error (.generation text feedback retries cause), t))

theorem Comes.cons {most retries : Nat} {out : Except Failure Change × State}
    (failed : a.passed = false) (rest : Comes i w most retries as t out) :
    Comes i w (most + 1) retries (a :: as) t out := by
  rcases rest with ⟨b, c, hlast, hb, hlen, hmakes, hout⟩ | ⟨hall, hlen, hout⟩
  · refine .inl ⟨b, c, ?_, hb, by simpa using hlen, hmakes, hout⟩
    rw [List.getLast?_cons, hlast]
    rfl
  · refine .inr ⟨?_, by simpa using hlen, hout⟩
    rintro b hb
    rcases List.mem_cons.1 hb with rfl | hb
    · exact failed
    · exact hall b hb

/-- The next of the attempts that are left, and what follows it. -/
theorem outcome_attemptsFrom_succ (r : Repair) (i : Issue) (content : String) (w : Source.Window)
    (retries : Nat) (note feedback : Option String) (left : Nat) (s : State) :
    (r.attemptsFrom i content w retries note feedback (left + 1)).outcome h s =
      match (r.attempt ⟨i, content, w, retries - left, retries⟩ (joinedFeedback [note, feedback])).outcome h s with
      | (.ok (.made c), t) => (.ok c, t)
      | (.ok (.rejected reason), t) =>
        (r.attemptsFrom i content w retries note (some reason) left).outcome h t
      | (.error f, t) =>
        if left = 0 then (.error (failedLast retries feedback f), t)
        else
          match attemptText (retries - left) retries with
          | .error g => (.error g, t)
          | .ok name =>
            (r.attemptsFrom i content w retries note (some (failureFeedback name f)) left).outcome h t := by
  rw [attemptsFrom]
  simp only
  rw [outcome_bind, outcome_caught]
  rcases (r.attempt ⟨i, content, w, retries - left, retries⟩ (joinedFeedback [note, feedback])).outcome h s
    with ⟨f | c | reason, t⟩
  · simp only
    split
    · rfl
    · rw [outcome_bind, outcome_ofExcept]
      cases attemptText (retries - left) retries <;> rfl
  · rfl
  · rfl

/-- The attempts that are left are made up to the first that passes, or all of them are, if their number
can be written. -/
theorem attemptsFrom_spec (fits : w.Fits content) (r : Repair) (i : Issue) {retries : Nat}
    (writable : Text.isTooLong retries = false) (note feedback : Option String) (left : Nat)
    (s : State) :
    ∃ as t, r.Tried i h content w s as t ∧ Comes i w left retries as t
      ((r.attemptsFrom i content w retries note feedback left).outcome h s) := by
  induction left generalizing feedback s with
  | zero => exact ⟨[], s, .nil s, .inr ⟨by simp, rfl, _, _, _, rfl⟩⟩
  | succ left ih =>
    rw [outcome_attemptsFrom_succ]
    obtain ⟨a, t, hproper, hexch, hend⟩ := attempt_ends (h := h)
      (k := ⟨i, content, w, retries - left, retries⟩) fits r (joinedFeedback [note, feedback]) s
    rcases hend with ⟨hpass, c, hmakes, hout⟩ | ⟨hfail, x, hx, hout⟩
    · rw [hout]
      exact ⟨[a], t, .single hproper hexch, .inl ⟨a, c, rfl, hpass, by simp, hmakes, rfl⟩⟩
    rw [hout]
    rcases hx with ⟨f, rfl⟩ | ⟨-, reason, rfl⟩
    · simp only
      split
      · next hleft =>
        subst hleft
        exact ⟨[a], t, .single hproper hexch, .inr ⟨by simpa using hfail, rfl, _, _, _, rfl⟩⟩
      · unfold attemptText
        simp only [writable, Bool.false_eq_true, if_false]
        obtain ⟨as, u, htried, hcomes⟩ := ih _ t
        exact ⟨a :: as, u, .cons hproper hexch hfail htried, hcomes.cons hfail⟩
    · obtain ⟨as, u, htried, hcomes⟩ := ih (some reason) t
      exact ⟨a :: as, u, .cons hproper hexch hfail htried, hcomes.cons hfail⟩

/-- A change comes of the last of some attempts, which passed. -/
theorem exists_tried_of_attemptsFrom (fits : w.Fits content) (r : Repair) (i : Issue) {retries : Nat}
    {note feedback : Option String} {left : Nat} {c : Change}
    (hmade : (r.attemptsFrom i content w retries note feedback left).outcome h s = (.ok c, u)) :
    ∃ as a t, r.Tried i h content w s (as ++ [a]) t ∧ a.passed = true ∧ a.Makes i w c ∧
      u = { t with ids := t.ids + 1 } := by
  induction left generalizing feedback s with
  | zero => cases hmade
  | succ left ih =>
    rw [outcome_attemptsFrom_succ] at hmade
    obtain ⟨a, t, hproper, hexch, hend⟩ := attempt_ends (h := h)
      (k := ⟨i, content, w, retries - left, retries⟩) fits r (joinedFeedback [note, feedback]) s
    rcases hend with ⟨hpass, c', hmakes, hout⟩ | ⟨hfail, x, hx, hout⟩
    · rw [hout] at hmade
      obtain ⟨hc, rfl⟩ := Prod.mk.inj hmade
      obtain rfl := Except.ok.inj hc
      exact ⟨[], a, t, .single hproper hexch, hpass, hmakes, rfl⟩
    rw [hout] at hmade
    have later {feedback : Option String}
        (hlater : (r.attemptsFrom i content w retries note feedback left).outcome h t = (.ok c, u)) :
        ∃ as a t, r.Tried i h content w s (as ++ [a]) t ∧ a.passed = true ∧ a.Makes i w c ∧
          u = { t with ids := t.ids + 1 } := by
      obtain ⟨as, b, t', htried, hlast⟩ := ih hlater
      exact ⟨a :: as, b, t', .cons hproper hexch hfail htried, hlast⟩
    rcases hx with ⟨f, rfl⟩ | ⟨-, reason, rfl⟩
    · simp only at hmade
      split_ifs at hmade
      · cases hmade
      · cases htext : attemptText (retries - left) retries with
        | error g =>
          rw [htext] at hmade
          cases hmade
        | ok name =>
          rw [htext] at hmade
          exact later hmade
    · exact later hmade

/-- Where the number of attempts cannot be written, the first attempt that does not pass is the last, and
the complaint about the number ends the repair. -/
theorem attemptsFrom_of_tooLong (fits : w.Fits content) (r : Repair) (i : Issue) {retries : Nat}
    (tooLong : Text.isTooLong retries = true) (note feedback : Option String) {left : Nat}
    (more : left ≠ 0) (s : State) :
    ∃ a t, r.Tried i h content w s [a] t ∧
      ((a.passed = true ∧ ∃ c, a.Makes i w c ∧
          (r.attemptsFrom i content w retries note feedback (left + 1)).outcome h s =
            (.ok c, { t with ids := t.ids + 1 })) ∨
        (a.passed = false ∧
          (r.attemptsFrom i content w retries note feedback (left + 1)).outcome h s =
            (.error (.value .tooLongToWrite), t))) := by
  rw [outcome_attemptsFrom_succ]
  obtain ⟨a, t, hproper, hexch, hend⟩ := attempt_ends (h := h)
    (k := ⟨i, content, w, retries - left, retries⟩) fits r (joinedFeedback [note, feedback]) s
  refine ⟨a, t, .single hproper hexch, ?_⟩
  rcases hend with ⟨hpass, c, hmakes, hout⟩ | ⟨hfail, x, hx, hout⟩
  · rw [hout]
    exact .inl ⟨hpass, c, hmakes, rfl⟩
  rw [hout]
  rcases hx with ⟨f, rfl⟩ | ⟨hshort, -⟩
  · refine .inr ⟨hfail, ?_⟩
    unfold attemptText
    simp only [if_neg more, tooLong, if_true]
  · rw [tooLong] at hshort
    cases hshort

end Repair

end FixGate
