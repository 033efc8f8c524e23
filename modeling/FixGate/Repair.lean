import FixGate.Dialogue.Roles
import FixGate.Source.Window
import FixGate.Validation

/-!
# Repair

A fix is made in attempts. Each one plans, writes code, has it reviewed, and validates it in the place of
the file. An attempt that fails tells the next plan why; only the latest reason is handed on.

* `Collaborators` : the four parts that make a fix
* `Repair` : the parts and settings of repairs
* `Task`, `Repair.attempt` : one attempt
* `Repair.byModel` : repairs by the model of the settings
* `Repair.fix`, `Repair.fixWithNeighbours` : a verified change for a finding
-/

namespace FixGate

/-- The four parts that make a fix. -/
structure Collaborators where
  plan : Issue → String → Option String → Act Plan
  implement : String → Plan → Issue → Act String
  review : String → Plan → String → Issue → Act Review
  validate : Path → String → Issue → Act Validation

/-- The parts and settings of repairs. -/
structure Repair where
  parts : Collaborators
  settings : Settings

/-- The parts played by a model, with a validator. -/
def Collaborators.ofModel (m : Model) (v : Validator) : Collaborators where
  plan := m.plan
  implement := m.implement
  review := m.review
  validate file candidate i := v.validate file candidate (some i)

/-- The parts in the hands of someone who sees all calls before and decides each answer; every call is
recorded. -/
def Collaborators.recorded
    (plan : List Call → Act Plan) (implement : List Call → Act String)
    (review : List Call → Act Review) (validate : List Call → Act Validation) : Collaborators where
  plan _ code feedback := do
    let before := (← get).calls
    Act.record (.plan code feedback)
    plan before
  implement code p _ := do
    let before := (← get).calls
    Act.record (.implement code p)
    implement before
  review code p newCode _ := do
    let before := (← get).calls
    Act.record (.review code p newCode)
    review before
  validate file candidate _ := do
    let before := (← get).calls
    Act.record (.validate file candidate)
    validate before

/-- Lines for the things that are wrong. -/
def listedIssues (issues : List String) : String :=
  if issues.isEmpty then "  (none)" else "\n".intercalate (issues.map fun i => "  - " ++ i)

/-- The number of an attempt among all of them, in words. The number of all may be too large to be
written. -/
def attemptText (attempt retries : Nat) : Except Failure String :=
  if Text.isTooLong retries then .error (.value .tooLongToWrite) else .ok s!"{attempt}/{retries}"

/-- What is handed on after a review that did not pass. -/
def reviewFeedback (attempt : String) (p : Plan) (r : Review) : String :=
  s!"Review FAILED (attempt {attempt}): " ++ r.reason ++ "\nIssues found:\n" ++
    listedIssues r.issues ++ "\nPrevious plan was:\n" ++ p.format ++
    "\nCreate a NEW plan that addresses these review issues."

/-- What is handed on after a validation that did not pass. -/
def validationFeedback (attempt : String) (p : Plan) (v : Validation) : String :=
  s!"Validation FAILED (attempt {attempt}): " ++ v.reason ++
    "\nCompilation/Analysis errors:\n" ++ listedIssues v.issues ++ "\nPrevious plan was:\n" ++
    p.format ++ "\nCreate a NEW plan that produces compilable, correct code."

/-- What is handed on after a failure. -/
def failureFeedback (attempt : String) (f : Failure) : String :=
  s!"Attempt {attempt} failed with error: " ++ f.message ++
    "\nCreate a simpler, more robust plan."

/-- The parts of a description that say something, with a blank line between them. -/
def joinedFeedback (parts : List (Option String)) : Option String :=
  let said := (parts.filterMap id).filter fun s => !s.isEmpty
  if said.isEmpty then none else some ("\n\n".intercalate said)

/-- How far from a finding others are mentioned to the planner. -/
def neighbourhood : Nat := 10

/-- Another finding near a given one in the same file. -/
def isNeighbour (i other : Issue) : Bool :=
  other.fingerprint != i.fingerprint && other.file == i.file
    && decide ((other.line - i.line).natAbs ≤ neighbourhood)

/-- What the planner is told about findings near a given one. -/
def neighbourNote (i : Issue) (others : List Issue) : Option String :=
  let near := others.filter (isNeighbour i)
  if near.isEmpty then none
  else
    let lines := near.map fun o => s!"- line {o.line}: {o.title.display} ({o.category.title})"
    some ("Other issues near this code (keep them in mind, do not make them worse):\n" ++
      "\n".intercalate lines)

/-- What comes of an attempt: a change, or a reason why there is none. -/
inductive Attempted where
  | made (c : Change)
  | rejected (feedback : String)

/-- What an attempt works on: a finding, the text of its file and the window to be replaced, with the
number of the attempt among all of them. -/
structure Task where
  issue : Issue
  content : String
  window : Source.Window
  number : Nat
  retries : Nat

/-- An attempt rejected for a reason that names it. -/
def Task.rejected (t : Task) (reason : String → String) : Act Attempted := do
  pure (.rejected (reason (← Act.ofExcept (attemptText t.number t.retries))))

namespace Repair

/-- The context windows of the settings. -/
def context (r : Repair) : Source.Context :=
  ⟨r.settings.contextBefore, r.settings.contextAfter⟩

/-- The end of an attempt: code that passed its review is validated in the place of the window. -/
def validateCode (r : Repair) (t : Task) (p : Plan) (newCode : String) (review : Review) :
    Act Attempted := do
  let w := t.window
  let candidate ← Act.ofExcept (Source.splice t.content w.first w.last newCode)
  let validation ← r.parts.validate t.issue.file candidate t.issue
  if !validation.passed then t.rejected fun attempt => validationFeedback attempt p validation
  else
    let id ← Act.drawId "fix"
    let c ← Act.ofExcept (Change.make {
      id, issue := t.issue, file := t.issue.file, first := w.first, last := w.last
      oldCode := w.code, newCode, plan := p, review, validation })
    pure (.made c)

/-- An attempt from the review of its code on. -/
def reviewCode (r : Repair) (t : Task) (p : Plan) (newCode : String) : Act Attempted := do
  let review ← r.parts.review t.window.code p newCode t.issue
  if !review.passed then t.rejected fun attempt => reviewFeedback attempt p review
  else r.validateCode t p newCode review

/-- An attempt from its plan on. -/
def followPlan (r : Repair) (t : Task) (p : Plan) : Act Attempted := do
  let newCode ← r.parts.implement t.window.code p t.issue
  if Text.isBlankText newCode then throw (.role .noCode) else r.reviewCode t p newCode

/-- One attempt to fix a finding in a window of a text. -/
def attempt (r : Repair) (t : Task) (feedback : Option String) : Act Attempted := do
  let p ← r.parts.plan t.issue t.window.code feedback
  if p.steps.isEmpty then throw (.role .noSteps) else r.followPlan t p

/-- The failure of a repair whose last attempt was rejected. -/
def exhausted (retries : Nat) (feedback : String) : Failure :=
  let last := if feedback.isEmpty then "Unknown error" else feedback
  .generation (s!"Auto-fix failed after {retries} attempts. Last failure: " ++ last) feedback retries none

/-- The failure of a repair whose last attempt failed. -/
def failedLast (retries : Nat) (feedback : Option String) (f : Failure) : Failure :=
  .generation ("Auto-fix failed on final attempt: " ++ f.message) (feedback.getD "") retries (some f)

/-- The attempts that are left, from the `n`-th on. -/
def attemptsFrom (r : Repair) (i : Issue) (content : String) (w : Source.Window) (retries : Nat)
    (note : Option String) (feedback : Option String) : Nat → Act Change
  | 0 => throw (exhausted retries (feedback.getD ""))
  | left + 1 => do
    let n := retries - left
    match ← Act.caught (r.attempt ⟨i, content, w, n, retries⟩ (joinedFeedback [note, feedback])) with
    | .ok (.made c) => pure c
    | .ok (.rejected reason) => attemptsFrom r i content w retries note (some reason) left
    | .error f =>
      if left = 0 then throw (failedLast retries feedback f)
      else
        let reason := failureFeedback (← Act.ofExcept (attemptText n retries)) f
        attemptsFrom r i content w retries note (some reason) left

/-- A failure to find the window of a finding. Its line may be too large to be written. -/
def noWindow (i : Issue) (f : Failure) : Failure :=
  if Text.isTooLong i.line then .value .tooLongToWrite
  else .generation (s!"Cannot extract code for {i.place.text}: " ++ f.message) "" 0 (some f)

/-- A failure to find the window of a finding as the repair tells it: a refusal of the system or a fault of
values in its own words, and any other as it is. -/
def windowFailure (i : Issue) (f : Failure) : Failure :=
  match f with
  | .os _ _ => noWindow i f
  | f => if f.isValue then noWindow i f else f

/-- The text of a file and the window of it around a finding, as they are read. -/
def readWindow (r : Repair) (i : Issue) : Act (String × Source.Window) := do
  let content ← Act.readSource i.file
  let again ← Act.readSource i.file
  let w ← Act.ofExcept (Source.windowOf r.context i.file again i.line)
  pure (content, w)

/-- The text of a file and the window of it around a finding. -/
def windowFor (r : Repair) (i : Issue) : Act (String × Source.Window) := do
  try r.readWindow i
  catch f => throw (windowFailure i f)

/-- A verified change for a finding, in at most so many attempts, with a note for the planner. -/
def fixWithNote (r : Repair) (i : Issue) (maxRetries : Option Int) (note : Option String) :
    Act Change := do
  let retries := maxRetries.getD r.settings.maxRetries
  if retries < 1 then throw (.value (.noAttempts retries))
  else if !(← Act.ofExcept ((← Act.disk).reaches i.file)) then
    throw (.generation s!"File not found: {i.file}" "" 0 none)
  else
    let (content, w) ← r.windowFor i
    r.attemptsFrom i content w retries.toNat note none retries.toNat

/-- Repairs by the model of the settings, for which there must be a key. -/
def byModel (settings : Settings) (project : Path) (registry : Registry) : Act Repair := do
  if !(← read).hasKey then
    throw (.refused "ANTHROPIC_API_KEY is not set; it is required to generate fixes.")
  else
    let model : Model := ⟨settings.model, settings.maxTokens⟩
    let v ← Act.ofExcept (Validator.make (← Act.disk) (some project) settings registry)
    pure ⟨.ofModel model v, settings⟩

/-- A verified change for a finding. -/
def fix (r : Repair) (i : Issue) (maxRetries : Option Int) : Act Change :=
  r.fixWithNote i maxRetries none

/-- A verified change for a finding, the planner being told about the findings near it. -/
def fixWithNeighbours (r : Repair) (i : Issue) (others : List Issue) (maxRetries : Option Int) :
    Act Change :=
  r.fixWithNote i maxRetries (neighbourNote i others)

end Repair

end FixGate
