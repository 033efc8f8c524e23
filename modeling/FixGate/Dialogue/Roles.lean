import FixGate.Dialogue.Model
import FixGate.Dialogue.Reply
import FixGate.Fix.Change

/-!
# Planner, coder and reviewer

The three roles of the model: each puts the finding and the code into words, asks, and makes sense of
the answer.

* `planPrompt`, `codePrompt`, `reviewPrompt` : the questions
* `planOf`, `reviewOf` : the plan and the verdict that answers hold
* `Model.plan`, `Model.implement`, `Model.review` : the roles
-/

namespace FixGate

/-- A block of code in a question. -/
def codeFence (i : Issue) (code : String) : String :=
  "\x60\x60\x60" ++ (Language.ofPath i.file).fence ++ "\n" ++ code ++ "\n\x60\x60\x60\n"

/-- The question for a plan, with what is known of an attempt before. -/
def planPrompt (i : Issue) (code : String) (feedback : Option String) : String :=
  let before := match feedback with
    | none => ""
    | some f =>
      if f.isEmpty then ""
      else
        "\nPREVIOUS ATTEMPT:\n" ++ f ++ "\n" ++
        "\nThe previous plan failed. Make a materially different plan: take a different approach, " ++
        "do not reword the previous steps, and do not repeat the mistake described above.\n"
  "ISSUE:\n" ++ i.summary ++ "\n\nCODE:\n" ++ codeFence i code ++ before ++
    "\nRespond with a JSON array of steps, for example:\n" ++
    "[\"Replace strcpy with strncpy\", \"Null-terminate the destination\"]\n"

/-- The question for code that follows a plan. -/
def codePrompt (i : Issue) (code : String) (p : Plan) : String :=
  "ISSUE:\n" ++ i.summary ++ "\n\nPLAN:\n" ++ p.format ++ "\n\nORIGINAL CODE:\n" ++ codeFence i code ++
    "\nCONSTRAINTS:\n" ++
    "- Return the COMPLETE replacement for the original code, not a diff.\n" ++
    "- Keep the same function signatures and surrounding structure.\n" ++
    "- Do not add line numbers.\n"

/-- The question for a verdict on new code. -/
def reviewPrompt (i : Issue) (code : String) (p : Plan) (newCode : String) : String :=
  "ISSUE:\n" ++ i.summary ++ "\n\nPLAN:\n" ++ p.format ++ "\n\nORIGINAL CODE:\n" ++ codeFence i code ++
    "\nNEW CODE:\n" ++ codeFence i newCode ++
    "\nRespond with a JSON object: " ++
    "\x7b\"passed\": true|false, \"reason\": \"...\", \"issues\": [\"...\"]\x7d\n"

/-- The steps in a list of values: their texts without the blanks around them, empty ones left out. -/
def stepsOf (items : List Value) : List String :=
  (items.map fun v => Text.strip v.display).filter fun s => !s.isEmpty

/-- The plan that an answer holds. -/
def planOf (answer : String) : Except Failure Plan := do
  let steps := stepsOf (← Reply.firstList answer)
  if steps.isEmpty then .error (.role .noSteps) else pure ⟨steps⟩

/-- The code that an answer holds. -/
def newCodeOf (answer : String) : Except Failure String :=
  let code := Reply.codeOf answer
  if Text.isBlankText code then .error (.role .noCode) else .ok code

/-- The words that count as a passed verdict. -/
def passWords : List String := ["true", "yes", "pass", "passed"]

/-- A value that says whether a verdict is passed. -/
def saysPassed : Value → Bool
  | .text s => passWords.contains (Text.lower (Text.strip s))
  | v => v.isTrue

/-- The texts in the field that lists what is wrong. -/
def issuesOf (v : Value) : Except Failure (List String) :=
  if !v.isTrue then .ok []
  else
    match v with
    | .text s => .ok [s]
    | v => do pure ((← v.elements).map Value.display)

/-- The verdict that an answer holds. -/
def reviewOf (answer : String) : Except Failure Review := do
  let fields ← Reply.firstTable answer
  match fields.lookup "passed" with
  | none => .error (.role .noVerdict)
  | some v =>
    let passed := saysPassed v
    let given := (fields.lookup "reason").getD .null
    let reason :=
      if given.isTrue then given.display else if passed then "Looks correct" else "Rejected"
    let issues ← issuesOf ((fields.lookup "issues").getD .null)
    pure ⟨passed, reason, issues⟩

namespace Model

/-- The plan for a finding in some code. -/
def plan (m : Model) (i : Issue) (code : String) (feedback : Option String) : Act Plan := do
  let answer ← m.complete .planner (planPrompt i code feedback)
  Act.ofExcept (planOf answer)

/-- The code that follows a plan. -/
def implement (m : Model) (code : String) (p : Plan) (i : Issue) : Act String := do
  let answer ← m.complete .coder (codePrompt i code p)
  Act.ofExcept (newCodeOf answer)

/-- The verdict on new code. -/
def review (m : Model) (code : String) (p : Plan) (newCode : String) (i : Issue) : Act Review := do
  let answer ← m.complete .reviewer (reviewPrompt i code p newCode)
  Act.ofExcept (reviewOf answer)

end Model

end FixGate
