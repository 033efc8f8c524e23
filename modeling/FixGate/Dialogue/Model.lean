import FixGate.Act.Basic

/-!
# Asking the model

A question is sent under a role, which decides the instructions that come with it. The answer is the
text of its text blocks together, and must not be blank.

* `Role.instructions` : what the model is told to be
* `Model`, `Model.complete` : a model, and its answer to a question
-/

namespace FixGate

/-- What the model is told to be in a role. -/
def Role.instructions : Role → String
  | .planner =>
    "You are a security engineer planning the smallest safe fix for a reported vulnerability. " ++
    "Answer with a JSON array of short, concrete steps and nothing else."
  | .coder =>
    "You are a careful systems programmer. Rewrite the given code so it follows the plan exactly. " ++
    "Keep everything the plan does not mention unchanged. Answer with the complete replacement code " ++
    "in one fenced code block."
  | .reviewer =>
    "You are a strict security code reviewer. Decide whether the new code fixes the issue without " ++
    "introducing new bugs or changing behaviour. Answer with a JSON object " ++
    "\x7b\"passed\": bool, \"reason\": str, \"issues\": [str]\x7d."

/-- A model, and how long its answers may be. -/
structure Model where
  name : Value
  maxTokens : Int
  deriving Inhabited

/-- The text of the text blocks of an answer. -/
def textOf (blocks : List (String × String)) : String :=
  String.join ((blocks.filter fun b => b.1 == "text").map (·.2))

/-- A question sent: it is recorded, and the surroundings decide what is answered. -/
def Act.ask (q : Query) : Act Reply := do
  let s ← get
  let (r, t) := (← read).ask s.queries.length q s.disk.tree
  set { s with queries := s.queries ++ [q], disk := { s.disk with tree := t } }
  pure r

/-- The answer of a model in a role. -/
def Model.complete (m : Model) (role : Role) (prompt : String) : Act String := do
  if !(← read).hasPackage then throw .noPackage
  else
    match ← Act.ask ⟨role, m.name, m.maxTokens, prompt⟩ with
    | .failed f => throw f
    | .blocks bs =>
      let text := textOf bs
      if Text.isBlankText text then throw (.role (.blank role)) else pure text

end FixGate
