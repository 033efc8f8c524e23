import FixGate.Dialogue.Roles
import FixGate.Proofs.Act.Outcome

/-!
# What the roles make of an answer

A role asks one question and makes sense of the text that comes back. What it returns depends on that text alone,
not on the files, on what was asked before or on anything that changes while the model answers.

* `Host.Answers` : a question of a role is answered with a text
* `Host.saying` : surroundings that give the same answer to every question
* `Model.plan_of_answers`, `Model.implement_of_answers`, `Model.review_of_answers` : what the roles return then
-/

namespace FixGate

open Act

variable {h : Host} {s : State} {m : Model} {role : Role} {prompt text : String}

/-- The surroundings answer a question of a role with blocks that hold a text. -/
structure Host.Answers (h : Host) (s : State) (m : Model) (role : Role) (prompt text : String) : Prop where
  package : h.hasPackage = true
  blocks : ∃ bs, (h.ask s.queries.length ⟨role, m.name, m.maxTokens, prompt⟩ s.disk.tree).1 = .blocks bs ∧
    textOf bs = text

/-- Surroundings that give the same answer to every question. -/
def Host.saying (text : String) : Host :=
  { Host.quiet with ask := fun _ _ t => (.blocks [("text", text)], t) }

theorem Host.saying_answers (s : State) (m : Model) (role : Role) (prompt text : String) :
    (Host.saying text).Answers s m role prompt text :=
  ⟨rfl, _, rfl, by simp [textOf, String.join]⟩

theorem isBlankText_eq_false {c : Char} (hc : c ∈ text.toList) (filled : Text.isBlank c = false) :
    Text.isBlankText text = false :=
  List.all_eq_false.2 ⟨c, hc, by simp [filled]⟩

namespace Model

/-- A blank answer is refused, and another one is what the model said. -/
theorem complete_of_answers (answers : h.Answers s m role prompt text) :
    ∃ t, (m.complete role prompt).outcome h s =
      (if Text.isBlankText text then .error (.role (.blank role)) else .ok text, t) := by
  obtain ⟨bs, hbs, rfl⟩ := answers.blocks
  obtain ⟨t, hask⟩ : ∃ t, (Act.ask ⟨role, m.name, m.maxTokens, prompt⟩).outcome h s = (.ok (.blocks bs), t) := by
    rw [← hbs]
    exact ⟨_, rfl⟩
  refine ⟨t, ?_⟩
  unfold complete
  rw [outcome_read_bind]
  simp only [answers.package, Bool.not_true, Bool.false_eq_true, if_false]
  rw [outcome_bind_of_ok hask]
  show (if Text.isBlankText (textOf bs) = true then throw _ else pure _ : Act String).outcome h t = _
  split
  · rfl
  · rfl

/-- Whoever makes sense of an answer is given what the model said. -/
theorem complete_bind_of_answers {α : Type} (answers : h.Answers s m role prompt text)
    (f : String → Except Failure α) :
    ((m.complete role prompt >>= fun answer => Act.ofExcept (f answer)).outcome h s).1 =
      if Text.isBlankText text then .error (.role (.blank role)) else f text := by
  obtain ⟨t, hanswer⟩ := complete_of_answers answers
  split at hanswer
  · next blank => rw [outcome_bind_of_error hanswer, if_pos blank]
  · next filled => rw [outcome_bind_of_ok hanswer, outcome_ofExcept, if_neg filled]

theorem plan_of_answers {i : Issue} {code : String} {feedback : Option String}
    (answers : h.Answers s m .planner (planPrompt i code feedback) text) :
    ((m.plan i code feedback).outcome h s).1 =
      if Text.isBlankText text then .error (.role (.blank .planner)) else planOf text :=
  complete_bind_of_answers answers planOf

theorem implement_of_answers {i : Issue} {code : String} {p : Plan}
    (answers : h.Answers s m .coder (codePrompt i code p) text) :
    ((m.implement code p i).outcome h s).1 =
      if Text.isBlankText text then .error (.role (.blank .coder)) else newCodeOf text :=
  complete_bind_of_answers answers newCodeOf

theorem review_of_answers {i : Issue} {code newCode : String} {p : Plan}
    (answers : h.Answers s m .reviewer (reviewPrompt i code p newCode) text) :
    ((m.review code p newCode i).outcome h s).1 =
      if Text.isBlankText text then .error (.role (.blank .reviewer)) else reviewOf text :=
  complete_bind_of_answers answers reviewOf

end Model

end FixGate
