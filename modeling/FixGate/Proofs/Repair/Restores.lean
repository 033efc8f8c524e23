import FixGate.Proofs.Act.Ways
import FixGate.Proofs.Repair.Attempts
import FixGate.Proofs.Validation

/-!
# A repair leaves its file

Planner, coder and reviewer only ask the model, and a validation restores what it replaced. So as long as
programs and model change no file themselves, every attempt of a repair finds in the file what the repair
read at its beginning. A directory in the place of the copy is the one thing that can get in the way of a
restoration; but where one stands it stays, and nothing passes a validation.

* `Host.Harmless` : programs and model change no file
* `Model.plan_keeps`, `Model.implement_keeps`, `Model.review_keeps` : what a question leads to, the roles
  lead to
* `Model.plan_idle`, `Model.implement_idle`, `Model.review_idle` : the roles touch neither files nor
  programs
* `Validator.validate_of_dir` : a directory in the place of the copy lets nothing pass
* `Unharmed` : a file holds its bytes, or nothing will pass a validation of it
* `Repair.unharmed_of_exchanged` : no sequence of calls changes that
-/

namespace FixGate

open Act FileTree

variable {h : Host} {s t u : State} {file : Path} {bytes : List UInt8} {i : Issue}

/-- Programs and model change no file. -/
structure Host.Harmless (h : Host) : Prop where
  run : ∀ n r t, (h.run n r t).2 = t
  ask : ∀ n q t, (h.ask n q t).2 = t

/-! ## The roles -/

/-- A question to a model that changes no file touches neither files nor programs. -/
theorem Act.ask_idle (harmless : h.Harmless) (q : Query) : Keeps h Idle (Act.ask q) := by
  intro s
  refine ⟨?_, rfl⟩
  change (⟨(h.ask s.queries.length q s.disk.tree).2, s.disk.here⟩ : Disk) = s.disk
  rw [harmless.ask]

namespace Model

variable {m : Model}

/-- A model answers with text that is not blank. -/
theorem outcome_complete {role : Role} {prompt : String} {bs : List (String × String)}
    (package : h.hasPackage = true)
    (answers : h.ask s.queries.length ⟨role, m.name, m.maxTokens, prompt⟩ s.disk.tree =
      (.blocks bs, s.disk.tree))
    (some_text : Text.isBlankText (textOf bs) = false) :
    (m.complete role prompt).outcome h s =
      (.ok (textOf bs), { s with queries := s.queries ++ [⟨role, m.name, m.maxTokens, prompt⟩] }) := by
  have hask : (Act.ask ⟨role, m.name, m.maxTokens, prompt⟩).outcome h s =
      (.ok (.blocks bs), { s with queries := s.queries ++ [⟨role, m.name, m.maxTokens, prompt⟩] }) := by
    unfold Act.ask
    rw [outcome_get_bind, outcome_read_bind]
    simp only [answers]
    rfl
  unfold Model.complete
  rw [outcome_read_bind]
  simp only [package, Bool.not_true, Bool.false_eq_true, if_false]
  rw [outcome_bind, hask]
  simp only [some_text, Bool.false_eq_true, if_false]
  rfl

/-! What a question leads to, the roles lead to. -/

section Keeps

variable {R : State → State → Prop} (refl : ∀ s, R s s) (trans : ∀ s t u, R s t → R t u → R s u)
  (asked : ∀ q, Keeps h R (Act.ask q)) (m : Model)
include refl trans asked

theorem complete_keeps (role : Role) (prompt : String) : Keeps h R (m.complete role prompt) := by
  refine Keeps.bind trans (fun s => refl s) fun host => ?_
  split
  · exact Keeps.throw refl _
  refine (asked _).bind trans fun reply => ?_
  cases reply with
  | failed f => exact Keeps.throw refl f
  | blocks bs =>
    simp only
    split
    · exact Keeps.throw refl _
    · exact Keeps.pure refl _

theorem plan_keeps (i : Issue) (code : String) (feedback : Option String) : Keeps h R (m.plan i code feedback) :=
  (complete_keeps refl trans asked m _ _).bind trans fun _ => Keeps.ofExcept refl _

theorem implement_keeps (code : String) (p : Plan) (i : Issue) : Keeps h R (m.implement code p i) :=
  (complete_keeps refl trans asked m _ _).bind trans fun _ => Keeps.ofExcept refl _

theorem review_keeps (code : String) (p : Plan) (newCode : String) (i : Issue) :
    Keeps h R (m.review code p newCode i) :=
  (complete_keeps refl trans asked m _ _).bind trans fun _ => Keeps.ofExcept refl _

end Keeps

theorem plan_idle (harmless : h.Harmless) (m : Model) (i : Issue) (code : String)
    (feedback : Option String) : Keeps h Idle (m.plan i code feedback) :=
  plan_keeps Idle.refl Idle.trans (ask_idle harmless) m i code feedback

theorem implement_idle (harmless : h.Harmless) (m : Model) (code : String) (p : Plan) (i : Issue) :
    Keeps h Idle (m.implement code p i) :=
  implement_keeps Idle.refl Idle.trans (ask_idle harmless) m code p i

theorem review_idle (harmless : h.Harmless) (m : Model) (code : String) (p : Plan) (newCode : String)
    (i : Issue) : Keeps h Idle (m.review code p newCode i) :=
  review_keeps Idle.refl Idle.trans (ask_idle harmless) m code p newCode i

end Model

/-! ## A directory in the place of the copy -/

namespace Validator

variable {v : Validator} {α : Type} {a : Act α}

theorem judge_ways (harmless : h.Harmless) (hv : ∀ a ∈ v.registry, a.Outsourced) (t : Toolchain)
    (c : Invocation) (file : Path) (sought : Option Issue) :
    Keeps h SameWays (v.judge t c file sought) := by
  intro s
  have confined : h.Confined SameDirs :=
    ⟨.refl, fun _ _ _ => .trans, fun n r t => by rw [harmless.run]; exact .refl t⟩
  have hjudge := judge_outsourced hv t c file sought h SameDirs confined s
  exact ⟨hjudge.here, hjudge.tree⟩

/-- A file cannot be restored from a directory. -/
theorem restore_of_dir (hd : s.disk.entryAt (copyOf file) = some .dir) :
    ∃ f, (restore file).outcome h s = (.error f, s.steps (s.diskSteps + 1)) := by
  have hcontent : s.disk.content (copyOf file) = .error .isDirectory := by
    unfold Disk.entryAt at hd
    unfold Disk.content
    rcases hl : s.disk.locate (copyOf file) with f | ⟨l, e⟩
    all_goals rw [hl] at hd
    · cases hd
    · cases hd
      rfl
  obtain ⟨f, hf⟩ := copyFile_of_content_error (h := h) hcontent file
  exact ⟨f, outcome_bind_of_error hf _⟩

/-- With a directory in the place of the copy, putting a candidate in the place of its file fails. -/
theorem whileInPlace_of_dir (candidate : String) (ha : Keeps h SameWays a)
    (hd : s.disk.entryAt (copyOf file) = some .dir) :
    ∃ f u, (whileInPlace file candidate a).outcome h s = (.error f, u) ∧ SameWays s u := by
  unfold whileInPlace
  rw [outcome_bind]
  have hcopied := copyFile_ways (h := h) file (copyOf file) s
  rcases hcopy : (copyFile file (copyOf file)).outcome h s with ⟨f | _, s₁⟩
  all_goals rw [hcopy] at hcopied
  · exact ⟨f, s₁, rfl, hcopied⟩
  simp only
  have hplaced := Keeps.bind SameWays.trans (writeText_ways (h := h) file candidate) (fun _ => ha) s₁
  rw [outcome_ensure]
  rcases hplace : (do writeText file candidate; a : Act α).outcome h s₁ with ⟨r, s₂⟩
  rw [hplace] at hplaced
  have ways : SameWays s s₂ := hcopied.trans _ _ _ hplaced
  obtain ⟨f, hf⟩ := restore_of_dir (h := h) (ways.entryAt_dir hd)
  rw [hf]
  exact ⟨f, _, rfl, ways⟩

/-- A directory in the place of the copy stays, and lets nothing pass. -/
theorem validate_of_dir (harmless : h.Harmless) (hv : ∀ a ∈ v.registry, a.Outsourced)
    (candidate : String) (sought : Option Issue) (hd : s.disk.entryAt (copyOf file) = some .dir) :
    ((v.validate file candidate sought).outcome h s).2.disk.entryAt (copyOf file) = some .dir ∧
      ∀ verdict, ((v.validate file candidate sought).outcome h s).1 = .ok verdict →
        verdict.passed = false := by
  rcases validate_cases v h s file candidate sought with
    ⟨⟨idle, -, -⟩, hno⟩ | ⟨t, c, w, -, ⟨idle, -, -⟩, heq⟩
  · exact ⟨(SameWays.of_idle idle).entryAt_dir hd, hno⟩
  · have hw := (SameWays.of_idle idle).entryAt_dir hd
    obtain ⟨f, u, hu, ways⟩ := whileInPlace_of_dir candidate (judge_ways harmless hv t c file sought) hw
    rw [heq, hu]
    exact ⟨ways.entryAt_dir hw, by simp⟩

end Validator

/-! ## Calls -/

/-- A file holds its bytes, unless a directory in the place of its copy keeps everything from passing a
validation. -/
def Unharmed (file : Path) (bytes : List UInt8) (s : State) : Prop :=
  s.disk.entryAt (copyOf file) ≠ some .dir → s.disk.content file = .ok bytes

theorem Unharmed.of_idle (unharmed : Unharmed file bytes s) (idle : Idle s t) :
    Unharmed file bytes t := by
  unfold Unharmed
  rw [idle.1]
  exact unharmed

/-- What programs that change no file do spares every copy. -/
theorem spares_of_harmless (harmless : h.Harmless) (here : Location) (file : Path) (n : Nat)
    (r : Request) (t : FileTree) : Spares here file t (h.run n r t).2 := by
  rw [harmless.run]
  exact ⟨fun _ hl => hl, rfl⟩

theorem Validator.unharmed_validate {v : Validator} (harmless : h.Harmless)
    (hv : ∀ a ∈ v.registry, a.Outsourced) (lets : h.LetsRestore file) (candidate : String)
    (sought : Option Issue) (unharmed : Unharmed file bytes s) :
    Unharmed file bytes ((v.validate file candidate sought).outcome h s).2 := by
  by_cases hd : s.disk.entryAt (copyOf file) = some .dir
  · intro hno
    exact absurd (validate_of_dir harmless hv candidate sought hd).1 hno
  · obtain ⟨r, u, started, hu, hrestored, -⟩ := validate_spec v candidate sought hv (unharmed hd) hd
      (spares_of_harmless harmless _ file) lets
    rw [hu]
    exact fun _ => hrestored.content

namespace Repair

variable {m : Model} {v : Validator} {settings : Settings} {es : List Exchange}

/-- No call changes the file of its finding. -/
theorem unharmed_answer (m : Model) (settings : Settings) (harmless : h.Harmless)
    (hv : ∀ a ∈ v.registry, a.Outsourced) (lets : h.LetsRestore i.file) (c : Call)
    (own : ∀ file candidate, c = .validate file candidate → file = i.file)
    (unharmed : Unharmed i.file bytes s) :
    Unharmed i.file bytes ((answer ⟨.ofModel m v, settings⟩ i c).outcome h s).2 := by
  cases c with
  | plan code feedback => exact unharmed.of_idle (m.plan_idle harmless i code feedback s)
  | implement code p => exact unharmed.of_idle (m.implement_idle harmless code p i s)
  | review code p newCode => exact unharmed.of_idle (m.review_idle harmless code p newCode i s)
  | validate file candidate =>
    obtain rfl := own file candidate rfl
    exact v.unharmed_validate harmless hv lets candidate (some i) unharmed

/-- Nor does a sequence of calls. -/
theorem unharmed_of_exchanged (harmless : h.Harmless) (hv : ∀ a ∈ v.registry, a.Outsourced)
    (lets : h.LetsRestore i.file)
    (own : ∀ e ∈ es, ∀ file candidate, e.call = .validate file candidate → file = i.file)
    (exch : Exchanged ⟨.ofModel m v, settings⟩ i h s es t) (unharmed : Unharmed i.file bytes s) :
    Unharmed i.file bytes t := by
  induction exch with
  | nil s => exact unharmed
  | @cons s t u e es he _ ih =>
    apply ih fun e' he' => own e' (List.mem_cons_of_mem _ he')
    have hanswer := unharmed_answer m settings harmless hv lets e.call
      (own e List.mem_cons_self) unharmed
    rw [he] at hanswer
    exact hanswer

end Repair

end FixGate
