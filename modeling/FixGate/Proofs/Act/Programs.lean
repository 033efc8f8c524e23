import FixGate.Act.Programs
import FixGate.Proofs.Act.Files

/-!
# What programs change

An action may start programs, which change files as they like. If each of them stays within a relation
between the trees before and after, then so does the action, provided that it changes no file itself.

* `Host.Confined` : the programs of a host stay within a relation between trees
* `ByPrograms` : the states before and after an action that changes files by programs only
* `Act.Outsourced` : such an action, whatever the programs do
* `Act.run_cases` : what a program that is run comes to
* `Act.Inquiry` : a relation between states that reading files and running programs keeps
* `Act.Inquiry.of_start` : what such a relation has to be closed under
-/

namespace FixGate

/-- The programs of a host stay within a relation between the trees before and after them, as any number
of them does, one after another. -/
structure Host.Confined (h : Host) (R : FileTree → FileTree → Prop) : Prop where
  refl : ∀ t, R t t
  trans : ∀ t u v, R t u → R u v → R t v
  run : ∀ n r t, R t (h.run n r t).2

/-- The files change within a relation, and more programs may have been started. -/
structure ByPrograms (R : FileTree → FileTree → Prop) (s t : State) : Prop where
  here : t.disk.here = s.disk.here
  tree : R s.disk.tree t.disk.tree
  runs : s.runs <+: t.runs

namespace ByPrograms

variable {h : Host} {R : FileTree → FileTree → Prop} {s t u : State}

theorem refl (hR : h.Confined R) (s : State) : ByPrograms R s s :=
  ⟨rfl, hR.refl _, List.prefix_refl _⟩

theorem trans (st : ByPrograms R s t) (hR : h.Confined R) (tu : ByPrograms R t u) :
    ByPrograms R s u :=
  ⟨tu.here.trans st.here, hR.trans _ _ _ st.tree tu.tree, st.runs.trans tu.runs⟩

/-- What an action does to neither the files nor the programs started does not count. -/
theorem of_eq (hR : h.Confined R) (disk : t.disk = s.disk) (runs : t.runs = s.runs) :
    ByPrograms R s t :=
  ⟨by rw [disk], by rw [disk]; exact hR.refl _, runs ▸ List.prefix_refl _⟩

end ByPrograms

namespace Act

variable {α β : Type} {h : Host} {s : State}

/-- An action changes files by starting programs only. -/
def Outsourced (a : Act α) : Prop :=
  ∀ h R, Host.Confined h R → Keeps h (ByPrograms R) a

namespace Outsourced

/-- Where programs leave the files alone, such an action changes none. -/
theorem disk_eq {a : Act α} (ha : Outsourced a) (alone : ∀ n r t, (h.run n r t).2 = t) (s : State) :
    (a.outcome h s).2.disk = s.disk := by
  have confined : h.Confined Eq :=
    ⟨fun _ => rfl, fun _ _ _ => Eq.trans, fun n r t => (alone n r t).symm⟩
  have hs := ha h Eq confined s
  calc
    (a.outcome h s).2.disk = ⟨(a.outcome h s).2.disk.tree, (a.outcome h s).2.disk.here⟩ := rfl
    _ = s.disk := by rw [← hs.tree, hs.here]

end Outsourced

/-! ## Starting programs -/

theorem outcome_start (r : Request) :
    (start r).outcome h s =
      (.ok (h.run s.runs.length r s.disk.tree).1,
        { s with
          runs := s.runs ++ [(r, s.disk.tree)]
          disk := { s.disk with tree := (h.run s.runs.length r s.disk.tree).2 } }) := rfl

/-- Running a program fails before it is started, its words being no texts, or starts it as it stands. -/
theorem run_cases (args : List Value) (dir : Option Path) (timeout : Float) (s : State) :
    (∃ f, textsFrom 0 args = .error f ∧ (run args dir timeout).outcome h s = (.error f, s)) ∨
      ∃ words, textsFrom 0 args = .ok words ∧
        ((run args dir timeout).outcome h s).2.runs =
          s.runs ++ [(⟨words, dir, timeout⟩, s.disk.tree)] := by
  unfold run
  rw [outcome_bind, outcome_ofExcept]
  cases textsFrom 0 args with
  | error f => exact .inl ⟨f, rfl, rfl⟩
  | ok words =>
    refine .inr ⟨words, rfl, ?_⟩
    simp only
    rw [outcome_bind, outcome_start]
    simp only [outcome_ofExcept]

/-- Running a program whose words are texts comes to what the surroundings make of it. -/
theorem outcome_run {args : List Value} {dir : Option Path} {timeout : Float} {words : List String}
    (hwords : textsFrom 0 args = .ok words) {printed : Printed}
    (hprinted : Printed.ofOutcome timeout (h.run s.runs.length ⟨words, dir, timeout⟩ s.disk.tree).1 =
      .ok printed) :
    ∃ t, (run args dir timeout).outcome h s = (.ok printed, t) := by
  unfold run
  rw [hwords, outcome_ofExcept_ok_bind, outcome_bind, outcome_start]
  simp only [outcome_ofExcept, hprinted]
  exact ⟨_, rfl⟩

/-! ## Inquiries -/

/-- A relation between the states before and after that reading a file, running a program and asking for a version
keep, as any number of them does, one after another. -/
structure Inquiry (h : Host) (R : State → State → Prop) : Prop where
  refl : ∀ s, R s s
  trans : ∀ s t u, R s t → R t u → R s u
  run : ∀ args dir timeout, Keeps h R (Act.run args dir timeout)
  keptVersion : ∀ slot program, Keeps h R (Act.keptVersion slot program)
  readBytes : ∀ p, Keeps h R (Act.readBytes p)

section Keeps

variable {R : State → State → Prop} (refl : ∀ s, R s s) (trans : ∀ s t u, R s t → R t u → R s u)
  (started : ∀ r, Keeps h R (start r))
include refl trans started

theorem run_keeps (args : List Value) (dir : Option Path) (timeout : Float) : Keeps h R (run args dir timeout) :=
  Keeps.bind trans (.ofExcept refl _) fun _ => (started _).bind trans fun _ => .ofExcept refl _

theorem version_keeps (program : List Value) : Keeps h R (version program) := by
  refine .tryCatch trans ((run_keeps refl trans started _ _ _).bind trans fun out => ?_) fun f => ?_
  · split
    · exact .pure refl _
    · exact .pure refl _
  · split
    · exact .pure refl _
    · exact .throw refl _

/-- What starting programs, keeping their versions and steps of the disk lead to, inquiries lead to. -/
theorem Inquiry.of_start (kept : ∀ s slot v, R s { s with versions := (slot, v) :: s.versions })
    (steps : ∀ s n, R s (s.steps n)) : Inquiry h R where
  refl := refl
  trans := trans
  run := run_keeps refl trans started
  keptVersion slot program := by
    refine Keeps.bind trans (.get refl) fun s => ?_
    split
    · exact .pure refl _
    · refine (version_keeps refl trans started program).bind trans fun v => ?_
      exact Keeps.bind trans (.modify fun s => kept s slot v) fun _ => .pure refl v
  readBytes p s := by
    rw [outcome_readBytes]
    exact steps s _

end Keeps

/-- Where programs stay within a relation between trees, so do inquiries. -/
theorem Inquiry.byPrograms {R : FileTree → FileTree → Prop} (hR : h.Confined R) : Inquiry h (ByPrograms R) :=
  .of_start (.refl hR) (fun _ _ _ st tu => st.trans hR tu)
    (fun r s => by
      rw [outcome_start]
      exact ⟨rfl, hR.run _ _ _, List.prefix_append _ _⟩)
    (fun _ _ _ => .of_eq hR rfl rfl) fun _ _ => .of_eq hR rfl rfl

end Act

end FixGate
