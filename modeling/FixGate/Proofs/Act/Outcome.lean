import FixGate.Act.Basic

/-!
# What an action comes to

The outcome of an action, computed along its construction, and properties of the states before and after
that every action has if the actions it is made of have them.

* `Act.outcome_bind`, `Act.outcome_tryCatch`, `Act.outcome_ensure` : outcomes of composed actions
* `Host.quiet` : surroundings that do nothing of their own accord
* `State.steps`, `State.withTree` : a state with another count of disk steps, or another file tree
* `Act.Keeps` : a relation between the states before and after an action, whatever comes of it
* `Act.Keeps.bind`, `Act.Keeps.tryCatch` : such a relation is carried through compositions
* `Act.Idle` : the relation that touches neither files nor programs
-/

namespace FixGate

/-- Surroundings that do nothing of their own accord: programs end well and change nothing, the model
answers nothing, and the disk refuses nothing. -/
def Host.quiet : Host where
  hasKey := true
  hasPackage := true
  run _ _ t := (.ended 0 none none, t)
  ask _ _ t := (.blocks [], t)
  refuse _ _ := none
  clock _ := ""

theorem Host.quiet_steady : Host.quiet.steady := fun _ _ => rfl

/-- A result that something is known of. -/
theorem exists_of_toOption {ε α β : Type} {x : Except ε α} {f : α → β} {y : β}
    (hx : x.toOption.map f = some y) : ∃ a, x = .ok a ∧ f a = y := by
  cases x with
  | error g => cases hx
  | ok a => exact ⟨a, rfl, Option.some.inj hx⟩

/-- What a result complains of, if it is a failure. -/
def complaint? {α : Type} : Except Failure α → Option String
  | .ok _ => none
  | .error f => some f.message

theorem exists_of_complaint? {α : Type} {x : Except Failure α} {text : String} (hx : complaint? x = some text) :
    ∃ f, x = .error f ∧ f.message = text := by
  cases x with
  | error f => exact ⟨f, rfl, Option.some.inj hx⟩
  | ok a => cases hx

namespace State

/-- The state with another count of disk steps. -/
def steps (s : State) (n : Nat) : State := { s with diskSteps := n }

/-- The state with another file tree. -/
def withTree (s : State) (t : FileTree) : State := { s with disk := { s.disk with tree := t } }

@[simp] theorem steps_disk (s : State) (n : Nat) : (s.steps n).disk = s.disk := rfl
@[simp] theorem steps_runs (s : State) (n : Nat) : (s.steps n).runs = s.runs := rfl
@[simp] theorem steps_ids (s : State) (n : Nat) : (s.steps n).ids = s.ids := rfl
@[simp] theorem steps_diskSteps (s : State) (n : Nat) : (s.steps n).diskSteps = n := rfl
@[simp] theorem steps_steps (s : State) (m n : Nat) : (s.steps m).steps n = s.steps n := rfl
@[simp] theorem steps_self (s : State) : s.steps s.diskSteps = s := rfl
@[simp] theorem withTree_tree (s : State) (t : FileTree) : (s.withTree t).disk.tree = t := rfl
@[simp] theorem withTree_here (s : State) (t : FileTree) : (s.withTree t).disk.here = s.disk.here := rfl
@[simp] theorem withTree_runs (s : State) (t : FileTree) : (s.withTree t).runs = s.runs := rfl
@[simp] theorem withTree_ids (s : State) (t : FileTree) : (s.withTree t).ids = s.ids := rfl
@[simp] theorem withTree_diskSteps (s : State) (t : FileTree) :
    (s.withTree t).diskSteps = s.diskSteps := rfl
@[simp] theorem withTree_withTree (s : State) (t u : FileTree) :
    (s.withTree t).withTree u = s.withTree u := rfl
@[simp] theorem withTree_self (s : State) : s.withTree s.disk.tree = s := rfl
@[simp] theorem withTree_steps (s : State) (t : FileTree) (n : Nat) :
    (s.withTree t).steps n = (s.steps n).withTree t := rfl

end State

namespace Act

variable {α β : Type} {h : Host} {s t u : State} {f : Failure}

/-! ## Outcomes -/

@[simp] theorem outcome_pure (x : α) : (pure x : Act α).outcome h s = (.ok x, s) := rfl
@[simp] theorem outcome_throw (f : Failure) : (throw f : Act α).outcome h s = (.error f, s) := rfl
@[simp] theorem outcome_get : (get : Act State).outcome h s = (.ok s, s) := rfl
@[simp] theorem outcome_set (t : State) : (set t : Act Unit).outcome h s = (.ok (), t) := rfl
@[simp] theorem outcome_read : (read : Act Host).outcome h s = (.ok h, s) := rfl
@[simp] theorem outcome_disk : disk.outcome h s = (.ok s.disk, s) := rfl

@[simp] theorem outcome_ofOutcome (g : Host → State → Except Failure α × State) :
    (ofOutcome g).outcome h s = g h s := rfl

@[simp] theorem outcome_modify (g : State → State) :
    (modify g : Act Unit).outcome h s = (.ok (), g s) := rfl

@[simp] theorem outcome_setTree (t : FileTree) : (setTree t).outcome h s = (.ok (), s.withTree t) := rfl

@[simp] theorem outcome_ofExcept (r : Except Failure α) : (ofExcept r).outcome h s = (r, s) := by
  cases r <;> rfl

theorem outcome_drawId (kind : String) :
    (drawId kind).outcome h s =
      (.ok (kind ++ "_" ++ String.ofList (Text.hexDigits (s.ids + 1) 8)),
        { s with ids := s.ids + 1 }) := rfl

/-- Actions with the same outcomes are the same. -/
theorem eq_of_outcome {a b : Act α} (same : ∀ h s, a.outcome h s = b.outcome h s) : a = b :=
  funext fun h => funext fun s => same h s

/-- An action and then another. -/
theorem outcome_bind (a : Act α) (k : α → Act β) :
    (a >>= k).outcome h s =
      match a.outcome h s with
      | (.ok x, t) => (k x).outcome h t
      | (.error f, t) => (.error f, t) := by
  change (ExceptT.bindCont (fun x => k x h) (a.outcome h s).1) (a.outcome h s).2 = _
  rcases a.outcome h s with ⟨_ | x, t⟩ <;> rfl

theorem outcome_bind_of_ok {a : Act α} {x : α} (ha : a.outcome h s = (.ok x, t)) (k : α → Act β) :
    (a >>= k).outcome h s = (k x).outcome h t := by
  rw [outcome_bind, ha]

theorem outcome_bind_of_error {a : Act α} (ha : a.outcome h s = (.error f, t)) (k : α → Act β) :
    (a >>= k).outcome h s = (.error f, t) := by
  rw [outcome_bind, ha]

@[simp] theorem outcome_get_bind (k : State → Act β) :
    ((get : Act State) >>= k).outcome h s = (k s).outcome h s := rfl

@[simp] theorem outcome_read_bind (k : Host → Act β) :
    ((read : Act Host) >>= k).outcome h s = (k h).outcome h s := rfl

@[simp] theorem outcome_disk_bind (k : Disk → Act β) :
    (disk >>= k).outcome h s = (k s.disk).outcome h s := rfl

@[simp] theorem outcome_modify_bind (g : State → State) (k : Unit → Act β) :
    ((modify g : Act Unit) >>= k).outcome h s = (k ()).outcome h (g s) := rfl

@[simp] theorem outcome_setTree_bind (t : FileTree) (k : Unit → Act β) :
    (setTree t >>= k).outcome h s = (k ()).outcome h (s.withTree t) := rfl

@[simp] theorem outcome_ofExcept_ok_bind (x : α) (k : α → Act β) :
    (ofExcept (.ok x) >>= k).outcome h s = (k x).outcome h s := rfl

@[simp] theorem outcome_ofExcept_error_bind (f : Failure) (k : α → Act β) :
    (ofExcept (.error f) >>= k).outcome h s = (.error f, s) := rfl

/-- An action that succeeds before another has an outcome in between. -/
theorem outcome_bind_eq_ok_iff {a : Act α} {k : α → Act β} {y : β} :
    (a >>= k).outcome h s = (.ok y, u) ↔
      ∃ x t, a.outcome h s = (.ok x, t) ∧ (k x).outcome h t = (.ok y, u) := by
  rw [outcome_bind]
  rcases a.outcome h s with ⟨f | x, t⟩
  · simp
  · constructor
    · exact fun hk => ⟨x, t, rfl, hk⟩
    · rintro ⟨_, _, ⟨rfl, rfl⟩, hk⟩
      exact hk

/-- An action with a remedy for its failures. -/
theorem outcome_tryCatch (a : Act α) (k : Failure → Act α) :
    (tryCatch a k).outcome h s =
      match a.outcome h s with
      | (.ok x, t) => (.ok x, t)
      | (.error f, t) => (k f).outcome h t := by
  change StateT.run ((a h).tryCatch fun e => k e h) s = _
  unfold ExceptT.tryCatch outcome
  rcases hr : (a h).run.run s with ⟨_ | x, t⟩
  all_goals
    change StateT.run (a h) s = _ at hr
    simp only [ExceptT.mk, StateT.run_bind, hr]
    rfl

theorem outcome_map (g : α → β) (a : Act α) :
    (g <$> a).outcome h s = ((a.outcome h s).1.map g, (a.outcome h s).2) := by
  change (a >>= fun x => pure (g x)).outcome h s = _
  rw [outcome_bind]
  rcases a.outcome h s with ⟨_ | x, t⟩ <;> rfl

theorem outcome_map_of_ok {a : Act α} {x : α} (ha : a.outcome h s = (.ok x, t)) (g : α → β) :
    (g <$> a).outcome h s = (.ok (g x), t) := by
  rw [outcome_map, ha]
  rfl

theorem outcome_map_of_error {a : Act α} (ha : a.outcome h s = (.error f, t)) (g : α → β) :
    (g <$> a).outcome h s = (.error f, t) := by
  rw [outcome_map, ha]
  rfl

/-- A failure that is caught is a result. -/
@[simp] theorem outcome_caught (a : Act α) :
    (caught a).outcome h s = (.ok (a.outcome h s).1, (a.outcome h s).2) := by
  unfold caught
  rw [outcome_tryCatch, outcome_map]
  rcases a.outcome h s with ⟨_ | x, t⟩ <;> rfl

/-- An action followed by another in any case. -/
theorem outcome_ensure (a : Act α) (after : Act Unit) :
    (a.ensure after).outcome h s =
      match after.outcome h (a.outcome h s).2 with
      | (.ok _, u) => ((a.outcome h s).1, u)
      | (.error f, u) => (.error f, u) := by
  unfold ensure
  rw [outcome_ofOutcome]
  rcases a.outcome h s with ⟨r, t⟩
  simp only
  rcases after.outcome h t with ⟨_ | _, u⟩ <;> rfl

/-- An action that passes on all failures but those that it remedies. -/
theorem outcome_tryCatch_of_ok {a : Act α} {x : α} (ha : a.outcome h s = (.ok x, t))
    (k : Failure → Act α) : (tryCatch a k).outcome h s = (.ok x, t) := by
  rw [outcome_tryCatch, ha]

theorem outcome_tryCatch_of_error {a : Act α} (ha : a.outcome h s = (.error f, t))
    (k : Failure → Act α) : (tryCatch a k).outcome h s = (k f).outcome h t := by
  rw [outcome_tryCatch, ha]

/-- An outcome whose result something is known of. -/
theorem exists_outcome {a : Act α} {g : α → β} {y : β} (hx : (a.outcome h s).1.toOption.map g = some y) :
    ∃ x t, a.outcome h s = (.ok x, t) ∧ g x = y := by
  obtain ⟨x, hok, hy⟩ := exists_of_toOption hx
  exact ⟨x, _, Prod.ext hok rfl, hy⟩

/-! ## Relations between the states before and after -/

/-- The states before and after an action are related, whatever comes of it. -/
def Keeps (h : Host) (R : State → State → Prop) (a : Act α) : Prop :=
  ∀ s, R s (a.outcome h s).2

section Keeps

variable {R : State → State → Prop}

theorem Keeps.pure (refl : ∀ s, R s s) (x : α) : Keeps h R (pure x : Act α) := refl

theorem Keeps.throw (refl : ∀ s, R s s) (f : Failure) : Keeps h R (throw f : Act α) := refl

theorem Keeps.get (refl : ∀ s, R s s) : Keeps h R (get : Act State) := refl

theorem Keeps.disk (refl : ∀ s, R s s) : Keeps h R Act.disk := refl

theorem Keeps.ofExcept (refl : ∀ s, R s s) (r : Except Failure α) : Keeps h R (Act.ofExcept r) := by
  intro s
  rw [outcome_ofExcept]
  exact refl s

/-- The second action need keep the relation only for results that the first one can have. -/
theorem Keeps.bind_of_outcome (trans : ∀ s t u, R s t → R t u → R s u) {a : Act α} {k : α → Act β}
    (ha : Keeps h R a) (hk : ∀ x s t, a.outcome h s = (.ok x, t) → Keeps h R (k x)) :
    Keeps h R (a >>= k) := by
  intro s
  rw [outcome_bind]
  have hs := ha s
  rcases hr : a.outcome h s with ⟨f | x, t⟩ <;> rw [hr] at hs
  · exact hs
  · exact trans s t _ hs (hk x s t hr t)

theorem Keeps.bind (trans : ∀ s t u, R s t → R t u → R s u) {a : Act α} {k : α → Act β}
    (ha : Keeps h R a) (hk : ∀ x, Keeps h R (k x)) : Keeps h R (a >>= k) :=
  ha.bind_of_outcome trans fun x _ _ _ => hk x

theorem Keeps.tryCatch (trans : ∀ s t u, R s t → R t u → R s u) {a : Act α} {k : Failure → Act α}
    (ha : Keeps h R a) (hk : ∀ f, Keeps h R (k f)) : Keeps h R (tryCatch a k) := by
  intro s
  rw [outcome_tryCatch]
  have hs := ha s
  rcases hr : a.outcome h s with ⟨f | x, t⟩ <;> rw [hr] at hs
  · exact trans s t _ hs (hk f t)
  · exact hs

theorem Keeps.caught {a : Act α} (ha : Keeps h R a) : Keeps h R (Act.caught a) := by
  intro s
  rw [outcome_caught]
  exact ha s

theorem Keeps.modify {g : State → State} (hg : ∀ s, R s (g s)) : Keeps h R (modify g : Act Unit) := hg

theorem Keeps.map {a : Act α} (ha : Keeps h R a) (g : α → β) : Keeps h R (g <$> a) := by
  intro s
  rw [outcome_map]
  exact ha s

theorem Keeps.ensure (trans : ∀ s t u, R s t → R t u → R s u) {a : Act α} {after : Act Unit}
    (ha : Keeps h R a) (hafter : Keeps h R after) : Keeps h R (a.ensure after) := by
  intro s
  have later := trans _ _ _ (ha s) (hafter (a.outcome h s).2)
  rw [outcome_ensure]
  rcases hr : after.outcome h (a.outcome h s).2 with ⟨_ | _, u⟩
  all_goals
    rw [hr] at later
    exact later

theorem Keeps.forM (refl : ∀ s, R s s) (trans : ∀ s t u, R s t → R t u → R s u) {xs : List β}
    {k : β → Act PUnit} (hk : ∀ x, Keeps h R (k x)) : Keeps h R (xs.forM k) := by
  induction xs with
  | nil => exact .pure refl _
  | cons x xs ih => exact (hk x).bind trans fun _ => ih

end Keeps

/-! ## Actions that touch neither files nor programs -/

/-- Neither the files nor the programs started change. -/
def Idle (s t : State) : Prop :=
  t.disk = s.disk ∧ t.runs = s.runs

theorem Idle.refl (s : State) : Idle s s := ⟨rfl, rfl⟩

theorem Idle.trans (s t u : State) (st : Idle s t) (tu : Idle t u) : Idle s u :=
  ⟨tu.1.trans st.1, tu.2.trans st.2⟩

end Act

end FixGate
