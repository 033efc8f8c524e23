import FixGate.Act.Files
import FixGate.Proofs.Act.Outcome

/-!
# The failures and the results of an action

What kinds of failures an action can have is told from its parts: a failure of a composed action is one of its
first step or of what follows, and one that is remedied is a failure of the remedy. A result of a composed action is
always one of what follows.

* `Act.Fails` : all failures of an action are of a kind
* `Act.Gives` : all results of an action are of a kind
* `Failure.OfDisk`, `Act.replaceFile_fails` : the failures of replacing a file
-/

namespace FixGate

namespace Act

variable {α β : Type} {h : Host} {P Q : Failure → Prop} {s u : State} {f : Failure}

/-- Every failure that an action has is of a kind. -/
def Fails (h : Host) (P : Failure → Prop) (a : Act α) : Prop :=
  ∀ s f u, a.outcome h s = (.error f, u) → P f

namespace Fails

theorem pure (x : α) : Fails h P (Pure.pure x : Act α) := by
  intro s f u hf
  cases hf

theorem throw (hf : P f) : Fails h P (MonadExcept.throw f : Act α) := by
  intro s g u hg
  cases hg
  exact hf

theorem modify (g : State → State) : Fails h P (modify g : Act Unit) := by
  intro s f u hf
  cases hf

theorem ofExcept {r : Except Failure α} (hr : ∀ f, r = .error f → P f) : Fails h P (Act.ofExcept r) := by
  intro s f u hf
  rw [outcome_ofExcept] at hf
  exact hr f (Prod.mk.inj hf).1

/-- The second action need have its failures of the kind only for results that the first one can have. -/
theorem bind_of_outcome {a : Act α} {k : α → Act β} (ha : Fails h P a)
    (hk : ∀ x s t, a.outcome h s = (.ok x, t) → Fails h P (k x)) : Fails h P (a >>= k) := by
  intro s f u hf
  rw [outcome_bind] at hf
  rcases hr : a.outcome h s with ⟨g | x, t⟩ <;> rw [hr] at hf
  · cases hf
    exact ha s _ _ hr
  · exact hk x s t hr t f u hf

theorem bind {a : Act α} {k : α → Act β} (ha : Fails h P a) (hk : ∀ x, Fails h P (k x)) :
    Fails h P (a >>= k) :=
  ha.bind_of_outcome fun x _ _ _ => hk x

theorem disk_bind {k : Disk → Act β} (hk : ∀ d, Fails h P (k d)) : Fails h P (Act.disk >>= k) :=
  fun s f u hf => hk s.disk s f u hf

theorem get_bind {k : State → Act β} (hk : ∀ s, Fails h P (k s)) : Fails h P (get >>= k) :=
  fun s f u hf => hk s s f u hf

theorem read_bind {k : Host → Act β} (hk : Fails h P (k h)) : Fails h P (read >>= k) :=
  fun s f u hf => hk s f u hf

/-- A failure that is caught is none. -/
theorem caught (a : Act α) : Fails h P (Act.caught a) := by
  intro s f u hf
  rw [outcome_caught] at hf
  cases hf

/-- What is not remedied fails in the remedy. -/
theorem tryCatch {a : Act α} {k : Failure → Act α} (ha : Fails h Q a) (hk : ∀ f, Q f → Fails h P (k f)) :
    Fails h P (tryCatch a k) := by
  intro s f u hf
  rw [outcome_tryCatch] at hf
  rcases hr : a.outcome h s with ⟨g | x, t⟩ <;> rw [hr] at hf
  · exact hk g (ha s g t hr) t f u hf
  · cases hf

end Fails

section Gives

variable {T : α → Prop} {R : β → Prop}

/-- Every result that an action has is of a kind. -/
def Gives (h : Host) (T : α → Prop) (a : Act α) : Prop :=
  ∀ s x u, a.outcome h s = (.ok x, u) → T x

namespace Gives

theorem pure {x : α} (hx : T x) : Gives h T (Pure.pure x : Act α) := by
  intro s y u hy
  cases hy
  exact hx

theorem throw (f : Failure) : Gives h T (MonadExcept.throw f : Act α) := by
  intro s x u hx
  cases hx

theorem ofExcept {r : Except Failure α} (hr : ∀ x, r = .ok x → T x) : Gives h T (Act.ofExcept r) := by
  intro s x u hx
  rw [outcome_ofExcept] at hx
  exact hr x (Prod.mk.inj hx).1

/-- The second action need have results of the kind only for results that the first one can have. -/
theorem bind_of {a : Act α} {k : α → Act β} (ha : Gives h T a) (hk : ∀ x, T x → Gives h R (k x)) :
    Gives h R (a >>= k) := by
  intro s y u hy
  obtain ⟨x, t, hx, hy⟩ := outcome_bind_eq_ok_iff.1 hy
  exact hk x (ha s x t hx) t y u hy

theorem bind {a : Act α} {k : α → Act β} (hk : ∀ x, Gives h R (k x)) : Gives h R (a >>= k) := by
  intro s y u hy
  obtain ⟨x, t, -, hy⟩ := outcome_bind_eq_ok_iff.1 hy
  exact hk x t y u hy

theorem caught {a : Act α} (ha : Gives h T a) : Gives h (fun r => ∀ x, r = .ok x → T x) (Act.caught a) := by
  intro s r u hr x hx
  rw [outcome_caught] at hr
  obtain ⟨hresult, -⟩ := Prod.mk.inj hr
  exact ha s x _ (Prod.ext ((Except.ok.inj hresult).trans hx) rfl)

end Gives

end Gives

end Act

/-! ## The disk -/

/-- A failure that the disk, or the bytes of a text, gives rise to. -/
def Failure.OfDisk : Failure → Prop
  | .os _ _ => True
  | .value .nullByte => True
  | .undecodable _ => True
  | .unencodable _ => True
  | _ => False

namespace Act

open Failure

variable {α : Type} {h : Host} {p : Path} {x : String}

theorem ofDisk_ofPath (g : PathFault) (p : Path) : (Failure.ofPath g p).OfDisk := by
  cases g <;> trivial

theorem ofDisk_of_checkText {f : Failure} (hf : Failure.checkText x = .error f) : f.OfDisk := by
  unfold Failure.checkText at hf
  split at hf
  · cases hf
  · cases hf
    trivial

theorem step_fails (k : DiskStep) (p : Path) : Fails h OfDisk (step k p) := by
  refine Fails.get_bind fun s => (Fails.modify _).bind fun _ => Fails.read_bind ?_
  split
  · exact Fails.pure ()
  · exact Fails.throw trivial

theorem found_fails (p : Path) (r : Except PathFault α) : Fails h OfDisk (found p r) := by
  unfold found
  split
  · exact Fails.pure _
  · exact Fails.throw (ofDisk_ofPath _ p)

theorem ofDisk_of_placeBeside {d : Disk} {f : Failure} (hf : placeBeside d p = .error f) : f.OfDisk := by
  unfold placeBeside at hf
  simp only at hf
  split at hf
  · cases hf
    exact ofDisk_ofPath _ p
  · cases hf
    exact ofDisk_ofPath _ p
  · split at hf
    · cases hf
      trivial
    · split at hf
      · cases hf
        exact ofDisk_ofPath _ p
      · cases hf

theorem ofDisk_of_reaches {d : Disk} {f : Failure} (hf : d.reaches p = .error f) : f.OfDisk := by
  unfold Disk.reaches at hf
  cases hlook : d.lookUp p with
  | ok e =>
    rw [hlook] at hf
    cases hf
  | error g =>
    rw [hlook] at hf
    cases hf
    unfold Disk.lookUp at hlook
    split at hlook
    · cases hlook
    · split at hlook
      · cases hlook
      · cases hlook
        exact ofDisk_ofPath _ p

theorem keepMode_fails (p : Path) : Fails h OfDisk (keepMode p) := by
  refine Fails.disk_bind fun d => (Fails.ofExcept fun _ hf => ofDisk_of_reaches hf).bind fun there => ?_
  split
  · exact step_fails _ p
  · exact Fails.pure ()

theorem moveTo_fails (p : Path) (temp : Location) (x : String) : Fails h OfDisk (moveTo p temp x) :=
  (step_fails _ p).bind fun _ => Fails.disk_bind fun _ => (found_fails p _).bind fun _ => Fails.modify _

theorem fillAndMove_fails (p : Path) (temp : Location) (x : String) :
    Fails h OfDisk (fillAndMove p temp x) :=
  (Fails.ofExcept fun _ hf => ofDisk_of_checkText hf).bind fun _ => (step_fails _ p).bind fun _ =>
    Fails.disk_bind fun _ => (Fails.modify _).bind fun _ => (keepMode_fails p).bind fun _ =>
      moveTo_fails p temp x

/-- Replacing a file fails by the disk, or for want of bytes. -/
theorem replaceFile_fails (p : Path) (x : String) : Fails h OfDisk (replaceFile p x) := by
  refine Fails.disk_bind fun d => (Fails.ofExcept fun _ hf => ofDisk_of_placeBeside hf).bind fun temp =>
    (step_fails _ p).bind fun _ => (Fails.modify _).bind fun _ => ?_
  exact (fillAndMove_fails p temp x).tryCatch fun f hf =>
    Fails.disk_bind fun _ => (Fails.modify _).bind fun _ => Fails.throw hf

end Act

end FixGate
