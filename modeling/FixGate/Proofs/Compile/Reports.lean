import FixGate.Compile.Toolchain
import Mathlib.Tactic.SplitIfs

/-!
# Reports are read by their data alone

What a compiler prints is data. Where it cannot be read, the failure is one of the data, and none of those
with which the program's own parts tell each other that a compiler could not be set up or started.

* `DataFault` : a result whose failures are faults of data
* `Toolchain.diagnostics_dataFault` : reading the complaints of any compiler is one
* `Toolchain.report_eq_ok` : what a report that could be read says
-/

namespace FixGate

/-- A result fails, if it does, by a fault of the data, and by none of the program's own parts. -/
def DataFault {α : Type} (r : Except Failure α) : Prop :=
  ∀ f, r = .error f → f.isOwn = false

namespace DataFault

variable {α β : Type}

theorem ok (x : α) : DataFault (.ok x : Except Failure α) := by
  intro f hf
  cases hf

theorem error {f : Failure} (hf : f.isOwn = false) : DataFault (.error f : Except Failure α) := by
  rintro _ ⟨⟩
  exact hf

theorem bind {r : Except Failure α} {k : α → Except Failure β} (hr : DataFault r)
    (hk : ∀ x, DataFault (k x)) : DataFault (r >>= k) := by
  cases r with
  | error f =>
    rintro _ ⟨⟩
    exact hr f rfl
  | ok x => exact hk x

theorem ite_bind {c : Prop} [Decidable c] {r : Except Failure α} {x : α} {k : α → Except Failure β}
    (hr : DataFault r) (hk : ∀ x, DataFault (k x)) : DataFault (if c then r >>= k else pure x >>= k) := by
  split_ifs
  · exact hr.bind hk
  · exact hk x

theorem mapM {g : α → Except Failure β} (hg : ∀ x, DataFault (g x)) (xs : List α) :
    DataFault (xs.mapM g) := by
  induction xs with
  | nil => exact ok []
  | cons x xs ih =>
    rw [List.mapM_cons]
    exact (hg x).bind fun y => ih.bind fun ys => ok _

end DataFault

section Composed

variable {α β : Type} {r : Except Failure α} {k : α → Except Failure β} {f : Failure}

/-- A composed result fails in its first step, or in what follows it. -/
theorem cases_of_bind (hk : (r >>= k) = .error f) : r = .error f ∨ ∃ x, r = .ok x ∧ k x = .error f := by
  cases r with
  | error g =>
    cases hk
    exact .inl rfl
  | ok x => exact .inr ⟨x, rfl, hk⟩

/-- A composed result whose first step is only taken under a condition. -/
theorem cases_of_ite_bind {c : Prop} [Decidable c] {x : α} (hk : (if c then r >>= k else pure x >>= k) = .error f) :
    (c ∧ r = .error f) ∨ ∃ y, k y = .error f := by
  split_ifs at hk with hc
  · rcases cases_of_bind hk with hr | ⟨y, -, hk⟩
    · exact .inl ⟨hc, hr⟩
    · exact .inr ⟨y, hk⟩
  · exact .inr ⟨x, hk⟩

end Composed

/-! ## Values -/

namespace Value

theorem getOr_dataFault (v : Value) (name : String) (default : Value) :
    DataFault (v.getOr name default) := by
  cases v
  case table fields => exact .ok _
  all_goals exact .error rfl

theorem elements_dataFault (v : Value) : DataFault v.elements := by
  cases v
  case list items => exact .ok _
  case table fields => exact .ok _
  case text s => exact .ok _
  all_goals exact .error rfl

theorem toInteger_dataFault (v : Value) : DataFault v.toInteger := by
  unfold toInteger
  split
  · exact .ok _
  · exact .ok _
  · split
    · exact .ok _
    · split_ifs
      · exact .error rfl
      · exact .error rfl
  · split
    · exact .ok _
    · exact .error rfl
  · exact .error rfl

theorem field_dataFault (v : Value) (name : String) : DataFault (v.field name) := by
  unfold field
  split
  · split
    · exact .ok _
    · exact .error rfl
  all_goals exact .error rfl

theorem fields_dataFault (v : Value) : DataFault v.fields := by
  cases v
  case table fs => exact .ok _
  all_goals exact .error rfl

theorem textFor_dataFault (v : Value) (member : String) : DataFault (v.textFor member) := by
  cases v
  case text s => exact .ok _
  all_goals exact .error rfl

theorem toPath_dataFault (v : Value) : DataFault v.toPath := by
  cases v
  case text s => exact .ok _
  all_goals exact .error rfl

end Value

/-- A text that is no record is none; only a limit of the reader is a failure. -/
theorem Json.whole?_dataFault (s : String) : DataFault (Json.whole? s) := by
  unfold Json.whole? Json.ifWellFormed
  split
  · exact .ok _
  · next e _ =>
    cases hfault : e.fault
    case digits count => exact .error rfl
    case depth fault => exact .error rfl
    all_goals exact .ok _

/-! ## Complaints -/

namespace CargoMessage

theorem fieldOr_dataFault (v : Value) (name : String) (default : Value) :
    DataFault (fieldOr v name default) :=
  (Value.getOr_dataFault v name _).bind fun _ => .ok _

theorem firstPrimary_dataFault (spans : List Value) : DataFault (firstPrimary spans) := by
  induction spans with
  | nil => exact .ok _
  | cons s rest ih =>
    refine (Value.getOr_dataFault s _ _).bind fun x => ?_
    split_ifs
    · exact .ok _
    · exact ih

theorem primarySpan_dataFault (spans : Value) : DataFault (primarySpan spans) := by
  refine (Value.elements_dataFault spans).bind fun items => ?_
  split
  · exact .error rfl
  · exact .error rfl
  · exact (firstPrimary_dataFault _).bind fun x => .ok _

theorem ofRecord_dataFault (record : Value) : DataFault (ofRecord record) := by
  refine (Value.getOr_dataFault record _ _).bind fun reason => ?_
  split
  · refine (fieldOr_dataFault _ _ _).bind fun message => ?_
    refine (fieldOr_dataFault _ _ _).bind fun spans => ?_
    refine (primarySpan_dataFault _).bind fun span => ?_
    refine (fieldOr_dataFault _ _ _).bind fun code => ?_
    refine (Value.getOr_dataFault _ _ _).bind fun level => ?_
    refine (Value.getOr_dataFault _ _ _).bind fun text => ?_
    simp only
    split
    · exact .ok _
    · exact .ok _
  · exact .ok _

theorem ofLine_dataFault (line : String) : DataFault (ofLine line) := by
  unfold ofLine
  simp only
  split_ifs
  · exact .ok _
  · refine (Json.whole?_dataFault _).bind fun record => ?_
    split
    · exact ofRecord_dataFault _
    · exact .ok _

end CargoMessage

namespace Diagnostic

theorem numberOf_dataFault (digits : List Char) : DataFault (numberOf digits) := by
  unfold numberOf
  split
  · exact .ok _
  · exact .error rfl

theorem read_dataFault (w : Written) : DataFault w.read :=
  (numberOf_dataFault _).bind fun _ => (numberOf_dataFault _).bind fun _ => .ok _

theorem ofCargoMessage_dataFault (m : CargoMessage) : DataFault (ofCargoMessage m) :=
  (Value.getOr_dataFault _ _ _).bind fun _ =>
    (Value.getOr_dataFault _ _ _).bind fun line => (Value.toInteger_dataFault line).bind fun _ =>
      (Value.getOr_dataFault _ _ _).bind fun column =>
        (Value.toInteger_dataFault column).bind fun _ => .ok _

theorem ofCargoMessages_dataFault {ms : List (Except Failure CargoMessage)}
    (hms : ∀ m ∈ ms, DataFault m) : DataFault (ofCargoMessages ms) := by
  induction ms with
  | nil => exact .ok _
  | cons m rest ih =>
    have hrest := ih fun m' hm' => hms m' (List.mem_cons_of_mem _ hm')
    cases m with
    | error f => exact .error (hms _ List.mem_cons_self f rfl)
    | ok m =>
      unfold ofCargoMessages
      split_ifs
      · exact (ofCargoMessage_dataFault m).bind fun d => hrest.bind fun ds => .ok _
      · exact hrest

theorem cargoMessages_dataFault (report : String) : ∀ m ∈ cargoMessages report, DataFault m := by
  intro m hm
  obtain ⟨line, -, hline⟩ := List.mem_filterMap.1 hm
  split at hline
  · cases hline
    exact .ok _
  · cases hline
  · next f hf =>
    cases hline
    exact .error (CargoMessage.ofLine_dataFault line f hf)

end Diagnostic

namespace Toolchain

variable {t : Toolchain} {out : Printed} {r : CompileReport}

/-- Where the complaints of a compiler cannot be read, it is the data that is at fault. -/
theorem diagnostics_dataFault (t : Toolchain) (out : Printed) : DataFault (t.diagnostics out) := by
  cases t
  case cFamily tools project cache => exact .mapM Diagnostic.read_dataFault _
  case java tools => exact .mapM Diagnostic.read_dataFault _
  case rust tools =>
    exact Diagnostic.ofCargoMessages_dataFault (Diagnostic.cargoMessages_dataFault out.stdout)

theorem report_dataFault (t : Toolchain) (out : Printed) : DataFault (t.report out) := by
  unfold report
  simp only
  split_ifs
  · exact .ok _
  · exact (t.diagnostics_dataFault out).bind fun _ => .ok _

/-- A report says how the compiler ended, and success is an end with status zero in time. -/
theorem report_eq_ok (hr : t.report out = .ok r) :
    r.exitCode = out.exitCode ∧ r.timedOut = out.timedOut ∧
      (r.success = true ↔ out.exitCode = 0 ∧ out.timedOut = false) := by
  unfold report at hr
  simp only at hr
  split_ifs at hr
  · cases hr
    simp
  · cases hd : t.diagnostics out with
    | error f =>
      rw [hd] at hr
      cases hr
    | ok errors =>
      rw [hd] at hr
      cases hr
      simp

end Toolchain

end FixGate
