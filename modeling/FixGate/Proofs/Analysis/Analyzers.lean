import FixGate.Analysis.Registry
import FixGate.Proofs.Act.Programs

/-!
# Analyzers only inquire

What an analyzer does, it does by reading files, running programs and asking for their versions. A relation
between states that these keep is kept by every analyzer of the project, by a scan, and by the choice of an
analyzer. One such relation is that files are changed by programs only.

* `Analyzer.Keeps`, `Analyzer.Inquiring` : an analyzer keeps a relation, and every one that inquiries keep
* `Registry.standard_inquiring` : the analyzers of the project are of this kind
* `Registry.scan_keeps`, `Registry.forIssue_keeps` : what analyzers keep, a scan keeps, and the choice of one that
  checks a finding
* `Analyzer.Outsourced` : an analyzer that changes files by starting programs only
-/

namespace FixGate

open Act

/-- Neither asking whether an analyzer can run nor its work leads out of a relation between states. -/
structure Analyzer.Keeps (a : Analyzer) (h : Host) (R : State → State → Prop) : Prop where
  available : Act.Keeps h R a.available
  analyze : ∀ file, Act.Keeps h R (a.analyze file)

/-- An analyzer keeps what inquiries keep. -/
def Analyzer.Inquiring (a : Analyzer) : Prop :=
  ∀ h R, Inquiry h R → a.Keeps h R

/-- An analyzer changes files by starting programs only. -/
structure Analyzer.Outsourced (a : Analyzer) : Prop where
  available : a.available.Outsourced
  analyze : ∀ file, (a.analyze file).Outsourced

variable {h : Host} {R : State → State → Prop}

namespace Analyzer

theorem Outsourced.keeps {a : Analyzer} {R : FileTree → FileTree → Prop} (ha : a.Outsourced) (hR : h.Confined R) :
    a.Keeps h (ByPrograms R) :=
  ⟨ha.available h R hR, fun file => ha.analyze file h R hR⟩

theorem Inquiring.outsourced {a : Analyzer} (ha : a.Inquiring) : a.Outsourced :=
  ⟨fun h _ hR => (ha h _ (.byPrograms hR)).available, fun file h _ hR => (ha h _ (.byPrograms hR)).analyze file⟩

theorem patternWith_inquiring (rules : List PatternRule) : (patternWith rules).Inquiring := by
  intro h R q
  refine ⟨.pure q.refl _, fun file => ?_⟩
  refine Keeps.bind q.trans (.tryCatch q.trans (q.readBytes file) fun f => ?_) fun bytes => ?_
  · split
    · exact .throw q.refl _
    · exact .throw q.refl _
  · exact (Keeps.forM q.refl q.trans fun i => .ofExcept q.refl _).bind q.trans fun _ => .pure q.refl _

/-- A program that an analyzer runs for its report. -/
theorem keeps_of_reported (q : Inquiry h R) {α : Type} {program : String} {words : List Value} {dir : Option Path}
    {limit : Float} {read : Printed → Act α} (hread : ∀ out, Act.Keeps h R (read out)) :
    Act.Keeps h R (do
      let out ←
        try Act.run words dir limit
        catch
          | .os _ text => throw (.analyzer (.notStarted program text))
          | f => throw f
      if out.timedOut then throw (.analyzer (.timedOut program (Decimal.exactText limit)))
      else read out) := by
  refine Keeps.bind q.trans (.tryCatch q.trans (q.run _ _ _) fun f => ?_) fun out => ?_
  · split
    · exact .throw q.refl _
    · exact .throw q.refl _
  · split
    · exact .throw q.refl _
    · exact hread out

theorem semgrep_inquiring (tools : Tools) (slot : Nat) : (semgrep tools slot).Inquiring := by
  intro h R q
  refine ⟨(q.keptVersion _ _).bind q.trans fun _ => .pure q.refl _, fun file => ?_⟩
  refine Keeps.bind q.trans (.disk q.refl) fun d => Keeps.bind q.trans (.ofExcept q.refl _) fun b => ?_
  split
  · exact .throw q.refl _
  · refine (q.keptVersion _ _).bind q.trans fun v => ?_
    split
    · exact .throw q.refl _
    · exact keeps_of_reported q fun out => .ofExcept q.refl _

theorem clippy_inquiring (tools : Tools) (slot : Nat) : (clippy tools slot).Inquiring := by
  intro h R q
  refine ⟨(q.keptVersion _ _).bind q.trans fun _ => .pure q.refl _, fun file => ?_⟩
  refine (q.keptVersion _ _).bind q.trans fun v => ?_
  split
  · exact .throw q.refl _
  · refine Keeps.bind q.trans (.disk q.refl) fun d => Keeps.bind q.trans (.ofExcept q.refl _) fun package => ?_
    split
    · exact .throw q.refl _
    · exact keeps_of_reported q fun out => Keeps.bind q.trans (.disk q.refl) fun d => .ofExcept q.refl _

end Analyzer

namespace Registry

/-- The analyzers of the project only inquire. -/
theorem standard_inquiring (tools : Tools) : ∀ a ∈ Registry.standard tools, a.Inquiring := by
  intro a ha
  simp only [standard, List.mem_cons, List.not_mem_nil, or_false] at ha
  rcases ha with rfl | rfl | rfl
  · exact Analyzer.patternWith_inquiring _
  · exact Analyzer.semgrep_inquiring tools 1
  · exact Analyzer.clippy_inquiring tools 2

/-- The analyzers of the project change files by starting programs only. -/
theorem standard_outsourced (tools : Tools) : ∀ a ∈ Registry.standard tools, a.Outsourced :=
  fun a ha => (standard_inquiring tools a ha).outsourced

variable {r : Registry}

/-! ## What analyzers keep -/

section Keeps

variable (refl : ∀ s, R s s) (trans : ∀ s t u, R s t → R t u → R s u)
include refl trans

theorem findings_keeps {a : Analyzer} (ha : a.Keeps h R) (file : Path) : Keeps h R (a.findings file) := by
  unfold Analyzer.findings
  split
  · exact .pure refl _
  · refine ha.available.bind trans fun ready => ?_
    split
    · exact .pure refl _
    · refine .tryCatch trans (ha.analyze file) fun f => ?_
      split
      · exact .pure refl _
      · exact .throw refl _

theorem findingsIn_keeps (hr : ∀ a ∈ r, a.Keeps h R) (file : Path) : Keeps h R (findingsIn file r) := by
  induction r with
  | nil => exact .pure refl _
  | cons a rest ih =>
    refine (findings_keeps refl trans (hr a List.mem_cons_self) file).bind trans fun is => ?_
    exact (ih fun b hb => hr b (List.mem_cons_of_mem _ hb)).bind trans fun js => .pure refl _

theorem firstAvailable_keeps (hr : ∀ a ∈ r, a.Keeps h R) (families : List String) :
    Keeps h R (r.firstAvailable families) := by
  induction families with
  | nil => exact .pure refl _
  | cons family rest ih =>
    unfold firstAvailable
    split
    · exact ih
    · next a ha =>
      refine (hr a (List.mem_of_find?_eq_some ha)).available.bind trans fun b => ?_
      split
      · exact .pure refl _
      · exact ih

theorem forIssue_keeps (hr : ∀ a ∈ r, a.Keeps h R) (i : Issue) (language : Option Language) :
    Keeps h R (r.forIssue i language) :=
  firstAvailable_keeps refl trans hr _

theorem scan_keeps (hr : ∀ a ∈ r, a.Keeps h R) (path : Path) (exclude : Value) :
    Keeps h R (r.scan path exclude) := by
  refine Keeps.bind trans (.disk refl) fun d => Keeps.bind trans (.ofExcept refl _) fun files => ?_
  refine Keeps.bind trans ?_ fun is => .pure refl _
  induction files with
  | nil => exact .pure refl _
  | cons file rest ih =>
    exact (findingsIn_keeps refl trans hr file).bind trans fun is => ih.bind trans fun js => .pure refl _

end Keeps

theorem firstAvailable_outsourced (hr : ∀ a ∈ r, a.Outsourced) (families : List String) :
    (r.firstAvailable families).Outsourced :=
  fun _ _ hR => firstAvailable_keeps (.refl hR) (fun _ _ _ st tu => st.trans hR tu)
    (fun a ha => (hr a ha).keeps hR) families

/-- A scan changes files by starting programs only. -/
theorem scan_outsourced (hr : ∀ a ∈ r, a.Outsourced) (path : Path) (exclude : Value) :
    (r.scan path exclude).Outsourced :=
  fun _ _ hR => scan_keeps (.refl hR) (fun _ _ _ st tu => st.trans hR tu) (fun a ha => (hr a ha).keeps hR) path
    exclude

/-- The analyzer that is chosen is one of the project's. -/
theorem mem_of_firstAvailable {h : Host} {s t : State} {families : List String} {a : Analyzer}
    (ha : (r.firstAvailable families).outcome h s = (.ok (some a), t)) : a ∈ r := by
  induction families generalizing s with
  | nil => cases ha
  | cons family rest ih =>
    unfold firstAvailable at ha
    split at ha
    · exact ih ha
    · next b hb =>
      obtain ⟨ready, u, -, hu⟩ := outcome_bind_eq_ok_iff.1 ha
      split at hu
      · cases hu
        exact List.mem_of_find?_eq_some hb
      · exact ih hu

/-- Where there are no analyzers, none is available. -/
theorem outcome_firstAvailable_nil {h : Host} {s : State} (families : List String) :
    (firstAvailable [] families).outcome h s = (.ok none, s) := by
  induction families with
  | nil => rfl
  | cons family rest ih => exact ih

end Registry

end FixGate
