import FixGate.Proofs.Analysis.Selection
import FixGate.Proofs.Compile.Reports
import FixGate.Proofs.Validation

/-!
# When a candidate passes

A verdict follows from what came of the compiler, and, where a finding is looked for, from what the chosen
analyzer saw after it. A candidate passes exactly if the compiler ended well and the finding is not seen
again, be it that no analyzer can look for it, that the one chosen fails, or that its report does not
contain the finding. Without a good end of the compiler, or without a finding, no analyzer is asked.

* `Outcome.Good`, `State.ending`, `State.started` : a program that ended well, and what starting one does
* `Validator.Cleared` : a finding is not seen again
* `Validator.outcome_judge`, `Validator.verdictAfter_passed_iff` : the verdict from the outcome of the
  compiler
* `Validator.whileInPlace_eq_ok_iff`, `Validator.exists_validate_eq` : where the verdict is given
* `Validator.validate_passed_iff` : when a candidate passes
-/

namespace FixGate

open Act

/-! ## Starting a program -/

/-- A program ended with status zero, and in time. -/
def Outcome.Good (o : Outcome) : Prop :=
  ∃ stdout stderr, o = .ended 0 stdout stderr

namespace State

/-- What comes of a program started in a state. -/
def ending (s : State) (h : Host) (r : Request) : Outcome :=
  (h.run s.runs.length r s.disk.tree).1

/-- The state after it. -/
def started (s : State) (h : Host) (r : Request) : State :=
  { s with
    runs := s.runs ++ [(r, s.disk.tree)]
    disk := { s.disk with tree := (h.run s.runs.length r s.disk.tree).2 } }

end State

variable {h : Host} {s u w : State} {file : Path} {t : Toolchain} {c : Invocation} {words : List String}

/-! ## Copies and restorations start no program -/

/-- The current directory and the programs started are the same. -/
def Unmoved (s t : State) : Prop :=
  t.disk.here = s.disk.here ∧ t.runs = s.runs

theorem Unmoved.refl (s : State) : Unmoved s s := ⟨rfl, rfl⟩

theorem Unmoved.trans (s t u : State) (st : Unmoved s t) (tu : Unmoved t u) : Unmoved s u :=
  ⟨tu.1.trans st.1, tu.2.trans st.2⟩

theorem Unmoved.of_idle {s t : State} (idle : Idle s t) : Unmoved s t :=
  ⟨congrArg Disk.here idle.1, idle.2⟩

theorem copyFile_unmoved (source target : Path) : Keeps h Unmoved (copyFile source target) :=
  copyFile_keeps .refl .trans (fun _ _ => ⟨rfl, rfl⟩) (fun _ _ => ⟨rfl, rfl⟩) source target

theorem writeText_unmoved (p : Path) (x : String) : Keeps h Unmoved (writeText p x) :=
  writeText_keeps .refl .trans (fun _ _ => ⟨rfl, rfl⟩) (fun _ _ => ⟨rfl, rfl⟩) p x

namespace Validator

variable {v : Validator} {candidate : String} {sought : Option Issue} {i : Issue} {r : CompileReport}
  {verdict : Validation} {o : Outcome}

theorem restore_unmoved (file : Path) : Keeps h Unmoved (restore file) :=
  restore_keeps .refl .trans (fun _ _ => ⟨rfl, rfl⟩) (fun _ _ => ⟨rfl, rfl⟩) file

/-- A text that was written is what the file holds, and no program was started. -/
theorem content_of_writeText {x : String} (hw : (writeText file x).outcome h s = (.ok (), w)) :
    w.disk.content file = .ok (Text.Utf8.encode x) ∧ Unmoved s w := by
  rcases writeText_cases (h := h) file x s with ⟨f, n, hf⟩ | ⟨l, n, b, r, hl, hok, hr⟩
  · rw [hw] at hf
    cases hf
  · rw [hw] at hok
    obtain ⟨hr', rfl⟩ := Prod.mk.inj hok
    obtain ⟨rfl, -⟩ := hr hr'.symm
    have dirs : s.disk.tree.SameDirs (s.disk.tree.put l (.file (Text.Utf8.encode x))) :=
      FileTree.sameDirs_put (Disk.ne_nil_of_locateNew hl) (Disk.get?_ne_dir_of_locateNew hl) _
    refine ⟨?_, ⟨rfl, rfl⟩⟩
    apply (Disk.content_eq_ok_iff_of_locateNew (Disk.locateNew_of_tree dirs hl)).2
    rw [FileTree.get?_put _ (Disk.ne_nil_of_locateNew hl), if_pos rfl]

/-! ## The report on a candidate -/

/-- What a compile check makes of what came of its command. -/
def checked (t : Toolchain) (c : Invocation) (o : Outcome) : Except Failure CompileReport :=
  match Printed.ofOutcome t.tools.timeout o with
  | .error (.os _ text) => .error (.toolchain (.notStarted ((c.args.head?.getD .null).display) text))
  | .error f => .error f
  | .ok out => t.report out

/-- A compile check starts its command, if its words are texts, and reads what came of it. -/
theorem outcome_check (hwords : textsFrom 0 c.args = .ok words) (s : State) :
    (check t c).outcome h s =
      (checked t c (s.ending h ⟨words, some c.dir, t.tools.timeout⟩),
        s.started h ⟨words, some c.dir, t.tools.timeout⟩) := by
  have hrun : (run c.args (some c.dir) t.tools.timeout).outcome h s =
      (Printed.ofOutcome t.tools.timeout (s.ending h ⟨words, some c.dir, t.tools.timeout⟩),
        s.started h ⟨words, some c.dir, t.tools.timeout⟩) := by
    unfold run
    rw [hwords, outcome_ofExcept_ok_bind, outcome_bind, outcome_start]
    simp only [outcome_ofExcept]
    rfl
  unfold check checked
  rw [outcome_bind]
  cases hp : Printed.ofOutcome t.tools.timeout (s.ending h ⟨words, some c.dir, t.tools.timeout⟩) with
  | error f =>
    rw [hp] at hrun
    rw [outcome_tryCatch_of_error hrun]
    cases f <;> rfl
  | ok out =>
    rw [hp] at hrun
    rw [outcome_tryCatch_of_ok hrun]
    simp only [outcome_ofExcept]

/-- A report is a success exactly if the compiler ended well. -/
theorem success_iff_of_checked (hr : checked t c o = .ok r) :
    (r.success = true ↔ o.Good) ∧ (o.Good → r.exitCode = 0 ∧ r.timedOut = false) := by
  unfold checked at hr
  split at hr
  · cases hr
  · cases hr
  · next out hout =>
    obtain ⟨hcode, htime, hsuccess⟩ := Toolchain.report_eq_ok hr
    rw [hsuccess, hcode, htime]
    cases o with
    | ended code stdout stderr =>
      cases hout
      simp [Outcome.Good]
    | stopped stdout stderr =>
      cases hout
      simp [Outcome.Good]
    | failed f => cases hout

/-- A compiler that could not be started did not end well. -/
theorem not_good_of_checked {f : ToolchainFault} (hf : checked t c o = .error (.toolchain f)) :
    ¬ o.Good := by
  rintro ⟨stdout, stderr, rfl⟩
  have hdata := t.report_dataFault ⟨0, stdout.getD "", stderr.getD "", false⟩ _ hf
  cases hdata

/-! ## Looking for the finding -/

/-- A finding is not seen again after the compiler: no analyzer can look for it, the one chosen fails, or
its report does not contain the finding. -/
inductive Cleared (v : Validator) (h : Host) (file : Path) (i : Issue) (s : State) : Prop
  | unseen {t : State} : v.registry.NoneCanRun h (familiesFor i none) s t → Cleared v h file i s
  | failed {a : Analyzer} {f : AnalyzerFault} {t u : State} :
      v.registry.Chosen h (familiesFor i none) a s t →
        (a.analyze file).outcome h t = (.error (.analyzer f), u) → Cleared v h file i s
  | absent {a : Analyzer} {fresh : List Issue} {t u : State} :
      v.registry.Chosen h (familiesFor i none) a s t →
        (a.analyze file).outcome h t = (.ok fresh, u) →
          stillFound fresh i v.settings.lineTolerance = none → Cleared v h file i s

/-- With an analyzer chosen, its report decides. -/
theorem cleared_iff_of_chosen {a : Analyzer} {t : State}
    (chosen : v.registry.Chosen h (familiesFor i none) a s t) :
    v.Cleared h file i s ↔
      (∃ f u, (a.analyze file).outcome h t = (.error (.analyzer f), u)) ∨
        ∃ fresh u, (a.analyze file).outcome h t = (.ok fresh, u) ∧
          stillFound fresh i v.settings.lineTolerance = none := by
  have same {x : Option Analyzer} {w : State}
      (hx : (v.registry.forIssue i none).outcome h s = (.ok x, w)) : x = some a ∧ w = t := by
    rw [Registry.forIssue_eq_some_iff.2 chosen] at hx
    cases hx
    exact ⟨rfl, rfl⟩
  constructor
  · intro cleared
    cases cleared with
    | unseen vain =>
      obtain ⟨hx, -⟩ := same (Registry.forIssue_eq_none_iff.2 vain)
      cases hx
    | failed chosen' hf =>
      obtain ⟨hx, rfl⟩ := same (Registry.forIssue_eq_some_iff.2 chosen')
      cases hx
      exact .inl ⟨_, _, hf⟩
    | absent chosen' hok hnone =>
      obtain ⟨hx, rfl⟩ := same (Registry.forIssue_eq_some_iff.2 chosen')
      cases hx
      exact .inr ⟨_, _, hok, hnone⟩
  · rintro (⟨f, u, hf⟩ | ⟨fresh, u, hok, hnone⟩)
    · exact .failed chosen hf
    · exact .absent chosen hok hnone

/-- The verdict on a candidate that compiles passes exactly if the finding is not seen again, and carries
the report. -/
theorem checkFinding_passed_iff
    (hv : (v.checkFinding file i r).outcome h s = (.ok verdict, u)) :
    (verdict.passed = true ↔ v.Cleared h file i s) ∧ verdict.compile = some r := by
  unfold checkFinding at hv
  obtain ⟨x, t, hx, hrest⟩ := outcome_bind_eq_ok_iff.1 hv
  cases x with
  | none =>
    cases hrest
    exact ⟨⟨fun _ => .unseen (Registry.forIssue_eq_none_iff.1 hx), fun _ => rfl⟩, rfl⟩
  | some a =>
    rw [cleared_iff_of_chosen (Registry.forIssue_eq_some_iff.1 hx)]
    simp only at hrest
    rcases ha : (a.analyze file).outcome h t with ⟨f | fresh, w⟩
    · rw [outcome_tryCatch_of_error (outcome_bind_of_error ha _)] at hrest
      cases f
      case analyzer f =>
        cases hrest
        simp [Validation.pass]
      all_goals cases hrest
    · cases hstill : stillFound fresh i v.settings.lineTolerance with
      | some j =>
        rw [outcome_tryCatch_of_ok (t := w) (by rw [outcome_bind_of_ok ha, hstill]; rfl)] at hrest
        cases hrest
        simp [Validation.reject, hstill]
      | none =>
        rw [outcome_tryCatch_of_ok (t := w) (by rw [outcome_bind_of_ok ha, hstill]; rfl)] at hrest
        cases hrest
        simp [Validation.pass, hstill]

/-! ## The verdict -/

/-- What is said of a candidate follows from what came of the compiler, which is started on the files as
they are. -/
theorem outcome_judge (v : Validator) (hwords : textsFrom 0 c.args = .ok words) (file : Path)
    (sought : Option Issue) (s : State) :
    (v.judge t c file sought).outcome h s =
      match checked t c (s.ending h ⟨words, some c.dir, t.tools.timeout⟩) with
      | .ok r =>
        (v.verdictAfter file sought (.ok r)).outcome h
          (s.started h ⟨words, some c.dir, t.tools.timeout⟩)
      | .error (.toolchain f) =>
        (v.verdictAfter file sought (.error f)).outcome h
          (s.started h ⟨words, some c.dir, t.tools.timeout⟩)
      | .error f => (.error f, s.started h ⟨words, some c.dir, t.tools.timeout⟩) := by
  unfold judge
  rw [outcome_bind]
  have hcheck := outcome_check (h := h) (t := t) hwords s
  cases hr : checked t c (s.ending h ⟨words, some c.dir, t.tools.timeout⟩) with
  | ok r =>
    rw [hr] at hcheck
    rw [outcome_tryCatch_of_ok (outcome_map_of_ok hcheck _)]
  | error f =>
    rw [hr] at hcheck
    rw [outcome_tryCatch_of_error (outcome_map_of_error hcheck _)]
    cases f <;> rfl

theorem exists_notText_of_textsFrom {n : Nat} {args : List Value} {f : Failure}
    (hf : textsFrom n args = .error f) : ∃ k kind, f = .shape (.notText k kind) := by
  induction args generalizing n with
  | nil => cases hf
  | cons x rest ih =>
    cases x
    case text word =>
      unfold textsFrom at hf
      cases hrest : textsFrom (n + 1) rest with
      | error g =>
        rw [hrest] at hf
        cases hf
        exact ih hrest
      | ok words =>
        rw [hrest] at hf
        cases hf
    all_goals
      cases hf
      exact ⟨_, _, rfl⟩

/-- A verdict is given only if the words of the command are texts. -/
theorem exists_words_of_judge (hv : (v.judge t c file sought).outcome h s = (.ok verdict, u)) :
    ∃ words, textsFrom 0 c.args = .ok words := by
  rcases run_cases (h := h) c.args (some c.dir) t.tools.timeout s with ⟨f, hf, hrun⟩ | ⟨words, hwords, -⟩
  · obtain ⟨k, kind, rfl⟩ := exists_notText_of_textsFrom hf
    have hcheck : (check t c).outcome h s = (.error (.shape (.notText k kind)), s) := by
      unfold check
      exact outcome_bind_of_error (outcome_tryCatch_of_error hrun _) _
    unfold judge at hv
    rw [outcome_bind_of_error (outcome_tryCatch_of_error (outcome_map_of_error hcheck _) _)] at hv
    cases hv
  · exact ⟨words, hwords⟩

/-- A verdict after the compiler passes exactly if the compiler ended well and the finding, if one is
given, is not seen again. A verdict that passes carries the report of a success. -/
theorem judge_passed_iff (hwords : textsFrom 0 c.args = .ok words)
    (hv : (v.judge t c file sought).outcome h s = (.ok verdict, u)) :
    (verdict.passed = true ↔ (s.ending h ⟨words, some c.dir, t.tools.timeout⟩).Good ∧
      ∀ i, sought = some i → v.Cleared h file i (s.started h ⟨words, some c.dir, t.tools.timeout⟩)) ∧
    (verdict.passed = true → ∃ r, verdict.compile = some r ∧ r.success = true ∧ r.exitCode = 0 ∧
      r.timedOut = false) := by
  rw [outcome_judge v hwords] at hv
  split at hv
  · next r hr =>
    obtain ⟨hsuccess, hgood⟩ := success_iff_of_checked hr
    unfold verdictAfter at hv
    cases hs : r.success with
    | false =>
      rw [hs] at hsuccess
      simp only [hs, Bool.not_false, if_true] at hv
      cases hv
      have hbad := mt hsuccess.2 (by decide)
      simp [rejectedByCompiler, Validation.reject, hbad]
    | true =>
      have good := hsuccess.1 hs
      simp only [hs, Bool.not_true, Bool.false_eq_true, if_false] at hv
      cases sought with
      | none =>
        cases hv
        exact ⟨⟨fun _ => ⟨good, by simp⟩, fun _ => rfl⟩, fun _ => ⟨r, rfl, hs, hgood good⟩⟩
      | some i =>
        obtain ⟨hpass, hcompile⟩ := checkFinding_passed_iff hv
        refine ⟨⟨fun hp => ⟨good, ?_⟩, fun hp => hpass.2 (hp.2 i rfl)⟩, fun _ =>
          ⟨r, hcompile, hs, hgood good⟩⟩
        rintro _ ⟨⟩
        exact hpass.1 hp
  · next f hf =>
    cases hv
    have hbad := not_good_of_checked hf
    simp [Validation.reject, hbad]
  · cases hv

/-- No analyzer is asked unless the compiler ended well and a finding is looked for: the verdict is the
same whatever analyzers there are. -/
theorem outcome_judge_of_unasked (hwords : textsFrom 0 c.args = .ok words)
    (unasked : ¬ (s.ending h ⟨words, some c.dir, t.tools.timeout⟩).Good ∨ sought = none)
    (registry : Registry) :
    ({ v with registry }.judge t c file sought).outcome h s = (v.judge t c file sought).outcome h s ∧
      ((v.judge t c file sought).outcome h s).2 =
        s.started h ⟨words, some c.dir, t.tools.timeout⟩ := by
  rw [outcome_judge _ hwords, outcome_judge v hwords]
  split
  · next r hr =>
    obtain ⟨hsuccess, -⟩ := success_iff_of_checked hr
    unfold verdictAfter
    cases hs : r.success with
    | false =>
      simp only [hs, Bool.not_false, if_true]
      exact ⟨rfl, rfl⟩
    | true =>
      rcases unasked with bad | rfl
      · exact absurd (hsuccess.1 hs) bad
      · simp only [hs, Bool.not_true, Bool.false_eq_true, if_false]
        exact ⟨trivial, rfl⟩
  · exact ⟨rfl, rfl⟩
  · exact ⟨rfl, rfl⟩

/-! ## Where the verdict is given -/

/-- An action with a candidate in the place of a file succeeds exactly if the copy is made, the candidate
is written, the action succeeds, and the file is restored. -/
theorem whileInPlace_eq_ok_iff {α : Type} {a : Act α} {x : α} :
    (whileInPlace file candidate a).outcome h s = (.ok x, u) ↔
      ∃ copied w ended, (copyFile file (copyOf file)).outcome h s = (.ok (), copied) ∧
        (writeText file candidate).outcome h copied = (.ok (), w) ∧
        a.outcome h w = (.ok x, ended) ∧ (restore file).outcome h ended = (.ok (), u) := by
  unfold whileInPlace
  constructor
  · intro hx
    obtain ⟨⟨⟩, copied, hcopy, hx⟩ := outcome_bind_eq_ok_iff.1 hx
    rw [outcome_ensure] at hx
    rcases hplaced : (do writeText file candidate; a : Act α).outcome h copied with ⟨r, ended⟩
    rw [hplaced] at hx
    rcases hrestore : (restore file).outcome h ended with ⟨f | _, u'⟩
    all_goals
      rw [hrestore] at hx
      cases hx
    obtain ⟨⟨⟩, w, hwrite, ha⟩ := outcome_bind_eq_ok_iff.1 hplaced
    exact ⟨copied, w, ended, hcopy, hwrite, ha, hrestore⟩
  · rintro ⟨copied, w, ended, hcopy, hwrite, ha, hrestore⟩
    rw [outcome_bind_of_ok hcopy, outcome_ensure, outcome_bind_of_ok hwrite, ha]
    simp only [hrestore]

/-- With a toolchain that finds a command for a file that exists, the verdict is given in the place of the
file, whatever the analyzers are. -/
theorem exists_validate_eq (hreach : s.disk.reaches file = .ok true) (checks : v.Checks h s file t c) :
    ∃ s', Idle s s' ∧ ∀ registry candidate sought,
      ({ v with registry }.validate file candidate sought).outcome h s =
        (whileInPlace file candidate ({ v with registry }.judge t c file sought)).outcome h s' := by
  obtain ⟨s₁, s₂, htool, hresolve⟩ := checks
  have htool' := toolchainFor_prepared (h := h) v file s
  have hresolve' := resolve_prepared (h := h) (mem_of_toolchainFor htool)
  rw [htool] at htool'
  rw [hresolve] at hresolve'
  refine ⟨s₂, (htool'.trans hresolve').idle, fun registry candidate sought => ?_⟩
  have htool'' : (toolchainFor { v with registry } file).outcome h s = (.ok (some t), s₁) := htool
  unfold validate
  rw [outcome_disk_bind, hreach, outcome_ofExcept_ok_bind]
  simp only [Bool.not_true, Bool.false_eq_true, if_false]
  rw [outcome_bind_of_ok htool'']
  simp only
  rw [outcome_bind_of_ok (outcome_tryCatch_of_ok (outcome_map_of_ok hresolve _) _)]

/-- **When a candidate passes.** Whenever a validation of a file with a toolchain that finds a command gives
a verdict, the command was started with the bytes of the candidate in the file, and the candidate passed
exactly if the command ended with status zero in time and, where a finding was given, no analyzer could look
for it, the one chosen failed, or its findings for the file with the candidate in it do not contain it. A
verdict that passes carries the report of a success; no analyzer is asked, and the verdict depends on none,
unless the compiler ended well and a finding was given; and a compiler that could not be started, that ended
otherwise or that was stopped lets nothing pass. -/
theorem validate_passed_iff (v : Validator) (h : Host) (s u : State) (file : Path) (candidate : String)
    (sought : Option Issue) (t : Toolchain) (c : Invocation) (verdict : Validation)
    (hreach : s.disk.reaches file = .ok true) (checks : v.Checks h s file t c)
    (returns : (v.validate file candidate sought).outcome h s = (.ok verdict, u)) :
    ∃ (w : State) (q : Request), w.disk.content file = .ok (Text.Utf8.encode candidate) ∧ Unmoved s w ∧
      Starts t c w.disk.tree (q, w.disk.tree) ∧
      (verdict.passed = true ↔ (w.ending h q).Good ∧
        ∀ i, sought = some i → v.Cleared h file i (w.started h q)) ∧
      ((∀ n r t, (h.run n r t).2 = t) → (∀ a ∈ v.registry, a.Outsourced) →
        ∀ families a t', v.registry.Chosen h families a (w.started h q) t' →
          t'.disk.content file = .ok (Text.Utf8.encode candidate)) ∧
      (verdict.passed = true → ∃ r, verdict.compile = some r ∧ r.success = true ∧ r.exitCode = 0 ∧
        r.timedOut = false) ∧
      (¬ (w.ending h q).Good ∨ sought = none →
        u.runs = s.runs ++ [(q, w.disk.tree)] ∧
        ∀ registry, ({ v with registry }.validate file candidate sought).outcome h s =
          (.ok verdict, u)) ∧
      (∀ f, w.ending h q = .failed f → verdict.passed = false) ∧
      (∀ code stdout stderr, w.ending h q = .ended code stdout stderr → code ≠ 0 →
        verdict.passed = false) ∧
      ∀ stdout stderr, w.ending h q = .stopped stdout stderr → verdict.passed = false := by
  obtain ⟨s', idle, hplaced⟩ := exists_validate_eq hreach checks
  have hin : (whileInPlace file candidate (v.judge t c file sought)).outcome h s' = (.ok verdict, u) :=
    (hplaced v.registry candidate sought).symm.trans returns
  obtain ⟨copied, w, ended, hcopy, hwrite, hjudge, hrestore⟩ := whileInPlace_eq_ok_iff.1 hin
  obtain ⟨words, hwords⟩ := exists_words_of_judge hjudge
  obtain ⟨hcontent, written⟩ := content_of_writeText hwrite
  obtain ⟨hiff, hcarries⟩ := judge_passed_iff hwords hjudge
  have unmoved : Unmoved s w := by
    have copying := copyFile_unmoved (h := h) file (copyOf file) s'
    rw [hcopy] at copying
    exact ((Unmoved.of_idle idle).trans _ _ _ copying).trans _ _ _ written
  have hbad : ¬ (w.ending h ⟨words, some c.dir, t.tools.timeout⟩).Good → verdict.passed = false := by
    intro bad
    rw [← Bool.not_eq_true]
    exact fun hp => bad (hiff.1 hp).1
  refine ⟨w, ⟨words, some c.dir, t.tools.timeout⟩, hcontent, unmoved, ⟨hwords, rfl, rfl, rfl⟩, hiff, ?_,
    hcarries, ?_, ?_, ?_, ?_⟩
  · intro alone hv families a t' chosen
    have hstarted : (w.started h ⟨words, some c.dir, t.tools.timeout⟩).disk = w.disk := by
      unfold State.started
      rw [alone]
    rw [chosen.disk alone hv, hstarted]
    exact hcontent
  · intro unasked
    have hended : w.started h ⟨words, some c.dir, t.tools.timeout⟩ = ended :=
      (outcome_judge_of_unasked hwords unasked v.registry).2.symm.trans (congrArg Prod.snd hjudge)
    refine ⟨?_, fun registry => ?_⟩
    · have restoring := restore_unmoved (h := h) file ended
      rw [hrestore] at restoring
      rw [restoring.2, ← hended, ← unmoved.2]
      rfl
    · rw [hplaced registry]
      apply whileInPlace_eq_ok_iff.2
      refine ⟨copied, w, ended, hcopy, hwrite, ?_, hrestore⟩
      exact (outcome_judge_of_unasked hwords unasked registry).1.trans hjudge
  · intro f hf
    apply hbad
    rw [hf]
    rintro ⟨stdout, stderr, hgood⟩
    cases hgood
  · intro code stdout stderr hcode hne
    apply hbad
    rw [hcode]
    rintro ⟨stdout', stderr', hgood⟩
    cases hgood
    exact hne rfl
  · intro stdout stderr hstopped
    apply hbad
    rw [hstopped]
    rintro ⟨stdout', stderr', hgood⟩
    cases hgood

end Validator

/-! ## A block that must go -/

/-- A validator with the rules on single lines as its only analyzer. -/
def ruledValidator : Validator := ⟨none, {}, [Analyzer.pattern]⟩

/-- The source of a package. -/
def packageSource : Path := ⟨.here, ["a.rs"]⟩

/-- The finding of an unsafe block in it. -/
def unsafeFinding : Issue :=
  { (default : Issue) with
    title := .text "T", category := .unsafeCode, place := ⟨packageSource, 1, 0, ""⟩
    analyzer := "pattern", fingerprint := "f" }

/-- A verdict on a candidate is given that passes, or one that does not. -/
theorem exists_verdict {candidate : String} {passes : Bool}
    (hpass : ((ruledValidator.validate packageSource candidate (some unsafeFinding)).outcome Host.quiet
      packageState).1.toOption.map Validation.passed = some passes) :
    ∃ verdict u, (ruledValidator.validate packageSource candidate (some unsafeFinding)).outcome Host.quiet
      packageState = (.ok verdict, u) ∧ verdict.passed = passes := by
  rcases hr : (ruledValidator.validate packageSource candidate (some unsafeFinding)).outcome Host.quiet
    packageState with ⟨f | verdict, u⟩
  all_goals rw [hr] at hpass
  · cases hpass
  · exact ⟨verdict, u, rfl, Option.some.inj hpass⟩

theorem exists_verdict_clean :
    ∃ verdict u, (ruledValidator.validate packageSource "fn main() \x7b\x7d" (some unsafeFinding)).outcome
      Host.quiet packageState = (.ok verdict, u) ∧ verdict.passed = true :=
  exists_verdict (by decide +kernel)

theorem exists_verdict_unsafe :
    ∃ verdict u, (ruledValidator.validate packageSource "unsafe \x7b\x7d" (some unsafeFinding)).outcome
      Host.quiet packageState = (.ok verdict, u) ∧ verdict.passed = false :=
  exists_verdict (by decide +kernel)

/-- The source can be checked, since a verdict on it passed. -/
theorem exists_checks_package : ∃ t c, ruledValidator.Checks Host.quiet packageState packageSource t c := by
  obtain ⟨verdict, u, hr, hpass⟩ := exists_verdict_clean
  rcases Validator.validate_cases ruledValidator Host.quiet packageState packageSource
    "fn main() \x7b\x7d" (some unsafeFinding) with ⟨-, hno⟩ | ⟨t, c, -, checks, -⟩
  · rw [hr] at hno
    cases hpass.symm.trans (hno verdict rfl)
  · exact ⟨t, c, checks⟩

/-- A source without an unsafe block is cleared of it, and one that still has the block is not, although
both compile. -/
theorem validate_passed_iff_unsafe_block :
    (∃ (w : State) (q : Request),
      w.disk.content packageSource = .ok (Text.Utf8.encode "fn main() \x7b\x7d") ∧
        ruledValidator.Cleared Host.quiet packageSource unsafeFinding (w.started Host.quiet q)) ∧
    ∃ (w : State) (q : Request),
      w.disk.content packageSource = .ok (Text.Utf8.encode "unsafe \x7b\x7d") ∧
        ¬ ruledValidator.Cleared Host.quiet packageSource unsafeFinding (w.started Host.quiet q) := by
  have hreach : packageState.disk.reaches packageSource = .ok true := by rfl
  obtain ⟨t, c, checks⟩ := exists_checks_package
  constructor
  · obtain ⟨verdict, u, hr, hpass⟩ := exists_verdict_clean
    obtain ⟨w, q, hplaced, -, -, hiff, -⟩ := Validator.validate_passed_iff ruledValidator Host.quiet
      packageState u packageSource "fn main() \x7b\x7d" (some unsafeFinding) t c verdict hreach checks hr
    exact ⟨w, q, hplaced, (hiff.1 hpass).2 _ rfl⟩
  · obtain ⟨verdict, u, hr, hpass⟩ := exists_verdict_unsafe
    obtain ⟨w, q, hplaced, -, -, hiff, -⟩ := Validator.validate_passed_iff ruledValidator Host.quiet
      packageState u packageSource "unsafe \x7b\x7d" (some unsafeFinding) t c verdict hreach checks hr
    refine ⟨w, q, hplaced, fun cleared => ?_⟩
    have good : (w.ending Host.quiet q).Good := ⟨none, none, rfl⟩
    have hpass' := hiff.2 ⟨good, by rintro _ ⟨⟩; exact cleared⟩
    cases hpass.symm.trans hpass'

end FixGate
