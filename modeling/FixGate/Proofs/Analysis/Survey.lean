import FixGate.Proofs.Analysis.Pattern
import FixGate.Proofs.Analysis.Scan
import FixGate.Proofs.Analysis.Semgrep

/-!
# What a scan of a project reports

The analyzers of the project read a file, run semgrep on it, and run clippy on its package. Where these programs
run, a scan ends for one of a few reasons, most of which are reports that cannot be read. If it does not, then no
finding of the built-in rules and no well-formed result of semgrep is lost, except to an earlier finding with its
fingerprint.

* `Host.Working` : surroundings whose programs end, leave the files alone and tell their versions
* `Act.Ran` : a program was started and printed a report
* `Surveyed` : the states before and after the work of analyzers in such surroundings
* `Clippy.Unreadable`, `Fault` : why a report of clippy is not read, and why a scan ends at a file
* `Registry.scan_standard` : what a scan reports, or why it ends
-/

namespace FixGate

open Act

variable {h : Host} {s t u : State} {tools : Tools} {file package path : Path} {exclude : Value} {f : Failure}
  {report : String} {slot : Nat}

/-! ## Reports of clippy -/

namespace Clippy

variable {d : Disk} {base target : Path}

/-- Why a report is not read for a file of a package: a place cannot be resolved, a line holds no message although
it should, or the span or the parts of a message are of the wrong kind. -/
inductive Unreadable (d : Disk) (file package : Path) (report : String) : Failure → Prop
  | place {f : Failure} : d.resolveChecked file = .error f → Unreadable d file package report f
  | workspace {f : Failure} : workspaceRoot d package = .error f → Unreadable d file package report f
  | line {f : Failure} : .error f ∈ cargoMessages report → Unreadable d file package report f
  | span {base target : Path} {m : CargoMessage} {f : Failure} : .ok m ∈ cargoMessages report →
      isAbout d base target m.span = .error f → Unreadable d file package report f
  | message {m : CargoMessage} {f : Failure} : .ok m ∈ cargoMessages report → finding file m = .error f →
      Unreadable d file package report f

theorem unreadable_of_findingsOf {ms : List (Except Failure CargoMessage)} (hms : ∀ m ∈ ms, m ∈ cargoMessages report)
    (hf : findingsOf d base target file ms = .error f) : Unreadable d file package report f := by
  induction ms with
  | nil => cases hf
  | cons m rest ih =>
    have later := ih fun m' hm' => hms m' (List.mem_cons_of_mem _ hm')
    cases m with
    | error g =>
      cases hf
      exact .line (hms _ List.mem_cons_self)
    | ok m =>
      unfold findingsOf at hf
      rcases cases_of_bind hf with habout | ⟨about, -, hf⟩
      · exact .span (hms _ List.mem_cons_self) habout
      split at hf
      · rcases cases_of_bind hf with hfinding | ⟨i, -, hf⟩
        · exact .message (hms _ List.mem_cons_self) hfinding
        rcases cases_of_bind hf with hrest | ⟨is, -, hpure⟩
        · exact later hrest
        · cases hpure
      · exact later hf

theorem unreadable_of_findings (hf : findings d report file package = .error f) :
    Unreadable d file package report f := by
  rcases cases_of_bind hf with hplace | ⟨target, -, hf⟩
  · exact .place hplace
  rcases cases_of_bind hf with hroot | ⟨base, -, hf⟩
  · exact .workspace hroot
  · exact unreadable_of_findingsOf (fun _ hm => hm) hf

end Clippy

/-! ## Programs that run -/

/-- Programs end and leave the files alone, and those that are asked for their version tell it. -/
structure Host.Working (h : Host) : Prop where
  ends : ∀ n r t, ∃ code out err, h.run n r t = (.ended code out err, t)
  tells : ∀ n r t, r.args.getLast? = some "--version" → ∃ out err, (h.run n r t).1 = .ended 0 out err

/-- The programs of the analyzers are given by texts. -/
structure Tools.Named (tools : Tools) : Prop where
  semgrep : ∃ p, tools.semgrepPath = .text p
  rules : ∃ p, tools.semgrepConfig = .text p
  cargo : ∃ p, tools.cargoPath = .text p

/-- No program is known not to run. -/
def Promising (s : State) : Prop :=
  ∀ slot, s.versions.lookup slot ≠ some none

/-- A program was started with words and printed a report. -/
def Act.Ran (h : Host) (runs : List (Request × FileTree)) (words : List Value) (dir : Option Path) (timeout : Float)
    (report : String) : Prop :=
  ∃ args n tree code out err, textsFrom 0 words = .ok args ∧ runs[n]? = some (⟨args, dir, timeout⟩, tree) ∧
    (h.run n ⟨args, dir, timeout⟩ tree).1 = .ended code out err ∧ out.getD "" = report

/-- The files are as they were, programs were started, and none of them turned out not to run. -/
structure Surveyed (s t : State) : Prop where
  disk : t.disk = s.disk
  runs : s.runs <+: t.runs
  promising : Promising s → Promising t

theorem Surveyed.refl (s : State) : Surveyed s s :=
  ⟨rfl, List.prefix_refl _, id⟩

theorem Surveyed.trans (s t u : State) (st : Surveyed s t) (tu : Surveyed t u) : Surveyed s u :=
  ⟨tu.disk.trans st.disk, st.runs.trans tu.runs, fun hs => tu.promising (st.promising hs)⟩

theorem Act.Ran.mono {runs more : List (Request × FileTree)} {words : List Value} {dir : Option Path}
    {timeout : Float} (ran : Ran h runs words dir timeout report) (hmore : runs <+: more) :
    Ran h more words dir timeout report := by
  obtain ⟨args, n, tree, code, out, err, hargs, hn, hrun, hout⟩ := ran
  obtain ⟨rest, rfl⟩ := hmore
  refine ⟨args, n, tree, code, out, err, hargs, ?_, hrun, hout⟩
  rw [List.getElem?_append_left (List.getElem?_eq_some_iff.1 hn).1, hn]

/-- A program whose words are texts is run to its end. -/
theorem outcome_run_of_working (working : h.Working) (words : List Value) {args : List String}
    (hwords : textsFrom 0 words = .ok args) (dir : Option Path) (timeout : Float) (s : State) :
    ∃ out u, (run words dir timeout).outcome h s = (.ok out, u) ∧ out.timedOut = false ∧ Surveyed s u ∧
      Ran h u.runs words dir timeout out.stdout ∧
      (args.getLast? = some "--version" → out.exitCode = 0) := by
  obtain ⟨code, out, err, hrun⟩ := working.ends s.runs.length ⟨args, dir, timeout⟩ s.disk.tree
  have hout : (run words dir timeout).outcome h s = (.ok ⟨code, out.getD "", err.getD "", false⟩,
      { s with runs := s.runs ++ [(⟨args, dir, timeout⟩, s.disk.tree)] }) := by
    unfold run
    rw [hwords, outcome_ofExcept_ok_bind, outcome_bind, outcome_start, hrun]
    rfl
  refine ⟨_, _, hout, rfl, ⟨rfl, List.prefix_append _ _, id⟩, ?_, fun hlast => ?_⟩
  · exact ⟨args, s.runs.length, s.disk.tree, code, out, err, hwords, by simp, by rw [hrun], rfl⟩
  · obtain ⟨out', err', htold⟩ := working.tells s.runs.length ⟨args, dir, timeout⟩ s.disk.tree hlast
    rw [hrun] at htold
    cases htold
    rfl

/-! ## Versions -/

theorem textsFrom_eq_ok_append {n : Nat} {words rest : List Value} {args : List String}
    (hargs : textsFrom n (words ++ rest) = .ok args) :
    ∃ before after, args = before ++ after ∧ textsFrom (n + words.length) rest = .ok after := by
  induction words generalizing n args with
  | nil => exact ⟨[], args, rfl, hargs⟩
  | cons w words ih =>
    cases w
    case text x =>
      rcases hmore : textsFrom (n + 1) (words ++ rest) with f | more
      · simp only [List.cons_append, textsFrom, hmore] at hargs
        cases hargs
      · simp only [List.cons_append, textsFrom, hmore] at hargs
        cases hargs
        obtain ⟨before, after, rfl, hafter⟩ := ih hmore
        refine ⟨x :: before, after, rfl, ?_⟩
        rwa [List.length_cons, Nat.add_comm words.length, ← Nat.add_assoc]
    all_goals cases hargs

theorem ne_os_of_textsFrom {n : Nat} {words : List Value} (hf : textsFrom n words = .error f) (fault : OsFault)
    (text : String) : f ≠ .os fault text := by
  induction words generalizing n with
  | nil => cases hf
  | cons w words ih =>
    cases w
    case text x =>
      rcases cases_of_bind hf with hrest | ⟨_, -, hpure⟩
      · exact ih hrest
      · cases hpure
    all_goals
      cases hf
      nofun

/-- A program whose words are no texts has no version, and every other one tells it. -/
theorem version_cases (working : h.Working) (program : List Value) (s : State) :
    (∃ f u, textsFrom 0 (program ++ [.text "--version"]) = .error f ∧
        (version program).outcome h s = (.error f, u)) ∨
      ∃ args v u, textsFrom 0 (program ++ [.text "--version"]) = .ok args ∧
        (version program).outcome h s = (.ok (some v), u) := by
  unfold version
  rcases hwords : textsFrom 0 (program ++ [.text "--version"]) with f | args
  · rcases run_cases (h := h) (program ++ [.text "--version"]) none versionTimeout s with
      ⟨f', hf', hrun⟩ | ⟨args, hargs, -⟩
    · rw [hwords] at hf'
      cases hf'
      refine .inl ⟨f, s, hwords, ?_⟩
      rw [outcome_tryCatch_of_error (outcome_bind_of_error hrun _)]
      cases f
      case os fault text => exact absurd rfl (ne_os_of_textsFrom hwords fault text)
      all_goals rfl
    · rw [hwords] at hargs
      cases hargs
  · obtain ⟨out, u, hrun, -, -, -, hcode⟩ := outcome_run_of_working working _ hwords none versionTimeout s
    obtain ⟨before, after, rfl, hafter⟩ := textsFrom_eq_ok_append hwords
    cases hafter
    refine .inr ⟨_, (Text.firstLine? (Text.strip out.stdout)).getD "", u, hwords, outcome_tryCatch_of_ok ?_ _⟩
    rw [outcome_bind_of_ok hrun, hcode (by simp)]
    rfl

/-- Where programs run, the work of analyzers changes no file, and no program turns out not to run. -/
theorem Surveyed.inquiry (working : h.Working) : Inquiry h Surveyed := by
  have started (r : Request) : Keeps h Surveyed (start r) := by
    intro s
    obtain ⟨code, out, err, hrun⟩ := working.ends s.runs.length r s.disk.tree
    rw [outcome_start, hrun]
    exact ⟨rfl, List.prefix_append _ _, id⟩
  refine ⟨.refl, .trans, run_keeps .refl .trans started, fun slot program s => ?_, fun p s => ?_⟩
  · unfold keptVersion
    rw [outcome_get_bind]
    split
    · exact .refl s
    · have asked := version_keeps Surveyed.refl Surveyed.trans started program s
      rcases version_cases working program s with ⟨f, u, -, hf⟩ | ⟨_, v, u, -, hv⟩
      · rw [hf] at asked
        rw [outcome_bind_of_error hf]
        exact asked
      · rw [hv] at asked
        rw [outcome_bind_of_ok hv]
        refine .trans _ _ _ asked ⟨rfl, List.prefix_refl _, fun promising slot' => ?_⟩
        change List.lookup slot' ((slot, some v) :: u.versions) ≠ some none
        rw [List.lookup_cons]
        split
        · nofun
        · exact promising slot'
  · rw [outcome_readBytes]
    exact ⟨rfl, List.prefix_refl _, id⟩

/-- A program whose words are texts has a version. -/
theorem exists_keptVersion (working : h.Working) (promising : Promising s) (program : List Value) {args : List String}
    (hargs : textsFrom 0 (program ++ [.text "--version"]) = .ok args) (slot : Nat) :
    ∃ v u, (keptVersion slot program).outcome h s = (.ok (some v), u) ∧ Surveyed s u := by
  have asked := (Surveyed.inquiry working).keptVersion slot program s
  unfold keptVersion at asked ⊢
  rw [outcome_get_bind] at asked ⊢
  rcases hslot : s.versions.lookup slot with _ | _ | v
  · rw [hslot] at asked
    rcases version_cases working program s with ⟨f, u, hf, -⟩ | ⟨_, v, u, -, hv⟩
    · rw [hargs] at hf
      cases hf
    · simp only at asked ⊢
      rw [outcome_bind_of_ok hv] at asked ⊢
      exact ⟨v, _, rfl, asked⟩
  · exact absurd hslot (promising slot)
  · exact ⟨v, s, rfl, .refl s⟩

/-! ## The analyzers of a project -/

namespace Analyzer

/-- Semgrep looks for the file, and then its report is read. -/
theorem outcome_semgrep (working : h.Working) (named : tools.Named) (promising : Promising s) (file : Path)
    (slot : Nat) :
    ∃ r u, ((semgrep tools slot).analyze file).outcome h s = (r, u) ∧
      ((∃ f, s.disk.reaches file = .error f ∧ r = .error f) ∨
        (s.disk.reaches file = .ok false ∧ ∃ a, r = .error (.analyzer a)) ∨
        s.disk.reaches file = .ok true ∧ ∃ report, r = Semgrep.findings report ∧
          Ran h u.runs (Semgrep.command tools file) none tools.timeout report) := by
  obtain ⟨p, hp⟩ := named.semgrep
  obtain ⟨c, hc⟩ := named.rules
  unfold semgrep
  simp only
  rw [outcome_disk_bind, outcome_bind, outcome_ofExcept]
  rcases s.disk.reaches file with f | _ | _
  · exact ⟨_, _, rfl, .inl ⟨f, rfl, rfl⟩⟩
  · exact ⟨_, _, rfl, .inr (.inl ⟨rfl, _, rfl⟩)⟩
  obtain ⟨v, t, hv, -⟩ := exists_keptVersion working promising [tools.semgrepPath]
    (by rw [hp]; rfl) slot
  obtain ⟨out, u, hrun, htime, -, ran, -⟩ := outcome_run_of_working working (Semgrep.command tools file)
    (by unfold Semgrep.command; rw [hp, hc]; rfl) none tools.timeout t
  refine ⟨Semgrep.findings out.stdout, u, ?_, .inr (.inr ⟨rfl, out.stdout, rfl, ran⟩)⟩
  simp only [Bool.not_true, Bool.false_eq_true, if_false]
  rw [outcome_bind_of_ok hv]
  simp only [Option.isNone_some, Bool.false_eq_true, if_false]
  rw [outcome_bind_of_ok (outcome_tryCatch_of_ok hrun _)]
  simp only [htime, Bool.false_eq_true, if_false, outcome_ofExcept]

/-- Clippy looks for the package, and then its report is read. -/
theorem outcome_clippy (working : h.Working) (named : tools.Named) (promising : Promising s) (file : Path)
    (slot : Nat) :
    ∃ r u, ((clippy tools slot).analyze file).outcome h s = (r, u) ∧
      ((∃ f, s.disk.nearestWith file "Cargo.toml" = .error f ∧ r = .error f) ∨ (∃ a, r = .error (.analyzer a)) ∨
        ∃ package report, s.disk.nearestWith file "Cargo.toml" = .ok (some package) ∧
          r = Clippy.findings s.disk report file package ∧
          Ran h u.runs (Clippy.command tools) (some package) tools.timeout report) := by
  obtain ⟨p, hp⟩ := named.cargo
  unfold clippy
  simp only
  obtain ⟨v, t, hv, surveyed⟩ := exists_keptVersion working promising
    [tools.cargoPath, .text "clippy"] (by rw [hp]; rfl) slot
  rw [outcome_bind_of_ok hv]
  simp only [Option.isNone_some, Bool.false_eq_true, if_false]
  rw [outcome_disk_bind, outcome_bind, outcome_ofExcept, surveyed.disk]
  rcases s.disk.nearestWith file "Cargo.toml" with f | _ | package
  · exact ⟨_, _, rfl, .inl ⟨f, rfl, rfl⟩⟩
  · exact ⟨_, _, rfl, .inr (.inl ⟨_, rfl⟩)⟩
  obtain ⟨out, u, hrun, htime, further, ran, -⟩ := outcome_run_of_working working (Clippy.command tools)
    (by unfold Clippy.command; rw [hp]; rfl) (some package) tools.timeout t
  refine ⟨Clippy.findings s.disk out.stdout file package, u, ?_, .inr (.inr ⟨package, out.stdout, rfl, rfl, ran⟩)⟩
  simp only
  rw [outcome_bind_of_ok (outcome_tryCatch_of_ok hrun _)]
  simp only [htime, Bool.false_eq_true, if_false]
  rw [outcome_disk_bind, outcome_ofExcept, further.disk, surveyed.disk]

/-- Where programs run, semgrep and clippy do. -/
theorem available_of_working (working : h.Working) (named : tools.Named) (promising : Promising s) {a : Analyzer}
    (ha : a ∈ Registry.standard tools) : ∃ u, a.available.outcome h s = (.ok true, u) ∧ Surveyed s u := by
  obtain ⟨p, hp⟩ := named.semgrep
  obtain ⟨k, hk⟩ := named.cargo
  have kept {slot : Nat} {program : List Value} {args : List String}
      (hargs : textsFrom 0 (program ++ [.text "--version"]) = .ok args) :
      ∃ u, (do pure (← keptVersion slot program).isSome : Act Bool).outcome h s = (.ok true, u) ∧ Surveyed s u := by
    obtain ⟨v, u, hv, surveyed⟩ := exists_keptVersion working promising _ hargs slot
    exact ⟨u, outcome_bind_of_ok hv _, surveyed⟩
  simp only [Registry.standard, List.mem_cons, List.not_mem_nil, or_false] at ha
  rcases ha with rfl | rfl | rfl
  · exact ⟨s, rfl, .refl s⟩
  · exact kept (by rw [hp]; rfl)
  · exact kept (by rw [hk]; rfl)

end Analyzer

/-! ## Why a scan ends at a file -/

/-- Why a scan ends at a file: its path cannot be asked about, the fingerprint of a finding in it cannot be derived,
or what semgrep or clippy printed about it cannot be read. -/
inductive Fault (h : Host) (tools : Tools) (d : Disk) (runs : List (Request × FileTree)) (file : Path) : Failure → Prop
  | content {fault : PathFault} : d.content file = .error fault → Fault h tools d runs file (.ofPath fault file)
  | place {f : Failure} : d.reaches file = .error f → Fault h tools d runs file f
  | package {f : Failure} : d.nearestWith file "Cargo.toml" = .error f → Fault h tools d runs file f
  | fingerprint {bytes : List UInt8} {i : Issue} {f : Failure} : d.content file = .ok bytes →
      i ∈ patternFindings builtinRules file (scannedText bytes) → i.checkFingerprint = .error f →
      Fault h tools d runs file f
  | semgrep {report : String} {f : Failure} : Ran h runs (Semgrep.command tools file) none tools.timeout report →
      Semgrep.Unreadable report f → Fault h tools d runs file f
  | clippy {package : Path} {report : String} {f : Failure} : d.nearestWith file "Cargo.toml" = .ok (some package) →
      Ran h runs (Clippy.command tools) (some package) tools.timeout report →
      Clippy.Unreadable d file package report f → Fault h tools d runs file f

theorem Analyzer.eq_of_tolerated {is js : List Issue} (hr : tolerated (.ok is) = .ok js) : is = js :=
  Except.ok.inj hr

theorem Analyzer.eq_error_of_tolerated {r : Except Failure (List Issue)} (hr : tolerated r = .error f) :
    r = .error f ∧ ∀ a, f ≠ .analyzer a := by
  unfold tolerated at hr
  split at hr
  · cases hr
  · next hno =>
    subst hr
    exact ⟨rfl, fun a heq => hno a (by rw [heq])⟩

/-- The rules on single lines fail for the path of the file or for a fingerprint. -/
theorem fault_of_pattern (granted : ∀ n p, h.refuse n (.read p) = none)
    (hf : (Analyzer.pattern.analyze file).outcome h s = (.error f, u)) (hown : ∀ a, f ≠ .analyzer a)
    (runs : List (Request × FileTree)) : Fault h tools s.disk runs file f := by
  rcases hc : s.disk.content file with fault | bytes
  · have hread : (readBytes file).outcome h s = (.error (.ofPath fault file), s.steps (s.diskSteps + 1)) := by
      rw [outcome_readBytes, granted, hc]
      rfl
    unfold Analyzer.pattern Analyzer.patternWith at hf
    simp only at hf
    rw [outcome_bind, outcome_tryCatch_of_error hread] at hf
    have hsame : f = .ofPath fault file := by
      cases hpath : Failure.ofPath fault file
      case os _ _ =>
        rw [hpath] at hf
        cases hf
        exact absurd rfl (hown _)
      all_goals
        rw [hpath] at hf
        cases hf
        rfl
    rw [hsame]
    exact .content hc
  · rcases Analyzer.outcome_pattern (granted s.diskSteps file) hc with hok | ⟨i, hi, reason, _, hreason, herror⟩
    · rw [hok] at hf
      cases hf
    · rw [herror] at hf
      cases hf
      exact .fingerprint hc hi hreason

/-- An analyzer of the project that ends a scan has one of these reasons. -/
theorem fault_of_findings (working : h.Working) (granted : ∀ n p, h.refuse n (.read p) = none)
    (named : tools.Named) (promising : Promising s) {a : Analyzer} (ha : a ∈ Registry.standard tools)
    (hf : (a.findings file).outcome h s = (.error f, u)) : Fault h tools s.disk u.runs file f := by
  rcases hsupports : a.supports file with _ | _
  · rw [Analyzer.outcome_findings_of_unsupported hsupports] at hf
    cases hf
  obtain ⟨t, ready, surveyed⟩ := Analyzer.available_of_working working named promising ha
  rw [Analyzer.outcome_findings hsupports ready] at hf
  obtain ⟨htolerated, rfl⟩ := Prod.mk.inj hf
  obtain ⟨herror, hown⟩ := Analyzer.eq_error_of_tolerated htolerated
  rw [← surveyed.disk]
  simp only [Registry.standard, List.mem_cons, List.not_mem_nil, or_false] at ha
  rcases ha with rfl | rfl | rfl
  · exact fault_of_pattern granted (Prod.ext herror rfl) hown _
  · obtain ⟨r, w, hw, hcases⟩ := Analyzer.outcome_semgrep working named (surveyed.promising promising) file 1
    rw [hw] at herror ⊢
    subst herror
    rcases hcases with ⟨f', hplace, heq⟩ | ⟨-, a, heq⟩ | ⟨-, report, heq, ran⟩
    · cases heq
      exact .place hplace
    · cases heq
      exact absurd rfl (hown a)
    · rcases Semgrep.unreadable_of_findings heq.symm with ⟨a, rfl⟩ | hunreadable
      · exact absurd rfl (hown a)
      · exact .semgrep ran hunreadable
  · obtain ⟨r, w, hw, hcases⟩ := Analyzer.outcome_clippy working named (surveyed.promising promising) file 2
    rw [hw] at herror ⊢
    subst herror
    rcases hcases with ⟨f', hpackage, heq⟩ | ⟨a, heq⟩ | ⟨package, report, hpackage, heq, ran⟩
    · cases heq
      exact .package hpackage
    · cases heq
      exact absurd rfl (hown a)
    · exact .clippy hpackage ran (Clippy.unreadable_of_findings heq.symm)

/-! ## What a scan reports -/

section Reports

variable {is : List Issue} {lists : List (List Issue)} {files : List Path} {bytes : List UInt8}

theorem languages_of_builtinRules :
    ∀ rule ∈ builtinRules, rule.languages.all (Analyzer.pattern.languages.contains ·) = true := by
  decide

/-- The rules on single lines find something only in files of the languages that they are for. -/
theorem supports_of_mem_patternFindings {i : Issue} {text : String} (hi : i ∈ patternFindings builtinRules file text) :
    Analyzer.pattern.supports file = true := by
  obtain ⟨j, line, -, -, rule, hrule, hfinding⟩ := mem_patternFindings_iff.1 hi
  have hlanguage := (finding?_eq_some hfinding).1
  unfold Analyzer.supports
  generalize Language.ofPath file = language at hlanguage ⊢
  exact List.all_eq_true.1 (languages_of_builtinRules rule hrule) language (by simpa using hlanguage)

theorem supports_of_language (hlanguage : Language.ofPath file ≠ .unknown) :
    (Analyzer.semgrep tools slot).supports file = true := by
  unfold Analyzer.supports Analyzer.semgrep
  generalize Language.ofPath file = language at hlanguage ⊢
  cases language
  case unknown => exact absurd rfl hlanguage
  all_goals rfl

/-- In the course of a scan, an analyzer that is for a file was asked about it and did its work. -/
theorem exists_analyzed (working : h.Working) (named : tools.Named) (promising : Promising s)
    (hr : Registry.Reported h s ((Registry.standard tools).questions files) lists u) (hfile : file ∈ files)
    {a : Analyzer} (ha : a ∈ Registry.standard tools) (supported : a.supports file = true) :
    ∃ t is, Surveyed s t ∧ Promising t ∧ Analyzer.tolerated ((a.analyze file).outcome h t).1 = .ok is ∧
      Surveyed ((a.analyze file).outcome h t).2 u ∧ is ∈ lists := by
  have q := Surveyed.inquiry working
  have asked : ∀ x ∈ (Registry.standard tools).questions files, Keeps h Surveyed (x.2.findings x.1) := by
    rintro ⟨file', b⟩ hb
    simp only [Registry.questions, List.mem_flatMap, List.mem_map, Prod.mk.injEq] at hb
    obtain ⟨_, -, b', hb', rfl, rfl⟩ := hb
    exact Registry.findings_keeps q.refl q.trans (Registry.standard_inquiring tools _ hb' h Surveyed q) _
  have hquestion : (file, a) ∈ (Registry.standard tools).questions files := by
    simp only [Registry.questions, List.mem_flatMap, List.mem_map, Prod.mk.injEq]
    exact ⟨file, hfile, a, ha, rfl, rfl⟩
  obtain ⟨t, is, w, before, hfindings, after, his⟩ := hr.exists_of_mem q.refl q.trans asked hquestion
  obtain ⟨v, ready, surveyed⟩ := Analyzer.available_of_working working named (before.promising promising) ha
  rw [Analyzer.outcome_findings supported ready] at hfindings
  obtain ⟨htolerated, rfl⟩ := Prod.mk.inj hfindings
  exact ⟨v, is, before.trans _ _ _ surveyed, surveyed.promising (before.promising promising), htolerated, after, his⟩

/-- A finding in one of the lists is reported, or an earlier one with its fingerprint. -/
theorem exists_reported {i : Issue} {found : List Issue} (hi : i ∈ found) (hfound : found ∈ lists) :
    ∃ j ∈ inOrder (keepFirst [] lists.flatten), j.fingerprint = i.fingerprint := by
  obtain ⟨j, hj, hprint⟩ := exists_mem_keepFirst (List.mem_flatten.2 ⟨found, hfound, hi⟩) List.not_mem_nil
  exact ⟨j, mem_inOrder_iff.2 hj, hprint⟩

/-- The findings of the rules on single lines are reported. -/
theorem exists_reported_of_pattern (working : h.Working) (granted : ∀ n p, h.refuse n (.read p) = none)
    (named : tools.Named) (promising : Promising s)
    (hr : Registry.Reported h s ((Registry.standard tools).questions files) lists u) (hfile : file ∈ files)
    (hc : s.disk.content file = .ok bytes) {i : Issue}
    (hi : i ∈ patternFindings builtinRules file (scannedText bytes)) :
    ∃ j ∈ inOrder (keepFirst [] lists.flatten), j.fingerprint = i.fingerprint := by
  obtain ⟨t, is, before, -, htolerated, -, his⟩ := exists_analyzed working named promising hr hfile
    (a := Analyzer.pattern) List.mem_cons_self (supports_of_mem_patternFindings hi)
  rcases Analyzer.outcome_pattern (granted t.diskSteps file) (before.disk ▸ hc) with
    hok | ⟨_, -, _, _, -, herror⟩
  · rw [hok] at htolerated
    exact exists_reported (Analyzer.eq_of_tolerated htolerated ▸ hi) his
  · rw [herror] at htolerated
    cases htolerated

/-- Semgrep is run on every file, and the well-formed results in its report are reported. -/
theorem exists_reported_of_semgrep (working : h.Working) (named : tools.Named) (promising : Promising s)
    (hr : Registry.Reported h s ((Registry.standard tools).questions files) lists u) (hfile : file ∈ files)
    (hlanguage : Language.ofPath file ≠ .unknown) (hc : s.disk.content file = .ok bytes) :
    ∃ report, Ran h u.runs (Semgrep.command tools file) none tools.timeout report ∧
      ∀ fs rs, Json.read report = .ok (.table fs) → fs.lookup "results" = some (.list rs) →
        ∀ r ∈ rs, ∀ i, Semgrep.finding r = .ok i →
          ∃ j ∈ inOrder (keepFirst [] lists.flatten), j.fingerprint = i.fingerprint := by
  obtain ⟨t, is, before, promising', htolerated, after, his⟩ := exists_analyzed working named promising hr hfile
    (a := Analyzer.semgrep tools 1) (by simp [Registry.standard]) (supports_of_language hlanguage)
  have there : t.disk.reaches file = .ok true := by
    obtain ⟨l, hl, hentry⟩ := Disk.exists_locateNew_of_content (before.disk ▸ hc)
    rw [Disk.reaches_of_locateNew hl, hentry]
    rfl
  obtain ⟨r, w, hw, hcases⟩ := Analyzer.outcome_semgrep working named promising' file 1
  rw [hw] at htolerated after
  rcases hcases with ⟨f, hplace, -⟩ | ⟨hno, -⟩ | ⟨-, report, rfl, ran⟩
  · rw [there] at hplace
    cases hplace
  · rw [there] at hno
    cases hno
  refine ⟨report, ran.mono after.runs, fun fs rs htable hresults r hr i hi => ?_⟩
  obtain ⟨fault, hmem⟩ := Semgrep.mem_of_findings htable hresults
  rcases hfindings : Semgrep.findings report with f | found
  · -- the failure of a table of results is no failure of the analyzer, so the scan would have ended
    rw [hfindings] at htolerated
    have hown := fault f hfindings
    cases f
    case analyzer a => cases hown
    all_goals cases htolerated
  · rw [hfindings] at htolerated
    exact exists_reported (Analyzer.eq_of_tolerated htolerated ▸ (hmem found hfindings i).2 ⟨r, hr, hi⟩) his

end Reports

/-- **What a scan of a project reports, or why it ends.** Where semgrep and clippy run, a scan that ends in a failure
was given files that cannot be listed, or there is a fault with one of the files. Otherwise every finding of the
built-in rules in a file, and every well-formed result of semgrep beside whatever other results, is reported or shares
its fingerprint with a finding that is. -/
theorem Registry.scan_standard (working : h.Working) (granted : ∀ n p, h.refuse n (.read p) = none)
    (named : tools.Named) (promising : Promising s) (path : Path) (exclude : Value) :
    (∃ is u, ((Registry.standard tools).scan path exclude).outcome h s = (.ok is, u) ∧
        ∃ files, sourceFiles s.disk path exclude = .ok files ∧
          ∀ file ∈ files, ∀ bytes, s.disk.content file = .ok bytes →
            (∀ i ∈ patternFindings builtinRules file (scannedText bytes), ∃ j ∈ is, j.fingerprint = i.fingerprint) ∧
            ∃ report, Ran h u.runs (Semgrep.command tools file) none tools.timeout report ∧
              ∀ fs rs, Json.read report = .ok (.table fs) → fs.lookup "results" = some (.list rs) →
                ∀ r ∈ rs, ∀ i, Semgrep.finding r = .ok i → ∃ j ∈ is, j.fingerprint = i.fingerprint) ∨
      ∃ f u, ((Registry.standard tools).scan path exclude).outcome h s = (.error f, u) ∧
        (sourceFiles s.disk path exclude = .error f ∨
          ∃ files, sourceFiles s.disk path exclude = .ok files ∧ ∃ file ∈ files, Fault h tools s.disk u.runs file f) := by
  rcases hscan : ((Registry.standard tools).scan path exclude).outcome h s with ⟨f | is, u⟩
  · refine .inr ⟨f, u, rfl, ?_⟩
    rcases Registry.scan_eq_error_iff.1 hscan with ⟨hfiles, -⟩ | ⟨files, hfiles, hbreaks⟩
    · exact .inl hfiles
    obtain ⟨before, file, a, after, lists, t, heq, hreported, hfails⟩ := hbreaks
    have hmem (x : Path × Analyzer) (hx : x ∈ (Registry.standard tools).questions files) :
        x.1 ∈ files ∧ x.2 ∈ Registry.standard tools := by
      simp only [Registry.questions, List.mem_flatMap, List.mem_map] at hx
      obtain ⟨file', hfile', b, hb, rfl⟩ := hx
      exact ⟨hfile', hb⟩
    have q := Surveyed.inquiry working
    have surveyed : Surveyed s t := hreported.keeps q.refl q.trans fun x hx =>
      Registry.findings_keeps q.refl q.trans
        (Registry.standard_inquiring tools _ (hmem x (by rw [heq]; simp [hx])).2 h Surveyed q) _
    obtain ⟨hfile, ha⟩ := hmem (file, a) (by rw [heq]; simp)
    refine .inr ⟨files, hfiles, file, hfile, ?_⟩
    rw [← surveyed.disk]
    exact fault_of_findings working granted named (surveyed.promising promising) ha hfails
  · refine .inl ⟨is, u, rfl, ?_⟩
    obtain ⟨files, lists, hfiles, hreported, rfl⟩ := Registry.scan_eq_ok_iff.1 hscan
    refine ⟨files, hfiles, fun file hfile bytes hc => ⟨fun i hi => ?_, ?_⟩⟩
    · exact exists_reported_of_pattern working granted named promising hreported hfile hc hi
    · exact exists_reported_of_semgrep working named promising hreported hfile
        (language_of_mem_sourceFiles hfiles hfile) hc

/-! ## A malformed result -/

/-- Surroundings whose programs all end with status zero; semgrep prints a report, and the others nothing. -/
def reporting (report : String) : Host where
  hasKey := true
  hasPackage := true
  run _ r t := (.ended 0 (if r.args.head? = some "semgrep" then some report else none) none, t)
  ask _ _ t := (.blocks [], t)
  refuse _ _ := none
  clock _ := ""

theorem reporting_working (report : String) : (reporting report).Working :=
  ⟨fun _ _ _ => ⟨_, _, _, rfl⟩, fun _ _ _ _ => ⟨_, _, rfl⟩⟩

theorem named_default : ({} : Tools).Named :=
  ⟨⟨_, rfl⟩, ⟨_, rfl⟩, ⟨_, rfl⟩⟩

/-- A directory with one source. -/
def holding (name text : String) : State :=
  { disk := ⟨⟨[([name], .file (Text.Utf8.encode text))]⟩, []⟩ }

theorem promising_holding (name text : String) : Promising (holding name text) := nofun

/-- A source that copies a text. -/
def copying : State := holding "a.c" "strcpy(d, s);\n"

/-- A report of a result in a source, after another result. -/
def reportAfter (other : String) : String :=
  "\x7b\"results\": [" ++ other ++ ", \x7b\"check_id\": \"leak\", \"path\": \"a.c\", " ++
    "\"start\": \x7b\"line\": 2\x7d\x7d]\x7d"

/-- A result that is a rule and nothing else. -/
def bareResult : String := "\x7b\"check_id\": \"rule\"\x7d"

/-- A result without the extras of one. -/
def nullResult : String := "\x7b\"check_id\": \"rule\", \"extra\": null\x7d"

/-- A result that is a rule and nothing else is passed over, and everything beside it is reported. -/
theorem scan_standard_after_bare_result :
    ∃ is u, ((Registry.standard {}).scan ⟨.here, ["a.c"]⟩ ({} : Settings).exclude).outcome
        (reporting (reportAfter bareResult)) copying = (.ok is, u) ∧
      ∃ files, sourceFiles copying.disk ⟨.here, ["a.c"]⟩ ({} : Settings).exclude = .ok files ∧
        ∀ file ∈ files, ∀ bytes, copying.disk.content file = .ok bytes →
          (∀ i ∈ patternFindings builtinRules file (scannedText bytes), ∃ j ∈ is, j.fingerprint = i.fingerprint) ∧
          ∃ report, Ran (reporting (reportAfter bareResult)) u.runs (Semgrep.command {} file) none
              ({} : Tools).timeout report ∧
            ∀ fs rs, Json.read report = .ok (.table fs) → fs.lookup "results" = some (.list rs) →
              ∀ r ∈ rs, ∀ i, Semgrep.finding r = .ok i → ∃ j ∈ is, j.fingerprint = i.fingerprint := by
  rcases Registry.scan_standard (s := copying) (reporting_working (reportAfter bareResult)) (fun _ _ => rfl)
    named_default (promising_holding _ _) ⟨.here, ["a.c"]⟩ ({} : Settings).exclude with hok | ⟨f, u, hf, -⟩
  · exact hok
  · have hfine : (((Registry.standard {}).scan ⟨.here, ["a.c"]⟩ ({} : Settings).exclude).outcome
        (reporting (reportAfter bareResult)) copying).1.isOk = true := by decide +kernel
    rw [hf] at hfine
    cases hfine

/-- A scan ends for a result whose extras are null, although the result beside it is well formed. -/
theorem scan_standard_ends_for_null_extras :
    ∃ f u, ((Registry.standard {}).scan ⟨.here, ["a.c"]⟩ ({} : Settings).exclude).outcome
        (reporting (reportAfter nullResult)) copying = (.error f, u) ∧
      f.message = "'NoneType' object has no attribute 'get'" ∧
      ∃ fs rs, Json.read (reportAfter nullResult) = .ok (.table fs) ∧ fs.lookup "results" = some (.list rs) ∧
        ∃ r ∈ rs, ∃ i, Semgrep.finding r = .ok i := by
  have hends : complaint? (((Registry.standard {}).scan ⟨.here, ["a.c"]⟩ ({} : Settings).exclude).outcome
      (reporting (reportAfter nullResult)) copying).1 = some "'NoneType' object has no attribute 'get'" := by
    decide +kernel
  have hread : (Json.read (reportAfter nullResult)).toOption.map Semgrep.hasFinding = some true := by decide +kernel
  generalize ((Registry.standard {}).scan ⟨.here, ["a.c"]⟩ ({} : Settings).exclude).outcome
    (reporting (reportAfter nullResult)) copying = outcome at hends ⊢
  obtain ⟨f, hf, hmessage⟩ := exists_of_complaint? hends
  obtain ⟨data, hdata, hfinding⟩ := exists_of_toOption hread
  obtain ⟨fs, rs, rfl, hresults, hwell⟩ := Semgrep.exists_of_hasFinding hfinding
  exact ⟨f, _, Prod.ext hf rfl, hmessage, fs, rs, hdata, hresults, hwell⟩

end FixGate
