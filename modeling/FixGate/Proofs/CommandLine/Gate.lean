import FixGate.CommandLine
import FixGate.Proofs.Analysis.Survey

/-!
# When a scan fails the build

A scan with a severity given fails if a finding is as grave. It looks at the findings that it prints, and
these are the first ones of every fingerprint. So a grave finding does not count if a lesser one with the same
fingerprint was reported before it, as the built-in rules and a program may do for one place. Where no finding is
graver than an earlier one of the same fingerprint, every finding counts.

* `exitCode` : the exit status of what comes of a command
* `survey`, `scan_eq_survey` : a scan up to its verdict
* `Returned` : the findings that the analyzers gave to a scan
* `scan_exits_iff` : a scan fails for a finding that is the first of its fingerprint and grave enough
-/

namespace FixGate.CommandLine

open Act

/-- The exit status of what comes of a command. -/
def exitCode : Except Failure Unit → Nat
  | .ok () => 0
  | .error f => f.status

/-- Words that ask for a task come to what the task comes to. -/
theorem outcome_run_of_words {words : List String} {task : Task} {h : Host} {s : State}
    (hwords : Task.ofWords s.disk words = .ok task) : (run words).outcome h s = task.carryOut.outcome h s := by
  unfold run
  rw [outcome_disk_bind, hwords, outcome_ofExcept_ok_bind]

/-! ## The verdict of a scan -/

/-- A scan up to its verdict: the findings, which were printed. -/
def survey (target : Path) : Act (List Issue) := do
  let s ← settings
  let registry := Registry.standard s.tools
  Act.notify (.task s!"Scanning {target}...")
  let is ← registry.scan target s.exclude
  let missing ← unavailable registry
  if !missing.isEmpty then
    Act.say ("  [dim]Skipped unavailable analyzers: " ++ ", ".intercalate missing ++ "[/dim]")
  printIssues is issuesTitle
  pure is

/-- The verdict of a scan on its findings, if a severity is given. -/
def verdict (failOn : Option Severity) (is : List Issue) : Act Unit :=
  match failOn with
  | none => pure ()
  | some least =>
    if is.any (reachesSeverity least) then do
      Act.say s!"  [red]Issues at or above {least.key} found.[/red]"
      throw (.exit 1)
    else pure ()

variable {target : Path} {failOn : Option Severity} {least : Severity} {h : Host} {s u : State}
  {is : List Issue} {f : Failure}

theorem scan_eq_survey (target : Path) (failOn : Option Severity) :
    scan target failOn = survey target >>= verdict failOn := by
  unfold scan survey verdict
  simp only [bind_assoc]
  refine bind_congr fun st => bind_congr fun _ => bind_congr fun is => bind_congr fun missing => ?_
  cases failOn
  all_goals
    split
    · simp only [bind_assoc, pure_bind]
    · simp only [bind_assoc, pure_bind]

theorem outcome_scan_none (target : Path) (s : State) :
    (scan target none).outcome h s =
      (((survey target).outcome h s).1.map fun _ => (), ((survey target).outcome h s).2) := by
  rw [scan_eq_survey, outcome_bind]
  rcases (survey target).outcome h s with ⟨f | is, u⟩ <;> rfl

/-- With a severity given, the findings decide after they were printed. -/
theorem outcome_scan_some (target : Path) (least : Severity) (s : State) :
    ((scan target (some least)).outcome h s).1 =
      match ((survey target).outcome h s).1 with
      | .error f => .error f
      | .ok is => if is.any (reachesSeverity least) then .error (.exit 1) else .ok () := by
  rw [scan_eq_survey, outcome_bind]
  rcases (survey target).outcome h s with ⟨f | is, u⟩
  · rfl
  · simp only [verdict]
    split <;> rfl

/-! ## The findings that count -/

/-- Analyzers that give findings to a scan of a target, one after another. -/
def Returned (h : Host) (s : State) (target : Path) (lists : List (List Issue)) : Prop :=
  ∃ st files t u, Settings.load s.disk (Path.ofLocation s.disk.here) = .ok st ∧
    sourceFiles s.disk target st.exclude = .ok files ∧
    t = { s with notices := s.notices ++ [.task s!"Scanning {target}..."] } ∧
    Registry.Reported h t ((Registry.standard st.tools).questions files) lists u

theorem outcome_settings (s : State) :
    settings.outcome h s = (Settings.load s.disk (Path.ofLocation s.disk.here), s) := by
  unfold settings project
  rw [outcome_disk_bind, bind_assoc, outcome_disk_bind, pure_bind, outcome_ofExcept]

/-- What is printed at the end of a survey is what the analyzers gave, the first of every fingerprint. -/
theorem returned_of_survey (hs : (survey target).outcome h s = (.ok is, u)) :
    ∃ lists, Returned h s target lists ∧ is = inOrder (keepFirst [] lists.flatten) := by
  unfold survey at hs
  obtain ⟨st, s₁, hsettings, afterSettings⟩ := outcome_bind_eq_ok_iff.1 hs
  rw [outcome_settings] at hsettings
  obtain ⟨hload, rfl⟩ := Prod.mk.inj hsettings
  obtain ⟨_, t, hnotice, afterNotice⟩ := outcome_bind_eq_ok_iff.1 afterSettings
  obtain ⟨js, v, hscan, afterScan⟩ := outcome_bind_eq_ok_iff.1 afterNotice
  obtain ⟨missing, w, -, hprint⟩ := outcome_bind_eq_ok_iff.1 afterScan
  obtain ⟨files, lists, hfiles, hreported, rfl⟩ := Registry.scan_eq_ok_iff.1 hscan
  obtain ⟨-, rfl⟩ := Prod.mk.inj hnotice
  refine ⟨lists, ⟨st, files, _, v, hload, hfiles, rfl, hreported⟩, ?_⟩
  have printed {t : State} (hlast : (do
      printIssues (inOrder (keepFirst [] lists.flatten)) issuesTitle
      pure (inOrder (keepFirst [] lists.flatten))).outcome h t = (.ok is, u)) :
      is = inOrder (keepFirst [] lists.flatten) := by
    obtain ⟨_, _, -, hpure⟩ := outcome_bind_eq_ok_iff.1 hlast
    cases hpure
    rfl
  simp only at hprint
  split at hprint
  · obtain ⟨_, _, -, hlast⟩ := outcome_bind_eq_ok_iff.1 hprint
    exact printed hlast
  · exact printed hprint

/-- No finding is graver than an earlier one with its fingerprint. -/
def Graded (found : List Issue) : Prop :=
  found.Pairwise fun i j => i.fingerprint = j.fingerprint → j.severity.level ≤ i.severity.level

/-- Where no finding is graver than an earlier one with its fingerprint, the first ones of every fingerprint are
as grave as any. -/
theorem exists_first_iff {found : List Issue} (graded : Graded found) (least : Severity) :
    (∃ before i after, found = before ++ i :: after ∧ (∀ j ∈ before, j.fingerprint ≠ i.fingerprint) ∧
        least.level ≤ i.severity.level) ↔
      ∃ i ∈ found, least.level ≤ i.severity.level := by
  constructor
  · rintro ⟨before, i, after, rfl, -, hgrave⟩
    exact ⟨i, by simp, hgrave⟩
  · rintro ⟨i, hi, hgrave⟩
    obtain ⟨j, hj, hprint⟩ := exists_mem_keepFirst hi List.not_mem_nil
    obtain ⟨-, before, after, rfl, hfirst⟩ := mem_keepFirst_iff.1 hj
    refine ⟨before, j, after, rfl, hfirst, ?_⟩
    have hlater : i = j ∨ i ∈ after := by
      rcases List.mem_append.1 hi with hi | hi
      · exact absurd hprint.symm (hfirst i hi)
      · exact List.mem_cons.1 hi
    rcases hlater with rfl | hafter
    · exact hgrave
    · have hpair := (List.pairwise_cons.1 (List.pairwise_append.1 graded).2.1).1
      exact Nat.le_trans hgrave (hpair i hafter hprint)

/-- A finding that is printed is grave enough if the first one of some fingerprint is. -/
theorem any_reachesSeverity_iff (found : List Issue) (least : Severity) :
    (inOrder (keepFirst [] found)).any (reachesSeverity least) = true ↔
      ∃ before i after, found = before ++ i :: after ∧ (∀ j ∈ before, j.fingerprint ≠ i.fingerprint) ∧
        least.level ≤ i.severity.level := by
  rw [List.any_eq_true]
  constructor
  · rintro ⟨i, hi, hgrave⟩
    obtain ⟨-, before, after, heq, hfirst⟩ := mem_keepFirst_iff.1 (mem_inOrder_iff.1 hi)
    exact ⟨before, i, after, heq, hfirst, of_decide_eq_true hgrave⟩
  · rintro ⟨before, i, after, heq, hfirst, hgrave⟩
    exact ⟨i, mem_inOrder_iff.2 (mem_keepFirst_iff.2 ⟨by simp, before, after, heq, hfirst⟩),
      decide_eq_true hgrave⟩

/-! ## The exit status of a scan -/

/-- **A scan with a severity fails for the first finding of a fingerprint that is as grave.** If the findings
cannot be printed, it fails as a scan without a severity does. -/
theorem scan_exits_iff {words : List String}
    (hwords : Task.ofWords s.disk words = .ok (.scan target (some least))) (h : Host) :
    (∀ f, ((scan target none).outcome h s).1 = .error f → ((run words).outcome h s).1 = .error f) ∧
      (((scan target none).outcome h s).1 = .ok () → ∃ lists, Returned h s target lists ∧
        (exitCode ((run words).outcome h s).1 = 1 ↔
          ∃ before i after, lists.flatten = before ++ i :: after ∧
            (∀ j ∈ before, j.fingerprint ≠ i.fingerprint) ∧ least.level ≤ i.severity.level) ∧
        (Graded lists.flatten →
          (exitCode ((run words).outcome h s).1 = 1 ↔
            ∃ i ∈ lists.flatten, least.level ≤ i.severity.level))) := by
  have hrun : (run words).outcome h s = (scan target (some least)).outcome h s := outcome_run_of_words hwords
  rw [hrun, outcome_scan_some, outcome_scan_none]
  rcases hs : (survey target).outcome h s with ⟨f | is, u⟩
  · refine ⟨?_, by rintro ⟨⟩⟩
    rintro g ⟨⟩
    rfl
  · refine ⟨by rintro g ⟨⟩, fun _ => ?_⟩
    obtain ⟨lists, hreturned, rfl⟩ := returned_of_survey hs
    have hexit : exitCode (if (inOrder (keepFirst [] lists.flatten)).any (reachesSeverity least) then
        .error (.exit 1) else .ok ()) = 1 ↔
        ∃ before i after, lists.flatten = before ++ i :: after ∧
          (∀ j ∈ before, j.fingerprint ≠ i.fingerprint) ∧ least.level ≤ i.severity.level := by
      rw [← any_reachesSeverity_iff]
      split
      · next hany => exact iff_of_true rfl hany
      · next hany => exact iff_of_false (by decide) hany
    exact ⟨lists, hreturned, hexit, fun graded => hexit.trans (exists_first_iff graded least)⟩

/-! ## A finding that counts, and one that does not -/

/-- A report of a critical finding in a source. -/
def injectionReport : String :=
  "\x7b\"results\": [\x7b\"check_id\": \"sqli\", \"path\": \"A.java\", \"start\": \x7b\"line\": 1\x7d, " ++
    "\"extra\": \x7b\"severity\": \"ERROR\", \"fingerprint\": \"f1\"\x7d\x7d]\x7d"

/-- A scan that is to fail for a finding of high severity fails for a critical one. -/
theorem scan_exits_iff_injection :
    exitCode ((run ["scan", "A.java", "--fail-on", "high"]).outcome (reporting injectionReport)
        (holding "A.java" "q(s);\n")).1 = 1 ∧
      ∃ lists, Returned (reporting injectionReport) (holding "A.java" "q(s);\n") ⟨.here, ["A.java"]⟩ lists ∧
        (exitCode ((run ["scan", "A.java", "--fail-on", "high"]).outcome (reporting injectionReport)
            (holding "A.java" "q(s);\n")).1 = 1 ↔
          ∃ before i after, lists.flatten = before ++ i :: after ∧
            (∀ j ∈ before, j.fingerprint ≠ i.fingerprint) ∧ Severity.high.level ≤ i.severity.level) ∧
        (Graded lists.flatten →
          (exitCode ((run ["scan", "A.java", "--fail-on", "high"]).outcome (reporting injectionReport)
              (holding "A.java" "q(s);\n")).1 = 1 ↔
            ∃ i ∈ lists.flatten, Severity.high.level ≤ i.severity.level)) := by
  obtain ⟨_, hfine, -⟩ := exists_of_toOption (f := id) (y := ())
    (x := ((scan ⟨.here, ["A.java"]⟩ none).outcome (reporting injectionReport)
      (holding "A.java" "q(s);\n")).1) (by decide +kernel)
  exact ⟨by decide +kernel,
    (scan_exits_iff (s := holding "A.java" "q(s);\n") rfl (reporting injectionReport)).2 hfine⟩

/-- A report of a critical finding where a source copies a text. -/
def copyReport : String :=
  "\x7b\"results\": [\x7b\"check_id\": \"strcpy\", \"path\": \"a.c\", \"start\": \x7b\"line\": 1, \"col\": 1\x7d, " ++
    "\"extra\": \x7b\"severity\": \"ERROR\"\x7d\x7d]\x7d"

theorem load_copying : Settings.load copying.disk (Path.ofLocation copying.disk.here) = .ok {} := rfl

theorem sources_copying :
    sourceFiles copying.disk ⟨.here, ["a.c"]⟩ ({} : Settings).exclude = .ok [⟨.here, ["a.c"]⟩] := rfl

/-- Semgrep reports a critical finding where the built-in rules report one of high severity, and a scan that is to
fail for a critical finding does not. -/
theorem critical_finding_hidden :
    ∃ lists, Returned (reporting copyReport) copying ⟨.here, ["a.c"]⟩ lists ∧
      (∃ i ∈ lists.flatten, Severity.critical.level ≤ i.severity.level) ∧
      exitCode ((run ["scan", "a.c", "--fail-on", "critical"]).outcome (reporting copyReport) copying).1 = 0 := by
  obtain ⟨found, t, hfound, hgrades⟩ := exists_outcome (show ((Registry.ask
      ((Registry.standard {}).questions [⟨.here, ["a.c"]⟩])).outcome (reporting copyReport)
        { copying with notices := [.task "Scanning a.c..."] }).1.toOption.map
          (fun is => is.map Issue.severity) = some [.high, .critical] by decide +kernel)
  obtain ⟨lists, hreported, rfl⟩ := Registry.ask_eq_ok_iff.1 hfound
  have hreturned : Returned (reporting copyReport) copying ⟨.here, ["a.c"]⟩ lists :=
    ⟨_, _, _, _, load_copying, sources_copying, rfl, hreported⟩
  refine ⟨lists, hreturned, ?_, by decide +kernel⟩
  have hcritical : Severity.critical ∈ lists.flatten.map Issue.severity := by simp [hgrades]
  obtain ⟨i, hi, hsame⟩ := List.mem_map.1 hcritical
  exact ⟨i, hi, hsame ▸ Nat.le_refl _⟩

end FixGate.CommandLine
