import FixGate.Proofs.Analysis.Covered
import Mathlib.Data.List.Lex
import Mathlib.Data.List.Nodup
import Mathlib.Data.Prod.Lex

/-!
# The findings of a scan in order

A scan asks every analyzer about every file. An analyzer is passed over, fails, or reports findings, and a failure of
its own counts as a report of nothing. Whatever the answers are, the scan gives the first finding of every fingerprint
that was reported. The findings are ordered by their severity, the text of their file and their line, and those that
agree in these come in the order in which they were reported.

* `Issue.rank`, `Issue.le_iff` : what findings are ordered by
* `metAt` : where a fingerprint is met first
* `FirstFound` : the first findings of all fingerprints in order
* `Analyzer.Answers`, `Registry.Answered` : what analyzers answer
* `Analyzer.excused` : an analyzer that reports nothing where it would fail
* `Registry.scan_first_found` : what a scan gives
-/

namespace FixGate

open Act

/-! ## What findings are ordered by -/

/-- A finding is ordered by its severity, the greatest first, then by the code points of its file, then by its line. -/
def Issue.rank (i : Issue) : ℤ ×ₗ List ℕ ×ₗ ℤ :=
  toLex (-(i.severity.level : ℤ), toLex (Text.pointsOf i.file.text, i.line))

theorem Issue.le_iff {i j : Issue} : i.le j = true ↔ i.rank ≤ j.rank := by
  have hgraver : -(i.severity.level : ℤ) < -(j.severity.level : ℤ) ↔ j.severity.level < i.severity.level := by omega
  have hsame : -(i.severity.level : ℤ) = -(j.severity.level : ℤ) ↔ i.severity.level = j.severity.level := by omega
  simp only [rank, Prod.Lex.toLex_le_toLex, hgraver, hsame]
  unfold le
  split
  · next hlevel => simp [hlevel]
  · next hlevel =>
    rw [ne_eq, not_not] at hlevel
    simp only [hlevel, lt_irrefl, true_and, false_or]
    split
    · next hfile => simp [hfile]
    · next hfile =>
      rw [ne_eq, not_not] at hfile
      simp [hfile]

theorem Issue.le_trans (i j k : Issue) (hij : i.le j = true) (hjk : j.le k = true) : i.le k = true :=
  le_iff.2 ((le_iff.1 hij).trans (le_iff.1 hjk))

theorem Issue.le_total (i j : Issue) : (i.le j || j.le i) = true := by
  rw [Bool.or_eq_true, le_iff, le_iff]
  exact LinearOrder.le_total i.rank j.rank

section Order

variable {i j : Issue} {is : List Issue} {R : Issue → Issue → Prop}

/-- Findings of one rank keep their order. -/
theorem filter_inOrder (is : List Issue) (i : Issue) :
    (inOrder is).filter (fun k => k.rank = i.rank) = is.filter fun k => k.rank = i.rank := by
  have agree : (is.filter fun k => k.rank = i.rank).Pairwise fun j k => j.le k = true := by
    rw [List.pairwise_iff_forall_sublist]
    intro j k hjk
    have hj := (List.mem_filter.1 (hjk.subset List.mem_cons_self)).2
    have hk := (List.mem_filter.1 (hjk.subset (List.mem_cons_of_mem _ List.mem_cons_self))).2
    rw [decide_eq_true_eq] at hj hk
    exact Issue.le_iff.2 (hj.trans hk.symm).le
  have hsub := (List.sublist_mergeSort Issue.le_trans Issue.le_total agree List.filter_sublist).filter
    fun k => decide (k.rank = i.rank)
  rw [List.filter_filter] at hsub
  simp only [Bool.and_self] at hsub
  exact (hsub.eq_of_length ((List.mergeSort_perm is Issue.le).filter _).length_eq.symm).symm

/-- Findings in order come by rank, and within one rank as they came before. -/
theorem pairwise_inOrder (h : is.Pairwise R) :
    (inOrder is).Pairwise fun i j => i.rank < j.rank ∨ i.rank = j.rank ∧ R i j := by
  have ordered : (inOrder is).Pairwise fun i j => i.le j = true :=
    List.pairwise_mergeSort Issue.le_trans Issue.le_total is
  rw [List.pairwise_iff_forall_sublist] at ordered ⊢
  intro i j hij
  rcases (Issue.le_iff.1 (ordered hij)).lt_or_eq with hlt | heq
  · exact .inl hlt
  · have htied : [i, j].Sublist (is.filter fun k => k.rank = i.rank) := by
      have hfilter := hij.filter fun k => decide (k.rank = i.rank)
      rw [filter_inOrder] at hfilter
      simpa [heq] using hfilter
    exact .inr ⟨heq, List.pairwise_iff_forall_sublist.1 (h.sublist List.filter_sublist) htied⟩

end Order

/-! ## The first finding of every fingerprint -/

/-- How many findings come before the first one with a fingerprint. -/
def metAt (found : List Issue) (print : String) : ℕ :=
  found.findIdx fun i => i.fingerprint == print

section First

variable {i j : Issue} {found : List Issue} {seen : List String}

theorem metAt_cons_self (i : Issue) (found : List Issue) : metAt (i :: found) i.fingerprint = 0 := by
  simp [metAt, List.findIdx_cons]

theorem metAt_cons_of_ne (h : i.fingerprint ≠ j.fingerprint) (found : List Issue) :
    metAt (i :: found) j.fingerprint = metAt found j.fingerprint + 1 := by
  have hfirst : (i.fingerprint == j.fingerprint) = false := by simpa using h
  simp [metAt, List.findIdx_cons, hfirst]

/-- Findings are kept in the order in which their fingerprints are met. -/
theorem keepFirst_pairwise (seen : List String) (found : List Issue) :
    (keepFirst seen found).Pairwise fun i j => metAt found i.fingerprint < metAt found j.fingerprint := by
  induction found generalizing seen with
  | nil => exact .nil
  | cons k found ih =>
    have later {seen : List String} (hseen : k.fingerprint ∈ seen) :
        ∀ j ∈ keepFirst seen found, metAt (k :: found) j.fingerprint = metAt found j.fingerprint + 1 := by
      intro j hj
      refine metAt_cons_of_ne (fun heq => ?_) found
      exact (mem_keepFirst_iff.1 hj).1 (heq ▸ hseen)
    have rest {seen : List String} (hseen : k.fingerprint ∈ seen) :
        (keepFirst seen found).Pairwise fun i j =>
          metAt (k :: found) i.fingerprint < metAt (k :: found) j.fingerprint := by
      refine (ih seen).imp_of_mem fun {i j} hi hj hij => ?_
      rw [later hseen i hi, later hseen j hj]
      exact Nat.succ_lt_succ hij
    rw [keepFirst]
    split
    · next hseen => exact rest (by simpa using hseen)
    · refine List.pairwise_cons.2 ⟨fun j hj => ?_, rest List.mem_cons_self⟩
      rw [metAt_cons_self, later List.mem_cons_self j hj]
      exact Nat.succ_pos _

end First

/-- The first findings of all fingerprints among those found, in order. -/
structure FirstFound (found is : List Issue) : Prop where
  distinct : (is.map Issue.fingerprint).Nodup
  complete : ∀ print, print ∈ is.map Issue.fingerprint ↔ print ∈ found.map Issue.fingerprint
  first : ∀ i, i ∈ is ↔ ∃ before after, found = before ++ i :: after ∧ ∀ j ∈ before, j.fingerprint ≠ i.fingerprint
  ordered : is.Pairwise fun i j => i.rank < j.rank ∨
    i.rank = j.rank ∧ metAt found i.fingerprint < metAt found j.fingerprint

/-- There is only one such list. -/
theorem FirstFound.unique {found is js : List Issue} (hi : FirstFound found is) (hj : FirstFound found js) : is = js := by
  have same : is.Perm js := by
    rw [List.perm_ext_iff_of_nodup hi.distinct.of_map hj.distinct.of_map]
    exact fun i => (hi.first i).trans (hj.first i).symm
  refine same.eq_of_pairwise (fun i j _ _ hij hji => ?_) hi.ordered hj.ordered
  rcases hij with hlt | ⟨heq, hmet⟩
  · rcases hji with hgt | ⟨heq, -⟩
    · exact absurd hgt hlt.asymm
    · exact absurd (heq ▸ hlt) (lt_irrefl _)
  · rcases hji with hgt | ⟨-, hmet'⟩
    · exact absurd (heq ▸ hgt) (lt_irrefl _)
    · exact absurd hmet' hmet.asymm

theorem inOrder_keepFirst (found : List Issue) : FirstFound found (inOrder (keepFirst [] found)) := by
  have met := keepFirst_pairwise [] found
  have hfirst (i : Issue) : i ∈ inOrder (keepFirst [] found) ↔
      ∃ before after, found = before ++ i :: after ∧ ∀ j ∈ before, j.fingerprint ≠ i.fingerprint := by
    rw [mem_inOrder_iff, mem_keepFirst_iff]
    simp
  refine ⟨?_, fun print => ?_, hfirst, pairwise_inOrder met⟩
  · have hkept : ((keepFirst [] found).map Issue.fingerprint).Nodup :=
      List.pairwise_map.2 (met.imp fun hlt heq => absurd (heq ▸ hlt) (Nat.lt_irrefl _))
    exact ((List.mergeSort_perm (keepFirst [] found) Issue.le).map Issue.fingerprint).nodup_iff.2 hkept
  · constructor
    · intro hprint
      obtain ⟨i, hi, rfl⟩ := List.mem_map.1 hprint
      obtain ⟨before, after, rfl, -⟩ := (hfirst i).1 hi
      exact List.mem_map_of_mem (by simp)
    · intro hprint
      obtain ⟨i, hi, rfl⟩ := List.mem_map.1 hprint
      obtain ⟨j, hj, heq⟩ := exists_mem_keepFirst hi List.not_mem_nil
      exact heq ▸ List.mem_map_of_mem (mem_inOrder_iff.2 hj)

/-! ## What analyzers answer -/

/-- What an analyzer answers about a file: it is passed over, it fails, or it reports findings. -/
inductive Answer where
  | passedOver
  | failed (fault : AnalyzerFault)
  | reported (is : List Issue)

/-- The findings in an answer. -/
def Answer.findings : Answer → List Issue
  | .reported is => is
  | _ => []

namespace Analyzer

/-- An analyzer answers about a file, between two states. It is passed over if it does not read the language, without
being asked whether it can run, or else if it cannot run. -/
inductive Answers (h : Host) (a : Analyzer) (file : Path) (s : State) : Answer → State → Prop
  | unsupported : a.supports file = false → Answers h a file s .passedOver s
  | unavailable {t : State} : a.supports file = true → a.available.outcome h s = (.ok false, t) →
      Answers h a file s .passedOver t
  | failed {t u : State} {fault : AnalyzerFault} : a.supports file = true → a.available.outcome h s = (.ok true, t) →
      (a.analyze file).outcome h t = (.error (.analyzer fault), u) → Answers h a file s (.failed fault) u
  | reported {t u : State} {is : List Issue} : a.supports file = true → a.available.outcome h s = (.ok true, t) →
      (a.analyze file).outcome h t = (.ok is, u) → Answers h a file s (.reported is) u

variable {h : Host} {s t : State} {a : Analyzer} {file : Path} {is : List Issue}

theorem outcome_findings_cases (a : Analyzer) (file : Path) :
    (a.findings file).outcome h s =
      if a.supports file = true then
        match a.available.outcome h s with
        | (.ok true, t) => (tolerated ((a.analyze file).outcome h t).1, ((a.analyze file).outcome h t).2)
        | (.ok false, t) => (.ok [], t)
        | (.error f, t) => (.error f, t)
      else (.ok [], s) := by
  split
  · next supported =>
    rcases hready : a.available.outcome h s with ⟨f | _ | _, t⟩
    · unfold findings
      simp only [supported, Bool.not_true, Bool.false_eq_true, if_false]
      rw [outcome_bind_of_error hready]
    · unfold findings
      simp only [supported, Bool.not_true, Bool.false_eq_true, if_false]
      rw [outcome_bind_of_ok hready]
      rfl
    · exact outcome_findings supported hready
  · next unsupported => exact outcome_findings_of_unsupported (by simpa using unsupported)

theorem tolerated_eq_ok_iff {r : Except Failure (List Issue)} :
    tolerated r = .ok is ↔ r = .ok is ∨ is = [] ∧ ∃ fault, r = .error (.analyzer fault) := by
  rcases r with f | js
  · cases f <;> simp [tolerated, eq_comm]
  · simp [tolerated]

/-- The findings that a scan gets from an analyzer are those in its answer. -/
theorem findings_eq_ok_iff :
    (a.findings file).outcome h s = (.ok is, t) ↔ ∃ answer, a.Answers h file s answer t ∧ is = answer.findings := by
  rw [outcome_findings_cases]
  constructor
  · intro hfindings
    split at hfindings
    · next supported =>
      split at hfindings
      · next u hready =>
        obtain ⟨htolerated, rfl⟩ := Prod.mk.inj hfindings
        rcases tolerated_eq_ok_iff.1 htolerated with hok | ⟨rfl, fault, hfault⟩
        · exact ⟨.reported is, .reported supported hready (Prod.ext hok rfl), rfl⟩
        · exact ⟨.failed fault, .failed supported hready (Prod.ext hfault rfl), rfl⟩
      · next u hready =>
        cases hfindings
        exact ⟨.passedOver, .unavailable supported hready, rfl⟩
      · cases hfindings
    · next unsupported =>
      cases hfindings
      exact ⟨.passedOver, .unsupported (by simpa using unsupported), rfl⟩
  · rintro ⟨answer, hanswer, rfl⟩
    cases hanswer with
    | unsupported unsupported => simp [unsupported, Answer.findings]
    | unavailable supported hready => simp [supported, hready, Answer.findings]
    | failed supported hready hfailed => simp [supported, hready, hfailed, tolerated, Answer.findings]
    | reported supported hready hreported => simp [supported, hready, hreported, tolerated, Answer.findings]

/-- The analyzer with a report of nothing in place of its own failures about some files. -/
def excused (a : Analyzer) (which : Path → Bool) : Analyzer :=
  { a with
    analyze := fun file =>
      if which file then
        try a.analyze file
        catch
          | .analyzer _ => pure []
          | f => throw f
      else a.analyze file }

theorem outcome_analyze_excused (a : Analyzer) (which : Path → Bool) (file : Path) :
    ((a.excused which).analyze file).outcome h s =
      if which file then (tolerated ((a.analyze file).outcome h s).1, ((a.analyze file).outcome h s).2)
      else (a.analyze file).outcome h s := by
  unfold excused
  simp only
  split
  · rw [outcome_tryCatch]
    rcases (a.analyze file).outcome h s with ⟨f | is, u⟩
    · cases f <;> rfl
    · rfl
  · rfl

theorem tolerated_tolerated (r : Except Failure (List Issue)) : tolerated (tolerated r) = tolerated r := by
  rcases r with f | is
  · cases f <;> rfl
  · rfl

/-- To a scan, a failure of an analyzer's own is a report of nothing. -/
theorem findings_excused (a : Analyzer) (which : Path → Bool) (file : Path) :
    (a.excused which).findings file = a.findings file := by
  refine Act.eq_of_outcome fun h s => ?_
  have hsupports : (a.excused which).supports file = a.supports file := rfl
  have havailable : (a.excused which).available = a.available := rfl
  rw [outcome_findings_cases, outcome_findings_cases, hsupports, havailable]
  simp only [outcome_analyze_excused]
  cases which file with
  | true => simp only [if_true, tolerated_tolerated]
  | false => simp only [Bool.false_eq_true, if_false]

end Analyzer

/-! ## The findings of a scan -/

namespace Registry

/-- Analyzers asked about files one after another, with the answer of each, lead from a state to another. -/
inductive Answered (h : Host) : State → List (Path × Analyzer) → List Answer → State → Prop
  | nil (s : State) : Answered h s [] [] s
  | cons {s t u : State} {file : Path} {a : Analyzer} {answer : Answer} {pairs : List (Path × Analyzer)}
      {answers : List Answer} :
      a.Answers h file s answer t → Answered h t pairs answers u →
        Answered h s ((file, a) :: pairs) (answer :: answers) u

variable {h : Host} {s u : State} {pairs : List (Path × Analyzer)} {lists : List (List Issue)}

theorem reported_iff_answered :
    Reported h s pairs lists u ↔ ∃ answers, Answered h s pairs answers u ∧ lists = answers.map Answer.findings := by
  constructor
  · intro hr
    induction hr with
    | nil s => exact ⟨[], .nil s, rfl⟩
    | cons ha _ ih =>
      obtain ⟨answer, hanswer, rfl⟩ := Analyzer.findings_eq_ok_iff.1 ha
      obtain ⟨answers, hanswers, rfl⟩ := ih
      exact ⟨answer :: answers, .cons hanswer hanswers, rfl⟩
  · rintro ⟨answers, hanswered, rfl⟩
    induction hanswered with
    | nil s => exact .nil s
    | cons ha _ ih => exact .cons (Analyzer.findings_eq_ok_iff.2 ⟨_, ha, rfl⟩) ih

/-- Analyzers that are those of a list, each perhaps excused about some files. -/
def Excuses (r r' : Registry) : Prop :=
  List.Forall₂ (fun a b => ∃ which, b = a.excused which) r r'

theorem findingsIn_of_excuses {r r' : Registry} (hr : Excuses r r') (file : Path) :
    findingsIn file r' = findingsIn file r := by
  induction hr with
  | nil => rfl
  | cons ha _ ih =>
    obtain ⟨which, rfl⟩ := ha
    rw [findingsIn, findingsIn, ih, Analyzer.findings_excused]

theorem findingsAcross_of_excuses {r r' : Registry} (hr : Excuses r r') (files : List Path) :
    findingsAcross r' files = findingsAcross r files := by
  induction files with
  | nil => rfl
  | cons file files ih => rw [findingsAcross, findingsAcross, ih, findingsIn_of_excuses hr]

theorem scan_of_excuses {r r' : Registry} (hr : Excuses r r') (path : Path) (exclude : Value) :
    r'.scan path exclude = r.scan path exclude := by
  unfold scan
  simp only [findingsAcross_of_excuses hr]

/-- **What a scan gives.** Whatever the analyzers answer about the files of a scan, it gives the first finding of every
fingerprint in their answers, in order, and it gives findings only if they answer. A failure of an analyzer's own has
the effect of a report of nothing: analyzers that report nothing where they would fail give the same scan. -/
theorem scan_first_found (r : Registry) (path : Path) (patterns : List String) (h : Host) (s : State)
    (askable : ∀ f, s.disk.locate path = .error f → f.meansNothing = true) :
    ∃ files, sourceFiles s.disk path (exclusions patterns) = .ok files ∧
      (∀ answers u, Answered h s (r.questions files) answers u →
        ∃ is, (r.scan path (exclusions patterns)).outcome h s = (.ok is, u) ∧
          FirstFound (answers.flatMap Answer.findings) is) ∧
      (∀ is u, (r.scan path (exclusions patterns)).outcome h s = (.ok is, u) →
        ∃ answers, Answered h s (r.questions files) answers u) ∧
      ∀ r', Excuses r r' → r'.scan path (exclusions patterns) = r.scan path (exclusions patterns) := by
  obtain ⟨files, hfiles⟩ := exists_sourceFiles askable patterns
  refine ⟨files, hfiles, fun answers u hanswered => ?_, fun is u hscan => ?_, fun r' hr => scan_of_excuses hr _ _⟩
  · refine ⟨_, scan_eq_ok_iff.2 ⟨files, _, hfiles, reported_iff_answered.2 ⟨answers, hanswered, rfl⟩, rfl⟩, ?_⟩
    rw [← List.flatMap_def]
    exact inOrder_keepFirst _
  · obtain ⟨files', lists, hfiles', hreported, -⟩ := scan_eq_ok_iff.1 hscan
    obtain rfl : files = files' := Except.ok.inj (hfiles.symm.trans hfiles')
    obtain ⟨answers, hanswered, -⟩ := reported_iff_answered.1 hreported
    exact ⟨answers, hanswered⟩

end Registry

/-- An analyzer of C that answers the same about every file. -/
def Analyzer.constant (name : String) (answer : Except AnalyzerFault (List Issue)) : Analyzer where
  name := name
  family := name
  languages := [.cFamily]
  available := pure true
  version := pure ""
  analyze _ := Act.ofExcept (answer.mapError .analyzer)

/-- A finding in a file `main.c`. -/
def inMain (print : String) (severity : Severity) (line : Int) : Issue :=
  { (default : Issue) with severity, fingerprint := print, place := ⟨⟨.here, ["main.c"]⟩, line, 0, ""⟩ }

/-- An analyzer that fails, one with two findings, and one that reports the first of these as a graver one. -/
def crowd : Registry :=
  [.constant "semgrep" (.error .semgrepUnavailable),
    .constant "pattern" (.ok [inMain "x" .low 3, inMain "y" .high 5]),
    .constant "clippy" (.ok [inMain "x" .critical 1])]

/-- The failure counts as a report of nothing, the graver finding comes first, and the third finding is dropped,
although it is the gravest. -/
theorem scan_first_found_crowd :
    (crowd.scan ⟨.here, ["main.c"]⟩ (exclusions ["build/"])).outcome Host.quiet { disk := vendoring } =
        (.ok [inMain "y" .high 5, inMain "x" .low 3], { disk := vendoring }) ∧
      Registry.scan (.constant "semgrep" (.ok []) :: crowd.tail) ⟨.here, ["main.c"]⟩ (exclusions ["build/"]) =
        crowd.scan ⟨.here, ["main.c"]⟩ (exclusions ["build/"]) := by
  obtain ⟨files, hfiles, hgives, -, hexcused⟩ := Registry.scan_first_found crowd ⟨.here, ["main.c"]⟩ ["build/"]
    Host.quiet { disk := vendoring } nofun
  obtain rfl : [⟨.here, ["main.c"]⟩] = files := Except.ok.inj hfiles
  refine ⟨?_, hexcused _ ?_⟩
  · obtain ⟨is, hscan, hfirst⟩ := hgives
      [.failed .semgrepUnavailable, .reported [inMain "x" .low 3, inMain "y" .high 5],
        .reported [inMain "x" .critical 1]] { disk := vendoring }
      (.cons (.failed rfl rfl rfl) (.cons (.reported rfl rfl rfl) (.cons (.reported rfl rfl rfl) (.nil _))))
    have hkept : keepFirst [] [inMain "x" .low 3, inMain "y" .high 5, inMain "x" .critical 1] =
        [inMain "x" .low 3, inMain "y" .high 5] := rfl
    have hordered : inOrder [inMain "x" .low 3, inMain "y" .high 5] = [inMain "y" .high 5, inMain "x" .low 3] := by
      have hle : (inMain "x" .low 3).le (inMain "y" .high 5) = false := by decide +kernel
      simp [inOrder, List.mergeSort, List.MergeSort.Internal.splitInTwo, hle]
    have hlist := inOrder_keepFirst [inMain "x" .low 3, inMain "y" .high 5, inMain "x" .critical 1]
    rw [hkept, hordered] at hlist
    rw [hscan, hlist.unique hfirst]
  · exact .cons ⟨fun _ => true, rfl⟩ (.cons ⟨fun _ => false, rfl⟩ (.cons ⟨fun _ => false, rfl⟩ .nil))

end FixGate
