import FixGate.Analysis.Registry
import FixGate.Proofs.Analysis.Analyzers

/-!
# What a scan collects

A scan asks every analyzer about every file, one after another. It succeeds if each of them gives findings,
perhaps none, and what it reports is the first finding of every fingerprint among all of them. It fails with the
first failure that is not an analyzer's own.

* `mem_keepFirst_iff`, `exists_mem_keepFirst` : the findings that are kept, and the fingerprints
* `language_of_mem_sourceFiles` : the files of a scan are sources
* `Analyzer.tolerated`, `Analyzer.outcome_findings` : what a scan makes of the work of an analyzer
* `Registry.Reported` : analyzers asked about files one after another, with the findings of each
* `Registry.scan_eq_ok_iff`, `Registry.scan_eq_error_iff` : the findings of a scan, and its failures
-/

namespace FixGate

open Act

/-! ## The first finding of every fingerprint -/

section Kept

variable {i : Issue} {is : List Issue} {seen : List String}

/-- The first finding of its fingerprint is the head of a list, or the first one behind a head of another. -/
theorem first_cons_iff {k : Issue} {rest : List Issue} :
    (∃ before after, k :: rest = before ++ i :: after ∧ ∀ j ∈ before, j.fingerprint ≠ i.fingerprint) ↔
      i = k ∨ k.fingerprint ≠ i.fingerprint ∧
        ∃ before after, rest = before ++ i :: after ∧ ∀ j ∈ before, j.fingerprint ≠ i.fingerprint := by
  constructor
  · rintro ⟨before, after, heq, hbefore⟩
    cases before with
    | nil =>
      cases heq
      exact .inl rfl
    | cons b before =>
      cases heq
      rw [List.forall_mem_cons] at hbefore
      exact .inr ⟨hbefore.1, before, after, rfl, hbefore.2⟩
  · rintro (rfl | ⟨hne, before, after, rfl, hbefore⟩)
    · exact ⟨[], rest, rfl, by simp⟩
    · exact ⟨k :: before, after, rfl, List.forall_mem_cons.2 ⟨hne, hbefore⟩⟩

/-- A finding is kept if no finding before it has its fingerprint, and it was not seen before. -/
theorem mem_keepFirst_iff :
    i ∈ keepFirst seen is ↔ i.fingerprint ∉ seen ∧
      ∃ before after, is = before ++ i :: after ∧ ∀ j ∈ before, j.fingerprint ≠ i.fingerprint := by
  induction is generalizing seen with
  | nil => simp [keepFirst]
  | cons k rest ih =>
    rw [keepFirst, first_cons_iff]
    split
    · next hseen =>
      have hk : k.fingerprint ∈ seen := by simpa using hseen
      rw [ih]
      constructor
      · rintro ⟨hnew, hfirst⟩
        exact ⟨hnew, .inr ⟨fun heq => hnew (heq ▸ hk), hfirst⟩⟩
      · rintro ⟨hnew, rfl | ⟨-, hfirst⟩⟩
        · exact absurd hk hnew
        · exact ⟨hnew, hfirst⟩
    · next hseen =>
      have hk : k.fingerprint ∉ seen := by simpa using hseen
      rw [List.mem_cons, ih, List.mem_cons, not_or]
      constructor
      · rintro (rfl | ⟨⟨hne, hnew⟩, hfirst⟩)
        · exact ⟨hk, .inl rfl⟩
        · exact ⟨hnew, .inr ⟨Ne.symm hne, hfirst⟩⟩
      · rintro ⟨hnew, rfl | ⟨hne, hfirst⟩⟩
        · exact .inl rfl
        · exact .inr ⟨⟨Ne.symm hne, hnew⟩, hfirst⟩

/-- Every fingerprint that was not seen before is kept. -/
theorem exists_mem_keepFirst (hi : i ∈ is) (new : i.fingerprint ∉ seen) :
    ∃ j ∈ keepFirst seen is, j.fingerprint = i.fingerprint := by
  have found : (is.find? (·.fingerprint = i.fingerprint)).isSome := List.find?_isSome.2 ⟨i, hi, by simp⟩
  obtain ⟨j, hj⟩ := Option.isSome_iff_exists.1 found
  obtain ⟨hsame, before, after, rfl, hbefore⟩ := List.find?_eq_some_iff_append.1 hj
  have hsame : j.fingerprint = i.fingerprint := of_decide_eq_true hsame
  refine ⟨j, mem_keepFirst_iff.2 ⟨hsame ▸ new, before, after, rfl, fun k hk => ?_⟩, hsame⟩
  simpa [hsame] using hbefore k hk

theorem mem_inOrder_iff : i ∈ inOrder is ↔ i ∈ is :=
  List.mem_mergeSort

end Kept

/-! ## The files of a scan -/

section Files

variable {d : Disk} {dir path file : Path} {exclude : Value} {files : List Path}

theorem language_of_mem_keptSources {places : List (List String × Entry)}
    (hfiles : keptSources exclude dir places = .ok files) (hfile : file ∈ files) :
    Language.ofPath file ≠ .unknown := by
  induction places generalizing files with
  | nil =>
    cases hfiles
    cases hfile
  | cons x rest ih =>
    obtain ⟨names, e⟩ := x
    unfold keptSources at hfiles
    cases e with
    | dir => exact ih hfiles hfile
    | file bytes =>
      simp only at hfiles
      split at hfiles
      · exact ih hfiles hfile
      · next hlanguage =>
        rcases hentries : exclude.elements with f | entries
        · rw [hentries] at hfiles
          cases hfiles
        rw [hentries] at hfiles
        rcases hout : excludedBy ("/".intercalate names) entries with f | out
        · simp only [bind, Except.bind, hout] at hfiles
          cases hfiles
        simp only [bind, Except.bind, hout] at hfiles
        split at hfiles
        · exact ih hfiles hfile
        · rcases hrest : keptSources exclude dir rest with f | others
          · rw [hrest] at hfiles
            cases hfiles
          · rw [hrest] at hfiles
            cases hfiles
            rcases List.mem_cons.1 hfile with rfl | hfile
            · simpa using hlanguage
            · exact ih hrest hfile

/-- The files of a scan are of languages that are known. -/
theorem language_of_mem_sourceFiles (hfiles : sourceFiles d path exclude = .ok files) (hfile : file ∈ files) :
    Language.ofPath file ≠ .unknown := by
  unfold sourceFiles at hfiles
  split at hfiles
  · split at hfiles
    · cases hfiles
      cases hfile
    · next hlanguage =>
      cases hfiles
      rw [List.mem_singleton.1 hfile]
      simpa using hlanguage
  · next l _ =>
    rcases hkept : keptSources exclude path (d.tree.below l) with f | kept
    · rw [hkept] at hfiles
      cases hfiles
    · rw [hkept] at hfiles
      cases hfiles
      exact language_of_mem_keptSources hkept (List.mem_mergeSort.1 hfile)
  · split at hfiles
    · cases hfiles
      cases hfile
    · cases hfiles

end Files

/-! ## The work of an analyzer -/

namespace Analyzer

/-- What a scan makes of the work of an analyzer: a failure of its own counts as no finding. -/
def tolerated : Except Failure (List Issue) → Except Failure (List Issue)
  | .error (.analyzer _) => .ok []
  | r => r

theorem outcome_findings {a : Analyzer} {file : Path} {h : Host} {s t : State} (supported : a.supports file = true)
    (ready : a.available.outcome h s = (.ok true, t)) :
    (a.findings file).outcome h s =
      (tolerated ((a.analyze file).outcome h t).1, ((a.analyze file).outcome h t).2) := by
  unfold findings
  simp only [supported, Bool.not_true, Bool.false_eq_true, if_false]
  rw [outcome_bind_of_ok ready]
  simp only [Bool.not_true, Bool.false_eq_true, if_false]
  rw [outcome_tryCatch]
  rcases (a.analyze file).outcome h t with ⟨f | is, u⟩
  · cases f <;> rfl
  · rfl

theorem outcome_findings_of_unsupported {a : Analyzer} {file : Path} {h : Host} {s : State}
    (unsupported : a.supports file = false) : (a.findings file).outcome h s = (.ok [], s) := by
  unfold findings
  simp only [unsupported, Bool.not_false, if_true]
  rfl

end Analyzer

/-! ## Analyzers asked one after another -/

namespace Registry

/-- Analyzers asked about files one after another, with the findings of each, lead from a state to another. -/
inductive Reported (h : Host) : State → List (Path × Analyzer) → List (List Issue) → State → Prop
  | nil (s : State) : Reported h s [] [] s
  | cons {s t u : State} {file : Path} {a : Analyzer} {is : List Issue} {pairs : List (Path × Analyzer)}
      {lists : List (List Issue)} :
      (a.findings file).outcome h s = (.ok is, t) → Reported h t pairs lists u →
        Reported h s ((file, a) :: pairs) (is :: lists) u

/-- An analyzer asked about a file fails, after others that did not. -/
def Breaks (h : Host) (s : State) (pairs : List (Path × Analyzer)) (f : Failure) (u : State) : Prop :=
  ∃ before file a after lists t, pairs = before ++ (file, a) :: after ∧ Reported h s before lists t ∧
    (a.findings file).outcome h t = (.error f, u)

variable {r : Registry} {h : Host} {s t u : State} {pairs : List (Path × Analyzer)} {lists : List (List Issue)}
  {is : List Issue} {f : Failure} {file path : Path} {exclude : Value}

theorem Reported.keeps {R : State → State → Prop} (refl : ∀ s, R s s) (trans : ∀ s t u, R s t → R t u → R s u)
    (asked : ∀ x ∈ pairs, Keeps h R (x.2.findings x.1)) (hr : Reported h s pairs lists u) : R s u := by
  induction hr with
  | nil s => exact refl s
  | @cons s t u file a _ _ _ ha _ ih =>
    have first := asked _ List.mem_cons_self s
    rw [ha] at first
    exact trans s t u first (ih fun x hx => asked x (List.mem_cons_of_mem _ hx))

/-- Each of the analyzers was asked between the state before and the one after. -/
theorem Reported.exists_of_mem {R : State → State → Prop} {a : Analyzer} (refl : ∀ s, R s s)
    (trans : ∀ s t u, R s t → R t u → R s u) (asked : ∀ x ∈ pairs, Keeps h R (x.2.findings x.1))
    (hr : Reported h s pairs lists u) (ha : (file, a) ∈ pairs) :
    ∃ t is w, R s t ∧ (a.findings file).outcome h t = (.ok is, w) ∧ R w u ∧ is ∈ lists := by
  induction hr with
  | nil s => cases ha
  | @cons s t u file' b is pairs lists hb hrest ih =>
    have later : ∀ x ∈ pairs, Keeps h R (x.2.findings x.1) := fun x hx => asked x (List.mem_cons_of_mem _ hx)
    rcases List.mem_cons.1 ha with heq | ha
    · cases heq
      exact ⟨s, is, t, refl s, hb, hrest.keeps refl trans later, List.mem_cons_self⟩
    · obtain ⟨t', js, w, ht, hw, hu, hjs⟩ := ih later ha
      have first := asked _ List.mem_cons_self s
      rw [hb] at first
      exact ⟨t', js, w, trans _ _ _ first ht, hw, hu, List.mem_cons_of_mem _ hjs⟩

/-- The findings of analyzers asked about files one after another. -/
def ask : List (Path × Analyzer) → Act (List Issue)
  | [] => pure []
  | (file, a) :: rest => do
    let is ← a.findings file
    let js ← ask rest
    pure (is ++ js)

theorem ask_append (xs ys : List (Path × Analyzer)) :
    ask (xs ++ ys) = (do
      let is ← ask xs
      let js ← ask ys
      pure (is ++ js)) := by
  induction xs with
  | nil => simp [ask]
  | cons x xs ih => simp only [List.cons_append, ask, ih, bind_assoc, pure_bind, List.append_assoc]

theorem findingsIn_eq_ask (file : Path) (as : List Analyzer) :
    findingsIn file as = ask (as.map fun a => (file, a)) := by
  induction as with
  | nil => rfl
  | cons a as ih => rw [findingsIn, ih, List.map_cons, ask]

/-- All questions of a scan: each file for each analyzer. -/
def questions (r : Registry) (files : List Path) : List (Path × Analyzer) :=
  files.flatMap fun file => r.map fun a => (file, a)

theorem findingsAcross_eq_ask (r : Registry) (files : List Path) :
    findingsAcross r files = ask (r.questions files) := by
  induction files with
  | nil => rfl
  | cons file files ih =>
    rw [findingsAcross, ih, findingsIn_eq_ask]
    exact (ask_append _ _).symm

theorem ask_eq_ok_iff :
    (ask pairs).outcome h s = (.ok is, u) ↔ ∃ lists, Reported h s pairs lists u ∧ is = lists.flatten := by
  induction pairs generalizing s is u with
  | nil =>
    constructor
    · rintro ⟨⟩
      exact ⟨[], .nil s, rfl⟩
    · rintro ⟨lists, ⟨⟩, rfl⟩
      rfl
  | cons x pairs ih =>
    obtain ⟨file, a⟩ := x
    rw [ask, outcome_bind_eq_ok_iff]
    constructor
    · rintro ⟨js, t, ha, hrest⟩
      obtain ⟨ks, v, hks, hpure⟩ := outcome_bind_eq_ok_iff.1 hrest
      obtain ⟨lists, hlists, rfl⟩ := ih.1 hks
      cases hpure
      exact ⟨js :: lists, .cons ha hlists, rfl⟩
    · rintro ⟨_, hreported, rfl⟩
      cases hreported with
      | @cons _ t _ _ _ js _ lists ha hrest =>
        refine ⟨js, t, ha, ?_⟩
        rw [outcome_bind_of_ok (ih.2 ⟨lists, hrest, rfl⟩)]
        rfl

theorem ask_eq_error_iff :
    (ask pairs).outcome h s = (.error f, u) ↔ Breaks h s pairs f u := by
  induction pairs generalizing s with
  | nil =>
    constructor
    · rintro ⟨⟩
    · rintro ⟨before, file, a, after, lists, t, heq, -⟩
      simp at heq
  | cons x pairs ih =>
    obtain ⟨file, a⟩ := x
    rw [ask, outcome_bind]
    rcases ha : (a.findings file).outcome h s with ⟨g | is, t⟩
    · constructor
      · rintro ⟨⟩
        exact ⟨[], file, a, pairs, [], s, rfl, .nil s, ha⟩
      · rintro ⟨before, file', a', after, lists, v, heq, hbefore, hfails⟩
        cases hbefore with
        | nil =>
          cases heq
          rw [ha] at hfails
          exact hfails
        | cons ha' hrest =>
          cases heq
          rw [ha] at ha'
          cases ha'
    · simp only
      rw [outcome_bind]
      constructor
      · intro hrest
        rcases hask : (ask pairs).outcome h t with ⟨g | js, v⟩
        · rw [hask] at hrest
          obtain ⟨before, file', a', after, lists, w, heq, hbefore, hfails⟩ := ih.1 (hask.trans hrest)
          exact ⟨(file, a) :: before, file', a', after, is :: lists, w, by rw [heq]; rfl, .cons ha hbefore, hfails⟩
        · rw [hask] at hrest
          cases hrest
      · rintro ⟨before, file', a', after, lists, w, heq, hbefore, hfails⟩
        cases hbefore with
        | nil =>
          cases heq
          rw [ha] at hfails
          cases hfails
        | cons ha' hrest =>
          cases heq
          rw [ha] at ha'
          cases ha'
          rw [ih.2 ⟨_, file', a', after, _, w, rfl, hrest, hfails⟩]

/-! ## A scan -/

theorem outcome_scan (r : Registry) (path : Path) (exclude : Value) (s : State) :
    (r.scan path exclude).outcome h s =
      match sourceFiles s.disk path exclude with
      | .error f => (.error f, s)
      | .ok files =>
        match (ask (r.questions files)).outcome h s with
        | (.error f, u) => (.error f, u)
        | (.ok is, u) => (.ok (inOrder (keepFirst [] is)), u) := by
  unfold scan
  rw [outcome_disk_bind, outcome_bind, outcome_ofExcept]
  cases sourceFiles s.disk path exclude with
  | error f => rfl
  | ok files =>
    simp only
    rw [findingsAcross_eq_ask, outcome_bind]
    rcases (ask (r.questions files)).outcome h s with ⟨f | is, u⟩ <;> rfl

/-- A scan succeeds if all analyzers give findings, and reports the first one of every fingerprint. -/
theorem scan_eq_ok_iff :
    (r.scan path exclude).outcome h s = (.ok is, u) ↔
      ∃ files lists, sourceFiles s.disk path exclude = .ok files ∧ Reported h s (r.questions files) lists u ∧
        is = inOrder (keepFirst [] lists.flatten) := by
  rw [outcome_scan]
  cases sourceFiles s.disk path exclude with
  | error f => simp
  | ok files =>
    simp only [Except.ok.injEq, exists_and_left, exists_eq_left']
    constructor
    · intro hscan
      rcases hask : (ask (r.questions files)).outcome h s with ⟨f | js, v⟩
      · rw [hask] at hscan
        cases hscan
      · rw [hask] at hscan
        cases hscan
        obtain ⟨lists, hlists, rfl⟩ := ask_eq_ok_iff.1 hask
        exact ⟨lists, hlists, rfl⟩
    · rintro ⟨lists, hlists, rfl⟩
      rw [ask_eq_ok_iff.2 ⟨lists, hlists, rfl⟩]

/-- A scan fails if its files cannot be found, or with the failure of an analyzer. -/
theorem scan_eq_error_iff :
    (r.scan path exclude).outcome h s = (.error f, u) ↔
      (sourceFiles s.disk path exclude = .error f ∧ u = s) ∨
        ∃ files, sourceFiles s.disk path exclude = .ok files ∧ Breaks h s (r.questions files) f u := by
  rw [outcome_scan]
  cases sourceFiles s.disk path exclude with
  | error g => simp [eq_comm]
  | ok files =>
    simp only [reduceCtorEq, false_and, false_or, Except.ok.injEq, exists_eq_left']
    rw [← ask_eq_error_iff]
    rcases (ask (r.questions files)).outcome h s with ⟨g | js, v⟩
    · rfl
    · simp

end Registry

end FixGate
