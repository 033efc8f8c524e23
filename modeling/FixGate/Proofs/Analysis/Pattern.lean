import FixGate.Proofs.Act.Files
import FixGate.Proofs.Analysis.Selection
import FixGate.Validation

/-!
# What the rules on single lines find

A line of a file is flagged for a category if it is no comment and a rule of the category for the language
of the file matches in it. The findings of the rules are exactly the flagged lines, each at its number, so a
finding that is not seen again leaves no line flagged for its category near it.

* `Flagged` : a line that a rule of a category matches in
* `exists_mem_patternFindings_iff` : the findings in a text are its flagged lines
* `not_flagged_of_stillFound` : where a finding is not seen again, no line near it is flagged
* `Analyzer.outcome_pattern` : the report of the analyzer
-/

namespace FixGate

open Act

variable {rules : List PatternRule} {rule : PatternRule} {file : Path} {text line : String}
  {lines : List String} {category : Category} {number n : Nat} {i sought : Issue} {h : Host} {s : State}

/-! ## Flagged lines -/

/-- A line of a text in a file, counted from one, is no comment, and one of some rules of a category for the
language of the file matches in it. -/
structure Flagged (rules : List PatternRule) (file : Path) (text : String) (category : Category) (n : Nat) :
    Prop where
  line : ∃ j line rule, n = j + 1 ∧ (Text.splitFeeds text)[j]? = some line ∧
    Source.isComment (Text.stripChars line.toList) = false ∧ rule ∈ rules ∧ rule.category = category ∧
    rule.languages.contains (Language.ofPath file) = true ∧
    ∃ found, Pattern.findMatch rule.recognise line = some found

theorem category_withFingerprint (i : Issue) : i.withFingerprint.category = i.category := by
  unfold Issue.withFingerprint
  split <;> rfl

theorem place_withFingerprint (i : Issue) : i.withFingerprint.place = i.place := by
  unfold Issue.withFingerprint
  split <;> rfl

/-- A rule finds something in a line if it is one for the language of the file and matches. What it finds
has its category, and the place of the line. -/
theorem finding?_eq_some (hi : rule.finding? file number line = some i) :
    rule.languages.contains (Language.ofPath file) = true ∧
      (∃ found, Pattern.findMatch rule.recognise line = some found) ∧ i.category = rule.category ∧
      i.file = file ∧ i.line = number := by
  unfold PatternRule.finding? at hi
  split_ifs at hi with hlanguage
  split at hi
  · cases hi
  · next found hfound =>
    cases hi
    exact ⟨by simpa using hlanguage, ⟨found, hfound⟩, category_withFingerprint _,
      congrArg SourcePlace.file (place_withFingerprint _), congrArg SourcePlace.line (place_withFingerprint _)⟩

theorem exists_finding (language : rule.languages.contains (Language.ofPath file) = true)
    {found : Pattern.Match} (hfound : Pattern.findMatch rule.recognise line = some found) (number : Nat) :
    ∃ i, rule.finding? file number line = some i := by
  unfold PatternRule.finding?
  rw [hfound, language]
  exact ⟨_, rfl⟩

/-- The findings in a line are those of the rules, unless it is a comment. -/
theorem mem_lineFindings_iff :
    i ∈ lineFindings rules file number line ↔
      Source.isComment (Text.stripChars line.toList) = false ∧
        ∃ rule ∈ rules, rule.finding? file number line = some i := by
  unfold lineFindings
  split_ifs with hcomment
  · simp [hcomment]
  · simp [hcomment]

/-- The findings in lines are those in each of them, at its number. -/
theorem mem_linesFindings_iff :
    i ∈ linesFindings rules file number lines ↔
      ∃ j line, lines[j]? = some line ∧ i ∈ lineFindings rules file (number + j) line := by
  induction lines generalizing number with
  | nil => simp [linesFindings]
  | cons l ls ih =>
    rw [linesFindings, List.mem_append, ih]
    constructor
    · rintro (hi | ⟨j, line, hline, hi⟩)
      · exact ⟨0, l, rfl, hi⟩
      · exact ⟨j + 1, line, hline, by rwa [← Nat.add_assoc, Nat.add_right_comm]⟩
    · rintro ⟨j, line, hline, hi⟩
      cases j with
      | zero =>
        cases hline
        exact .inl hi
      | succ j => exact .inr ⟨j, line, hline, by rwa [Nat.add_right_comm, Nat.add_assoc]⟩

/-- The findings in a text are those of the rules in its lines, counted from one, comments left out. -/
theorem mem_patternFindings_iff :
    i ∈ patternFindings rules file text ↔
      ∃ j line, (Text.splitFeeds text)[j]? = some line ∧
        Source.isComment (Text.stripChars line.toList) = false ∧
        ∃ rule ∈ rules, rule.finding? file (1 + j) line = some i := by
  unfold patternFindings
  simp only [mem_linesFindings_iff, mem_lineFindings_iff]

theorem file_of_mem_patternFindings (hi : i ∈ patternFindings rules file text) : i.file = file := by
  obtain ⟨j, line, -, -, rule, -, hfinding⟩ := mem_patternFindings_iff.1 hi
  exact (finding?_eq_some hfinding).2.2.2.1

/-- The findings in a text are its flagged lines. -/
theorem exists_mem_patternFindings_iff :
    (∃ i ∈ patternFindings rules file text, i.category = category ∧ i.line = n) ↔
      Flagged rules file text category n := by
  constructor
  · rintro ⟨i, hi, rfl, hline⟩
    obtain ⟨j, line, hj, hcomment, rule, hrule, hfinding⟩ := mem_patternFindings_iff.1 hi
    obtain ⟨language, hfound, hcategory, -, hnumber⟩ := finding?_eq_some hfinding
    exact ⟨j, line, rule, by omega, hj, hcomment, hrule, hcategory.symm, language, hfound⟩
  · rintro ⟨j, line, rule, rfl, hj, hcomment, hrule, rfl, language, found, hfound⟩
    obtain ⟨i, hfinding⟩ := exists_finding language hfound (1 + j)
    obtain ⟨-, -, hcategory, -, hnumber⟩ := finding?_eq_some hfinding
    exact ⟨i, mem_patternFindings_iff.2 ⟨j, line, hj, hcomment, rule, hrule, hfinding⟩, hcategory, by omega⟩

/-! ## A finding that is not seen again -/

theorem sameFile_self (p : Path) : Path.sameFile p p = true := by
  simp [Path.sameFile]

/-- A finding of the same category in the same file is the same one, if their lines differ by no more than
the tolerance. -/
theorem sameFinding_of_near {tolerance : Int} (hcategory : i.category = sought.category)
    (hfile : i.file = sought.file) (near : ((i.line - sought.line).natAbs : Int) ≤ tolerance) :
    sameFinding tolerance sought i = true := by
  unfold sameFinding
  rw [hcategory, hfile, sameFile_self, beq_self_eq_true, decide_eq_true near, Bool.and_self, Bool.and_self,
    Bool.or_true]

/-- Where a finding is not seen again, no line near it is flagged for its category. -/
theorem not_flagged_of_stillFound {tolerance : Int}
    (gone : stillFound (patternFindings rules sought.file text) sought tolerance = none)
    (near : (((n : Int) - sought.line).natAbs : Int) ≤ tolerance) :
    ¬ Flagged rules sought.file text sought.category n := by
  intro flagged
  obtain ⟨i, hi, hcategory, hline⟩ := exists_mem_patternFindings_iff.2 flagged
  have same := sameFinding_of_near hcategory (file_of_mem_patternFindings hi) (hline ▸ near)
  exact List.find?_eq_none.1 gone i hi same

/-! ## The analyzer -/

/-- A fingerprint is derived, or its text has no bytes. -/
theorem checkFingerprint_cases (i : Issue) :
    i.checkFingerprint = .ok () ∨ ∃ reason, i.checkFingerprint = .error (.unencodable reason) := by
  unfold Issue.checkFingerprint Failure.checkText
  split
  · exact .inl rfl
  · exact .inr ⟨_, rfl⟩

theorem outcome_checkFingerprints (is : List Issue) (s : State) :
    (is.forM fun i => Act.ofExcept i.checkFingerprint : Act PUnit).outcome h s = (.ok (), s) ∨
      ∃ i ∈ is, ∃ reason, i.checkFingerprint = .error (.unencodable reason) ∧
        (is.forM fun i => Act.ofExcept i.checkFingerprint : Act PUnit).outcome h s =
          (.error (.unencodable reason), s) := by
  induction is with
  | nil => exact .inl rfl
  | cons i is ih =>
    rw [List.forM]
    rcases checkFingerprint_cases i with hok | ⟨reason, herror⟩
    · rw [hok, outcome_ofExcept_ok_bind]
      rcases ih with hrest | ⟨j, hj, hreason⟩
      · exact .inl hrest
      · exact .inr ⟨j, List.mem_cons_of_mem _ hj, hreason⟩
    · rw [herror, outcome_ofExcept_error_bind]
      exact .inr ⟨i, List.mem_cons_self, reason, herror, rfl⟩

/-- The analyzer reports the findings in the text of a file, unless the fingerprint of one cannot be derived. -/
theorem Analyzer.outcome_pattern {bytes : List UInt8} (granted : h.refuse s.diskSteps (.read file) = none)
    (hc : s.disk.content file = .ok bytes) :
    (Analyzer.pattern.analyze file).outcome h s =
        (.ok (patternFindings builtinRules file (scannedText bytes)), s.steps (s.diskSteps + 1)) ∨
      ∃ i ∈ patternFindings builtinRules file (scannedText bytes), ∃ reason u,
        i.checkFingerprint = .error (.unencodable reason) ∧
          (Analyzer.pattern.analyze file).outcome h s = (.error (.unencodable reason), u) := by
  have hread := readBytes_of_content granted hc
  unfold Analyzer.pattern Analyzer.patternWith
  simp only
  rw [outcome_bind_of_ok (outcome_tryCatch_of_ok hread _)]
  rcases outcome_checkFingerprints (h := h) (patternFindings builtinRules file (scannedText bytes))
    (s.steps (s.diskSteps + 1)) with hok | ⟨i, hi, reason, hreason, herror⟩
  · left
    rw [outcome_bind_of_ok hok]
    rfl
  · right
    rw [outcome_bind_of_error herror]
    exact ⟨i, hi, reason, _, hreason, rfl⟩

/-- A registry that has the analyzer chooses it for its findings. -/
theorem Registry.chosen_pattern {r : Registry} (held : r.get? "pattern" = some Analyzer.pattern)
    (hi : i.analyzer = "pattern") (language : Option Language) (s : State) :
    r.Chosen h (familiesFor i language) Analyzer.pattern s s := by
  refine ⟨[], "pattern", usualFamilies (language.getD (Language.ofPath i.file)), s, ?_, .nil s, held, rfl⟩
  unfold familiesFor
  rw [hi]
  rfl

end FixGate
