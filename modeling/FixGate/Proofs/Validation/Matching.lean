import FixGate.Proofs.Files.Endings
import FixGate.Validation

/-!
# Findings that are the same

A finding is looked for among fresh ones. It is found again if one of these has its fingerprint, or has its category,
a file that may be the same and a line that is near enough. The first such finding counts, so none is lost where
more lines count as near, or where there are more findings.

* `Matches` : a fresh finding is the same as a given one
* `stillFound_eq_none_iff`, `stillFound_eq_some_iff`, `stillFound_mono` : whether one is found, which one, and where
  one stays found
* `still_found_iff` : all of these, with what it means for two files to be the same
-/

namespace FixGate

variable {fresh more : List Issue} {sought i : Issue} {t t' : Int}

/-- A fresh finding has the fingerprint of a given one, or its category, its file and a line near its own. -/
def Matches (t : Int) (sought fresh : Issue) : Prop :=
  (fresh.fingerprint ≠ "" ∧ fresh.fingerprint = sought.fingerprint) ∨
    (fresh.category = sought.category ∧ Path.sameFile fresh.file sought.file = true ∧
      sought.line - t ≤ fresh.line ∧ fresh.line ≤ sought.line + t)

theorem sameFinding_iff : sameFinding t sought i = true ↔ Matches t sought i := by
  have hnear : ((i.line - sought.line).natAbs : Int) ≤ t ↔ sought.line - t ≤ i.line ∧ i.line ≤ sought.line + t := by
    omega
  simp only [sameFinding, Matches, Bool.or_eq_true, Bool.and_eq_true, Bool.not_eq_true', String.isEmpty_eq_false_iff,
    beq_iff_eq, decide_eq_true_eq, hnear, and_assoc]

theorem Matches.mono (h : Matches t sought i) (ht : t ≤ t') : Matches t' sought i := by
  rcases h with h | ⟨hcategory, hfile, hlow, hhigh⟩
  · exact .inl h
  · exact .inr ⟨hcategory, hfile, by omega, by omega⟩

/-- A finding is gone exactly if no fresh one matches it. -/
theorem stillFound_eq_none_iff : stillFound fresh sought t = none ↔ ∀ i ∈ fresh, ¬ Matches t sought i := by
  simp only [stillFound, List.find?_eq_none, sameFinding_iff]

/-- What is found is the first fresh finding that matches. -/
theorem stillFound_eq_some_iff :
    stillFound fresh sought t = some i ↔
      Matches t sought i ∧ ∃ before after, fresh = before ++ i :: after ∧ ∀ j ∈ before, ¬ Matches t sought j := by
  simp only [stillFound, List.find?_eq_some_iff_append, sameFinding_iff, Bool.not_eq_true', Bool.eq_false_iff, ne_eq]

/-- What is found stays found where more lines are near, or more findings are fresh. -/
theorem stillFound_mono (ht : t ≤ t') (sub : fresh ⊆ more) (found : stillFound fresh sought t ≠ none) :
    stillFound more sought t' ≠ none := by
  rw [ne_eq, stillFound_eq_none_iff] at found ⊢
  intro gone
  exact found fun i hi matched => gone i (sub hi) (matched.mono ht)

/-- **A finding is gone exactly if nothing that is the same is left.** It is found again exactly if a fresh finding
matches it, and then the first one that does is found; what is found stays found with a greater tolerance, or with
more findings. Whether two files may be the same does not depend on their order, and for paths as they are read, other
than the current directory and those with two slashes at their start, it means that the parts of one are the last
parts of the other. -/
theorem still_found_iff (fresh : List Issue) (sought : Issue) (t : Int) :
    (stillFound fresh sought t = none ↔ ∀ i ∈ fresh, ¬ Matches t sought i) ∧
    (∀ i, stillFound fresh sought t = some i ↔
      Matches t sought i ∧ ∃ before after, fresh = before ++ i :: after ∧ ∀ j ∈ before, ¬ Matches t sought j) ∧
    (∀ (t' : Int) (more : List Issue), t ≤ t' → fresh ⊆ more → stillFound fresh sought t ≠ none →
      stillFound more sought t' ≠ none) ∧
    (∀ p q : Path, Path.sameFile p q = Path.sameFile q p) ∧
    ∀ p q : Path, p.Plain → q.Plain →
      (Path.sameFile p q = true ↔ p.components <:+ q.components ∨ q.components <:+ p.components) :=
  ⟨stillFound_eq_none_iff, fun _ => stillFound_eq_some_iff, fun _ _ => stillFound_mono, Path.sameFile_comm,
    fun _ _ hp hq => hp.sameFile_iff hq⟩

/-- A finding of unchecked memory in a line of a file. -/
def leakIn (file : String) (line : Int) : Issue :=
  { (default : Issue) with place := ⟨Path.ofText file, line, 0, ""⟩ }

/-- A finding that moved down is found again where its file is given from the root, and behind one in another file. -/
theorem still_found_iff_moved :
    stillFound [leakIn "/w/src/barfoo.c" 12, leakIn "/w/src/foo.c" 16] (leakIn "src/foo.c" 12) 5 =
        some (leakIn "/w/src/foo.c" 16) ∧
      stillFound [leakIn "/w/src/foo.c" 16, leakIn "/w/src/barfoo.c" 12] (leakIn "src/foo.c" 12) 7 ≠ none ∧
      Path.sameFile (Path.ofText "/w/src/foo.c") (Path.ofText "src/foo.c") = true ∧
      Path.sameFile (Path.ofText "/w/src/barfoo.c") (Path.ofText "src/foo.c") = false := by
  obtain ⟨-, hsome, hmono, -, hfile⟩ :=
    still_found_iff [leakIn "/w/src/barfoo.c" 12, leakIn "/w/src/foo.c" 16] (leakIn "src/foo.c" 12) 5
  have plain_sought : (Path.ofText "src/foo.c").Plain := ⟨Path.normal_ofText _, by decide, by decide⟩
  have same : Path.sameFile (Path.ofText "/w/src/foo.c") (Path.ofText "src/foo.c") = true :=
    (hfile _ _ ⟨Path.normal_ofText _, by decide, by decide⟩ plain_sought).2 (.inr ⟨["/", "w"], by decide +kernel⟩)
  have other : Path.sameFile (Path.ofText "/w/src/barfoo.c") (Path.ofText "src/foo.c") = false := by
    rw [Bool.eq_false_iff, ne_eq, hfile _ _ ⟨Path.normal_ofText _, by decide, by decide⟩ plain_sought]
    decide +kernel
  have found : stillFound [leakIn "/w/src/barfoo.c" 12, leakIn "/w/src/foo.c" 16] (leakIn "src/foo.c" 12) 5 =
      some (leakIn "/w/src/foo.c" 16) := by
    refine (hsome _).2 ⟨.inr ⟨rfl, same, by decide, by decide⟩, [leakIn "/w/src/barfoo.c" 12], [], rfl, ?_⟩
    intro j hj
    rw [List.mem_singleton.1 hj]
    rintro (⟨hprint, -⟩ | ⟨-, hsame, -⟩)
    · exact hprint rfl
    · exact absurd (other.symm.trans hsame) (by decide)
  refine ⟨found, hmono 7 _ (by decide) ?_ (by rw [found]; exact Option.some_ne_none _), same, other⟩
  exact fun i hi => by simpa [or_comm] using hi

end FixGate
