import FixGate.Proofs.Analysis.Pattern
import FixGate.Proofs.Repair.Applied
import FixGate.Proofs.Repair.Validated
import FixGate.Proofs.Validation.Verdict

/-!
# An accepted change removes its finding

For a finding of the rules on single lines the analyzer that looks for it again can always run, and it reads
the file while the candidate stands in it. So what passes has no line near the finding that the rules would
flag for its category. What is accepted is what passed, as long as the file is what the repair read.

* `Validator.not_flagged_of_passed` : what passes has no flagged line near the finding
* `Repair.unharmed_stays` : a repair leaves its file
* `Repair.accepted_not_flagged` : what is accepted has none
-/

namespace FixGate

open Act Text

variable {v : Validator} {h : Host} {s t u : State} {i : Issue} {candidate : String}
  {verdict : Validation} {n : Nat}

/-- A candidate that passes for a finding of the rules on single lines has no line near it that they flag for
its category, if its file can be read. -/
theorem Validator.not_flagged_of_passed (harmless : h.Harmless)
    (readable : ∀ n, h.refuse n (.read i.file) = none)
    (held : v.registry.get? "pattern" = some Analyzer.pattern) (reported : i.analyzer = "pattern")
    (hvalid : (v.validate i.file candidate (some i)).outcome h s = (.ok verdict, u))
    (hpass : verdict.passed = true)
    (near : (((n : Int) - i.line).natAbs : Int) ≤ v.settings.lineTolerance) :
    ¬ Flagged builtinRules i.file (scannedText (Utf8.encode candidate)) i.category n := by
  rcases validate_cases v h s i.file candidate (some i) with ⟨-, hno⟩ | ⟨t, c, w, -, -, heq⟩
  · rw [hvalid] at hno
    cases hpass.symm.trans (hno verdict rfl)
  rw [heq] at hvalid
  obtain ⟨_, placed, _, -, hwrite, hjudge, -⟩ := whileInPlace_eq_ok_iff.1 hvalid
  obtain ⟨words, hwords⟩ := exists_words_of_judge hjudge
  obtain ⟨hcontent, -⟩ := content_of_writeText hwrite
  have cleared := ((judge_passed_iff hwords hjudge).1.1 hpass).2 i rfl
  have hplaced : (placed.started h ⟨words, some c.dir, t.tools.timeout⟩).disk.content i.file =
      .ok (Utf8.encode candidate) := by
    rw [State.started, harmless.run]
    exact hcontent
  generalize placed.started h ⟨words, some c.dir, t.tools.timeout⟩ = compiled at cleared hplaced
  have hreport := Analyzer.outcome_pattern (readable compiled.diskSteps) hplaced
  rcases (cleared_iff_of_chosen (Registry.chosen_pattern held reported none compiled)).1 cleared with
    ⟨f, _, hfail⟩ | ⟨fresh, _, hfresh, gone⟩
  · rw [hfail] at hreport
    rcases hreport with hok | ⟨_, -, _, _, -, herror⟩
    · cases hok
    · cases herror
  · rw [hfresh] at hreport
    rcases hreport with hok | ⟨_, -, _, _, -, herror⟩
    · rw [Except.ok.inj (Prod.mk.inj hok).1] at gone
      exact not_flagged_of_stillFound gone near
    · cases herror

namespace Repair

variable {m : Model} {settings : Settings} {c : Change} {bytes : List UInt8}

/-- Whatever its parts are, a repair keeps what always holds. -/
theorem Stays.trivial (r : Repair) (i : Issue) (h : Host) : r.Stays i h fun _ _ => True where
  refl _ := True.intro
  trans _ _ _ _ _ := True.intro
  plan _ _ _ := True.intro
  implement _ _ _ := True.intro
  review _ _ _ _ := True.intro
  validate _ _ := True.intro
  steps _ _ := True.intro
  drawId _ := True.intro

/-- A repair by a model leaves its file. -/
theorem unharmed_stays (m : Model) (settings : Settings) (i : Issue) (bytes : List UInt8)
    (harmless : h.Harmless) (hv : ∀ a ∈ v.registry, a.Outsourced) (lets : h.LetsRestore i.file) :
    Stays ⟨.ofModel m v, settings⟩ i h fun s t => Unharmed i.file bytes s → Unharmed i.file bytes t where
  refl _ := id
  trans _ _ _ st tu := tu ∘ st
  plan code feedback s unharmed := unharmed.of_idle (m.plan_idle harmless i code feedback s)
  implement code p s unharmed := unharmed.of_idle (m.implement_idle harmless code p i s)
  review code p newCode s unharmed := unharmed.of_idle (m.review_idle harmless code p newCode i s)
  validate candidate _ := v.unharmed_validate harmless hv lets candidate (some i)
  steps _ _ := id
  drawId _ := id

/-- **An accepted change removes its finding.** Let a repair make a change for a finding of the rules on
single lines, in a file of text that can be read, with a validator that has these rules. The repair leaves
the file; and when the change is accepted while the file is as it was read, then no line of the file within
the tolerance of the finding is flagged for its category any more. -/
theorem accepted_not_flagged (m : Model) (v : Validator) (settings : Settings) (h : Host) (s : State)
    (i : Issue) (maxRetries : Option Int) (note : Option String) (bytes : List UInt8) (text : String)
    (held : v.registry.get? "pattern" = some Analyzer.pattern) (reported : i.analyzer = "pattern")
    (harmless : h.Harmless) (readable : ∀ n, h.refuse n (.read i.file) = none)
    (hc : s.disk.content i.file = .ok bytes) (htext : Utf8.decodeStrict bytes = some text)
    (c : Change) (u : State)
    (hfix : (fixWithNote ⟨.ofModel m v, settings⟩ i maxRetries note).outcome h s = (.ok c, u)) :
    c.file = i.file ∧
      ((∀ a ∈ v.registry, a.Outsourced) → h.LetsRestore i.file →
        u.disk.content i.file = .ok bytes) ∧
      ∀ (l : Ledger) (h' : Host) (s' : State) (a : Applied) (l' : Ledger) (u' : State),
        s'.disk.content c.file = .ok bytes →
        (l.stage c).accept.outcome h' s' = (.ok (a, l'), u') →
          ∃ b, u'.disk.content i.file = .ok b ∧ ∀ n : Nat,
            (((n : Int) - i.line).natAbs : Int) ≤ v.settings.lineTolerance →
              ¬ Flagged builtinRules i.file (scannedText b) i.category n := by
  have hdecode : Source.decode bytes = text := Utf8.decodeDropping_of_decodeStrict htext
  obtain ⟨b, t, w, hb, -, validated, -⟩ := exists_validated_of_fixWithNote (Stays.trivial _ i h) hfix
  obtain rfl : bytes = b := Except.ok.inj (hc.symm.trans hb)
  rw [hdecode] at validated
  obtain ⟨x, hupdated, hvalid⟩ := validated.candidate
  refine ⟨validated.file, fun hv lets => ?_, fun l h' s' a l' u' hsame haccept => ?_⟩
  · obtain ⟨_, t, w, -, kept, validated, rfl⟩ :=
      exists_validated_of_fixWithNote (unharmed_stays m settings i bytes harmless hv lets) hfix
    obtain ⟨x, -, hvalid⟩ := validated.candidate
    exact (compiled_of_passed harmless lets hv (kept fun _ => hc) hvalid validated.passed).2.1
  · rcases Ledger.accept_cases (h := h') (l.stage c) s' with ⟨f, n, t, hf, -⟩ | ⟨c', a', w', hc', hok, acc⟩
    · cases haccept.symm.trans hf
    obtain rfl : c = c' := Option.some.inj hc'
    cases haccept.symm.trans hok
    obtain ⟨b, hb, hbefore⟩ := acc.text
    obtain rfl : bytes = b := Except.ok.inj (hsame.symm.trans hb)
    obtain rfl : text = a.before := Option.some.inj (htext.symm.trans hbefore)
    refine ⟨_, validated.file ▸ acc.content hupdated, fun n near => ?_⟩
    exact v.not_flagged_of_passed harmless readable held reported hvalid validated.passed near

/-! ## A block that is removed -/

/-- A package whose source is an unsafe block. -/
def blockPackage : State :=
  { disk := ⟨⟨[(["Cargo.toml"], .file []), (["a.rs"], .file (Utf8.encode "unsafe \x7b\x7d\n"))]⟩, []⟩ }

/-- Repairs by a model, with the validator that has the rules on single lines. -/
def ruledRepair : Repair := ⟨.ofModel ⟨.null, 0⟩ ruledValidator, {}⟩

/-- An outcome with a known result. -/
theorem exists_outcome_of_fst {α : Type} {out : Except Failure α × State} {x : α} (hx : out.1 = .ok x) :
    ∃ u, out = (.ok x, u) :=
  ⟨out.2, Prod.ext hx rfl⟩

/-- The source is repaired, and the change accepted. -/
theorem exists_accepted_block :
    ∃ c u a l' u', (ruledRepair.fixWithNote unsafeFinding (some 1) none).outcome answering blockPackage =
        (.ok c, u) ∧
      ((⟨1, none, []⟩ : Ledger).stage c).accept.outcome answering blockPackage = (.ok (a, l'), u') := by
  obtain ⟨c, hc, hok⟩ := exists_of_toOption (y := true)
    (x := ((ruledRepair.fixWithNote unsafeFinding (some 1) none).outcome answering blockPackage).1)
    (f := fun c => (((⟨1, none, []⟩ : Ledger).stage c).accept.outcome answering blockPackage).1.isOk)
    (by decide +kernel)
  obtain ⟨u, hfix⟩ := exists_outcome_of_fst hc
  rcases haccept : ((⟨1, none, []⟩ : Ledger).stage c).accept.outcome answering blockPackage with
    ⟨f | ⟨a, l'⟩, u'⟩
  · rw [haccept] at hok
    cases hok
  · exact ⟨c, u, a, l', u', hfix, haccept⟩

/-- The first line of the source is flagged before the change, and is not after it. -/
theorem accepted_not_flagged_block :
    Flagged builtinRules packageSource (scannedText (Utf8.encode "unsafe \x7b\x7d\n")) .unsafeCode 1 ∧
      ∃ c u a l' u' b, (ruledRepair.fixWithNote unsafeFinding (some 1) none).outcome answering
          blockPackage = (.ok c, u) ∧
        ((⟨1, none, []⟩ : Ledger).stage c).accept.outcome answering blockPackage = (.ok (a, l'), u') ∧
        u'.disk.content packageSource = .ok b ∧
        ¬ Flagged builtinRules packageSource (scannedText b) .unsafeCode 1 := by
  constructor
  · refine ⟨0, "unsafe \x7b\x7d", ⟨"unsafe-block", Pattern.blockOf "unsafe",
      "unsafe block bypasses Rust's memory-safety guarantees", .medium, .unsafeCode, [.rust]⟩, rfl, ?_⟩
    refine ⟨by decide +kernel, by decide +kernel, by simp [builtinRules], rfl, by decide +kernel, ?_⟩
    exact Option.isSome_iff_exists.1 (by decide +kernel)
  · obtain ⟨c, u, a, l', u', hfix, haccept⟩ := exists_accepted_block
    obtain ⟨hfile, -, hclear⟩ := accepted_not_flagged ⟨.null, 0⟩ ruledValidator {} answering blockPackage
      unsafeFinding (some 1) none (Utf8.encode "unsafe \x7b\x7d\n") "unsafe \x7b\x7d\n" rfl rfl
      answering_harmless (fun _ => rfl) (by rfl) (by decide +kernel) c u hfix
    obtain ⟨b, hb, hnone⟩ := hclear ⟨1, none, []⟩ answering blockPackage a l' u' (by rw [hfile]; rfl) haccept
    exact ⟨c, u, a, l', u', b, hfix, haccept, hb, hnone 1 (by decide)⟩

end Repair

end FixGate
