import FixGate.Proofs.Ledger.Steps
import FixGate.Proofs.Repair.Generation
import FixGate.Proofs.Repair.Restores

/-!
# What was validated is what is applied

The candidate that is validated and the text that is written later are made apart from each other: one from
the text that the repair read at its beginning, faults dropped, and one from the text that stands in the
file when the change is accepted. They agree for a file of text, whatever its line ends are, since the
window of the change holds what the repair saw there, and the repair leaves the file.

The file is replaced by way of a temporary file beside it. The name of that file is longer than the name of
the copy that a validation makes, so there are sources that can be validated, but not replaced.

* `Compiled` : a validation that passed, with the bytes that its compiler was started on
* `Repair.updated_of_makes` : the change makes of the text what the attempt made of it
* `Repair.exists_compiled` : a change that a repair makes was compiled in the last call
* `Repair.accept_writes_compiled` : accepting it writes what was compiled
-/

namespace FixGate

open Act FileTree Text

variable {h : Host} {s t u : State} {r : Repair} {i : Issue} {c : Change} {bytes : List UInt8}
  {text : String}

/-! ## The last call of a repair -/

/-- A validation for a finding led from a state to another and passed with a verdict. Its compiler was
started while the file of the finding held some bytes. -/
structure Compiled (v : Validator) (i : Issue) (h : Host) (t w : State) (verdict : Validation)
    (b : List UInt8) : Prop where
  candidate : ∃ candidate,
    (v.validate i.file candidate (some i)).outcome h t = (.ok verdict, w)
  passed : verdict.passed = true
  start : ∃ run rest, w.runs = t.runs ++ run :: rest ∧
    (⟨run.2, t.disk.here⟩ : Disk).content i.file = .ok b ∧
    ∃ tool command, v.Checks h t i.file tool command ∧ Validator.Starts tool command run.2 run

namespace Repair

variable {m : Model} {v : Validator} {settings : Settings}

/-- The change that an attempt makes turns the text into what the attempt had validated. -/
theorem updated_of_makes {w : Source.Window} {a : Attempt} {content : String} (fits : w.Fits content)
    (proper : a.Proper content w) (makes : a.Makes i w c) :
    ∃ feedback candidate, a = .validated feedback c.plan c.newCode c.review candidate (.ok c.validation) ∧
      c.file = i.file ∧ Ledger.updated c content = .ok candidate := by
  rcases a with _ | _ | _ | ⟨feedback, plan, code, review, candidate, f | verdict⟩
  · cases makes
  · cases makes
  · cases makes
  · cases makes
  obtain ⟨-, hfile, hfirst, hlast, hold, rfl, rfl, rfl, rfl⟩ := makes
  obtain ⟨-, -, -, hsplice⟩ := proper
  refine ⟨feedback, candidate, rfl, hfile, ?_⟩
  have current : Ledger.isCurrent c content = true := by
    unfold Ledger.isCurrent
    rw [hold, hfirst, hlast, fits.code]
    exact beq_self_eq_true _
  unfold Ledger.updated
  rw [if_pos current, hfirst, hlast, hsplice]

/-- A validation that passes was compiled, if its file is unharmed before. -/
theorem compiled_of_passed (harmless : h.Harmless) (lets : h.LetsRestore i.file)
    (hv : ∀ a ∈ v.registry, a.Outsourced) {candidate : String} {verdict : Validation}
    (unharmed : Unharmed i.file bytes t)
    (hvalid : (v.validate i.file candidate (some i)).outcome h t = (.ok verdict, u))
    (hpass : verdict.passed = true) :
    Compiled v i h t u verdict (Utf8.encode candidate) ∧ u.disk.content i.file = .ok bytes ∧
      Failure.checkText candidate = .ok () := by
  have hd : t.disk.entryAt (copyOf i.file) ≠ some .dir := by
    intro hd
    have hno := (Validator.validate_of_dir (v := v) harmless hv candidate (some i) hd).2
    rw [hvalid] at hno
    rw [hno _ rfl] at hpass
    cases hpass
  obtain ⟨_, _, started, hout, hrestored, hruns, hfirst, hstarted, -⟩ := Validator.validate_spec v
    candidate (some i) hv (unharmed hd) hd (spares_of_harmless harmless _ i.file) lets
  obtain ⟨rfl, rfl⟩ := Prod.mk.inj (hvalid.symm.trans hout)
  obtain ⟨hsome, hcandidate⟩ := hstarted _ rfl hpass
  obtain ⟨run, rest, rfl⟩ := List.exists_cons_of_ne_nil hsome
  obtain ⟨hplaced, hchecks⟩ := hfirst run rfl
  exact ⟨⟨⟨candidate, hvalid⟩, hpass, run, rest, hruns, hplaced, hchecks⟩, hrestored.content,
    hcandidate⟩

/-- A change that a repair makes was compiled in the last call, and fits the text that the file still
has: what was compiled is what the change makes of it. -/
theorem exists_compiled (harmless : h.Harmless) (lets : h.LetsRestore i.file)
    (hv : ∀ a ∈ v.registry, a.Outsourced) (before : 0 ≤ settings.contextBefore)
    (after : 0 ≤ settings.contextAfter) (hc : s.disk.content i.file = .ok bytes)
    (htext : Utf8.decodeStrict bytes = some text) {maxRetries : Option Int} {note : Option String}
    (hfix : (fixWithNote ⟨.ofModel m v, settings⟩ i maxRetries note).outcome h s = (.ok c, u)) :
    ∃ n es t w x, Exchanged ⟨.ofModel m v, settings⟩ i h (s.steps n) es t ∧
      Compiled v i h t w c.validation (Utf8.encode x) ∧ u = { w with ids := w.ids + 1 } ∧
      c.file = i.file ∧ u.disk.content i.file = .ok bytes ∧ Ledger.updated c text = .ok x ∧
      Failure.checkText x = .ok () := by
  obtain ⟨n, b, w, as, a, t, hb, fits, tried, hpass, makes, hu⟩ :=
    exists_attempt_of_fixWithNote (r := ⟨.ofModel m v, settings⟩) before after hfix
  obtain rfl : bytes = b := Except.ok.inj (hc.symm.trans hb)
  rw [show Source.decode bytes = text from Utf8.decodeDropping_of_decodeStrict htext] at fits tried
  obtain ⟨feedback, candidate, rfl, hfile, hupdated⟩ :=
    updated_of_makes fits (tried.proper a (by simp)) makes
  obtain ⟨es, t₀, hbefore, own, hvalid⟩ := tried.exists_last
  have unharmed : Unharmed i.file bytes t₀ :=
    unharmed_of_exchanged harmless hv lets own hbefore fun _ => hc
  obtain ⟨compiled, hcontent, hcandidate⟩ := compiled_of_passed harmless lets hv unharmed hvalid
    (Bool.and_eq_true_iff.1 hpass).2
  exact ⟨n, es, t₀, t, candidate, hbefore, compiled, hu, hfile, by rw [hu]; exact hcontent, hupdated,
    hcandidate⟩

/-! ## Accepting the change -/

/-- **What was validated is what is applied.** A change that a repair makes of a file of text can be
accepted while the file is as it was, unless no temporary file can be made beside it. Then the file holds
the bytes that stood in it when the compiler was started in the last call of the repair, a validation that
passed, and the text before is kept. Otherwise accepting fails for this reason and nothing happens. -/
theorem accept_writes_compiled (m : Model) (v : Validator) (settings : Settings) (h : Host) (s : State)
    (i : Issue) (maxRetries : Option Int) (note : Option String) (bytes : List UInt8) (text : String)
    (hv : ∀ a ∈ v.registry, a.Outsourced) (before : 0 ≤ settings.contextBefore)
    (after : 0 ≤ settings.contextAfter) (harmless : h.Harmless) (lets : h.LetsRestore i.file)
    (hc : s.disk.content i.file = .ok bytes) (htext : Utf8.decodeStrict bytes = some text)
    (c : Change) (u : State)
    (hfix : (fixWithNote ⟨.ofModel m v, settings⟩ i maxRetries note).outcome h s = (.ok c, u)) :
    ∃ n es t w b, Exchanged ⟨.ofModel m v, settings⟩ i h (s.steps n) es t ∧
      Compiled v i h t w c.validation b ∧ u = { w with ids := w.ids + 1 } ∧
      c.file = i.file ∧ u.disk.content i.file = .ok bytes ∧
      ∀ (l : Ledger) (h' : Host) (s' : State), h'.steady → s'.disk.content c.file = .ok bytes →
        (∀ temp, placeBeside s'.disk c.file = .ok temp →
          ∃ a u', (l.stage c).accept.outcome h' s' = (.ok (a, (l.stage c).enter a), u') ∧
            u'.disk.content c.file = .ok b ∧ a.change = c ∧ a.before = text) ∧
        ∀ f, placeBeside s'.disk c.file = .error f →
          (l.stage c).accept.outcome h' s' = (.error f, s'.steps (s'.diskSteps + 1)) := by
  obtain ⟨n, es, t, w, x, exch, compiled, hu, hfile, hcontent, hupdated, hx⟩ :=
    exists_compiled harmless lets hv before after hc htext hfix
  refine ⟨n, es, t, w, _, exch, compiled, hu, hfile, hcontent, fun l h' s' steady hsame => ⟨?_, ?_⟩⟩
  · intro temp htemp
    obtain ⟨a, u', haccept, acc, hbefore, hwritten⟩ := Ledger.exists_accepted_of_steady
      (l := l.stage c) steady rfl hsame htext hupdated hx htemp
    exact ⟨a, u', haccept, hwritten, acc.change, hbefore⟩
  · intro f hf
    exact Ledger.accept_of_placeBeside_error (l := l.stage c) steady rfl hsame htext hupdated hf

end Repair

/-! ## A model that answers, and a name that leaves no room -/

/-- Surroundings in which programs end well, and the model answers its three roles in turn. -/
def answering : Host where
  hasKey := true
  hasPackage := true
  run _ _ t := (.ended 0 none none, t)
  ask n _ t := (.blocks [("text", ["[\"edit\"]", "y", "\x7b\"passed\": true\x7d"].getD n "")], t)
  refuse _ _ := none
  clock _ := ""

theorem answering_steady : answering.steady := fun _ _ => rfl

theorem answering_harmless : answering.Harmless := ⟨fun _ _ _ => rfl, fun _ _ _ => rfl⟩

/-- A validator without analyzers. -/
def compiling : Validator := ⟨none, {}, []⟩

/-- A package of one source of one line. -/
def packageOf (name : String) : State :=
  { disk := ⟨⟨[([name], .file [0x78, 0x0a]), (["Cargo.toml"], .file [])]⟩, []⟩ }

/-- A name that a source and its copy can have. -/
structure SourceName (name : String) : Prop where
  suffix : Path.suffixOf name = ".rs"
  plain : Path.nameFault? name = none
  plainCopy : Path.nameFault? (name ++ copySuffix) = none
  short : Path.isTooLongName name = false
  shortCopy : Path.isTooLongName (name ++ copySuffix) = false
  dots : name ≠ ".."

theorem SourceName.language {name : String} (hn : SourceName name) :
    Language.ofPath ⟨.root, [name]⟩ = .rust := by
  unfold Language.ofPath Path.suffix Path.name
  rw [List.getLast?_singleton, Option.getD_some, hn.suffix]
  decide

theorem append_copySuffix_ne_dots (name : String) : name ++ copySuffix ≠ ".." := by
  intro hdots
  have hlength := congrArg String.length hdots
  rw [String.length_append, show copySuffix.length = 11 from rfl, show "..".length = 2 from rfl]
    at hlength
  omega

variable {name : String}

/-- No directory stands beside the source. -/
theorem get?_packageOf_ne_dir (name : String) {l : Location} (hl : l ≠ []) :
    (packageOf name).disk.tree.get? l ≠ some .dir := by
  rw [get?_of_ne_nil _ hl]
  simp only [packageOf, List.lookup_cons, List.lookup_nil]
  split
  · simp
  · split <;> simp

/-- The source leads to its place. -/
theorem SourceName.place (hn : SourceName name) :
    (packageOf name).disk.locateNew ⟨.here, [name]⟩ = .ok [name] :=
  Disk.locateNew_name rfl hn.plain hn.short hn.dots (get?_packageOf_ne_dir name (by simp))

/-- So does its copy. -/
theorem SourceName.placeCopy (hn : SourceName name) :
    (packageOf name).disk.locateNew (copyOf ⟨.here, [name]⟩) = .ok [name ++ copySuffix] :=
  Disk.locateNew_name rfl hn.plainCopy hn.shortCopy (append_copySuffix_ne_dots name)
    (get?_packageOf_ne_dir name (by simp))

theorem SourceName.content (hn : SourceName name) :
    (packageOf name).disk.content ⟨.here, [name]⟩ = .ok [0x78, 0x0a] :=
  (Disk.content_eq_ok_iff_of_locateNew hn.place).2 (by simp [packageOf, get?])

theorem SourceName.reaches (hn : SourceName name) :
    (packageOf name).disk.reaches ⟨.here, [name]⟩ = .ok true := by
  rw [Disk.reaches_of_locateNew hn.place]
  simp [packageOf, get?]

/-- The command that checks a package in a directory. -/
def cargoCheck (dir : Path) : Invocation :=
  ⟨[Tools.cargoPath {}, .text "check", .text "--message-format=json"], dir⟩

/-- The toolchain of the source finds the manifest of the package. -/
theorem resolve_packageOf (hn : SourceName name) :
    (Toolchain.resolve (packageOf name).disk (.rust {}) ⟨.here, [name]⟩).2 =
      .ok (cargoCheck ⟨.root, []⟩) := by
  have hchecked : (packageOf name).disk.resolveChecked ⟨.here, [name]⟩ = .ok ⟨.root, [name]⟩ := by
    unfold Disk.resolveChecked Path.obstacle?
    simp [Path.obstacleFrom, hn.plain, Disk.resolve_name (d := (packageOf name).disk) rfl hn.dots]
  have hmanifest : (packageOf name).disk.reaches ⟨.root, ["Cargo.toml"]⟩ = .ok true := by
    have hfault : (⟨.root, ["Cargo.toml"]⟩ : Path).fault? = none := by decide
    have hshort : Path.isTooLongName "Cargo.toml" = false := by decide
    obtain ⟨e, he⟩ : ∃ e, (packageOf name).disk.tree.get? ["Cargo.toml"] = some e := by
      simp only [packageOf, get?, List.lookup_cons]
      split <;> simp
    simp [Disk.reaches, Disk.lookUp, Disk.locate, hfault, Path.fromRoot, Path.isAbsolute, walk, hshort, he,
      bind, Except.bind, pure, Except.pure]
  have hnearest : (packageOf name).disk.nearestWith ⟨.here, [name]⟩ "Cargo.toml" =
      .ok (some ⟨.root, []⟩) := by
    have hpath : (⟨.root, []⟩ : Path).join (Path.ofText "Cargo.toml") = ⟨.root, ["Cargo.toml"]⟩ := by
      decide
    unfold Disk.nearestWith
    rw [hchecked]
    simp [Path.parents, bind, Except.bind, List.findM?, hpath, hmanifest, pure, Except.pure]
  unfold Toolchain.resolve Toolchain.inProject
  simp only
  rw [hnearest]
  rfl

/-- A candidate that compiles passes where there is no analyzer. -/
theorem judge_compiling (dir file : Path) (i : Issue) (s : State) :
    ∃ verdict, ((compiling.judge (.rust {}) (cargoCheck dir) file
        (some i)).outcome answering s).1 = .ok verdict ∧ verdict.passed = true := by
  obtain ⟨report, hreport, hsuccess⟩ : ∃ report,
      Toolchain.report (.rust {}) ⟨0, "", "", false⟩ = .ok report ∧ report.success = true :=
    ⟨_, rfl, rfl⟩
  obtain ⟨t, hcheck⟩ : ∃ t, (Validator.check (.rust {}) (cargoCheck dir)).outcome answering s =
      (.ok report, t) := by
    obtain ⟨t, hrun⟩ : ∃ t, (run (cargoCheck dir).args (some dir) (Tools.timeout {})).outcome answering s =
        (.ok ⟨0, "", "", false⟩, t) := outcome_run rfl rfl
    refine ⟨t, ?_⟩
    unfold Validator.check
    refine (outcome_bind_of_ok (outcome_tryCatch_of_ok hrun _) _).trans ?_
    rw [outcome_ofExcept, hreport]
  unfold Validator.judge
  rw [outcome_bind_of_ok (outcome_tryCatch_of_ok (outcome_map_of_ok hcheck _) _)]
  unfold Validator.verdictAfter
  simp only [hsuccess, Bool.not_true, Bool.false_eq_true, if_false]
  unfold Validator.checkFinding Registry.forIssue
  rw [outcome_bind, show compiling.registry = [] from rfl, Registry.outcome_firstAvailable_nil]
  exact ⟨_, rfl, rfl⟩

/-- The source passes its validation with any text that can be written. -/
theorem exists_validate_packageOf (hn : SourceName name) {candidate : String}
    (htext : Failure.checkText candidate = .ok ()) (hd : s.disk = (packageOf name).disk)
    (ht : s.toolchains = []) (i : Issue) :
    ∃ verdict u, (compiling.validate ⟨.here, [name]⟩ candidate (some i)).outcome answering s =
      (.ok verdict, u) ∧ verdict.passed = true := by
  have hsource := hd ▸ hn.content
  have hcopy := hd ▸ hn.placeCopy
  have hreach := hd ▸ hn.reaches
  obtain ⟨s₁, htool, hdisk⟩ : ∃ s₁, (compiling.toolchainFor ⟨.here, [name]⟩).outcome answering s =
      (.ok (some (.rust {})), s₁) ∧ s₁.disk = s.disk := by
    have hkey : s.disk.resolve ⟨.here, [name]⟩ = ⟨.root, [name]⟩ := by
      rw [hd]
      exact Disk.resolve_name rfl hn.dots
    unfold Validator.toolchainFor
    rw [outcome_get_bind]
    simp only [ht, List.lookup_nil, hkey]
    unfold Toolchain.detect
    rw [hn.language, outcome_bind]
    exact ⟨_, rfl, rfl⟩
  obtain ⟨s₂, hresolve, hdisk'⟩ : ∃ s₂, (Validator.resolve (.rust {}) ⟨.here, [name]⟩).outcome
      answering s₁ = (.ok (cargoCheck ⟨.root, []⟩), s₂) ∧ s₂.disk = s.disk := by
    have hcommand := resolve_packageOf hn
    rw [← hd, ← hdisk] at hcommand
    unfold Validator.resolve Validator.keepToolchain
    rw [outcome_disk_bind, outcome_modify_bind]
    simp only [outcome_ofExcept, hcommand]
    exact ⟨_, rfl, hdisk⟩
  rw [← hdisk'] at hsource hcopy
  obtain ⟨w, u, hplaced⟩ := Validator.whileInPlace_of_steady (h := answering) answering_steady
    (Validator.judge_outsourced (v := compiling) (fun _ ha => absurd ha List.not_mem_nil)
      (.rust {}) (cargoCheck ⟨.root, []⟩)
      ⟨.here, [name]⟩ (some i)) (spares_of_harmless answering_harmless _ _) hsource hcopy htext
  obtain ⟨verdict, hverdict, hpass⟩ := judge_compiling ⟨.root, []⟩ ⟨.here, [name]⟩ i w
  refine ⟨verdict, u, ?_, hpass⟩
  unfold Validator.validate
  rw [outcome_disk_bind, outcome_bind, outcome_ofExcept, hreach]
  simp only [Bool.not_true, Bool.false_eq_true, if_false]
  rw [outcome_bind, htool]
  simp only
  rw [outcome_bind_of_ok (outcome_tryCatch_of_ok (outcome_map_of_ok hresolve _) _)]
  simp only
  rw [hplaced, hverdict]

/-- A question was asked, and nothing else changed that a repair looks at. -/
structure Asked (s t : State) : Prop where
  disk : t.disk = s.disk
  toolchains : t.toolchains = s.toolchains
  queries : t.queries.length = s.queries.length + 1

theorem outcome_complete_answering (m : Model) (role : Role) (prompt : String) {x : String}
    (hx : ["[\"edit\"]", "y", "\x7b\"passed\": true\x7d"].getD s.queries.length "" = x)
    (some_text : isBlankText (textOf [("text", x)]) = false) :
    ∃ t, (m.complete role prompt).outcome answering s = (.ok (textOf [("text", x)]), t) ∧ Asked s t :=
  ⟨_, Model.outcome_complete rfl (by rw [← hx]; rfl) some_text, rfl, rfl, by simp⟩

theorem outcome_plan_answering (m : Model) (i : Issue) (code : String) (feedback : Option String)
    (hs : s.queries.length = 0) :
    ∃ p t, (m.plan i code feedback).outcome answering s = (.ok p, t) ∧ p.steps.isEmpty = false ∧
      Asked s t := by
  obtain ⟨t, ht, asked⟩ := outcome_complete_answering m .planner (planPrompt i code feedback)
    (x := "[\"edit\"]") (by rw [hs]; rfl) (by decide)
  obtain ⟨p, hp, hsteps⟩ : ∃ p, planOf (textOf [("text", "[\"edit\"]")]) = .ok p ∧
      p.steps.isEmpty = false := exists_of_toOption (by decide +kernel)
  refine ⟨p, t, ?_, hsteps, asked⟩
  unfold Model.plan
  rw [outcome_bind_of_ok ht, outcome_ofExcept, hp]

theorem outcome_implement_answering (m : Model) (code : String) (p : Plan) (i : Issue)
    (hs : s.queries.length = 1) :
    ∃ t, (m.implement code p i).outcome answering s = (.ok "y", t) ∧ Asked s t := by
  obtain ⟨t, ht, asked⟩ := outcome_complete_answering m .coder (codePrompt i code p) (x := "y")
    (by rw [hs]; rfl) (by decide)
  obtain ⟨written, hcode, rfl⟩ : ∃ written, newCodeOf (textOf [("text", "y")]) = .ok written ∧
      id written = "y" := exists_of_toOption (by rfl)
  refine ⟨t, ?_, asked⟩
  unfold Model.implement
  rw [outcome_bind_of_ok ht, outcome_ofExcept, hcode]

theorem outcome_review_answering (m : Model) (code : String) (p : Plan) (newCode : String) (i : Issue)
    (hs : s.queries.length = 2) :
    ∃ review t, (m.review code p newCode i).outcome answering s = (.ok review, t) ∧
      review.passed = true ∧ Asked s t := by
  obtain ⟨t, ht, asked⟩ := outcome_complete_answering m .reviewer (reviewPrompt i code p newCode)
    (x := "\x7b\"passed\": true\x7d") (by rw [hs]; rfl) (by decide)
  obtain ⟨review, hreview, hpass⟩ : ∃ review,
      reviewOf (textOf [("text", "\x7b\"passed\": true\x7d")]) = .ok review ∧ review.passed = true :=
    exists_of_toOption (by decide +kernel)
  refine ⟨review, t, ?_, hpass, asked⟩
  unfold Model.review
  rw [outcome_bind_of_ok ht, outcome_ofExcept, hreview]

namespace Repair

/-- Repairs by a model, with the validator without analyzers. -/
def modelled : Repair := ⟨.ofModel ⟨.null, 0⟩ compiling, {}⟩

/-- The first line of the source is its window. -/
theorem windowFor_packageOf (hn : SourceName name) :
    ∃ n, (modelled.windowFor (findingIn name)).outcome answering (packageOf name) =
      (.ok ("x\n", ⟨(findingIn name).file, 1, 1, "x"⟩), (packageOf name).steps n) := by
  have hsource : (packageOf name).disk.content (findingIn name).file = .ok [0x78, 0x0a] :=
    hn.content
  have htext : Source.decode [0x78, 0x0a] = "x\n" := by decide
  have hspan : Source.windowOf modelled.context (findingIn name).file "x\n"
      (findingIn name).line = .ok ⟨(findingIn name).file, 1, 1, "x"⟩ := by
    have hlines : (Source.linesOf "x\n".toList).map Source.bare = [['x']] := rfl
    have hbounds : Source.bounds modelled.context [['x']] 0 = (0, 0) := by decide
    have hcode : String.ofList (['\n'].intercalate (Source.span [['x']] 0 1)) = "x" := rfl
    have hline : (findingIn name).line = 1 := rfl
    unfold Source.windowOf
    simp only [hlines, hline]
    rw [if_neg (by decide), if_neg (by decide), show (1 - 1 : Int).toNat = 0 from rfl, hbounds]
    simp only [Int.zero_add, hcode]
  have hread (n : Nat) : ∃ m, (readSource (findingIn name).file).outcome answering
      ((packageOf name).steps n) = (.ok "x\n", (packageOf name).steps m) :=
    ⟨n + 1, htext ▸ readSource_of_content (s := (packageOf name).steps n) (answering_steady _ _) hsource⟩
  obtain ⟨n, hfirst⟩ := hread (packageOf name).diskSteps
  obtain ⟨m, hsecond⟩ := hread n
  refine ⟨m, ?_⟩
  unfold windowFor readWindow
  refine outcome_tryCatch_of_ok ?_ _
  refine (outcome_bind_of_ok hfirst _).trans ((outcome_bind_of_ok hsecond _).trans ?_)
  rw [outcome_bind, outcome_ofExcept, hspan]
  rfl

/-- An attempt to replace it makes a change. -/
theorem exists_attempt_packageOf (hn : SourceName name) (hd : s.disk = (packageOf name).disk)
    (ht : s.toolchains = []) (hq : s.queries.length = 0) (file : Path) (feedback : Option String) :
    ∃ c t, (modelled.attempt ⟨findingIn name, "x\n", ⟨file, 1, 1, "x"⟩, 1, 1⟩ feedback).outcome
      answering s = (.ok (.made c), t) := by
  obtain ⟨p, t₁, hplan, hsteps, asked₁⟩ := outcome_plan_answering ⟨.null, 0⟩ (findingIn name) "x"
    feedback hq
  obtain ⟨t₂, hcode, asked₂⟩ := outcome_implement_answering ⟨.null, 0⟩ "x" p (findingIn name)
    (by rw [asked₁.queries, hq])
  obtain ⟨review, t₃, hreview, hpass, asked₃⟩ := outcome_review_answering ⟨.null, 0⟩ "x" p "y"
    (findingIn name) (by rw [asked₂.queries, asked₁.queries, hq])
  have hsplice : Source.splice "x\n" 1 1 "y" = .ok "y\n" := by
    obtain ⟨x, hx, rfl⟩ := exists_of_toOption (x := Source.splice "x\n" 1 1 "y") (f := id) (y := "y\n")
      (by decide)
    exact hx
  have htext : Failure.checkText "y\n" = .ok () :=
    Utf8.checkText_of_decodeStrict (show Utf8.decodeStrict [0x79, 0x0a] = some "y\n" by rfl)
  obtain ⟨verdict, t₄, hvalid, hverdict⟩ := exists_validate_packageOf (s := t₃) hn htext
    (by rw [asked₃.disk, asked₂.disk, asked₁.disk, hd])
    (by rw [asked₃.toolchains, asked₂.toolchains, asked₁.toolchains, ht]) (findingIn name)
  exact exists_attempt_made hplan hsteps hcode (by decide) hreview hpass hsplice hvalid hverdict
    (Int.le_refl 1) (Int.le_refl 1)

/-- The finding in the source is fixed. -/
theorem exists_fix_packageOf (hn : SourceName name) :
    ∃ c u, (modelled.fix (findingIn name) (some 1)).outcome answering (packageOf name) =
      (.ok c, u) := by
  have hreach : (packageOf name).disk.reaches (findingIn name).file = .ok true := hn.reaches
  obtain ⟨n, hwindow⟩ := windowFor_packageOf hn
  obtain ⟨c, t, hmade⟩ := exists_attempt_packageOf (s := (packageOf name).steps n) hn rfl rfl rfl
    (findingIn name).file (joinedFeedback [none, none])
  refine ⟨c, t, ?_⟩
  unfold fix
  rw [outcome_fixWithNote, if_neg (by decide), hreach]
  simp only
  rw [hwindow]
  change (modelled.attemptsFrom (findingIn name) "x\n" ⟨(findingIn name).file, 1, 1, "x"⟩ 1
    none none 1).outcome answering ((packageOf name).steps n) = (.ok c, t)
  unfold attemptsFrom
  simp only
  rw [outcome_bind, outcome_caught, hmade]
  rfl

theorem sourceName_short : SourceName "a.rs" := by
  constructor <;> decide

/-- The fix of a source with a short name is accepted. -/
theorem accept_writes_compiled_package :
    ∃ c u b a u', (modelled.fixWithNote (findingIn "a.rs") (some 1) none).outcome answering
        (packageOf "a.rs") = (.ok c, u) ∧
      ((⟨1, none, []⟩ : Ledger).stage c).accept.outcome answering (packageOf "a.rs") =
        (.ok (a, (Ledger.stage ⟨1, none, []⟩ c).enter a), u') ∧
      u'.disk.content c.file = .ok b ∧ a.before = "x\n" := by
  obtain ⟨c, u, hfix⟩ := exists_fix_packageOf sourceName_short
  obtain ⟨_, _, _, _, b, -, -, -, hfile, -, haccept⟩ := accept_writes_compiled ⟨.null, 0⟩ compiling {}
    answering (packageOf "a.rs") (findingIn "a.rs") (some 1) none [0x78, 0x0a] "x\n"
    (fun _ ha => absurd ha List.not_mem_nil) (by decide) (by decide) answering_harmless
    (answering_steady.letsRestore _) sourceName_short.content (by decide) c u hfix
  obtain ⟨temp, htemp, -⟩ : ∃ temp, placeBeside (packageOf "a.rs").disk (findingIn "a.rs").file = .ok temp ∧
      id temp = [".a.rs.00000000.tmp"] := exists_of_toOption (by decide)
  obtain ⟨a, u', hout, hwritten, -, hbefore⟩ := (haccept ⟨1, none, []⟩ answering (packageOf "a.rs")
    answering_steady (hfile ▸ sourceName_short.content)).1 temp (hfile ▸ htemp)
  exact ⟨c, u, b, a, u', hfix, hout, hwritten, hbefore⟩

/-- A name that leaves room for what is added to it for the copy, but not for the temporary file. -/
def crampedName : String := String.ofList (List.replicate 239 'a' ++ ['.', 'r', 's'])

theorem crampedName_toList : crampedName.toList = List.replicate 239 'a' ++ ['.', 'r', 's'] :=
  String.toList_ofList

theorem length_crampedName : crampedName.toList.length = 242 := by
  rw [crampedName_toList, List.length_append, List.length_replicate]
  rfl

theorem crampedName_ascii : Utf8.Ascii crampedName.toList := by
  rw [crampedName_toList]
  decide +kernel

theorem crampedCopy_ascii : Utf8.Ascii (crampedName ++ copySuffix).toList := by
  rw [String.toList_append]
  exact crampedName_ascii.append (by decide)

theorem sourceName_cramped : SourceName crampedName where
  suffix := by
    rw [Disk.suffixOf_of_toList crampedName_toList (by simp) (by decide) (by decide)]
  plain := by
    apply Disk.nameFault?_of_ascii crampedName_ascii
    rw [crampedName_toList]
    decide
  plainCopy := by
    apply Disk.nameFault?_of_ascii crampedCopy_ascii
    rw [String.toList_append, crampedName_toList]
    decide
  short := by
    unfold Path.isTooLongName
    rw [Utf8.nameBytes_of_ascii crampedName_ascii, length_crampedName]
    decide
  shortCopy := by
    unfold Path.isTooLongName
    rw [Utf8.nameBytes_of_ascii crampedCopy_ascii, String.toList_append, List.length_append,
      length_crampedName]
    decide
  dots := by
    intro hdots
    have hlength := length_crampedName
    rw [hdots] at hlength
    exact absurd hlength (by decide)

/-- A fix of the source of a package cannot be accepted where its name leaves no room. -/
theorem not_accepted_of_long (hn : SourceName name) (plain : Utf8.Ascii name.toList)
    (long : 241 < name.toList.length)
    (hfix : (modelled.fix (findingIn name) (some 1)).outcome answering (packageOf name) = (.ok c, u)) :
    u.disk.content c.file = .ok [0x78, 0x0a] ∧
      ∀ l : Ledger, ∃ f t, (l.stage c).accept.outcome answering u = (.error f, t) := by
  have hsource : (packageOf name).disk.content (findingIn name).file = .ok [0x78, 0x0a] := hn.content
  have htext : Utf8.decodeStrict [0x78, 0x0a] = some "x\n" := rfl
  obtain ⟨n, es, t, w, x, -, -, -, hfile, hcontent, hupdated, hx⟩ := exists_compiled answering_harmless
    (answering_steady.letsRestore _) (fun _ ha => absurd ha List.not_mem_nil) (by decide) (by decide)
    hsource htext hfix
  rw [← hfile] at hcontent
  have hname : c.file.name = name := by rw [hfile, name_findingIn]
  obtain ⟨f, hf⟩ := exists_placeBeside_error (d := u.disk) (p := c.file) (hname ▸ plain) (hname ▸ long)
  exact ⟨hcontent, fun l => ⟨f, _, Ledger.accept_of_placeBeside_error (l := l.stage c) answering_steady
    rfl hcontent htext hupdated hf⟩⟩

/-- A source with such a name is fixed, and left as it was; but the fix cannot be accepted. -/
theorem fix_not_accepted_for_cramped_name :
    ∃ c u, (modelled.fix (findingIn crampedName) (some 1)).outcome answering (packageOf crampedName) =
        (.ok c, u) ∧
      u.disk.content c.file = .ok [0x78, 0x0a] ∧
      ∀ l : Ledger, ∃ f t, (l.stage c).accept.outcome answering u = (.error f, t) := by
  obtain ⟨c, u, hfix⟩ := exists_fix_packageOf sourceName_cramped
  exact ⟨c, u, hfix, not_accepted_of_long sourceName_cramped crampedName_ascii
    (by rw [length_crampedName]; decide) hfix⟩

end Repair

end FixGate
