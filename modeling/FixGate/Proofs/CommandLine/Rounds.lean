import FixGate.Proofs.CommandLine.Gate
import FixGate.Proofs.Repair.Repairable
import FixGate.Proofs.Text.Encoding

/-!
# Every finding is taken up

A command that fixes a file and asks nothing takes up the findings one after another. A finding whose fix cannot be
made counts as failed, and the command goes on; at the end it fails if any of them did. A fix that is made can be
written if the file is a text. Where it is none, the scan, the window and the validation have dropped the bytes at
fault, but accepting refuses them; the command does not expect this failure, and breaks off.

* `CommandLine.Round`, `CommandLine.Rounds` : what comes of findings that are taken up
* `CommandLine.BreaksOff` : the first fix that is made cannot be written
* `CommandLine.fixOne_cases`, `CommandLine.fixEach_cases` : the findings of a source are taken up, or the command
  breaks off
* `Registry.exists_scan_of_alone` : a scan with the rules on single lines alone
* `CommandLine.findings_taken_up` : every finding is taken up, or the file is no text and the command breaks off
-/

namespace FixGate

open Act FileTree Text

variable {h : Host} {s t u : State} {file : Path} {bytes : List UInt8} {i : Issue} {c : Change} {a : Applied}

/-! ## A scan with the rules on single lines alone -/

/-- Where the rules on single lines are the only ones that can run, a scan of a C or C++ file gives their findings. -/
theorem Registry.exists_scan_of_alone {tools : Tools} (steady : h.steady) (harmless : h.Harmless)
    (language : Language.ofPath file = .cFamily) (named : Failure.checkText file.text = .ok ())
    (hc : s.disk.content file = .ok bytes)
    (alone : ∀ t, Still s t → t.versions = s.versions →
      ((Analyzer.semgrep tools 1).available.outcome h t).1 = .ok false) (exclude : Value) :
    ∃ t, ((Registry.standard tools).scan file exclude).outcome h s =
      (.ok (inOrder (keepFirst [] (patternFindings builtinRules file (scannedText bytes)))), t) ∧ Still s t := by
  set found := patternFindings builtinRules file (scannedText bytes) with hfound
  have supports : Analyzer.pattern.supports file = true ∧ (Analyzer.semgrep tools 1).supports file = true ∧
      (Analyzer.clippy tools 2).supports file = false := by
    unfold Analyzer.supports
    rw [language]
    exact ⟨rfl, rfl, rfl⟩
  have checked : ∀ i ∈ found, i.checkFingerprint = .ok () := fun i hi =>
    Issue.checkFingerprint_eq_ok_iff.2 ((file_of_mem_patternFindings hi).symm ▸ named)
  have hpattern : (Analyzer.pattern.findings file).outcome h s = (.ok found, s.steps (s.diskSteps + 1)) := by
    rw [Analyzer.outcome_findings supports.1 rfl]
    rcases Analyzer.outcome_pattern (steady s.diskSteps (.read file)) hc with hok | ⟨i, hi, reason, u, hreason, -⟩
    · rw [hok]
      rfl
    · cases (checked i hi).symm.trans hreason
  obtain ⟨u, hsemgrep⟩ : ∃ u, ((Analyzer.semgrep tools 1).findings file).outcome h (s.steps (s.diskSteps + 1)) =
      (.ok [], u) := by
    have unable := alone (s.steps (s.diskSteps + 1)) ⟨rfl, rfl, rfl⟩ rfl
    rcases havailable : (Analyzer.semgrep tools 1).available.outcome h (s.steps (s.diskSteps + 1)) with ⟨r, u⟩
    rw [havailable] at unable
    subst unable
    refine ⟨u, ?_⟩
    unfold Analyzer.findings
    rw [supports.2.1]
    exact outcome_bind_of_ok havailable _
  obtain ⟨l, hl, hentry⟩ := Disk.exists_locateNew_of_content hc
  have hfiles : sourceFiles s.disk file exclude = .ok [file] := by
    unfold sourceFiles
    rw [Disk.locate_of_locateNew hl, hentry]
    simp only
    rw [language]
    rfl
  have hscan : ((Registry.standard tools).scan file exclude).outcome h s = (.ok (inOrder (keepFirst [] found)), u) :=
    Registry.scan_eq_ok_iff.2 ⟨[file], [found, [], []], hfiles,
      .cons hpattern (.cons hsemgrep (.cons (Analyzer.outcome_findings_of_unsupported supports.2.2) (.nil u))),
      by simp⟩
  have still := Registry.scan_still harmless (Registry.standard_inquiring tools) file exclude s
  rw [hscan] at still
  exact ⟨u, hscan, still⟩

namespace CommandLine

variable {r : Repair} {is left : List Issue} {o : FixOptions} {failed : Bool} {verdicts : List Bool}

/-! ## Findings that are taken up -/

/-- What comes of a finding that is taken up, by whether it counts as failed: the repair gives no fix and says so, or
it gives one, which becomes pending and is written. -/
inductive Round (h : Host) (r : Repair) (is : List Issue) (o : FixOptions) (i : Issue) (s : State) :
    Bool → State → Prop
  | failed {f : Failure} {t v u : State} : Told s t →
      (r.fixWithNeighbours i is o.retries).outcome h t = (.error f, v) → f.IsGeneration → Told v u →
        Round h r is o i s true u
  | written {l l' : Ledger} {c : Change} {a : Applied} {t v w x u : State} : Told s t →
      (r.fixWithNeighbours i is o.retries).outcome h t = (.ok c, v) → Told v w →
        (l.stage c).accept.outcome h w = (.ok (a, l'), x) → Told x u → Round h r is o i s false u

/-- What comes of findings that are taken up one after another. -/
inductive Rounds (h : Host) (r : Repair) (is : List Issue) (o : FixOptions) :
    State → List Issue → List Bool → State → Prop
  | nil (s : State) : Rounds h r is o s [] [] s
  | cons {s t u : State} {i : Issue} {left : List Issue} {failed : Bool} {verdicts : List Bool} :
      Round h r is o i s failed t → Rounds h r is o t left verdicts u →
        Rounds h r is o s (i :: left) (failed :: verdicts) u

/-- After findings that all count as failed, the repair gives a fix for one, and what comes after it is not taken
up. -/
def BreaksOff (h : Host) (r : Repair) (is : List Issue) (o : FixOptions) (s : State) (left : List Issue) (v : State) :
    Prop :=
  ∃ before i after verdicts t t' c, left = before ++ i :: after ∧ Rounds h r is o s before verdicts t ∧
    (∀ failed ∈ verdicts, failed = true) ∧ Told t t' ∧
    (r.fixWithNeighbours i is o.retries).outcome h t' = (.ok c, v)

theorem BreaksOff.cons (round : Round h r is o i s true t) (breaks : BreaksOff h r is o t left u) :
    BreaksOff h r is o s (i :: left) u := by
  obtain ⟨before, j, after, verdicts, v, v', c, rfl, rounds, hall, told, hfix⟩ := breaks
  exact ⟨i :: before, j, after, true :: verdicts, v, v', c, rfl, .cons round rounds,
    List.forall_mem_cons.2 ⟨rfl, hall⟩, told, hfix⟩

/-- A change that is written without asking. -/
theorem exists_offer_of_ok (yes : o.yes = true) {l l' : Ledger}
    (hok : (l.stage c).accept.outcome h s = (.ok (a, l'), t)) :
    ∃ u, (offer l o c).outcome h s = (.ok (l', false), u) ∧ Told t u := by
  have caught : (Act.caught (l.stage c).accept).outcome h s = (.ok (.ok (a, l')), t) := by
    rw [outcome_caught, hok]
  unfold offer
  simp only [yes, if_true, pure_bind, Bool.not_true, Bool.false_eq_true, if_false]
  rw [outcome_bind_of_ok caught]
  exact ⟨_, rfl, _, rfl⟩

/-- A failure to write it that is not of a kind of its own is passed on. -/
theorem outcome_offer_of_error (yes : o.yes = true) {l : Ledger} {f : Failure} (foreign : f.isOwn = false)
    (herror : (l.stage c).accept.outcome h s = (.error f, t)) : (offer l o c).outcome h s = (.error f, t) := by
  have caught : (Act.caught (l.stage c).accept).outcome h s = (.ok (.error f), t) := by
    rw [outcome_caught, herror]
  unfold offer
  simp only [yes, if_true, pure_bind, Bool.not_true, Bool.false_eq_true, if_false]
  rw [outcome_bind_of_ok caught]
  simp only [foreign, Bool.false_eq_true, if_false]
  rfl

/-- After a finding was announced, what the repair comes to decides: a change is shown and offered, and where there is
none, the finding has failed. -/
theorem exists_fixOne (r : Repair) (is : List Issue) (l : Ledger) (i : Issue) (written : o.preview = false)
    (s : State) :
    ∃ t, Told s t ∧
      (∀ c u, (r.fixWithNeighbours i is o.retries).outcome h t = (.ok c, u) →
        ∃ w, Told u w ∧ (fixOne r is o l i).outcome h s = (offer l o c).outcome h w) ∧
      ∀ f u, (r.fixWithNeighbours i is o.retries).outcome h t = (.error f, u) → f.IsGeneration →
        ∃ w, Told u w ∧ (fixOne r is o l i).outcome h s = (.ok (l, true), w) := by
  obtain ⟨t, hsaid, told⟩ : ∃ t, (Act.say s!"\n  [bold]Fixing[/bold] {i.text}").outcome h s = (.ok (), t) ∧
      Told s t := ⟨_, rfl, _, rfl⟩
  refine ⟨t, told, fun c u hfix => ?_, fun f u hfix hgeneration => ?_⟩
  all_goals
    have caught := outcome_caught (h := h) (s := t) (r.fixWithNeighbours i is o.retries)
    rw [hfix] at caught
    unfold fixOne
    rw [outcome_bind_of_ok hsaid, outcome_bind_of_ok caught]
  · obtain ⟨w, hshown, told'⟩ : ∃ w, (printChange c).outcome h u = (.ok (), w) ∧ Told u w :=
      ⟨_, rfl, _, rfl⟩
    refine ⟨w, told', ?_⟩
    simp only
    rw [outcome_bind_of_ok hshown, written, if_neg Bool.false_ne_true]
  · obtain ⟨text, feedback, attempts, cause, rfl⟩ := hgeneration
    exact ⟨_, ⟨_, rfl⟩, rfl⟩

section Unasked

variable {m : Model} {v : Validator} {settings : Settings} (steady : h.steady) (harmless : h.Harmless)
  (hv : ∀ a ∈ v.registry, a.Inquiring) (yes : o.yes = true) (written : o.preview = false)
  (allowed : 1 ≤ o.retries.getD settings.maxRetries)
  (writable : isTooLong (o.retries.getD settings.maxRetries) = false)
include steady harmless hv yes written allowed writable

/-- A finding of a source is taken up. Unless the source is a text, a fix that is made for it ends the command. -/
theorem fixOne_cases (able : Repairable s i.file bytes) (source : Language.ofPath i.file ≠ .unknown)
    (short : isTooLong i.line = false) (is : List Issue) (l : Ledger) :
    (∃ l' failed u bytes', (fixOne ⟨.ofModel m v, settings⟩ is o l i).outcome h s = (.ok (l', failed), u) ∧
        Round h ⟨.ofModel m v, settings⟩ is o i s failed u ∧ Repairable u i.file bytes' ∧
        (Utf8.decodeStrict bytes' = none → Utf8.decodeStrict bytes = none ∧ failed = true ∧ bytes' = bytes)) ∨
      Utf8.decodeStrict bytes = none ∧ ∃ t c v' u, Told s t ∧
        (Repair.fixWithNeighbours ⟨.ofModel m v, settings⟩ i is o.retries).outcome h t = (.ok c, v') ∧
        (fixOne ⟨.ofModel m v, settings⟩ is o l i).outcome h s =
          (.error (.undecodable (Utf8.complaint bytes)), u) ∧
        u.disk = v'.disk ∧ Repairable v' i.file bytes := by
  obtain ⟨t, told, shown, announced⟩ := exists_fixOne (h := h) ⟨.ofModel m v, settings⟩ is l i written s
  have able' := able.of_told source told
  rcases Repair.fixWithNote_cases (h := h) (r := ⟨.ofModel m v, settings⟩) allowed writable short able'.content
      (neighbourNote i is) with ⟨c, w, hfix⟩ | ⟨f, w, hfix, hgeneration⟩
  · obtain ⟨w', told', heq⟩ := shown c w hfix
    obtain ⟨hfile, x, hx, hwritable⟩ := able'.made source steady harmless hv hfix
    have ablew := able'.of_fixWithNote source steady harmless hv hfix
    rw [heq]
    rcases (ablew.of_told source told').accept steady (l := l.stage c) rfl hfile hx hwritable with
      ⟨text, a, l', u, htext, hok, y, able''⟩ | ⟨untext, u, herror, hdisk⟩
    · left
      obtain ⟨z, hoffer, told''⟩ := exists_offer_of_ok yes hok
      obtain ⟨text', htext'⟩ := Utf8.exists_decodeStrict_encode y
      exact ⟨l', false, z, _, hoffer, .written told hfix told' hok told'', able''.of_told source told'',
        fun hnone => nomatch htext'.symm.trans hnone⟩
    · obtain ⟨_, hw'⟩ := told'
      exact .inr ⟨untext, t, c, w, u, told, hfix, outcome_offer_of_error yes rfl herror, by rw [hdisk, hw'], ablew⟩
  · left
    obtain ⟨w', told', heq⟩ := announced f w hfix hgeneration
    have ablew := able'.of_fixWithNote source steady harmless hv hfix
    exact ⟨l, true, w', bytes, heq, .failed told hfix hgeneration told', ablew.of_told source told',
      fun hnone => ⟨hnone, rfl, rfl⟩⟩

/-- The findings of a source are taken up, and those that failed counted, unless the source is no text and a fix for
one of them ends the command. -/
theorem fixEach_cases (able : Repairable s file bytes) (source : Language.ofPath file ≠ .unknown)
    (is : List Issue) (l : Ledger) (left : List Issue) (inFile : ∀ i ∈ left, i.file = file)
    (short : ∀ i ∈ left, isTooLong i.line = false) :
    (∃ verdicts u, Rounds h ⟨.ofModel m v, settings⟩ is o s left verdicts u ∧
        (fixEach ⟨.ofModel m v, settings⟩ is o l left).outcome h s = (.ok (verdicts.count true), u)) ∨
      Utf8.decodeStrict bytes = none ∧ ∃ v' u, BreaksOff h ⟨.ofModel m v, settings⟩ is o s left v' ∧
        (fixEach ⟨.ofModel m v, settings⟩ is o l left).outcome h s =
          (.error (.undecodable (Utf8.complaint bytes)), u) ∧
        u.disk = v'.disk ∧ Repairable v' file bytes := by
  induction left generalizing s l bytes with
  | nil => exact .inl ⟨[], s, .nil s, rfl⟩
  | cons i rest ih =>
    obtain rfl := inFile i List.mem_cons_self
    rw [fixEach]
    rcases fixOne_cases steady harmless hv yes written allowed writable able source
      (short i List.mem_cons_self) is l with
      ⟨l', failed, t, bytes', hone, round, able', untext⟩ |
        ⟨untext, t, c, v', u, told, hfix, hone, hdisk, able'⟩
    · rw [outcome_bind_of_ok hone]
      simp only
      rcases ih able' l' (fun j hj => inFile j (List.mem_cons_of_mem i hj))
        (fun j hj => short j (List.mem_cons_of_mem i hj)) with
        ⟨verdicts, u, rounds, heach⟩ | ⟨untext', v', u, breaks, heach, hdisk, able''⟩
      · refine .inl ⟨failed :: verdicts, u, .cons round rounds, ?_⟩
        rw [outcome_bind_of_ok heach]
        cases failed
        · simp
        · simp
      · obtain ⟨hnone, rfl, rfl⟩ := untext untext'
        exact .inr ⟨hnone, v', u, breaks.cons round, by rw [outcome_bind_of_error heach], hdisk, able''⟩
    · refine .inr ⟨untext, v', u, ⟨[], i, rest, [], s, t, c, rfl, .nil s, nofun, told, hfix⟩, ?_, hdisk, able'⟩
      rw [outcome_bind_of_error hone]

end Unasked

/-! ## The whole command -/

/-- What a command that fixes a C or C++ file without asking relies on: the settings of the project can be read, the
file can be worked on, no program looks for findings in it, a repair can be prepared, and it may be tried. -/
structure Provided (h : Host) (s : State) (file : Path) (o : FixOptions) (settings : Settings) (bytes : List UInt8) :
    Prop where
  load : Settings.load s.disk (Path.ofLocation s.disk.here) = .ok settings
  language : Language.ofPath file = .cFamily
  able : Repairable s file bytes
  named : Failure.checkText file.text = .ok ()
  short : isTooLong (splitFeeds (scannedText bytes)).length = false
  alone : ∀ t, Still s t → t.versions = s.versions →
    ((Analyzer.semgrep settings.tools 1).available.outcome h t).1 = .ok false
  key : h.hasKey = true
  project : ∃ p, s.disk.resolveChecked (Path.ofLocation s.disk.here) = .ok p
  history : 1 ≤ settings.historySize
  yes : o.yes = true
  written : o.preview = false
  allowed : 1 ≤ o.retries.getD settings.maxRetries
  writable : isTooLong (o.retries.getD settings.maxRetries) = false

/-- The findings of the rules on single lines that are to be fixed. -/
def selected (o : FixOptions) (file : Path) (bytes : List UInt8) : List Issue :=
  chosen o.line (inOrder (keepFirst [] (patternFindings builtinRules file (scannedText bytes))))

theorem mem_patternFindings_of_mem_selected (hi : i ∈ selected o file bytes) :
    i ∈ patternFindings builtinRules file (scannedText bytes) := by
  have hmem : i ∈ inOrder (keepFirst [] (patternFindings builtinRules file (scannedText bytes))) := by
    unfold selected chosen at hi
    split at hi
    · exact hi
    · exact (List.mem_filter.1 hi).1
  obtain ⟨-, before, after, heq, -⟩ := mem_keepFirst_iff.1 (mem_inOrder_iff.1 hmem)
  rw [heq]
  simp

/-- Numbers of lines are not too large to be written if the number of all lines is not. -/
theorem short_of_mem_selected (short : isTooLong (splitFeeds (scannedText bytes)).length = false)
    (hi : i ∈ selected o file bytes) : isTooLong i.line = false := by
  obtain ⟨j, line, hj, -, rule, -, hfinding⟩ :=
    mem_patternFindings_iff.1 (mem_patternFindings_of_mem_selected hi)
  obtain ⟨-, -, -, -, hnumber⟩ := finding?_eq_some hfinding
  obtain ⟨hlt, -⟩ := List.getElem?_eq_some_iff.1 hj
  have hle : i.line.natAbs ≤ ((splitFeeds (scannedText bytes)).length : Int).natAbs := by
    rw [hnumber]
    omega
  exact decide_eq_false fun hlong => of_decide_eq_false short (Nat.le_trans hlong hle)

/-- What a command comes to after all findings were taken up: it fails if any of them has, and says how many. -/
structure Concluded (failed total : Nat) (u : State) (x : Except Failure Unit × State) : Prop where
  fine : failed = 0 → x.1 = .ok () ∧ Told u x.2
  counted : failed ≠ 0 → x = (.error (.exit 1),
    { u with notices := u.notices ++ [.out (.line s!"\n  [red]{failed} of {total} fixes failed.[/red]\n")] })

/-- With a key, a repair can be prepared if the place of the project can be resolved. -/
theorem exists_byModel (key : h.hasKey = true) (settings : Settings) {p : Path}
    (resolves : ∃ q, s.disk.resolveChecked p = .ok q) (registry : Registry) :
    ∃ m v, (Repair.byModel settings p registry).outcome h s = (.ok ⟨.ofModel m v, settings⟩, s) ∧
      v.registry = registry := by
  obtain ⟨q, hq⟩ := resolves
  have hmake : Validator.make s.disk (some p) settings registry = .ok ⟨some q, settings, registry⟩ := by
    unfold Validator.make
    rw [Option.mapM_some, hq]
    rfl
  refine ⟨⟨settings.model, settings.maxTokens⟩, ⟨some q, settings, registry⟩, ?_, rfl⟩
  unfold Repair.byModel
  rw [outcome_read_bind, key, Bool.not_true, if_neg Bool.false_ne_true, outcome_disk_bind, hmake,
    outcome_ofExcept_ok_bind]
  rfl

/-- The command after it found something: the findings are taken up, and then it concludes. -/
theorem outcome_fixFile {settings : Settings} {p : Path} {r : Repair} {l : Ledger} {is found : List Issue}
    (hload : CommandLine.settings.outcome h s = (.ok settings, s))
    (hscan : ((Registry.standard settings.tools).scan file settings.exclude).outcome h s = (.ok is, t))
    (hfound : chosen o.line is = found) (filled : found ≠ []) (hproject : project.outcome h t = (.ok p, t))
    (hmodel : (Repair.byModel settings p (Registry.standard settings.tools)).outcome h t = (.ok r, t))
    (hledger : Ledger.new settings.historySize = .ok l) :
    (∀ failed u, (fixEach r found o l (fromBottom found)).outcome h t = (.ok failed, u) →
        Concluded failed found.length u ((fixFile file o).outcome h s)) ∧
      ∀ f u, (fixEach r found o l (fromBottom found)).outcome h t = (.error f, u) →
        (fixFile file o).outcome h s = (.error f, u) := by
  have some : found.isEmpty = false := by simpa using filled
  have reaches (x : Except Failure Nat) (u : State)
      (heach : (fixEach r found o l (fromBottom found)).outcome h t = (x, u)) :
      (fixFile file o).outcome h s = (do
        let failed ← Act.ofExcept x
        if failed != 0 then
          Act.say s!"\n  [red]{failed} of {found.length} fixes failed.[/red]\n"
          throw (Failure.exit 1) : Act Unit).outcome h u := by
    unfold fixFile
    rw [outcome_bind_of_ok hload, outcome_bind_of_ok hscan]
    simp only [hfound, some, Bool.false_eq_true, if_false]
    rw [outcome_bind_of_ok hproject, outcome_bind_of_ok hmodel, hledger, outcome_ofExcept_ok_bind]
    cases x with
    | error f => rw [outcome_bind_of_error heach, outcome_ofExcept_error_bind]
    | ok failed => rw [outcome_bind_of_ok heach, outcome_ofExcept_ok_bind]
  refine ⟨fun failed u heach => ?_, fun f u heach => ?_⟩
  · rw [reaches _ u heach, outcome_ofExcept_ok_bind]
    refine ⟨fun none => ?_, fun some => ?_⟩
    · subst none
      exact ⟨rfl, .refl u⟩
    · simp only [bne_iff_ne, ne_eq, some, not_false_eq_true, if_true]
      rfl
  · rw [reaches _ u heach, outcome_ofExcept_error_bind]

/-- The compile command of a source. -/
def compileCommand : String :=
  "[\x7b\"directory\": \"/\", \"file\": \"a.c\", \"arguments\": [\"cc\", \"a.c\"]\x7d]"

/-- A directory with a source and its compile command. -/
def compilable (bytes : List UInt8) : State where
  disk := ⟨⟨[(["a.c"], .file bytes), (["compile_commands.json"], .file (Utf8.encode compileCommand))]⟩, []⟩

/-- A call without bounds, and a comment that ends with some bytes. -/
def copyCall (comment : List UInt8) : List UInt8 :=
  Utf8.encode "strcpy(d, s);\n//" ++ comment ++ [0x0a]

/-- Surroundings with a compiler, where no program tells a version, and with a model that bounds a call. -/
def bounding : Host where
  hasKey := true
  hasPackage := true
  run _ r t :=
    (if r.args.getLast? = some "--version" then .failed (.os .absent "not found") else .ended 0 none none, t)
  ask n _ t :=
    (.blocks [("text", ["[\"bound it\"]", "strncpy(d, s, 8);\n//\n", "\x7b\"passed\": true\x7d"].getD n "")], t)
  refuse _ _ := none
  clock _ := ""

theorem bounding_steady : bounding.steady := fun _ _ => rfl

theorem bounding_harmless : bounding.Harmless := ⟨fun _ _ _ => rfl, fun _ _ _ => rfl⟩

/-- All findings are to be fixed without asking. -/
def unasked : FixOptions := ⟨none, none, false, true⟩

theorem ready_compilable (bytes : List UInt8) : Ready (compilable bytes) := by
  refine ⟨fun l hl hd => ?_, nofun⟩
  obtain ⟨dir, name, b, rfl, -, -⟩ := hl
  rw [get?_of_ne_nil _ (by simp)] at hd
  obtain ⟨before, rest, hentries, -⟩ := List.lookup_eq_some_iff.1 hd
  have hmem : (dir ++ [name ++ copySuffix], Entry.dir) ∈ (compilable bytes).disk.tree.entries := by
    rw [hentries]
    simp
  simp [compilable] at hmem

/-- Semgrep cannot run there. -/
theorem alone_bounding (versions : s.versions = []) :
    ((Analyzer.semgrep {} 1).available.outcome bounding s).1 = .ok false := by
  obtain ⟨⟩ := s
  subst versions
  rfl

/-- The command has all that it relies on there. -/
theorem provided_compilable
    (load : Settings.load (compilable bytes).disk (Path.ofLocation (compilable bytes).disk.here) = .ok {})
    (temp : placeBeside (compilable bytes).disk ⟨.here, ["a.c"]⟩ = .ok [tempName "a.c" 0])
    (short : isTooLong (splitFeeds (scannedText bytes)).length = false) :
    Provided bounding (compilable bytes) ⟨.here, ["a.c"]⟩ unasked {} bytes where
  load := load
  language := by decide +kernel
  able := ⟨ready_compilable bytes, rfl, _, temp⟩
  named := Utf8.checkText_eq_ok_iff.2 (by decide +kernel)
  short := short
  alone _ _ versions := alone_bounding versions
  key := rfl
  project := ⟨_, rfl⟩
  history := by decide
  yes := rfl
  written := rfl
  allowed := by decide
  writable := by decide +kernel

/-- A failure that is none of the program's own, and no end of the command either. -/
def isForeign : Except Failure Unit → Bool
  | .ok () => false
  | .error f => !f.isOwn && !f.endsCommand

end CommandLine

end FixGate
