import FixGate.Proofs.Session.Turns

/-!
# What a session accepts was compiled

A change that is pending has been verified by an earlier fix of the same session, and ever since then its
file has held what it held at that time, or nothing, unless a change of that file was undone in between. When
the pending change is accepted, only its window is compared with the file, so the undoing is not noticed, and
what is written then is a text that nobody has compiled.

* `Session.Holds` : a file holds some bytes, or there is none
* `Session.Stems` : where a pending change stems from
* `Session.sound_run` : what holds all along a session
* `Session.accepted_compiled` : what is accepted was compiled, unless a change of the file was undone in
  between
* `Session.accepted_never_compiled` : sessions in which something is accepted that was not compiled
-/

namespace FixGate.Session

open Act FileTree

variable {h : Host} {s t u : State} {p : Path} {bytes b : List UInt8} {c : Change} {a : Applied}
  {x : Scene} {lines : List String} {line : String} {n : Nat}

/-! ## A file that keeps its bytes -/

/-- The file that a path leads to holds some bytes, or there is none at its place. -/
def Holds (s : State) (p : Path) (bytes : List UInt8) : Prop :=
  ∃ l, s.disk.locateNew p = .ok l ∧
    (s.disk.tree.get? l = some (.file bytes) ∨ s.disk.tree.get? l = none)

theorem Holds.of_content (hc : s.disk.content p = .ok bytes) : Holds s p bytes := by
  obtain ⟨l, hl, hentry⟩ := Disk.exists_locateNew_of_content hc
  exact ⟨l, hl, .inl hentry⟩

theorem Holds.eq_of_content (held : Holds s p bytes) (hc : s.disk.content p = .ok b) : b = bytes := by
  obtain ⟨l, hl, hentry⟩ := held
  rw [(Disk.content_eq_ok_iff_of_locateNew hl).1 hc] at hentry
  rcases hentry with hentry | hentry
  · cases hentry
    rfl
  · cases hentry

theorem Holds.of_unwritten (held : Holds s p bytes) (unwritten : Unwritten s t) : Holds t p bytes := by
  obtain ⟨l, hl, hentry⟩ := held
  refine ⟨l, Disk.locateNew_of_sameDirs unwritten.ways.2 unwritten.ways.1 hl, ?_⟩
  rcases unwritten.entries l with hsame | hnone
  · rw [hsame]
    exact hentry
  · exact .inr hnone

/-- The undoing of a change leaves all files but its own. -/
theorem Holds.of_rolledBack (held : Holds s p bytes) (rolled : Ledger.RolledBack s u a)
    (apart : s.disk.locateNew a.file ≠ s.disk.locateNew p) : Holds u p bytes := by
  obtain ⟨l, hl, hentry⟩ := held
  have ways := sameWays_of_rolledBack rolled
  obtain ⟨place, hplace, entries⟩ := rolled.tree
  refine ⟨l, Disk.locateNew_of_sameDirs ways.2 ways.1 hl, ?_⟩
  have hne : l ≠ place := by
    rintro rfl
    exact apart (hplace.trans hl.symm)
  rw [entries, if_neg hne]
  exact hentry

/-! ## Where a pending change stems from -/

/-- A typed line undoes a change of the file that a path leads to. -/
def Scene.Undoes (h : Host) (x : Scene) (line : String) (p : Path) : Prop :=
  Command.ofLine line = .rollback ∧ ∃ a l u,
    x.session.ledger.rollback.outcome h x.state = (.ok (a, l), u) ∧
      x.state.disk.locateNew a.file = x.state.disk.locateNew p

/-- After the first `n` of some typed lines a change is pending that an earlier one of them, a fix, verified.
Its file still holds what it held then, or there is none, unless a change of it was undone in between. -/
def Stems (h : Host) (x : Scene) (lines : List String) (n : Nat) (c : Change) : Prop :=
  ∃ m line word bytes candidate, m < n ∧ lines[m]? = some line ∧ Command.ofLine line = .fix word ∧
    Verified h (x.run h (lines.take m)) (x.run h (lines.take (m + 1))) c bytes candidate ∧
    ((∀ k line, m < k → k < n → lines[k]? = some line →
        ¬ (x.run h (lines.take k)).Undoes h line c.file) →
      Holds (x.run h (lines.take n)).state c.file bytes)

theorem run_take_succ (hline : lines[n]? = some line) :
    x.run h (lines.take (n + 1)) = (x.run h (lines.take n)).after h line := by
  unfold Scene.run
  rw [List.take_add_one, hline, List.foldl_append]
  rfl

theorem run_take_of_none (hline : lines[n]? = none) :
    x.run h (lines.take (n + 1)) = x.run h (lines.take n) := by
  rw [List.take_add_one, hline, Option.toList_none, List.append_nil]

/-- A change that stays pending stems from where it did, as long as its file is kept in this step unless it
is undone there. -/
theorem Stems.step (stems : Stems h x lines n c)
    (kept : ∀ bytes, Holds (x.run h (lines.take n)).state c.file bytes →
      (∀ line, lines[n]? = some line → ¬ (x.run h (lines.take n)).Undoes h line c.file) →
        Holds (x.run h (lines.take (n + 1))).state c.file bytes) :
    Stems h x lines (n + 1) c := by
  obtain ⟨m, line, word, bytes, candidate, hm, hline, hfix, verified, held⟩ := stems
  refine ⟨m, line, word, bytes, candidate, by omega, hline, hfix, verified, fun undone => ?_⟩
  apply kept bytes (held fun k line hk hn => undone k line hk (by omega))
  exact fun line => undone n line hm (by omega)

/-- What holds after the first `n` typed lines of a session: its analyzers are those it began with, no
directory stands in the place of a copy, and it is known where a pending change stems from. -/
structure Sound (h : Host) (x : Scene) (lines : List String) (n : Nat) : Prop where
  registry : (x.run h (lines.take n)).session.registry = x.session.registry
  free : CopiesFree (x.run h (lines.take n)).state
  stems : ∀ c, (x.run h (lines.take n)).session.ledger.pending = some c → Stems h x lines n c

/-- A typed line keeps it. -/
theorem Sound.step (harmless : h.Harmless) (hx : ∀ a ∈ x.session.registry, a.Outsourced)
    (lets : ∀ file, h.LetsRestore file) (sound : Sound h x lines n) (hline : lines[n]? = some line) :
    Sound h x lines (n + 1) := by
  have hnext : x.run h (lines.take (n + 1)) = (x.run h (lines.take n)).after h line :=
    run_take_succ hline
  obtain ⟨turn, registry⟩ := turn_of_line harmless (sound.registry.symm ▸ hx) lets sound.free line
  rw [← hnext] at turn registry
  have known := registry.trans sound.registry
  cases turn with
  | rests pending unwritten =>
    refine ⟨known, sound.free.of_ways unwritten.ways, fun c hc => ?_⟩
    rcases pending with hsame | hnone
    · exact (sound.stems c (hsame ▸ hc)).step fun _ held _ => held.of_unwritten unwritten
    · rw [hnone] at hc
      cases hc
  | @fixes word c bytes candidate hfix verified unwritten =>
    refine ⟨known, sound.free.of_ways unwritten.ways, fun c' hc' => ?_⟩
    obtain rfl : c = c' := Option.some.inj (verified.pending.symm.trans hc')
    exact ⟨n, line, word, bytes, candidate, by omega, hline, hfix, verified,
      fun _ => (Holds.of_content verified.read).of_unwritten unwritten⟩
  | accepts hnone ways =>
    refine ⟨known, sound.free.of_ways ways, fun c hc => ?_⟩
    rw [hnone] at hc
    cases hc
  | undoes hundo hok rolled idle pending =>
    have free := (sound.free.of_ways (sameWays_of_rolledBack rolled)).of_ways (SameWays.of_idle idle)
    refine ⟨known, free, fun c hc => (sound.stems c (pending ▸ hc)).step fun _ held undone => ?_⟩
    apply (held.of_rolledBack rolled ?_).of_unwritten (.of_idle idle)
    exact fun hsame => undone line hline ⟨hundo, _, _, _, hok, hsame⟩

/-- It holds all along a session that begins without a pending change. -/
theorem sound_run (harmless : h.Harmless) (hx : ∀ a ∈ x.session.registry, a.Outsourced)
    (lets : ∀ file, h.LetsRestore file) (free : CopiesFree x.state)
    (new : x.session.ledger.pending = none) (lines : List String) (n : Nat) : Sound h x lines n := by
  induction n with
  | zero =>
    refine ⟨rfl, free, fun c hc => ?_⟩
    cases new.symm.trans hc
  | succ n ih =>
    cases hline : lines[n]? with
    | some line => exact ih.step harmless hx lets hline
    | none =>
      have hsame : x.run h (lines.take (n + 1)) = x.run h (lines.take n) := run_take_of_none hline
      refine ⟨hsame ▸ ih.registry, hsame ▸ ih.free, fun c hc => ?_⟩
      exact (ih.stems c (hsame ▸ hc)).step fun _ held _ => hsame.symm ▸ held

/-! ## What is accepted -/

/-- After a line that accepts, the surroundings are those after accepting. -/
theorem idle_of_accept {l : Ledger} (haccept : Command.ofLine line = .accept)
    (hok : x.session.ledger.accept.outcome h x.state = (.ok (a, l), u)) :
    Idle u (x.after h line).state := by
  rcases accept_line_cases (h := h) haccept with ⟨f, v, hf, -, -⟩ | ⟨c, a', v, hok', -, idle, -⟩
  · cases hf.symm.trans hok
  · cases hok'.symm.trans hok
    exact idle

/-- **What a session accepts was compiled.** Let programs and model change no file, let files be restored
after a validation, and let no directory stand in the place of a copy. Whatever lines are typed in a session,
a change that is accepted was made by an earlier fix of the session, in which a candidate for the whole file
was compiled and passed. Unless a change of the file was undone in between, the bytes of that candidate are
what is written. -/
theorem accepted_compiled (h : Host) (x : Scene) (harmless : h.Harmless)
    (hx : ∀ a ∈ x.session.registry, a.Outsourced) (lets : ∀ file, h.LetsRestore file)
    (free : CopiesFree x.state) (new : x.session.ledger.pending = none) (lines : List String) (n : Nat)
    (line : String) (a : Applied) (l : Ledger) (u : State) (hline : lines[n]? = some line)
    (haccept : Command.ofLine line = .accept)
    (hok : (x.run h (lines.take n)).session.ledger.accept.outcome h (x.run h (lines.take n)).state =
      (.ok (a, l), u)) :
    ∃ m fixing word bytes candidate, m < n ∧ lines[m]? = some fixing ∧
      Command.ofLine fixing = .fix word ∧
      Verified h (x.run h (lines.take m)) (x.run h (lines.take (m + 1))) a.change bytes candidate ∧
      ((∀ k line, m < k → k < n → lines[k]? = some line →
          ¬ (x.run h (lines.take k)).Undoes h line a.file) →
        (x.run h (lines.take (n + 1))).state.disk.content a.file =
          .ok (Text.Utf8.encode candidate)) := by
  have sound := sound_run harmless hx lets free new lines n
  rcases Ledger.accept_cases (h := h) (x.run h (lines.take n)).session.ledger
    (x.run h (lines.take n)).state with ⟨f, k, tree, hf, -⟩ | ⟨c, a', u', hc, hok', acc⟩
  · cases hok.symm.trans hf
  cases hok.symm.trans hok'
  obtain ⟨m, fixing, word, bytes, candidate, hm, hfixing, hfix, verified, held⟩ := sound.stems c hc
  rw [acc.change, acc.file]
  refine ⟨m, fixing, word, bytes, candidate, hm, hfixing, hfix, verified, fun undone => ?_⟩
  obtain ⟨b, hb, hbefore⟩ := acc.text
  obtain rfl := (held undone).eq_of_content hb
  have made : Ledger.updated c a.before = .ok candidate := by
    rw [← Text.Utf8.decodeDropping_of_decodeStrict hbefore]
    exact verified.made
  rw [run_take_succ hline, (idle_of_accept haccept hok).1]
  exact acc.content made

/-! ## A block that is replaced -/

/-- A new session in a package, with the rules on single lines. -/
def fresh : Session := ⟨⟨.here, []⟩, ⟨.here, []⟩, {}, [Analyzer.pattern], ⟨10, none, []⟩, []⟩

theorem fresh_inquiring : ∀ a ∈ fresh.registry, a.Inquiring := by
  intro a ha
  obtain rfl := List.mem_singleton.1 ha
  exact Analyzer.patternWith_inquiring _

theorem fresh_outsourced : ∀ a ∈ fresh.registry, a.Outsourced := fun a ha => (fresh_inquiring a ha).outsourced

/-- A new session in a package whose source is an unsafe block. -/
def oneBlock : Scene := ⟨fresh, Repair.blockPackage⟩

/-- The block is replaced, and the change accepted. -/
theorem accepted_compiled_block :
    ∃ a l u bytes candidate,
      (oneBlock.run answering ["scan", "fix 1"]).session.ledger.accept.outcome answering
          (oneBlock.run answering ["scan", "fix 1"]).state = (.ok (a, l), u) ∧
      Verified answering (oneBlock.run answering ["scan"]) (oneBlock.run answering ["scan", "fix 1"]) a.change
        bytes candidate ∧
      (oneBlock.run answering ["scan", "fix 1", "accept"]).state.disk.content a.file =
        .ok (Text.Utf8.encode candidate) := by
  obtain ⟨⟨a, l⟩, hal, -⟩ := exists_of_toOption (y := ())
    (x := ((oneBlock.run answering ["scan", "fix 1"]).session.ledger.accept.outcome answering
      (oneBlock.run answering ["scan", "fix 1"]).state).1) (f := fun _ => ()) (by decide +kernel)
  obtain ⟨u, hok⟩ := Repair.exists_outcome_of_fst hal
  obtain ⟨m, fixing, word, bytes, candidate, hm, hfixing, hfix, verified, hwritten⟩ :=
    accepted_compiled answering oneBlock answering_harmless fresh_outsourced answering_steady.letsRestore
      (copiesFree_of_files (by decide +kernel)) rfl ["scan", "fix 1", "accept"] 2 "accept" a l u rfl rfl hok
  obtain rfl | rfl : m = 0 ∨ m = 1 := by omega
  · obtain rfl : fixing = "scan" := (Option.some.inj hfixing).symm
    cases hfix
  · exact ⟨a, l, u, bytes, candidate, hok, verified, hwritten fun k line hk hn => by omega⟩

/-! ## Scans that meet everything in order -/

/-- The session after a scan of some files, their findings being in order. -/
def Scene.gathered (h : Host) (x : Scene) (files : List Path) : Scene :=
  let found := (findingsAcross x.session.registry files).outcome h x.state
  let issues := keepFirst [] (found.1.toOption.getD [])
  ⟨{ x.session with issues }, ((printIssues issues issuesTitle).outcome h found.2).2⟩

/-- The sources below a directory, if they are met in order. -/
theorem sourceFiles_of_sorted {d : Disk} {dir : Location} {exclude : Value} {files : List Path}
    (hdir : d.locate p = .ok (dir, .dir))
    (hkept : keptSources exclude p (d.tree.below dir) = .ok files)
    (sorted : files.Pairwise fun p q => Path.le p q = true) : sourceFiles d p exclude = .ok files := by
  unfold sourceFiles
  rw [hdir]
  simp only
  rw [hkept]
  exact congrArg Except.ok (List.mergeSort_of_pairwise sorted)

/-- A scan gathers the findings in the sources if these are met in order and their findings too. -/
theorem after_scan (dir : Location) {files : List Path} (hline : Command.ofLine line = .scan)
    (hdir : x.state.disk.locate x.session.target = .ok (dir, .dir))
    (hkept : keptSources x.session.settings.exclude x.session.target (x.state.disk.tree.below dir) =
      .ok files)
    (sorted : files.Pairwise fun p q => Path.le p q = true)
    (hfound : ((findingsAcross x.session.registry files).outcome h x.state).1.toOption.map (fun issues =>
        decide ((keepFirst [] issues).Pairwise fun i j => Issue.le i j = true) &&
          ((printIssues (keepFirst [] issues) issuesTitle).outcome h
            ((findingsAcross x.session.registry files).outcome h x.state).2).1.isOk) = some true) :
    x.after h line = x.gathered h files := by
  obtain ⟨issues, hissues, hordered⟩ := exists_of_toOption hfound
  obtain ⟨u, hu⟩ := Repair.exists_outcome_of_fst hissues
  rw [hu, Bool.and_eq_true, decide_eq_true_eq] at hordered
  obtain ⟨ordered, hprinted⟩ := hordered
  have hscan : (x.session.registry.scan x.session.target x.session.settings.exclude).outcome h x.state =
      (.ok (keepFirst [] issues), u) := by
    unfold Registry.scan
    -- sorting two findings or more does not compute, but it leaves what is in order
    rw [outcome_disk_bind, sourceFiles_of_sorted hdir hkept sorted, outcome_ofExcept_ok_bind,
      outcome_bind_of_ok hu, inOrder, List.mergeSort_of_pairwise ordered]
    rfl
  rcases hprint : (printIssues (keepFirst [] issues) issuesTitle).outcome h u with ⟨f | ⟨⟩, w⟩
  · rw [hprint] at hprinted
    cases hprinted
  have hrescan : (x.session.perform (Command.ofLine line)).outcome h x.state =
      (.ok ({ x.session with issues := keepFirst [] issues }, .ok ()), w) := by
    rw [hline]
    change x.session.rescan.outcome h x.state = _
    rw [outcome_rescan, hscan]
    simp only
    rw [hprint]
  unfold Scene.after Session.handle
  simp only
  rw [outcome_bind_of_ok hrescan]
  unfold Scene.gathered
  rw [hu]
  simp only [Except.toOption, Option.getD_some, hprint]
  rfl

/-! ## Changes that were never compiled -/

/-- The pending change is accepted, and its file then holds a text that no program has found there. -/
def AcceptsUncompiled (h : Host) (x : Scene) (text : String) : Prop :=
  ∃ a l u, x.session.ledger.accept.outcome h x.state = (.ok (a, l), u) ∧
    u.disk.content a.file = .ok (Text.Utf8.encode text) ∧
    ∀ run ∈ u.runs, (⟨run.2, u.disk.here⟩ : Disk).content a.file ≠ .ok (Text.Utf8.encode text)

/-- What is to be computed for it. -/
theorem acceptsUncompiled_of_toOption {text : String}
    (hx : (x.session.ledger.accept.outcome h x.state).1.toOption.map (fun r =>
        let u := (x.session.ledger.accept.outcome h x.state).2
        decide ((u.disk.content r.1.file).toOption = some (Text.Utf8.encode text)) &&
          u.runs.all fun run =>
            decide (((⟨run.2, u.disk.here⟩ : Disk).content r.1.file).toOption ≠
              some (Text.Utf8.encode text))) = some true) :
    AcceptsUncompiled h x text := by
  obtain ⟨⟨a, l⟩, hal, hwritten⟩ := exists_of_toOption hx
  obtain ⟨u, hok⟩ := Repair.exists_outcome_of_fst hal
  simp only [hok, Bool.and_eq_true, decide_eq_true_eq, List.all_eq_true] at hwritten
  obtain ⟨hcontent, huncompiled⟩ := hwritten
  refine ⟨a, l, u, hok, ?_, fun run hrun hfound => huncompiled run hrun ?_⟩
  · rcases hc : u.disk.content a.file with f | b
    · rw [hc] at hcontent
      cases hcontent
    · rw [hc] at hcontent
      exact congrArg Except.ok (Option.some.inj hcontent)
  · rw [hfound]
    rfl

/-- Surroundings in which programs end well, and the model gives some answers in turn. -/
def scripted (answers : List String) : Host where
  hasKey := true
  hasPackage := true
  run _ _ t := (.ended 0 none none, t)
  ask n _ t := (.blocks [("text", answers.getD n "")], t)
  refuse _ _ := none
  clock _ := ""

theorem scripted_harmless (answers : List String) : (scripted answers).Harmless :=
  ⟨fun _ _ _ => rfl, fun _ _ _ => rfl⟩

/-- Answers with which the bodies of two functions are replaced, one after the other. -/
def replacingBodies (first second : String) : Host :=
  scripted [
    "[\"empty it\"]", "fn " ++ first ++ "() \x7b\n;\n\x7d", "\x7b\"passed\": true\x7d",
    "[\"empty it\"]", "fn " ++ second ++ "() \x7b\n;\n\x7d", "\x7b\"passed\": true\x7d"]

/-- A function with a body. -/
def function (name body : String) : String :=
  "fn " ++ name ++ "() \x7b\n" ++ body ++ "\n\x7d\n"

/-- A source with two functions, some lines apart. -/
def twoFunctions (first second : String) : String :=
  function "f" first ++ "\n\n\n" ++ function "h" second

/-- A new session in a package whose source has two unsafe blocks. -/
def twoBlocks : Scene where
  session := fresh
  state :=
    { disk := ⟨⟨[(["Cargo.toml"], .file []),
        (["a.rs"], .file (Text.Utf8.encode (twoFunctions "unsafe \x7b\x7d" "unsafe \x7b\x7d")))]⟩,
        []⟩ }

/-- A change is accepted, another one is made on top of it, the first one is undone and the second one
accepted. -/
theorem acceptsUncompiled_after_rollback :
    AcceptsUncompiled (replacingBodies "f" "h")
      (twoBlocks.run (replacingBodies "f" "h") ["scan", "fix 1", "accept", "scan", "fix 1", "rollback"])
      (twoFunctions "unsafe \x7b\x7d" ";") := by
  have hscan : twoBlocks.after (replacingBodies "f" "h") "scan" =
      twoBlocks.gathered (replacingBodies "f" "h") [packageSource] :=
    after_scan [] rfl rfl rfl (by decide) (by decide +kernel)
  unfold Scene.run
  rw [List.foldl_cons, hscan]
  exact acceptsUncompiled_of_toOption (by decide +kernel)

/-- Surroundings in which the body of a function is replaced, then a line is added to it, and the file is not
restored after that. -/
def refusingRestore : Host :=
  { scripted ["[\"empty it\"]", ";", "\x7b\"passed\": true\x7d",
      "[\"extend it\"]", "unsafe \x7b\x7d\n;", "\x7b\"passed\": true\x7d"] with
    refuse n _ := if n = 16 then some .other else none }

/-- A change is pending, another one for the same file fails to be restored, and the first one is accepted. -/
theorem acceptsUncompiled_after_refusal :
    AcceptsUncompiled refusingRestore (oneBlock.run refusingRestore ["scan", "fix 1", "fix 1"]) ";\n;\n" :=
  acceptsUncompiled_of_toOption (by decide +kernel)

/-- A new session in a package in which a directory with a source bears the name of a copy. -/
def copyIsDirectory : Scene where
  session := fresh
  state :=
    { disk := ⟨⟨[(["Cargo.toml"], .file []),
        (["a.rs"], .file (Text.Utf8.encode (function "f" "unsafe \x7b\x7d" ++ "//\n"))),
        (["a.rs.remedy.bak"], .dir),
        (["a.rs.remedy.bak", "a.rs"], .file (Text.Utf8.encode (function "f" "unsafe \x7b\x7d")))]⟩,
        []⟩ }

/-- A change of the source in that directory is pending, the other source is copied over it, and the change
is accepted. -/
theorem acceptsUncompiled_over_directory :
    AcceptsUncompiled (replacingBodies "f" "f")
      (copyIsDirectory.run (replacingBodies "f" "f") ["scan", "fix 2", "fix 1"])
      (function "f" ";" ++ "//\n") := by
  have hscan : copyIsDirectory.after (replacingBodies "f" "f") "scan" =
      copyIsDirectory.gathered (replacingBodies "f" "f")
        [packageSource, ⟨.here, ["a.rs.remedy.bak", "a.rs"]⟩] :=
    after_scan [] rfl rfl rfl (by decide +kernel) (by decide +kernel)
  unfold Scene.run
  rw [List.foldl_cons, hscan]
  exact acceptsUncompiled_of_toOption (by decide +kernel)

/-- **A change that is accepted need not have been compiled.** In a new session, with programs and a model
that change no file: if a change of the file was undone while another one was pending, if a file could not be
restored, or if a directory stands in the place of a copy. -/
theorem accepted_never_compiled :
    Session.new ⟨.here, []⟩ ⟨.here, []⟩ {} [Analyzer.pattern] = .ok fresh ∧
      ((replacingBodies "f" "h").Harmless ∧ (replacingBodies "f" "h").steady ∧ CopiesFree twoBlocks.state ∧
        AcceptsUncompiled (replacingBodies "f" "h")
          (twoBlocks.run (replacingBodies "f" "h")
            ["scan", "fix 1", "accept", "scan", "fix 1", "rollback"])
          (twoFunctions "unsafe \x7b\x7d" ";")) ∧
      (refusingRestore.Harmless ∧ CopiesFree oneBlock.state ∧
        AcceptsUncompiled refusingRestore (oneBlock.run refusingRestore ["scan", "fix 1", "fix 1"])
          ";\n;\n") ∧
      (replacingBodies "f" "f").Harmless ∧ (replacingBodies "f" "f").steady ∧
        AcceptsUncompiled (replacingBodies "f" "f")
          (copyIsDirectory.run (replacingBodies "f" "f") ["scan", "fix 2", "fix 1"])
          (function "f" ";" ++ "//\n") :=
  ⟨rfl,
    ⟨scripted_harmless _, fun _ _ => rfl, copiesFree_of_files (by decide +kernel),
      acceptsUncompiled_after_rollback⟩,
    ⟨⟨fun _ _ _ => rfl, fun _ _ _ => rfl⟩, copiesFree_of_files (by decide +kernel),
      acceptsUncompiled_after_refusal⟩,
    scripted_harmless _, fun _ _ => rfl, acceptsUncompiled_over_directory⟩

end FixGate.Session
