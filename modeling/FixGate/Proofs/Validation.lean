import FixGate.Validation
import FixGate.Proofs.Analysis.Analyzers

/-!
# A validation leaves no trace

A candidate stands in the place of its file only while the validation lasts. Whatever the programs do in
the meantime, as long as they leave the copy and the way to the file alone, the file has its bytes back in
the end and the copy is gone, and whatever comes of the validation passes through the same restoration.

* `Spares` : the programs leave the copy of a file and the way to the file alone
* `Guarded` : the copy of a file holds its bytes
* `Validator.whileInPlace_cases` : a candidate in the place of its file, and the file restored
* `Validator.judge_cases` : the compiler is the first program that is started
* `Validator.validate_restores` : a validation restores its file
-/

namespace FixGate

open Act FileTree

variable {h : Host} {s t u : State} {file : Path} {bytes : List UInt8} {l lc : Location}

/-! ## What the programs must leave alone -/

/-- The copy of a file and the way to the file are left alone, and no directory takes its place. -/
structure Spares (here : Location) (file : Path) (t u : FileTree) : Prop where
  target : ∀ l, (⟨t, here⟩ : Disk).locateNew file = .ok l → (⟨u, here⟩ : Disk).locateNew file = .ok l
  copy : (⟨u, here⟩ : Disk).locate (copyOf file) = (⟨t, here⟩ : Disk).locate (copyOf file)

theorem confined_of_spares {here : Location} (spared : ∀ n r t, Spares here file t (h.run n r t).2) :
    h.Confined (Spares here file) where
  refl _ := ⟨fun _ hl => hl, rfl⟩
  trans _ _ _ tu uv := ⟨fun l hl => uv.target l (tu.target l hl), uv.copy.trans tu.copy⟩
  run := spared

/-- The steps of the disk that restore a file are not refused. -/
structure Host.LetsRestore (h : Host) (file : Path) : Prop where
  read : ∀ n, h.refuse n (.read (copyOf file)) = none
  write : ∀ n, h.refuse n (.write file) = none

theorem Host.steady.letsRestore (steady : h.steady) (file : Path) : h.LetsRestore file :=
  ⟨fun _ => steady _ _, fun _ => steady _ _⟩

/-! ## The copy stands apart -/

/-- The last name of the copy of a file, and what leads to it. -/
theorem fromRoot_copyOf (file : Path) (here : Location) :
    (copyOf file).fromRoot here =
      (file.parent.fromRoot here) ++ [file.name ++ copySuffix] := by
  unfold copyOf Path.withName Path.fromRoot Path.parent Path.isAbsolute
  simp only
  split <;> simp

theorem fromRoot_of_ne_nil (hfile : file.names ≠ []) (here : Location) :
    file.fromRoot here = file.parent.fromRoot here ++ [file.name] := by
  have hnames : file.names = file.names.dropLast ++ [file.name] := by
    unfold Path.name
    rw [List.getLast?_eq_some_getLast hfile]
    exact (List.dropLast_concat_getLast hfile).symm
  unfold Path.fromRoot Path.parent Path.isAbsolute
  simp only
  split
  · exact hnames
  · rw [List.append_assoc, ← hnames]

theorem append_copySuffix_ne (name : String) : name ++ copySuffix ≠ name := by
  intro hname
  have := congrArg String.length hname
  rw [String.length_append] at this
  have : copySuffix.length = 11 := rfl
  omega

/-- A file stands in the directory that its parent leads to. -/
theorem eq_concat_name_of_locateNew {d : Disk} {parent : Location} (hl : d.locateNew file = .ok l)
    (hw : d.tree.walk [] (file.parent.fromRoot d.here) = .ok parent) (hdir : d.tree.get? parent = some .dir) :
    l = parent ++ [file.name] := by
  obtain ⟨dir, n, lead, rfl⟩ := Disk.locateNew_eq_ok_iff.1 hl
  obtain ⟨ns, hns, hwalk⟩ := lead.way
  by_cases hfile : file.names = []
  · -- a path without names is its own parent, and leads to no directory
    have hparent : file.parent.fromRoot d.here = file.fromRoot d.here := by
      unfold Path.fromRoot Path.parent Path.isAbsolute
      simp only [hfile, List.dropLast_nil]
    rw [hparent, hns, walk_append, hwalk] at hw
    simp only [Except.bind, walk, lead.dir, beq_iff_eq, if_neg lead.name, lead.short, Bool.false_eq_true,
      if_false] at hw
    split at hw
    · cases hw
    · obtain rfl := Except.ok.inj hw
      exact absurd hdir lead.noDir
  · rw [fromRoot_of_ne_nil hfile] at hns
    obtain ⟨rfl, rfl⟩ : file.parent.fromRoot d.here = ns ∧ file.name = n := by
      simpa using List.append_inj' hns rfl
    obtain rfl := Except.ok.inj (hwalk.symm.trans hw)
    rfl

/-- The copy of a file is written beside it. -/
theorem exists_parent_of_locateNew {d : Disk} (hl : d.locateNew file = .ok l)
    (hlc : d.locateNew (copyOf file) = .ok lc) :
    ∃ parent, l = parent ++ [file.name] ∧ lc = parent ++ [file.name ++ copySuffix] := by
  obtain ⟨parent, n, lead, rfl⟩ := Disk.locateNew_eq_ok_iff.1 hlc
  obtain ⟨ns, hns, hw⟩ := lead.way
  rw [fromRoot_copyOf] at hns
  obtain ⟨rfl, rfl⟩ : file.parent.fromRoot d.here = ns ∧ file.name ++ copySuffix = n := by
    simpa using List.append_inj' hns rfl
  exact ⟨parent, eq_concat_name_of_locateNew hl hw lead.dir, rfl⟩

/-- The copy of a file is written in another place than the file. -/
theorem apart_of_locateNew {d : Disk} (hl : d.locateNew file = .ok l)
    (hlc : d.locateNew (copyOf file) = .ok lc) : l ≠ lc := by
  obtain ⟨parent, rfl, rfl⟩ := exists_parent_of_locateNew hl hlc
  intro heq
  exact append_copySuffix_ne file.name (by simpa using heq.symm)

/-! ## The copy guards the bytes -/

/-- The copy of a file holds its bytes, apart from the place of the file. -/
structure Guarded (d : Disk) (file : Path) (bytes : List UInt8) (l lc : Location) : Prop where
  place : d.locateNew file = .ok l
  copy : d.locate (copyOf file) = .ok (lc, .file bytes)
  apart : l ≠ lc

/-- A file that was copied is guarded. -/
theorem guarded_of_copied {d : Disk} (hl : d.locateNew file = .ok l)
    (hlc : d.locateNew (copyOf file) = .ok lc) (bytes : List UInt8) :
    Guarded ⟨d.tree.put lc (.file bytes), d.here⟩ file bytes l lc := by
  have dirs : d.tree.SameDirs (d.tree.put lc (.file bytes)) :=
    sameDirs_put (Disk.ne_nil_of_locateNew hlc) (Disk.get?_ne_dir_of_locateNew hlc) bytes
  refine ⟨Disk.locateNew_of_tree dirs hl, ?_, apart_of_locateNew hl hlc⟩
  rw [Disk.locate_of_locateNew (Disk.locateNew_of_tree dirs hlc)]
  simp only [get?_put _ (Disk.ne_nil_of_locateNew hlc), if_true]

/-- Another file in its place leaves the copy. -/
theorem Guarded.put {d : Disk} (g : Guarded d file bytes l lc) (b : List UInt8) :
    Guarded ⟨d.tree.put l (.file b), d.here⟩ file bytes l lc := by
  have dirs : d.tree.SameDirs (d.tree.put l (.file b)) :=
    sameDirs_put (Disk.ne_nil_of_locateNew g.place) (Disk.get?_ne_dir_of_locateNew g.place) b
  have hcopy := Disk.locateNew_of_locate_file g.copy
  have hbytes : d.tree.get? lc = some (.file bytes) :=
    (Disk.content_eq_ok_iff_of_locateNew hcopy).1 (by simp [Disk.content, g.copy])
  have hcopy' : (⟨d.tree.put l (.file b), d.here⟩ : Disk).locateNew (copyOf file) = .ok lc :=
    Disk.locateNew_of_tree dirs hcopy
  refine ⟨Disk.locateNew_of_tree dirs g.place, ?_, g.apart⟩
  rw [Disk.locate_of_locateNew hcopy']
  simp only [get?_put _ (Disk.ne_nil_of_locateNew g.place), if_neg (Ne.symm g.apart), hbytes]

/-- Programs that spare the copy leave the bytes guarded. -/
theorem Guarded.spared (g : Guarded s.disk file bytes l lc)
    (hst : ByPrograms (Spares s.disk.here file) s t) : Guarded t.disk file bytes l lc := by
  have ht : t.disk = ⟨t.disk.tree, s.disk.here⟩ := by rw [← hst.here]
  rw [ht]
  exact ⟨hst.tree.target l g.place, hst.tree.copy.trans g.copy, g.apart⟩

/-- A file is restored from a copy that guards its bytes: its place holds them, the place of the copy holds
nothing, and every other place what it held. -/
theorem Guarded.restore_entries (g : Guarded s.disk file bytes l lc) (lets : h.LetsRestore file) :
    ∃ u, (Validator.restore file).outcome h s = (.ok (), u) ∧ u.disk.here = s.disk.here ∧
      u.runs = s.runs ∧ ∀ k, u.disk.tree.get? k =
        if k = lc then none else if k = l then some (.file bytes) else s.disk.tree.get? k := by
  have hcopy := Disk.locateNew_of_locate_file g.copy
  have hcontent : s.disk.content (copyOf file) = .ok bytes := by simp [Disk.content, g.copy]
  obtain ⟨n, hn⟩ := copyFile_of_content lets.read lets.write hcontent g.place
  have g' := g.put bytes
  have hcopy' := Disk.locateNew_of_locate_file g'.copy
  have hbytes := (Disk.content_eq_ok_iff_of_locateNew hcopy').1
    (by simp [Disk.content, g'.copy] : _ = Except.ok bytes)
  set restored := s.disk.tree.put l (.file bytes) with hrestored
  refine ⟨((s.steps n).withTree restored).withTree (restored.remove lc), ?_, rfl, rfl, fun k => ?_⟩
  · unfold Validator.restore
    rw [outcome_bind, hn]
    exact removeFile_of_locateNew (s := (s.steps n).withTree restored) hcopy' hbytes
  · rw [State.withTree_tree, get?_remove _ (Disk.ne_nil_of_locateNew hcopy), hrestored,
      get?_put _ (Disk.ne_nil_of_locateNew g.place)]

/-- The file is restored from a copy that guards its bytes, and the copy is gone. -/
theorem Guarded.restore (g : Guarded s.disk file bytes l lc) (lets : h.LetsRestore file) :
    ∃ u, (Validator.restore file).outcome h s = (.ok (), u) ∧ u.disk.content file = .ok bytes ∧
      u.disk.entryAt (copyOf file) = none ∧ u.disk.here = s.disk.here ∧ u.runs = s.runs := by
  obtain ⟨u, hu, here, hruns, entries⟩ := g.restore_entries lets
  have hcopy := Disk.locateNew_of_locate_file g.copy
  have dirs : s.disk.tree.SameDirs u.disk.tree := by
    intro k
    rw [entries]
    split_ifs with hk hk
    · simp [hk, Disk.get?_ne_dir_of_locateNew hcopy]
    · simp [hk, Disk.get?_ne_dir_of_locateNew g.place]
    · exact Iff.rfl
  refine ⟨u, hu, ?_, ?_, here, hruns⟩
  · apply (Disk.content_eq_ok_iff_of_locateNew (Disk.locateNew_of_sameDirs dirs here g.place)).2
    rw [entries, if_neg g.apart, if_pos rfl]
  · rw [Disk.entryAt_of_locateNew (Disk.locateNew_of_sameDirs dirs here hcopy), entries, if_pos rfl]

namespace Validator

variable {v : Validator} {α : Type} {a : Act α}

/-! ## Judging a candidate -/

/-- The toolchains that are kept are kept for sources. -/
def SourcesOnly (s : State) : Prop :=
  ∀ x ∈ s.toolchains, x.2.isSome = true → Language.ofPath x.1 ≠ .unknown

/-- Neither files nor programs nor the lines that the user will type changed, and toolchains are kept for sources if
they were before. -/
structure Prepared (s t : State) : Prop where
  idle : Idle s t
  input : t.input = s.input
  kept : SourcesOnly s → SourcesOnly t

theorem Prepared.refl (s : State) : Prepared s s := ⟨.refl s, rfl, id⟩

theorem Prepared.trans (st : Prepared s t) (tu : Prepared t u) : Prepared s u :=
  ⟨st.idle.trans _ _ _ tu.idle, tu.input.trans st.input, fun kept => tu.kept (st.kept kept)⟩

theorem language_of_detect {d : Disk} {tools : Tools} {project : Option Path} {t : Toolchain}
    (ht : Toolchain.detect d file tools project = .ok (some t)) : Language.ofPath file ≠ .unknown := by
  intro hunknown
  unfold Toolchain.detect at ht
  rw [hunknown] at ht
  cases ht

/-- Looking up the toolchain of a file touches nothing else. -/
theorem toolchainFor_prepared (v : Validator) (file : Path) : Keeps h Prepared (v.toolchainFor file) := by
  intro s
  unfold toolchainFor
  rw [outcome_get_bind]
  simp only
  split
  · exact .refl s
  · rw [outcome_bind, outcome_ofExcept]
    cases hdetect : Toolchain.detect s.disk (s.disk.resolve file) v.settings.tools v.project with
    | error f => exact .refl s
    | ok t =>
      refine ⟨⟨rfl, rfl⟩, rfl, fun kept x hx hsome => ?_⟩
      rcases List.mem_cons.1 hx with rfl | hx
      · obtain ⟨t', rfl⟩ := Option.isSome_iff_exists.1 hsome
        exact language_of_detect hdetect
      · exact kept x hx hsome

/-- The toolchain of a file is kept for it. -/
theorem mem_of_toolchainFor {t : Toolchain} {s' : State}
    (ht : (v.toolchainFor file).outcome h s = (.ok (some t), s')) :
    (s'.disk.resolve file, some t) ∈ s'.toolchains := by
  unfold toolchainFor at ht
  rw [outcome_get_bind] at ht
  simp only at ht
  split at ht
  · next known hknown =>
    cases ht
    obtain ⟨before, after, hentries, -⟩ := List.lookup_eq_some_iff.1 hknown
    rw [hentries]
    simp
  · rw [outcome_bind, outcome_ofExcept] at ht
    cases hdetect : Toolchain.detect s.disk (s.disk.resolve file) v.settings.tools v.project with
    | error f =>
      rw [hdetect] at ht
      cases ht
    | ok t' =>
      rw [hdetect] at ht
      cases ht
      exact List.mem_cons_self

/-- Finding the command that checks a file touches nothing but the toolchain that is kept for it. -/
theorem resolve_prepared {t : Toolchain} (ht : (s.disk.resolve file, some t) ∈ s.toolchains) :
    Prepared s ((resolve t file).outcome h s).2 := by
  unfold resolve keepToolchain
  rw [outcome_disk_bind, outcome_modify_bind, outcome_ofExcept]
  refine ⟨⟨rfl, rfl⟩, rfl, fun kept x hx hsome => ?_⟩
  rcases List.mem_cons.1 hx with rfl | hx
  · have hsource := kept (_, some t) ht rfl
    exact hsource
  · exact kept x (List.mem_filter.1 hx).1 hsome

/-! What steps of the disk and other file trees lead to, a restoration leads to, and what running programs and the
analyzers keep, a compile check keeps, and what follows it. -/

section Keeps

variable {R : State → State → Prop} (refl : ∀ s, R s s) (trans : ∀ s t u, R s t → R t u → R s u)
include refl trans

theorem check_keeps (hrun : ∀ args dir timeout, Keeps h R (run args dir timeout)) (t : Toolchain) (c : Invocation) :
    Keeps h R (check t c) := by
  refine Keeps.bind trans (.tryCatch trans (hrun _ _ _) fun f => ?_) fun out => .ofExcept refl _
  split
  · exact .throw refl _
  · exact .throw refl _

theorem checkFinding_keeps (hv : ∀ a ∈ v.registry, a.Keeps h R) (file : Path) (sought : Issue)
    (r : CompileReport) : Keeps h R (v.checkFinding file sought r) := by
  refine (Registry.forIssue_keeps refl trans hv sought none).bind_of_outcome trans fun found s t hfound => ?_
  split
  · exact .pure refl _
  · next a =>
    have ha := (hv a (Registry.mem_of_firstAvailable hfound)).analyze file
    refine .tryCatch trans (ha.bind trans fun fresh => ?_) fun f => ?_
    · split
      · exact .pure refl _
      · exact .pure refl _
    · split
      · exact .pure refl _
      · exact .throw refl _

theorem verdictAfter_keeps (hv : ∀ a ∈ v.registry, a.Keeps h R) (file : Path) (sought : Option Issue)
    (r : Except ToolchainFault CompileReport) : Keeps h R (v.verdictAfter file sought r) := by
  unfold verdictAfter
  split
  · exact .pure refl _
  · split
    · exact .pure refl _
    · split
      · exact .pure refl _
      · exact checkFinding_keeps refl trans hv file _ _

theorem judge_keeps (hrun : ∀ args dir timeout, Keeps h R (run args dir timeout))
    (hv : ∀ a ∈ v.registry, a.Keeps h R) (t : Toolchain) (c : Invocation) (file : Path) (sought : Option Issue) :
    Keeps h R (v.judge t c file sought) := by
  refine Keeps.bind trans (.tryCatch trans ((check_keeps refl trans hrun t c).map _) fun f => ?_) fun r =>
    verdictAfter_keeps refl trans hv file sought r
  split
  · exact .pure refl _
  · exact .throw refl _

theorem restore_keeps (steps : ∀ s n, R s (s.steps n)) (trees : ∀ s t, R s (s.withTree t)) (file : Path) :
    Keeps h R (restore file) :=
  (copyFile_keeps refl trans steps trees _ _).bind trans fun _ => removeFile_keeps refl trees _

theorem whileInPlace_keeps (steps : ∀ s n, R s (s.steps n)) (trees : ∀ s t, R s (s.withTree t)) (file : Path)
    (candidate : String) (ha : Keeps h R a) : Keeps h R (whileInPlace file candidate a) :=
  (copyFile_keeps refl trans steps trees _ _).bind trans fun _ =>
    .ensure trans ((writeText_keeps refl trans steps trees _ _).bind trans fun _ => ha)
      (restore_keeps refl trans steps trees file)

end Keeps

/-- What follows the compile check changes files by programs only. -/
theorem verdictAfter_outsourced (hv : ∀ a ∈ v.registry, a.Outsourced) (file : Path)
    (sought : Option Issue) (r : Except ToolchainFault CompileReport) :
    (v.verdictAfter file sought r).Outsourced :=
  fun _ _ hR => verdictAfter_keeps (.refl hR) (fun _ _ _ st tu => st.trans hR tu)
    (fun a ha => (hv a ha).keeps hR) file sought r

theorem judge_outsourced (hv : ∀ a ∈ v.registry, a.Outsourced) (t : Toolchain) (c : Invocation)
    (file : Path) (sought : Option Issue) : (v.judge t c file sought).Outsourced :=
  fun _ _ hR => judge_keeps (.refl hR) (fun _ _ _ st tu => st.trans hR tu)
    (Inquiry.byPrograms hR).run (fun a ha => (hv a ha).keeps hR) t c file sought

/-- The start of a compile check: its words, its directory and its time, and the files at that moment. -/
structure Starts (t : Toolchain) (c : Invocation) (tree : FileTree) (run : Request × FileTree) :
    Prop where
  words : textsFrom 0 c.args = .ok run.1.args
  dir : run.1.dir = some c.dir
  timeout : run.1.timeout = t.tools.timeout
  tree : run.2 = tree

/-- A compile check fails before anything is started, or starts the compiler on the files as they
are. -/
theorem check_cases (t : Toolchain) (c : Invocation) (s : State) :
    (∃ f, (check t c).outcome h s = (.error f, s)) ∨
      ∃ run, Starts t c s.disk.tree run ∧ ((check t c).outcome h s).2.runs = s.runs ++ [run] := by
  unfold check
  rw [outcome_bind]
  rcases run_cases (h := h) c.args (some c.dir) t.tools.timeout s with ⟨f, -, hrun⟩ | ⟨words, hwords, hrun⟩
  · rw [outcome_tryCatch_of_error hrun]
    cases f <;> exact .inl ⟨_, rfl⟩
  · refine .inr ⟨(⟨words, some c.dir, t.tools.timeout⟩, s.disk.tree), ⟨hwords, rfl, rfl, rfl⟩, ?_⟩
    rw [← hrun]
    rcases hr : (run c.args (some c.dir) t.tools.timeout).outcome h s with ⟨f | out, u⟩
    · rw [outcome_tryCatch_of_error hr]
      cases f <;> rfl
    · rw [outcome_tryCatch_of_ok hr]
      simp only [outcome_ofExcept]

/-- Judging a candidate starts the compiler on it before any other program, or starts nothing and lets
nothing pass. -/
theorem judge_cases (hv : ∀ a ∈ v.registry, a.Outsourced) (t : Toolchain) (c : Invocation) (file : Path)
    (sought : Option Issue) (s : State) :
    (((v.judge t c file sought).outcome h s).2.runs = s.runs ∧
        ∀ verdict, ((v.judge t c file sought).outcome h s).1 = .ok verdict → verdict.passed = false) ∨
      ∃ run, Starts t c s.disk.tree run ∧
        s.runs ++ [run] <+: ((v.judge t c file sought).outcome h s).2.runs := by
  unfold judge
  rw [outcome_bind]
  rcases check_cases (h := h) t c s with ⟨f, hc⟩ | ⟨run, hrun, hruns⟩
  · -- the check failed before its start, which is no pass
    rw [outcome_tryCatch_of_error (outcome_map_of_error hc _)]
    left
    cases f <;> simp [verdictAfter, Validation.reject]
  · refine .inr ⟨run, hrun, ?_⟩
    rw [← hruns]
    have after (r : Except ToolchainFault CompileReport) (u : State) :
        u.runs <+: ((v.verdictAfter file sought r).outcome h u).2.runs :=
      (verdictAfter_outsourced hv file sought r h (fun _ _ => True)
        ⟨fun _ => trivial, fun _ _ _ _ _ => trivial, fun _ _ _ => trivial⟩ u).runs
    rcases hc : (check t c).outcome h s with ⟨f | report, u⟩
    · rw [outcome_tryCatch_of_error (outcome_map_of_error hc _)]
      cases f
      case toolchain g => exact after _ _
      all_goals exact List.prefix_refl _
    · rw [outcome_tryCatch_of_ok (outcome_map_of_ok hc _)]
      exact after _ _

/-! ## A candidate in the place of its file -/

/-- A file has its bytes back, and no copy is left that was not there before. -/
structure Restored (file : Path) (bytes : List UInt8) (s u : State) : Prop where
  content : u.disk.content file = .ok bytes
  copy : u.disk.entryAt (copyOf file) = none ∨
    u.disk.entryAt (copyOf file) = s.disk.entryAt (copyOf file)
  here : u.disk.here = s.disk.here

/-- Nothing is begun, or the candidate comes to the place of the file while a copy guards its bytes. -/
theorem whileInPlace_copies (candidate : String) (a : Act α) (hd : s.disk.entryAt (copyOf file) ≠ some .dir) :
    (∃ f n, (whileInPlace file candidate a).outcome h s = (.error f, s.steps n)) ∨
      ∃ b l lc n, s.disk.content file = .ok b ∧ s.disk.locateNew file = .ok l ∧
        s.disk.tree.get? l = some (.file b) ∧ s.disk.locateNew (copyOf file) = .ok lc ∧
        Guarded ⟨s.disk.tree.put lc (.file b), s.disk.here⟩ file b l lc ∧
        (whileInPlace file candidate a).outcome h s =
          (Act.ensure (do Act.writeText file candidate; a) (restore file)).outcome h
            ((s.steps n).withTree (s.disk.tree.put lc (.file b))) := by
  unfold whileInPlace
  rw [outcome_bind]
  rcases copyFile_cases (h := h) file hd with ⟨f, n, hcopy⟩ | ⟨b, lc, n, hb, hlc, hcopy⟩
  · rw [hcopy]
    exact .inl ⟨f, n, rfl⟩
  · obtain ⟨l, hl, hentry⟩ := Disk.exists_locateNew_of_content hb
    rw [hcopy]
    exact .inr ⟨b, l, lc, n, hb, hl, hentry, hlc, guarded_of_copied hl hlc _, rfl⟩

/-- An action with a candidate in the place of a file is not begun, or begins with the bytes of the
candidate in the file. The file is restored in both cases. -/
theorem whileInPlace_cases (candidate : String) (ha : a.Outsourced)
    (spared : ∀ n r t, Spares s.disk.here file t (h.run n r t).2) (lets : h.LetsRestore file)
    (hc : s.disk.content file = .ok bytes) (hd : s.disk.entryAt (copyOf file) ≠ some .dir) :
    (∃ f u, (whileInPlace file candidate a).outcome h s = (.error f, u) ∧
        Restored file bytes s u ∧ u.runs = s.runs) ∨
      ∃ w r t u, Failure.checkText candidate = .ok () ∧
        w.disk.content file = .ok (Text.Utf8.encode candidate) ∧
        w.disk.here = s.disk.here ∧ w.runs = s.runs ∧ a.outcome h w = (r, t) ∧
        (whileInPlace file candidate a).outcome h s = (r, u) ∧
        Restored file bytes s u ∧ u.runs = t.runs := by
  rcases whileInPlace_copies (h := h) candidate a hd with
    ⟨f, n, hcopy⟩ | ⟨b, l, lc, n, hb, -, -, -, g, hcopy⟩
  · exact .inl ⟨f, s.steps n, hcopy, ⟨hc, .inr rfl, rfl⟩, rfl⟩
  rw [hcopy]
  obtain rfl : b = bytes := by
    rw [hc] at hb
    exact (Except.ok.inj hb).symm
  set copied := (s.steps n).withTree (s.disk.tree.put lc (.file b)) with hcopied
  change Guarded copied.disk file b l lc at g
  -- whatever was done to the file, it is restored as long as its bytes are guarded
  have finish (b' : Act α) (r : Except Failure α) (w : State) (hw : b'.outcome h copied = (r, w))
      (gw : Guarded w.disk file b l lc) (here : w.disk.here = s.disk.here) :
      ∃ u, (b'.ensure (restore file)).outcome h copied = (r, u) ∧ Restored file b s u ∧
        u.runs = w.runs := by
    obtain ⟨u, hu, hcontent, hnone, hhere, hruns⟩ := gw.restore lets
    refine ⟨u, ?_, ⟨hcontent, .inl hnone, hhere.trans here⟩, hruns⟩
    rw [outcome_ensure, hw]
    simp only [hu]
  rcases writeText_cases (h := h) file candidate copied with ⟨f, m, hw⟩ | ⟨l', m, b', r, hl', hw, hr⟩
  · obtain ⟨u, hu⟩ := finish (do Act.writeText file candidate; a) (.error f) (copied.steps m)
      (outcome_bind_of_error hw _) g rfl
    exact .inl ⟨f, u, hu⟩
  obtain rfl : l' = l := by
    rw [g.place] at hl'
    exact (Except.ok.inj hl').symm
  have gw := g.put b'
  cases r with
  | error f =>
    obtain ⟨u, hu⟩ := finish (do Act.writeText file candidate; a) (.error f) _
      (outcome_bind_of_error hw _) gw rfl
    exact .inl ⟨f, u, hu⟩
  | ok _ =>
    obtain ⟨rfl, htext⟩ := hr rfl
    set w := (copied.steps m).withTree
      (copied.disk.tree.put l' (.file (Text.Utf8.encode candidate))) with hwdef
    have hspared := ha h _ (confined_of_spares spared) w
    rcases hat : a.outcome h w with ⟨r, t⟩
    rw [hat] at hspared
    obtain ⟨u, hu, hrestored, hruns⟩ := finish (do Act.writeText file candidate; a) r t
      ((outcome_bind_of_ok hw _).trans hat) (Guarded.spared (s := w) gw hspared) hspared.here
    refine .inr ⟨w, r, t, u, htext, ?_, rfl, rfl, hat, hu, hrestored, hruns⟩
    apply (Disk.content_eq_ok_iff_of_locateNew gw.place).2
    rw [get?_put _ (Disk.ne_nil_of_locateNew gw.place), if_pos rfl]

/-- On a disk that refuses nothing, what comes of an action with a candidate in the place of its file is
what comes of the action. -/
theorem whileInPlace_of_steady (steady : h.steady) {candidate : String} (ha : a.Outsourced)
    (spared : ∀ n r t, Spares s.disk.here file t (h.run n r t).2)
    (hc : s.disk.content file = .ok bytes) (hlc : s.disk.locateNew (copyOf file) = .ok lc)
    (htext : Failure.checkText candidate = .ok ()) :
    ∃ w u, (whileInPlace file candidate a).outcome h s = ((a.outcome h w).1, u) := by
  obtain ⟨l, hl, -⟩ := Disk.exists_locateNew_of_content hc
  obtain ⟨n, hcopy⟩ := copyFile_of_content (fun n => steady n _) (fun n => steady n _) hc hlc
  set copied := (s.steps n).withTree (s.disk.tree.put lc (.file bytes)) with hcopied
  have g : Guarded copied.disk file bytes l lc := guarded_of_copied hl hlc _
  obtain ⟨w, hw, gw, here⟩ : ∃ w, (Act.writeText file candidate).outcome h copied = (.ok (), w) ∧
      Guarded w.disk file bytes l lc ∧ w.disk.here = s.disk.here := by
    refine ⟨(copied.steps (copied.diskSteps + 1)).withTree
      (copied.disk.tree.put l (.file (Text.Utf8.encode candidate))), ?_, g.put _, rfl⟩
    unfold Act.writeText
    rw [htext]
    exact outcome_bind_of_ok (writeBytes_of_locateNew (steady _ _) g.place) _
  have hspared := ha h _ (confined_of_spares (here ▸ spared)) w
  obtain ⟨u, hu, -⟩ := (gw.spared hspared).restore (steady.letsRestore file)
  refine ⟨w, u, ?_⟩
  unfold whileInPlace
  rw [outcome_bind_of_ok hcopy, outcome_ensure, outcome_bind_of_ok hw, hu]

/-! ## The whole validation -/

/-- A file is checked with a command: its toolchain is known, and finds the command. -/
def Checks (v : Validator) (h : Host) (s : State) (file : Path) (t : Toolchain) (c : Invocation) :
    Prop :=
  ∃ s₁ s₂, (v.toolchainFor file).outcome h s = (.ok (some t), s₁) ∧
    (resolve t file).outcome h s₁ = (.ok c, s₂)

/-- Where toolchains are kept for sources only, a file that is checked is a source. -/
theorem Checks.language {t : Toolchain} {c : Invocation} (checks : v.Checks h s file t c) (kept : SourcesOnly s) :
    Language.ofPath (s.disk.resolve file) ≠ .unknown := by
  obtain ⟨s₁, s₂, ht, -⟩ := checks
  have prepared := toolchainFor_prepared (h := h) v file s
  rw [ht] at prepared
  have hmem := mem_of_toolchainFor ht
  rw [prepared.idle.1] at hmem
  have hsource := prepared.kept kept (s.disk.resolve file, some t) hmem rfl
  exact hsource

/-- A validation ends without a pass before anything is touched, or judges the candidate in the place of
its file. -/
theorem validate_cases (v : Validator) (h : Host) (s : State) (file : Path) (candidate : String)
    (sought : Option Issue) :
    (Prepared s ((v.validate file candidate sought).outcome h s).2 ∧
        ∀ verdict, ((v.validate file candidate sought).outcome h s).1 = .ok verdict →
          verdict.passed = false) ∨
      ∃ t c w, v.Checks h s file t c ∧ Prepared s w ∧
        (v.validate file candidate sought).outcome h s =
          (whileInPlace file candidate (v.judge t c file sought)).outcome h w := by
  unfold validate
  rw [outcome_disk_bind, outcome_bind, outcome_ofExcept]
  rcases s.disk.reaches file with f | _ | _
  · exact .inl ⟨.refl s, by simp⟩
  · exact .inl ⟨.refl s, by simp [Validation.reject]⟩
  simp only [Bool.not_true, Bool.false_eq_true, if_false]
  rw [outcome_bind]
  have htool := toolchainFor_prepared (h := h) v file s
  rcases ht : (v.toolchainFor file).outcome h s with ⟨f | _ | t, s₁⟩
  all_goals rw [ht] at htool
  · exact .inl ⟨htool, by simp⟩
  · exact .inl ⟨htool, by simp [Validation.reject]⟩
  simp only
  rw [outcome_bind]
  have hres := htool.trans (resolve_prepared (h := h) (mem_of_toolchainFor ht))
  rcases hr : (resolve t file).outcome h s₁ with ⟨f | c, s₂⟩
  all_goals rw [hr] at hres
  · rw [outcome_tryCatch_of_error (outcome_map_of_error hr _)]
    left
    cases f
    case toolchain g => exact ⟨hres, by simp [Validation.reject]⟩
    all_goals exact ⟨hres, by simp⟩
  · rw [outcome_tryCatch_of_ok (outcome_map_of_ok hr _)]
    exact .inr ⟨t, c, s₂, ⟨s₁, s₂, ht, hr⟩, hres, rfl⟩

/-- The first program started, if there is one, is the compiler, on a file that holds the bytes of a
candidate. -/
def CompilesFirst (v : Validator) (h : Host) (s : State) (file : Path) (candidate : String)
    (started : List (Request × FileTree)) : Prop :=
  ∀ run ∈ started.head?,
    (⟨run.2, s.disk.here⟩ : Disk).content file = .ok (Text.Utf8.encode candidate) ∧
      ∃ t c, v.Checks h s file t c ∧ Starts t c run.2 run

/-- What a validation comes to: the file is restored, the compiler is the first program started, and
nothing passes that was not compiled. -/
theorem validate_spec (v : Validator) (candidate : String) (sought : Option Issue)
    (hv : ∀ a ∈ v.registry, a.Outsourced) (hc : s.disk.content file = .ok bytes)
    (hd : s.disk.entryAt (copyOf file) ≠ some .dir)
    (spared : ∀ n r t, Spares s.disk.here file t (h.run n r t).2) (lets : h.LetsRestore file) :
    ∃ r u started, (v.validate file candidate sought).outcome h s = (r, u) ∧
      Restored file bytes s u ∧ u.runs = s.runs ++ started ∧
      v.CompilesFirst h s file candidate started ∧
      (∀ verdict, r = .ok verdict → verdict.passed = true →
        started ≠ [] ∧ Failure.checkText candidate = .ok ()) ∧
      ((∀ t c, ¬ v.Checks h s file t c) → u.disk = s.disk ∧ u.runs = s.runs) := by
  have fails {r : Except Failure Validation} (hr : ∀ verdict, r = .ok verdict → verdict.passed = false) :
      ∀ verdict, r = .ok verdict → verdict.passed = true →
        ([] : List (Request × FileTree)) ≠ [] ∧ Failure.checkText candidate = .ok () := by
    intro verdict hverdict hpass
    rw [hr verdict hverdict] at hpass
    cases hpass
  rcases validate_cases v h s file candidate sought with
    ⟨⟨⟨hdisk, hruns⟩, -, -⟩, hno⟩ | ⟨t, c, w, hcheck, ⟨⟨hdisk, hruns⟩, -, -⟩, heq⟩
  · generalize (v.validate file candidate sought).outcome h s = out at hdisk hruns hno ⊢
    exact ⟨out.1, out.2, [], rfl, ⟨by rw [hdisk, hc], .inr (by rw [hdisk]), by rw [hdisk]⟩,
      by rw [hruns, List.append_nil], by simp [CompilesFirst], fails hno, fun _ => ⟨hdisk, hruns⟩⟩
  rw [heq]
  have same (u : State) (hu : Restored file bytes w u) : Restored file bytes s u :=
    ⟨hu.content, by simpa only [hdisk] using hu.copy, by simpa only [hdisk] using hu.here⟩
  rw [← hdisk] at hc hd spared
  rcases whileInPlace_cases (h := h) candidate (judge_outsourced hv t c file sought) spared lets hc hd
    with ⟨f, u, hu, hrestored, huruns⟩ | ⟨begun, r, ended, u, htext, hplaced, hhere, hbegun, hjudged, hu,
      hrestored, huruns⟩
  · exact ⟨_, _, [], hu, same u hrestored, by rw [huruns, hruns, List.append_nil],
      by simp [CompilesFirst], fails (by simp), fun hno => absurd hcheck (hno t c)⟩
  · have hstart := judge_cases (h := h) hv t c file sought begun
    rw [hjudged, hbegun, hruns, ← huruns] at hstart
    rcases hstart with ⟨hsame, hno⟩ | ⟨run, hrun, rest, hrest⟩
    · exact ⟨_, _, [], hu, same u hrestored, by simpa using hsame, by simp [CompilesFirst], fails hno,
        fun hno => absurd hcheck (hno t c)⟩
    · refine ⟨_, _, run :: rest, hu, same u hrestored, by simpa using hrest.symm, ?_,
        fun _ _ _ => ⟨by simp, htext⟩, fun hno => absurd hcheck (hno t c)⟩
      rintro _ ⟨⟩
      refine ⟨?_, t, c, hcheck, ⟨hrun.words, hrun.dir, hrun.timeout, rfl⟩⟩
      rw [hrun.tree, ← hdisk, ← hhere]
      exact hplaced

end Validator

/-! ## A program that empties the file it checks -/

/-- The file at a place emptied, if there is one. -/
def emptied (t : FileTree) (l : Location) : FileTree :=
  match t.get? l with
  | some (.file _) => t.put l (.file [])
  | _ => t

/-- Surroundings in which every program fails and empties a source on the way. -/
def emptyingHost : Host where
  hasKey := true
  hasPackage := true
  run _ _ t := (.ended 1 none (some "error"), emptied t ["a.rs"])
  ask _ _ t := (.blocks [], t)
  refuse _ _ := none
  clock _ := ""

/-- A package of one source. -/
def packageState : State :=
  { disk := ⟨⟨[(["Cargo.toml"], .file []), (["a.rs"], .file [0x61, 0xff])]⟩, []⟩ }

/-- Emptying a file spares its copy and the way to the file. -/
theorem spares_emptied (t : FileTree) : Spares [] ⟨.here, ["a.rs"]⟩ t (emptied t ["a.rs"]) := by
  unfold emptied
  split
  · next b hb =>
    have dirs : t.SameDirs (t.put ["a.rs"] (.file [])) :=
      sameDirs_put (by simp) (by rw [hb]; simp) []
    refine ⟨fun l hl => Disk.locateNew_of_tree dirs hl, ?_⟩
    have hplace : (t.put ["a.rs"] (.file [])).get? ["a.rs.remedy.bak"] = t.get? ["a.rs.remedy.bak"] :=
      get?_put t (by simp) _ _
    have short : Path.isTooLongName "a.rs.remedy.bak" = false := by decide +kernel
    have walks (u : FileTree) : u.walk [] ["a.rs.remedy.bak"] =
        if (u.get? ["a.rs.remedy.bak"]).isSome then .ok ["a.rs.remedy.bak"] else .error .absent := by
      cases hu : u.get? ["a.rs.remedy.bak"] <;> simp [walk, short, hu]
    change Disk.locate ⟨t.put ["a.rs"] (.file []), []⟩ ⟨.here, ["a.rs.remedy.bak"]⟩ =
      Disk.locate ⟨t, []⟩ ⟨.here, ["a.rs.remedy.bak"]⟩
    simp only [Disk.locate, Path.fromRoot, Path.isAbsolute, bne_self_eq_false, Bool.false_eq_true,
      if_false, List.nil_append, walks, hplace]
    cases t.get? ["a.rs.remedy.bak"] <;> simp [bind, Except.bind, hplace]
  · exact ⟨fun l hl => hl, rfl⟩

end FixGate
