import FixGate.Proofs.Act.Replaceable
import FixGate.Proofs.Session.Turns

/-!
# Nothing is written without consent

A fix puts candidates in the place of a source again and again before the user has agreed to anything. As long as
programs and model change no file, and nothing stands beside the sources under the names of their copies, all of
these are gone in the end, however many fixes are made, fail or are discarded. A source that may not be written may
keep a copy beside it, which is the one thing that can be left behind.

* `CopyPlace` : the places of the copies of sources
* `Tidy`, `Ready` : nothing stands there, or at least no directory
* `Intact` : all other places hold what they held
* `Under` : what starts in a state of some kind leaves everything intact
* `Validator.validate_intact`, `Repair.stays_intact`, `Session.quiet_intact` : validations, repairs and commands
* `Session.run_intact` : a session in which nothing is accepted or rolled back
* `LeftAlone` : everything that stood somewhere stands there still
-/

namespace FixGate

open Act FileTree

variable {h : Host} {s t u : State} {file : Path} {bytes : List UInt8} {i : Issue} {l : Location}
  {P Q : State → Prop}

/-! ## The places of copies -/

/-- A place beside a source that bears the name of its copy. -/
def CopyPlace (t : FileTree) (l : Location) : Prop :=
  ∃ dir name bytes, l = dir ++ [name ++ copySuffix] ∧ t.get? (dir ++ [name]) = some (.file bytes) ∧
    Language.ofPath (Path.ofLocation (dir ++ [name])) ≠ .unknown

/-- A copy is no source. -/
theorem language_of_copy (dir : Location) (name : String) :
    Language.ofPath (Path.ofLocation (dir ++ [name ++ copySuffix])) = .unknown := by
  have hname : (name ++ copySuffix).toList =
      (name.toList ++ ['.', 'r', 'e', 'm', 'e', 'd', 'y']) ++ '.' :: ['b', 'a', 'k'] := by
    rw [String.toList_append, List.append_assoc]
    rfl
  have hsuffix : (Path.ofLocation (dir ++ [name ++ copySuffix])).suffix = ".bak" := by
    have hlast : (Path.ofLocation (dir ++ [name ++ copySuffix])).name = name ++ copySuffix := by
      simp [Path.name, Path.ofLocation]
    unfold Path.suffix
    rw [hlast, Disk.suffixOf_of_toList hname (by simp) (by simp) (by decide)]
  unfold Language.ofPath
  rw [hsuffix]
  decide +kernel

/-- So no source stands in the place of a copy. -/
theorem not_copyPlace_of_language (source : Language.ofPath (Path.ofLocation l) ≠ .unknown) (t : FileTree) :
    ¬ CopyPlace t l := by
  rintro ⟨dir, name, bytes, rfl, -, -⟩
  exact source (language_of_copy dir name)

/-- Nothing stands beside a source under the name of its copy, and toolchains are kept for sources. -/
structure Tidy (s : State) : Prop where
  free : ∀ l, CopyPlace s.disk.tree l → s.disk.tree.get? l = none
  sources : Validator.SourcesOnly s

/-- No directory stands beside a source under the name of its copy, and toolchains are kept for sources. -/
structure Ready (s : State) : Prop where
  free : ∀ l, CopyPlace s.disk.tree l → s.disk.tree.get? l ≠ some .dir
  sources : Validator.SourcesOnly s

theorem Tidy.ready (tidy : Tidy s) : Ready s :=
  ⟨fun l hl => by simp [tidy.free l hl], tidy.sources⟩

/-- Where all names are short, nothing bears the name of a copy. -/
theorem tidy_of_short (short : ∀ x ∈ s.disk.tree.entries, ∀ n ∈ x.1, n.length < copySuffix.length)
    (new : s.toolchains = []) : Tidy s := by
  refine ⟨?_, fun x hx => ?_⟩
  · rintro l ⟨dir, name, bytes, rfl, -, -⟩
    rw [get?_of_ne_nil _ (by simp)]
    cases he : s.disk.tree.entries.lookup (dir ++ [name ++ copySuffix]) with
    | none => rfl
    | some e =>
      obtain ⟨before, rest, hentries, -⟩ := List.lookup_eq_some_iff.1 he
      have hlength := short (dir ++ [name ++ copySuffix], e) (by rw [hentries]; simp) (name ++ copySuffix) (by simp)
      rw [String.length_append] at hlength
      omega
  · rw [new] at hx
    cases hx

/-! ## What is intact -/

/-- All places but those of copies hold what they held. No directory is new, and where every file can be restored
nothing is. -/
structure Intact (h : Host) (s t : State) : Prop where
  here : t.disk.here = s.disk.here
  entries : ∀ l, ¬ CopyPlace s.disk.tree l → t.disk.tree.get? l = s.disk.tree.get? l
  dirs : ∀ l, t.disk.tree.get? l = some .dir → s.disk.tree.get? l = some .dir
  gone : (∀ file, h.LetsRestore file) → ∀ l, s.disk.tree.get? l = none → t.disk.tree.get? l = none
  sources : Validator.SourcesOnly s → Validator.SourcesOnly t

namespace Intact

/-- The sources stay where they are, and so do the places of their copies. -/
theorem copyPlace (intact : Intact h s t) (hl : CopyPlace t.disk.tree l) : CopyPlace s.disk.tree l := by
  obtain ⟨dir, name, bytes, rfl, hfile, source⟩ := hl
  rw [intact.entries _ (not_copyPlace_of_language source _)] at hfile
  exact ⟨dir, name, bytes, rfl, hfile, source⟩

theorem trans (st : Intact h s t) (tu : Intact h t u) : Intact h s u where
  here := tu.here.trans st.here
  entries l hl := (tu.entries l (mt st.copyPlace hl)).trans (st.entries l hl)
  dirs l hl := st.dirs l (tu.dirs l hl)
  gone lets l hl := tu.gone lets l (st.gone lets l hl)
  sources kept := tu.sources (st.sources kept)

theorem of_disk (disk : t.disk = s.disk) (sources : Validator.SourcesOnly s → Validator.SourcesOnly t) :
    Intact h s t := by
  refine ⟨?_, fun l _ => ?_, fun l hl => ?_, fun _ l hl => ?_, sources⟩
  · rw [disk]
  · rw [disk]
  · rwa [disk] at hl
  · rwa [disk]

/-- Something else stands in the place of a copy, and nothing where every file can be restored. -/
theorem of_copyPlace {e : Option Entry} (hl : CopyPlace s.disk.tree l) (here : t.disk.here = s.disk.here)
    (entries : ∀ k, t.disk.tree.get? k = if k = l then e else s.disk.tree.get? k) (file : e ≠ some .dir)
    (gone : (∀ file, h.LetsRestore file) → e = none)
    (sources : Validator.SourcesOnly s → Validator.SourcesOnly t) : Intact h s t := by
  refine ⟨here, fun k hk => ?_, fun k hk => ?_, fun lets k hk => ?_, sources⟩
  · rw [entries, if_neg]
    rintro rfl
    exact hk hl
  · rw [entries] at hk
    split_ifs at hk
    · exact absurd hk file
    · exact hk
  · rw [entries, hk, gone lets, ite_self]

theorem ready (intact : Intact h s t) (ready : Ready s) : Ready t :=
  ⟨fun l hl hd => ready.free l (intact.copyPlace hl) (intact.dirs l hd), intact.sources ready.sources⟩

end Intact

/-- Everything that stood somewhere stands there still. Where every file can be restored, nothing else does. -/
structure LeftAlone (h : Host) (s t : State) : Prop where
  kept : ∀ l e, s.disk.tree.get? l = some e → t.disk.tree.get? l = some e
  same : (∀ file, h.LetsRestore file) → t.disk.tree.Same s.disk.tree

theorem Intact.leftAlone (intact : Intact h s t) (tidy : Tidy s) : LeftAlone h s t := by
  have kept : ∀ l e, s.disk.tree.get? l = some e → t.disk.tree.get? l = some e := by
    intro l e hl
    have hno : ¬ CopyPlace s.disk.tree l := by
      intro hcopy
      rw [tidy.free l hcopy] at hl
      cases hl
    rw [intact.entries l hno]
    exact hl
  refine ⟨kept, fun lets l => ?_⟩
  cases hl : s.disk.tree.get? l with
  | none => exact intact.gone lets l hl
  | some e => exact kept l e hl

/-- What starts in a state of some kind leaves everything intact, and reads lines that the user types at most. -/
def Under (h : Host) (P : State → Prop) (s t : State) : Prop :=
  P s → Intact h s t ∧ t.input <:+ s.input

/-- States of some kind stay of this kind while everything is intact and lines are read at most. -/
def Stable (h : Host) (P : State → Prop) : Prop :=
  ∀ s t, Intact h s t → t.input <:+ s.input → P s → P t

theorem stable_ready : Stable h Ready := fun _ _ intact _ ready => intact.ready ready

namespace Under

theorem refl (s : State) : Under h P s s := fun _ => ⟨.of_disk rfl id, List.suffix_refl _⟩

theorem trans (stable : Stable h P) (s t u : State) (st : Under h P s t) (tu : Under h P t u) :
    Under h P s u := by
  intro hs
  obtain ⟨intact, input⟩ := st hs
  obtain ⟨intact', input'⟩ := tu (stable s t intact input hs)
  exact ⟨intact.trans intact', input'.trans input⟩

theorem mono (hPQ : ∀ s, P s → Q s) {α : Type} {a : Act α} (ha : Keeps h (Under h Q) a) : Keeps h (Under h P) a :=
  fun s hs => ha s (hPQ s hs)

end Under

/-! ## What touches nothing of interest -/

/-- Neither the files nor the toolchains nor the lines that the user will type change. -/
structure Still (s t : State) : Prop where
  disk : t.disk = s.disk
  toolchains : t.toolchains = s.toolchains
  input : t.input = s.input

namespace Still

theorem refl (s : State) : Still s s := ⟨rfl, rfl, rfl⟩

theorem trans (s t u : State) (st : Still s t) (tu : Still t u) : Still s u :=
  ⟨tu.disk.trans st.disk, tu.toolchains.trans st.toolchains, tu.input.trans st.input⟩

theorem intact (still : Still s t) : Intact h s t := by
  apply Intact.of_disk still.disk
  unfold Validator.SourcesOnly
  rw [still.toolchains]
  exact id

theorem under (still : Still s t) : Under h P s t :=
  fun _ => ⟨still.intact, still.input ▸ List.suffix_refl _⟩

end Still

theorem Told.still (told : Told s t) : Still s t := by
  obtain ⟨_, rfl⟩ := told
  exact ⟨rfl, rfl, rfl⟩

/-- Where programs change no file, inquiries touch nothing of interest. -/
theorem inquiry_still (harmless : h.Harmless) : Inquiry h Still := by
  refine .of_start Still.refl Still.trans (fun r s => ?_) (fun _ _ _ => ⟨rfl, rfl, rfl⟩) fun _ _ => ⟨rfl, rfl, rfl⟩
  rw [outcome_start]
  refine ⟨?_, rfl, rfl⟩
  simp only [harmless.run]

theorem told_under {α : Type} {a : Act α} (ha : Keeps h Told a) : Keeps h (Under h P) a :=
  fun s => (ha s).still.under

/-- A scan touches nothing of interest. -/
theorem Registry.scan_still {r : Registry} (harmless : h.Harmless) (hr : ∀ a ∈ r, a.Inquiring) (path : Path)
    (exclude : Value) : Keeps h Still (r.scan path exclude) :=
  scan_keeps Still.refl Still.trans (fun a ha => hr a ha h Still (inquiry_still harmless)) path exclude

theorem Registry.scan_under {r : Registry} (harmless : h.Harmless) (hr : ∀ a ∈ r, a.Inquiring) (path : Path)
    (exclude : Value) : Keeps h (Under h P) (r.scan path exclude) :=
  fun s => (scan_still harmless hr path exclude s).under

theorem ask_still (harmless : h.Harmless) (q : Query) : Keeps h Still (ask q) :=
  fun s => ⟨(ask_idle harmless q s).1, rfl, rfl⟩

/-! ## Validations -/

/-- A file can be restored, or it may not be written at all. -/
def Host.Secures (h : Host) (file : Path) : Prop :=
  h.LetsRestore file ∨ ∀ n, h.refuse n (.write file) ≠ none

namespace Validator

variable {α : Type} {a : Act α} {v : Validator} {candidate : String}

/-- Neither the toolchains nor the lines that the user will type change. -/
structure Aside (s t : State) : Prop where
  toolchains : t.toolchains = s.toolchains
  input : t.input = s.input

theorem whileInPlace_aside (file : Path) (candidate : String) (still : Keeps h Still a) :
    Keeps h Aside (whileInPlace file candidate a) :=
  whileInPlace_keeps (fun _ => ⟨rfl, rfl⟩)
    (fun _ _ _ st tu => ⟨tu.toolchains.trans st.toolchains, tu.input.trans st.input⟩) (fun _ _ => ⟨rfl, rfl⟩)
    (fun _ _ => ⟨rfl, rfl⟩) file candidate fun s => ⟨(still s).toolchains, (still s).input⟩

/-- A file that may not be written is copied at most. -/
theorem whileInPlace_of_refused (never : ∀ n, h.refuse n (.write file) ≠ none) (candidate : String) (a : Act α)
    (hd : s.disk.entryAt (copyOf file) ≠ some .dir) :
    ∃ f n tree, (whileInPlace file candidate a).outcome h s = (.error f, (s.steps n).withTree tree) ∧
      (tree = s.disk.tree ∨ ∃ lc b, s.disk.locateNew (copyOf file) = .ok lc ∧
        tree = s.disk.tree.put lc (.file b)) := by
  rcases whileInPlace_copies (h := h) candidate a hd with
    ⟨f, n, hcopy⟩ | ⟨b, l, lc, n, -, -, -, hlc, g, hcopy⟩
  · exact ⟨f, n, s.disk.tree, hcopy, .inl rfl⟩
  rw [hcopy]
  set copied := (s.steps n).withTree (s.disk.tree.put lc (.file b)) with hcopied
  change Guarded copied.disk file b l lc at g
  obtain ⟨f, m, hw⟩ := writeText_of_refused never candidate copied
  have noDir : (copied.steps m).disk.entryAt file ≠ some .dir := by
    rw [State.steps_disk, Disk.entryAt_of_locateNew g.place]
    exact Disk.get?_ne_dir_of_locateNew g.place
  obtain ⟨f', m', hrestore⟩ := copyFile_of_refused never (copyOf file) noDir
  refine ⟨f', m', s.disk.tree.put lc (.file b), ?_, .inr ⟨lc, b, hlc, rfl⟩⟩
  rw [outcome_ensure, outcome_bind_of_error hw]
  unfold restore
  rw [outcome_bind_of_error hrestore]
  rfl

/-- The copy of a source is written in its place. -/
theorem copyPlace_of_locateNew {l lc : Location} (source : Language.ofPath (s.disk.resolve file) ≠ .unknown)
    (hl : s.disk.locateNew file = .ok l) (hentry : s.disk.tree.get? l = some (.file bytes))
    (hlc : s.disk.locateNew (copyOf file) = .ok lc) : CopyPlace s.disk.tree lc := by
  rw [resolve_of_locateNew hl] at source
  obtain ⟨parent, rfl, rfl⟩ := exists_parent_of_locateNew hl hlc
  exact ⟨parent, file.name, bytes, rfl, hentry, source⟩

/-- No directory stands in the place of the copy of a source that is read. -/
theorem entryAt_copyOf_ne_dir (ready : Ready s) (source : Language.ofPath (s.disk.resolve file) ≠ .unknown)
    (hc : s.disk.content file = .ok bytes) : s.disk.entryAt (copyOf file) ≠ some .dir := by
  intro hd
  obtain ⟨l, hl, hentry⟩ := Disk.exists_locateNew_of_content hc
  obtain ⟨parent, hw, hdir, hcopy⟩ := exists_of_entryAt_copyOf hd
  rw [resolve_of_locateNew hl] at source
  obtain rfl := eq_concat_name_of_locateNew hl hw hdir
  exact ready.free _ ⟨parent, file.name, bytes, rfl, hentry, source⟩ hcopy

/-- An action with a candidate in the place of a source leaves everything intact. -/
theorem whileInPlace_intact (harmless : h.Harmless) (secures : h.Secures file) (candidate : String)
    (ha : a.Outsourced) (still : Keeps h Still a) (ready : Ready s)
    (source : Language.ofPath (s.disk.resolve file) ≠ .unknown) :
    Intact h s ((whileInPlace file candidate a).outcome h s).2 := by
  have aside := whileInPlace_aside file candidate still s
  have sources : SourcesOnly s → SourcesOnly ((whileInPlace file candidate a).outcome h s).2 := by
    unfold SourcesOnly
    rw [aside.toolchains]
    exact id
  rcases hc : s.disk.content file with f | b
  · -- what cannot be read is not copied, and the candidate not written
    obtain ⟨g, hcopy⟩ := copyFile_of_content_error (h := h) hc (copyOf file)
    have hdisk : ((whileInPlace file candidate a).outcome h s).2.disk = s.disk := by
      unfold whileInPlace
      rw [outcome_bind_of_error hcopy]
      rfl
    exact .of_disk hdisk sources
  have hd := entryAt_copyOf_ne_dir ready source hc
  obtain ⟨l, hl, hentry⟩ := Disk.exists_locateNew_of_content hc
  rcases secures with lets | never
  · obtain ⟨r, u, hu, here, -, hsame | ⟨-, lc, -, -, -, hlc, entries⟩⟩ :=
      whileInPlace_entries harmless candidate ha lets hd
    all_goals rw [hu] at sources ⊢
    · exact .of_disk hsame sources
    exact .of_copyPlace (copyPlace_of_locateNew source hl hentry hlc) here entries nofun (fun _ => rfl) sources
  · obtain ⟨f, n, tree, hu, rfl | ⟨lc, b', hlc, rfl⟩⟩ := whileInPlace_of_refused never candidate a hd
    all_goals rw [hu] at sources ⊢
    · exact .of_disk rfl sources
    have entries := fun k => get?_put s.disk.tree (Disk.ne_nil_of_locateNew hlc) k (.file b')
    exact .of_copyPlace (copyPlace_of_locateNew source hl hentry hlc) rfl entries nofun
      (fun lets => absurd ((lets file).write 0) (never 0)) sources

theorem Prepared.intact (prepared : Prepared s t) : Intact h s t :=
  .of_disk prepared.idle.1 prepared.kept

/-- A validation leaves everything intact. -/
theorem validate_intact (harmless : h.Harmless) (hv : ∀ a ∈ v.registry, a.Inquiring) (secures : h.Secures file)
    (candidate : String) (sought : Option Issue) : Keeps h (Under h Ready) (v.validate file candidate sought) := by
  intro s ready
  rcases validate_cases v h s file candidate sought with ⟨prepared, -⟩ | ⟨t, c, w, checks, prepared, heq⟩
  · exact ⟨prepared.intact, prepared.input ▸ List.suffix_refl _⟩
  rw [heq]
  have source : Language.ofPath (w.disk.resolve file) ≠ .unknown := by
    rw [prepared.idle.1]
    exact checks.language ready.sources
  have q := inquiry_still harmless
  have still : Keeps h Still (v.judge t c file sought) :=
    judge_keeps q.refl q.trans q.run (fun a ha => hv a ha h Still q) t c file sought
  have outsourced := judge_outsourced (fun a ha => (hv a ha).outsourced) t c file sought
  have input := (whileInPlace_aside file candidate still w).input
  have intact : Intact h s w := prepared.intact
  refine ⟨intact.trans ?_, ?_⟩
  · exact whileInPlace_intact harmless secures candidate outsourced still (intact.ready ready) source
  · exact (input.trans prepared.input) ▸ List.suffix_refl _

end Validator

/-! ## Repairs -/

/-- A repair by a model leaves everything intact. -/
theorem Repair.stays_intact {v : Validator} (m : Model) (settings : Settings) (harmless : h.Harmless)
    (hv : ∀ a ∈ v.registry, a.Inquiring) (secures : h.Secures i.file) :
    Repair.Stays ⟨.ofModel m v, settings⟩ i h (Under h Ready) where
  refl := .refl
  trans := .trans stable_ready
  plan code feedback s :=
    (m.plan_keeps Still.refl Still.trans (ask_still harmless) i code feedback s).under
  implement code p s := (m.implement_keeps Still.refl Still.trans (ask_still harmless) code p i s).under
  review code p newCode s :=
    (m.review_keeps Still.refl Still.trans (ask_still harmless) code p newCode i s).under
  validate candidate := v.validate_intact harmless hv secures candidate (some i)
  steps _ _ := Still.under ⟨rfl, rfl, rfl⟩
  drawId _ := Still.under ⟨rfl, rfl, rfl⟩

namespace Session

variable {x : Session} {lines : List String} {line : String}

/-! ## Sessions -/

/-- Scans and repairs leave everything intact. -/
theorem quiet_intact (harmless : h.Harmless) (hx : ∀ a ∈ x.registry, a.Inquiring)
    (secures : ∀ file, h.Secures file) : x.Quiet h (Under h Ready) where
  refl := .refl
  trans := .trans stable_ready
  told _ _ told := told.still.under
  scan := Registry.scan_under harmless hx x.target x.settings.exclude
  fix m _ i note registry :=
    (Repair.stays_intact (i := i) m x.settings harmless (registry ▸ hx) (secures i.file)).fixWithNote none note

/-- A typed line neither accepts a change nor rolls one back. -/
def Withholds (line : String) : Prop :=
  Command.ofLine line ≠ .accept ∧ Command.ofLine line ≠ .rollback

/-- No command changes the analyzers, those that accept and roll back apart. -/
theorem registry_of_perform {se te : Session} {command : Command} {r : Except Failure Unit}
    (accepting : command ≠ .accept) (undoing : command ≠ .rollback)
    (hp : (se.perform command).outcome h s = (.ok (te, r), u)) : te.registry = se.registry := by
  by_cases fixing : ∃ word, command = .fix word
  · obtain ⟨word, rfl⟩ := fixing
    change (se.orUnchanged (se.prepareNumbered word)).outcome h s = _ at hp
    rw [outcome_orUnchanged] at hp
    rcases hn : (se.prepareNumbered word).outcome h s with ⟨f | te', u'⟩
    all_goals
      rw [hn] at hp
      cases hp
    · rfl
    · exact registry_of_prepareNumbered hn
  · exact (pending_of_perform (fun word hword => fixing ⟨word, hword⟩) accepting undoing hp).2

/-- A typed line that neither accepts nor rolls back leaves everything intact. -/
theorem after_intact {x : Scene} (harmless : h.Harmless) (hx : ∀ a ∈ x.session.registry, a.Inquiring)
    (secures : ∀ file, h.Secures file) (withholds : Withholds line) :
    Under h Ready x.state (x.after h line).state ∧ (x.after h line).session.registry = x.session.registry := by
  obtain ⟨accepting, undoing⟩ := withholds
  obtain ⟨te, r, u, hp⟩ := exists_perform (h := h) x.session (Command.ofLine line) x.state
  obtain ⟨hsession, told⟩ := after_of_perform hp
  have kept := (quiet_intact (x := x.session) harmless hx secures).perform accepting undoing x.state
  rw [hp] at kept
  exact ⟨Under.trans stable_ready _ _ _ kept told.still.under, hsession ▸ registry_of_perform accepting undoing hp⟩

/-- Typed lines none of which accepts or rolls back leave everything intact. -/
theorem run_intact {x : Scene} (harmless : h.Harmless) (hx : ∀ a ∈ x.session.registry, a.Inquiring)
    (secures : ∀ file, h.Secures file) (ready : Ready x.state) (withheld : ∀ line ∈ lines, Withholds line) :
    Intact h x.state (x.run h lines).state := by
  induction lines generalizing x with
  | nil => exact .of_disk rfl id
  | cons line rest ih =>
    obtain ⟨kept, registry⟩ := after_intact harmless hx secures (withheld line List.mem_cons_self)
    have intact := (kept ready).1
    have later : Intact h (x.after h line).state ((x.after h line).run h rest).state :=
      ih (registry.symm ▸ hx) (intact.ready ready) fun line hline => withheld line (List.mem_cons_of_mem _ hline)
    exact intact.trans later

/-- So do lines that are read one after another, up to the end of the session. -/
theorem converse_intact (harmless : h.Harmless) (secures : ∀ file, h.Secures file)
    (hx : ∀ a ∈ x.registry, a.Inquiring) (ready : Ready s) (withheld : ∀ line ∈ lines, Withholds line)
    (hinput : s.input <:+ lines) :
    Intact h s ((x.converse lines).outcome h s).2 ∧ ((x.converse lines).outcome h s).2.input <:+ lines := by
  induction lines generalizing x s with
  | nil => exact ⟨.of_disk rfl id, hinput⟩
  | cons line rest ih =>
    unfold converse
    rw [outcome_modify_bind, outcome_bind]
    -- reading the line changes nothing but what is left to be read
    set read : State := { s with input := rest } with hread
    have first : Intact h s read := .of_disk rfl id
    obtain ⟨kept, registry⟩ := after_intact (x := ⟨x, read⟩) harmless hx secures (withheld line List.mem_cons_self)
    obtain ⟨intact, input⟩ := kept (first.ready ready)
    have handled := first.trans intact
    unfold Scene.after at registry handled input
    rcases hh : (x.handle line).outcome h read with ⟨f | ⟨te, f | _ | _⟩, u⟩
    all_goals
      simp only [hh] at registry handled input ⊢
    · exact ⟨handled, input.trans (List.suffix_cons _ _)⟩
    · exact ⟨handled, input.trans (List.suffix_cons _ _)⟩
    · exact ⟨handled, input.trans (List.suffix_cons _ _)⟩
    · obtain ⟨later, input'⟩ := ih (registry.symm ▸ hx) (handled.ready ready)
        (fun line hline => withheld line (List.mem_cons_of_mem _ hline)) input
      exact ⟨handled.trans later, input'.trans (List.suffix_cons _ _)⟩

end Session

end FixGate
