import FixGate.Proofs.Repair.Cleared
import FixGate.Proofs.Validation.Bystanders
import FixGate.Session

/-!
# What a session leaves alone

Most commands write no file to stay. A fix puts candidates in the place of a file and restores it, and the
copy that it restores from takes the place of whatever file had that name before, so files may be lost, but
none gets another content. Where a directory stands in the place of a copy this fails, since a file cannot be
restored from it.

* `Unwritten` : every place holds what it held, or nothing
* `CopiesFree`, `Leaves` : no directory stands in the place of a copy, and then nothing is written
* `Validator.validate_unwritten` : a validation writes nothing to stay
* `Repair.leaves_stays` : neither does a repair
* `Session.Quiet.perform` : what scans and repairs keep, commands keep that neither accept nor roll back
* `Session.quiet_leaves` : scans and repairs write nothing to stay
-/

namespace FixGate

open Act FileTree

variable {h : Host} {s t u : State} {file p : Path} {bytes : List UInt8} {i : Issue} {c : Change}

/-! ## States that hold nothing new -/

/-- Every place holds what it held, or nothing. The directories are the same, and programs may have been
started. -/
structure Unwritten (s t : State) : Prop where
  ways : SameWays s t
  runs : s.runs <+: t.runs
  entries : ∀ k, t.disk.tree.get? k = s.disk.tree.get? k ∨ t.disk.tree.get? k = none

theorem Unwritten.of_disk (disk : t.disk = s.disk) (runs : s.runs <+: t.runs) : Unwritten s t := by
  refine ⟨?_, runs, fun k => .inl (by rw [disk])⟩
  unfold SameWays
  rw [disk]
  exact ⟨rfl, .refl _⟩

theorem Unwritten.of_idle (idle : Idle s t) : Unwritten s t :=
  .of_disk idle.1 (idle.2 ▸ List.prefix_refl _)

theorem Unwritten.refl (s : State) : Unwritten s s := .of_idle (Idle.refl s)

theorem Unwritten.trans (st : Unwritten s t) (tu : Unwritten t u) : Unwritten s u where
  ways := st.ways.trans _ _ _ tu.ways
  runs := st.runs.trans tu.runs
  entries k := by
    rcases tu.entries k with hu | hu
    · rw [hu]
      exact st.entries k
    · exact .inr hu

/-- A tree with the same entries everywhere holds nothing new. -/
theorem Unwritten.of_same {n : Nat} {tree : FileTree} (same : tree.Same s.disk.tree) :
    Unwritten s ((s.steps n).withTree tree) :=
  ⟨⟨rfl, same.symm.sameDirs⟩, List.prefix_refl _, fun k => .inl (same k)⟩

/-- No directory stands in the place of the copy of a file. -/
def CopiesFree (s : State) : Prop :=
  ∀ p, s.disk.entryAt (copyOf p) ≠ some .dir

theorem CopiesFree.of_ways (free : CopiesFree s) (ways : SameWays s t) : CopiesFree t := by
  intro p hd
  have back : SameWays t s := ⟨ways.1.symm, ways.2.symm⟩
  exact free p (back.entryAt_dir hd)

/-- A directory in the place of a copy bears its name, beside the file. -/
theorem exists_of_entryAt_copyOf (hd : s.disk.entryAt (copyOf p) = some .dir) :
    ∃ parent, s.disk.tree.walk [] (p.parent.fromRoot s.disk.here) = .ok parent ∧
      s.disk.tree.get? parent = some .dir ∧
      s.disk.tree.get? (parent ++ [p.name ++ copySuffix]) = some .dir := by
  obtain ⟨l, hl⟩ : ∃ l, s.disk.locate (copyOf p) = .ok (l, .dir) := by
    unfold Disk.entryAt at hd
    split at hd
    · next l e hl =>
      cases hd
      exact ⟨l, hl⟩
    · cases hd
  unfold Disk.locate at hl
  split at hl
  · cases hl
  rw [fromRoot_copyOf, walk_append] at hl
  rcases hw : s.disk.tree.walk [] (p.parent.fromRoot s.disk.here) with f | parent
  · rw [hw] at hl
    cases hl
  rw [hw] at hl
  simp only [Except.bind, walk, beq_iff_eq, if_neg (append_copySuffix_ne_dots p.name)] at hl
  rcases hp : s.disk.tree.get? parent with _ | b | _
  all_goals
    rw [hp] at hl
    simp only at hl
  · cases hl
  · cases hl
  split at hl
  · cases hl
  rcases he : s.disk.tree.get? (parent ++ [p.name ++ copySuffix]) with _ | e
  all_goals
    rw [he] at hl
    simp only at hl
  · cases hl
  · simp only [bind, Except.bind, he] at hl
    cases hl
    exact ⟨parent, rfl, hp, he⟩

/-- Where there are only files, no directory stands in the place of a copy. -/
theorem copiesFree_of_files (files : ∀ x ∈ s.disk.tree.entries, x.2 ≠ .dir) : CopiesFree s := by
  intro p hd
  obtain ⟨l, -, -, hl⟩ := exists_of_entryAt_copyOf hd
  rw [get?_of_ne_nil _ (by simp)] at hl
  obtain ⟨before, rest, hentries, -⟩ := List.lookup_eq_some_iff.1 hl
  exact files (l ++ [p.name ++ copySuffix], .dir) (by rw [hentries]; simp) rfl

/-- Nothing is written if no directory stands in the place of a copy. -/
def Leaves (s t : State) : Prop :=
  CopiesFree s → Unwritten s t

theorem Leaves.refl (s : State) : Leaves s s := fun _ => .refl s

theorem Leaves.trans (s t u : State) (st : Leaves s t) (tu : Leaves t u) : Leaves s u :=
  fun free => (st free).trans (tu (free.of_ways (st free).ways))

theorem Leaves.of_idle (idle : Idle s t) : Leaves s t := fun _ => .of_idle idle

theorem Act.Outsourced.runs_prefix {α : Type} {a : Act α} (ha : a.Outsourced) (h : Host) (s : State) :
    s.runs <+: (a.outcome h s).2.runs :=
  (ha h (fun _ _ => True) ⟨fun _ => trivial, fun _ _ _ _ _ => trivial, fun _ _ _ => trivial⟩ s).runs

/-- Where programs leave the files alone, so does an action that only starts programs. -/
theorem Act.Outsourced.leaves {α : Type} {a : Act α} (ha : a.Outsourced) (harmless : h.Harmless) :
    Keeps h Leaves a :=
  fun s _ => .of_disk (ha.disk_eq harmless.run s) (ha.runs_prefix h s)

/-- So does an action that touches neither files nor programs. -/
theorem Act.leaves_of_idle {α : Type} {a : Act α} (ha : Keeps h Idle a) : Keeps h Leaves a :=
  fun s => .of_idle (ha s)

/-! ## Validations -/

namespace Validator

variable {α : Type} {a : Act α} {v : Validator} {candidate : String} {sought : Option Issue}

/-- With a candidate in the place of a file that was copied, only that place is touched, and the copy guards
the bytes. -/
theorem guarded_of_inPlace (harmless : h.Harmless) (candidate : String) (ha : a.Outsourced)
    {l lc : Location} (g : Guarded s.disk file bytes l lc) :
    ∃ r w, (do writeText file candidate; a : Act α).outcome h s = (r, w) ∧
      Guarded w.disk file bytes l lc ∧ w.disk.here = s.disk.here ∧ s.runs <+: w.runs ∧
      ∀ k, k ≠ l → w.disk.tree.get? k = s.disk.tree.get? k := by
  have alone : ∀ w, (a.outcome h w).2.disk = w.disk := ha.disk_eq harmless.run
  have touched : ∀ k, s.disk.locateNew file = .ok k → k = l := by
    intro k hk
    exact Except.ok.inj (hk.symm.trans g.place)
  have same : SameBut (· = l) s ((do writeText file candidate; a : Act α).outcome h s).2 :=
    inPlace_sameBut alone touched
  have hruns : s.runs <+: ((do writeText file candidate; a : Act α).outcome h s).2.runs := by
    have written := writeText_unmoved (h := h) file candidate s
    rw [outcome_bind]
    rcases hw : (writeText file candidate).outcome h s with ⟨f | _, w⟩
    all_goals rw [hw] at written
    · exact written.2 ▸ List.prefix_refl _
    · exact written.2 ▸ ha.runs_prefix h w
  exact ⟨_, _, rfl, g.inPlace alone candidate, same.ways.1, hruns, same.entries⟩

/-- An action with a candidate in the place of a file leaves the files as they are, or takes away what stood in the
place of the copy. -/
theorem whileInPlace_entries (harmless : h.Harmless) (candidate : String) (ha : a.Outsourced)
    (lets : h.LetsRestore file) (hd : s.disk.entryAt (copyOf file) ≠ some .dir) :
    ∃ r u, (whileInPlace file candidate a).outcome h s = (r, u) ∧ u.disk.here = s.disk.here ∧ s.runs <+: u.runs ∧
      (u.disk = s.disk ∨ ∃ l lc b, s.disk.locateNew file = .ok l ∧ s.disk.tree.get? l = some (.file b) ∧
        s.disk.locateNew (copyOf file) = .ok lc ∧
        ∀ k, u.disk.tree.get? k = if k = lc then none else s.disk.tree.get? k) := by
  rcases whileInPlace_copies (h := h) candidate a hd with
    ⟨f, n, hcopy⟩ | ⟨b, l, lc, n, -, hl, hentry, hlc, g, hcopy⟩
  · exact ⟨_, _, hcopy, rfl, List.prefix_refl _, .inl rfl⟩
  rw [hcopy]
  set copied := (s.steps n).withTree (s.disk.tree.put lc (.file b)) with hcopied
  obtain ⟨r, w, hw, g, here, hruns, entries⟩ := guarded_of_inPlace (s := copied) harmless candidate ha g
  obtain ⟨u, hu, hhere, hsame, restored⟩ := g.restore_entries lets
  rw [outcome_ensure, hw]
  simp only [hu]
  refine ⟨_, _, rfl, hhere.trans here, hsame.symm ▸ hruns, .inr ⟨l, lc, b, hl, hentry, hlc, fun k => ?_⟩⟩
  rw [restored]
  split_ifs with hcopy hplace
  · rfl
  · rw [hplace, hentry]
  · rw [entries k hplace, hcopied, State.withTree_tree, get?_put _ (Disk.ne_nil_of_locateNew hlc),
      if_neg hcopy]

/-- An action with a candidate in the place of a file writes nothing to stay. -/
theorem whileInPlace_unwritten (harmless : h.Harmless) (candidate : String) (ha : a.Outsourced)
    (lets : h.LetsRestore file) (hd : s.disk.entryAt (copyOf file) ≠ some .dir) :
    Unwritten s ((whileInPlace file candidate a).outcome h s).2 := by
  obtain ⟨r, u, hu, here, hruns, hfinal⟩ := whileInPlace_entries harmless candidate ha lets hd
  rw [hu]
  rcases hfinal with hsame | ⟨l, lc, b, -, -, hlc, entries⟩
  · exact .of_disk hsame hruns
  refine ⟨⟨here, fun k => ?_⟩, hruns, fun k => ?_⟩
  · rw [entries]
    split_ifs with hk
    · simp [hk, Disk.get?_ne_dir_of_locateNew hlc]
    · exact Iff.rfl
  · rw [entries]
    split_ifs
    · exact .inr rfl
    · exact .inl rfl

/-- A validation writes nothing to stay. -/
theorem validate_unwritten (harmless : h.Harmless) (hv : ∀ a ∈ v.registry, a.Outsourced)
    (lets : h.LetsRestore file) (candidate : String) (sought : Option Issue)
    (hd : s.disk.entryAt (copyOf file) ≠ some .dir) :
    Unwritten s ((v.validate file candidate sought).outcome h s).2 := by
  rcases validate_cases v h s file candidate sought with
    ⟨⟨idle, -, -⟩, -⟩ | ⟨t, c, w, -, ⟨idle, -, -⟩, heq⟩
  · exact .of_idle idle
  · rw [heq]
    exact (Unwritten.of_idle idle).trans
      (whileInPlace_unwritten harmless candidate (judge_outsourced hv t c file sought) lets
        (idle.1 ▸ hd))

end Validator

/-! ## Repairs -/

/-- A repair by a model writes nothing to stay. -/
theorem Repair.leaves_stays {v : Validator} (m : Model) (settings : Settings) (harmless : h.Harmless)
    (hv : ∀ a ∈ v.registry, a.Outsourced) (lets : h.LetsRestore i.file) :
    Repair.Stays ⟨.ofModel m v, settings⟩ i h Leaves where
  refl := .refl
  trans := .trans
  plan code feedback := leaves_of_idle (m.plan_idle harmless i code feedback)
  implement code p := leaves_of_idle (m.implement_idle harmless code p i)
  review code p newCode := leaves_of_idle (m.review_idle harmless code p newCode i)
  validate candidate _ free := v.validate_unwritten harmless hv lets candidate (some i) (free i.file)
  steps _ _ := .of_idle ⟨rfl, rfl⟩
  drawId _ := .of_idle ⟨rfl, rfl⟩

/-! ## Printing -/

/-- Something may have been printed, and that is all. -/
def Told (s t : State) : Prop :=
  ∃ notices, t = { s with notices }

theorem Told.refl (s : State) : Told s s := ⟨s.notices, rfl⟩

theorem Told.trans (s t u : State) (st : Told s t) (tu : Told t u) : Told s u := by
  obtain ⟨_, rfl⟩ := st
  obtain ⟨notices, rfl⟩ := tu
  exact ⟨notices, rfl⟩

theorem Told.idle (told : Told s t) : Idle s t := by
  obtain ⟨_, rfl⟩ := told
  exact ⟨rfl, rfl⟩

theorem notify_told (n : Notice) : Keeps h Told (notify n) := fun _ => ⟨_, rfl⟩

theorem printIssues_told (is : List Issue) (title : String) : Keeps h Told (printIssues is title) := by
  unfold printIssues
  split
  · exact notify_told _
  · exact (Keeps.ofExcept Told.refl _).bind Told.trans fun rows =>
      (notify_told _).bind Told.trans fun _ => notify_told _

theorem printEntries_told (number : Nat) (history : List Applied) :
    Keeps h Told (printEntries number history) := by
  induction history generalizing number with
  | nil => exact Keeps.pure Told.refl _
  | cons a rest ih => exact (notify_told _).bind Told.trans fun _ => ih _

theorem printHistory_told (history : List Applied) : Keeps h Told (printHistory history) := by
  unfold printHistory
  split
  · exact notify_told _
  · exact printEntries_told 1 history

/-! ## Commands -/

theorem Validator.registry_of_make {d : Disk} {project : Option Path} {settings : Settings}
    {registry : Registry} {v : Validator} (hv : Validator.make d project settings registry = .ok v) :
    v.registry = registry := by
  unfold Validator.make at hv
  cases hroot : project.mapM d.resolveChecked with
  | error f =>
    rw [hroot] at hv
    cases hv
  | ok root =>
    rw [hroot] at hv
    cases hv
    rfl

/-- Preparing a repair changes nothing. It works with the analyzers of the project. -/
theorem Repair.byModel_cases (settings : Settings) (project : Path) (registry : Registry) (s : State) :
    (∃ f, (Repair.byModel settings project registry).outcome h s = (.error f, s)) ∨
      ∃ m v, (Repair.byModel settings project registry).outcome h s =
        (.ok ⟨.ofModel m v, settings⟩, s) ∧ v.registry = registry := by
  unfold Repair.byModel
  rw [outcome_read_bind]
  split
  · exact .inl ⟨_, rfl⟩
  · rw [outcome_disk_bind, outcome_bind, outcome_ofExcept]
    cases hv : Validator.make s.disk (some project) settings registry with
    | error f => exact .inl ⟨f, rfl⟩
    | ok v => exact .inr ⟨_, v, rfl, Validator.registry_of_make hv⟩

namespace Session

variable {R : State → State → Prop} {x : Session}

/-- A relation between states that the scans and the repairs of a session keep, and what is printed. -/
structure Quiet (x : Session) (h : Host) (R : State → State → Prop) : Prop where
  refl : ∀ s, R s s
  trans : ∀ s t u, R s t → R t u → R s u
  told : ∀ s t, Told s t → R s t
  scan : Keeps h R (x.registry.scan x.target x.settings.exclude)
  fix : ∀ (m : Model) (v : Validator) (i : Issue) (note : Option String), v.registry = x.registry →
    Keeps h R (Repair.fixWithNote ⟨.ofModel m v, x.settings⟩ i none note)

namespace Quiet

theorem keeps_of_told {α : Type} {a : Act α} (quiet : x.Quiet h R) (ha : Keeps h Told a) : Keeps h R a :=
  fun s => quiet.told _ _ (ha s)

theorem orUnchanged {a : Act Session} (quiet : x.Quiet h R) (ha : Keeps h R a) : Keeps h R (x.orUnchanged a) := by
  refine ha.caught.bind quiet.trans fun r => ?_
  cases r
  · exact Keeps.pure quiet.refl _
  · exact Keeps.pure quiet.refl _

theorem rescan (quiet : x.Quiet h R) : Keeps h R x.rescan := by
  refine quiet.scan.caught.bind quiet.trans fun r => ?_
  split
  · exact Keeps.pure quiet.refl _
  · exact (quiet.keeps_of_told (printIssues_told _ _)).caught.bind quiet.trans fun _ =>
      Keeps.pure quiet.refl _

theorem prepare (quiet : x.Quiet h R) (i : Issue) : Keeps h R (x.prepare i) := by
  intro s
  unfold Session.prepare
  rcases Repair.byModel_cases (h := h) x.settings x.project x.registry s with
    ⟨f, hf⟩ | ⟨m, v, hr, registry⟩
  · rw [outcome_bind_of_error hf]
    exact quiet.refl s
  rw [outcome_bind_of_ok hr]
  refine Keeps.bind quiet.trans (quiet.fix m v i _ registry).caught (fun made => ?_) s
  split
  · exact quiet.keeps_of_told fun s => ⟨_, rfl⟩
  · exact quiet.keeps_of_told fun s => ⟨_, rfl⟩
  · exact Keeps.throw quiet.refl _

theorem prepareNumbered (quiet : x.Quiet h R) (word : Option String) : Keeps h R (x.prepareNumbered word) := by
  unfold Session.prepareNumbered
  split
  · exact quiet.keeps_of_told fun s => ⟨_, rfl⟩
  · refine (Keeps.ofExcept quiet.refl _).bind quiet.trans fun number => ?_
    split
    · exact quiet.keeps_of_told fun s => ⟨_, rfl⟩
    · exact quiet.prepare _

theorem telling {a : Act Unit} (quiet : x.Quiet h R) (ha : Keeps h Told a) :
    Keeps h R (x.orUnchanged (x.telling a)) :=
  quiet.orUnchanged ((quiet.keeps_of_told ha).bind quiet.trans fun _ => Keeps.pure quiet.refl _)

/-- Commands other than those that accept and roll back keep what scans and repairs keep. -/
theorem perform (quiet : x.Quiet h R) {command : Command} (other : command ≠ .accept)
    (other' : command ≠ .rollback) : Keeps h R (x.perform command) := by
  cases command with
  | nothing => exact quiet.orUnchanged (Keeps.pure quiet.refl _)
  | quit => exact quiet.orUnchanged (Keeps.pure quiet.refl _)
  | help => exact quiet.telling (notify_told _)
  | scan => exact quiet.rescan
  | fix word => exact quiet.orUnchanged (quiet.prepareNumbered word)
  | view =>
    refine quiet.orUnchanged (quiet.keeps_of_told ?_)
    unfold view
    split
    · exact fun s => ⟨_, rfl⟩
    · exact fun s => ⟨_, rfl⟩
  | accept => exact absurd rfl other
  | discard =>
    refine quiet.orUnchanged (quiet.keeps_of_told ?_)
    unfold discard
    split
    · exact fun s => ⟨_, rfl⟩
    · exact fun s => ⟨_, rfl⟩
  | rollback => exact absurd rfl other'
  | history => exact quiet.telling (printHistory_told _)
  | unknown word => exact quiet.telling (notify_told _)

end Quiet

/-- Scans and repairs write nothing to stay. -/
theorem quiet_leaves (harmless : h.Harmless) (hx : ∀ a ∈ x.registry, a.Outsourced)
    (lets : ∀ file, h.LetsRestore file) : x.Quiet h Leaves where
  refl := .refl
  trans := .trans
  told _ _ told := .of_idle told.idle
  scan := (Registry.scan_outsourced hx x.target x.settings.exclude).leaves harmless
  fix m _ i note registry :=
    (Repair.leaves_stays (i := i) m x.settings harmless (registry ▸ hx) (lets i.file)).fixWithNote none note

end Session

end FixGate
