import FixGate.Proofs.Act.Ways
import FixGate.Proofs.Validation.Verdict

/-!
# What else a validation touches

Besides its file a validation writes and removes one more: the copy beside it, whose name is fixed. If the programs
leave the files alone, everything else stays as it was, in every state and whatever comes of the validation, and where
nothing bears the name of the copy every other file keeps its bytes. A file that does bear the name is overwritten, and
removed in the end.

* `Disk.Touched` : the place of a file, and the place where its copy goes
* `Validator.Begins` : when the copy is made
* `Validator.whileInPlace_sameBut` : a candidate in the place of its file touches these two places at most
* `Guarded.whileInPlace_clears` : and the place of the copy is empty in the end
* `Validator.validate_leaves_others` : the whole validation
-/

namespace FixGate

open Act FileTree

variable {h : Host} {s t u : State} {file : Path} {bytes : List UInt8} {l lc : Location}

/-- A place that a validation of a file may touch: that of the file, and that where its copy goes. -/
def Disk.Touched (d : Disk) (file : Path) (k : Location) : Prop :=
  d.locateNew file = .ok k ∨ d.locateNew (landing d file (copyOf file)) = .ok k

namespace Validator

variable {v : Validator} {candidate : String} {sought : Option Issue} {α : Type} {a : Act α}

/-! ## The places that are touched -/

/-- The candidate touches the place of its file, and so does what follows if it changes no file. -/
theorem inPlace_sameBut {places : Location → Prop} (alone : ∀ w, (a.outcome h w).2.disk = w.disk)
    (touched : ∀ l, s.disk.locateNew file = .ok l → places l) :
    SameBut places s ((do writeText file candidate; a : Act α).outcome h s).2 := by
  have written : SameBut places s ((writeText file candidate).outcome h s).2 := writeText_sameBut candidate touched
  rw [outcome_bind]
  rcases hw : (writeText file candidate).outcome h s with ⟨f | _, w⟩
  all_goals rw [hw] at written
  · exact written
  · exact written.trans (.of_disk (alone w))

/-- Restoring a file touches its place and that of the copy. -/
theorem restore_sameBut (ways : SameWays s t) (hl : t.disk.locateNew file = .ok l) :
    SameBut (s.disk.Touched file) t ((restore file).outcome h t).2 := by
  have noDir : t.disk.entryAt file ≠ some .dir := by
    rw [Disk.entryAt_of_locateNew hl]
    exact Disk.get?_ne_dir_of_locateNew hl
  have copied : SameBut (s.disk.Touched file) t ((copyFile (copyOf file) file).outcome h t).2 := by
    apply copyFile_sameBut
    intro k hk
    rw [landing_of_not_dir _ noDir] at hk
    exact .inl (ways.locateNew_iff.1 hk)
  unfold restore
  rw [outcome_bind]
  rcases hw : (copyFile (copyOf file) file).outcome h t with ⟨f | _, w⟩
  all_goals rw [hw] at copied
  · exact copied
  · apply copied.trans
    apply removeFile_sameBut
    intro k hk
    have hplace : s.disk.locateNew (copyOf file) = .ok k := (ways.trans _ _ _ copied.ways).locateNew_iff.1 hk
    have noDir' : s.disk.entryAt (copyOf file) ≠ some .dir := by
      rw [Disk.entryAt_of_locateNew hplace]
      exact Disk.get?_ne_dir_of_locateNew hplace
    right
    rwa [landing_of_not_dir _ noDir']

/-- A candidate that stands in the place of its file for a while touches the place of the file and that of the copy
at most. -/
theorem whileInPlace_sameBut (alone : ∀ w, (a.outcome h w).2.disk = w.disk) (file : Path) (candidate : String)
    (s : State) : SameBut (s.disk.Touched file) s ((whileInPlace file candidate a).outcome h s).2 := by
  unfold whileInPlace
  rw [outcome_bind]
  rcases copyFile_landing (h := h) file (copyOf file) s with ⟨f, n, hcopy⟩ | ⟨b, lc, n, hb, hlc, hcopy⟩
  · rw [hcopy]
    exact .of_disk rfl
  · obtain ⟨l, hl, -⟩ := Disk.exists_locateNew_of_content hb
    have copied : SameBut (s.disk.Touched file) s ((s.steps n).withTree (s.disk.tree.put lc (.file b))) :=
      .put hlc (.inr hlc) n b
    set w := (s.steps n).withTree (s.disk.tree.put lc (.file b))
    have placed : SameBut (s.disk.Touched file) w ((do writeText file candidate; a : Act α).outcome h w).2 :=
      inPlace_sameBut alone fun k hk => .inl (copied.ways.locateNew_iff.1 hk)
    have before := copied.trans placed
    have restored := before.trans
      (restore_sameBut (h := h) before.ways (before.ways.locateNew_iff.2 hl))
    rw [hcopy]
    simp only
    rw [outcome_ensure]
    rcases hr : (restore file).outcome h ((do writeText file candidate; a : Act α).outcome h w).2 with ⟨f | _, u⟩
    all_goals
      rw [hr] at restored
      exact restored

/-! ## The copy in the end -/

end Validator

section Copy

variable {α : Type} {a : Act α}

/-- The copy guards the bytes of a file from the candidate and from what follows if it changes no file. -/
theorem Guarded.inPlace (g : Guarded s.disk file bytes l lc) (alone : ∀ w, (a.outcome h w).2.disk = w.disk)
    (candidate : String) :
    Guarded ((do writeText file candidate; a : Act α).outcome h s).2.disk file bytes l lc := by
  rcases writeText_cases (h := h) file candidate s with ⟨f, n, hw⟩ | ⟨l', n, b, r, hl', hw, -⟩
  · rw [outcome_bind_of_error hw]
    exact g
  · obtain rfl : l' = l := by
      rw [g.place] at hl'
      exact (Except.ok.inj hl').symm
    cases r with
    | error f =>
      rw [outcome_bind_of_error hw]
      exact g.put b
    | ok _ =>
      rw [outcome_bind_of_ok hw, alone]
      exact g.put b

/-- On a disk that refuses nothing the place of the copy is empty in the end, whatever stood there before. -/
theorem Validator.whileInPlace_clears (steady : h.steady) (alone : ∀ w, (a.outcome h w).2.disk = w.disk)
    (candidate : String) (hc : s.disk.content file = .ok bytes) (hlc : s.disk.locateNew (copyOf file) = .ok lc) :
    ((whileInPlace file candidate a).outcome h s).2.disk.entryAt (copyOf file) = none := by
  obtain ⟨l, hl, -⟩ := Disk.exists_locateNew_of_content hc
  obtain ⟨n, hcopy⟩ := copyFile_of_content (fun n => steady n _) (fun n => steady n _) hc hlc
  have g : Guarded ((s.steps n).withTree (s.disk.tree.put lc (.file bytes))).disk file bytes l lc :=
    guarded_of_copied hl hlc bytes
  obtain ⟨u, hu, -, hnone, -⟩ := (g.inPlace alone candidate).restore (steady.letsRestore file)
  unfold whileInPlace
  rw [outcome_bind_of_ok hcopy, outcome_ensure, hu]
  exact hnone

end Copy

namespace Validator

variable {v : Validator}

/-! ## The whole validation -/

/-- A validation comes to the point where the copy is made: its file can be read, and there is a command to check it
with. -/
def Begins (v : Validator) (h : Host) (s : State) (file : Path) : Prop :=
  (∃ bytes, s.disk.content file = .ok bytes) ∧ ∃ t c, v.Checks h s file t c

/-- A validation that does not come to that point changes no file. -/
theorem disk_of_not_begins (never : ¬ v.Begins h s file) (candidate : String) (sought : Option Issue) :
    ((v.validate file candidate sought).outcome h s).2.disk = s.disk := by
  rcases validate_cases v h s file candidate sought with ⟨prepared, -⟩ | ⟨t, c, w, checks, prepared, heq⟩
  · exact prepared.idle.1
  · rw [heq, whileInPlace, outcome_bind]
    rcases copyFile_landing (h := h) file (copyOf file) w with ⟨f, n, hcopy⟩ | ⟨b, lc, n, hb, -, -⟩
    · rw [hcopy]
      exact prepared.idle.1
    · rw [prepared.idle.1] at hb
      exact absurd ⟨⟨b, hb⟩, t, c, checks⟩ never

/-- A validation touches the place of its file and that of the copy at most, if the programs write nothing. -/
theorem validate_sameBut (hv : ∀ a ∈ v.registry, a.Outsourced) (alone : ∀ n r t, (h.run n r t).2 = t)
    (s : State) (file : Path) (candidate : String) (sought : Option Issue) :
    SameBut (s.disk.Touched file) s ((v.validate file candidate sought).outcome h s).2 := by
  rcases validate_cases v h s file candidate sought with ⟨prepared, -⟩ | ⟨t, c, w, -, prepared, heq⟩
  · exact .of_disk prepared.idle.1
  · have judged : ∀ w, ((v.judge t c file sought).outcome h w).2.disk = w.disk :=
      (judge_outsourced hv t c file sought).disk_eq alone
    have placed := whileInPlace_sameBut judged file candidate w
    rw [heq]
    rw [prepared.idle.1] at placed
    exact (SameBut.of_disk prepared.idle.1).trans placed

/-- A file under the name of the copy is lost once a validation has begun. -/
theorem validate_clears (hv : ∀ a ∈ v.registry, a.Outsourced) (alone : ∀ n r t, (h.run n r t).2 = t)
    (steady : h.steady) (begins : v.Begins h s file) {old : List UInt8}
    (hold : s.disk.content (copyOf file) = .ok old) (candidate : String) (sought : Option Issue) :
    ((v.validate file candidate sought).outcome h s).2.disk.entryAt (copyOf file) = none := by
  obtain ⟨⟨bytes, hc⟩, t, c, checks⟩ := begins
  obtain ⟨l, hl, hbytes⟩ := Disk.exists_locateNew_of_content hc
  obtain ⟨lc, hlc, -⟩ := Disk.exists_locateNew_of_content hold
  have hreach : s.disk.reaches file = .ok true := by
    rw [Disk.reaches_of_locateNew hl, hbytes]
    rfl
  obtain ⟨w, idle, hplaced⟩ := exists_validate_eq hreach checks
  have heq : (v.validate file candidate sought).outcome h s =
      (whileInPlace file candidate (v.judge t c file sought)).outcome h w := hplaced v.registry candidate sought
  have judged : ∀ w, ((v.judge t c file sought).outcome h w).2.disk = w.disk :=
    (judge_outsourced hv t c file sought).disk_eq alone
  rw [← idle.1] at hc hlc
  rw [heq]
  exact whileInPlace_clears steady judged candidate hc hlc

/-- **What else a validation touches.** If the programs that it starts write nothing, a validation leaves every place as
it was but that of its file and that where the copy of the file goes, in every state and however it ends. Where nothing
bears the name of the copy, every file but its own keeps its bytes, and where the file cannot be read or there is no
command to check it with, nothing changes at all. But once the copy is made on a disk that refuses nothing, a file
under its name is lost. -/
theorem validate_leaves_others (v : Validator) (h : Host) (s : State) (file : Path) (candidate : String)
    (sought : Option Issue) (hv : ∀ a ∈ v.registry, a.Outsourced) (alone : ∀ n r t, (h.run n r t).2 = t) :
    ∃ r u, (v.validate file candidate sought).outcome h s = (r, u) ∧
      (∀ k, s.disk.locateNew file ≠ .ok k → s.disk.locateNew (landing s.disk file (copyOf file)) ≠ .ok k →
        u.disk.tree.get? k = s.disk.tree.get? k) ∧
      (s.disk.entryAt (copyOf file) = none → ∀ k b, s.disk.locateNew file ≠ .ok k →
        s.disk.tree.get? k = some (.file b) → u.disk.tree.get? k = some (.file b)) ∧
      (¬ v.Begins h s file → u.disk = s.disk) ∧
      (h.steady → v.Begins h s file → ∀ old, s.disk.content (copyOf file) = .ok old →
        u.disk.entryAt (copyOf file) = none) := by
  have same := validate_sameBut hv alone s file candidate sought
  refine ⟨((v.validate file candidate sought).outcome h s).1, ((v.validate file candidate sought).outcome h s).2, rfl,
    ?_, ?_, fun never => disk_of_not_begins never candidate sought,
    fun steady begins old hold => validate_clears hv alone steady begins hold candidate sought⟩
  · intro k hfile hcopy
    exact same.entries k fun touched => touched.elim hfile hcopy
  · intro hnone k b hfile hb
    have noDir : s.disk.entryAt (copyOf file) ≠ some .dir := by simp [hnone]
    have apart : s.disk.locateNew (landing s.disk file (copyOf file)) ≠ .ok k := by
      intro hk
      rw [landing_of_not_dir _ noDir] at hk
      rw [Disk.entryAt_of_locateNew hk, hb] at hnone
      cases hnone
    exact (same.entries k fun touched => touched.elim hfile apart).trans hb

end Validator

/-! ## A file under the name of the copy -/

/-- A package of one source, with another file under the name of the copy of the source. -/
def occupiedState : State :=
  { disk := ⟨⟨[(["Cargo.toml"], .file []), (["a.rs"], .file (Text.Utf8.encode "fn f() \x7b\x7d\n")),
      (["a.rs.remedy.bak"], .file (Text.Utf8.encode "fn g() \x7b\x7d\n"))]⟩, []⟩ }

/-- The place of the source is its own, and not that of another file. -/
theorem locateNew_occupied_ne {k : Location} (hk : k ≠ ["a.rs"]) :
    occupiedState.disk.locateNew packageSource ≠ .ok k := by
  have hplace : occupiedState.disk.locateNew packageSource = .ok ["a.rs"] := by rfl
  intro h
  rw [hplace] at h
  exact hk (Except.ok.inj h).symm

theorem ruledValidator_outsourced : ∀ a ∈ ruledValidator.registry, a.Outsourced := by
  intro a ha
  obtain rfl := List.mem_singleton.1 ha
  exact (Analyzer.patternWith_inquiring _).outsourced

/-- The other file is gone. -/
theorem get?_validate_occupied :
    ((ruledValidator.validate packageSource "fn f() \x7b\n\x7d\n" none).outcome Host.quiet
      occupiedState).2.disk.tree.get? ["a.rs.remedy.bak"] = none := by decide +kernel

/-- Since a file is gone, the validation has begun. -/
theorem begins_occupied : ruledValidator.Begins Host.quiet occupiedState packageSource := by
  by_cases begins : ruledValidator.Begins Host.quiet occupiedState packageSource
  · exact begins
  · have hgone := get?_validate_occupied
    rw [Validator.disk_of_not_begins begins] at hgone
    cases hgone

/-- The manifest is left alone, and the file under the name of the copy is lost. -/
theorem validate_leaves_others_manifest :
    ∃ r u, (ruledValidator.validate packageSource "fn f() \x7b\n\x7d\n" none).outcome Host.quiet occupiedState =
        (r, u) ∧ u.disk.tree.get? ["Cargo.toml"] = some (.file []) ∧
      u.disk.entryAt (copyOf packageSource) = none := by
  obtain ⟨r, u, hu, hothers, -, -, hlost⟩ := Validator.validate_leaves_others ruledValidator Host.quiet occupiedState
    packageSource "fn f() \x7b\n\x7d\n" none ruledValidator_outsourced (fun _ _ _ => rfl)
  refine ⟨r, u, hu, ?_, hlost Host.quiet_steady begins_occupied (Text.Utf8.encode "fn g() \x7b\x7d\n") rfl⟩
  apply hothers
  · exact locateNew_occupied_ne (by decide)
  · have hcopy : (occupiedState.disk.locateNew (landing occupiedState.disk packageSource
        (copyOf packageSource))).toOption = some ["a.rs.remedy.bak"] := by decide +kernel
    intro hk
    rw [hk] at hcopy
    exact absurd hcopy (by decide)

/-- With programs that write nothing, a validation of the source loses the file under the name of the copy. -/
theorem not_validate_leaves_copy :
    (∀ n r t, (Host.quiet.run n r t).2 = t) ∧ occupiedState.disk.locateNew packageSource ≠ .ok ["a.rs.remedy.bak"] ∧
      occupiedState.disk.tree.get? ["a.rs.remedy.bak"] = some (.file (Text.Utf8.encode "fn g() \x7b\x7d\n")) ∧
      ((ruledValidator.validate packageSource "fn f() \x7b\n\x7d\n" none).outcome Host.quiet
        occupiedState).2.disk.tree.get? ["a.rs.remedy.bak"] = none := by
  exact ⟨fun _ _ _ => rfl, locateNew_occupied_ne (by decide), rfl, get?_validate_occupied⟩

end FixGate
