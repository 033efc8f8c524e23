import FixGate.Proofs.Act.Files

/-!
# What changes in place leave alone

A file that is written, copied or removed leaves every directory as it is. So all paths lead where they led, and an
action that consists of such changes touches no place but those to which its paths led at its beginning.

* `SameWays` : the directories are the same
* `SameWays.locateNew_iff` : paths lead where they led
* `SameBut` : the same stands at every place but some
* `writeText_sameBut`, `copyFile_sameBut`, `removeFile_sameBut` : the places that are touched
-/

namespace FixGate

open Act FileTree

variable {h : Host} {s t u : State} {l : Location} {places : Location → Prop}

/-! ## Directories stay -/

/-- The directories are the same, and so is the current one. -/
def SameWays (s t : State) : Prop :=
  t.disk.here = s.disk.here ∧ s.disk.tree.SameDirs t.disk.tree

theorem SameWays.refl (s : State) : SameWays s s := ⟨rfl, .refl _⟩

theorem SameWays.trans (s t u : State) (st : SameWays s t) (tu : SameWays t u) : SameWays s u :=
  ⟨tu.1.trans st.1, st.2.trans tu.2⟩

theorem SameWays.of_idle (idle : Idle s t) : SameWays s t := by
  unfold SameWays
  rw [idle.1]
  exact ⟨rfl, .refl _⟩

theorem SameWays.entryAt_dir {p : Path} (ways : SameWays s t) (hd : s.disk.entryAt p = some .dir) :
    t.disk.entryAt p = some .dir := by
  unfold Disk.entryAt at hd ⊢
  rcases hl : s.disk.locate p with f | ⟨l, e⟩
  all_goals rw [hl] at hd
  · cases hd
  · cases hd
    rw [Disk.locate_dir_of_sameDirs ways.2 ways.1 hl]

/-- Files are written where they were written before. -/
theorem SameWays.locateNew_iff {p : Path} (ways : SameWays s t) :
    t.disk.locateNew p = .ok l ↔ s.disk.locateNew p = .ok l :=
  ⟨Disk.locateNew_of_sameDirs ways.2.symm ways.1.symm, Disk.locateNew_of_sameDirs ways.2 ways.1⟩

theorem readBytes_ways (p : Path) : Keeps h SameWays (readBytes p) := by
  intro s
  rw [outcome_readBytes]
  exact SameWays.refl _

theorem writeBytes_ways (p : Path) (b : List UInt8) : Keeps h SameWays (writeBytes p b) := by
  intro s
  rcases writeBytes_cases (h := h) p b s with ⟨f, n, hw⟩ | ⟨l, n, hl, hw⟩
  · rw [hw]
    exact SameWays.refl _
  · rw [hw]
    exact ⟨rfl, sameDirs_put (Disk.ne_nil_of_locateNew hl) (Disk.get?_ne_dir_of_locateNew hl) b⟩

theorem copyFile_ways (source target : Path) : Keeps h SameWays (copyFile source target) :=
  Keeps.bind SameWays.trans (Keeps.disk SameWays.refl) fun _ =>
    (readBytes_ways source).bind SameWays.trans fun _ => writeBytes_ways _ _

theorem writeText_ways (p : Path) (x : String) : Keeps h SameWays (writeText p x) :=
  Keeps.bind SameWays.trans (writeBytes_ways _ _) fun _ => Keeps.ofExcept SameWays.refl _

/-! ## Places that are touched -/

/-- The directories are the same, and so is what stands at every place but some. -/
structure SameBut (places : Location → Prop) (s t : State) : Prop where
  ways : SameWays s t
  entries : ∀ k, ¬ places k → t.disk.tree.get? k = s.disk.tree.get? k

theorem SameBut.of_disk (disk : t.disk = s.disk) : SameBut places s t := by
  refine ⟨?_, fun k _ => by rw [disk]⟩
  unfold SameWays
  rw [disk]
  exact ⟨rfl, .refl _⟩

theorem SameBut.trans (st : SameBut places s t) (tu : SameBut places t u) : SameBut places s u :=
  ⟨st.ways.trans _ _ _ tu.ways, fun k hk => (tu.entries k hk).trans (st.entries k hk)⟩

theorem SameBut.put {p : Path} (hl : s.disk.locateNew p = .ok l) (touched : places l) (n : Nat) (b : List UInt8) :
    SameBut places s ((s.steps n).withTree (s.disk.tree.put l (.file b))) := by
  refine ⟨⟨rfl, sameDirs_put (Disk.ne_nil_of_locateNew hl) (Disk.get?_ne_dir_of_locateNew hl) b⟩, fun k hk => ?_⟩
  have hne : k ≠ l := fun hkl => hk (hkl ▸ touched)
  rw [State.withTree_tree, get?_put _ (Disk.ne_nil_of_locateNew hl), if_neg hne]

/-- A file that is written touches its place. -/
theorem writeText_sameBut {p : Path} (x : String) (touched : ∀ l, s.disk.locateNew p = .ok l → places l) :
    SameBut places s ((writeText p x).outcome h s).2 := by
  rcases writeText_cases (h := h) p x s with ⟨f, n, hw⟩ | ⟨l, n, b, r, hl, hw, -⟩
  · rw [hw]
    exact .of_disk rfl
  · rw [hw]
    exact .put hl (touched l hl) n b

/-- A file that is copied touches the place where the copy goes. -/
theorem copyFile_sameBut {source target : Path}
    (touched : ∀ l, s.disk.locateNew (landing s.disk source target) = .ok l → places l) :
    SameBut places s ((copyFile source target).outcome h s).2 := by
  rcases copyFile_landing (h := h) source target s with ⟨f, n, hw⟩ | ⟨b, l, n, -, hl, hw⟩
  · rw [hw]
    exact .of_disk rfl
  · rw [hw]
    exact .put hl (touched l hl) n b

/-- A file that is removed leaves every other place. -/
theorem removeFile_sameBut {p : Path} (touched : ∀ l, s.disk.locateNew p = .ok l → places l) :
    SameBut places s ((removeFile p).outcome h s).2 := by
  rcases removeFile_cases (h := h) p s with ⟨f, hw⟩ | ⟨l, b, hfile, hw⟩
  · rw [hw]
    exact .of_disk rfl
  · have hl := Disk.locateNew_of_locate_file hfile
    rw [hw]
    refine ⟨⟨rfl, sameDirs_remove (Disk.ne_nil_of_locateNew hl) (Disk.get?_ne_dir_of_locateNew hl)⟩,
      fun k hk => ?_⟩
    have hne : k ≠ l := fun hkl => hk (hkl ▸ touched l hl)
    rw [State.withTree_tree, get?_remove _ (Disk.ne_nil_of_locateNew hl), if_neg hne]

end FixGate
