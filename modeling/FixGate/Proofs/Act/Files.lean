import FixGate.Act.Files
import FixGate.Proofs.Act.Outcome
import FixGate.Proofs.Files.Places
import Mathlib.Tactic.Set

/-!
# What the actions on files come to

A change of files in place has two outcomes: it fails and leaves the tree, or one place is set. A file
that is replaced as a whole has the same two outcomes up to the order of the entries, since the temporary
file is gone again in both.

* `Act.outcome_step`, `Act.outcome_readBytes` : a step of the disk, and reading
* `Act.writeBytes_cases`, `Act.copyFile_landing`, `Act.copyFile_cases`, `Act.writeText_cases` : changes in place
* `Act.replaceFile_cases` : the outcomes of replacing a file
* `Act.exists_replaceFile_ok` : a disk that refuses nothing lets a file be replaced
-/

namespace FixGate.Act

open FileTree

variable {h : Host} {s t : State} {p source target : Path} {l temp : Location} {b : List UInt8}
  {x : String} {f : Failure} {n : Nat}

/-! ## Steps and reading -/

theorem outcome_step (x : DiskStep) (p : Path) :
    (step x p).outcome h s =
      (match h.refuse s.diskSteps x with
        | none => .ok ()
        | some f => .error (.refusal f p), s.steps (s.diskSteps + 1)) := by
  unfold step
  rw [outcome_get_bind, outcome_modify_bind, outcome_read_bind]
  cases h.refuse s.diskSteps x <;> rfl

theorem outcome_step_of_none {x : DiskStep} (hx : h.refuse s.diskSteps x = none) :
    (step x p).outcome h s = (.ok (), s.steps (s.diskSteps + 1)) := by
  rw [outcome_step, hx]

@[simp] theorem outcome_found {α : Type} (p : Path) (r : Except PathFault α) :
    (found p r).outcome h s = (r.mapError (Failure.ofPath · p), s) := by
  cases r <;> rfl

/-- Reading a file takes one step of the disk and changes nothing else. -/
theorem outcome_readBytes (p : Path) :
    (readBytes p).outcome h s =
      (match h.refuse s.diskSteps (.read p) with
        | none => (s.disk.content p).mapError (Failure.ofPath · p)
        | some f => .error (.refusal f p), s.steps (s.diskSteps + 1)) := by
  unfold readBytes
  rw [outcome_bind, outcome_step]
  cases h.refuse s.diskSteps (.read p) with
  | some f => rfl
  | none =>
    simp only
    rw [outcome_disk_bind]
    simp only [outcome_found, State.steps_disk]

theorem readBytes_of_content (hr : h.refuse s.diskSteps (.read p) = none)
    (hc : s.disk.content p = .ok b) :
    (readBytes p).outcome h s = (.ok b, s.steps (s.diskSteps + 1)) := by
  rw [outcome_readBytes, hr, hc]
  rfl

theorem content_of_readBytes (hr : (readBytes p).outcome h s = (.ok b, t)) :
    s.disk.content p = .ok b ∧ t = s.steps (s.diskSteps + 1) := by
  rw [outcome_readBytes] at hr
  obtain ⟨hb, rfl⟩ := Prod.mk.inj hr
  refine ⟨?_, rfl⟩
  split at hb
  · cases hc : s.disk.content p with
    | error f =>
      rw [hc] at hb
      cases hb
    | ok b' =>
      rw [hc] at hb
      cases hb
      rfl
  · cases hb

/-- The text of a file is read from its bytes, faults dropped. -/
theorem readSource_of_content (hr : h.refuse s.diskSteps (.read p) = none)
    (hc : s.disk.content p = .ok b) :
    (readSource p).outcome h s = (.ok (Source.decode b), s.steps (s.diskSteps + 1)) := by
  unfold readSource
  rw [outcome_bind, readBytes_of_content hr hc]
  rfl

/-- A file that must be text is read by one step of the disk. -/
theorem outcome_readStrict_snd (p : Path) :
    ((readStrict p).outcome h s).2 = s.steps (s.diskSteps + 1) := by
  unfold readStrict
  rw [outcome_bind, outcome_readBytes]
  split
  · next heq =>
    rw [← (Prod.mk.inj heq).2]
    split <;> rfl
  · next heq => exact (Prod.mk.inj heq).2.symm

theorem readStrict_of_content (hr : h.refuse s.diskSteps (.read p) = none)
    (hc : s.disk.content p = .ok b) (hx : Text.Utf8.decodeStrict b = some x) :
    (readStrict p).outcome h s = (.ok x, s.steps (s.diskSteps + 1)) := by
  unfold readStrict
  rw [outcome_bind, readBytes_of_content hr hc]
  simp only [hx]
  rfl

theorem content_of_readStrict (hr : (readStrict p).outcome h s = (.ok x, t)) :
    ∃ b, s.disk.content p = .ok b ∧ Text.Utf8.decodeStrict b = some x ∧
      t = s.steps (s.diskSteps + 1) := by
  unfold readStrict at hr
  obtain ⟨b, u, hb, hx⟩ := outcome_bind_eq_ok_iff.1 hr
  obtain ⟨hc, rfl⟩ := content_of_readBytes hb
  refine ⟨b, hc, ?_⟩
  cases hd : Text.Utf8.decodeStrict b with
  | none =>
    rw [hd] at hx
    cases hx
  | some y =>
    rw [hd] at hx
    cases hx
    exact ⟨rfl, rfl⟩

/-! ## Changes in place -/

/-- Writing a file fails and changes no file, or sets its place. -/
theorem writeBytes_cases (p : Path) (b : List UInt8) (s : State) :
    (∃ f n, (writeBytes p b).outcome h s = (.error f, s.steps n)) ∨
      ∃ l n, s.disk.locateNew p = .ok l ∧ (writeBytes p b).outcome h s =
        (.ok (), (s.steps n).withTree (s.disk.tree.put l (.file b))) := by
  unfold writeBytes
  rw [outcome_disk_bind, outcome_bind, outcome_found]
  cases hl : s.disk.locateNew p with
  | error f => exact .inl ⟨_, s.diskSteps, rfl⟩
  | ok l =>
    simp only [Except.mapError]
    rw [outcome_bind, outcome_step]
    cases h.refuse s.diskSteps (.write p) with
    | some f => exact .inl ⟨_, _, rfl⟩
    | none => exact .inr ⟨l, _, rfl, rfl⟩

/-- Removing fails and changes no file, or removes the file to which the path leads. -/
theorem removeFile_cases (p : Path) (s : State) :
    (∃ f, (removeFile p).outcome h s = (.error f, s)) ∨
      ∃ l b, s.disk.locate p = .ok (l, .file b) ∧
        (removeFile p).outcome h s = (.ok (), s.withTree (s.disk.tree.remove l)) := by
  unfold removeFile
  rw [outcome_disk_bind, outcome_bind, outcome_found]
  rcases s.disk.locate p with f | ⟨l, b | _⟩
  · exact .inl ⟨_, rfl⟩
  · exact .inr ⟨l, b, rfl, rfl⟩
  · exact .inl ⟨_, rfl⟩

/-! What steps of the disk and other file trees lead to, reading and changes in place lead to. -/

section Keeps

variable {R : State → State → Prop} (refl : ∀ s, R s s) (trans : ∀ s t u, R s t → R t u → R s u)
  (steps : ∀ s n, R s (s.steps n)) (trees : ∀ s t, R s (s.withTree t))

include steps in
theorem readBytes_keeps (p : Path) : Keeps h R (readBytes p) := by
  intro s
  rw [outcome_readBytes]
  exact steps s _

include trans steps trees in
theorem writeBytes_keeps (p : Path) (b : List UInt8) : Keeps h R (writeBytes p b) := by
  intro s
  rcases writeBytes_cases (h := h) p b s with ⟨f, n, hw⟩ | ⟨l, n, -, hw⟩
  · rw [hw]
    exact steps s n
  · rw [hw]
    exact trans _ _ _ (steps s n) (trees _ _)

include refl trees in
theorem removeFile_keeps (p : Path) : Keeps h R (removeFile p) := by
  intro s
  rcases removeFile_cases (h := h) p s with ⟨f, hw⟩ | ⟨l, b, -, hw⟩
  · rw [hw]
    exact refl s
  · rw [hw]
    exact trees s _

include refl trans steps trees

theorem copyFile_keeps (source target : Path) : Keeps h R (copyFile source target) :=
  (Keeps.disk refl).bind trans fun _ =>
    (readBytes_keeps steps source).bind trans fun _ => writeBytes_keeps trans steps trees _ _

theorem writeText_keeps (p : Path) (x : String) : Keeps h R (writeText p x) :=
  (writeBytes_keeps trans steps trees p _).bind trans fun _ => .ofExcept refl _

end Keeps

theorem writeBytes_of_locateNew (hr : h.refuse s.diskSteps (.write p) = none)
    (hl : s.disk.locateNew p = .ok l) :
    (writeBytes p b).outcome h s =
      (.ok (), (s.steps (s.diskSteps + 1)).withTree (s.disk.tree.put l (.file b))) := by
  unfold writeBytes
  rw [outcome_disk_bind, outcome_bind, outcome_found, hl]
  simp only [Except.mapError]
  rw [outcome_bind, outcome_step_of_none hr]
  rfl

/-- The path to which a file goes that is copied to a path: into a directory under its own name. -/
def landing (d : Disk) (source target : Path) : Path :=
  if d.entryAt target == some .dir then target.below source.name else target

theorem landing_of_not_dir {d : Disk} (source : Path) (hd : d.entryAt target ≠ some .dir) :
    landing d source target = target := by
  have hin : (d.entryAt target == some Entry.dir) = false := by simpa using hd
  unfold landing
  rw [hin, if_neg Bool.false_ne_true]

/-- Copying fails and changes no file, or sets the place where the copy goes. -/
theorem copyFile_landing (source target : Path) (s : State) :
    (∃ f n, (copyFile source target).outcome h s = (.error f, s.steps n)) ∨
      ∃ b l n, s.disk.content source = .ok b ∧ s.disk.locateNew (landing s.disk source target) = .ok l ∧
        (copyFile source target).outcome h s =
          (.ok (), (s.steps n).withTree (s.disk.tree.put l (.file b))) := by
  have hcopy : (copyFile source target).outcome h s =
      (do writeBytes (landing s.disk source target) (← readBytes source)).outcome h s := by
    unfold copyFile
    rw [outcome_disk_bind]
    rfl
  rw [hcopy, outcome_bind]
  rcases hb : (readBytes source).outcome h s with ⟨f | b, u⟩
  · rw [outcome_readBytes] at hb
    obtain ⟨-, rfl⟩ := Prod.mk.inj hb
    exact .inl ⟨f, _, rfl⟩
  · obtain ⟨hc, rfl⟩ := content_of_readBytes hb
    rcases writeBytes_cases (landing s.disk source target) b (s.steps (s.diskSteps + 1)) with
      ⟨f, n, hw⟩ | ⟨l, n, hl, hw⟩
    · exact .inl ⟨f, n, hw⟩
    · exact .inr ⟨b, l, n, hc, hl, hw⟩

/-- Copying onto no directory fails and changes no file, or sets the place of the copy. -/
theorem copyFile_cases (source : Path) (hd : s.disk.entryAt target ≠ some .dir) :
    (∃ f n, (copyFile source target).outcome h s = (.error f, s.steps n)) ∨
      ∃ b l n, s.disk.content source = .ok b ∧ s.disk.locateNew target = .ok l ∧
        (copyFile source target).outcome h s =
          (.ok (), (s.steps n).withTree (s.disk.tree.put l (.file b))) := by
  have hcases := copyFile_landing (h := h) source target s
  rwa [landing_of_not_dir source hd] at hcases

/-- What cannot be read is not copied. -/
theorem copyFile_of_content_error {f : PathFault} (hc : s.disk.content source = .error f) (target : Path) :
    ∃ g, (copyFile source target).outcome h s = (.error g, s.steps (s.diskSteps + 1)) := by
  have hread : ∃ g, (readBytes source).outcome h s = (.error g, s.steps (s.diskSteps + 1)) := by
    rw [outcome_readBytes, hc]
    cases h.refuse s.diskSteps (.read source) <;> exact ⟨_, rfl⟩
  obtain ⟨g, hg⟩ := hread
  refine ⟨g, ?_⟩
  unfold copyFile
  rw [outcome_disk_bind]
  exact outcome_bind_of_error hg _

theorem copyFile_of_content (hr : ∀ n, h.refuse n (.read source) = none)
    (hw : ∀ n, h.refuse n (.write target) = none) (hc : s.disk.content source = .ok b)
    (hl : s.disk.locateNew target = .ok l) :
    ∃ n, (copyFile source target).outcome h s =
      (.ok (), (s.steps n).withTree (s.disk.tree.put l (.file b))) := by
  have hin : (s.disk.entryAt target == some Entry.dir) = false := by
    rw [Disk.entryAt_of_locateNew hl]
    simpa using Disk.get?_ne_dir_of_locateNew hl
  refine ⟨s.diskSteps + 1 + 1, ?_⟩
  unfold copyFile
  rw [outcome_disk_bind]
  simp only [hin, Bool.false_eq_true, if_false]
  rw [outcome_bind, readBytes_of_content (hr _) hc]
  exact writeBytes_of_locateNew (s := s.steps (s.diskSteps + 1)) (hw _) hl

/-- Writing a text fails and changes no file, or sets its place; a text that has bytes is then what
stands there. -/
theorem writeText_cases (p : Path) (x : String) (s : State) :
    (∃ f n, (writeText p x).outcome h s = (.error f, s.steps n)) ∨
      ∃ l n b r, s.disk.locateNew p = .ok l ∧
        (writeText p x).outcome h s = (r, (s.steps n).withTree (s.disk.tree.put l (.file b))) ∧
        (r = .ok () → b = Text.Utf8.encode x ∧ Failure.checkText x = .ok ()) := by
  unfold writeText
  simp only
  rw [outcome_bind]
  rcases writeBytes_cases p (if (Failure.checkText x).isOk then Text.Utf8.encode x else []) s with
    ⟨f, n, hw⟩ | ⟨l, n, hl, hw⟩
  · rw [hw]
    exact .inl ⟨f, n, rfl⟩
  · rw [hw]
    refine .inr ⟨l, n, _, _, hl, outcome_ofExcept _, fun hr => ?_⟩
    rw [hr]
    exact ⟨rfl, rfl⟩

/-! A file that the disk does not let be written is left as it is. -/

section Refused

variable (never : ∀ n, h.refuse n (.write p) ≠ none)
include never

theorem writeBytes_of_refused (b : List UInt8) (s : State) :
    ∃ f n, (writeBytes p b).outcome h s = (.error f, s.steps n) := by
  unfold writeBytes
  rw [outcome_disk_bind, outcome_bind, outcome_found]
  cases s.disk.locateNew p with
  | error f => exact ⟨_, s.diskSteps, rfl⟩
  | ok l =>
    simp only [Except.mapError]
    rw [outcome_bind, outcome_step]
    cases hr : h.refuse s.diskSteps (.write p) with
    | none => exact absurd hr (never _)
    | some f => exact ⟨_, _, rfl⟩

theorem writeText_of_refused (x : String) (s : State) :
    ∃ f n, (writeText p x).outcome h s = (.error f, s.steps n) := by
  obtain ⟨f, n, hw⟩ :=
    writeBytes_of_refused never (if (Failure.checkText x).isOk then Text.Utf8.encode x else []) s
  exact ⟨f, n, outcome_bind_of_error hw _⟩

theorem copyFile_of_refused (source : Path) (hd : s.disk.entryAt p ≠ some .dir) :
    ∃ f n, (copyFile source p).outcome h s = (.error f, s.steps n) := by
  have hin : (s.disk.entryAt p == some Entry.dir) = false := by simpa using hd
  unfold copyFile
  rw [outcome_disk_bind]
  simp only [hin, Bool.false_eq_true, if_false]
  rw [outcome_bind]
  rcases hb : (readBytes source).outcome h s with ⟨f | b, u⟩
  · rw [outcome_readBytes] at hb
    obtain ⟨-, rfl⟩ := Prod.mk.inj hb
    exact ⟨f, _, rfl⟩
  · obtain ⟨-, rfl⟩ := content_of_readBytes hb
    exact writeBytes_of_refused never b _

end Refused

theorem removeFile_of_locateNew (hl : s.disk.locateNew p = .ok l)
    (hb : s.disk.tree.get? l = some (.file b)) :
    (removeFile p).outcome h s = (.ok (), s.withTree (s.disk.tree.remove l)) := by
  unfold removeFile
  rw [outcome_disk_bind, outcome_bind, outcome_found, Disk.locate_of_locateNew hl, hb]
  rfl

/-! ## Replacing a file as a whole -/

/-- Nothing stands where a temporary file is made, and it is not the root. -/
theorem firstFree_eq_some {t : FileTree} {place : Nat → Location} {left n : Nat}
    (hl : firstFree t place left n = some l) : t.get? l = none ∧ ∃ m, l = place m := by
  induction left generalizing n with
  | zero => cases hl
  | succ left ih =>
    unfold firstFree at hl
    split_ifs at hl with hn
    · cases hl
      exact ⟨by simpa using hn, n, rfl⟩
    · exact ih hl

/-- A temporary file is made where nothing stands and a file can be written. -/
theorem placeBeside_spec {d : Disk} (ht : placeBeside d p = .ok temp) :
    d.tree.get? temp = none ∧ temp ≠ [] := by
  unfold placeBeside at ht
  simp only at ht
  split at ht
  · cases ht
  · cases ht
  · split at ht
    · cases ht
    · next place hplace =>
      split at ht
      · cases ht
      · cases ht
        obtain ⟨hnone, m, rfl⟩ := firstFree_eq_some hplace
        exact ⟨hnone, by simp⟩

/-- A temporary file is made only where its name is not too long. -/
theorem short_of_placeBeside {d : Disk} (ht : placeBeside d p = .ok temp) :
    ∃ n, Path.isTooLongName (tempName p.name n) = false := by
  unfold placeBeside at ht
  simp only at ht
  split at ht
  · cases ht
  · cases ht
  · split at ht
    · cases ht
    · next place hplace =>
      split at ht
      · cases ht
      · next l hl =>
        obtain ⟨-, n, rfl⟩ := firstFree_eq_some hplace
        obtain ⟨parent, last, lead, -⟩ := Disk.locateNew_eq_ok_iff.1 hl
        obtain ⟨ns, hns, -⟩ := lead.way
        obtain ⟨-, hlast⟩ := List.append_inj' (hns : _ ++ [_] = ns ++ [last]) rfl
        exact ⟨n, List.singleton_inj.1 hlast ▸ lead.short⟩

/-- No temporary file can be made beside a file whose name leaves no room for what is added to it. -/
theorem exists_placeBeside_error {d : Disk} (plain : Text.Utf8.Ascii p.name.toList)
    (long : 241 < p.name.toList.length) : ∃ f, placeBeside d p = .error f := by
  cases hp : placeBeside d p with
  | error f => exact ⟨f, rfl⟩
  | ok temp =>
    obtain ⟨n, hshort⟩ := short_of_placeBeside hp
    have htemp : (tempName p.name n).toList =
        '.' :: (p.name.toList ++ '.' :: (Text.hexDigits n 8 ++ ['.', 't', 'm', 'p'])) := by
      simp [tempName, String.toList_append]
    have plainTemp : Text.Utf8.Ascii (tempName p.name n).toList := by
      rw [htemp]
      exact .cons (by decide)
        (plain.append (.cons (by decide) ((Text.Utf8.hexDigits_ascii n 8).append (by decide))))
    unfold Path.isTooLongName at hshort
    rw [Text.Utf8.nameBytes_of_ascii plainTemp, htemp] at hshort
    simp [Path.longestName, Text.Utf8.length_hexDigits] at hshort
    omega

/-- Carrying the mode over changes no file. -/
theorem outcome_keepMode_snd (p : Path) : ∃ n, ((keepMode p).outcome h s).2 = s.steps n := by
  unfold keepMode
  rw [outcome_disk_bind, outcome_bind, outcome_ofExcept]
  rcases s.disk.reaches p with f | _ | _
  · exact ⟨s.diskSteps, rfl⟩
  · exact ⟨s.diskSteps, rfl⟩
  · simp only [if_true, outcome_step]
    exact ⟨_, rfl⟩

/-- Moving the temporary file fails and changes no file, or moves it. -/
theorem moveTo_cases (p : Path) (temp : Location) (x : String) (s : State) :
    (∃ f n, (moveTo p temp x).outcome h s = (.error f, s.steps n)) ∨
      ∃ l n, s.disk.locateNew p = .ok l ∧ (moveTo p temp x).outcome h s =
        (.ok (), (s.steps n).withTree
          ((s.disk.tree.remove temp).put l (.file (Text.Utf8.encode x)))) := by
  unfold moveTo
  rw [outcome_bind, outcome_step]
  cases h.refuse s.diskSteps (.replace p) with
  | some f => exact .inl ⟨_, _, rfl⟩
  | none =>
    simp only
    rw [outcome_disk_bind, outcome_bind, outcome_found, State.steps_disk]
    cases s.disk.locateNew p with
    | error f => exact .inl ⟨_, _, rfl⟩
    | ok l => exact .inr ⟨l, _, rfl, rfl⟩

/-- Filling the temporary file fails with at most that file touched, or moves it to its place. -/
theorem fillAndMove_cases (p : Path) (temp : Location) (x : String) (s : State) :
    (∃ f n t, (fillAndMove p temp x).outcome h s = (.error f, (s.steps n).withTree t) ∧
        (t = s.disk.tree ∨ t = s.disk.tree.put temp (.file (Text.Utf8.encode x)))) ∨
      ∃ l n, Failure.checkText x = .ok () ∧
        (s.withTree (s.disk.tree.put temp (.file (Text.Utf8.encode x)))).disk.locateNew p = .ok l ∧
        (fillAndMove p temp x).outcome h s =
          (.ok (), (s.steps n).withTree
            (((s.disk.tree.put temp (.file (Text.Utf8.encode x))).remove temp).put l
              (.file (Text.Utf8.encode x)))) := by
  unfold fillAndMove
  rw [outcome_bind, outcome_ofExcept]
  cases hx : Failure.checkText x with
  | error f => exact .inl ⟨f, s.diskSteps, s.disk.tree, rfl, .inl rfl⟩
  | ok _ =>
    simp only
    rw [outcome_bind, outcome_step]
    cases h.refuse s.diskSteps (.write p) with
    | some f => exact .inl ⟨.refusal f p, s.diskSteps + 1, s.disk.tree, rfl, .inl rfl⟩
    | none =>
      simp only
      rw [outcome_disk_bind]
      simp only [State.steps_disk]
      rw [outcome_setTree_bind]
      set u := (s.steps (s.diskSteps + 1)).withTree
        (s.disk.tree.put temp (.file (Text.Utf8.encode x))) with hu
      obtain ⟨m, hm⟩ := outcome_keepMode_snd (h := h) (s := u) p
      rw [outcome_bind]
      rcases hk : (keepMode p).outcome h u with ⟨f | _, v⟩
      all_goals
        rw [hk] at hm
        subst hm
      · exact .inl ⟨f, m, _, rfl, .inr rfl⟩
      · simp only
        rcases moveTo_cases (h := h) p temp x (u.steps m) with ⟨f, n, hw⟩ | ⟨l, n, hl, hw⟩
        · exact .inl ⟨f, n, _, hw, .inr rfl⟩
        · exact .inr ⟨l, n, trivial, hl, hw⟩

/-- Replacing a file fails with every entry as it was, or sets the place of the file alone. -/
theorem replaceFile_cases (p : Path) (x : String) (s : State) :
    (∃ f n t, (replaceFile p x).outcome h s = (.error f, (s.steps n).withTree t) ∧
        t.Same s.disk.tree) ∨
      ∃ l n t, (replaceFile p x).outcome h s = (.ok (), (s.steps n).withTree t) ∧
        s.disk.locateNew p = .ok l ∧ Failure.checkText x = .ok () ∧
        ∀ k, t.get? k = if k = l then some (.file (Text.Utf8.encode x)) else s.disk.tree.get? k := by
  unfold replaceFile
  rw [outcome_disk_bind, outcome_bind, outcome_ofExcept]
  cases ht : placeBeside s.disk p with
  | error f => exact .inl ⟨f, s.diskSteps, s.disk.tree, rfl, .refl _⟩
  | ok temp =>
    obtain ⟨hnone, hne⟩ := placeBeside_spec ht
    simp only
    rw [outcome_bind, outcome_step]
    cases h.refuse s.diskSteps (.create p) with
    | some f => exact .inl ⟨.refusal f p, s.diskSteps + 1, s.disk.tree, rfl, .refl _⟩
    | none =>
      simp only
      rw [outcome_setTree_bind]
      set made := s.disk.tree.put temp (.file []) with hmade
      have hput : ∀ b k, k ≠ temp → (made.put temp (.file b)).get? k = s.disk.tree.get? k := by
        intro b k hk
        rw [get?_put _ hne, if_neg hk, hmade, get?_put _ hne, if_neg hk]
      rcases fillAndMove_cases (h := h) p temp x ((s.steps (s.diskSteps + 1)).withTree made) with
        ⟨f, n, t, hw, htree⟩ | ⟨l, n, hx, hl, hw⟩
      · -- the temporary file is removed, whether or not it was filled
        rw [outcome_tryCatch_of_error hw, outcome_disk_bind]
        refine .inl ⟨f, n, t.remove temp, rfl, same_remove_of_put hne hnone fun k hk => ?_⟩
        rcases htree with rfl | rfl
        · rw [State.withTree_tree, hmade, get?_put _ hne, if_neg hk]
        · exact hput _ k hk
      · have hdirs : made.SameDirs s.disk.tree :=
          (sameDirs_put hne (by rw [hnone]; simp) _).symm
        have hdirs' : (made.put temp (.file (Text.Utf8.encode x))).SameDirs s.disk.tree :=
          (sameDirs_put hne (fun hd => by
            have := (hdirs temp).1 hd
            rw [hnone] at this
            cases this) _).symm.trans hdirs
        have hl' : s.disk.locateNew p = .ok l :=
          Disk.locateNew_of_sameDirs
            (d := (s.withTree (made.put temp (.file (Text.Utf8.encode x)))).disk) hdirs' rfl hl
        rw [outcome_tryCatch_of_ok hw]
        refine .inr ⟨l, n, _, rfl, hl', hx, fun k => ?_⟩
        rw [get?_put _ (Disk.ne_nil_of_locateNew hl'), get?_remove _ hne]
        by_cases hk : k = l
        · rw [if_pos hk, if_pos hk]
        · rw [if_neg hk, if_neg hk]
          by_cases hkt : k = temp
          · rw [if_pos hkt, hkt, hnone]
          · rw [if_neg hkt]
            exact hput _ k hkt

theorem keepMode_of_steady (steady : h.steady) (hl : s.disk.locateNew p = .ok l) :
    ∃ n, (keepMode p).outcome h s = (.ok (), s.steps n) := by
  unfold keepMode
  rw [outcome_disk_bind, outcome_bind, outcome_ofExcept, Disk.reaches_of_locateNew hl]
  cases (s.disk.tree.get? l).isSome with
  | false => exact ⟨s.diskSteps, rfl⟩
  | true => exact ⟨_, outcome_step_of_none (steady _ _)⟩

theorem moveTo_of_steady (steady : h.steady) (hl : s.disk.locateNew p = .ok l) (temp : Location)
    (x : String) : ∃ t, (moveTo p temp x).outcome h s = (.ok (), t) := by
  unfold moveTo
  rw [outcome_bind, outcome_step_of_none (steady _ _)]
  simp only
  rw [outcome_disk_bind, outcome_bind, outcome_found, State.steps_disk, hl]
  exact ⟨_, rfl⟩

theorem fillAndMove_of_steady (steady : h.steady) (hx : Failure.checkText x = .ok ())
    (hl : (s.withTree (s.disk.tree.put temp (.file (Text.Utf8.encode x)))).disk.locateNew p = .ok l) :
    ∃ t, (fillAndMove p temp x).outcome h s = (.ok (), t) := by
  unfold fillAndMove
  rw [hx, outcome_ofExcept_ok_bind, outcome_bind, outcome_step_of_none (steady _ _)]
  simp only
  rw [outcome_disk_bind]
  simp only [State.steps_disk]
  rw [outcome_setTree_bind]
  obtain ⟨n, hk⟩ := keepMode_of_steady steady (s := (s.steps (s.diskSteps + 1)).withTree
    (s.disk.tree.put temp (.file (Text.Utf8.encode x)))) hl
  rw [outcome_bind, hk]
  exact moveTo_of_steady (s := ((s.steps (s.diskSteps + 1)).withTree
    (s.disk.tree.put temp (.file (Text.Utf8.encode x)))).steps n) steady hl temp x

/-- A disk that refuses nothing lets a file be replaced whose place exists, if a temporary file can be
made beside it. -/
theorem exists_replaceFile_ok (steady : h.steady) (ht : placeBeside s.disk p = .ok temp)
    (hl : s.disk.locateNew p = .ok l) (hx : Failure.checkText x = .ok ()) :
    ∃ t, (replaceFile p x).outcome h s = (.ok (), t) := by
  obtain ⟨hnone, hne⟩ := placeBeside_spec ht
  have hdir : ∀ u : FileTree, u.get? temp ≠ some .dir → ∀ b, u.SameDirs (u.put temp (.file b)) :=
    fun u hu b => sameDirs_put hne hu b
  set made := s.disk.tree.put temp (.file []) with hmade
  have hmade' : made.get? temp ≠ some .dir := by
    rw [hmade, get?_put _ hne]
    simp
  have hl' : (((s.steps (s.diskSteps + 1)).withTree made).withTree
      (made.put temp (.file (Text.Utf8.encode x)))).disk.locateNew p = .ok l :=
    Disk.locateNew_of_sameDirs (d := s.disk)
      ((hdir _ (by rw [hnone]; simp) _).trans (hdir made hmade' _)) rfl hl
  obtain ⟨t, hw⟩ := fillAndMove_of_steady steady hx hl'
  refine ⟨t, ?_⟩
  unfold replaceFile
  rw [outcome_disk_bind, ht, outcome_ofExcept_ok_bind, outcome_bind, outcome_step_of_none (steady _ _)]
  simp only
  rw [outcome_setTree_bind]
  exact outcome_tryCatch_of_ok hw _

/-- Without a place for a temporary file nothing is done. -/
theorem replaceFile_of_placeBeside_error (ht : placeBeside s.disk p = .error f) :
    (replaceFile p x).outcome h s = (.error f, s) := by
  unfold replaceFile
  rw [outcome_disk_bind, outcome_bind, outcome_ofExcept, ht]

/-! ## The temporary file in trees of the same shape -/

theorem firstFree_congr {t u : FileTree} {place : Nat → Location}
    (same : ∀ m, (t.get? (place m)).isNone = (u.get? (place m)).isNone) (left n : Nat) :
    firstFree t place left n = firstFree u place left n := by
  induction left generalizing n with
  | zero => rfl
  | succ left ih =>
    unfold firstFree
    rw [same, ih]

/-- Whether and where a temporary file can be made depends on the directories, and on what bears one of its
names. -/
theorem placeBeside_of_sameDirs {d d' : Disk} (dirs : d.tree.SameDirs d'.tree) (here : d'.here = d.here)
    (same : ∀ m, (d.tree.get? ((d.resolve p.parent).names ++ [tempName p.name m])).isNone =
      (d'.tree.get? ((d.resolve p.parent).names ++ [tempName p.name m])).isNone)
    (ht : placeBeside d p = .ok temp) : placeBeside d' p = .ok temp := by
  have hres : d'.resolve p.parent = d.resolve p.parent := by
    unfold Disk.resolve
    rw [here]
  unfold placeBeside at ht ⊢
  simp only at ht ⊢
  rw [hres]
  split at ht
  · cases ht
  · cases ht
  · next hdir =>
    have hdir' : ({ d' with here := [] } : Disk).locate
        (Path.ofLocation (d.resolve p.parent).names) = .ok (_, .dir) :=
      Disk.locate_dir_of_sameDirs (d := { d with here := [] }) dirs rfl hdir
    rw [hdir']
    simp only
    unfold freshPlace at ht ⊢
    rw [← firstFree_congr same]
    split at ht
    · cases ht
    · next place hplace =>
      rw [hplace]
      split at ht
      · cases ht
      · next l hl =>
        simp only [Disk.locateNew_of_sameDirs dirs here hl]
        exact ht

/-- So it depends on the shape of the tree at most. -/
theorem placeBeside_of_sameShape {d d' : Disk} (shape : d.tree.SameShape d'.tree)
    (here : d'.here = d.here) (ht : placeBeside d p = .ok temp) : placeBeside d' p = .ok temp :=
  placeBeside_of_sameDirs shape.dirs here (fun _ => shape.isNone _) ht

end FixGate.Act
