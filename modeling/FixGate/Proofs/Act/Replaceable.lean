import FixGate.Proofs.Act.Files

/-!
# When a file can be replaced

Replacing a file as a whole takes a fixed sequence of disk steps. It succeeds if the text has bytes, the
path has a place, a temporary file has one beside it, and the disk grants each of the steps in turn. These
conditions speak of the state before only, so they say exactly when the replacement succeeds.

* `Host.Grants` : the disk grants steps one after another
* `Act.placeBeside_ne` : the temporary file does not stand at the place of the path
* `Act.Replaceable`, `Act.replaceFile_ok_iff` : when a file can be replaced
* `Act.Sets`, `Act.Untouched` : exactly one place changes, or no entry does
-/

namespace FixGate

/-- The disk grants these steps, one after another from its `n`-th step on. -/
def Host.Grants (h : Host) (n : Nat) : List DiskStep → Prop
  | [] => True
  | x :: xs => h.refuse n x = none ∧ h.Grants (n + 1) xs

namespace Act

open FileTree

variable {h : Host} {s t u : State} {p : Path} {l k temp : Location} {x : String} {d : Disk}
  {ns : List String} {n : String}

/-! ## The place of the temporary file -/

/-- A walk follows the names. -/
theorem eq_follow_of_walk {t : FileTree} (hw : t.walk l ns = .ok k) : k = Path.follow l ns := by
  induction ns generalizing l with
  | nil =>
    cases hw
    rfl
  | cons n ns ih =>
    unfold walk at hw
    unfold Path.follow
    split at hw
    · cases hw
    · cases hw
    · split_ifs at hw ⊢
      · exact ih hw
      · split at hw
        · cases hw
        · exact ih hw

theorem follow_concat (hn : n ≠ "..") (l : Location) (ns : List String) :
    Path.follow l (ns ++ [n]) = Path.follow l ns ++ [n] := by
  induction ns generalizing l with
  | nil => simp [Path.follow, hn]
  | cons m ns ih =>
    rw [List.cons_append]
    unfold Path.follow
    split_ifs
    · exact ih _
    · exact ih _

/-- A path denotes the place where a file would be written at it. -/
theorem resolve_of_locateNew (hl : d.locateNew p = .ok l) : d.resolve p = Path.ofLocation l := by
  obtain ⟨parent, last, lead, rfl⟩ := Disk.locateNew_eq_ok_iff.1 hl
  obtain ⟨ns, hns, hwalk⟩ := lead.way
  unfold Disk.resolve Path.resolve
  rw [hns, follow_concat lead.name, ← eq_follow_of_walk hwalk]

/-- The temporary file is in the directory of the path, under a name of its own. -/
theorem eq_of_placeBeside (ht : placeBeside d p = .ok temp) :
    ∃ m, temp = (d.resolve p.parent).names ++ [tempName p.name m] := by
  unfold placeBeside at ht
  simp only at ht
  split at ht
  · cases ht
  · cases ht
  · split at ht
    · cases ht
    · next place hplace =>
      split at ht
      · cases ht
      · cases ht
        obtain ⟨-, m, rfl⟩ := firstFree_eq_some hplace
        exact ⟨m, rfl⟩

theorem tempName_ne (name : String) (m : Nat) : tempName name m ≠ name := by
  intro heq
  have hlength := congrArg (fun s => s.toList.length) heq
  simp [tempName, String.toList_append] at hlength
  omega

/-- The temporary file does not stand at the place of the path. -/
theorem placeBeside_ne (ht : placeBeside d p = .ok temp) (hl : d.locateNew p = .ok l) : l ≠ temp := by
  obtain ⟨m, rfl⟩ := eq_of_placeBeside ht
  obtain ⟨parent, last, lead, rfl⟩ := Disk.locateNew_eq_ok_iff.1 hl
  obtain ⟨ns, hns, -⟩ := lead.way
  intro heq
  obtain ⟨hdir, hlast⟩ := List.append_inj' heq rfl
  have hname : last = tempName p.name m := List.singleton_inj.1 hlast
  rcases List.eq_nil_or_concat p.names with hnames | ⟨names, name, hnames⟩
  · -- without names the path leads to the current directory, and the temporary file lies below it
    have hparent : p.parent = p := by
      unfold Path.parent
      rw [hnames]
      exact congrArg (Path.mk p.anchor) hnames.symm
    rw [hparent, resolve_of_locateNew hl] at hdir
    have := congrArg List.length hdir
    simp [Path.ofLocation] at this
  · have hroot : p.fromRoot d.here = (if p.isAbsolute then names else d.here ++ names) ++ [name] := by
      unfold Path.fromRoot
      split_ifs <;> simp [hnames]
    obtain ⟨-, hlast'⟩ := List.append_inj' (hns.symm.trans hroot) rfl
    have hpname : p.name = last := by
      rw [List.singleton_inj.1 hlast']
      simp [Path.name, hnames]
    exact tempName_ne p.name m (hname.symm.trans hpname.symm)

/-! ## The steps that replace a file -/

/-- The steps that move the temporary file to a path; the mode is carried over where a file stands. -/
def moving (p : Path) (present : Bool) : List DiskStep :=
  if present then [.keepMode p, .replace p] else [.replace p]

/-- The steps that replace a file. -/
def replacing (p : Path) (present : Bool) : List DiskStep :=
  .create p :: .write p :: moving p present

/-- A text can be put in the place of a file, seen from the state before. -/
structure Replaceable (h : Host) (s : State) (p : Path) (x : String) : Prop where
  text : Failure.checkText x = .ok ()
  place : ∃ l, s.disk.locateNew p = .ok l
  temp : ∃ temp, placeBeside s.disk p = .ok temp
  granted : h.Grants s.diskSteps (replacing p (s.disk.entryAt p).isSome)

theorem moveTo_ok_iff (hl : s.disk.locateNew p = .ok l) (temp : Location) (x : String) :
    (∃ u, (moveTo p temp x).outcome h s = (.ok (), u)) ↔ h.refuse s.diskSteps (.replace p) = none := by
  unfold moveTo
  rw [outcome_bind, outcome_step]
  cases h.refuse s.diskSteps (.replace p) with
  | some f => simp
  | none =>
    simp only
    rw [outcome_disk_bind, outcome_bind, outcome_found, State.steps_disk, hl]
    simp [Except.mapError]

/-- The mode is carried over and the temporary file moved if the disk grants the steps. -/
theorem keepMode_moveTo_ok_iff (hl : s.disk.locateNew p = .ok l) (temp : Location) (x : String) :
    (∃ u, (keepMode p >>= fun _ => moveTo p temp x).outcome h s = (.ok (), u)) ↔
      h.Grants s.diskSteps (moving p (s.disk.tree.get? l).isSome) := by
  rw [outcome_bind]
  unfold keepMode
  rw [outcome_disk_bind, outcome_bind, outcome_ofExcept, Disk.reaches_of_locateNew hl]
  cases (s.disk.tree.get? l).isSome with
  | false =>
    simp only [Bool.false_eq_true, if_false, outcome_pure]
    rw [moveTo_ok_iff hl]
    simp [moving, Host.Grants]
  | true =>
    simp only [if_true, outcome_step]
    cases hk : h.refuse s.diskSteps (.keepMode p) with
    | some f => simp [moving, Host.Grants, hk]
    | none =>
      simp only
      rw [moveTo_ok_iff (s := s.steps (s.diskSteps + 1)) hl]
      simp [moving, Host.Grants, hk]

theorem fillAndMove_ok_iff (hx : Failure.checkText x = .ok ())
    (hl : (s.withTree (s.disk.tree.put temp (.file (Text.Utf8.encode x)))).disk.locateNew p = .ok l)
    (hne : temp ≠ []) (hlt : l ≠ temp) :
    (∃ u, (fillAndMove p temp x).outcome h s = (.ok (), u)) ↔
      h.Grants s.diskSteps (.write p :: moving p (s.disk.tree.get? l).isSome) := by
  unfold fillAndMove
  rw [hx, outcome_ofExcept_ok_bind, outcome_bind, outcome_step]
  cases hw : h.refuse s.diskSteps (.write p) with
  | some f => simp [Host.Grants, hw]
  | none =>
    simp only
    rw [outcome_disk_bind]
    simp only [State.steps_disk]
    rw [outcome_setTree_bind]
    have hiff := keepMode_moveTo_ok_iff (h := h) (s := (s.steps (s.diskSteps + 1)).withTree
      (s.disk.tree.put temp (.file (Text.Utf8.encode x)))) hl temp x
    rw [State.withTree_tree, get?_put _ hne, if_neg hlt] at hiff
    refine hiff.trans ?_
    simp [Host.Grants, hw]

/-- With a text that has bytes, and places for it and for the temporary file, the disk decides. -/
theorem replaceFile_ok_iff_grants (hx : Failure.checkText x = .ok ())
    (hl : s.disk.locateNew p = .ok l) (ht : placeBeside s.disk p = .ok temp) :
    (∃ u, (replaceFile p x).outcome h s = (.ok (), u)) ↔
      h.Grants s.diskSteps (replacing p (s.disk.entryAt p).isSome) := by
  obtain ⟨hnone, hne⟩ := placeBeside_spec ht
  have hlt := placeBeside_ne ht hl
  rw [Disk.entryAt_of_locateNew hl]
  unfold replaceFile
  rw [outcome_disk_bind, ht, outcome_ofExcept_ok_bind, outcome_bind, outcome_step]
  cases hc : h.refuse s.diskSteps (.create p) with
  | some f => simp [replacing, Host.Grants, hc]
  | none =>
    simp only
    rw [outcome_setTree_bind]
    set made := s.disk.tree.put temp (.file []) with hmade
    have hdirs : s.disk.tree.SameDirs made := sameDirs_put hne (by rw [hnone]; simp) _
    have hdirs' : made.SameDirs (made.put temp (.file (Text.Utf8.encode x))) :=
      sameDirs_put hne (by rw [hmade, get?_put _ hne]; simp) _
    have hiff := fillAndMove_ok_iff (h := h) (s := (s.steps (s.diskSteps + 1)).withTree made) hx
      (Disk.locateNew_of_sameDirs (d := s.disk) (hdirs.trans hdirs') rfl hl) hne hlt
    rw [State.withTree_tree, hmade, get?_put _ hne, if_neg hlt] at hiff
    -- a failure of the filling is passed on, so the remedy does not turn it into a success
    have hcatch : (∃ u, (tryCatch (fillAndMove p temp x) fun f => do
          setTree ((← Act.disk).tree.remove temp)
          throw f).outcome h ((s.steps (s.diskSteps + 1)).withTree made) = (.ok (), u)) ↔
        ∃ u, (fillAndMove p temp x).outcome h ((s.steps (s.diskSteps + 1)).withTree made) =
          (.ok (), u) := by
      rw [outcome_tryCatch]
      rcases (fillAndMove p temp x).outcome h ((s.steps (s.diskSteps + 1)).withTree made) with
        ⟨f | _, u⟩
      · simp
      · simp
    refine hcatch.trans (hiff.trans ?_)
    simp [replacing, Host.Grants, hc]

/-- **A file can be replaced** exactly if the text has bytes, the places exist, and the disk grants the
steps. -/
theorem replaceFile_ok_iff (h : Host) (s : State) (p : Path) (x : String) :
    (∃ u, (replaceFile p x).outcome h s = (.ok (), u)) ↔ Replaceable h s p x := by
  constructor
  · rintro ⟨u, hu⟩
    have htemp : ∃ temp, placeBeside s.disk p = .ok temp := by
      cases hp : placeBeside s.disk p with
      | ok temp => exact ⟨temp, rfl⟩
      | error f =>
        rw [replaceFile_of_placeBeside_error hp] at hu
        cases hu
    obtain ⟨temp, ht⟩ := htemp
    rcases replaceFile_cases (h := h) p x s with ⟨f, n, t, hf, -⟩ | ⟨l, n, t, -, hl, hx, -⟩
    · rw [hu] at hf
      cases hf
    · exact ⟨hx, ⟨l, hl⟩, ⟨temp, ht⟩, (replaceFile_ok_iff_grants hx hl ht).1 ⟨u, hu⟩⟩
  · intro r
    obtain ⟨l, hl⟩ := r.place
    obtain ⟨temp, ht⟩ := r.temp
    exact (replaceFile_ok_iff_grants r.text hl ht).2 r.granted

/-! ## What is replaced -/

/-- The file that a path leads to holds these bytes now, and every other entry is as it was. -/
structure Sets (s u : State) (p : Path) (b : List UInt8) : Prop where
  here : u.disk.here = s.disk.here
  tree : ∃ l, s.disk.locateNew p = .ok l ∧
    ∀ k, u.disk.tree.get? k = if k = l then some (.file b) else s.disk.tree.get? k

/-- No entry of the tree is another one. -/
structure Untouched (s u : State) : Prop where
  here : u.disk.here = s.disk.here
  tree : u.disk.tree.Same s.disk.tree

end Act

end FixGate
