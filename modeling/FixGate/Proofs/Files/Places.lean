import FixGate.Files.Disk
import FixGate.Proofs.Files.Tree
import FixGate.Proofs.Text.Utf8

/-!
# The place of a file

The place at which a file is written is the one at which it is read. It depends on which places are
directories, and on nothing else, so it stays the same while files come and go.

* `Disk.Leads` : a path leads to a name in a directory
* `Disk.locateNew_eq_ok_iff` : the place of a file to be written
* `Disk.locateNew_of_sameDirs` : the place stays the same while the directories do
* `Disk.locateNew_of_locate_file`, `Disk.locate_of_locateNew` : files are read where they are written
* `Disk.locateNew_name` : the place of a name below the root
-/

namespace FixGate.Disk

open FileTree

variable {d d' : Disk} {p : Path} {l : Location} {b : List UInt8}

/-- A path leads to a name in a directory, at which no directory stands. -/
structure Leads (d : Disk) (p : Path) (parent : Location) (n : String) : Prop where
  taken : p.fault? = none
  way : ∃ ns, p.fromRoot d.here = ns ++ [n] ∧ d.tree.walk [] ns = .ok parent
  dir : d.tree.get? parent = some .dir
  name : n ≠ ".."
  short : Path.isTooLongName n = false
  noDir : d.tree.get? (parent ++ [n]) ≠ some .dir

/-- The place of a file to be written is a name in a directory. -/
theorem locateNew_eq_ok_iff :
    d.locateNew p = .ok l ↔ ∃ parent n, d.Leads p parent n ∧ l = parent ++ [n] := by
  constructor
  · intro h
    simp only [locateNew] at h
    split at h
    · cases h
    · cases h
    · next n hfault hlast =>
      obtain ⟨ns, hns⟩ := List.getLast?_eq_some_iff.1 hlast
      rw [hns, List.dropLast_concat] at h
      cases hw : d.tree.walk [] ns with
      | error f =>
        rw [hw] at h
        cases h
      | ok parent =>
        rw [hw] at h
        simp only [bind, Except.bind] at h
        split at h
        · cases h
        · cases h
        · next hdir =>
          split_ifs at h with hname hlong
          split at h
          · cases h
          · next hno =>
            cases h
            exact ⟨parent, n, ⟨hfault, ⟨ns, hns, hw⟩, hdir, by simpa using hname,
              by simpa using hlong, hno⟩, rfl⟩
  · rintro ⟨parent, n, ⟨hfault, ⟨ns, hns, hw⟩, hdir, hname, hlong, hno⟩, rfl⟩
    simp only [locateNew, hfault, hns, List.getLast?_concat, List.dropLast_concat, hw, bind,
      Except.bind, hdir, beq_iff_eq, if_neg hname, hlong, Bool.false_eq_true, if_false]
    rfl

/-- The place of a file to be written is not the root. -/
theorem ne_nil_of_locateNew (h : d.locateNew p = .ok l) : l ≠ [] := by
  obtain ⟨parent, n, -, rfl⟩ := locateNew_eq_ok_iff.1 h
  simp

/-- No directory stands at the place of a file to be written. -/
theorem get?_ne_dir_of_locateNew (h : d.locateNew p = .ok l) : d.tree.get? l ≠ some .dir := by
  obtain ⟨parent, n, hl, rfl⟩ := locateNew_eq_ok_iff.1 h
  exact hl.noDir

/-- The place of a file to be written stays the same while the directories do. -/
theorem locateNew_of_sameDirs (dirs : d.tree.SameDirs d'.tree) (here : d'.here = d.here)
    (h : d.locateNew p = .ok l) : d'.locateNew p = .ok l := by
  obtain ⟨parent, n, hl, rfl⟩ := locateNew_eq_ok_iff.1 h
  obtain ⟨ns, hns, hw⟩ := hl.way
  refine locateNew_eq_ok_iff.2 ⟨parent, n, ⟨hl.taken, ⟨ns, here ▸ hns, ?_⟩, (dirs _).1 hl.dir, hl.name,
    hl.short, fun hd => hl.noDir ((dirs _).2 hd)⟩, rfl⟩
  exact walk_of_dirs (fun k hk => (dirs k).1 hk) hw hl.dir

theorem locateNew_of_tree {t : FileTree} (dirs : d.tree.SameDirs t) (h : d.locateNew p = .ok l) :
    (⟨t, d.here⟩ : Disk).locateNew p = .ok l :=
  locateNew_of_sameDirs dirs rfl h

/-- A directory is found in the same place while the directories stay the same. -/
theorem locate_dir_of_sameDirs (dirs : d.tree.SameDirs d'.tree) (here : d'.here = d.here)
    (h : d.locate p = .ok (l, .dir)) : d'.locate p = .ok (l, .dir) := by
  simp only [locate] at h ⊢
  split at h
  · cases h
  · next hfault =>
    rw [here]
    cases hw : d.tree.walk [] (p.fromRoot d.here) with
    | error f =>
      rw [hw] at h
      cases h
    | ok k =>
      rw [hw] at h
      simp only [bind, Except.bind] at h
      split at h
      · next e he =>
        cases h
        rw [walk_of_dirs (fun k hk => (dirs k).1 hk) hw he]
        simp only [bind, Except.bind, (dirs l).1 he]
        rfl
      · cases h

/-- A path is read where it would be written. -/
theorem locate_of_locateNew (h : d.locateNew p = .ok l) :
    d.locate p =
      match d.tree.get? l with
      | some e => .ok (l, e)
      | none => .error .absent := by
  obtain ⟨parent, n, hl, rfl⟩ := locateNew_eq_ok_iff.1 h
  obtain ⟨ns, hns, hw⟩ := hl.way
  have hwalk : d.tree.walk [] (p.fromRoot d.here) =
      match d.tree.get? (parent ++ [n]) with
      | some _ => .ok (parent ++ [n])
      | none => .error .absent := by
    rw [hns, walk_append, hw]
    simp only [Except.bind, walk, hl.dir, beq_iff_eq, if_neg hl.name, hl.short]
    cases d.tree.get? (parent ++ [n]) <;> rfl
  simp only [locate, hl.taken, hwalk]
  cases hg : d.tree.get? (parent ++ [n]) with
  | none => rfl
  | some e => simp [bind, Except.bind, hg, pure, Except.pure]

/-- What a path holds is what stands at the place where it would be written. -/
theorem content_eq_ok_iff_of_locateNew (h : d.locateNew p = .ok l) :
    d.content p = .ok b ↔ d.tree.get? l = some (.file b) := by
  simp only [content, locate_of_locateNew h]
  rcases d.tree.get? l with _ | b' | _ <;> simp

theorem entryAt_of_locateNew (h : d.locateNew p = .ok l) : d.entryAt p = d.tree.get? l := by
  simp only [entryAt, locate_of_locateNew h]
  cases d.tree.get? l <;> rfl

/-- A file would be written where it is read. -/
theorem locateNew_of_locate_file (h : d.locate p = .ok (l, .file b)) : d.locateNew p = .ok l := by
  simp only [locate] at h
  split at h
  · cases h
  · next hfault =>
    cases hw : d.tree.walk [] (p.fromRoot d.here) with
    | error f =>
      rw [hw] at h
      cases h
    | ok k =>
      rw [hw] at h
      simp only [bind, Except.bind] at h
      split at h
      · next e he =>
        cases h
        obtain ⟨ns, n, hns⟩ : ∃ ns n, p.fromRoot d.here = ns ++ [n] := by
          rcases List.eq_nil_or_concat (p.fromRoot d.here) with hnil | ⟨ns, n, hns⟩
          · rw [hnil] at hw
            cases hw
            cases he
          · exact ⟨ns, n, by simpa using hns⟩
        rw [hns, walk_append] at hw
        cases hp : d.tree.walk [] ns with
        | error f =>
          rw [hp] at hw
          cases hw
        | ok parent =>
          rw [hp] at hw
          simp only [Except.bind, walk] at hw
          split at hw
          · cases hw
          · cases hw
          · next hdir =>
            split_ifs at hw with hname hlong
            · -- two dots lead to a directory, not to a file
              cases hw
              rw [(open_of_walk (open_nil _) hp).get?_dropLast] at he
              cases he
            · split at hw
              · cases hw
              · cases hw
                exact locateNew_eq_ok_iff.2 ⟨parent, n, ⟨hfault, ⟨ns, hns, hp⟩, hdir,
                  by simpa using hname, by simpa using hlong, by rw [he]; simp⟩, rfl⟩
      · cases h

/-- A path that holds something has a place. -/
theorem exists_locateNew_of_content (h : d.content p = .ok b) :
    ∃ l, d.locateNew p = .ok l ∧ d.tree.get? l = some (.file b) := by
  simp only [content] at h
  split at h
  · next l b' hl =>
    cases h
    have hnew := locateNew_of_locate_file hl
    refine ⟨l, hnew, ?_⟩
    exact (content_eq_ok_iff_of_locateNew hnew).1 (by simp [content, hl])
  · cases h
  · cases h

/-- Whether something stands at a path that has a place can be asked. -/
theorem reaches_of_locateNew (h : d.locateNew p = .ok l) :
    d.reaches p = .ok (d.tree.get? l).isSome := by
  simp only [reaches, lookUp, locate_of_locateNew h]
  cases d.tree.get? l <;> rfl

/-! ## Names below the root -/

section Name

variable {name : String}

@[simp] theorem text_name (name : String) : (⟨.here, [name]⟩ : Path).text = name := by
  simp [Path.text, Anchor.text]

theorem fault?_name (plain : Path.nameFault? name = none) (short : Path.isTooLongName name = false) :
    (⟨.here, [name]⟩ : Path).fault? = none := by
  have hle : ¬ Path.longestName < Text.Utf8.nameBytes name := of_decide_eq_false short
  unfold Path.fault?
  rw [text_name, plain, if_neg]
  unfold Path.longestName at hle
  unfold Path.longestText
  omega

theorem nameFault?_of_ascii (plain : Text.Utf8.Ascii name.toList)
    (noNull : name.toList.contains '\x00' = false) : Path.nameFault? name = none := by
  unfold Path.nameFault?
  rw [Text.Utf8.nameComplaint?_of_ascii plain, noNull]
  rfl

/-- The extension of a name that has one. -/
theorem suffixOf_of_toList {stem ext : List Char} (hname : name.toList = stem ++ '.' :: ext)
    (hstem : stem ≠ []) (hext : ext ≠ []) (noDot : '.' ∉ ext) :
    Path.suffixOf name = String.ofList ('.' :: ext) := by
  have hreverse : name.toList.reverse = ext.reverse ++ '.' :: stem.reverse := by
    rw [hname]
    simp
  have noDot' : ∀ c ∈ ext.reverse, (c != '.') = true := by
    intro c hc
    rw [bne_iff_ne]
    rintro rfl
    exact noDot (List.mem_reverse.1 hc)
  have htail : name.toList.reverse.takeWhile (· != '.') = ext.reverse := by
    rw [hreverse, List.takeWhile_append_of_pos noDot']
    simp
  have hrest : name.toList.reverse.dropWhile (· != '.') = '.' :: stem.reverse := by
    rw [hreverse, List.dropWhile_append_of_pos noDot']
    simp
  obtain ⟨c, cs, hcs⟩ := List.exists_cons_of_ne_nil (List.reverse_ne_nil_iff.2 hstem)
  unfold Path.suffixOf
  simp only [htail, hrest, hcs]
  rw [if_neg (by simpa using hext), List.reverse_reverse]

/-- Seen from the root, a name leads to its place. -/
theorem locateNew_name (here : d.here = []) (plain : Path.nameFault? name = none)
    (short : Path.isTooLongName name = false) (dots : name ≠ "..")
    (noDir : d.tree.get? [name] ≠ some .dir) : d.locateNew ⟨.here, [name]⟩ = .ok [name] := by
  refine locateNew_eq_ok_iff.2 ⟨[], name, ⟨fault?_name plain short, ⟨[], ?_, rfl⟩, rfl, dots, short,
    noDir⟩, rfl⟩
  simp [Path.fromRoot, Path.isAbsolute, here]

theorem resolve_name (here : d.here = []) (dots : name ≠ "..") :
    d.resolve ⟨.here, [name]⟩ = ⟨.root, [name]⟩ := by
  simp [resolve, Path.resolve, Path.ofLocation, Path.follow, Path.fromRoot, Path.isAbsolute, here, dots]

end Name

end FixGate.Disk
