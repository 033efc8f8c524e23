import FixGate.Compile.Database
import FixGate.Proofs.Files.Places
import FixGate.Proofs.Files.Resolved
import Mathlib.Algebra.GroupWithZero.Nat

/-!
# The nearest compilation database

A directory has a database if something of its name stands there, or else in its build directory. The database of a
source is that of the nearest directory above it that has one, up to a root directory. The search for it asks the
system what stands at one place after another, and the system refuses a question about a path or a name that is too
long. Nothing can stand there, but the search ends with the refusal.

* `Path.IsWithin`, `Path.IsAbove` : a path in a directory, and the directories above a path
* `Disk.Stands`, `Disk.Overlong` : something stands at a path, and what is too long to be asked about
* `Database.Nearest` : the nearest database, as it is meant
* `Database.Trips` : the search comes to a path that it cannot ask about
* `Database.findIn_eq` : the search is one through a list of places
* `Database.nearest_found` : what the search comes to
-/

namespace FixGate

/-! ## Directories above a path -/

namespace Path

variable {p dir root : Path}

/-- A path is a directory, or lies below it. -/
def IsWithin (p dir : Path) : Prop :=
  p.anchor = dir.anchor ∧ dir.names <+: p.names

instance : Decidable (p.IsWithin dir) :=
  inferInstanceAs (Decidable (_ ∧ _))

/-- A directory lies above a path. -/
def IsAbove (dir p : Path) : Prop :=
  p.IsWithin dir ∧ dir ≠ p

instance : Decidable (dir.IsAbove p) :=
  inferInstanceAs (Decidable (_ ∧ _))

theorem IsWithin.refl (p : Path) : p.IsWithin p :=
  ⟨rfl, List.prefix_refl p.names⟩

theorem IsWithin.trans {q : Path} (hp : p.IsWithin q) (hq : q.IsWithin dir) : p.IsWithin dir :=
  ⟨hp.1.trans hq.1, hq.2.trans hp.2⟩

theorem isWithin_below (dir : Path) (name : String) : (dir.below name).IsWithin dir :=
  ⟨rfl, List.prefix_append _ _⟩

theorem IsAbove.length_lt (h : dir.IsAbove p) : dir.names.length < p.names.length := by
  obtain ⟨⟨hanchor, hnames⟩, hne⟩ := h
  refine Nat.lt_of_le_of_ne hnames.length_le ?_
  intro hlength
  have hsame := hnames.eq_of_length hlength
  obtain ⟨a, ns⟩ := p
  obtain ⟨b, ms⟩ := dir
  simp only at hanchor hsame
  exact hne (by rw [hanchor, hsame])

/-- The paths above a path are the directories above it. -/
theorem mem_parents_iff : dir ∈ p.parents ↔ dir.IsAbove p := by
  unfold parents
  simp only [List.mem_map, List.mem_reverse, List.mem_range]
  constructor
  · rintro ⟨n, hn, rfl⟩
    refine ⟨⟨rfl, List.take_prefix n p.names⟩, ?_⟩
    intro hsame
    have hlength := congrArg (fun q : Path => q.names.length) hsame
    simp only [List.length_take] at hlength
    omega
  · intro habove
    refine ⟨dir.names.length, habove.length_lt, ?_⟩
    obtain ⟨hanchor, hnames⟩ := habove.1
    rw [← List.prefix_iff_eq_take.1 hnames, hanchor]

/-- They come nearest first. -/
theorem pairwise_parents (p : Path) : p.parents.Pairwise fun a b => b.IsAbove a := by
  unfold parents
  rw [List.pairwise_map, List.pairwise_reverse]
  refine List.pairwise_lt_range.imp_of_mem ?_
  intro m n _ hn hmn
  rw [List.mem_range] at hn
  refine ⟨⟨rfl, ?_⟩, ?_⟩
  · exact List.take_prefix_take_left (Nat.le_of_lt hmn)
  · intro hsame
    have hlength := congrArg (fun q : Path => q.names.length) hsame
    simp only [List.length_take] at hlength
    omega

/-- The paths above a further name are the path itself, and those above it. -/
theorem parents_below (p : Path) (n : String) : (p.below n).parents = p :: p.parents := by
  unfold parents below
  rw [List.length_append, List.length_singleton, List.range_succ, List.reverse_append, List.reverse_singleton,
    List.singleton_append, List.map_cons, List.take_left]
  congr 1
  apply List.map_congr_left
  intro k hk
  rw [List.mem_reverse, List.mem_range] at hk
  rw [List.take_append_of_le_length (Nat.le_of_lt hk)]

/-! ## Paths that are refused for their length -/

theorem length_slashed (ns : List String) : (slashed ns).length = (ns.map fun n => n.toList.length + 1).sum := by
  induction ns with
  | nil => rfl
  | cons n ns ih =>
    rw [slashed_cons, List.map_cons, List.sum_cons, List.length_cons, List.length_append, ih]
    omega

theorem mem_slashed {ns : List String} {c : Char} (h : c ∈ slashed ns) : c = '/' ∨ ∃ n ∈ ns, c ∈ n.toList := by
  obtain ⟨n, hn, hc⟩ := List.mem_flatMap.1 h
  rcases List.mem_cons.1 hc with rfl | hc
  · exact .inl rfl
  · exact .inr ⟨n, hn, hc⟩

/-- A path of ASCII names without a null character is refused only for its length. -/
theorem fault?_of_ascii {l : Location} (hl : l ≠ []) (ascii : ∀ n ∈ l, Text.Utf8.Ascii n.toList)
    (noNull : ∀ n ∈ l, '\x00' ∉ n.toList) :
    (ofLocation l).fault? =
      if longestText < (l.map fun n => n.toList.length + 1).sum then some .nameTooLong else none := by
  have htext := toList_text_ofLocation hl
  have plain : Text.Utf8.Ascii (ofLocation l).text.toList := by
    intro c hc
    rw [htext] at hc
    rcases mem_slashed hc with rfl | ⟨n, hn, hc⟩
    · decide
    · exact ascii n hn c hc
  have noNull : (ofLocation l).text.toList.contains '\x00' = false := by
    rw [List.contains_eq_mem, decide_eq_false_iff_not, htext]
    intro hc
    rcases mem_slashed hc with hslash | ⟨n, hn, hc⟩
    · exact absurd hslash (by decide)
    · exact noNull n hn hc
  unfold fault?
  rw [Disk.nameFault?_of_ascii plain noNull, Text.Utf8.nameBytes_of_ascii plain, htext, length_slashed]

end Path

/-! ## Asking what stands at a path -/

namespace Disk

variable {d : Disk} {p : Path}

/-- Something stands where a path leads. -/
def Stands (d : Disk) (p : Path) : Prop :=
  d.entryAt p ≠ none

/-- A path is too long to be asked about, or a name on the way is. -/
def Overlong (d : Disk) (p : Path) : Prop :=
  d.locate p = .error .nameTooLong

theorem entryAt_of_overlong (h : d.Overlong p) : d.entryAt p = none := by
  unfold entryAt
  rw [h]

theorem lookUp_of_overlong (h : d.Overlong p) : d.lookUp p = .error (.refusal .nameTooLong p) := by
  unfold lookUp
  rw [h]
  rfl

theorem lookUp_of_not_overlong (h : ¬ d.Overlong p) : d.lookUp p = .ok (d.entryAt p) := by
  unfold Overlong at h
  unfold lookUp entryAt
  cases hl : d.locate p with
  | ok x => rfl
  | error f =>
    cases f
    case nameTooLong => exact absurd hl h
    all_goals rfl

theorem reaches_of_overlong (h : d.Overlong p) : d.reaches p = .error (.refusal .nameTooLong p) := by
  unfold reaches
  rw [lookUp_of_overlong h]
  rfl

theorem reaches_of_not_overlong (h : ¬ d.Overlong p) : d.reaches p = .ok (d.entryAt p).isSome := by
  unfold reaches
  rw [lookUp_of_not_overlong h]
  rfl

theorem isDir_of_overlong (h : d.Overlong p) : d.isDir p = .error (.refusal .nameTooLong p) := by
  unfold isDir
  rw [lookUp_of_overlong h]
  rfl

theorem isDir_of_not_overlong (h : ¬ d.Overlong p) (noDir : d.entryAt p ≠ some .dir) : d.isDir p = .ok false := by
  unfold isDir
  rw [lookUp_of_not_overlong h]
  show Except.ok (d.entryAt p == some .dir) = .ok false
  rw [beq_eq_false_iff_ne.2 noDir]

theorem overlong_of_fault (h : p.fault? = some .nameTooLong) : d.Overlong p := by
  unfold Overlong locate
  rw [h]

/-- A walk meets a name that is too long only if there is one among those it follows. -/
theorem exists_tooLong_of_walk {t : FileTree} {l : Location} {ns : List String}
    (h : t.walk l ns = .error .nameTooLong) : ∃ n ∈ ns, Path.isTooLongName n = true := by
  induction ns generalizing l with
  | nil => cases h
  | cons n ns ih =>
    rw [FileTree.walk] at h
    split at h
    · cases h
    · cases h
    · split_ifs at h with hdots hlong
      · obtain ⟨m, hm, hmlong⟩ := ih h
        exact ⟨m, List.mem_cons_of_mem n hm, hmlong⟩
      · exact ⟨n, List.mem_cons_self, hlong⟩
      · split at h
        · cases h
        · obtain ⟨m, hm, hmlong⟩ := ih h
          exact ⟨m, List.mem_cons_of_mem n hm, hmlong⟩

/-- Paths within the limits can be asked about. -/
theorem not_overlong_of_fits (text : Text.Utf8.nameBytes p.text ≤ Path.longestText)
    (names : ∀ n ∈ p.fromRoot d.here, Path.isTooLongName n = false) : ¬ d.Overlong p := by
  intro h
  unfold Overlong locate at h
  split at h
  · next f hf =>
    cases h
    unfold Path.fault? at hf
    split at hf
    · next g hg =>
      cases hf
      unfold Path.nameFault? at hg
      split_ifs at hg <;> cases hg
    · rw [if_neg (Nat.not_lt.2 text)] at hf
      cases hf
  · cases hw : d.tree.walk [] (p.fromRoot d.here) with
    | error f =>
      rw [hw] at h
      cases h
      obtain ⟨n, hn, hlong⟩ := exists_tooLong_of_walk hw
      rw [names n hn] at hlong
      cases hlong
    | ok l =>
      rw [hw] at h
      simp only [bind, Except.bind] at h
      split at h <;> cases h

end Disk

namespace Database

variable {d : Disk} {start root dir p : Path} {places dirs : List Path} {o : Option Database} {f : Failure}

/-! ## The nearest database -/

/-- The places of a database in a directory, the preferred one first. -/
def placesIn (dir : Path) : List Path :=
  [dir.below fileName, (dir.below "build").below fileName]

/-- A directory has no database. -/
def Bare (d : Disk) (dir : Path) : Prop :=
  ¬ d.Stands (dir.below fileName) ∧ ¬ d.Stands ((dir.below "build").below fileName)

/-- The database of a directory: what stands in it under that name, or else in its build directory. -/
inductive IsOf (d : Disk) (dir : Path) : Path → Prop
  | here : d.Stands (dir.below fileName) → IsOf d dir (dir.below fileName)
  | built : ¬ d.Stands (dir.below fileName) → d.Stands ((dir.below "build").below fileName) →
      IsOf d dir ((dir.below "build").below fileName)

/-- The database of the nearest directory above a path, up to a root directory, that has one; nothing if none has. -/
inductive Nearest (d : Disk) (start root : Path) : Option Database → Prop
  | found {dir file : Path} : dir.IsAbove start → dir.IsWithin root → IsOf d dir file →
      (∀ b : Path, b.IsAbove start → dir.IsAbove b → Bare d b) → Nearest d start root (some (ofFile file))
  | nowhere : (∀ dir : Path, dir.IsAbove start → dir.IsWithin root → Bare d dir) → Nearest d start root none

/-! ## The search through places -/

/-- The directories above a path, up to a root directory, nearest first. -/
def dirsAbove (start root : Path) : List Path :=
  start.parents.filter fun dir => dir.IsWithin root

/-- The places that are asked about for a path, in order. -/
def placesAbove (start root : Path) : List Path :=
  (dirsAbove start root).flatMap placesIn

/-- The search comes to a path that is too long to be asked about: the one that it starts from, or one at which a
database could stand, where nothing stands at the places before it. -/
inductive Trips (d : Disk) (start root : Path) : Path → Prop
  | start : d.Overlong start → Trips d start root start
  | place {before after : List Path} {p : Path} : ¬ d.Overlong start → placesAbove start root = before ++ p :: after →
      d.Overlong p → (∀ q ∈ before, ¬ d.Stands q ∧ ¬ d.Overlong q) → Trips d start root p

/-- What a search through places comes to. -/
inductive Searched (d : Disk) (places : List Path) : Except Failure (Option Path) → Prop
  | found {before after : List Path} {p : Path} : places = before ++ p :: after → d.Stands p →
      (∀ q ∈ before, ¬ d.Stands q ∧ ¬ d.Overlong q) → Searched d places (.ok (some p))
  | refused {before after : List Path} {p : Path} : places = before ++ p :: after → d.Overlong p →
      (∀ q ∈ before, ¬ d.Stands q ∧ ¬ d.Overlong q) → Searched d places (.error (.refusal .nameTooLong p))
  | nowhere : (∀ q ∈ places, ¬ d.Stands q ∧ ¬ d.Overlong q) → Searched d places (.ok none)

theorem searched (d : Disk) (places : List Path) : Searched d places (places.findM? d.reaches) := by
  induction places with
  | nil => exact .nowhere fun q hq => absurd hq List.not_mem_nil
  | cons p places ih =>
    rw [List.findM?]
    by_cases hlong : d.Overlong p
    · rw [Disk.reaches_of_overlong hlong]
      exact .refused (List.nil_append _).symm hlong fun q hq => absurd hq List.not_mem_nil
    · rw [Disk.reaches_of_not_overlong hlong]
      cases hentry : d.entryAt p with
      | some e =>
        have stands : d.Stands p := by
          unfold Disk.Stands
          rw [hentry]
          exact Option.some_ne_none e
        exact .found (List.nil_append _).symm stands fun q hq => absurd hq List.not_mem_nil
      | none =>
        have free : ¬ d.Stands p ∧ ¬ d.Overlong p := ⟨fun stands => stands hentry, hlong⟩
        change Searched d (p :: places) (places.findM? d.reaches)
        generalize places.findM? d.reaches = r at ih
        cases ih with
        | @found before after q hcut stands hfree =>
          have hsplit : p :: places = (p :: before) ++ q :: after := by rw [hcut, List.cons_append]
          exact .found hsplit stands (List.forall_mem_cons.2 ⟨free, hfree⟩)
        | @refused before after q hcut hq hfree =>
          have hsplit : p :: places = (p :: before) ++ q :: after := by rw [hcut, List.cons_append]
          exact .refused hsplit hq (List.forall_mem_cons.2 ⟨free, hfree⟩)
        | nowhere hfree => exact .nowhere (List.forall_mem_cons.2 ⟨free, hfree⟩)

theorem inDirectory_eq (d : Disk) (dir : Path) :
    inDirectory d dir = ((placesIn dir).findM? d.reaches).map (Option.map ofFile) := by
  unfold inDirectory placesIn
  simp only [List.findM?]
  rcases d.reaches (dir.below fileName) with f | b
  · rfl
  · cases b
    · rcases d.reaches ((dir.below "build").below fileName) with f | b
      · rfl
      · cases b <;> rfl
    · rfl

theorem findM?_append_eq (d : Disk) (xs ys : List Path) :
    (xs ++ ys).findM? d.reaches = (xs.findM? d.reaches).bind fun o =>
      match o with
      | some p => .ok (some p)
      | none => ys.findM? d.reaches := by
  induction xs with
  | nil => rfl
  | cons x xs ih =>
    rw [List.cons_append, List.findM?, List.findM?]
    rcases d.reaches x with f | b
    · rfl
    · cases b
      · exact ih
      · rfl

theorem findM?_of_free (free : ∀ q ∈ places, ¬ d.Stands q ∧ ¬ d.Overlong q) : places.findM? d.reaches = .ok none := by
  induction places with
  | nil => rfl
  | cons q places ih =>
    obtain ⟨⟨hstands, hlong⟩, hrest⟩ := List.forall_mem_cons.1 free
    rw [List.findM?, Disk.reaches_of_not_overlong hlong, Classical.not_not.1 hstands]
    exact ih hrest

/-- Directories one after another are searched place by place, up to the root directory. -/
theorem findIn_eq (chain : dirs.Pairwise fun a b => b.IsAbove a) (hroot : root ∈ dirs) :
    findIn d (some root) dirs =
      (((dirs.filter fun dir => dir.IsWithin root).flatMap placesIn).findM? d.reaches).map (Option.map ofFile) := by
  induction dirs with
  | nil => cases hroot
  | cons dir dirs ih =>
    obtain ⟨hchain, hrest⟩ := List.pairwise_cons.1 chain
    rw [findIn, inDirectory_eq]
    by_cases hdir : root = dir
    · subst hdir
      -- what lies above the root directory is not searched
      have outside : dirs.filter (fun dir => decide (dir.IsWithin root)) = [] := by
        rw [List.filter_eq_nil_iff]
        intro b hb
        have habove := hchain b hb
        have hlength := habove.length_lt
        simp only [decide_eq_true_eq]
        intro within
        have := within.2.length_le
        omega
      rw [List.filter_cons_of_pos (by simpa using Path.IsWithin.refl root), outside, List.flatMap_cons,
        List.flatMap_nil, List.append_nil]
      rcases (placesIn root).findM? d.reaches with f | _ | p
      · rfl
      · simp only [Except.map, Option.map, bind, Except.bind, beq_self_eq_true, if_true]
        rfl
      · rfl
    · have hmem : root ∈ dirs := (List.mem_cons.1 hroot).resolve_left hdir
      have within : dir.IsWithin root := (hchain root hmem).1
      have hne : (some root == some dir) = false := by simpa using hdir
      rw [List.filter_cons_of_pos (by simpa using within), List.flatMap_cons, findM?_append_eq]
      rcases (placesIn dir).findM? d.reaches with f | _ | p
      · rfl
      · simp only [Except.map, Option.map, bind, Except.bind, hne, Bool.false_eq_true, if_false]
        exact ih hrest hmem
      · rfl

/-! ## What the search comes to -/

/-- A place in a list that is put together stands in one of its parts. -/
theorem exists_part_of_flatMap {α β : Type} {g : α → List β} {xs : List α} {before after : List β} {y : β}
    (h : xs.flatMap g = before ++ y :: after) :
    ∃ xs₁ x xs₂ ys, xs = xs₁ ++ x :: xs₂ ∧ before = xs₁.flatMap g ++ ys ∧ ys ++ [y] <+: g x := by
  induction xs generalizing before with
  | nil => simp at h
  | cons x xs ih =>
    rw [List.flatMap_cons] at h
    rcases List.append_eq_append_iff.1 h with ⟨mid, rfl, hrest⟩ | ⟨mid, hpart, hrest⟩
    · obtain ⟨xs₁, x', xs₂, ys, rfl, rfl, hpart⟩ := ih hrest
      exact ⟨x :: xs₁, x', xs₂, ys, rfl, by rw [List.flatMap_cons, List.append_assoc], hpart⟩
    · cases mid with
      | nil =>
        have hrest : xs.flatMap g = [] ++ y :: after := hrest.symm
        obtain ⟨xs₁, x', xs₂, ys, rfl, hnil, hpart'⟩ := ih hrest
        refine ⟨x :: xs₁, x', xs₂, ys, rfl, ?_, hpart'⟩
        rw [List.flatMap_cons, List.append_assoc, ← hnil, hpart, List.append_nil, List.append_nil]
      | cons z mid =>
        obtain ⟨rfl, -⟩ := List.cons.inj hrest
        exact ⟨[], x, xs, before, rfl, rfl, mid, by rw [hpart]; simp⟩

theorem mem_dirsAbove_iff : dir ∈ dirsAbove start root ↔ dir.IsAbove start ∧ dir.IsWithin root := by
  unfold dirsAbove
  rw [List.mem_filter, Path.mem_parents_iff, decide_eq_true_eq]

/-- What stands at one of the places in a directory, with nothing at those before it, is its database. -/
theorem isOf_of_first {p : Path} {before : List Path} (hpart : before ++ [p] <+: placesIn dir) (stands : d.Stands p)
    (free : ∀ q ∈ before, ¬ d.Stands q) : IsOf d dir p := by
  cases before with
  | nil =>
    obtain rfl : p = dir.below fileName := (List.cons_prefix_cons.1 hpart).1
    exact .here stands
  | cons first before =>
    obtain ⟨rfl, hrest⟩ := List.cons_prefix_cons.1 hpart
    cases before with
    | nil =>
      obtain rfl : p = (dir.below "build").below fileName := (List.cons_prefix_cons.1 hrest).1
      exact .built (free _ List.mem_cons_self) stands
    | cons second before =>
      have hlength := hrest.length_le
      simp at hlength

/-- A directory nearer than one of the list comes before it. -/
theorem mem_of_nearer {ds es : List Path} {b : Path} (hdirs : dirsAbove start root = ds ++ dir :: es)
    (hb : b.IsAbove start) (hnearer : dir.IsAbove b) : b ∈ ds := by
  have hdir : dir ∈ dirsAbove start root := by simp [hdirs]
  have within := (mem_dirsAbove_iff.1 hdir).2
  have hmem : b ∈ dirsAbove start root := mem_dirsAbove_iff.2 ⟨hb, hnearer.1.trans within⟩
  have chain := (Path.pairwise_parents start).filter fun dir => dir.IsWithin root
  change (dirsAbove start root).Pairwise _ at chain
  rw [hdirs] at chain hmem
  have hfurther := (List.pairwise_cons.1 (List.pairwise_append.1 chain).2.1).1
  have hlength := hnearer.length_lt
  rcases List.mem_append.1 hmem with hds | hrest
  · exact hds
  · rcases List.mem_cons.1 hrest with rfl | hes
    · exact absurd hlength (Nat.lt_irrefl _)
    · exact absurd (hfurther b hes).length_lt (Nat.lt_asymm hlength)

/-- What is found place by place is the nearest database. -/
theorem nearest_of_searched {o : Option Path} (h : Searched d (placesAbove start root) (.ok o)) :
    Nearest d start root (o.map ofFile) := by
  have bare_of {ds : List Path} {before : List Path} (free : ∀ q ∈ before, ¬ d.Stands q ∧ ¬ d.Overlong q)
      (hsub : ds.flatMap placesIn ⊆ before) : ∀ b ∈ ds, Bare d b := by
    intro b hb
    have place {q : Path} (hq : q ∈ placesIn b) : ¬ d.Stands q :=
      (free q (hsub (List.mem_flatMap.2 ⟨b, hb, hq⟩))).1
    exact ⟨place (by simp [placesIn]), place (by simp [placesIn])⟩
  cases h with
  | nowhere free =>
    refine .nowhere fun dir habove within => ?_
    exact bare_of free (List.Subset.refl _) dir (mem_dirsAbove_iff.2 ⟨habove, within⟩)
  | @found before after p hcut stands free =>
    obtain ⟨ds, dir, es, ys, hdirs, rfl, hpart⟩ := exists_part_of_flatMap hcut
    have hdir : dir ∈ dirsAbove start root := by simp [hdirs]
    obtain ⟨habove, within⟩ := mem_dirsAbove_iff.1 hdir
    refine .found habove within (isOf_of_first hpart stands fun q hq => ?_) fun b hb hnearer => ?_
    · exact (free q (List.mem_append_right _ hq)).1
    · exact bare_of free (List.subset_append_left _ _) b (mem_of_nearer hdirs hb hnearer)

theorem find_of_not_dir (asked : ¬ d.Overlong start) (noDir : d.entryAt start ≠ some .dir) (root : Option Path) :
    find d start root = findIn d root start.parents := by
  unfold find
  rw [Disk.isDir_of_not_overlong asked noDir]
  rfl

/-- A search for a path that can be asked about and is no directory goes through the places above it. -/
theorem find_eq (above : root.IsAbove start) (noDir : d.entryAt start ≠ some .dir) (asked : ¬ d.Overlong start) :
    find d start (some root) = ((placesAbove start root).findM? d.reaches).map (Option.map ofFile) := by
  rw [find_of_not_dir asked noDir]
  exact findIn_eq (Path.pairwise_parents start) (Path.mem_parents_iff.2 above)

theorem find_of_overlong (hlong : d.Overlong start) (o : Option Path) :
    find d start o = .error (.refusal .nameTooLong start) := by
  unfold find
  rw [Disk.isDir_of_overlong hlong]
  rfl

theorem IsOf.unique {file file' : Path} (h : IsOf d dir file) (h' : IsOf d dir file') : file = file' := by
  cases h with
  | here stands =>
    cases h' with
    | here _ => rfl
    | built bare _ => exact absurd stands bare
  | built bare _ =>
    cases h' with
    | here stands => exact absurd stands bare
    | built _ _ => rfl

theorem IsOf.not_bare {file : Path} (h : IsOf d dir file) : ¬ Bare d dir := by
  rintro ⟨hfirst, hsecond⟩
  cases h with
  | here stands => exact hfirst stands
  | built _ stands => exact hsecond stands

theorem IsOf.isWithin {file : Path} (h : IsOf d dir file) : file.IsWithin dir := by
  cases h with
  | here _ => exact Path.isWithin_below dir fileName
  | built _ _ => exact (Path.isWithin_below _ fileName).trans (Path.isWithin_below dir "build")

theorem Nearest.isWithin {db : Database} (h : Nearest d start root (some db)) : db.file.IsWithin root := by
  cases h with
  | found _ within isOf _ => exact isOf.isWithin.trans within

/-- There is only one nearest database. -/
theorem Nearest.unique {o o' : Option Database} (h : Nearest d start root o) (h' : Nearest d start root o') :
    o = o' := by
  cases h with
  | nowhere bare =>
    cases h' with
    | nowhere _ => rfl
    | found habove within isOf _ => exact absurd (bare _ habove within) isOf.not_bare
  | @found dir file habove within isOf nearest =>
    cases h' with
    | nowhere bare => exact absurd (bare _ habove within) isOf.not_bare
    | @found dir' file' habove' within' isOf' nearest' =>
      -- of two directories above one path, one lies in the other
      have same_or : dir = dir' ∨ dir.IsAbove dir' ∨ dir'.IsAbove dir := by
        have hanchor : dir.anchor = dir'.anchor := habove.1.1.symm.trans habove'.1.1
        by_cases hsame : dir = dir'
        · exact .inl hsame
        · rcases List.prefix_or_prefix_of_prefix habove.1.2 habove'.1.2 with hnames | hnames
          · exact .inr (.inl ⟨⟨hanchor.symm, hnames⟩, hsame⟩)
          · exact .inr (.inr ⟨⟨hanchor, hnames⟩, Ne.symm hsame⟩)
      rcases same_or with rfl | hlower | hlower
      · rw [isOf.unique isOf']
      · exact absurd (nearest dir' habove' hlower) isOf'.not_bare
      · exact absurd (nearest' dir habove hlower) isOf.not_bare

/-- The search is refused exactly where it comes to a path that is too long. -/
theorem find_eq_error_iff (above : root.IsAbove start) (noDir : d.entryAt start ≠ some .dir) :
    find d start (some root) = .error f ↔ ∃ p, Trips d start root p ∧ f = .refusal .nameTooLong p := by
  by_cases hstart : d.Overlong start
  · rw [find_of_overlong hstart]
    constructor
    · rintro ⟨⟩
      exact ⟨start, .start hstart, rfl⟩
    · rintro ⟨p, htrips, rfl⟩
      cases htrips with
      | start _ => rfl
      | place hasked _ _ _ => exact absurd hstart hasked
  · rw [find_eq above noDir hstart]
    constructor
    · intro h
      have hsearched := searched d (placesAbove start root)
      generalize (placesAbove start root).findM? d.reaches = r at h hsearched
      cases hsearched with
      | found _ _ _ => cases h
      | nowhere _ => cases h
      | @refused before after p hcut hlong free =>
        cases h
        exact ⟨p, .place hstart hcut hlong free, rfl⟩
    · rintro ⟨p, htrips, rfl⟩
      cases htrips with
      | start hlong => exact absurd hlong hstart
      | @place before after _ _ hcut hlong free =>
        rw [hcut, findM?_append_eq, findM?_of_free free]
        simp only [Except.bind, List.findM?, Disk.reaches_of_overlong hlong]
        rfl

theorem nearest_of_find (above : root.IsAbove start) (noDir : d.entryAt start ≠ some .dir)
    (h : find d start (some root) = .ok o) : Nearest d start root o := by
  by_cases hstart : d.Overlong start
  · rw [find_of_overlong hstart] at h
    cases h
  · rw [find_eq above noDir hstart] at h
    have hsearched := searched d (placesAbove start root)
    generalize (placesAbove start root).findM? d.reaches = r at h hsearched
    cases r with
    | error f => cases h
    | ok found =>
      cases h
      exact nearest_of_searched hsearched

/-- Where all paths that could be asked about are within the limits, the search comes to none that is too long. -/
theorem not_trips_of_fits (text : ∀ p ∈ start :: placesAbove start root,
      Text.Utf8.nameBytes p.text ≤ Path.longestText)
    (names : ∀ p ∈ start :: placesAbove start root, ∀ n ∈ p.fromRoot d.here, Path.isTooLongName n = false) (p : Path) :
    ¬ Trips d start root p := by
  intro h
  cases h with
  | start hlong =>
    exact Disk.not_overlong_of_fits (text _ List.mem_cons_self) (names _ List.mem_cons_self) hlong
  | place _ hcut hlong _ =>
    have hmem : p ∈ start :: placesAbove start root := by simp [hcut]
    exact Disk.not_overlong_of_fits (text p hmem) (names p hmem) hlong

/-- The search for the database of a path that is no directory, up to a root directory above it, gives the database of
the nearest directory that has one, and nothing if there is none. It gives an answer exactly if it comes to no path
that is too long to be asked about, and otherwise it ends with the refusal of the first one. A database that it gives
lies in the root directory. -/
theorem nearest_found (d : Disk) (start root : Path) (above : root.IsAbove start)
    (noDir : d.entryAt start ≠ some .dir) :
    ((∃ o, find d start (some root) = .ok o ∧ Nearest d start root o) ↔ ∀ p, ¬ Trips d start root p) ∧
    (∀ o, find d start (some root) = .ok o →
      (∀ o', Nearest d start root o' ↔ o' = o) ∧ ∀ db, o = some db → db.file.IsWithin root) ∧
    (∀ f, find d start (some root) = .error f ↔ ∃ p, Trips d start root p ∧ f = .refusal .nameTooLong p) ∧
    ((∀ p ∈ start :: placesAbove start root, Text.Utf8.nameBytes p.text ≤ Path.longestText) →
      (∀ p ∈ start :: placesAbove start root, ∀ n ∈ p.fromRoot d.here, Path.isTooLongName n = false) →
      ∀ p, ¬ Trips d start root p) := by
  have refused (f : Failure) := find_eq_error_iff (f := f) above noDir
  refine ⟨⟨?_, fun none_trips => ?_⟩, fun o ho => ?_, refused, not_trips_of_fits⟩
  · rintro ⟨o, ho, -⟩ p htrips
    cases ho.symm.trans ((refused _).2 ⟨p, htrips, rfl⟩)
  · cases ho : find d start (some root) with
    | error f =>
      obtain ⟨p, htrips, -⟩ := (refused f).1 ho
      exact absurd htrips (none_trips p)
    | ok o => exact ⟨o, rfl, nearest_of_find above noDir ho⟩
  · have nearest := nearest_of_find above noDir ho
    refine ⟨fun o' => ⟨fun h => h.unique nearest, fun h => h ▸ nearest⟩, ?_⟩
    rintro db rfl
    exact nearest.isWithin

/-- A project in which a database is built, with another one outside of it. -/
def builtProject : Disk :=
  ⟨⟨[(["w"], .dir), (["w", "build"], .dir), (["w", "build", fileName], .file []), (["w", "src"], .dir),
    (["w", "src", "a.c"], .file []), ([fileName], .file [])]⟩, []⟩

/-- A source of the project has the database that is built, and none below the root of the project. -/
theorem nearest_found_built :
    (Path.ofText "/w").IsAbove (Path.ofText "/w/src/a.c") ∧
    builtProject.entryAt (Path.ofText "/w/src/a.c") ≠ some .dir ∧
    find builtProject (Path.ofText "/w/src/a.c") (some (Path.ofText "/w")) =
      .ok (some (ofFile (Path.ofText "/w/build/compile_commands.json"))) ∧
    Nearest builtProject (Path.ofText "/w/src/a.c") (Path.ofText "/w")
      (some (ofFile (Path.ofText "/w/build/compile_commands.json"))) ∧
    Nearest builtProject (Path.ofText "/w/src/a.c") (Path.ofText "/w/src") none := by
  have above : (Path.ofText "/w").IsAbove (Path.ofText "/w/src/a.c") := by decide
  have above' : (Path.ofText "/w/src").IsAbove (Path.ofText "/w/src/a.c") := by decide
  have noDir : builtProject.entryAt (Path.ofText "/w/src/a.c") ≠ some .dir := by decide
  have found : find builtProject (Path.ofText "/w/src/a.c") (some (Path.ofText "/w")) =
      .ok (some (ofFile (Path.ofText "/w/build/compile_commands.json"))) := by rfl
  have absent : find builtProject (Path.ofText "/w/src/a.c") (some (Path.ofText "/w/src")) = .ok none := by rfl
  exact ⟨above, noDir, found, (((nearest_found _ _ _ above noDir).2.1 _ found).1 _).2 rfl,
    (((nearest_found _ _ _ above' noDir).2.1 _ absent).1 _).2 rfl⟩

/-! ## Beyond the limits -/

/-- A name of so many letters. -/
def letters (n : Nat) : String := String.ofList (List.replicate n 'a')

theorem toList_letters (n : Nat) : (letters n).toList = List.replicate n 'a' :=
  String.toList_ofList

theorem eq_of_mem_letters {n : Nat} {c : Char} (h : c ∈ (letters n).toList) : c = 'a' := by
  rw [toList_letters] at h
  exact List.eq_of_mem_replicate h

theorem ascii_letters (n : Nat) : Text.Utf8.Ascii (letters n).toList := by
  intro c hc
  rw [eq_of_mem_letters hc]
  decide

theorem null_not_mem_letters (n : Nat) : '\x00' ∉ (letters n).toList :=
  fun hc => absurd (eq_of_mem_letters hc) (by decide)

theorem isTooLongName_letters (n : Nat) : Path.isTooLongName (letters n) = decide (255 < n) := by
  unfold Path.isTooLongName
  rw [Text.Utf8.nameBytes_of_ascii (ascii_letters n), toList_letters, List.length_replicate]
  rfl

/-- A name with a dot in it is no name of letters. -/
theorem letters_ne {m : String} (dot : '.' ∈ m.toList) (n : Nat) : letters n ≠ m := by
  rintro rfl
  exact absurd (eq_of_mem_letters dot) (by decide)

/-- No disk answers the question what stands at a name of too many letters. -/
theorem overlong_letters (d : Disk) {n : Nat} (h : 255 < n) : d.Overlong (Path.ofLocation [letters n]) := by
  have fault : (Path.ofLocation [letters n]).fault? = if Path.longestText < n + 1 then some .nameTooLong else none := by
    rw [Path.fault?_of_ascii (by simp) (by simp [ascii_letters]) (by simp [null_not_mem_letters])]
    simp only [List.map_cons, List.map_nil, List.sum_singleton, toList_letters, List.length_replicate]
  by_cases hall : Path.longestText < n + 1
  · exact Disk.overlong_of_fault (by rw [fault, if_pos hall])
  · have names : (Path.ofLocation [letters n]).fromRoot d.here = [letters n] := rfl
    have long : Path.isTooLongName (letters n) = true := by rw [isTooLongName_letters, decide_eq_true h]
    have dots : letters n ≠ ".." := letters_ne (by decide) n
    rw [if_neg hall] at fault
    unfold Disk.Overlong Disk.locate
    simp only [fault, names, FileTree.walk, FileTree.get?_nil, beq_iff_eq, dots, long, if_true, if_false]
    rfl

/-- Directories in one another, of names of two hundred fifty-four letters each. -/
def deepTree : Nat → FileTree
  | 0 => .empty
  | k + 1 => (deepTree k).put (List.replicate (k + 1) (letters 254)) .dir

theorem get?_deepTree {j k : Nat} (h : j ≤ k) : (deepTree k).get? (List.replicate j (letters 254)) = some .dir := by
  induction k with
  | zero =>
    obtain rfl : j = 0 := by omega
    rfl
  | succ k ih =>
    rw [deepTree, FileTree.get?_put _ (by simp)]
    split_ifs with hj
    · rfl
    · refine ih (Nat.le_of_lt_succ (Nat.lt_of_le_of_ne h ?_))
      rintro rfl
      exact hj rfl

/-- A walk along directories of one name each. -/
theorem walk_replicate {t : FileTree} {x : String} {k : Nat} (dirs : ∀ j ≤ k, t.get? (List.replicate j x) = some .dir)
    (dots : x ≠ "..") (short : Path.isTooLongName x = false) (n j : Nat) (h : j + n = k) :
    t.walk (List.replicate j x) (List.replicate n x) = .ok (List.replicate k x) := by
  induction n generalizing j with
  | zero =>
    obtain rfl : j = k := h
    rfl
  | succ n ih =>
    have next : List.replicate j x ++ [x] = List.replicate (j + 1) x := List.replicate_succ'.symm
    rw [List.replicate_succ, FileTree.walk, dirs j (by omega)]
    simp only [beq_iff_eq, dots, short, Bool.false_eq_true, if_false, next]
    rw [dirs (j + 1) (by omega)]
    exact ih (j + 1) (by omega)

/-- The lowest of sixteen such directories. -/
def deepDir : Path := Path.ofLocation (List.replicate 16 (letters 254))

/-- A disk with a source in it. -/
def deepDisk : Disk :=
  ⟨(deepTree 16).put (List.replicate 16 (letters 254) ++ ["x.c"]) (.file []), []⟩

/-- A path in it is too long exactly if the name takes more than fourteen bytes. -/
theorem fault?_deepDir_below {n : String} (ascii : Text.Utf8.Ascii n.toList) (noNull : '\x00' ∉ n.toList) :
    (deepDir.below n).fault? = if 14 < n.toList.length then some .nameTooLong else none := by
  have hlength : ((List.replicate 16 (letters 254) ++ [n]).map fun m => m.toList.length + 1).sum =
      4081 + n.toList.length := by
    simp only [List.map_append, List.map_replicate, List.map_cons, List.map_nil, List.sum_append,
      List.sum_replicate_nat, List.sum_singleton, toList_letters, List.length_replicate]
    omega
  have hiff : Path.longestText < 4081 + n.toList.length ↔ 14 < n.toList.length := by
    unfold Path.longestText
    omega
  change (Path.ofLocation (List.replicate 16 (letters 254) ++ [n])).fault? = _
  rw [Path.fault?_of_ascii (by simp), hlength]
  · simp only [hiff]
  · intro m hm
    rcases List.mem_append.1 hm with hm | hm
    · rw [List.eq_of_mem_replicate hm]
      exact ascii_letters 254
    · rw [List.mem_singleton.1 hm]
      exact ascii
  · intro m hm
    rcases List.mem_append.1 hm with hm | hm
    · rw [List.eq_of_mem_replicate hm]
      exact null_not_mem_letters 254
    · rw [List.mem_singleton.1 hm]
      exact noNull

theorem overlong_deepDir_below (d : Disk) : d.Overlong (deepDir.below fileName) := by
  apply Disk.overlong_of_fault
  rw [fault?_deepDir_below (by decide) (by decide), if_pos (by decide)]

theorem entryAt_deepDir_below : deepDisk.entryAt (deepDir.below "x.c") = some (.file []) := by
  have hput (l : Location) : deepDisk.tree.get? l =
      if l = List.replicate 16 (letters 254) ++ ["x.c"] then some (.file []) else (deepTree 16).get? l :=
    FileTree.get?_put _ (by simp) l _
  have dirs (j : Nat) (hj : j ≤ 16) : deepDisk.tree.get? (List.replicate j (letters 254)) = some .dir := by
    rw [hput, if_neg, get?_deepTree hj]
    intro hsame
    have hmem : "x.c" ∈ List.replicate j (letters 254) := by simp [hsame]
    exact letters_ne (by decide) 254 (List.eq_of_mem_replicate hmem).symm
  have leads : deepDisk.Leads (deepDir.below "x.c") (List.replicate 16 (letters 254)) "x.c" := {
    taken := fault?_deepDir_below (by decide) (by decide)
    way := ⟨_, rfl, walk_replicate dirs (letters_ne (by decide) 254) (isTooLongName_letters 254) 16 0 rfl⟩
    dir := dirs 16 (Nat.le_refl 16)
    name := by decide
    short := by decide
    noDir := by
      rw [hput, if_pos rfl]
      decide }
  rw [Disk.entryAt_of_locateNew (Disk.locateNew_eq_ok_iff.2 ⟨_, _, leads, rfl⟩), hput, if_pos rfl]

theorem bare_empty : Bare ⟨.empty, []⟩ (Path.ofLocation []) :=
  ⟨fun stands => stands (by decide), fun stands => stands (by decide)⟩

/-- There is no database on an empty disk, but the search for that of a name of three hundred letters is refused. It is
also refused for a source that stands in a directory whose path leaves no room for a database. -/
theorem not_nearest_found_beyond_limits :
    (Path.ofLocation []).IsAbove (Path.ofLocation [letters 300]) ∧
    (⟨.empty, []⟩ : Disk).entryAt (Path.ofLocation [letters 300]) ≠ some .dir ∧
    Nearest ⟨.empty, []⟩ (Path.ofLocation [letters 300]) (Path.ofLocation []) none ∧
    find ⟨.empty, []⟩ (Path.ofLocation [letters 300]) (some (Path.ofLocation [])) =
      .error (.refusal .nameTooLong (Path.ofLocation [letters 300])) ∧
    (Path.ofLocation []).IsAbove (deepDir.below "x.c") ∧
    deepDisk.entryAt (deepDir.below "x.c") = some (.file []) ∧
    find deepDisk (deepDir.below "x.c") (some (Path.ofLocation [])) =
      .error (.refusal .nameTooLong (deepDir.below "compile_commands.json")) := by
  have asked : ¬ deepDisk.Overlong (deepDir.below "x.c") := by
    intro h
    cases (Disk.entryAt_of_overlong h).symm.trans entryAt_deepDir_below
  refine ⟨⟨⟨rfl, List.nil_prefix⟩, by simp [Path.ofLocation]⟩, ?_, ?_,
    find_of_overlong (overlong_letters _ (by decide)) _,
    ⟨⟨rfl, List.nil_prefix⟩, by simp [deepDir, Path.below, Path.ofLocation]⟩, entryAt_deepDir_below, ?_⟩
  · rw [Disk.entryAt_of_overlong (overlong_letters _ (by decide))]
    simp
  · refine .nowhere fun dir habove _ => ?_
    obtain rfl : dir = Path.ofLocation [] := by
      have hlength : dir.names.length < 1 := habove.length_lt
      obtain ⟨a, ns⟩ := dir
      obtain rfl : Anchor.root = a := habove.1.1
      obtain rfl : ns = [] := List.length_eq_zero_iff.1 (Nat.lt_one_iff.1 hlength)
      rfl
    exact bare_empty
  · rw [find_of_not_dir asked (by rw [entryAt_deepDir_below]; simp), Path.parents_below, findIn, inDirectory,
      Disk.reaches_of_overlong (overlong_deepDir_below _)]
    rfl

end Database

end FixGate
