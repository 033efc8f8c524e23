import FixGate.Files.Tree
import Mathlib.Tactic.SplitIfs

/-!
# The file tree as a map

What stands at a place after an entry is set or removed, and what a walk along directories depends on:
only on which places are directories, as long as it ends at one.

* `FileTree.get?_put`, `FileTree.get?_remove` : the tree after a change of one place
* `FileTree.Same` : two trees with the same entry everywhere
* `FileTree.SameDirs`, `FileTree.SameShape` : two trees with the same directories, and with the same files
  by name
* `FileTree.walk_of_dirs` : a walk to a directory in a tree that has at least these directories
* `FileTree.Open` : a place to which directories lead
-/

namespace FixGate.FileTree

variable {t u v : FileTree} {k l m : Location} {e : Entry}

/-! ## Setting and removing an entry -/

theorem lookup_putIn (l k : Location) (e : Entry) (es : List (Location × Entry)) :
    (putIn l e es).lookup k = if k = l then some e else es.lookup k := by
  induction es with
  | nil =>
    by_cases hk : k = l
    · simp [putIn, hk]
    · have hkl : (k == l) = false := by simpa using hk
      simp [putIn, hk, List.lookup_cons, hkl]
  | cons x es ih =>
    obtain ⟨j, old⟩ := x
    by_cases hj : j = l
    · subst hj
      by_cases hk : k = j
      · simp [putIn, hk]
      · have hkj : (k == j) = false := by simpa using hk
        simp [putIn, hk, List.lookup_cons, hkj]
    · by_cases hk : k = j
      · subst hk
        simp [putIn, hj]
      · have hkj : (k == j) = false := by simpa using hk
        simp only [putIn, beq_iff_eq, if_neg hj, List.lookup_cons, hkj, ih]

/-- The root is a directory whatever is set there. -/
@[simp] theorem get?_nil (t : FileTree) : t.get? [] = some .dir := rfl

theorem get?_of_ne_nil (t : FileTree) (h : l ≠ []) : t.get? l = t.entries.lookup l := by
  cases l with
  | nil => exact absurd rfl h
  | cons n ns => rfl

/-- What stands at a place after an entry is set. -/
theorem get?_put (t : FileTree) (h : l ≠ []) (k : Location) (e : Entry) :
    (t.put l e).get? k = if k = l then some e else t.get? k := by
  by_cases hk : k = []
  · subst hk
    simp [Ne.symm h]
  · rw [get?_of_ne_nil _ hk, get?_of_ne_nil _ hk]
    exact lookup_putIn l k e t.entries

theorem lookup_filter_ne (l k : Location) (es : List (Location × Entry)) :
    (es.filter fun x => x.1 != l).lookup k = if k = l then none else es.lookup k := by
  induction es with
  | nil => simp
  | cons x es ih =>
    obtain ⟨j, old⟩ := x
    by_cases hj : j = l
    · subst hj
      by_cases hk : k = j
      · simpa [hk] using ih
      · have hkj : (k == j) = false := by simpa using hk
        simpa [hk, List.lookup_cons, hkj] using ih
    · by_cases hk : k = j
      · subst hk
        simp [hj]
      · have hkj : (k == j) = false := by simpa using hk
        simpa [hj, List.lookup_cons, hkj] using ih

/-- What stands at a place after an entry is removed. -/
theorem get?_remove (t : FileTree) (h : l ≠ []) (k : Location) :
    (t.remove l).get? k = if k = l then none else t.get? k := by
  by_cases hk : k = []
  · subst hk
    simp [Ne.symm h]
  · rw [get?_of_ne_nil _ hk, get?_of_ne_nil _ hk]
    exact lookup_filter_ne l k t.entries

/-! ## Trees with the same entries, and with the same directories -/

/-- The same entry stands at every place. -/
def Same (t u : FileTree) : Prop :=
  ∀ l, t.get? l = u.get? l

/-- The same places are directories. -/
def SameDirs (t u : FileTree) : Prop :=
  ∀ l, t.get? l = some .dir ↔ u.get? l = some .dir

theorem Same.refl (t : FileTree) : t.Same t := fun _ => rfl

theorem Same.symm (h : t.Same u) : u.Same t := fun l => (h l).symm

theorem Same.trans (h : t.Same u) (h' : u.Same v) : t.Same v := fun l => (h l).trans (h' l)

theorem Same.sameDirs (h : t.Same u) : t.SameDirs u := fun l => by rw [h l]

theorem SameDirs.refl (t : FileTree) : t.SameDirs t := fun _ => Iff.rfl

theorem SameDirs.symm (h : t.SameDirs u) : u.SameDirs t := fun l => (h l).symm

theorem SameDirs.trans (h : t.SameDirs u) (h' : u.SameDirs v) : t.SameDirs v :=
  fun l => (h l).trans (h' l)

/-- The same places are files, and the same are directories. -/
structure SameShape (t u : FileTree) : Prop where
  dirs : t.SameDirs u
  isNone : ∀ l, (t.get? l).isNone = (u.get? l).isNone

/-- A file set where no directory stands leaves the directories as they are. -/
theorem sameDirs_put (h : l ≠ []) (hl : t.get? l ≠ some .dir) (b : List UInt8) :
    t.SameDirs (t.put l (.file b)) := by
  intro k
  rw [get?_put t h]
  by_cases hk : k = l
  · subst hk
    simp [hl]
  · rw [if_neg hk]

/-- So does a file that is removed. -/
theorem sameDirs_remove (h : l ≠ []) (hl : t.get? l ≠ some .dir) : t.SameDirs (t.remove l) := by
  intro k
  rw [get?_remove t h]
  by_cases hk : k = l
  · subst hk
    simp [hl]
  · rw [if_neg hk]

/-- Removing what was set where nothing stood gives the entries from before. -/
theorem same_remove_of_put (h : l ≠ []) (hl : t.get? l = none)
    (hu : ∀ k, k ≠ l → u.get? k = t.get? k) : (u.remove l).Same t := by
  intro k
  rw [get?_remove u h]
  by_cases hk : k = l
  · rw [if_pos hk, hk, hl]
  · rw [if_neg hk, hu k hk]

/-! ## Walks -/

/-- A walk along names and then along further ones. -/
theorem walk_append (t : FileTree) (l : Location) (ms ns : List String) :
    t.walk l (ms ++ ns) = (t.walk l ms).bind fun k => t.walk k ns := by
  induction ms generalizing l with
  | nil => rfl
  | cons m ms ih =>
    simp only [List.cons_append, walk]
    cases t.get? l with
    | none => rfl
    | some e =>
      cases e with
      | file b => rfl
      | dir =>
        simp only
        split_ifs
        · exact ih _
        · rfl
        · cases t.get? (l ++ [m]) with
          | none => rfl
          | some e => exact ih _

/-- A walk that ends at a directory meets directories only, so a tree that has them is walked the same
way. -/
theorem walk_of_dirs (dirs : ∀ k, t.get? k = some .dir → u.get? k = some .dir) {ns : List String} :
    t.walk l ns = .ok k → t.get? k = some .dir → u.walk l ns = .ok k := by
  induction ns generalizing l with
  | nil => exact fun hw _ => hw
  | cons n ns ih =>
    intro hw hk
    simp only [walk] at hw ⊢
    split at hw
    · cases hw
    · cases hw
    · next hl =>
      rw [dirs l hl]
      simp only
      split_ifs at hw ⊢
      · exact ih hw hk
      · split at hw
        · cases hw
        · next e he =>
          -- the next name leads to a directory, being followed further or the end of the walk
          have hdir : t.get? (l ++ [n]) = some .dir := by
            cases ns with
            | nil =>
              simp only [walk, Except.ok.injEq] at hw
              rw [hw]
              exact hk
            | cons m ms =>
              simp only [walk] at hw
              split at hw
              · cases hw
              · cases hw
              · assumption
          rw [dirs _ hdir]
          exact ih hw hk

/-- Every place above is a directory. -/
def Open (t : FileTree) (l : Location) : Prop :=
  ∀ k, k <+: l → k ≠ l → t.get? k = some .dir

theorem open_nil (t : FileTree) : t.Open [] := by
  intro k hk hne
  exact absurd (List.prefix_nil.1 hk) hne

theorem Open.dropLast (h : t.Open l) : t.Open l.dropLast := by
  intro k hk hne
  refine h k (hk.trans (List.dropLast_prefix l)) fun heq => hne ?_
  subst heq
  exact (hk.eq_of_length_le (by simp)).trans rfl

theorem Open.concat (h : t.Open l) (hl : t.get? l = some .dir) (n : String) : t.Open (l ++ [n]) := by
  intro k hk hne
  rcases List.prefix_concat_iff.1 hk with heq | hk
  · exact absurd heq hne
  · by_cases hkl : k = l
    · rw [hkl, hl]
    · exact h k hk hkl

/-- Directories lead to the place that a walk reaches. -/
theorem open_of_walk {ns : List String} (h : t.Open l) : t.walk l ns = .ok k → t.Open k := by
  induction ns generalizing l with
  | nil =>
    intro hw
    simp only [walk, Except.ok.injEq] at hw
    exact hw ▸ h
  | cons n ns ih =>
    intro hw
    simp only [walk] at hw
    split at hw
    · cases hw
    · cases hw
    · next hl =>
      split_ifs at hw
      · exact ih h.dropLast hw
      · split at hw
        · cases hw
        · exact ih (h.concat hl n) hw

/-- What lies above an open place is a directory. -/
theorem Open.get?_dropLast (h : t.Open l) : t.get? l.dropLast = some .dir := by
  by_cases hl : l = []
  · subst hl
    rfl
  · refine h _ (List.dropLast_prefix l) fun heq => ?_
    have := congrArg List.length heq
    have := List.length_pos_iff.2 hl
    simp at *
    omega

end FixGate.FileTree
