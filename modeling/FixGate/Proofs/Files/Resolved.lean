import FixGate.Files.Disk
import FixGate.Proofs.Files.Endings

/-!
# Absolute paths without dots

Resolving a path follows its names from the root, so what it gives starts from the root and holds no double dot. Such a
path is its own resolution. The written form of a path is read as the path again. A path can be resolved exactly if
every one of its names can be handed to the system, wherever it is seen from.

* `Path.follow_of_dotless`, `Path.not_mem_follow` : following names, with and without double dots
* `Path.resolve_resolve`, `Path.normal_resolve` : what resolving gives
* `Path.ofText_text` : a path is read as it is written
* `Path.obstacle?_eq_none_iff`, `Disk.resolveChecked_of_names` : which paths can be resolved
-/

namespace FixGate

namespace Path

variable {l cwd : Location} {ns : List String} {n s t : String} {p q : Path} {c : Char} {cs : List Char}

/-! ## Following names -/

theorem mem_follow (h : n ∈ follow l ns) : n ∈ l ∨ n ∈ ns := by
  induction ns generalizing l with
  | nil => exact .inl h
  | cons m ns ih =>
    rw [follow] at h
    split at h
    · rcases ih h with h | h
      · exact .inl (List.dropLast_subset l h)
      · exact .inr (List.mem_cons_of_mem m h)
    · rcases ih h with h | h
      · rcases List.mem_append.1 h with h | h
        · exact .inl h
        · rw [List.mem_singleton.1 h]
          exact .inr List.mem_cons_self
      · exact .inr (List.mem_cons_of_mem m h)

/-- No double dot is left of those that are followed. -/
theorem not_mem_follow (hl : ".." ∉ l) (ns : List String) : ".." ∉ follow l ns := by
  induction ns generalizing l with
  | nil => exact hl
  | cons m ns ih =>
    rw [follow]
    split
    · apply ih
      intro h
      exact hl (List.dropLast_subset l h)
    · next hm =>
      apply ih
      intro h
      rcases List.mem_append.1 h with h | h
      · exact hl h
      · rw [← List.mem_singleton.1 h] at hm
        exact hm (beq_self_eq_true "..")

/-- Names without a double dot lead one further down each. -/
theorem follow_of_dotless (hns : ".." ∉ ns) (l : Location) : follow l ns = l ++ ns := by
  induction ns generalizing l with
  | nil => rw [follow, List.append_nil]
  | cons m ns ih =>
    rw [List.mem_cons, not_or] at hns
    have hm : (m == "..") = false := by simpa using Ne.symm hns.1
    rw [follow, hm, if_neg Bool.false_ne_true, ih hns.2, List.append_assoc, List.singleton_append]

/-! ## What resolving gives -/

theorem not_mem_resolve (p : Path) (cwd : Location) : ".." ∉ (p.resolve cwd).names :=
  not_mem_follow List.not_mem_nil _

theorem resolve_of_dotless (hl : ".." ∉ l) (cwd : Location) : (ofLocation l).resolve cwd = ofLocation l := by
  show ofLocation (follow [] l) = ofLocation l
  rw [follow_of_dotless hl, List.nil_append]

/-- An absolute path without dots is its own resolution, from wherever it is seen. -/
theorem resolve_resolve (p : Path) (cwd cwd' : Location) : (p.resolve cwd).resolve cwd' = p.resolve cwd :=
  resolve_of_dotless (not_mem_resolve p cwd) cwd'

/-- Paths as they are read lead to such paths, seen from a directory whose path is one. -/
theorem normal_resolve (hp : p.Normal) (hcwd : (ofLocation cwd).Normal) : (p.resolve cwd).Normal := by
  intro n hn
  rcases mem_follow hn with h | h
  · exact absurd h List.not_mem_nil
  · unfold fromRoot at h
    split at h
    · exact hp n h
    · rcases List.mem_append.1 h with h | h
      · exact hcwd n h
      · exact hp n h

/-! ## Written and read again -/

theorem splitOn_slashed (hns : ∀ n ∈ ns, '/' ∉ n.toList) : (slashed ns).splitOn '/' = [] :: ns.map String.toList := by
  rcases ns with _ | ⟨n, ns⟩
  · rfl
  · have hslash : "/".toList = ['/'] := rfl
    have hnames : ∀ m ∈ (n :: ns).map String.toList, '/' ∉ m := by
      intro m hm
      obtain ⟨k, hk, rfl⟩ := List.mem_map.1 hm
      exact hns k hk
    rw [← cons_intercalate, String.toList_intercalate, hslash, List.splitOn_cons_eq_if_modifyHead,
      if_pos (beq_self_eq_true '/'), List.splitOn_intercalate '/' hnames (by simp)]

theorem namesOf_of_slashed {s : String} (hs : s.toList = slashed ns) (hns : (ofLocation ns).Normal) :
    namesOf s = ns := by
  have kept : ∀ n ∈ ns, (n != "" && n != ".") = true := by
    intro n hn
    simpa using ⟨(hns n hn).1, (hns n hn).2.1⟩
  rw [namesOf, hs, splitOn_slashed fun n (hn : n ∈ ns) => (hns n hn).2.2, List.map_cons, List.map_map]
  have hid : String.ofList ∘ String.toList = id := funext fun _ => String.ofList_toList
  rw [hid, List.map_id, List.filter_cons_of_neg (by decide), List.filter_eq_self.2 kept]

theorem toList_text_ofLocation {l : Location} (hl : l ≠ []) : (ofLocation l).text.toList = slashed l := by
  obtain ⟨n, ns, rfl⟩ := List.exists_cons_of_ne_nil hl
  rw [← cons_intercalate]
  simp [text, ofLocation, Anchor.text]

/-- A slash more in front adds no name. -/
theorem namesOf_of_cons (h : s.toList = '/' :: t.toList) : namesOf s = namesOf t := by
  rw [namesOf, h, List.splitOn_cons_eq_if_modifyHead, if_pos (beq_self_eq_true '/'), List.map_cons,
    List.filter_cons_of_neg (by decide), namesOf]

theorem ofText_of_here (h : s.toList = c :: cs) (hc : c ≠ '/') : ofText s = ⟨.here, namesOf s⟩ := by
  unfold ofText
  rw [h]
  split <;> simp_all

theorem ofText_of_root (h : s.toList = '/' :: c :: cs) (hc : c ≠ '/') : ofText s = ⟨.root, namesOf s⟩ := by
  unfold ofText
  rw [h]
  split <;> simp_all

theorem ofText_of_doubleRoot (h : s.toList = '/' :: '/' :: c :: cs) (hc : c ≠ '/') :
    ofText s = ⟨.doubleRoot, namesOf s⟩ := by
  unfold ofText
  rw [h]
  split <;> grind

/-- A path is read as it is written. -/
theorem ofText_text (hp : p.Normal) : ofText p.text = p := by
  obtain ⟨a, ns⟩ := p
  cases ns with
  | nil => cases a <;> rfl
  | cons n ns =>
    -- the names are read from the text with one slash in front
    have hnames : namesOf (String.ofList (slashed (n :: ns))) = n :: ns := namesOf_of_slashed String.toList_ofList hp
    obtain ⟨filled, -, whole⟩ := hp n List.mem_cons_self
    obtain ⟨c, cs, hn⟩ := List.exists_cons_of_ne_nil fun hnil => filled (String.toList_eq_nil_iff.1 hnil)
    have hc : c ≠ '/' := by
      rintro rfl
      exact whole (by rw [hn]; exact List.mem_cons_self)
    have hslashed : slashed (n :: ns) = '/' :: c :: (cs ++ slashed ns) := by rw [slashed_cons, hn, List.cons_append]
    cases a with
    | here =>
      have htext : '/' :: (text ⟨.here, n :: ns⟩).toList = slashed (n :: ns) := by
        rw [← cons_intercalate]
        simp [text, Anchor.text]
      have hread := namesOf_of_cons (s := String.ofList (slashed (n :: ns))) (String.toList_ofList.trans htext.symm)
      rw [ofText_of_here (List.cons.inj (htext.trans hslashed)).2 hc, ← hread, hnames]
    | root =>
      have htext : (text ⟨.root, n :: ns⟩).toList = slashed (n :: ns) := toList_text_ofLocation (List.cons_ne_nil n ns)
      rw [ofText_of_root (htext.trans hslashed) hc, namesOf_of_slashed htext hp]
    | doubleRoot =>
      have htext : (text ⟨.doubleRoot, n :: ns⟩).toList = '/' :: slashed (n :: ns) := by
        rw [← cons_intercalate]
        simp [text, Anchor.text]
      have hread := namesOf_of_cons (t := String.ofList (slashed (n :: ns))) (by rw [htext, String.toList_ofList])
      rw [ofText_of_doubleRoot (by rw [htext, hslashed]) hc, hread, hnames]

/-! ## Paths that can be resolved -/

theorem obstacleFrom_eq_none_iff : obstacleFrom p ns = none ↔ ∀ n ∈ ns, nameFault? n = none := by
  induction ns generalizing p with
  | nil => simp [obstacleFrom]
  | cons n ns ih =>
    rw [obstacleFrom, List.forall_mem_cons]
    split
    · next f hf => simp [hf]
    · next hn => rw [ih, hn, eq_self_iff_true, true_and]

/-- Nothing stands in the way of a path exactly if its names can be handed to the system. -/
theorem obstacle?_eq_none_iff : p.obstacle? = none ↔ ∀ n ∈ p.names, nameFault? n = none :=
  obstacleFrom_eq_none_iff

/-- What stands in the way is the fault of one of the names. -/
theorem exists_of_obstacleFrom {reached : Path} {fault : PathFault} (h : p.obstacleFrom ns = some (fault, reached)) :
    ∃ n ∈ ns, nameFault? n = some fault := by
  induction ns generalizing p with
  | nil => cases h
  | cons n ns ih =>
    rw [obstacleFrom] at h
    split at h
    · next g hg =>
      obtain ⟨rfl, -⟩ := Prod.mk.inj (Option.some.inj h)
      exact ⟨n, List.mem_cons_self, hg⟩
    · obtain ⟨m, hm, hfault⟩ := ih h
      exact ⟨m, List.mem_cons_of_mem n hm, hfault⟩

theorem names_join (p q : Path) : ∀ n ∈ (p.join q).names, n ∈ p.names ∨ n ∈ q.names := by
  intro n hn
  unfold join at hn
  split at hn
  · exact .inr hn
  · exact List.mem_append.1 hn

end Path

namespace Disk

variable {d : Disk} {p q target : Path}

theorem resolveChecked_eq_ok_iff : d.resolveChecked p = .ok target ↔ p.obstacle? = none ∧ d.resolve p = target := by
  unfold resolveChecked
  cases p.obstacle? with
  | some f => simp
  | none => simp

theorem resolveChecked_of_names (hp : ∀ n ∈ p.names, Path.nameFault? n = none) :
    d.resolveChecked p = .ok (d.resolve p) :=
  resolveChecked_eq_ok_iff.2 ⟨Path.obstacle?_eq_none_iff.2 hp, rfl⟩

/-- A path that was resolved resolves to itself. -/
theorem resolve_of_resolveChecked (h : d.resolveChecked p = .ok target) : d.resolve target = target := by
  rw [← (resolveChecked_eq_ok_iff.1 h).2]
  exact Path.resolve_resolve p d.here d.here

end Disk

end FixGate
