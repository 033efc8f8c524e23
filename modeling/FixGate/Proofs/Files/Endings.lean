import FixGate.Files.Path

/-!
# Paths that end alike

Whether two paths may mean the same file is told from their written forms: one is the other, or the other ends with a
slash and the one. The paths that reading a text gives have no empty name, no single dot and no slash in a name. For
two of these, other than the current directory and paths with two slashes at their start, the test says exactly that
the parts of one are the last parts of the other, the slash of the root being a part of its own.

* `Path.Normal`, `Path.normal_ofText` : paths as they are read
* `Path.components` : the parts of a path
* `Path.slashed_suffix_iff` : names in a text that is made of names with a slash before each
* `Path.sameFile_comm`, `Path.sameFile_iff` : the test is symmetric, and what it says of the parts
-/

namespace FixGate.Path

variable {p q : Path} {ms ns : List String} {m n s : String}

/-! ## Paths as they are read -/

/-- No name is empty, a single dot, or holds a slash. -/
def Normal (p : Path) : Prop :=
  ∀ n ∈ p.names, n ≠ "" ∧ n ≠ "." ∧ '/' ∉ n.toList

/-- A piece between separators holds none. -/
theorem not_mem_of_mem_splitOn {x : Char} {cs piece : List Char} (h : piece ∈ cs.splitOn x) : x ∉ piece := by
  induction cs generalizing piece with
  | nil =>
    rw [List.splitOn_nil, List.mem_singleton] at h
    simp [h]
  | cons c cs ih =>
    rw [List.splitOn_cons_eq_if_modifyHead] at h
    split at h
    · rcases List.mem_cons.1 h with rfl | h
      · simp
      · exact ih h
    · next hc =>
      obtain ⟨first, later, hpieces⟩ := List.exists_cons_of_ne_nil (List.splitOn_ne_nil x cs)
      rw [hpieces, List.modifyHead_cons] at h
      rw [hpieces] at ih
      rcases List.mem_cons.1 h with rfl | h
      · rw [List.mem_cons, not_or]
        exact ⟨fun hx => hc (by simp [hx]), ih List.mem_cons_self⟩
      · exact ih (List.mem_cons_of_mem _ h)

/-- The path that a text denotes is of this kind. -/
theorem normal_ofText (s : String) : (ofText s).Normal := by
  have hnames : (ofText s).names = namesOf s := by
    unfold ofText
    split <;> rfl
  intro n hn
  rw [hnames, namesOf, List.mem_filter, List.mem_map] at hn
  obtain ⟨⟨cs, hcs, rfl⟩, hkept⟩ := hn
  simp only [Bool.and_eq_true, bne_iff_ne, ne_eq] at hkept
  refine ⟨hkept.1, hkept.2, ?_⟩
  rw [String.toList_ofList]
  exact not_mem_of_mem_splitOn hcs

/-- The parts of a path: the slash or slashes that it starts with, if there are any, and its names. -/
def components (p : Path) : List String :=
  match p.anchor with
  | .here => p.names
  | a => a.text :: p.names

/-! ## Names with a slash before each -/

/-- The text of names with a slash before each. -/
def slashed (ns : List String) : List Char :=
  ns.flatMap fun n => '/' :: n.toList

@[simp] theorem slashed_nil : slashed [] = [] := rfl

@[simp] theorem slashed_cons (n : String) (ns : List String) : slashed (n :: ns) = '/' :: (n.toList ++ slashed ns) := by
  simp [slashed]

/-- A name ends at the next slash. -/
theorem takeWhile_slashed (hn : '/' ∉ n.toList) (ns : List String) :
    (n.toList ++ slashed ns).takeWhile (· != '/') = n.toList := by
  have clean : ∀ c ∈ n.toList, (c != '/') = true := fun c hc => by
    rw [bne_iff_ne]
    rintro rfl
    exact hn hc
  rw [List.takeWhile_append_of_pos clean]
  cases ns <;> simp

theorem slashed_inj (hm : ∀ m ∈ ms, '/' ∉ m.toList) (hn : ∀ n ∈ ns, '/' ∉ n.toList) (h : slashed ms = slashed ns) :
    ms = ns := by
  induction ms generalizing ns with
  | nil =>
    cases ns with
    | nil => rfl
    | cons n ns => simp at h
  | cons m ms ih =>
    cases ns with
    | nil => simp at h
    | cons n ns =>
      rw [slashed_cons, slashed_cons, List.cons.injEq] at h
      have hfirst := congrArg (List.takeWhile (· != '/')) h.2
      rw [takeWhile_slashed (hm m List.mem_cons_self), takeWhile_slashed (hn n List.mem_cons_self)] at hfirst
      rw [hfirst] at h
      rw [String.toList_injective hfirst, ih (fun k hk => hm k (List.mem_cons_of_mem _ hk))
        (fun k hk => hn k (List.mem_cons_of_mem _ hk)) (List.append_cancel_left h.2)]

/-- Such a text ends with another exactly if the names end with those of the other. -/
theorem slashed_suffix_iff (hm : ∀ m ∈ ms, '/' ∉ m.toList) (hn : ∀ n ∈ ns, '/' ∉ n.toList) :
    slashed ms <:+ slashed ns ↔ ms <:+ ns := by
  constructor
  · intro h
    induction ns with
    | nil => exact List.suffix_nil.2 (slashed_inj hm hn (by simpa using h))
    | cons n ns ih =>
      have hrest : ∀ k ∈ ns, '/' ∉ k.toList := fun k hk => hn k (List.mem_cons_of_mem _ hk)
      have hlast : slashed ns <:+ slashed (n :: ns) := List.suffix_append ('/' :: n.toList) _
      rcases List.suffix_or_suffix_of_suffix h hlast with hin | ⟨r, hr⟩
      · exact (ih hrest hin).trans (List.suffix_cons n ns)
      · obtain ⟨before, hbefore⟩ := h
        have hcut : before ++ r = '/' :: n.toList := by
          rw [← hr, slashed_cons, ← List.cons_append, ← List.append_assoc] at hbefore
          exact List.append_cancel_right hbefore
        cases before with
        | nil =>
          -- more than the later names is the first name with its slash
          have hsame : slashed ms = slashed (n :: ns) := by
            rw [← hr, slashed_cons, ← List.cons_append, ← hcut, List.nil_append]
          obtain rfl := slashed_inj hm hn hsame
          exact List.suffix_refl _
        | cons c before =>
          -- more than the later names is an end of the first name, which holds no slash
          have hname : r <:+ n.toList := ⟨before, (List.cons.inj hcut).2⟩
          cases r with
          | nil =>
            rw [slashed_inj hm hrest hr.symm]
            exact List.suffix_cons n ns
          | cons d r =>
            cases ms with
            | nil => simp at hr
            | cons m ms =>
              rw [slashed_cons, List.cons_append, List.cons.injEq] at hr
              exact absurd (hname.subset (hr.1 ▸ List.mem_cons_self)) (hn n List.mem_cons_self)
  · rintro ⟨before, rfl⟩
    exact ⟨slashed before, by simp [slashed]⟩

theorem cons_intercalate (n : String) (ns : List String) :
    '/' :: ("/".intercalate (n :: ns)).toList = slashed (n :: ns) := by
  have hslash : "/".toList = ['/'] := rfl
  rw [String.toList_intercalate, hslash]
  induction ns generalizing n with
  | nil => simp
  | cons m ns ih =>
    rw [slashed_cons, ← ih m, List.map_cons, List.map_cons, List.intercalate_cons_cons]
    simp

/-! ## The written form of a path -/

/-- A path as it is read that is not the current directory and does not start with two slashes. -/
structure Plain (p : Path) : Prop where
  normal : p.Normal
  single : p.anchor ≠ .doubleRoot
  named : p ≠ ⟨.here, []⟩

/-- What stands between the slashes of a path: nothing before the one of the root, and nothing behind it where no name
follows. -/
def pieces (p : Path) : List String :=
  match p.anchor, p.names with
  | .here, ns => ns
  | _, [] => ["", ""]
  | _, ns => "" :: ns

theorem Plain.cons_text (hp : p.Plain) : '/' :: p.text.toList = slashed p.pieces := by
  obtain ⟨anchor, names⟩ := p
  cases anchor with
  | here =>
    cases names with
    | nil => exact absurd rfl hp.named
    | cons n ns =>
      rw [pieces, ← cons_intercalate]
      simp [text, Anchor.text]
  | root =>
    cases names with
    | nil => rfl
    | cons n ns =>
      rw [pieces, slashed_cons, ← cons_intercalate]
      simp [text, Anchor.text]
  | doubleRoot => exact absurd rfl hp.single

theorem Plain.not_mem (hp : p.Plain) : "" ∉ p.names ∧ "/" ∉ p.names :=
  ⟨fun h => (hp.normal _ h).1 rfl, fun h => (hp.normal _ h).2.2 (by decide)⟩

/-- A list ends with one that begins with something it does not hold only if it is that one. -/
theorem suffix_cons_of_not_mem {x : String} (hx : x ∉ ns) : ns <:+ x :: ms ↔ ns <:+ ms := by
  rw [List.suffix_cons_iff, or_iff_right]
  rintro rfl
  exact hx List.mem_cons_self

theorem not_cons_suffix {x : String} (hx : x ∉ ns) : ¬ x :: ms <:+ ns :=
  fun h => hx (h.subset List.mem_cons_self)

theorem Plain.pieces_suffix_iff (hp : p.Plain) (hq : q.Plain) : p.pieces <:+ q.pieces ↔ p.components <:+ q.components := by
  obtain ⟨a, ns⟩ := p
  obtain ⟨b, ms⟩ := q
  obtain ⟨hns, hns'⟩ := hp.not_mem
  obtain ⟨hms, hms'⟩ := hq.not_mem
  simp only at hns hns' hms hms'
  cases a with
  | doubleRoot => exact absurd rfl hp.single
  | here =>
    cases b with
    | doubleRoot => exact absurd rfl hq.single
    | here => rfl
    | root =>
      cases ms <;> simp [pieces, components, Anchor.text, suffix_cons_of_not_mem, hns, hns']
  | root =>
    cases b with
    | doubleRoot => exact absurd rfl hq.single
    | here => cases ns <;> simp [pieces, components, Anchor.text, not_cons_suffix, hms, hms']
    | root =>
      -- both begin at the root, so that one ends with the other only if it is the other
      have hroot {x : String} (hx : x ∉ ms) : x :: ns <:+ x :: ms ↔ ns = ms := by
        rw [List.suffix_cons_iff, or_iff_left (not_cons_suffix hx), List.cons.injEq, eq_self_iff_true, true_and]
      cases ns with
      | nil =>
        cases ms with
        | nil => simp [pieces, components]
        | cons m ms =>
          have hlast : ¬ ["", ""] <:+ "" :: m :: ms := by
            rw [List.suffix_cons_iff, or_iff_left (not_cons_suffix hms)]
            rintro ⟨⟩
            exact hms List.mem_cons_self
          simp only [pieces, components, Anchor.text, hlast, hroot hms', reduceCtorEq]
      | cons n ns =>
        cases ms with
        | nil =>
          have hfirst : ¬ "" :: n :: ns <:+ ["", ""] := by
            intro h
            obtain rfl : n = "" := by simpa using h.subset (by simp : n ∈ "" :: n :: ns)
            exact hns List.mem_cons_self
          simp only [pieces, components, Anchor.text, hfirst, hroot hms', reduceCtorEq]
        | cons m ms => simp only [pieces, components, Anchor.text, hroot hms, hroot hms']

/-! ## Paths that may mean the same file -/

theorem sameFile_iff_text :
    sameFile p q = true ↔
      '/' :: p.text.toList <:+ '/' :: q.text.toList ∨ '/' :: q.text.toList <:+ '/' :: p.text.toList := by
  unfold sameFile
  simp only [Bool.or_eq_true, beq_iff_eq, List.isSuffixOf_iff_suffix, List.suffix_cons_iff, List.cons.injEq, true_and]
  constructor
  · rintro ((h | h) | h)
    · exact .inl (.inl h)
    · exact .inr (.inr h)
    · exact .inl (.inr h)
  · rintro ((h | h) | h | h)
    · exact .inl (.inl h)
    · exact .inr h
    · exact .inl (.inl h.symm)
    · exact .inl (.inr h)

theorem sameFile_comm (p q : Path) : sameFile p q = sameFile q p := by
  rw [Bool.eq_iff_iff, sameFile_iff_text, sameFile_iff_text]
  exact or_comm

theorem Plain.slash_not_mem_pieces (hp : p.Plain) : ∀ n ∈ p.pieces, '/' ∉ n.toList := by
  have hnames : ∀ n ∈ p.names, '/' ∉ n.toList := fun n hn => (hp.normal n hn).2.2
  obtain ⟨a, ns⟩ := p
  cases a with
  | here => exact hnames
  | root =>
    cases ns with
    | nil => simp [pieces]
    | cons n ns => simpa [pieces] using hnames
  | doubleRoot => exact absurd rfl hp.single

/-- Two paths may mean the same file exactly if the parts of one are the last parts of the other. -/
theorem Plain.sameFile_iff (hp : p.Plain) (hq : q.Plain) :
    sameFile p q = true ↔ p.components <:+ q.components ∨ q.components <:+ p.components := by
  rw [sameFile_iff_text, hp.cons_text, hq.cons_text,
    slashed_suffix_iff hp.slash_not_mem_pieces hq.slash_not_mem_pieces,
    slashed_suffix_iff hq.slash_not_mem_pieces hp.slash_not_mem_pieces, hp.pieces_suffix_iff hq, hq.pieces_suffix_iff hp]

end FixGate.Path
