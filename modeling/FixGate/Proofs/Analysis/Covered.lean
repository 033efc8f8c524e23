import FixGate.Proofs.Analysis.Scan
import FixGate.Proofs.Text.Within
import Mathlib.Data.List.TakeWhile

/-!
# The sources that a scan covers

A scan of a directory covers the sources below it that no exclusion leaves out. An exclusion is meant to name a
directory, with a slash behind the name, and to leave out what lies in directories of that name. It is looked for in
the whole path from the scanned directory. So it leaves out every source on whose path it stands in a name, be it a
part of the name, and be it the name of the file.

* `exclusions`, `directories` : exclusions that are texts, and those that name directories
* `exists_sourceFiles` : with such exclusions, the files of a scan can be listed
* `SourceBelow` : a source below a directory
* `Spared` : names in which no excluded name stands
* `sources_covered_iff` : the sources that are covered, and when these are the ones that are meant
-/

namespace FixGate

open Act

variable {d : Disk} {path dir file : Path} {l : Location} {e : Entry} {names patterns excluded : List String}

/-! ## Places below a directory -/

theorem FileTree.mem_below_iff {t : FileTree} :
    (names, e) ∈ t.below l ↔ names ≠ [] ∧ (l ++ names, e) ∈ t.entries := by
  simp only [below, List.mem_filterMap, Option.ite_none_right_eq_some, Bool.and_eq_true, List.isPrefixOf_iff_prefix,
    decide_eq_true_eq, Option.some.injEq, Prod.mk.injEq]
  constructor
  · rintro ⟨⟨k, e'⟩, hk, ⟨⟨rest, rfl⟩, hlt⟩, rfl, rfl⟩
    rw [List.drop_left]
    refine ⟨?_, hk⟩
    rintro rfl
    simp at hlt
  · rintro ⟨hne, hk⟩
    have hpos := List.length_pos_iff.2 hne
    refine ⟨(l ++ names, e), hk, ⟨List.prefix_append _ _, ?_⟩, List.drop_left, rfl⟩
    rw [List.length_append]
    omega

/-- The path that leads from a directory along names. -/
def Path.along (dir : Path) (names : List String) : Path :=
  { dir with names := dir.names ++ names }

theorem Path.along_inj {names names' : List String} : dir.along names = dir.along names' ↔ names = names' := by
  simp [Path.along]

/-! ## Exclusions -/

/-- Exclusions that are texts. -/
def exclusions (patterns : List String) : Value :=
  .list (patterns.map .text)

/-- Exclusions that name directories, each with a slash behind the name. -/
def directories (excluded : List String) : Value :=
  exclusions (excluded.map (· ++ "/"))

/-- One of some texts leaves out a path: it stands in it, slashes at its end apart. -/
def leavesOut (patterns : List String) (relative : String) : Bool :=
  patterns.any fun p => Text.contains relative (Text.trimEnd '/' p)

theorem excludedBy_texts (relative : String) (patterns : List String) :
    excludedBy relative (patterns.map .text) = .ok (leavesOut patterns relative) := by
  induction patterns with
  | nil => rfl
  | cons p patterns ih =>
    have hfirst : excludes (.text p) relative = .ok (Text.contains relative (Text.trimEnd '/' p)) := rfl
    have hsplit : leavesOut (p :: patterns) relative =
        (Text.contains relative (Text.trimEnd '/' p) || leavesOut patterns relative) := List.any_cons
    rw [List.map_cons, excludedBy, hfirst, hsplit]
    simp only [bind, Except.bind]
    cases Text.contains relative (Text.trimEnd '/' p) with
    | true => rfl
    | false => exact ih

/-- The source at a place below a directory, unless it is left out. -/
def source? (patterns : List String) (dir : Path) : List String × Entry → Option Path
  | (_, .dir) => none
  | (names, .file _) =>
    if Language.ofPath (dir.along names) == .unknown || leavesOut patterns ("/".intercalate names) then none
    else some (dir.along names)

theorem keptSources_texts (patterns : List String) (dir : Path) (places : List (List String × Entry)) :
    keptSources (exclusions patterns) dir places = .ok (places.filterMap (source? patterns dir)) := by
  induction places with
  | nil => rfl
  | cons x places ih =>
    obtain ⟨names, e⟩ := x
    unfold keptSources
    rw [ih, List.filterMap_cons]
    cases e with
    | dir => rfl
    | file bytes =>
      have hentries : (exclusions patterns).elements = .ok (patterns.map .text) := rfl
      rw [source?, hentries]
      change (if (Language.ofPath (dir.along names) == .unknown) = true then _ else _) = _
      cases Language.ofPath (dir.along names) == .unknown with
      | true => rfl
      | false =>
        simp only [bind, Except.bind, excludedBy_texts]
        cases leavesOut patterns ("/".intercalate names) <;> rfl

theorem source?_eq_some_iff {x : List String × Entry} :
    source? patterns dir x = some file ↔ (∃ bytes, x.2 = .file bytes) ∧ file = dir.along x.1 ∧
      Language.ofPath (dir.along x.1) ≠ .unknown ∧ leavesOut patterns ("/".intercalate x.1) = false := by
  obtain ⟨names, e⟩ := x
  cases e with
  | dir => simp [source?]
  | file bytes =>
    rw [source?, Option.ite_none_left_eq_some, Bool.or_eq_true, not_or, beq_iff_eq, Bool.not_eq_true, Option.some.injEq]
    constructor
    · rintro ⟨⟨known, kept⟩, rfl⟩
      exact ⟨⟨bytes, rfl⟩, rfl, known, kept⟩
    · rintro ⟨-, rfl, known, kept⟩
      exact ⟨⟨known, kept⟩, rfl⟩

/-! ## The files of a scan -/

/-- With exclusions that are texts, the files of a scan can be listed wherever its path can be asked about. -/
theorem exists_sourceFiles (askable : ∀ f, d.locate path = .error f → f.meansNothing = true) (patterns : List String) :
    ∃ files, sourceFiles d path (exclusions patterns) = .ok files := by
  unfold sourceFiles
  split
  · exact ⟨_, rfl⟩
  · rw [keptSources_texts]
    exact ⟨_, rfl⟩
  · next f hf => exact ⟨[], if_pos (askable f hf)⟩

/-- Names lead from a directory to a source: a file whose language is known. -/
structure SourceBelow (d : Disk) (dir : Path) (l : Location) (names : List String) : Prop where
  below : names ≠ []
  stands : ∃ bytes, (l ++ names, .file bytes) ∈ d.tree.entries
  known : Language.ofPath (dir.along names) ≠ .unknown

/-- The files of a scan of a directory are the sources below it that no exclusion leaves out. -/
theorem exists_sourceFiles_of_dir (hdir : d.locate path = .ok (l, .dir)) (patterns : List String) :
    ∃ files, sourceFiles d path (exclusions patterns) = .ok files ∧
      ∀ file, file ∈ files ↔ ∃ names, SourceBelow d path l names ∧ file = path.along names ∧
        leavesOut patterns ("/".intercalate names) = false := by
  unfold sourceFiles
  rw [hdir]
  simp only [keptSources_texts]
  refine ⟨_, rfl, fun file => ?_⟩
  rw [List.mem_mergeSort, List.mem_filterMap]
  constructor
  · rintro ⟨⟨names, e⟩, hplace, hsource⟩
    obtain ⟨⟨bytes, rfl⟩, rfl, known, kept⟩ := source?_eq_some_iff.1 hsource
    obtain ⟨below, stands⟩ := FileTree.mem_below_iff.1 hplace
    exact ⟨names, ⟨below, ⟨bytes, stands⟩, known⟩, rfl, kept⟩
  · rintro ⟨names, ⟨below, ⟨bytes, stands⟩, known⟩, rfl, kept⟩
    exact ⟨(names, .file bytes), FileTree.mem_below_iff.2 ⟨below, stands⟩,
      source?_eq_some_iff.2 ⟨⟨bytes, rfl⟩, rfl, known, kept⟩⟩

/-! ## Excluded directories -/

/-- No excluded name stands in one of the names. -/
def Spared (excluded names : List String) : Prop :=
  ∀ n ∈ excluded, ∀ part ∈ names, ¬ Within n part

instance (excluded names : List String) : Decidable (Spared excluded names) :=
  inferInstanceAs (Decidable (∀ n ∈ excluded, ∀ part ∈ names, ¬ Within n part))

theorem trimEnd_append_slash {n : String} (plain : '/' ∉ n.toList) : Text.trimEnd '/' (n ++ "/") = n := by
  have hslash : "/".toList = ['/'] := rfl
  have hstop : n.toList.reverse.dropWhile (· == '/') = n.toList.reverse := by
    rw [List.dropWhile_eq_self_iff]
    intro hpos hfirst
    rw [beq_iff_eq] at hfirst
    exact plain (List.mem_reverse.1 (hfirst ▸ List.getElem_mem hpos))
  rw [Text.trimEnd, String.toList_append, hslash, List.reverse_append, List.reverse_singleton, List.singleton_append,
    List.dropWhile_cons_of_pos (by rfl), hstop, List.reverse_reverse, String.ofList_toList]

/-- An excluded name that stands in a path stands in one of its names. -/
theorem leavesOut_directories (plain : ∀ n ∈ excluded, n ≠ "" ∧ '/' ∉ n.toList) (names : List String) :
    leavesOut (excluded.map (· ++ "/")) ("/".intercalate names) = false ↔ Spared excluded names := by
  have hname : ∀ n ∈ excluded, Text.contains ("/".intercalate names) (Text.trimEnd '/' (n ++ "/")) = true ↔
      ∃ part ∈ names, Within n part := by
    intro n hn
    obtain ⟨filled, hslash⟩ := plain n hn
    rw [trimEnd_append_slash hslash, Text.contains_iff, Within.intercalate_slash_iff filled hslash]
  rw [Bool.eq_false_iff, ne_eq, leavesOut, List.any_map, List.any_eq_true]
  constructor
  · intro h n hn part hpart hin
    exact h ⟨n, hn, (hname n hn).2 ⟨part, hpart, hin⟩⟩
  · rintro h ⟨n, hn, hleft⟩
    obtain ⟨part, hpart, hin⟩ := (hname n hn).1 hleft
    exact h n hn part hpart hin

/-- **The sources that a scan covers.** A scan of a directory asks the analyzers about the sources below it on whose
path no excluded name stands in a name. These are the sources that lie in no directory of an excluded name, exactly if
every source on whose path an excluded name stands in a name lies in such a directory. -/
theorem sources_covered_iff (hdir : d.locate path = .ok (l, .dir))
    (plain : ∀ n ∈ excluded, n ≠ "" ∧ '/' ∉ n.toList) :
    ∃ files, sourceFiles d path (directories excluded) = .ok files ∧
      (∀ file, file ∈ files ↔
        ∃ names, SourceBelow d path l names ∧ file = path.along names ∧ Spared excluded names) ∧
      ((∀ names, SourceBelow d path l names →
          (path.along names ∈ files ↔ ∀ part ∈ names.dropLast, part ∉ excluded)) ↔
        ∀ names, SourceBelow d path l names → ¬ Spared excluded names → ∃ part ∈ names.dropLast, part ∈ excluded) ∧
      ∀ (r : Registry) (h : Host) (s : State), s.disk = d →
        (r.scan path (directories excluded)).outcome h s =
          ((fun is => inOrder (keepFirst [] is)) <$> Registry.ask (r.questions files)).outcome h s := by
  obtain ⟨files, hfiles, hmem⟩ := exists_sourceFiles_of_dir hdir (excluded.map (· ++ "/"))
  simp only [leavesOut_directories plain] at hmem
  have hcovered {names : List String} (source : SourceBelow d path l names) :
      path.along names ∈ files ↔ Spared excluded names := by
    rw [hmem]
    constructor
    · rintro ⟨names', -, heq, spared⟩
      rwa [Path.along_inj.1 heq]
    · exact fun spared => ⟨names, source, rfl, spared⟩
  refine ⟨files, hfiles, hmem, ⟨fun meant names source touched => ?_, fun lies names source => ?_⟩, ?_⟩
  · by_contra outside
    simp only [not_exists, not_and] at outside
    exact touched ((hcovered source).1 ((meant names source).2 outside))
  · rw [hcovered source]
    constructor
    · intro spared part hpart hin
      exact spared part hin part (List.mem_of_mem_dropLast hpart) (.refl part)
    · intro outside
      by_contra touched
      obtain ⟨part, hpart, hin⟩ := lies names source touched
      exact outside part hpart hin
  · rintro r h s rfl
    rw [Registry.outcome_scan, directories, hfiles, outcome_map]
    simp only
    rcases (Registry.ask (r.questions files)).outcome h s with ⟨f | is, u⟩ <;> rfl

/-- A project with a source of its own and one that came from elsewhere. -/
def vendoring : Disk :=
  ⟨⟨[(["main.c"], .file []), (["vendor"], .dir), (["vendor", "lib.c"], .file [])]⟩, []⟩

/-- A source in an excluded directory is not covered, and one beside it is. -/
theorem sources_covered_vendoring :
    ∃ files, sourceFiles vendoring ⟨.here, []⟩ (directories ["vendor"]) = .ok files ∧
      (∀ names, SourceBelow vendoring ⟨.here, []⟩ [] names →
        (Path.along ⟨.here, []⟩ names ∈ files ↔ ∀ part ∈ names.dropLast, part ∉ ["vendor"])) ∧
      ⟨.here, ["main.c"]⟩ ∈ files ∧ ⟨.here, ["vendor", "lib.c"]⟩ ∉ files := by
  have hdir : vendoring.locate ⟨.here, []⟩ = .ok ([], .dir) := rfl
  have plain : ∀ n ∈ ["vendor"], n ≠ "" ∧ '/' ∉ n.toList := by decide
  obtain ⟨files, hfiles, -, hmeant, -⟩ := sources_covered_iff hdir plain
  have meant := hmeant.2 fun names source touched => by
    obtain ⟨bytes, hplace⟩ := source.stands
    have hnames : names = ["main.c"] ∧ bytes = [] ∨ names = ["vendor", "lib.c"] ∧ bytes = [] := by
      simpa [vendoring] using hplace
    rcases hnames with ⟨rfl, -⟩ | ⟨rfl, -⟩
    · exact absurd (by decide +kernel) touched
    · decide
  refine ⟨files, hfiles, meant, ?_, fun hlib => ?_⟩
  · exact (meant ["main.c"] ⟨by decide, ⟨[], by decide⟩, by decide +kernel⟩).2 (by decide)
  · exact absurd ((meant ["vendor", "lib.c"] ⟨by decide, ⟨[], by decide⟩, by decide +kernel⟩).1 hlib) (by decide)

/-- A project with a source in whose name `build` stands. -/
def rebuilding : Disk :=
  ⟨⟨[(["rebuild.c"], .file (Text.Utf8.encode "strcpy(d, s);\n"))]⟩, []⟩

/-- A source that lies in no directory at all is not covered where a directory `build` is excluded. -/
theorem not_covered_rebuild :
    SourceBelow rebuilding ⟨.here, []⟩ [] ["rebuild.c"] ∧ (∀ part ∈ ["rebuild.c"].dropLast, part ∉ ["build"]) ∧
      sourceFiles rebuilding ⟨.here, []⟩ (directories ["build"]) = .ok [] := by
  refine ⟨⟨by decide, ⟨_, List.mem_cons_self⟩, by decide +kernel⟩, by decide, ?_⟩
  have hkept : (rebuilding.tree.below []).filterMap (source? ["build/"] ⟨.here, []⟩) = [] := by decide +kernel
  have hplaces : keptSources (directories ["build"]) ⟨.here, []⟩ (rebuilding.tree.below []) = .ok [] :=
    (keptSources_texts ["build/"] _ _).trans (congrArg Except.ok hkept)
  have hdir : rebuilding.locate ⟨.here, []⟩ = .ok ([], .dir) := rfl
  unfold sourceFiles
  rw [hdir]
  simp only
  rw [hplaces]
  exact congrArg Except.ok List.mergeSort_nil

end FixGate
