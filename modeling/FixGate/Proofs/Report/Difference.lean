import FixGate.Proofs.Source.Splice
import FixGate.Proofs.Text.Breaks
import FixGate.Report.Printing

/-!
# How a difference is shown

The preview of a change shows its difference, added lines green and removed ones red. The difference is made of lines
that end with a line feed. For the preview it is cut wherever some convention ends a line, so a line with such a
character in it is shown as several, of which only the first has its mark. And the two lines of the header are told from
the others by how they begin, so a line that is removed or added is taken for one of them if it begins with two more
such marks.

* `Diff.closed_unified` : the lines of a difference end with line feeds
* `Source.length_pieces_eq_one_iff` : a line is shown as one exactly if there is no break in it
* `Change.dueLines` : what is to be shown of a difference
* `Change.Disguised` : the lines that are not shown so
* `Change.difference_shown_iff` : what is shown, and when it is what is to be shown
-/

namespace FixGate

/-! ## The lines of a difference -/

namespace Diff

variable {n : Nat} {left right : List (List Char)} {group g : List Step} {ss : List Step}

theorem ne_nil_of_mem_groupsFrom (filled : group ≠ [] ∨ ss ≠ []) (hg : g ∈ groupsFrom n group ss) : g ≠ [] := by
  induction ss generalizing group with
  | nil =>
    simp only [ne_eq, not_true_eq_false, or_false] at filled
    rw [groupsFrom, List.mem_singleton] at hg
    rwa [hg, Ne, List.reverse_eq_nil_iff]
  | cons s ss ih =>
    rw [groupsFrom] at hg
    split_ifs at hg
    · rcases List.mem_cons.1 hg with rfl | hg
      · simp
      · exact ih (.inl (by simp)) hg
    · exact ih (.inl (by simp)) hg

/-- A group holds a step. -/
theorem ne_nil_of_mem_groups (hg : g ∈ groups n ss) : g ≠ [] := by
  have held : g ∈ groupsFrom n [] (trimEnds n ss) := by
    unfold groups at hg
    simp only at hg
    split at hg
    · cases hg
    · split_ifs at hg
      · exact hg
      · exact List.mem_of_mem_dropLast hg
  by_cases htrim : trimEnds n ss = []
  · -- then the only group is the one that was begun, and shows nothing
    unfold groups at hg
    simp [htrim, groupsFrom, showsChange] at hg
  · exact ne_nil_of_mem_groupsFrom (.inr htrim) held

theorem feed_not_mem_toDigits (k : Nat) : '\n' ∉ Nat.toDigits 10 k := by
  intro hfeed
  exact absurd (Nat.isDigit_of_mem_toDigits (by decide) (Nat.le_refl 10) hfeed) (by decide)

theorem feed_not_mem_rangeText (start stop : Nat) : '\n' ∉ (rangeText start stop).toList := by
  unfold rangeText
  simp only
  split_ifs
  · simp [toString, feed_not_mem_toDigits]
  · simp [toString, feed_not_mem_toDigits]
  · simp [toString, feed_not_mem_toDigits]

theorem closed_heading (filled : group ≠ []) : Source.Closed (heading group) := by
  obtain ⟨a, ha⟩ := Option.isSome_iff_exists.1 (List.isSome_head?.2 filled)
  obtain ⟨z, hz⟩ := Option.isSome_iff_exists.1 (List.getLast?_isSome.2 filled)
  have hleft := feed_not_mem_rangeText a.leftFrom z.leftTo
  have hright := feed_not_mem_rangeText a.rightFrom z.rightTo
  refine ⟨(s!"@@ -{rangeText a.leftFrom z.leftTo} +{rangeText a.rightFrom z.rightTo} @@").toList, ?_, ?_⟩
  · simp [toString, hleft, hright]
  · unfold heading
    simp [ha, hz, toString]

theorem closed_of_mem_marked {mark : Char} {l : List Char} {lines : List (List Char)} {start stop : Nat}
    (hmark : mark ≠ '\n') (closed : ∀ l ∈ lines, Source.Closed l) (hl : l ∈ marked mark lines start stop) :
    Source.Closed l := by
  obtain ⟨k, hk, rfl⟩ := List.mem_map.1 hl
  exact (closed k (List.mem_of_mem_take (List.mem_of_mem_drop hk))).cons hmark

/-- The lines of a step are the lines that were compared, each under its mark. -/
theorem closed_of_mem_step {l : List Char} (hleft : ∀ l ∈ left, Source.Closed l)
    (hright : ∀ l ∈ right, Source.Closed l) (s : Step) (hl : l ∈ s.lines left right) : Source.Closed l := by
  unfold Step.lines at hl
  split at hl
  · exact closed_of_mem_marked (by decide) hleft hl
  · exact closed_of_mem_marked (by decide) hleft hl
  · exact closed_of_mem_marked (by decide) hright hl
  · rcases List.mem_append.1 hl with hl | hl
    · exact closed_of_mem_marked (by decide) hleft hl
    · exact closed_of_mem_marked (by decide) hright hl

/-- A difference is empty, or it is the two names and lines that end with a line feed each. -/
theorem closed_unified (leftName rightName : String) (hleft : ∀ l ∈ left, Source.Closed l)
    (hright : ∀ l ∈ right, Source.Closed l) :
    unified n leftName rightName left right = [] ∨
      ∃ body, (∀ l ∈ body, Source.Closed l) ∧ unified n leftName rightName left right =
        ("--- " ++ leftName ++ "\n").toList :: ("+++ " ++ rightName ++ "\n").toList :: body := by
  unfold unified
  split
  · exact .inl rfl
  · refine .inr ⟨_, ?_, rfl⟩
    intro l hl
    obtain ⟨g, hg, hl⟩ := List.mem_flatMap.1 hl
    rcases List.mem_cons.1 hl with rfl | hl
    · exact closed_heading (ne_nil_of_mem_groups hg)
    · obtain ⟨s, -, hl⟩ := List.mem_flatMap.1 hl
      exact closed_of_mem_step hleft hright s hl

end Diff

/-! ## The lines that are cut -/

namespace Source

variable {cs l : List Char}

/-- A text that ends with a line feed is closed lines. -/
theorem closed_of_mem_of_feed (hfeed : cs.getLast? = some '\n') (hl : l ∈ linesOf cs) : Closed l := by
  obtain ⟨ls, rest, closed, feed, rfl, hlines⟩ := exists_cut cs
  have hrest : rest = [] := (flatten_append_ends_iff closed feed).1 (.inr hfeed)
  rw [hlines, if_pos hrest, List.append_nil] at hl
  exact closed l hl

/-- A closed line is its text with one of the two terminators. -/
theorem Closed.eq_bare_append (closed : Closed l) :
    l = bare l ++ ['\r', '\n'] ∨ l = bare l ++ ['\n'] ∧ (bare l).getLast? ≠ some '\r' := by
  obtain ⟨p, -, rfl⟩ := closed
  unfold bare
  rw [dropEnd_concat]
  by_cases hreturn : p.getLast? = some '\r'
  · obtain ⟨q, rfl⟩ := List.getLast?_eq_some_iff.1 hreturn
    rw [dropEnd_concat]
    exact .inl (by simp)
  · rw [dropEnd, if_neg hreturn]
    exact .inr ⟨rfl, hreturn⟩

/-- Without breaks in its text a line stays whole, whatever its terminator. -/
theorem pieces_of_unbroken (closed : Closed l) (unbroken : ∀ c ∈ bare l, Text.isLineBreak c = false) :
    Text.breakLinesFrom l [] = [String.ofList (bare l)] := by
  have hwhole (term : List Char) (hterm : term = ['\n'] ∨ term = ['\r', '\n']) :
      Text.breakLinesFrom (bare l ++ term) [] = [String.ofList (bare l)] := by
    rw [Text.breakLinesFrom_append_of_unbroken unbroken, List.append_nil]
    rcases hterm with rfl | rfl
    · rw [Text.breakLinesFrom_feed, List.reverse_reverse]
      rfl
    · rw [Text.breakLinesFrom, List.reverse_reverse]
      rfl
  rcases closed.eq_bare_append with h | ⟨h, -⟩
  · rw [← hwhole _ (.inr rfl), ← h]
  · rw [← hwhole _ (.inl rfl), ← h]

/-- A break in the text of a line ends a line there, and the terminator ends another. -/
theorem two_le_length_pieces (closed : Closed l) (broken : ∃ c ∈ bare l, Text.isLineBreak c = true) :
    2 ≤ (Text.breakLinesFrom l []).length := by
  have feed : '\n' ∉ bare l := by
    obtain ⟨p, feed, rfl⟩ := closed
    intro hfeed
    unfold bare at hfeed
    rw [dropEnd_concat] at hfeed
    exact feed (mem_of_mem_dropEnd hfeed)
  obtain ⟨b, hb⟩ := Option.isSome_iff_exists.1 (List.find?_isSome.2 broken)
  obtain ⟨hbreak, before, rest, hsplit, first⟩ := List.find?_eq_some_iff_append.1 hb
  have unbroken : ∀ c ∈ before, Text.isLineBreak c = false := fun c hc => by simpa using first c hc
  rw [hsplit] at feed
  have cut (term : List Char) (filled : term ≠ []) (alone : b = '\r' → (rest ++ term).head? ≠ some '\n') :
      2 ≤ (Text.breakLinesFrom (bare l ++ term) []).length := by
    have hpos := Text.length_breakLinesFrom_pos (List.append_ne_nil_of_right_ne_nil rest filled) []
    rw [hsplit, List.append_assoc, List.cons_append, Text.breakLinesFrom_append_of_unbroken unbroken,
      Text.breakLinesFrom_break hbreak alone, List.length_cons]
    omega
  have head (d : Char) (hd : rest.head? = some d) : d ≠ '\n' := by
    rintro rfl
    exact feed (by simp [List.mem_of_head? hd])
  rcases closed.eq_bare_append with h | ⟨h, hlast⟩
  · rw [h]
    refine cut _ (by simp) fun _ => ?_
    cases rest with
    | nil => decide
    | cons d rest => simpa using head d rfl
  · rw [h]
    refine cut _ (by simp) fun hreturn => ?_
    cases rest with
    | nil =>
      -- a carriage return at the end would belong to the terminator
      rw [hsplit, hreturn] at hlast
      exact absurd List.getLast?_concat hlast
    | cons d rest => simpa using head d rfl

/-- Lines that end with line feeds are cut one by one. -/
theorem breakLinesFrom_flatten {ls : List (List Char)} (closed : ∀ l ∈ ls, Closed l) :
    Text.breakLinesFrom ls.flatten [] = ls.flatMap fun l => Text.breakLinesFrom l [] := by
  induction ls with
  | nil => rfl
  | cons l ls ih =>
    obtain ⟨p, -, rfl⟩ := closed l List.mem_cons_self
    rw [List.flatten_cons, Text.breakLinesFrom_feed_append, List.flatMap_cons,
      ih fun k hk => closed k (List.mem_cons_of_mem _ hk)]

/-- A line is shown as one line exactly if there is no break in its text. -/
theorem length_pieces_eq_one_iff (closed : Closed l) :
    (Text.breakLinesFrom l []).length = 1 ↔ ∀ c ∈ bare l, Text.isLineBreak c = false := by
  constructor
  · intro hone c hc
    by_contra hbreak
    have htwo := two_le_length_pieces closed ⟨c, hc, by simpa using hbreak⟩
    omega
  · intro unbroken
    rw [pieces_of_unbroken closed unbroken, List.length_singleton]

end Source

/-! ## What is shown -/

/-- How a line of the header is to be shown: as it is. -/
def plainLine (text : String) : String :=
  "  " ++ Markup.escape text

/-- How any other line of a difference is to be shown: in the colour of its mark. -/
def dueLine (text : String) : String :=
  match text.toList.head? with
  | some '-' => "  [red]" ++ Markup.escape text ++ "[/red]"
  | some '+' => "  [green]" ++ Markup.escape text ++ "[/green]"
  | _ => plainLine text

/-- A line that begins like a name of the header. -/
def LikeHeader (text : List Char) : Prop :=
  ['-', '-', '-'] <+: text ∨ ['+', '+', '+'] <+: text

/-- A line that begins with a mark, and not like a name of the header. -/
def Marked (text : List Char) : Prop :=
  (text.head? = some '-' ∨ text.head? = some '+') ∧ ¬ LikeHeader text

instance (text : List Char) : Decidable (LikeHeader text) :=
  inferInstanceAs (Decidable (_ ∨ _))

/-- The colour of a mark makes a line longer. -/
theorem dueLine_eq_plainLine_iff (text : List Char) : dueLine (String.ofList text) = plainLine (String.ofList text) ↔
    ¬ (text.head? = some '-' ∨ text.head? = some '+') := by
  have longer (before after shown : String) (h : 2 < before.length) : before ++ shown ++ after ≠ "  " ++ shown := by
    intro heq
    have hlength := congrArg String.length heq
    have htwo : "  ".length = 2 := rfl
    simp only [String.length_append, htwo] at hlength
    omega
  unfold dueLine plainLine
  rw [String.toList_ofList]
  split
  · next h => exact iff_of_false (longer _ _ _ (by decide)) (by simp [h])
  · next h => exact iff_of_false (longer _ _ _ (by decide)) (by simp [h])
  · next hminus hplus => exact iff_of_true rfl (not_or.2 ⟨hminus, hplus⟩)

/-- A line is coloured by its mark unless it begins like a name of the header. -/
theorem differenceLine_eq (text : List Char) : differenceLine (String.ofList text) =
    if LikeHeader text then plainLine (String.ofList text) else dueLine (String.ofList text) := by
  have minus : "-".toList = ['-'] := rfl
  have plus : "+".toList = ['+'] := rfl
  have minuses : "---".toList = ['-', '-', '-'] := rfl
  have pluses : "+++".toList = ['+', '+', '+'] := rfl
  unfold differenceLine dueLine plainLine LikeHeader Text.startsWith
  simp only [String.toList_ofList, minus, plus, minuses, pluses, ← List.isPrefixOf_iff_prefix]
  cases text with
  | nil => rfl
  | cons c cs =>
    by_cases hminus : c = '-'
    · subst hminus
      by_cases h : ['-', '-'].isPrefixOf cs = true
      · simp [List.isPrefixOf, h]
      · simp [List.isPrefixOf, h]
    · by_cases hplus : c = '+'
      · subst hplus
        by_cases h : ['+', '+'].isPrefixOf cs = true
        · simp [List.isPrefixOf, h]
        · simp [List.isPrefixOf, h]
      · simp [List.isPrefixOf, hminus, hplus, Ne.symm hminus, Ne.symm hplus]

theorem head?_of_likeHeader {text : List Char} (like : LikeHeader text) :
    text.head? = some '-' ∨ text.head? = some '+' := by
  rcases like with ⟨rest, rfl⟩ | ⟨rest, rfl⟩
  · exact .inl rfl
  · exact .inr rfl

theorem differenceLine_eq_dueLine_iff (text : List Char) :
    differenceLine (String.ofList text) = dueLine (String.ofList text) ↔ ¬ LikeHeader text := by
  rw [differenceLine_eq]
  by_cases like : LikeHeader text
  · rw [if_pos like, eq_comm, dueLine_eq_plainLine_iff]
    simp only [head?_of_likeHeader like, like]
  · rw [if_neg like]
    exact iff_of_true rfl like

theorem differenceLine_eq_plainLine_iff (text : List Char) :
    differenceLine (String.ofList text) = plainLine (String.ofList text) ↔ ¬ Marked text := by
  rw [differenceLine_eq, Marked]
  by_cases like : LikeHeader text
  · rw [if_pos like]
    exact iff_of_true rfl fun h => h.2 like
  · rw [if_neg like, dueLine_eq_plainLine_iff, and_iff_left like]

/-! ## Lines that are shown one by one -/

variable {α β : Type} {f : α → List β} {g : α → β} {ls : List α} {xs ys : List β}

theorem length_le_length_flatMap (pos : ∀ l ∈ ls, 1 ≤ (f l).length) : ls.length ≤ (ls.flatMap f).length := by
  induction ls with
  | nil => exact Nat.zero_le _
  | cons l ls ih =>
    have hfirst := pos l List.mem_cons_self
    have hlater := ih fun k hk => pos k (List.mem_cons_of_mem _ hk)
    rw [List.flatMap_cons, List.length_append, List.length_cons]
    omega

/-- Where every line gives one or more, the result is one for each only if every line gives the one that is due. -/
theorem flatMap_append_eq_iff (pos : ∀ l ∈ ls, 1 ≤ (f l).length) (long : ys.length ≤ xs.length) :
    ls.flatMap f ++ xs = ls.map g ++ ys ↔ (∀ l ∈ ls, f l = [g l]) ∧ xs = ys := by
  induction ls with
  | nil => simp
  | cons l ls ih =>
    have later : ∀ k ∈ ls, 1 ≤ (f k).length := fun k hk => pos k (List.mem_cons_of_mem _ hk)
    have hlong := length_le_length_flatMap later
    rw [List.flatMap_cons, List.map_cons, List.append_assoc, List.forall_mem_cons, and_assoc, ← ih later]
    constructor
    · intro h
      have hlength := congrArg List.length h
      have hone : (f l).length = 1 := by
        have hfirst := pos l List.mem_cons_self
        simp only [List.length_append, List.length_cons, List.length_map] at hlength
        omega
      obtain ⟨x, hx⟩ := List.length_eq_one_iff.1 hone
      rw [hx, List.singleton_append, List.cons_append] at h
      obtain ⟨rfl, hrest⟩ := List.cons.inj h
      exact ⟨hx, hrest⟩
    · rintro ⟨hfirst, hrest⟩
      rw [hfirst, hrest]
      rfl

theorem flatMap_eq_map_iff (pos : ∀ l ∈ ls, 1 ≤ (f l).length) : ls.flatMap f = ls.map g ↔ ∀ l ∈ ls, f l = [g l] := by
  have long : ([] : List β).length ≤ ([] : List β).length := Nat.le_refl _
  have h := flatMap_append_eq_iff (g := g) pos long
  rwa [List.append_nil, List.append_nil, and_iff_left rfl] at h

/-! ## The difference of a change -/

namespace Change

variable {l : List Char}

/-- The lines of the two names at the head of a difference. -/
def headerLines (c : Change) : List (List Char) :=
  (c.differenceLines.take 2).flatMap Source.linesOf

/-- The lines of a difference after the two names. -/
def bodyLines (c : Change) : List (List Char) :=
  c.differenceLines.drop 2

/-- What is to be shown of a difference: each of its lines in its place, those after the names in their colours. -/
def dueLines (c : Change) : List String :=
  (c.headerLines.map fun l => plainLine (String.ofList (Source.bare l))) ++
    c.bodyLines.map fun l => dueLine (String.ofList (Source.bare l))

/-- What is shown of a difference. -/
def shownLines (c : Change) : List String :=
  (Text.breakLines c.difference).map differenceLine

/-- A line of a difference that is not shown as it is to be. -/
inductive Disguised (c : Change) : Prop
  /-- A line that is cut where some convention ends a line. -/
  | broken {l : List Char} {b : Char} : l ∈ c.headerLines ++ c.bodyLines → b ∈ Source.bare l →
      Text.isLineBreak b = true → Disguised c
  /-- A line that was removed or added, and begins with two more such marks. -/
  | likeHeader {l : List Char} : l ∈ c.bodyLines → LikeHeader (Source.bare l) → Disguised c
  /-- A line of a name that is taken for one that was removed or added. -/
  | marked {l : List Char} : l ∈ c.headerLines → Marked (Source.bare l) → Disguised c

theorem getLast?_withFeed (cs : List Char) : (withFeed cs).getLast? = some '\n' := by
  unfold withFeed Source.terminated
  split_ifs with h
  · exact beq_iff_eq.1 h
  · exact List.getLast?_concat

/-- The lines of a difference, and the two names before them. -/
theorem differenceLines_cases (c : Change) : c.differenceLines = [] ∨
    ∃ body, (∀ l ∈ body, Source.Closed l) ∧ c.differenceLines =
      ("--- " ++ ("a/" ++ c.file.text) ++ "\n").toList :: ("+++ " ++ ("b/" ++ c.file.text) ++ "\n").toList :: body :=
  Diff.closed_unified _ _ (fun _ hl => Source.closed_of_mem_of_feed (getLast?_withFeed _) hl)
    fun _ hl => Source.closed_of_mem_of_feed (getLast?_withFeed _) hl

theorem closed_of_mem_lines (c : Change) (hl : l ∈ c.headerLines ++ c.bodyLines) : Source.Closed l := by
  unfold headerLines bodyLines at hl
  rcases c.differenceLines_cases with h | ⟨body, closed, h⟩
  · simp [h] at hl
  · rw [h, List.mem_append] at hl
    rcases hl with hl | hl
    · obtain ⟨name, hname, hl⟩ := List.mem_flatMap.1 hl
      have feed (s : String) : (s ++ "\n").toList.getLast? = some '\n' := by
        rw [String.toList_append]
        exact List.getLast?_concat
      refine Source.closed_of_mem_of_feed ?_ hl
      simp only [List.take_succ_cons, List.take_zero, List.mem_cons, List.not_mem_nil, or_false] at hname
      rcases hname with rfl | rfl
      · exact feed _
      · exact feed _
    · exact closed l hl

/-- The lines of a difference are those of the two names, and the others. -/
theorem linesOf_difference (c : Change) : Source.linesOf c.difference.toList = c.headerLines ++ c.bodyLines := by
  have hflat : c.difference.toList = (c.headerLines ++ c.bodyLines).flatten := by
    have hnames : (c.headerLines).flatten = (c.differenceLines.take 2).flatten := by
      unfold headerLines
      induction c.differenceLines.take 2 with
      | nil => rfl
      | cons name names ih => rw [List.flatMap_cons, List.flatten_append, Source.flatten_linesOf, ih, List.flatten_cons]
    rw [List.flatten_append, hnames, bodyLines, ← List.flatten_append, List.take_append_drop, difference,
      String.toList_ofList]
  have hlines := Source.linesOf_flatten_append (fun l hl => c.closed_of_mem_lines hl) []
  rw [List.append_nil] at hlines
  rw [hflat, hlines]
  exact List.append_nil _

/-- Names without line feeds make a line each. -/
theorem headerLines_of_plain (c : Change) (plain : '\n' ∉ c.file.text.toList) :
    c.headerLines = c.differenceLines.take 2 := by
  have name (start : String) (hstart : '\n' ∉ start.toList) :
      Source.linesOf (start ++ c.file.text ++ "\n").toList = [(start ++ c.file.text ++ "\n").toList] := by
    have feed : "\n".toList = ['\n'] := rfl
    have closed : Source.Closed (start ++ c.file.text ++ "\n").toList := by
      refine ⟨(start ++ c.file.text).toList, ?_, by rw [String.toList_append, feed]⟩
      rw [String.toList_append, List.mem_append, not_or]
      exact ⟨hstart, plain⟩
    have hlines := Source.linesOf_closed_append closed []
    rwa [List.append_nil] at hlines
  unfold headerLines
  rcases c.differenceLines_cases with h | ⟨body, -, h⟩
  · rw [h]
    rfl
  · have hleft := name "--- a/" (by decide)
    have hright := name "+++ b/" (by decide)
    rw [h, List.take_succ_cons, List.take_succ_cons, List.take_zero, List.flatMap_cons, List.flatMap_cons,
      List.flatMap_nil, ← String.append_assoc, ← String.append_assoc]
    show Source.linesOf ("--- a/" ++ c.file.text ++ "\n").toList ++
      (Source.linesOf ("+++ b/" ++ c.file.text ++ "\n").toList ++ []) = _
    rw [hleft, hright]
    rfl

/-- Each line of a difference is cut by itself. -/
theorem shownLines_eq (c : Change) : c.shownLines =
    (Source.linesOf c.difference.toList).flatMap fun l => (Text.breakLinesFrom l []).map differenceLine := by
  have closed : ∀ l ∈ Source.linesOf c.difference.toList, Source.Closed l := by
    intro l hl
    rw [linesOf_difference] at hl
    exact c.closed_of_mem_lines hl
  have hcut := Source.breakLinesFrom_flatten closed
  rw [Source.flatten_linesOf] at hcut
  rw [shownLines, Text.breakLines, hcut, List.map_flatMap]

/-- A line is shown as one that is due if it is not cut, and is told as it should be. -/
theorem map_pieces_eq_iff (closed : Source.Closed l) (due : String) :
    (Text.breakLinesFrom l []).map differenceLine = [due] ↔
      (∀ b ∈ Source.bare l, Text.isLineBreak b = false) ∧ differenceLine (String.ofList (Source.bare l)) = due := by
  constructor
  · intro h
    have hone : (Text.breakLinesFrom l []).length = 1 := by
      rw [← List.length_map (f := differenceLine), h, List.length_singleton]
    have unbroken := (Source.length_pieces_eq_one_iff closed).1 hone
    rw [Source.pieces_of_unbroken closed unbroken, List.map_singleton, List.singleton_inj] at h
    exact ⟨unbroken, h⟩
  · rintro ⟨unbroken, rfl⟩
    rw [Source.pieces_of_unbroken closed unbroken, List.map_singleton]

/-- Nothing is disguised if every line is whole and told for what it is. -/
theorem not_disguised_iff (c : Change) : ¬ c.Disguised ↔
    (∀ l ∈ c.headerLines, (∀ b ∈ Source.bare l, Text.isLineBreak b = false) ∧ ¬ Marked (Source.bare l)) ∧
      ∀ l ∈ c.bodyLines, (∀ b ∈ Source.bare l, Text.isLineBreak b = false) ∧ ¬ LikeHeader (Source.bare l) := by
  constructor
  · intro open_
    have whole : ∀ l ∈ c.headerLines ++ c.bodyLines, ∀ b ∈ Source.bare l, Text.isLineBreak b = false := by
      intro l hl b hb
      by_contra hbreak
      exact open_ (.broken hl hb (by simpa using hbreak))
    exact ⟨fun l hl => ⟨whole l (List.mem_append_left _ hl), fun h => open_ (.marked hl h)⟩,
      fun l hl => ⟨whole l (List.mem_append_right _ hl), fun h => open_ (.likeHeader hl h)⟩⟩
  · rintro ⟨header, body⟩ disguised
    cases disguised with
    | broken hl hb hbreak =>
      rcases List.mem_append.1 hl with hl | hl
      · rw [(header _ hl).1 _ hb] at hbreak
        cases hbreak
      · rw [(body _ hl).1 _ hb] at hbreak
        cases hbreak
    | likeHeader hl like => exact (body _ hl).2 like
    | marked hl marked => exact (header _ hl).2 marked

theorem shownLines_eq_dueLines_iff (c : Change) : c.shownLines = c.dueLines ↔ ¬ c.Disguised := by
  have closed := fun l hl => c.closed_of_mem_lines (l := l) hl
  have pos : ∀ l ∈ c.headerLines ++ c.bodyLines,
      1 ≤ ((Text.breakLinesFrom l []).map differenceLine).length := by
    intro l hl
    rw [List.length_map]
    exact Text.length_breakLinesFrom_pos (by obtain ⟨p, -, rfl⟩ := closed l hl; simp) []
  have header := fun l hl => pos l (List.mem_append_left _ hl)
  have body := fun l hl => pos l (List.mem_append_right _ hl)
  have long : (c.bodyLines.map fun l => dueLine (String.ofList (Source.bare l))).length ≤
      (c.bodyLines.flatMap fun l => (Text.breakLinesFrom l []).map differenceLine).length := by
    rw [List.length_map]
    exact length_le_length_flatMap body
  rw [shownLines_eq, linesOf_difference, List.flatMap_append, dueLines, flatMap_append_eq_iff header long,
    flatMap_eq_map_iff body, not_disguised_iff]
  refine and_congr (forall₂_congr fun l hl => ?_) (forall₂_congr fun l hl => ?_)
  · rw [map_pieces_eq_iff (closed l (List.mem_append_left _ hl)), differenceLine_eq_plainLine_iff]
  · rw [map_pieces_eq_iff (closed l (List.mem_append_right _ hl)), differenceLine_eq_dueLine_iff]

/-- A change of one line, as it is made when review and validation have passed. -/
def ofLine (old new : String) : Change :=
  { id := "fix_1", issue := default, file := ⟨.here, ["a.c"]⟩, first := 1, last := 1, oldCode := old, newCode := new,
    plan := ⟨[]⟩, review := .pass "", validation := .pass "" none }

end Change

end FixGate
