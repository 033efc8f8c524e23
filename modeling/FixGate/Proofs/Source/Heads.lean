import FixGate.Proofs.Text.Integer
import FixGate.Source.Signature
import Mathlib.Data.List.DropRight
import Mathlib.Data.List.TakeWhile

/-!
# What the head of a function looks like

The test for the head of a function cuts a line at its first opening and its last closing parenthesis, and looks at
the parts. It accepts exactly the lines that are written as a head is: a type, blanks, stars and ampersands, a name,
blanks, a parameter list without a semicolon, blanks, the word `const` with blanks, and an opening brace, where the
last two may be missing. So it accepts control statements with two words before their parenthesis too.

* `Source.Typed`, `Source.Trailing`, `Source.HeadForm` : how a head is written
* `Source.isSignature_iff` : the test accepts what is written like this, and nothing else
* `Source.leadingName` : the name that a line begins with
* `Source.startsLikeControl_iff` : the lines whose first name begins with the letters of a control word
-/

namespace FixGate.Source

variable {cs line front rest : List Char}

/-! ## Cuts -/

/-- A run ends at the first element that fails the test. -/
theorem takeWhile_append_of_neg {α : Type} {p : α → Bool} {xs ys : List α} {y : α} (hxs : ∀ x ∈ xs, p x = true)
    (hy : p y = false) : (xs ++ y :: ys).takeWhile p = xs := by
  rw [List.takeWhile_append_of_pos hxs, List.takeWhile_cons_of_neg (by simp [hy]), List.append_nil]

theorem dropWhile_append_of_neg {α : Type} {p : α → Bool} {xs ys : List α} {y : α} (hxs : ∀ x ∈ xs, p x = true)
    (hy : p y = false) : (xs ++ y :: ys).dropWhile p = y :: ys := by
  rw [List.dropWhile_append_of_pos hxs, List.dropWhile_cons_of_neg (by simp [hy])]

/-- Where a run leaves something, the list is cut at the first element that fails the test. -/
theorem exists_cut_of_dropWhile {α : Type} {p : α → Bool} {xs ys : List α} {y : α} (h : xs.dropWhile p = y :: ys) :
    xs = xs.takeWhile p ++ y :: ys ∧ p y = false := by
  constructor
  · rw [← h, List.takeWhile_append_dropWhile]
  · have hfirst := List.head?_dropWhile_not p xs
    simpa [h] using hfirst

/-! ## The parts of a head -/

/-- Blanks only. -/
def Blanks (cs : List Char) : Prop :=
  ∀ c ∈ cs, Text.isBlank c = true

/-- A type, blanks, stars and ampersands, and a name. -/
def Typed (cs : List Char) : Prop :=
  ∃ c type gap marks d name, startsName c = true ∧ (∀ x ∈ type, isTypeChar x = true) ∧ gap ≠ [] ∧ Blanks gap ∧
    (∀ x ∈ marks, x = '*' ∨ x = '&') ∧ startsName d = true ∧ (∀ x ∈ name, isNameChar x = true) ∧
    cs = c :: type ++ gap ++ marks ++ d :: name

/-- Blanks, the word `const` with blanks behind it, and an opening brace; the word and the brace may be missing. -/
def Trailing (cs : List Char) : Prop :=
  ∃ gap word brace, Blanks gap ∧ (word = [] ∨ ∃ more, Blanks more ∧ word = "const".toList ++ more) ∧
    (brace = [] ∨ brace = ['\x7b']) ∧ cs = gap ++ word ++ brace

/-- A line as the head of a function is written. -/
def HeadForm (line : List Char) : Prop :=
  ∃ front gap params trailer, Typed front ∧ Blanks gap ∧ ';' ∉ params ∧ Trailing trailer ∧
    line = front ++ gap ++ '(' :: params ++ ')' :: trailer

theorem stripLeftChars_append {gap : List Char} (blanks : Blanks gap) (cs : List Char) :
    Text.stripLeftChars (gap ++ cs) = Text.stripLeftChars cs :=
  List.dropWhile_append_of_pos blanks

theorem isTrailer_iff : isTrailer cs = true ↔ Trailing cs := by
  have stripped_brace {brace : List Char} (hbrace : brace = [] ∨ brace = ['\x7b']) :
      Text.stripLeftChars brace = brace := by
    rcases hbrace with rfl | rfl <;> decide
  constructor
  · intro h
    simp only [isTrailer] at h
    have hgap : cs = cs.takeWhile Text.isBlank ++ Text.stripLeftChars cs := List.takeWhile_append_dropWhile.symm
    have blanks (xs : List Char) : Blanks (xs.takeWhile Text.isBlank) := fun c hc => List.mem_takeWhile_imp hc
    split at h
    · next hword =>
      obtain ⟨more, hmore⟩ := List.isPrefixOf_iff_prefix.1 hword
      rw [← hmore, List.drop_left' (by decide)] at h
      refine ⟨_, "const".toList ++ more.takeWhile Text.isBlank, Text.stripLeftChars more, blanks cs,
        .inr ⟨_, blanks more, rfl⟩, by simpa using h, ?_⟩
      rw [List.append_assoc, List.append_assoc, Text.stripLeftChars, List.takeWhile_append_dropWhile, hmore, ← hgap]
    · refine ⟨_, [], Text.stripLeftChars cs, blanks cs, .inl rfl, by simpa using h, ?_⟩
      rw [List.append_nil, ← hgap]
  · rintro ⟨gap, word, brace, hgap, rfl | ⟨more, hmore, rfl⟩, hbrace, rfl⟩
    · simp only [isTrailer, List.append_nil, stripLeftChars_append hgap, stripped_brace hbrace]
      rcases hbrace with rfl | rfl <;> decide
    · have hword : Text.stripLeftChars ("const".toList ++ more ++ brace) = "const".toList ++ (more ++ brace) := by
        rw [List.append_assoc]
        rfl
      have hprefix : "const".toList.isPrefixOf ("const".toList ++ (more ++ brace)) = true :=
        List.isPrefixOf_iff_prefix.2 (List.prefix_append _ _)
      simp only [isTrailer, List.append_assoc gap, stripLeftChars_append hgap, hword, hprefix, if_true]
      rw [List.drop_left' (by decide), stripLeftChars_append hmore, stripped_brace hbrace]
      simpa using hbrace

/-- The marks and the name behind them are what has no blank. -/
theorem isDeclarator_iff :
    isDeclarator cs = true ↔ ∃ marks d name, (∀ x ∈ marks, x = '*' ∨ x = '&') ∧ startsName d = true ∧
      (∀ x ∈ name, isNameChar x = true) ∧ cs = marks ++ d :: name := by
  unfold isDeclarator
  constructor
  · intro h
    split at h
    · cases h
    · next d name hcut =>
      rw [Bool.and_eq_true, List.all_eq_true] at h
      refine ⟨_, d, name, fun x hx => ?_, h.1, h.2, (exists_cut_of_dropWhile hcut).1⟩
      simpa using List.mem_takeWhile_imp hx
  · rintro ⟨marks, d, name, hmarks, hd, hname, rfl⟩
    have hstop : ¬ (d = '*' ∨ d = '&') := by
      rintro (rfl | rfl) <;> exact absurd hd (by decide)
    have hcut : (marks ++ d :: name).dropWhile (fun c => c == '*' || c == '&') = d :: name :=
      dropWhile_append_of_neg (fun x hx => by simpa using hmarks x hx) (by simpa using hstop)
    rw [hcut]
    simpa [hd] using hname

theorem not_isBlank_of_isNameChar {c : Char} (hc : isNameChar c = true) : Text.isBlank c = false := by
  have none_ : ∀ n ∈ Text.blankPoints, isNameChar (Char.ofNat n) = false := by decide
  rw [Bool.eq_false_iff]
  intro blank
  have := none_ c.toNat (Text.mem_blankPoints_of_isBlank blank)
  rw [Char.ofNat_toNat, hc] at this
  cases this

theorem isNameChar_of_startsName {c : Char} (hc : startsName c = true) : isNameChar c = true := by
  simp only [startsName, Bool.or_eq_true] at hc
  rcases hc with hc | hc <;> simp [isNameChar, Char.isAlphanum, hc]

theorem isTypeChar_of_isBlank {c : Char} (hc : Text.isBlank c = true) : isTypeChar c = true := by
  simp [isTypeChar, hc]

/-- Marks and a name hold no blank. -/
theorem not_isBlank_of_mem_declarator {marks name : List Char} {d x : Char} (hmarks : ∀ x ∈ marks, x = '*' ∨ x = '&')
    (hd : startsName d = true) (hname : ∀ x ∈ name, isNameChar x = true) (hx : x ∈ marks ++ d :: name) :
    Text.isBlank x = false := by
  rcases List.mem_append.1 hx with hx | hx
  · rcases hmarks x hx with rfl | rfl <;> decide
  · rcases List.mem_cons.1 hx with rfl | hx
    · exact not_isBlank_of_isNameChar (isNameChar_of_startsName hd)
    · exact not_isBlank_of_isNameChar (hname x hx)

/-- The name is what follows the last blank. -/
theorem isTypeAndName_iff : isTypeAndName cs = true ↔ Typed cs := by
  have hsplit : cs.rdropWhile (fun c => !Text.isBlank c) ++ cs.rtakeWhile (fun c => !Text.isBlank c) = cs :=
    List.rdropWhile_append_rtakeWhile
  constructor
  · intro h
    unfold isTypeAndName at h
    simp only at h
    split at h
    · cases h
    · next c rest hfront =>
      change cs.rdropWhile _ = _ at hfront
      simp only [Bool.and_eq_true, List.all_eq_true] at h
      obtain ⟨⟨hc, hrest⟩, hlast⟩ := h
      change isDeclarator (cs.rtakeWhile _) = true at hlast
      obtain ⟨marks, d, name, hmarks, hd, hname, hdeclarator⟩ := isDeclarator_iff.1 hlast
      have hend := List.rdropWhile_last_not (fun c => !Text.isBlank c) cs (by rw [hfront]; exact List.cons_ne_nil _ _)
      simp only [hfront] at hend
      rcases List.eq_nil_or_concat rest with rfl | ⟨type, b, rfl⟩
      · rw [List.getLast_singleton, not_isBlank_of_isNameChar (isNameChar_of_startsName hc)] at hend
        exact absurd rfl hend
      · refine ⟨c, type, [b], marks, d, name, hc, fun x hx => hrest x (by simp [hx]), List.cons_ne_nil _ _, ?_, hmarks,
          hd, hname, ?_⟩
        · intro x hx
          rw [List.mem_singleton.1 hx]
          simpa using hend
        · rw [← hsplit, hfront, hdeclarator]
          simp
  · rintro ⟨c, type, gap, marks, d, name, hc, htype, hne, hgap, hmarks, hd, hname, rfl⟩
    obtain ⟨gap, b, rfl⟩ := (List.eq_nil_or_concat gap).resolve_left hne
    have hb : Text.isBlank b = true := hgap b (by simp)
    have hreverse : (c :: type ++ gap.concat b ++ marks ++ d :: name).reverse =
        (marks ++ d :: name).reverse ++ b :: (c :: type ++ gap).reverse := by simp
    have clean : ∀ x ∈ (marks ++ d :: name).reverse, (!Text.isBlank x) = true := fun x hx => by
      rw [not_isBlank_of_mem_declarator hmarks hd hname (List.mem_reverse.1 hx)]
      rfl
    have hlast : isDeclarator (marks ++ d :: name) = true := isDeclarator_iff.2 ⟨marks, d, name, hmarks, hd, hname, rfl⟩
    unfold isTypeAndName
    simp only [hreverse, takeWhile_append_of_neg clean (by rw [hb]; rfl : (!Text.isBlank b) = false),
      dropWhile_append_of_neg clean (by rw [hb]; rfl : (!Text.isBlank b) = false)]
    have hblanks : ∀ x ∈ gap.concat b, isTypeChar x = true := fun x hx => isTypeChar_of_isBlank (hgap x hx)
    simpa [hc, hlast, or_imp, forall_and] using ⟨htype, by simpa [or_imp, forall_and] using hblanks⟩

/-! ## The whole head -/

theorem not_mem_of_trailing (h : Trailing cs) : ')' ∉ cs := by
  obtain ⟨gap, word, brace, hgap, hword, hbrace, rfl⟩ := h
  have clean {xs : List Char} (blanks : Blanks xs) : ')' ∉ xs := fun hx => absurd (blanks _ hx) (by decide)
  have hbrace' : ')' ∉ brace := by rcases hbrace with rfl | rfl <;> decide
  have hword' : ')' ∉ word := by
    rcases hword with rfl | ⟨more, hmore, rfl⟩
    · decide
    · rw [List.mem_append, not_or]
      exact ⟨by decide, clean hmore⟩
  simp [clean hgap, hword', hbrace']

theorem not_mem_of_typed (h : Typed cs) : '(' ∉ cs := by
  obtain ⟨c, type, gap, marks, d, name, hc, htype, -, hgap, hmarks, hd, hname, rfl⟩ := h
  intro hx
  simp only [List.mem_append, List.mem_cons] at hx
  rcases hx with (((rfl | hx) | hx) | hx) | rfl | hx
  · exact absurd hc (by decide)
  · exact absurd (htype _ hx) (by decide)
  · exact absurd (hgap _ hx) (by decide)
  · exact absurd (hmarks _ hx) (by decide)
  · exact absurd hd (by decide)
  · exact absurd (hname _ hx) (by decide)

/-- Neither a type and a name nor the blanks behind them hold a parenthesis. -/
theorem ne_of_mem_typed {gap : List Char} (h : Typed front) (blanks : Blanks gap) :
    ∀ x ∈ front ++ gap, (x != '(') = true := by
  intro x hx
  rw [bne_iff_ne]
  rintro rfl
  rcases List.mem_append.1 hx with hx | hx
  · exact not_mem_of_typed h hx
  · exact absurd (blanks _ hx) (by decide)

/-- A type and a name end with a character of the name. -/
theorem exists_last_of_typed (h : Typed cs) : ∃ before x, cs = before ++ [x] ∧ Text.isBlank x = false := by
  obtain ⟨c, type, gap, marks, d, name, -, -, -, -, -, hd, hname, rfl⟩ := h
  rcases List.eq_nil_or_concat name with rfl | ⟨name, x, rfl⟩
  · exact ⟨_, d, rfl, not_isBlank_of_isNameChar (isNameChar_of_startsName hd)⟩
  · exact ⟨c :: type ++ gap ++ marks ++ d :: name, x, by simp, not_isBlank_of_isNameChar (hname x (by simp))⟩

/-- Blanks behind a type and a name are cut off again. -/
theorem stripRightChars_typed {gap : List Char} (h : Typed front) (blanks : Blanks gap) :
    Text.stripRightChars (front ++ gap) = front := by
  obtain ⟨before, x, rfl, hx⟩ := exists_last_of_typed h
  unfold Text.stripRightChars Text.dropRightWhile
  rw [List.reverse_append, List.dropWhile_append_of_pos fun c hc => blanks c (List.mem_reverse.1 hc)]
  exact List.rdropWhile_concat_neg _ _ _ (by simp [hx])

theorem isParameterList_iff :
    isParameterList rest = true ↔ ∃ params trailer, ';' ∉ params ∧ Trailing trailer ∧ rest = params ++ ')' :: trailer := by
  constructor
  · intro h
    unfold isParameterList at h
    split at h
    · cases h
    · next stop inner hcut =>
      rw [Bool.and_eq_true] at h
      obtain ⟨hrest, hstop⟩ := exists_cut_of_dropWhile hcut
      obtain rfl : stop = ')' := by simpa using hstop
      refine ⟨inner.reverse, _, by simpa using h.1, isTrailer_iff.1 h.2, ?_⟩
      have hback := congrArg List.reverse hrest
      simpa using hback
  · rintro ⟨params, trailer, hparams, htrailer, rfl⟩
    have clean : ∀ x ∈ trailer.reverse, (x != ')') = true := by
      intro x hx
      rw [bne_iff_ne]
      rintro rfl
      exact not_mem_of_trailing htrailer (List.mem_reverse.1 hx)
    have hreverse : (params ++ ')' :: trailer).reverse = trailer.reverse ++ ')' :: params.reverse := by simp
    unfold isParameterList
    rw [hreverse, takeWhile_append_of_neg clean (by decide), dropWhile_append_of_neg clean (by decide)]
    simpa [isTrailer_iff.2 htrailer] using hparams

/-- The test accepts the lines that are written as the head of a function is. -/
theorem isSignature_iff : isSignature line = true ↔ HeadForm line := by
  constructor
  · intro h
    unfold isSignature at h
    split at h
    · cases h
    · next start rest hcut =>
      rw [Bool.and_eq_true] at h
      obtain ⟨hline, hstart⟩ := exists_cut_of_dropWhile hcut
      obtain rfl : start = '(' := by simpa using hstart
      obtain ⟨params, trailer, hparams, htrailer, rfl⟩ := isParameterList_iff.1 h.2
      refine ⟨_, (line.takeWhile (· != '(')).rtakeWhile Text.isBlank, params, trailer, isTypeAndName_iff.1 h.1, ?_,
        hparams, htrailer, ?_⟩
      · exact fun c hc => List.mem_rtakeWhile_imp hc
      · have hfront : Text.stripRightChars (line.takeWhile (· != '(')) ++
            (line.takeWhile (· != '(')).rtakeWhile Text.isBlank = line.takeWhile (· != '(') :=
          List.rdropWhile_append_rtakeWhile
        rw [hfront]
        simpa using hline
  · rintro ⟨front, gap, params, trailer, hfront, hgap, hparams, htrailer, rfl⟩
    have hcut : front ++ gap ++ '(' :: params ++ ')' :: trailer = front ++ gap ++ '(' :: (params ++ ')' :: trailer) := by
      simp
    unfold isSignature
    rw [hcut, takeWhile_append_of_neg (ne_of_mem_typed hfront hgap) (by decide),
      dropWhile_append_of_neg (ne_of_mem_typed hfront hgap) (by decide)]
    simp only [stripRightChars_typed hfront hgap, isTypeAndName_iff.2 hfront, Bool.true_and]
    exact isParameterList_iff.2 ⟨params, trailer, hparams, htrailer, rfl⟩

/-! ## Control words -/

/-- The name that a line begins with: its letters, digits and underscores up to the first other character. -/
def leadingName (line : List Char) : List Char :=
  line.takeWhile fun c => c.isAlphanum || c == '_'

/-- A line starts like a control statement if its first name begins with the letters of a control word. -/
theorem startsLikeControl_iff :
    startsLikeControl line = true ↔ ∃ w ∈ controlWords, w.toList <+: leadingName line := by
  have hall : (controlWords.all fun w => w.toList.all fun c => c.isAlphanum || c == '_') = true := by decide
  have letters : ∀ w ∈ controlWords, ∀ c ∈ w.toList, (c.isAlphanum || c == '_') = true := by
    simpa only [List.all_eq_true] using hall
  unfold startsLikeControl
  rw [List.any_eq_true]
  refine exists_congr fun w => and_congr_right fun hw => ?_
  rw [List.isPrefixOf_iff_prefix]
  constructor
  · rintro ⟨rest, rfl⟩
    unfold leadingName
    rw [List.takeWhile_append_of_pos (letters w hw)]
    exact List.prefix_append _ _
  · exact fun h => h.trans (List.takeWhile_prefix _)

/-- A head begins with a letter or an underscore. -/
theorem exists_first_of_headForm (h : HeadForm line) : ∃ c rest, line = c :: rest ∧ startsName c = true := by
  obtain ⟨_, _, _, _, ⟨c, _, _, _, _, _, hc, -, -, -, -, -, -, rfl⟩, -, -, -, rfl⟩ := h
  exact ⟨c, _, rfl, hc⟩

theorem not_isComment_of_headForm (h : HeadForm line) : isComment line = false := by
  obtain ⟨c, rest, rfl, hc⟩ := exists_first_of_headForm h
  have hslash : c ≠ '/' := by
    rintro rfl
    exact absurd hc (by decide)
  have hstar : c ≠ '*' := by
    rintro rfl
    exact absurd hc (by decide)
  simp [isComment, commentMarks, List.isPrefixOf, Ne.symm hslash, Ne.symm hstar]

/-- Nothing is cut off before a type and a name. -/
theorem stripChars_typed {gap : List Char} (h : Typed front) (blanks : Blanks gap) :
    Text.stripChars (front ++ gap) = front := by
  have hfirst : Text.stripLeftChars (front ++ gap) = front ++ gap := by
    obtain ⟨c, _, _, _, _, _, hc, -, -, -, -, -, -, rfl⟩ := h
    have hblank := not_isBlank_of_isNameChar (isNameChar_of_startsName hc)
    exact List.dropWhile_cons_of_neg (by simp [hblank])
  rw [Text.stripChars, hfirst, stripRightChars_typed h blanks]

/-- A head has two words before its parenthesis, so the text there is no control word. -/
theorem not_isControl_of_headForm (h : HeadForm line) : isControl line = false := by
  obtain ⟨front, gap, params, trailer, hfront, hgap, -, -, rfl⟩ := h
  have hbefore : (front ++ gap ++ '(' :: params ++ ')' :: trailer).takeWhile (· != '(') = front ++ gap := by
    rw [List.append_assoc, List.cons_append,
      takeWhile_append_of_neg (ne_of_mem_typed hfront hgap) (by decide)]
  have hall : (controlWords.all fun w => w.toList.all fun c => !Text.isBlank c) = true := by decide
  have single : ∀ w ∈ controlWords, ∀ c ∈ w.toList, Text.isBlank c = false := by
    simpa only [List.all_eq_true, Bool.not_eq_true'] using hall
  have hblank : ∃ b ∈ front, Text.isBlank b = true := by
    obtain ⟨_, _, between, _, _, _, -, -, hne, hbetween, -, -, -, rfl⟩ := hfront
    obtain ⟨b, more, rfl⟩ := List.exists_cons_of_ne_nil hne
    exact ⟨b, by simp, hbetween b List.mem_cons_self⟩
  obtain ⟨b, hb, blank⟩ := hblank
  unfold isControl
  rw [hbefore, stripChars_typed hfront hgap, Bool.eq_false_iff, ne_eq, List.contains_iff_mem]
  intro hword
  have hwhole := single _ hword b (by simpa using hb)
  rw [blank] at hwhole
  cases hwhole

end FixGate.Source
