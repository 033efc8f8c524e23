import FixGate.Proofs.Dialogue.Blocks
import FixGate.Proofs.Json.Reading
import FixGate.Proofs.Text.Strip

/-!
# Which value of a reply is taken

A reply may hold more than one value of the kind that is looked for. Blocks of data come first: the first block that
is such a value and nothing else. Only if there is none, the value is the first of the text, in the sense of the
grammar: no such value begins at an earlier place. So what a reply quotes in a block replaces what it says itself.

* `Bracketed` : a kind of values that is told by a bracket
* `Holds`, `Begins`, `NoneBefore`, `FirstIn` : a block is a value, a text begins with one, and a value is the first
* `firstFenced_eq_some`, `firstLeading_eq_some` : what the two searches find
* `InBlock`, `Taken`, `table_and_list_taken` : the place that a value comes from, and a verdict
-/

namespace FixGate.Reply

open Json (Spells SpellsPadded)

variable {α : Type} {opener c : Char} {pick : Value → Option α} {x y : α} {block : String} {blocks : List String}
  {cs rest : List Char} {o : Option Value}

/-! ## Values and brackets -/

/-- The values of a kind are those whose texts begin with a bracket. -/
structure Bracketed (opener : Char) (pick : Value → Option α) : Prop where
  bracket : opener = '[' ∨ opener = '\x7b'
  picks : ∀ {v : Value} {w : List Char}, Spells none v w → ((pick v).isSome = true ↔ w.head? = some opener)

theorem Bracketed.not_numeral {w : List Char} (kind : Bracketed opener pick) (hw : w.head? = some opener) :
    ¬ ∃ u b, Json.Numeral b u w := by
  rintro ⟨u, b, number⟩
  obtain ⟨c, cs, rfl, hc⟩ := number.head
  obtain rfl : c = opener := Option.some.inj hw
  rcases kind.bracket with rfl | rfl
  · exact absurd hc (by decide)
  · exact absurd hc (by decide)

theorem bracketed_list : Bracketed '[' list? := by
  refine ⟨.inl rfl, fun {v w} h => ?_⟩
  rcases h.shape with ⟨vs, cs, rfl, rfl⟩ | ⟨fs, cs, rfl, rfl⟩ | ⟨⟨hlist, -⟩, hhead, -⟩
  · simp [list?]
  · simp [list?]
  · exact iff_of_false (by cases v <;> simp_all [list?]) hhead

theorem bracketed_table : Bracketed '\x7b' table? := by
  refine ⟨.inr rfl, fun {v w} h => ?_⟩
  rcases h.shape with ⟨vs, cs, rfl, rfl⟩ | ⟨fs, cs, rfl, rfl⟩ | ⟨⟨-, htable⟩, -, hhead⟩
  · simp [table?]
  · simp [table?]
  · exact iff_of_false (by cases v <;> simp_all [table?]) hhead

/-- A block is a value and nothing else, blanks around it apart. -/
def Holds (pick : Value → Option α) (x : α) (block : String) : Prop :=
  ∃ v, SpellsPadded none v (Text.strip block).toList ∧ pick v = some x

/-- A text begins with a value. -/
def Begins (pick : Value → Option α) (x : α) (cs : List Char) : Prop :=
  ∃ v w rest, cs = w ++ rest ∧ Spells none v w ∧ pick v = some x

/-- No earlier place than one behind a text begins with a value. -/
def NoneBefore (pick : Value → Option α) (before after : List Char) : Prop :=
  ∀ earlier between, before = earlier ++ between → between ≠ [] → ∀ y, ¬ Begins pick y (between ++ after)

/-- A value is the first of its kind in a text: one place begins with it, and no earlier place with any. -/
def FirstIn (pick : Value → Option α) (x : α) (cs : List Char) : Prop :=
  ∃ before after, cs = before ++ after ∧ Begins pick x after ∧ NoneBefore pick before after

/-! ## The search in blocks -/

theorem firstFenced_cons (pick : Value → Option α) (block : String) (blocks : List String) :
    firstFenced pick (block :: blocks) = (Json.whole? (Text.strip block)).bind fun o =>
      match o.bind pick with
      | some x => .ok (some x)
      | none => firstFenced pick blocks :=
  rfl

theorem holds_of_whole? (h : Json.whole? (Text.strip block) = .ok o) (hx : o.bind pick = some x) :
    Holds pick x block := by
  obtain ⟨v, rfl, hv⟩ := Option.bind_eq_some_iff.1 hx
  exact ⟨v, Json.exists_padded_of_whole? h (by simp), hv⟩

theorem not_holds_of_whole? (h : Json.whole? (Text.strip block) = .ok o) (hx : o.bind pick = none) (y : α) :
    ¬ Holds pick y block := by
  rintro ⟨v, hv, hpick⟩
  rcases hv.whole? (by simp) with hwhole | ⟨-, f, hwhole⟩
  · rw [h] at hwhole
    obtain rfl : o = some v := Except.ok.inj hwhole
    rw [Option.bind_some, hpick] at hx
    cases hx
  · rw [h] at hwhole
    cases hwhole

theorem Begins.append (h : Begins pick x cs) (rest : List Char) : Begins pick x (cs ++ rest) := by
  obtain ⟨v, w, tail, rfl, hw, hpick⟩ := h
  exact ⟨v, w, tail ++ rest, List.append_assoc w tail rest, hw, hpick⟩

/-- A block that is a value begins with it behind its first blanks. -/
theorem Holds.place (h : Holds pick x block) :
    ∃ gap inside, block.toList = gap ++ inside ∧ (∀ c ∈ gap, Text.isBlank c = true) ∧ Begins pick x inside := by
  obtain ⟨v, spells, hpick⟩ := h
  obtain ⟨blanks, rest, hcut, hblanks, -⟩ := Text.exists_blanks_around_strip block.toList
  have hstrip : (Text.strip block).toList = Text.stripChars block.toList := String.toList_ofList
  rw [hstrip] at spells
  generalize Text.stripChars block.toList = cs at hcut spells
  cases spells with
  | @padded _ _ gap w gap' spaces value _ =>
    refine ⟨blanks ++ gap, w ++ (gap' ++ rest), by rw [hcut]; simp, ?_, v, w, _, rfl, value, hpick⟩
    intro c hc
    rcases List.mem_append.1 hc with hc | hc
    · exact hblanks c hc
    · exact Json.isBlank_of_isSpace (spaces c hc)

/-- The value found in blocks is that of the first block that is one. -/
theorem firstFenced_eq_some (h : firstFenced pick blocks = .ok (some x)) :
    ∃ before block after, blocks = before ++ block :: after ∧ Holds pick x block ∧
      ∀ b ∈ before, ∀ y, ¬ Holds pick y b := by
  induction blocks with
  | nil => cases h
  | cons block blocks ih =>
    rw [firstFenced_cons] at h
    obtain ⟨o, hwhole, h⟩ := Json.bind_eq_ok h
    split at h
    · next hpick =>
      cases h
      exact ⟨[], block, blocks, rfl, holds_of_whole? hwhole hpick, by simp⟩
    · next hpick =>
      obtain ⟨before, found, after, rfl, holds, none_before⟩ := ih h
      refine ⟨block :: before, found, after, rfl, holds, ?_⟩
      intro b hb
      rcases List.mem_cons.1 hb with rfl | hb
      · exact not_holds_of_whole? hwhole hpick
      · exact none_before b hb

theorem firstFenced_eq_none (h : firstFenced pick blocks = .ok none) : ∀ b ∈ blocks, ∀ y, ¬ Holds pick y b := by
  induction blocks with
  | nil => simp
  | cons block blocks ih =>
    rw [firstFenced_cons] at h
    obtain ⟨o, hwhole, h⟩ := Json.bind_eq_ok h
    split at h
    · cases h
    · next hpick =>
      intro b hb
      rcases List.mem_cons.1 hb with rfl | hb
      · exact not_holds_of_whole? hwhole hpick
      · exact ih h b hb

/-! ## The search for brackets -/

theorem firstLeading_cons (pick : Value → Option α) (hc : c ≠ opener) (cs : List Char) :
    firstLeading opener pick (c :: cs) = firstLeading opener pick cs := by
  simp [firstLeading, hc]

theorem firstLeading_opener (opener : Char) (pick : Value → Option α) (cs : List Char) :
    firstLeading opener pick (opener :: cs) = (Json.leading? (opener :: cs)).bind fun o =>
      match o.bind pick with
      | some x => .ok (some x)
      | none => firstLeading opener pick cs := by
  simp only [firstLeading, beq_self_eq_true, if_true]
  rfl

theorem firstLeading_of_picked (h : Json.leading? (opener :: cs) = .ok o) (hx : o.bind pick = some x) :
    firstLeading opener pick (opener :: cs) = .ok (some x) := by
  rw [firstLeading_opener, h]
  simp only [Except.bind, hx]

theorem firstLeading_of_passed (h : Json.leading? (opener :: cs) = .ok o) (hx : o.bind pick = none) :
    firstLeading opener pick (opener :: cs) = firstLeading opener pick cs := by
  rw [firstLeading_opener, h]
  simp only [Except.bind, hx]

theorem Begins.head (kind : Bracketed opener pick) (h : Begins pick x cs) : cs.head? = some opener := by
  obtain ⟨v, w, rest, rfl, hw, hpick⟩ := h
  have hhead : w.head? = some opener := (kind.picks hw).1 (by rw [hpick]; rfl)
  obtain ⟨w, rfl⟩ := List.head?_eq_some_iff.1 hhead
  rfl

theorem begins_of_leading? (h : Json.leading? cs = .ok o) (hx : o.bind pick = some x) : Begins pick x cs := by
  obtain ⟨v, rfl, hv⟩ := Option.bind_eq_some_iff.1 hx
  have read : ∃ w rest, cs = w ++ rest ∧ Spells none v w := Json.exists_spells_of_leading? h (by simp)
  obtain ⟨w, rest, rfl, hw⟩ := read
  exact ⟨v, w, rest, rfl, hw, hv⟩

/-- A value is read where it begins, or a limit is passed there. -/
theorem Begins.leading? (kind : Bracketed opener pick) (h : Begins pick x cs) :
    (∃ v, Json.leading? cs = .ok (some v) ∧ pick v = some x) ∨ ∃ f, Json.leading? cs = .error f := by
  obtain ⟨v, w, rest, rfl, hw, hpick⟩ := h
  have noNumber := kind.not_numeral ((kind.picks hw).1 (by rw [hpick]; rfl))
  rcases hw.leading? (by simp) rest fun h => absurd h noNumber with h | ⟨-, h⟩
  · exact .inl ⟨v, h, hpick⟩
  · exact .inr h

theorem not_begins_of_leading? (kind : Bracketed opener pick) (h : Json.leading? cs = .ok o)
    (hx : o.bind pick = none) (y : α) : ¬ Begins pick y cs := by
  intro begins
  rcases begins.leading? kind with ⟨v, hv, hpick⟩ | ⟨f, hf⟩
  · rw [h] at hv
    obtain rfl : o = some v := Except.ok.inj hv
    rw [Option.bind_some, hpick] at hx
    cases hx
  · rw [h] at hf
    cases hf

/-- What a text begins with is the first value of the text. -/
theorem Begins.firstIn (h : Begins pick x cs) : FirstIn pick x cs := by
  refine ⟨[], cs, rfl, h, ?_⟩
  intro earlier between hcut hne
  exact absurd (List.append_eq_nil_iff.1 hcut.symm).2 hne

theorem FirstIn.begins (h : FirstIn pick x cs) (hy : Begins pick y cs) : Begins pick x cs := by
  obtain ⟨before, after, rfl, begins, none_before⟩ := h
  cases before with
  | nil => exact begins
  | cons c before => exact absurd hy (none_before [] (c :: before) rfl (List.cons_ne_nil c before) y)

theorem FirstIn.cons (h : FirstIn pick x cs) (hc : ∀ y, ¬ Begins pick y (c :: cs)) : FirstIn pick x (c :: cs) := by
  obtain ⟨before, after, rfl, begins, none_before⟩ := h
  refine ⟨c :: before, after, rfl, begins, ?_⟩
  intro earlier between hcut hne
  cases earlier with
  | nil =>
    obtain rfl : c :: before = between := hcut
    exact hc
  | cons d earlier =>
    obtain ⟨-, rfl⟩ := List.cons.inj hcut
    exact none_before earlier between rfl hne

/-- What holds no bracket can be counted to either side of a place. -/
theorem noneBefore_append_iff (kind : Bracketed opener pick) {front between after : List Char}
    (hopener : opener ∉ between) :
    NoneBefore pick (front ++ between) after ↔ NoneBefore pick front (between ++ after) := by
  constructor
  · intro h earlier tail hcut hne y
    have := h earlier (tail ++ between) (by rw [hcut, List.append_assoc]) (List.append_ne_nil_of_left_ne_nil hne _) y
    rwa [List.append_assoc] at this
  · intro h earlier tail hcut hne y begins
    have not_suffix (hsuffix : tail <:+ between) : False := by
      obtain ⟨d, ds, rfl⟩ := List.exists_cons_of_ne_nil hne
      obtain rfl : d = opener := Option.some.inj (begins.head kind)
      exact hopener (hsuffix.subset List.mem_cons_self)
    rcases List.append_eq_append_iff.1 hcut with ⟨l, rfl, hbetween⟩ | ⟨l, hfront, rfl⟩
    · exact not_suffix ⟨l, hbetween.symm⟩
    · cases l with
      | nil => exact not_suffix (List.suffix_refl between)
      | cons d l =>
        rw [List.append_assoc] at begins
        exact h earlier (d :: l) hfront (List.cons_ne_nil d l) y begins

/-- The value found by its bracket is the first of the text. -/
theorem firstLeading_eq_some (kind : Bracketed opener pick) (h : firstLeading opener pick cs = .ok (some x)) :
    FirstIn pick x cs := by
  induction cs with
  | nil => cases h
  | cons c cs ih =>
    by_cases hc : c = opener
    · subst hc
      rw [firstLeading_opener] at h
      obtain ⟨o, hread, h⟩ := Json.bind_eq_ok h
      split at h
      · next hpick =>
        cases h
        exact (begins_of_leading? hread hpick).firstIn
      · next hpick => exact (ih h).cons (not_begins_of_leading? kind hread hpick)
    · rw [firstLeading_cons pick hc] at h
      refine (ih h).cons fun y begins => hc ?_
      exact Option.some.inj (begins.head kind)

/-! ## The whole search -/

/-- What stands between the front of a text and a place of it opens the first block that is a value and nothing else,
up to its first character that is not blank. -/
inductive InBlock (pick : Value → Option α) (x : α) (text : String) : List Char → List Char → Prop
  | block {earlier later : List String} {block : String} {opening gap inside rest : List Char} :
      jsonBlocks text = earlier ++ block :: later → (∀ b ∈ earlier, ∀ y, ¬ Holds pick y b) → Holds pick x block →
      Opening opening → (∀ c ∈ gap, Text.isBlank c = true) → block.toList = gap ++ inside → Fenceless block.toList →
      InBlock pick x text (opening ++ gap) (inside ++ fence ++ rest)

/-- A value is taken from a place of a text: of the first block that is one, or, if no block is one, from the first
place that begins with one. A place in a block is the first one too exactly if no value begins in front of the block. -/
structure Taken (pick : Value → Option α) (x : α) (text : String) (before after : List Char) : Prop where
  cut : text.toList = before ++ after
  begins : Begins pick x after
  place : (∃ front between, before = front ++ between ∧ InBlock pick x text between after ∧
      (NoneBefore pick before after ↔ NoneBefore pick front (between ++ after))) ∨
    (∀ b ∈ jsonBlocks text, ∀ y, ¬ Holds pick y b) ∧ NoneBefore pick before after

theorem Opening.not_mem {opening : List Char} (h : Opening opening) (hc : c ∉ fence) (hword : c ∉ "json".toList)
    (hblank : Text.isBlank c = false) : c ∉ opening := by
  cases h with
  | line word blanks =>
    intro hmem
    simp only [List.mem_append, List.mem_singleton] at hmem
    rcases hmem with ((hmem | hmem) | hmem) | rfl
    · exact hc hmem
    · rcases word with rfl | rfl
      · cases hmem
      · exact hword hmem
    · rw [blanks c hmem] at hblank
      cases hblank
    · cases hblank

theorem InBlock.not_mem {text : String} {between after : List Char} (kind : Bracketed opener pick)
    (h : InBlock pick x text between after) : opener ∉ between := by
  have plain : opener ∉ fence ∧ opener ∉ "json".toList ∧ Text.isBlank opener = false := by
    rcases kind.bracket with rfl | rfl
    · decide
    · decide
  obtain ⟨hfence, hword, hblank⟩ := plain
  cases h with
  | block _ _ _ hopening blanks _ _ =>
    intro hmem
    rcases List.mem_append.1 hmem with hmem | hmem
    · exact hopening.not_mem hfence hword hblank hmem
    · rw [blanks opener hmem] at hblank
      cases hblank

theorem Taken.noneBefore {text : String} {before after : List Char} (taken : Taken pick x text before after)
    (noBlock : ∀ b ∈ jsonBlocks text, ∀ y, ¬ Holds pick y b) : NoneBefore pick before after := by
  rcases taken.place with ⟨_, _, -, ⟨hblocks, -, holds, -⟩, -⟩ | ⟨-, first⟩
  · exact absurd holds (noBlock _ (by simp [hblocks]) x)
  · exact first

theorem exists_taken_of_firstOf {text : String} (kind : Bracketed opener pick)
    (h : firstOf opener pick text = .ok (some x)) : ∃ before after, Taken pick x text before after := by
  have h : (firstFenced pick (jsonBlocks text)).bind (fun o =>
      match o with
      | some x => .ok (some x)
      | none => firstLeading opener pick text.toList) = .ok (some x) := h
  obtain ⟨o, hfenced, h⟩ := Json.bind_eq_ok h
  split at h
  · cases h
    obtain ⟨earlier, block, later, hblocks, holds, none_earlier⟩ := firstFenced_eq_some hfenced
    obtain ⟨front, opening, rest, hopening, hcut, plain⟩ := exists_of_jsonBlocks hblocks
    obtain ⟨gap, inside, hblock, blanks, begins⟩ := holds.place
    have inBlock : InBlock pick x text (opening ++ gap) (inside ++ fence ++ rest) :=
      .block hblocks none_earlier holds hopening blanks hblock plain
    refine ⟨front ++ (opening ++ gap), inside ++ fence ++ rest, ?_, ?_, .inl ⟨front, opening ++ gap, rfl, inBlock, ?_⟩⟩
    · rw [hcut, hblock]
      simp
    · rw [List.append_assoc]
      exact begins.append _
    · exact noneBefore_append_iff kind (inBlock.not_mem kind)
  · obtain ⟨before, after, hcut, begins, first⟩ := firstLeading_eq_some kind h
    exact ⟨before, after, hcut, begins, .inr ⟨firstFenced_eq_none hfenced, first⟩⟩

theorem firstList_eq (text : String) : firstList text = (firstOf '[' list? text).bind fun o =>
    match o with
    | some items => .ok items
    | none => .error (.role .noList) :=
  rfl

theorem firstTable_eq (text : String) : firstTable text = (firstOf '\x7b' table? text).bind fun o =>
    match o with
    | some fields => .ok fields
    | none => .error (.role .noTable) :=
  rfl

/-- What is made of a value that was found, and not of the absence of one, was taken from the text. -/
theorem exists_taken {text : String} {g : Option α → Except Failure α} (kind : Bracketed opener pick)
    (found : ∀ y, g (some y) = .ok y) (missing : g none ≠ .ok x) (h : (firstOf opener pick text).bind g = .ok x) :
    ∃ before after, Taken pick x text before after := by
  obtain ⟨o, hfirst, h⟩ := Json.bind_eq_ok h
  cases o with
  | none => exact absurd h missing
  | some y =>
    obtain rfl : y = x := Except.ok.inj ((found y).symm.trans h)
    exact exists_taken_of_firstOf kind hfirst

theorem exists_taken_of_firstList {text : String} {items : List Value} (h : firstList text = .ok items) :
    ∃ before after, Taken list? items text before after := by
  rw [firstList_eq] at h
  exact exists_taken bracketed_list (fun _ => rfl) (by simp) h

theorem exists_taken_of_firstTable {text : String} {fields : Fields} (h : firstTable text = .ok fields) :
    ∃ before after, Taken table? fields text before after := by
  rw [firstTable_eq] at h
  exact exists_taken bracketed_table (fun _ => rfl) (by simp) h

/-- A verdict is that of the table taken from the reply. -/
theorem exists_of_reviewOf {text : String} {review : Review} (h : reviewOf text = .ok review) :
    ∃ fields v, firstTable text = .ok fields ∧ fields.lookup "passed" = some v ∧ review.passed = saysPassed v := by
  obtain ⟨fields, hfields, h⟩ := Json.bind_eq_ok (r := firstTable text) (y := review) h
  split at h
  · cases h
  · next v hv =>
    obtain ⟨issues, -, h⟩ := Json.bind_eq_ok (y := review) h
    cases h
    exact ⟨fields, v, hfields, hv, rfl⟩

/-- The table or list that is found in a text begins at a place of it. That is the place of the first block of data
that is a table or list and nothing else, and then the first such place exactly if none is in front of the block; if
no block is one, no earlier place begins with any. The verdict of a review is that of the table, so without such a
block it is the verdict of the first table in the reply. -/
theorem table_and_list_taken (text : String) :
    (∀ fields, firstTable text = .ok fields → ∃ before after, Taken table? fields text before after ∧
      ((∀ b ∈ jsonBlocks text, ∀ y, ¬ Holds table? y b) → NoneBefore table? before after)) ∧
    (∀ items, firstList text = .ok items → ∃ before after, Taken list? items text before after ∧
      ((∀ b ∈ jsonBlocks text, ∀ y, ¬ Holds list? y b) → NoneBefore list? before after)) ∧
    ∀ review, reviewOf text = .ok review → ∃ fields v before after, Taken table? fields text before after ∧
      fields.lookup "passed" = some v ∧ review.passed = saysPassed v ∧
      ((∀ b ∈ jsonBlocks text, ∀ y, ¬ Holds table? y b) → NoneBefore table? before after) := by
  refine ⟨?_, ?_, ?_⟩
  · intro fields h
    obtain ⟨before, after, taken⟩ := exists_taken_of_firstTable h
    exact ⟨before, after, taken, taken.noneBefore⟩
  · intro items h
    obtain ⟨before, after, taken⟩ := exists_taken_of_firstList h
    exact ⟨before, after, taken, taken.noneBefore⟩
  · intro review h
    obtain ⟨fields, v, hfields, hv, hpassed⟩ := exists_of_reviewOf h
    obtain ⟨before, after, taken⟩ := exists_taken_of_firstTable hfields
    exact ⟨fields, v, before, after, taken, hv, hpassed, taken.noneBefore⟩

/-- Two verdicts in a row, without a block: the first one counts. A list behind some other brackets. -/
theorem verdict_of_first_table :
    (∃ review, reviewOf "No: \x7b\"passed\": false\x7d, not \x7b\"passed\": true\x7d." = .ok review ∧
      review.passed = false ∧
      ∃ fields before after, "No: \x7b\"passed\": false\x7d, not \x7b\"passed\": true\x7d.".toList = before ++ after ∧
        Begins table? fields after ∧ NoneBefore table? before after ∧
        (fields.lookup "passed").map saysPassed = some review.passed) ∧
    ∃ items before after, firstList "a[i] [\"x\"]" = .ok items ∧ Taken list? items "a[i] [\"x\"]" before after := by
  constructor
  · obtain ⟨review, hreview, hpassed⟩ := exists_of_toOption (f := Review.passed) (y := false)
      (show (reviewOf "No: \x7b\"passed\": false\x7d, not \x7b\"passed\": true\x7d.").toOption.map Review.passed = _
        by decide +kernel)
    have hblocks : jsonBlocks "No: \x7b\"passed\": false\x7d, not \x7b\"passed\": true\x7d." = [] := by
      decide +kernel
    obtain ⟨fields, v, before, after, taken, hv, hverdict, first⟩ := (table_and_list_taken _).2.2 _ hreview
    refine ⟨review, hreview, hpassed, fields, before, after, taken.cut, taken.begins, first (by simp [hblocks]), ?_⟩
    rw [hv, hverdict]
    rfl
  · obtain ⟨items, hitems, -⟩ := exists_of_toOption (f := List.length) (y := 1)
      (show (firstList "a[i] [\"x\"]").toOption.map List.length = _ by decide +kernel)
    obtain ⟨before, after, taken, -⟩ := (table_and_list_taken _).2.1 _ hitems
    exact ⟨items, before, after, hitems, taken⟩

/-- A rejection that quotes, in a block, what an approval would look like. -/
def quotingReply : String :=
  "\x7b\"passed\": false\x7d\n\x60\x60\x60json\n\x7b\"passed\": true\x7d\n\x60\x60\x60"

/-- The rejection is the first table of the reply, but the quoted approval is the table that is taken from it, and
the verdict of the review. -/
theorem approval_replaced_by_block :
    (∃ fields, FirstIn table? fields quotingReply.toList ∧ (fields.lookup "passed").map saysPassed = some false) ∧
    (∃ fields, firstTable quotingReply = .ok fields ∧ ¬ FirstIn table? fields quotingReply.toList) ∧
    ∃ review, reviewOf quotingReply = .ok review ∧ review.passed = true := by
  obtain ⟨o, hread, hfirst⟩ := exists_of_toOption (y := some (some false))
    (f := fun o : Option Value => (o.bind table?).map fun fields => (fields.lookup "passed").map saysPassed)
    (show (Json.leading? quotingReply.toList).toOption.map _ = _ by decide +kernel)
  obtain ⟨first, hpick, hrejects⟩ := Option.map_eq_some_iff.1 hfirst
  have begins : Begins table? first quotingReply.toList := begins_of_leading? hread hpick
  obtain ⟨fields, htaken, hfields⟩ := exists_of_toOption (y := some true)
    (f := fun fields : Fields => (fields.lookup "passed").map saysPassed)
    (show (firstTable quotingReply).toOption.map _ = _ by decide +kernel)
  refine ⟨⟨first, begins.firstIn, hrejects⟩, ⟨fields, htaken, ?_⟩, ?_⟩
  · intro found
    rcases (found.begins begins).leading? bracketed_table with ⟨v, hv, hpick'⟩ | ⟨f, hf⟩
    · rw [hread] at hv
      obtain rfl : o = some v := Except.ok.inj hv
      obtain rfl : first = fields := Option.some.inj (hpick.symm.trans hpick')
      rw [hrejects] at hfields
      cases hfields
    · rw [hread] at hf
      cases hf
  · exact exists_of_toOption (show (reviewOf quotingReply).toOption.map Review.passed = some true by decide +kernel)

end FixGate.Reply
