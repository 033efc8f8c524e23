import FixGate.Proofs.Json.Numbers
import FixGate.Proofs.Json.Quotes

/-!
# The steps of the reader

The reader of values looks at the first character and leaves the rest to other readers. Here is what each of them
does, token by token: for a text that is put together from the parts of a value, and, the other way round, what a
value that was read has been put together from. The grammar of whole values is left to the users of this module.

* `readAtom_of_word`, `readAtom_of_numeral`, `exists_spells_of_readAtom` : words and numbers
* `StartsValue`, `Spells.head` : with which characters the text of a value begins
* `readValue_quote`, `readValue_list`, `readItems_succ`, `readFields_succ` : a step of each reader
* `readValue_cases`, `afterItem_cases`, `afterName_cases`, `afterField_cases` : from what a step was made
-/

namespace FixGate.Json

variable {room : Option Nat} {v : Value} {vs : List Value} {ms : List (String × Value)} {m : String × Value}
  {fields : Fields} {c : Char} {cs ds g rest w : List Char} {n depth : Nat}

/-! ## Spaces -/

theorem Gap.nil : Gap [] := fun _ hc => absurd hc List.not_mem_nil

theorem isSpace_cases (hc : isSpace c = true) : c = ' ' ∨ c = '\t' ∨ c = '\n' ∨ c = '\r' := by
  simpa [isSpace, or_assoc] using hc

theorem isBlank_of_isSpace (hc : isSpace c = true) : Text.isBlank c = true := by
  rcases isSpace_cases hc with rfl | rfl | rfl | rfl <;> decide

theorem skipSpace_append (gap : Gap g) (cs : List Char) : skipSpace (g ++ cs) = skipSpace cs :=
  List.dropWhile_append_of_pos gap

theorem skipSpace_cons (hc : isSpace c = false) : skipSpace (c :: cs) = c :: cs :=
  List.dropWhile_cons_of_neg (by simp [hc])

theorem exists_gap (cs : List Char) : ∃ g, Gap g ∧ cs = g ++ skipSpace cs :=
  ⟨cs.takeWhile isSpace, fun _ hc => List.mem_takeWhile_imp hc, List.takeWhile_append_dropWhile.symm⟩

theorem Gap.skip (gap : Gap g) (hc : isSpace c = false) : skipSpace (g ++ c :: cs) = c :: cs := by
  rw [skipSpace_append gap, skipSpace_cons hc]

/-! ## Words and numbers -/

/-- A character that can stand at the start of the text of a value: neither a space nor the end of a list. -/
def StartsValue (c : Char) : Prop :=
  isSpace c = false ∧ c ≠ ']' ∧ c ≠ '\ufeff'

instance (c : Char) : Decidable (StartsValue c) :=
  inferInstanceAs (Decidable (_ ∧ _))

theorem Magnitude.head {bounded negative : Bool} (number : Magnitude bounded negative v w) :
    ∃ c cs, w = c :: cs ∧ c.isDigit = true := by
  obtain ⟨ds, t, rfl, digits, -⟩ := number.digits
  obtain ⟨d, ds, rfl⟩ := List.exists_cons_of_ne_nil digits.ne_nil
  exact ⟨d, ds ++ t, rfl, digits.digit d List.mem_cons_self⟩

theorem Numeral.kind {bounded : Bool} (number : Numeral bounded v w) : (∃ n, v = .int n) ∨ ∃ x, v = .real x := by
  rcases number with ⟨⟨_, _⟩ | ⟨_, _, _, _⟩⟩ | ⟨⟨_, _⟩ | ⟨_, _, _, _⟩⟩ <;> simp

/-- A number begins with a digit or with its sign. -/
theorem Numeral.head {bounded : Bool} (number : Numeral bounded v w) :
    ∃ c cs, w = c :: cs ∧ (c = '-' ∨ c.isDigit = true) := by
  cases number with
  | plain number =>
    obtain ⟨c, cs, rfl, hc⟩ := number.head
    exact ⟨c, cs, rfl, .inr hc⟩
  | negative number => exact ⟨'-', _, rfl, .inl rfl⟩

theorem ne_of_isDigit {d : Char} (hc : c.isDigit = true) (hd : d.isDigit = false) : c ≠ d := by
  rintro rfl
  rw [hc] at hd
  cases hd

/-- A word begins with a letter or a sign, and stands for neither a list nor a table. -/
theorem word_shape (h : (w, v) ∈ words) :
    (∃ c cs, w = c :: cs ∧ StartsValue c ∧ c ≠ '"' ∧ c ≠ '[' ∧ c ≠ '\x7b' ∧ c.isDigit = false) ∧
      (∀ vs, v ≠ .list vs) ∧ ∀ fs, v ≠ .table fs := by
  simp only [words, List.mem_cons, List.not_mem_nil, or_false, Prod.mk.injEq] at h
  rcases h with ⟨rfl, rfl⟩ | ⟨rfl, rfl⟩ | ⟨rfl, rfl⟩ | ⟨rfl, rfl⟩ | ⟨rfl, rfl⟩ | ⟨rfl, rfl⟩
  all_goals exact ⟨⟨_, _, rfl, by decide⟩, by simp, by simp⟩

/-- No word begins with a digit, and none of those that begin with a sign goes on with one. -/
theorem find?_words_of_isDigit (hc : c.isDigit = true) (cs : List Char) :
    words.find? (fun w => w.1.isPrefixOf (c :: cs)) = none ∧
      words.find? (fun w => w.1.isPrefixOf ('-' :: c :: cs)) = none := by
  have hn : 'n' ≠ c := (ne_of_isDigit hc rfl).symm
  have ht : 't' ≠ c := (ne_of_isDigit hc rfl).symm
  have hf : 'f' ≠ c := (ne_of_isDigit hc rfl).symm
  have hN : 'N' ≠ c := (ne_of_isDigit hc rfl).symm
  have hI : 'I' ≠ c := (ne_of_isDigit hc rfl).symm
  have hminus : '-' ≠ c := (ne_of_isDigit hc rfl).symm
  constructor
  · simp [words, List.isPrefixOf, hn, ht, hf, hN, hI, hminus]
  · simp [words, List.isPrefixOf, hI]

theorem readAtom_of_word (h : (w, v) ∈ words) : readAtom (w ++ rest) = .ok (v, rest) := by
  simp only [words, List.mem_cons, List.not_mem_nil, or_false, Prod.mk.injEq] at h
  rcases h with ⟨rfl, rfl⟩ | ⟨rfl, rfl⟩ | ⟨rfl, rfl⟩ | ⟨rfl, rfl⟩ | ⟨rfl, rfl⟩ | ⟨rfl, rfl⟩
  all_goals rfl

/-- A numeral is read as its number, unless it is an integer with too many digits. -/
theorem readAtom_of_numeral {bounded : Bool} (number : Numeral bounded v w) (ends : Ends rest) :
    readAtom (w ++ rest) = .ok (v, rest) ∨
      bounded = false ∧ ∃ e, readAtom (w ++ rest) = .error e ∧ e.fault.limit?.isSome = true := by
  cases number with
  | plain number =>
    obtain ⟨c, cs, rfl, hc⟩ := number.head
    have hread := readMagnitude_of_magnitude number ends
    have hminus : c ≠ '-' := ne_of_isDigit hc rfl
    rw [List.cons_append] at hread ⊢
    unfold readAtom
    rw [(find?_words_of_isDigit hc _).1]
    rcases hread with hread | ⟨hbounded, n, hread⟩
    · exact .inl (by simp [hminus, hread])
    · exact .inr ⟨hbounded, _, by simp [hminus, hread]; rfl, rfl⟩
  | @negative w number =>
    obtain ⟨c, cs, rfl, hc⟩ := number.head
    have hread := readMagnitude_of_magnitude number ends
    rw [List.cons_append] at hread
    rw [List.cons_append, List.cons_append]
    unfold readAtom
    rw [(find?_words_of_isDigit hc _).2]
    rcases hread with hread | ⟨hbounded, n, hread⟩
    · exact .inl (by simp [hread])
    · exact .inr ⟨hbounded, _, by simp [hread]; rfl, rfl⟩

theorem exists_spells_of_readAtom (h : readAtom cs = .ok (v, rest)) :
    ∃ w, cs = w ++ rest ∧ ∀ room, Spells room v w := by
  unfold readAtom at h
  split at h
  · next w u hfind =>
    cases h
    have hprefix : w.isPrefixOf cs = true := by simpa using List.find?_some hfind
    have hmem : (w, v) ∈ words := List.mem_of_find?_eq_some hfind
    refine ⟨w, ?_, fun room => .word hmem⟩
    obtain ⟨tail, rfl⟩ := List.isPrefixOf_iff_prefix.1 hprefix
    rw [List.drop_left]
  · have number {negative : Bool} {ds : List Char} (hread : readMagnitude negative ds = .ok (v, rest)) :
        ∃ w, ds = w ++ rest ∧ ∀ bounded, Magnitude bounded negative v w := by
      obtain ⟨w, hcut, number⟩ := exists_magnitude_of_readMagnitude hread
      exact ⟨w, hcut, number.of_bounded⟩
    simp only at h
    split at h
    · next r hread =>
      cases h
      split at hread
      · obtain ⟨w, rfl, hw⟩ := number hread
        exact ⟨'-' :: w, rfl, fun room => .number (.negative (hw _))⟩
      · obtain ⟨w, rfl, hw⟩ := number hread
        exact ⟨w, rfl, fun room => .number (.plain (hw _))⟩
    · cases h

/-! ## Heads -/

theorem startsValue_of_isDigit (hc : c.isDigit = true) : StartsValue c := by
  refine ⟨?_, ne_of_isDigit hc rfl, ne_of_isDigit hc rfl⟩
  have hspace := ne_of_isDigit hc (show ' '.isDigit = false from rfl)
  have htab := ne_of_isDigit hc (show '\t'.isDigit = false from rfl)
  have hfeed := ne_of_isDigit hc (show '\n'.isDigit = false from rfl)
  have hreturn := ne_of_isDigit hc (show '\r'.isDigit = false from rfl)
  simp [isSpace, hspace, htab, hfeed, hreturn]

/-- The text of a value begins with no space and with no sign between values. -/
theorem Spells.head (h : Spells room v w) : ∃ c cs, w = c :: cs ∧ StartsValue c := by
  cases h with
  | word h =>
    obtain ⟨⟨c, cs, hw, hc, -⟩, -⟩ := word_shape h
    exact ⟨c, cs, hw, hc⟩
  | number number =>
    obtain ⟨c, cs, rfl, rfl | hc⟩ := number.head
    · exact ⟨_, _, rfl, by decide⟩
    · exact ⟨c, cs, rfl, startsValue_of_isDigit hc⟩
  | text _ => exact ⟨_, _, rfl, by decide⟩
  | emptyList _ _ => exact ⟨_, _, rfl, by decide⟩
  | list _ _ => exact ⟨_, _, rfl, by decide⟩
  | emptyTable _ _ => exact ⟨_, _, rfl, by decide⟩
  | table _ _ => exact ⟨_, _, rfl, by decide⟩

/-- Lists and tables stand between brackets of their own, and no other value begins with one of those. -/
theorem Spells.shape (h : Spells room v w) :
    (∃ vs cs, v = .list vs ∧ w = '[' :: cs ++ [']']) ∨
      (∃ fs cs, v = .table fs ∧ w = '\x7b' :: cs ++ ['\x7d']) ∨
      ((∀ vs, v ≠ .list vs) ∧ ∀ fs, v ≠ .table fs) ∧ w.head? ≠ some '[' ∧ w.head? ≠ some '\x7b' := by
  cases h with
  | word h =>
    obtain ⟨⟨c, cs, rfl, -, -, hlist, htable, -⟩, hv⟩ := word_shape h
    exact .inr (.inr ⟨hv, by simp [hlist, htable]⟩)
  | number number =>
    have hv : (∀ vs, v ≠ .list vs) ∧ ∀ fs, v ≠ .table fs := by
      rcases number.kind with ⟨n, rfl⟩ | ⟨x, rfl⟩ <;> simp
    obtain ⟨c, cs, rfl, rfl | hc⟩ := number.head
    · exact .inr (.inr ⟨hv, by simp⟩)
    · have hlist : c ≠ '[' := ne_of_isDigit hc rfl
      have htable : c ≠ '\x7b' := ne_of_isDigit hc rfl
      exact .inr (.inr ⟨hv, by simp [hlist, htable]⟩)
  | text _ => exact .inr (.inr (by simp))
  | emptyList _ _ => exact .inl ⟨_, _, rfl, rfl⟩
  | list _ _ => exact .inl ⟨_, _, rfl, rfl⟩
  | emptyTable _ _ => exact .inr (.inl ⟨_, _, rfl, rfl⟩)
  | table _ _ => exact .inr (.inl ⟨_, _, rfl, rfl⟩)

/-! ## Steps of the reader -/

theorem readValue_quote (n depth : Nat) (cs : List Char) :
    readValue (n + 1) depth ('"' :: cs) = (readText cs).bind fun r => .ok (.text r.1, r.2) :=
  rfl

theorem readValue_atom (hquote : c ≠ '"') (hlist : c ≠ '[') (htable : c ≠ '\x7b') (n depth : Nat)
    (cs : List Char) : readValue (n + 1) depth (c :: cs) = readAtom (c :: cs) := by
  cases depth <;> simp [readValue, hquote, hlist, htable]

theorem readValue_openList (n depth : Nat) (cs : List Char) :
    readValue (n + 1) (depth + 1) ('[' :: cs) =
      match skipSpace cs with
      | ']' :: rest => .ok (.list [], rest)
      | cs => (readItems n depth cs).bind fun r => .ok (.list r.1, r.2) :=
  rfl

theorem readValue_emptyList (h : skipSpace cs = ']' :: rest) (n depth : Nat) :
    readValue (n + 1) (depth + 1) ('[' :: cs) = .ok (.list [], rest) := by
  rw [readValue_openList, h]
  rfl

theorem readValue_list (h : ∀ rest, skipSpace cs ≠ ']' :: rest) (n depth : Nat) :
    readValue (n + 1) (depth + 1) ('[' :: cs) =
      (readItems n depth (skipSpace cs)).bind fun r => .ok (.list r.1, r.2) := by
  rw [readValue_openList]
  split
  · next hs => exact absurd hs (h _)
  · rfl

theorem readValue_openTable (n depth : Nat) (cs : List Char) :
    readValue (n + 1) (depth + 1) ('\x7b' :: cs) =
      match skipSpace cs with
      | '\x7d' :: rest => .ok (.table [], rest)
      | cs => (readFields n depth [] cs).bind fun r => .ok (.table r.1, r.2) :=
  rfl

theorem readValue_emptyTable (h : skipSpace cs = '\x7d' :: rest) (n depth : Nat) :
    readValue (n + 1) (depth + 1) ('\x7b' :: cs) = .ok (.table [], rest) := by
  rw [readValue_openTable, h]
  rfl

theorem readValue_table (h : ∀ rest, skipSpace cs ≠ '\x7d' :: rest) (n depth : Nat) :
    readValue (n + 1) (depth + 1) ('\x7b' :: cs) =
      (readFields n depth [] (skipSpace cs)).bind fun r => .ok (.table r.1, r.2) := by
  rw [readValue_openTable]
  split
  · next hs => exact absurd hs (h _)
  · rfl

/-- What follows an element of a list, given how the rest of the list is read. -/
def afterItem (readRest : List Char → Except Stop (List Value × List Char)) (v : Value) (cs : List Char) :
    Except Stop (List Value × List Char) :=
  match skipSpace cs with
  | ']' :: rest => .ok ([v], rest)
  | ',' :: rest => (readRest (skipSpace rest)).bind fun r => .ok (v :: r.1, r.2)
  | rest => .error ⟨.comma, rest.length⟩

theorem readItems_succ (n depth : Nat) (cs : List Char) :
    readItems (n + 1) depth cs =
      (readValue n depth cs).bind fun r => afterItem (readItems n depth) r.1 r.2 :=
  rfl

/-- What follows a field of a table, given how the rest of the table is read. -/
def afterField (readRest : Fields → List Char → Except Stop (Fields × List Char)) (fields : Fields)
    (cs : List Char) : Except Stop (Fields × List Char) :=
  match skipSpace cs with
  | '\x7d' :: rest => .ok (fields, rest)
  | ',' :: rest => readRest fields (skipSpace rest)
  | rest => .error ⟨.comma, rest.length⟩

/-- What follows the name of a field, given how values and the rest of the table are read. -/
def afterName (readMember : List Char → Except Stop (Value × List Char))
    (readRest : Fields → List Char → Except Stop (Fields × List Char)) (fields : Fields) (name : String)
    (cs : List Char) : Except Stop (Fields × List Char) :=
  match skipSpace cs with
  | ':' :: rest => (readMember (skipSpace rest)).bind fun r =>
    afterField readRest (Fields.insert fields name r.1) r.2
  | rest => .error ⟨.colon, rest.length⟩

theorem readFields_succ (n depth : Nat) (fields : Fields) (cs : List Char) :
    readFields (n + 1) depth fields ('"' :: cs) =
      (readText cs).bind fun r => afterName (readValue n depth) (readFields n depth) fields r.1 r.2 :=
  rfl

theorem readValue_word (h : (w, v) ∈ words) (n depth : Nat) (rest : List Char) :
    readValue (n + 1) depth (w ++ rest) = .ok (v, rest) := by
  rw [← readAtom_of_word h]
  obtain ⟨⟨c, cs, rfl, -, hquote, hlist, htable, -⟩, -⟩ := word_shape h
  exact readValue_atom hquote hlist htable n depth _

theorem readValue_numeral {bounded : Bool} (number : Numeral bounded v w) (n depth : Nat) (rest : List Char) :
    readValue (n + 1) depth (w ++ rest) = readAtom (w ++ rest) := by
  cases number with
  | plain number =>
    obtain ⟨c, cs, rfl, hc⟩ := number.head
    exact readValue_atom (ne_of_isDigit hc rfl) (ne_of_isDigit hc rfl) (ne_of_isDigit hc rfl) n depth _
  | negative number => exact readValue_atom (by decide) (by decide) (by decide) n depth _

/-! ## What a step was made from -/

theorem bind_eq_ok {ε α β : Type} {r : Except ε α} {f : α → Except ε β} {y : β} (h : r.bind f = .ok y) :
    ∃ x, r = .ok x ∧ f x = .ok y := by
  cases r with
  | error e => cases h
  | ok x => exact ⟨x, rfl, h⟩

theorem afterItem_cases {readRest : List Char → Except Stop (List Value × List Char)}
    (h : afterItem readRest v cs = .ok (vs, rest)) :
    skipSpace cs = ']' :: rest ∧ vs = [v] ∨
      ∃ tail vs', skipSpace cs = ',' :: tail ∧ readRest (skipSpace tail) = .ok (vs', rest) ∧ vs = v :: vs' := by
  unfold afterItem at h
  split at h
  · next hs =>
    simp only [Except.ok.injEq, Prod.mk.injEq] at h
    obtain ⟨rfl, rfl⟩ := h
    exact .inl ⟨hs, rfl⟩
  · next tail hs =>
    obtain ⟨r, hr, h⟩ := bind_eq_ok h
    cases h
    exact .inr ⟨tail, r.1, hs, hr, rfl⟩
  · cases h

theorem afterField_cases {readRest : Fields → List Char → Except Stop (Fields × List Char)} {r : Fields × List Char}
    (h : afterField readRest fields cs = .ok r) :
    skipSpace cs = '\x7d' :: r.2 ∧ r.1 = fields ∨
      ∃ tail, skipSpace cs = ',' :: tail ∧ readRest fields (skipSpace tail) = .ok r := by
  unfold afterField at h
  split at h
  · next hs =>
    cases h
    exact .inl ⟨hs, rfl⟩
  · next tail hs => exact .inr ⟨tail, hs, h⟩
  · cases h

theorem afterName_cases {readMember : List Char → Except Stop (Value × List Char)}
    {readRest : Fields → List Char → Except Stop (Fields × List Char)} {name : String} {r : Fields × List Char}
    (h : afterName readMember readRest fields name cs = .ok r) :
    ∃ tail u, skipSpace cs = ':' :: tail ∧ readMember (skipSpace tail) = .ok u ∧
      afterField readRest (Fields.insert fields name u.1) u.2 = .ok r := by
  unfold afterName at h
  split at h
  · next tail hs =>
    obtain ⟨u, hu, h⟩ := bind_eq_ok h
    exact ⟨tail, u, hs, hu, h⟩
  · cases h

/-- What a value was read from, by the character it begins with. -/
theorem readValue_cases (h : readValue (n + 1) depth cs = .ok (v, rest)) :
    readAtom cs = .ok (v, rest) ∨
      (∃ s tail, cs = '"' :: tail ∧ readText tail = .ok (s, rest) ∧ v = .text s) ∨
      (∃ d tail, depth = d + 1 ∧ cs = '[' :: tail ∧ (skipSpace tail = ']' :: rest ∧ v = .list [] ∨
        ∃ vs, readItems n d (skipSpace tail) = .ok (vs, rest) ∧ v = .list vs)) ∨
      ∃ d tail, depth = d + 1 ∧ cs = '\x7b' :: tail ∧ (skipSpace tail = '\x7d' :: rest ∧ v = .table [] ∨
        ∃ fields, readFields n d [] (skipSpace tail) = .ok (fields, rest) ∧ v = .table fields) := by
  unfold readValue at h
  split at h
  · next tail =>
    obtain ⟨⟨s, mid⟩, hs, h⟩ := bind_eq_ok h
    cases h
    exact .inr (.inl ⟨s, tail, rfl, hs, rfl⟩)
  · cases h
  · next tail d =>
    refine .inr (.inr (.inl ⟨d, tail, rfl, rfl, ?_⟩))
    split at h
    · next hs =>
      cases h
      exact .inl ⟨hs, rfl⟩
    · obtain ⟨⟨vs, mid⟩, hvs, h⟩ := bind_eq_ok h
      cases h
      exact .inr ⟨vs, hvs, rfl⟩
  · cases h
  · next tail d =>
    refine .inr (.inr (.inr ⟨d, tail, rfl, rfl, ?_⟩))
    split at h
    · next hs =>
      cases h
      exact .inl ⟨hs, rfl⟩
    · obtain ⟨⟨fields, mid⟩, hfields, h⟩ := bind_eq_ok h
      cases h
      exact .inr ⟨fields, hfields, rfl⟩
  · exact .inl h

end FixGate.Json
