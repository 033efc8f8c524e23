import FixGate.Proofs.Json.Rooms
import FixGate.Proofs.Text.Breaks

/-!
# Inside and outside of the quotes

Reading a JSON text from left to right, one is outside of the quotes, within them, or behind a backslash. Outside only
few characters can stand, and those that end a line in some script are not among them, so a text that is cut at one is
cut within quotes. What stands behind the cut is then read with the quotes the wrong way round. If it makes sense both
ways, it consists of quotes and of characters that can stand on either side, and these spell few names.

* `Zone`, `Zone.step`, `Zone.after` : where one is in a text
* `Spells.zone` : the text of a value begins and ends outside of the quotes
* `isBare_or_quote_of_both` : what makes sense outside and within
* `lookup_eq_none_of_within` : the names that are not spelled where a text makes sense from within quotes too
* `Zone.Misplaced`, `Zone.misplaced_of_mem_breakLines` : the pieces of a text that is cut
-/

namespace FixGate

namespace Json

/-- Where one is in a text: outside of the quotes, within them, or behind a backslash. -/
inductive Zone where
  | outside
  | within
  | escaped
  deriving DecidableEq, Repr

/-- A character that can stand outside of the quotes. -/
def isBare (c : Char) : Bool :=
  isSpace c || c.isDigit || "[]\x7b\x7d:,+-.eEnultrfasNIiy".toList.contains c

namespace Zone

/-- Where a character leads, if it can stand there. -/
def step : Zone → Char → Option Zone
  | outside, c => if c == '"' then some within else if isBare c then some outside else none
  | within, c =>
    if c == '"' then some outside else if c == '\\' then some escaped else if c.toNat < 32 then none else some within
  | escaped, c => if c == 'u' || (escaped? c).isSome then some within else none

/-- Where a text leads. -/
def after (z : Zone) (cs : List Char) : Option Zone :=
  cs.foldlM step z

variable {z z' : Zone} {c : Char} {cs ds : List Char}

theorem after_nil (z : Zone) : z.after [] = some z := rfl

theorem after_cons (z : Zone) (c : Char) (cs : List Char) : z.after (c :: cs) = (z.step c).bind fun z => z.after cs :=
  List.foldlM_cons

theorem after_cons_of_step (h : z.step c = some z') (cs : List Char) : z.after (c :: cs) = z'.after cs := by
  rw [after_cons, h]
  rfl

theorem after_append (z : Zone) (cs ds : List Char) : z.after (cs ++ ds) = (z.after cs).bind fun z => z.after ds :=
  List.foldlM_append

theorem after_append_of_after (h : z.after cs = some z') (ds : List Char) : z.after (cs ++ ds) = z'.after ds := by
  rw [after_append, h]
  rfl

/-- Characters that keep one where one is. -/
theorem after_of_stay (stay : ∀ c ∈ cs, z.step c = some z) : z.after cs = some z := by
  induction cs with
  | nil => rfl
  | cons c cs ih =>
    rw [after_cons, stay c List.mem_cons_self]
    exact ih fun d hd => stay d (List.mem_cons_of_mem c hd)

theorem step_outside_of_isBare (hc : isBare c = true) : outside.step c = some outside := by
  have hquote : c ≠ '"' := by
    rintro rfl
    exact absurd hc (by decide)
  simp [step, hquote, hc]

theorem step_within_of_plain (hquote : c ≠ '"') (hslash : c ≠ '\\') (visible : 32 ≤ c.toNat) :
    within.step c = some within := by
  simp [step, hquote, hslash, Nat.not_lt.2 visible]

end Zone

open Zone

variable {room : Option Nat} {v : Value} {w cs ds : List Char} {c : Char}

/-! ## The parts of a text -/

theorem outside_of_bare (bare : ∀ c ∈ cs, isBare c = true) : outside.after cs = some outside :=
  after_of_stay fun c hc => step_outside_of_isBare (bare c hc)

theorem isBare_of_isSpace (hc : isSpace c = true) : isBare c = true := by
  simp [isBare, hc]

theorem isBare_of_isDigit (hc : c.isDigit = true) : isBare c = true := by
  simp [isBare, hc]

theorem Gap.bare (gap : Gap cs) : ∀ c ∈ cs, isBare c = true :=
  fun c hc => isBare_of_isSpace (gap c hc)

theorem Digits.bare (digits : Digits cs) : ∀ c ∈ cs, isBare c = true :=
  fun c hc => isBare_of_isDigit (digits.digit c hc)

theorem WholePart.bare (whole : WholePart cs) : ∀ c ∈ cs, isBare c = true := by
  cases whole with
  | zero => exact List.forall_mem_singleton.2 (by decide)
  | digits digits _ => exact digits.bare

theorem FractionPart.bare (fraction : FractionPart ds cs) : ∀ c ∈ cs, isBare c = true := by
  cases fraction with
  | none => exact fun c hc => absurd hc List.not_mem_nil
  | digits digits => exact List.forall_mem_cons.2 ⟨by decide, digits.bare⟩

theorem SignPart.bare {sign : Int} (h : SignPart sign cs) : ∀ c ∈ cs, isBare c = true := by
  cases h with
  | none => exact fun c hc => absurd hc List.not_mem_nil
  | plus => exact List.forall_mem_singleton.2 (by decide)
  | minus => exact List.forall_mem_singleton.2 (by decide)

theorem ExponentPart.bare {x : Int} (exponent : ExponentPart x cs) : ∀ c ∈ cs, isBare c = true := by
  cases exponent with
  | none => exact fun c hc => absurd hc List.not_mem_nil
  | digits letter sign digits =>
    refine List.forall_mem_cons.2 ⟨?_, List.forall_mem_append.2 ⟨sign.bare, digits.bare⟩⟩
    rcases letter with rfl | rfl <;> decide

theorem Magnitude.bare {bounded negative : Bool} (number : Magnitude bounded negative v w) :
    ∀ c ∈ w, isBare c = true := by
  cases number with
  | int whole _ => exact whole.bare
  | real whole fraction exponent _ =>
    exact List.forall_mem_append.2 ⟨List.forall_mem_append.2 ⟨whole.bare, fraction.bare⟩, exponent.bare⟩

theorem Numeral.bare {bounded : Bool} (number : Numeral bounded v w) : ∀ c ∈ w, isBare c = true := by
  cases number with
  | plain number => exact number.bare
  | negative number => exact List.forall_mem_cons.2 ⟨by decide, number.bare⟩

theorem bare_of_word (h : (w, v) ∈ words) : ∀ c ∈ w, isBare c = true := by
  simp only [words, List.mem_cons, List.not_mem_nil, or_false, Prod.mk.injEq] at h
  rcases h with ⟨rfl, -⟩ | ⟨rfl, -⟩ | ⟨rfl, -⟩ | ⟨rfl, -⟩ | ⟨rfl, -⟩ | ⟨rfl, -⟩ <;>
    exact List.all_eq_true.1 (by decide)

/-- A digit of base sixteen stands within the quotes for itself. -/
theorem step_of_hexValue (h : (Text.hexValue? c).isSome = true) : within.step c = some within := by
  have visible : 48 ≤ c.toNat := by
    unfold Text.hexValue? at h
    simp only [Bool.and_eq_true, decide_eq_true_eq] at h
    split at h
    · next hc => exact hc.1
    · split at h
      · next hc => exact Nat.le_trans (by decide) hc.1
      · split at h
        · next hc => exact Nat.le_trans (by decide) hc.1
        · cases h
  have ne {d : Char} (hd : Text.hexValue? d = none) : c ≠ d := by
    rintro rfl
    rw [hd] at h
    cases h
  exact step_within_of_plain (ne (by decide)) (ne (by decide)) (Nat.le_trans (by decide) visible)

theorem after_unit {a b c d : Char} {n : Nat} (h : codeUnit? a b c d = some n) (cs : List Char) :
    within.after ('\\' :: 'u' :: a :: b :: c :: d :: cs) = within.after cs := by
  obtain ⟨ha, hb, hc, hd⟩ : (Text.hexValue? a).isSome ∧ (Text.hexValue? b).isSome ∧ (Text.hexValue? c).isSome ∧
      (Text.hexValue? d).isSome := by
    obtain ⟨_, ha, h⟩ := Option.bind_eq_some_iff.1 h
    obtain ⟨_, hb, h⟩ := Option.bind_eq_some_iff.1 h
    obtain ⟨_, hc, h⟩ := Option.bind_eq_some_iff.1 h
    obtain ⟨_, hd, -⟩ := Option.bind_eq_some_iff.1 h
    simp [ha, hb, hc, hd]
  have backslash : within.step '\\' = some escaped := rfl
  have letter : escaped.step 'u' = some within := rfl
  rw [after_cons_of_step backslash, after_cons_of_step letter, after_cons_of_step (step_of_hexValue ha),
    after_cons_of_step (step_of_hexValue hb), after_cons_of_step (step_of_hexValue hc),
    after_cons_of_step (step_of_hexValue hd)]

/-- What stands between quotes does not lead out of them. -/
theorem SpellsChars.zone {s : List Char} (h : SpellsChars s cs) : within.after cs = some within := by
  induction h with
  | nil => rfl
  | plain hquote hslash visible _ ih =>
    rw [after_cons_of_step (step_within_of_plain hquote hslash visible), ih]
  | @short e c s cs he _ ih =>
    have backslash : within.step '\\' = some escaped := rfl
    have letter : escaped.step e = some within := by simp [step, he]
    rw [after_cons_of_step backslash, after_cons_of_step letter, ih]
  | unit hn _ _ ih => rw [after_unit hn, ih]
  | pair hn _ hm _ _ ih => rw [after_unit hn, after_unit hm, ih]

/-- What stands between quotes, with the quotes around it. -/
theorem SpellsChars.zone_quoted {s : List Char} (h : SpellsChars s cs) (ds : List Char) :
    outside.after ('"' :: cs ++ '"' :: ds) = outside.after ds := by
  have opening : outside.step '"' = some within := rfl
  have closing : within.step '"' = some outside := rfl
  rw [List.cons_append, after_cons_of_step opening, after_append_of_after h.zone, after_cons_of_step closing]

/-- What begins and ends outside of the quotes, between characters that can stand there. -/
theorem zone_bracketed {d : Char} (hc : isBare c = true) (hd : isBare d = true) (h : outside.after w = some outside) :
    outside.after (c :: w ++ [d]) = some outside := by
  rw [List.cons_append, after_cons_of_step (step_outside_of_isBare hc), after_append_of_after h,
    after_cons_of_step (step_outside_of_isBare hd), after_nil]

/-! ## Values -/

mutual

/-- The text of a value begins and ends outside of the quotes. -/
theorem Spells.zone {room : Option Nat} {v : Value} {w : List Char} (h : Spells room v w) :
    outside.after w = some outside := by
  match h with
  | .word h => exact outside_of_bare (bare_of_word h)
  | .number number => exact outside_of_bare number.bare
  | .text chars => exact chars.zone_quoted []
  | .emptyList _ gap => exact zone_bracketed (by decide) (by decide) (outside_of_bare gap.bare)
  | .list _ items => exact zone_bracketed (by decide) (by decide) items.zone
  | .emptyTable _ gap => exact zone_bracketed (by decide) (by decide) (outside_of_bare gap.bare)
  | .table _ members => exact zone_bracketed (by decide) (by decide) members.zone

theorem SpellsPadded.zone {room : Option Nat} {v : Value} {w : List Char} (h : SpellsPadded room v w) :
    outside.after w = some outside := by
  match h with
  | .padded gap value gap' =>
    rw [List.append_assoc, after_append_of_after (outside_of_bare gap.bare), after_append_of_after value.zone]
    exact outside_of_bare gap'.bare

theorem SpellsItems.zone {room : Option Nat} {vs : List Value} {w : List Char} (h : SpellsItems room vs w) :
    outside.after w = some outside := by
  match h with
  | .last value => exact value.zone
  | .more value items =>
    rw [after_append_of_after value.zone, after_cons_of_step (step_outside_of_isBare (by decide))]
    exact items.zone

theorem SpellsMember.zone {room : Option Nat} {m : String × Value} {w : List Char} (h : SpellsMember room m w) :
    outside.after w = some outside := by
  match h with
  | .named gap chars gap' value =>
    rw [List.append_assoc, List.append_assoc, after_append_of_after (outside_of_bare gap.bare)]
    refine (chars.zone_quoted _).trans ?_
    rw [List.append_eq, after_append_of_after (outside_of_bare gap'.bare),
      after_cons_of_step (step_outside_of_isBare (by decide))]
    exact value.zone

theorem SpellsMembers.zone {room : Option Nat} {ms : List (String × Value)} {w : List Char}
    (h : SpellsMembers room ms w) : outside.after w = some outside := by
  match h with
  | .last member => exact member.zone
  | .more member members =>
    rw [after_append_of_after member.zone, after_cons_of_step (step_outside_of_isBare (by decide))]
    exact members.zone

end

/-! ## Cut within quotes -/

/-- What leads somewhere from both sides of a quote consists of quotes and of characters that can stand outside. -/
theorem isBare_or_quote_of_both {a b : Zone} (ha : outside.after cs = some a) (hb : within.after cs = some b) :
    ∀ c ∈ cs, isBare c = true ∨ c = '"' := by
  induction cs generalizing a b with
  | nil => exact fun c hc => absurd hc List.not_mem_nil
  | cons d cs ih =>
    rw [after_cons] at ha hb
    obtain ⟨y, hy, ha⟩ := Option.bind_eq_some_iff.1 ha
    obtain ⟨z, hz, hb⟩ := Option.bind_eq_some_iff.1 hb
    rw [List.forall_mem_cons]
    by_cases hquote : d = '"'
    · subst hquote
      cases hy
      cases hz
      exact ⟨.inr rfl, ih hb ha⟩
    · simp only [step, beq_iff_eq, hquote, if_false] at hy hz
      split at hy
      · next hbare =>
        have hslash : d ≠ '\\' := by
          rintro rfl
          exact absurd hbare (by decide)
        rw [if_neg hslash] at hz
        split at hz
        · cases hz
        · cases hy
          cases hz
          exact ⟨.inl hbare, ih ha hb⟩
      · cases hy

/-- The characters of a text between quotes are its own, unless there is a backslash. -/
theorem SpellsChars.mem_or_backslash {s : List Char} (h : SpellsChars s cs) : (∀ c ∈ s, c ∈ cs) ∨ '\\' ∈ cs := by
  induction h with
  | nil => exact .inl fun c hc => absurd hc List.not_mem_nil
  | @plain c s cs _ _ _ _ ih =>
    rcases ih with ih | ih
    · exact .inl (List.forall_mem_cons.2 ⟨List.mem_cons_self, fun d hd => List.mem_cons_of_mem c (ih d hd)⟩)
    · exact .inr (List.mem_cons_of_mem c ih)
  | short _ _ _ => exact .inr List.mem_cons_self
  | unit _ _ _ _ => exact .inr List.mem_cons_self
  | pair _ _ _ _ _ _ => exact .inr List.mem_cons_self

/-- The name of a member is spelled in the text of the members. -/
theorem SpellsMembers.name_spelled {room : Option Nat} {ms : List (String × Value)} {w : List Char}
    (h : SpellsMembers room ms w) : ∀ m ∈ ms, ∃ cs, SpellsChars m.1.toList cs ∧ cs ⊆ w := by
  have member {room : Option Nat} {m : String × Value} {w : List Char} (h : SpellsMember room m w) :
      ∃ cs, SpellsChars m.1.toList cs ∧ cs ⊆ w := by
    cases h with
    | named _ chars _ _ => exact ⟨_, chars, fun c hc => by simp [hc]⟩
  match h with
  | .last h =>
    intro m hm
    obtain rfl := List.mem_singleton.1 hm
    exact member h
  | .more h hs =>
    intro m hm
    rcases List.mem_cons.1 hm with rfl | hm
    · obtain ⟨cs, chars, sub⟩ := member h
      exact ⟨cs, chars, fun c hc => List.mem_append_left _ (sub hc)⟩
    · obtain ⟨cs, chars, sub⟩ := hs.name_spelled m hm
      exact ⟨cs, chars, fun c hc => List.mem_append_right _ (List.mem_cons_of_mem _ (sub hc))⟩

/-- A table whose text leads somewhere from within quotes has no field whose name holds another character than quotes
and those that can stand outside. -/
theorem lookup_eq_none_of_within {fields : Fields} {b : Zone} {name : String} (h : SpellsPadded room (.table fields) w)
    (hb : within.after w = some b) (hname : ∃ c ∈ name.toList, isBare c = false ∧ c ≠ '"') :
    fields.lookup name = none := by
  have both := isBare_or_quote_of_both h.zone hb
  obtain ⟨c, hc, hbare, hquote⟩ := hname
  generalize hv : Value.table fields = v at h
  cases h with
  | @padded _ v g w g' gap value gap' =>
    have sub {cs : List Char} (hcs : cs ⊆ w) : ∀ c ∈ cs, isBare c = true ∨ c = '"' := by
      intro c hc
      exact both c (by simp [hcs hc])
    subst hv
    generalize hv : Value.table fields = v at value
    cases value with
    | word h => subst hv; simp [words] at h
    | number number => rcases number.kind with ⟨_, h⟩ | ⟨_, h⟩ <;> cases hv.trans h
    | text _ => cases hv
    | emptyList _ _ => cases hv
    | list _ _ => cases hv
    | emptyTable _ _ =>
      obtain rfl := Value.table.inj hv
      rfl
    | @table _ ms cs _ members =>
      obtain rfl := Value.table.inj hv
      have absent : name ∉ ms.map Prod.fst := by
        intro hmem
        obtain ⟨m, hm, rfl⟩ := List.mem_map.1 hmem
        obtain ⟨ds, chars, hds⟩ := members.name_spelled m hm
        have plain : ∀ d ∈ ds, isBare d = true ∨ d = '"' :=
          sub fun d hd => List.mem_append_left _ (List.mem_cons_of_mem _ (hds hd))
        rcases chars.mem_or_backslash with own | slash
        · rcases plain c (own c hc) with h | h
          · rw [hbare] at h
            cases h
          · exact hquote h
        · exact absurd (plain _ slash) (by decide)
      exact lookup_foldl_insert absent []

end Json

/-! ## Cutting at breaks -/

namespace Json.Zone

variable {z z' : Zone} {c : Char} {cs line : List Char}

/-- The code points of the characters that end a line, but for the line feed and the carriage return. -/
def breakPoints : List Nat :=
  [11, 12, 0x1c, 0x1d, 0x1e, 0x85, 0x2028, 0x2029]

theorem mem_breakPoints (h : Text.isLineBreak c = true) (hfeed : c ≠ '\n') (hreturn : c ≠ '\r') :
    c.toNat ∈ breakPoints := by
  have ne {d : Char} (hd : c ≠ d) : c.toNat ≠ d.toNat := fun h => hd (Char.toNat_inj.1 h)
  have hfeed := ne hfeed
  have hreturn := ne hreturn
  have ten : '\n'.toNat = 10 := rfl
  have thirteen : '\r'.toNat = 13 := rfl
  simp only [Text.isLineBreak, Bool.or_eq_true, Bool.and_eq_true, decide_eq_true_eq, beq_iff_eq] at h
  simp only [breakPoints, List.mem_cons, List.not_mem_nil, or_false]
  omega

/-- What ends a line in some script stands within the quotes. -/
theorem within_of_break (hstep : z.step c = some z') (h : Text.isLineBreak c = true) (hfeed : c ≠ '\n')
    (hreturn : c ≠ '\r') : z = within ∧ z' = within := by
  have points : ∀ n ∈ breakPoints, outside.step (Char.ofNat n) = none ∧ escaped.step (Char.ofNat n) = none ∧
      (within.step (Char.ofNat n) = none ∨ within.step (Char.ofNat n) = some within) := by decide +kernel
  have hc := points c.toNat (mem_breakPoints h hfeed hreturn)
  rw [Char.ofNat_toNat] at hc
  cases z with
  | outside => simp [hc.1] at hstep
  | escaped => simp [hc.2.1] at hstep
  | within =>
    rcases hc.2.2 with h | h
    · simp [h] at hstep
    · exact ⟨rfl, (Option.some.inj (hstep.symm.trans h))⟩

/-- Of ASCII characters those that end a line cannot stand anywhere. -/
theorem unbroken_of_ascii {b : Zone} (hfeed : '\n' ∉ cs) (hreturn : '\r' ∉ cs) (ascii : ∀ c ∈ cs, c.toNat < 0x80)
    (hcs : z.after cs = some b) : ∀ c ∈ cs, Text.isLineBreak c = false := by
  induction cs generalizing z with
  | nil => exact fun c hc => absurd hc List.not_mem_nil
  | cons c cs ih =>
    rw [List.mem_cons, not_or] at hfeed hreturn
    rw [List.forall_mem_cons] at ascii ⊢
    rw [after_cons] at hcs
    obtain ⟨z', hstep, hcs⟩ := Option.bind_eq_some_iff.1 hcs
    refine ⟨?_, ih hfeed.2 hreturn.2 ascii.2 hcs⟩
    rw [Bool.eq_false_iff]
    intro hbreak
    obtain ⟨rfl, rfl⟩ := within_of_break hstep hbreak (Ne.symm hfeed.1) (Ne.symm hreturn.1)
    have refused : ∀ n ∈ breakPoints, n < 0x80 → within.step (Char.ofNat n) = none := by decide +kernel
    have hnone := refused c.toNat (mem_breakPoints hbreak (Ne.symm hfeed.1) (Ne.symm hreturn.1)) ascii.1
    rw [Char.ofNat_toNat, hstep] at hnone
    cases hnone

/-- What stands behind a break is read from within the quotes on. -/
theorem within_of_mem_breakLines {b : Zone} (hfeed : '\n' ∉ cs) (hreturn : '\r' ∉ cs)
    (hline : within.after line.reverse = some z) (hcs : z.after cs = some b) :
    ∀ piece ∈ Text.breakLinesFrom cs line, ∃ z, within.after piece.toList = some z := by
  induction cs generalizing z line with
  | nil =>
    intro piece hpiece
    cases line with
    | nil => cases hpiece
    | cons c line =>
      obtain rfl := List.mem_singleton.1 hpiece
      exact ⟨z, by rw [String.toList_ofList, hline]⟩
  | cons c cs ih =>
    rw [List.mem_cons, not_or] at hfeed hreturn
    rw [after_cons] at hcs
    obtain ⟨z', hstep, hcs⟩ := Option.bind_eq_some_iff.1 hcs
    rw [Text.breakLinesFrom_cons (Ne.symm hreturn.1)]
    split
    · next hbreak =>
      obtain ⟨rfl, rfl⟩ := within_of_break hstep hbreak (Ne.symm hfeed.1) (Ne.symm hreturn.1)
      rw [List.forall_mem_cons]
      exact ⟨⟨_, by rw [String.toList_ofList, hline]⟩, ih hfeed.2 hreturn.2 rfl hcs⟩
    · apply ih hfeed.2 hreturn.2 _ hcs
      rw [List.reverse_cons, after_append_of_after hline, after_cons_of_step hstep, after_nil]

/-- A piece of a text that is cut: it ends within the quotes, or is read from within them on. -/
def Misplaced (cs : List Char) : Prop :=
  outside.after cs = some within ∨ ∃ z, within.after cs = some z

/-- Where a text that makes sense is cut, no piece of it is left in its place. -/
theorem misplaced_of_mem_breakLines {b : Zone} (hfeed : '\n' ∉ cs) (hreturn : '\r' ∉ cs)
    (hline : outside.after line.reverse = some z) (hcs : z.after cs = some b)
    (cut : ∃ c ∈ cs, Text.isLineBreak c = true) :
    ∀ piece ∈ Text.breakLinesFrom cs line, Misplaced piece.toList := by
  -- the first break ends the first piece, and all others begin behind it
  obtain ⟨c, hfirst⟩ := Option.isSome_iff_exists.1 (List.find?_isSome.2 cut)
  obtain ⟨hbreak, ds, es, rfl, before⟩ := List.find?_eq_some_iff_append.1 hfirst
  have unbroken : ∀ d ∈ ds, Text.isLineBreak d = false := fun d hd => by simpa using before d hd
  simp only [List.mem_append, List.mem_cons, not_or] at hfeed hreturn
  rw [after_append] at hcs
  obtain ⟨_, hds, hcs⟩ := Option.bind_eq_some_iff.1 hcs
  rw [after_cons] at hcs
  obtain ⟨_, hstep, hcs⟩ := Option.bind_eq_some_iff.1 hcs
  obtain ⟨rfl, rfl⟩ := within_of_break hstep hbreak (Ne.symm hfeed.2.1) (Ne.symm hreturn.2.1)
  rw [Text.breakLinesFrom_append_of_unbroken unbroken, Text.breakLinesFrom_cons (Ne.symm hreturn.2.1), if_pos hbreak,
    List.forall_mem_cons]
  constructor
  · left
    rw [String.toList_ofList, List.reverse_append, List.reverse_reverse, after_append_of_after hline, hds]
  · intro piece hpiece
    exact .inr (within_of_mem_breakLines hfeed.2.2 hreturn.2.2 rfl hcs piece hpiece)

/-- Without a quote one stays outside. -/
theorem eq_outside_of_quoteless (quoteless : '"' ∉ cs) (h : outside.after cs = some z) : z = outside := by
  induction cs with
  | nil => exact (Option.some.inj h).symm
  | cons c cs ih =>
    rw [List.mem_cons, not_or] at quoteless
    rw [after_cons] at h
    obtain ⟨y, hy, h⟩ := Option.bind_eq_some_iff.1 h
    simp only [step, beq_iff_eq, Ne.symm quoteless.1, if_false] at hy
    split at hy
    · cases hy
      exact ih quoteless.2 h
    · cases hy

/-- Without a quote and a backslash one stays within the quotes. -/
theorem eq_within_of_quoteless (quoteless : '"' ∉ cs) (slashless : '\\' ∉ cs) (h : within.after cs = some z) :
    z = within := by
  induction cs with
  | nil => exact (Option.some.inj h).symm
  | cons c cs ih =>
    rw [List.mem_cons, not_or] at quoteless slashless
    rw [after_cons] at h
    obtain ⟨y, hy, h⟩ := Option.bind_eq_some_iff.1 h
    simp only [step, beq_iff_eq, Ne.symm quoteless.1, Ne.symm slashless.1, if_false] at hy
    split at hy
    · cases hy
    · cases hy
      exact ih quoteless.2 slashless.2 h

end Json.Zone

end FixGate
