import FixGate.Proofs.Json.Grammar

/-!
# Texts are read as the grammar has them

Between quotes, the reader takes each character for itself unless it begins an escape, and two escapes for the
halves of a pair for the pair. So each run of characters that stands for a text is read back as that text up to the
closing quote, whatever follows, and what is read is such a run.

* `readUnit_cases` : what an escape with four digits is read as
* `readText_of_spells` : what stands for a text is read back
* `exists_spells_of_readText` : what is read stood for the text
-/

namespace FixGate.Json

open Text

variable {a b c d e : Char} {s cs rest w : List Char} {n k m fuel opening : Nat} {x : String}

/-! ## Escapes with four digits -/

/-- The letter of an escape with four digits is that of no short one. -/
theorem ne_of_escaped (h : escaped? e = some c) : e ≠ 'u' := by
  rintro rfl
  cases h

/-- A text that is spelled and begins with an escape with four digits does so with four digits. -/
theorem exists_unit_of_spells (h : SpellsChars s ('\\' :: 'u' :: cs)) :
    ∃ a b c d rest n, cs = a :: b :: c :: d :: rest ∧ codeUnit? a b c d = some n := by
  cases h with
  | plain _ hne => exact absurd rfl hne
  | short h => exact absurd rfl (ne_of_escaped h)
  | unit hn => exact ⟨_, _, _, _, _, _, rfl, hn⟩
  | pair hn => exact ⟨_, _, _, _, _, _, rfl, hn⟩

/-- An escape with four digits, the last of a text or not, stands at the start of a text. -/
def BeginsUnit (cs : List Char) : Prop :=
  ∃ e f g h more, cs = '\\' :: 'u' :: e :: f :: g :: h :: more

/-- Four digits that do not end the text are read as their code unit, or as a pair with those of the next escape. -/
theorem readUnit_cons (a b c d y : Char) (ys : List Char) :
    readUnit (a :: b :: c :: d :: y :: ys) =
      match codeUnit? a b c d with
      | none => .error ⟨.codePoint, (y :: ys).length + 5⟩
      | some n =>
        match isHigh n, y :: ys with
        | true, '\\' :: 'u' :: e :: f :: g :: h :: more =>
          match more, codeUnit? e f g h with
          | [], _ => .ok (n, y :: ys)
          | _, none => .error ⟨.codePoint, more.length + 5⟩
          | more, some m => if isLow m then .ok (pairPoint n m, more) else .ok (n, y :: ys)
        | _, _ => .ok (n, y :: ys) := by
  simp only [readUnit]
  cases codeUnit? a b c d with
  | none => rfl
  | some n => rfl

/-- Four digits are read as their code unit if no other half of a pair can follow. -/
theorem readUnit_alone {y : Char} {ys : List Char} (hn : codeUnit? a b c d = some n)
    (alone : ¬ (isHigh n = true ∧ BeginsUnit (y :: ys))) :
    readUnit (a :: b :: c :: d :: y :: ys) = .ok (n, y :: ys) := by
  simp only [readUnit_cons, hn]
  split
  · next high heq => exact absurd ⟨high, _, _, _, _, _, heq⟩ alone
  · rfl

/-- The first half of a pair, with the escape behind it. -/
theorem readUnit_high {f g h y : Char} {ys : List Char} (hn : codeUnit? a b c d = some n)
    (high : isHigh n = true) :
    readUnit (a :: b :: c :: d :: '\\' :: 'u' :: e :: f :: g :: h :: y :: ys) =
      match codeUnit? e f g h with
      | none => .error ⟨.codePoint, (y :: ys).length + 5⟩
      | some m =>
        if isLow m then .ok (pairPoint n m, y :: ys)
        else .ok (n, '\\' :: 'u' :: e :: f :: g :: h :: y :: ys) := by
  simp only [readUnit_cons, hn, high]
  cases codeUnit? e f g h with
  | none => rfl
  | some m => rfl

/-- An escape for what is not followed by the other half of its pair is read as that. -/
theorem readUnit_unit (hn : codeUnit? a b c d = some n) (apart : ¬ (isHigh n = true ∧ BeginsLow cs))
    (hs : SpellsChars s cs) :
    readUnit (a :: b :: c :: d :: (cs ++ '"' :: rest)) = .ok (n, cs ++ '"' :: rest) := by
  obtain ⟨y, ys, hcut⟩ : ∃ y ys, cs ++ '"' :: rest = y :: ys := List.exists_cons_of_ne_nil (by simp)
  by_cases alone : isHigh n = true ∧ BeginsUnit (y :: ys)
  · obtain ⟨high, e, f, g, h, more, htail⟩ := alone
    -- what follows is an escape with four digits, and not one for the second half
    rw [← hcut] at htail
    rcases cs with _ | ⟨z, _ | ⟨z', cs⟩⟩
    · cases htail
    · cases htail
    · simp only [List.cons_append, List.cons.injEq] at htail
      obtain ⟨rfl, rfl, -⟩ := htail
      obtain ⟨a', b', c', d', tail, m, rfl, hm⟩ := exists_unit_of_spells hs
      have low : isLow m = false :=
        Bool.eq_false_iff.2 fun low => apart ⟨high, _, _, _, _, _, m, rfl, hm, low⟩
      obtain ⟨z, zs, hz⟩ : ∃ z zs, tail ++ '"' :: rest = z :: zs := List.exists_cons_of_ne_nil (by simp)
      simp only [List.cons_append, hz]
      rw [readUnit_high hn high, hm]
      simp [low]
  · rw [hcut]
    exact readUnit_alone hn alone

/-- The escapes for the halves of a pair are read as the pair. -/
theorem readUnit_pair {f g h : Char} (hn : codeUnit? a b c d = some n) (high : isHigh n = true)
    (hm : codeUnit? e f g h = some m) (low : isLow m = true) :
    readUnit (a :: b :: c :: d :: '\\' :: 'u' :: e :: f :: g :: h :: (cs ++ '"' :: rest)) =
      .ok (pairPoint n m, cs ++ '"' :: rest) := by
  obtain ⟨y, ys, hcut⟩ : ∃ y ys, cs ++ '"' :: rest = y :: ys := List.exists_cons_of_ne_nil (by simp)
  rw [hcut, readUnit_high hn high, hm]
  simp [low]

/-- What an escape with four digits is read as: the pair whose halves stand there, or else the unit. -/
theorem readUnit_cases (h : readUnit cs = .ok (n, rest)) :
    ∃ a b c d tail k, cs = a :: b :: c :: d :: tail ∧ codeUnit? a b c d = some k ∧
      ((n = k ∧ rest = tail ∧ ∀ w y ys, tail = w ++ y :: ys → ¬ (isHigh k = true ∧ BeginsLow w)) ∨
        (isHigh k = true ∧ ∃ e f g h m, tail = '\\' :: 'u' :: e :: f :: g :: h :: rest ∧
          codeUnit? e f g h = some m ∧ isLow m = true ∧ n = pairPoint k m)) := by
  obtain ⟨a, b, c, d, tail, rfl⟩ : ∃ a b c d tail, cs = a :: b :: c :: d :: tail := by
    unfold readUnit at h
    split at h
    · exact ⟨_, _, _, _, _, rfl⟩
    · cases h
  obtain ⟨y, ys, rfl⟩ : ∃ y ys, tail = y :: ys := by
    cases tail with
    | nil => cases h
    | cons y ys => exact ⟨y, ys, rfl⟩
  cases hk : codeUnit? a b c d with
  | none => simp [readUnit_cons, hk] at h
  | some k =>
    refine ⟨a, b, c, d, y :: ys, k, rfl, hk, ?_⟩
    by_cases alone : isHigh k = true ∧ BeginsUnit (y :: ys)
    · obtain ⟨high, e, f, g, h', more, htail⟩ := alone
      rw [htail] at h ⊢
      cases more with
      | nil =>
        -- nothing is left behind the escape, so no quote can close the text there
        simp only [readUnit_cons, hk, high] at h
        cases h
        refine .inl ⟨rfl, rfl, ?_⟩
        rintro _ z zs hcut ⟨-, _, _, _, _, _, _, rfl, -⟩
        simp at hcut
      | cons z zs =>
        rw [readUnit_high hk high] at h
        cases hm : codeUnit? e f g h' with
        | none =>
          rw [hm] at h
          cases h
        | some m =>
          simp only [hm] at h
          split at h
          · next low =>
            simp only [Except.ok.injEq, Prod.mk.injEq] at h
            obtain ⟨rfl, rfl⟩ := h
            exact .inr ⟨high, e, f, g, h', m, rfl, hm, low, rfl⟩
          · next low =>
            cases h
            refine .inl ⟨rfl, rfl, ?_⟩
            rintro _ x xs hcut ⟨-, _, _, _, _, _, m', rfl, hm', low'⟩
            simp only [List.cons_append, List.cons.injEq, true_and] at hcut
            obtain ⟨rfl, rfl, rfl, rfl, -⟩ := hcut
            rw [hm] at hm'
            cases hm'
            exact low low'
    · rw [readUnit_alone hk alone] at h
      cases h
      refine .inl ⟨rfl, rfl, ?_⟩
      rintro _ z zs hcut ⟨high, e, f, g, h', more, _, rfl, -⟩
      exact alone ⟨high, e, f, g, h', _, hcut⟩

/-! ## Texts -/

section Steps

variable {read : List Char}

/-- One step of reading a text. -/
theorem readChars_succ (opening fuel : Nat) (read : List Char) (c : Char) (cs : List Char) :
    readChars opening (fuel + 1) read (c :: cs) =
      if c == '"' then .ok (String.ofList read.reverse, cs)
      else if c == '\\' then
        match cs with
        | [] => .error ⟨.unterminated, opening⟩
        | 'u' :: rest => do
          let (n, rest) ← readUnit rest
          readChars opening fuel ((ofPoint n).reverse ++ read) rest
        | e :: rest =>
          match escaped? e with
          | some x => readChars opening fuel (x :: read) rest
          | none => .error ⟨.escape, cs.length + 1⟩
      else if c.toNat < 32 then .error ⟨.control, cs.length + 1⟩
      else readChars opening fuel (c :: read) cs := rfl

theorem readChars_plain (hquote : c ≠ '"') (hslash : c ≠ '\\') (visible : 32 ≤ c.toNat) :
    readChars opening (fuel + 1) read (c :: cs) = readChars opening fuel (c :: read) cs := by
  have hshown : ¬ c.toNat < 32 := Nat.not_lt.2 visible
  simp [readChars_succ, hquote, hslash, hshown]

theorem readChars_short (he : escaped? e = some c) :
    readChars opening (fuel + 1) read ('\\' :: e :: cs) = readChars opening fuel (c :: read) cs := by
  have hletter := ne_of_escaped he
  rw [readChars_succ]
  simp [he]

theorem readChars_unit (h : readUnit cs = .ok (n, rest)) :
    readChars opening (fuel + 1) read ('\\' :: 'u' :: cs) =
      readChars opening fuel ((ofPoint n).reverse ++ read) rest := by
  rw [readChars_succ]
  simp [h, bind, Except.bind]

/-- What one step of reading a text does with its next character. -/
theorem readChars_cases {r : String × List Char} (h : readChars opening (fuel + 1) read (c :: cs) = .ok r) :
    (c = '"' ∧ r = (String.ofList read.reverse, cs)) ∨
      (c ≠ '"' ∧ c ≠ '\\' ∧ 32 ≤ c.toNat ∧ readChars opening fuel (c :: read) cs = .ok r) ∨
      (∃ e x tail, c = '\\' ∧ cs = e :: tail ∧ escaped? e = some x ∧
        readChars opening fuel (x :: read) tail = .ok r) ∨
      (∃ tail n rest, c = '\\' ∧ cs = 'u' :: tail ∧ readUnit tail = .ok (n, rest) ∧
        readChars opening fuel ((ofPoint n).reverse ++ read) rest = .ok r) := by
  simp only [readChars_succ, beq_iff_eq] at h
  split at h
  · next hquote =>
    cases h
    exact .inl ⟨hquote, rfl⟩
  · next hquote =>
    split at h
    · next hslash =>
      split at h
      · cases h
      · next tail =>
        cases hunit : readUnit tail with
        | error f =>
          rw [hunit] at h
          cases h
        | ok u =>
          rw [hunit] at h
          exact .inr (.inr (.inr ⟨tail, u.1, u.2, hslash, rfl, hunit, h⟩))
      · next e tail _ =>
        split at h
        · next x hx => exact .inr (.inr (.inl ⟨e, x, tail, hslash, rfl, hx, h⟩))
        · cases h
    · next hslash =>
      split at h
      · cases h
      · next hshown => exact .inr (.inl ⟨hquote, hslash, Nat.not_lt.1 hshown, h⟩)

end Steps

/-- What stands for characters is read back as them, up to the closing quote. -/
theorem readChars_of_spells (h : SpellsChars s cs) (read : List Char) (enough : cs.length < fuel) :
    readChars opening fuel read (cs ++ '"' :: rest) = .ok (String.ofList (read.reverse ++ s), rest) := by
  induction h generalizing fuel read with
  | nil =>
    obtain ⟨fuel, rfl⟩ := Nat.exists_eq_add_of_lt enough
    rw [List.nil_append, readChars_succ, List.append_nil]
    rfl
  | @plain c s cs hquote hslash visible _ ih =>
    obtain ⟨fuel, rfl⟩ := Nat.exists_eq_add_of_lt enough
    rw [List.cons_append, readChars_plain hquote hslash visible, ih _ (by simp; omega)]
    simp
  | @short e c s cs he _ ih =>
    obtain ⟨fuel, rfl⟩ := Nat.exists_eq_add_of_lt enough
    rw [List.cons_append, List.cons_append, readChars_short he, ih _ (by simp; omega)]
    simp
  | @unit a b c d n s cs hn apart hs ih =>
    obtain ⟨fuel, rfl⟩ := Nat.exists_eq_add_of_lt enough
    simp only [List.cons_append]
    rw [readChars_unit (readUnit_unit hn apart hs), ih _ (by simp; omega)]
    simp
  | @pair a b c d e f g h n m s cs hn high hm low _ ih =>
    obtain ⟨fuel, rfl⟩ := Nat.exists_eq_add_of_lt enough
    simp only [List.cons_append]
    rw [readChars_unit (readUnit_pair hn high hm low), ih _ (by simp; omega)]
    simp

/-- What is read up to the closing quote stood for the characters. -/
theorem exists_spells_of_readChars {read : List Char} (h : readChars opening fuel read cs = .ok (x, rest)) :
    ∃ s w, cs = w ++ '"' :: rest ∧ SpellsChars s w ∧ x = String.ofList (read.reverse ++ s) := by
  induction fuel generalizing read cs with
  | zero => cases h
  | succ fuel ih =>
    cases cs with
    | nil => cases h
    | cons c cs =>
      rcases readChars_cases h with ⟨rfl, hr⟩ | ⟨hquote, hslash, visible, h⟩ | ⟨e, y, tail, rfl, rfl, he, h⟩ |
        ⟨tail, n, rest', rfl, rfl, hunit, h⟩
      · cases hr
        exact ⟨[], [], rfl, .nil, by simp⟩
      · obtain ⟨s, w, rfl, hs, rfl⟩ := ih h
        exact ⟨c :: s, c :: w, rfl, .plain hquote hslash visible hs, by simp⟩
      · obtain ⟨s, w, rfl, hs, rfl⟩ := ih h
        exact ⟨y :: s, '\\' :: e :: w, rfl, .short he hs, by simp⟩
      · obtain ⟨s, w, rfl, hs, rfl⟩ := ih h
        obtain ⟨a, b, c, d, tail, k, rfl, hk, hread⟩ := readUnit_cases hunit
        rcases hread with ⟨rfl, rfl, apart⟩ | ⟨high, e, f, g, h', m, rfl, hm, low, hpair⟩
        · exact ⟨ofPoint n ++ s, '\\' :: 'u' :: a :: b :: c :: d :: w, rfl, .unit hk (apart _ _ _ rfl) hs, by simp⟩
        · rw [hpair]
          exact ⟨ofPoint (pairPoint k m) ++ s,
            '\\' :: 'u' :: a :: b :: c :: d :: '\\' :: 'u' :: e :: f :: g :: h' :: w, rfl,
            .pair hk high hm low hs, by rw [List.reverse_append, List.reverse_reverse, List.append_assoc]⟩

theorem readText_of_spells (h : SpellsChars x.toList cs) : readText (cs ++ '"' :: rest) = .ok (x, rest) := by
  unfold readText
  rw [readChars_of_spells h [] (by rw [List.length_append, List.length_cons]; omega)]
  simp

theorem exists_spells_of_readText (h : readText cs = .ok (x, rest)) :
    ∃ w, cs = w ++ '"' :: rest ∧ SpellsChars x.toList w := by
  obtain ⟨s, w, hcut, hs, rfl⟩ := exists_spells_of_readChars h
  exact ⟨w, hcut, by simpa using hs⟩

end FixGate.Json
