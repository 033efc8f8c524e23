import FixGate.Proofs.Json.Grammar
import FixGate.Proofs.Text.Strip

/-!
# Numbers are read as the grammar has them

The reader of numbers takes as many characters as can belong to one. So it reads each text of a number back, as long
as no character follows that could go on with it, and what it reads is such a text. Only an integer with too many
digits is refused.

* `Ends` : nothing follows that could go on with a number
* `exists_magnitude_of_readMagnitude` : what is read is a text of the number
* `readMagnitude_of_magnitude` : a text of a number is read, or has too many digits
-/

namespace FixGate.Json

variable {bounded negative : Bool} {v : Value} {c : Char} {cs ds rest w : List Char} {n : Nat} {x : Int}

/-! ## Runs of digits -/

/-- A text does not begin with a digit. -/
def NoDigit (cs : List Char) : Prop :=
  ∀ c ∈ cs.head?, c.isDigit = false

theorem Digits.takeWhile_append (digits : Digits ds) (stop : NoDigit rest) :
    (ds ++ rest).takeWhile Char.isDigit = ds :=
  takeWhile_append_stop digits.digit stop

theorem Digits.dropWhile_append (digits : Digits ds) (stop : NoDigit rest) :
    (ds ++ rest).dropWhile Char.isDigit = rest :=
  dropWhile_append_stop digits.digit stop

/-- The digits at the start of a text are cut from it, if there are any. -/
theorem digits_takeWhile (h : cs.takeWhile Char.isDigit ≠ []) :
    Digits (cs.takeWhile Char.isDigit) ∧
      cs = cs.takeWhile Char.isDigit ++ cs.dropWhile Char.isDigit := by
  refine ⟨⟨h, fun c hc => List.mem_takeWhile_imp hc⟩, ?_⟩
  rw [List.takeWhile_append_dropWhile]

/-! ## The parts of a number -/

theorem exists_wholePart (h : wholeDigits cs = some (ds, rest)) : cs = ds ++ rest ∧ WholePart ds := by
  unfold wholeDigits at h
  split at h
  · cases h
    exact ⟨rfl, .zero⟩
  · next hzero =>
    split at h
    · cases h
    · next hne =>
      cases h
      obtain ⟨digits, hcut⟩ := digits_takeWhile hne
      refine ⟨hcut, ?_⟩
      cases htake : cs.takeWhile Char.isDigit with
      | nil => exact absurd htake hne
      | cons d ds =>
        rw [htake] at digits hcut
        exact .digits digits fun hd => hzero _ (by rw [hcut, hd]; rfl)

theorem wholeDigits_append (whole : WholePart ds) (stop : NoDigit rest) :
    wholeDigits (ds ++ rest) = some (ds, rest) := by
  cases whole with
  | zero => rfl
  | @digits d ds digits hd =>
    unfold wholeDigits
    split
    · next heq => exact absurd (List.cons.inj heq).1 hd
    · rw [digits.takeWhile_append stop, digits.dropWhile_append stop]

theorem exists_fractionPart (h : fractionDigits cs = some (ds, rest)) :
    cs = '.' :: ds ++ rest ∧ Digits ds := by
  unfold fractionDigits at h
  split at h
  · next cs =>
    split at h
    · cases h
    · next hne =>
      cases h
      obtain ⟨digits, hcut⟩ := digits_takeWhile hne
      exact ⟨congrArg ('.' :: ·) hcut, digits⟩
  · cases h

theorem fractionDigits_append {f : List Char} (fraction : FractionPart ds f) (stop : NoDigit rest)
    (point : ∀ c ∈ rest.head?, c ≠ '.') :
    fractionDigits (f ++ rest) = if f = [] then none else some (ds, rest) := by
  unfold fractionDigits
  cases fraction with
  | none =>
    rw [if_pos rfl, List.nil_append]
    split
    · exact absurd rfl (point _ rfl)
    · rfl
  | digits digits =>
    simp only [List.cons_append, digits.takeWhile_append stop, digits.dropWhile_append stop]
    cases hds : ds with
    | nil => exact absurd hds digits.ne_nil
    | cons d ds => rfl

theorem exists_exponentPart (h : exponentPart cs = some (x, rest)) :
    ∃ w, cs = w ++ rest ∧ ExponentPart x w ∧ w ≠ [] := by
  unfold exponentPart at h
  split at h
  · next e cs =>
    split at h
    · next he =>
      have letter : e = 'e' ∨ e = 'E' := by simpa using he
      -- the sign is one of two characters, or none
      have cut : ∃ sign s cs', cs = s ++ cs' ∧ SignPart sign s ∧ cs'.takeWhile Char.isDigit ≠ [] ∧
          x = sign * (Text.readDigits (cs'.takeWhile Char.isDigit) : Int) ∧ cs'.dropWhile Char.isDigit = rest := by
        split at h
        next sign cs' hsign =>
        split at h
        · cases h
        · next hne =>
          cases h
          split at hsign
          · cases hsign
            exact ⟨-1, ['-'], cs', rfl, .minus, hne, rfl, rfl⟩
          · cases hsign
            exact ⟨1, ['+'], cs', rfl, .plus, hne, rfl, rfl⟩
          · cases hsign
            exact ⟨1, [], cs, rfl, .none, hne, rfl, rfl⟩
      obtain ⟨sign, s, cs', rfl, hsign, hne, rfl, rfl⟩ := cut
      obtain ⟨digits, hcut⟩ := digits_takeWhile hne
      refine ⟨e :: s ++ cs'.takeWhile Char.isDigit, ?_, .digits letter hsign digits, by simp⟩
      rw [List.append_assoc, ← hcut]
      rfl
    · cases h
  · cases h

theorem exponentPart_append (exponent : ExponentPart x w) (stop : NoDigit rest)
    (letter : ∀ c ∈ rest.head?, c ≠ 'e' ∧ c ≠ 'E') :
    exponentPart (w ++ rest) = if w = [] then none else some (x, rest) := by
  cases exponent with
  | none =>
    cases rest with
    | nil => rfl
    | cons c rest =>
      obtain ⟨he, hE⟩ := letter c rfl
      simp [exponentPart, he, hE]
  | @digits e sign s ds letter hsign digits =>
    have he : (e == 'e' || e == 'E') = true := by simpa using letter
    have htake := digits.takeWhile_append stop
    have hdrop := digits.dropWhile_append stop
    obtain ⟨d, ds, rfl⟩ := List.exists_cons_of_ne_nil digits.ne_nil
    have hd : d.isDigit = true := digits.digit d List.mem_cons_self
    simp only [List.cons_append] at htake hdrop
    cases hsign with
    | plus => simp [exponentPart, he, htake, hdrop]
    | minus => simp [exponentPart, he, htake, hdrop]
    | none =>
      -- a digit is no sign
      have hminus : d ≠ '-' := by
        rintro rfl
        exact absurd hd (by decide)
      have hplus : d ≠ '+' := by
        rintro rfl
        exact absurd hd (by decide)
      simp [exponentPart, he, hminus, hplus, htake, hdrop]

/-- An exponent begins with its letter. -/
theorem ExponentPart.head (exponent : ExponentPart x w) (hc : c ∈ w.head?) : c = 'e' ∨ c = 'E' := by
  cases exponent with
  | none => cases hc
  | digits letter _ _ =>
    cases hc
    exact letter

/-! ## Numbers -/

/-- Nothing follows that could go on with a number. -/
def Ends (rest : List Char) : Prop :=
  ∀ c ∈ rest.head?, c.isDigit = false ∧ c ≠ '.' ∧ c ≠ 'e' ∧ c ≠ 'E'

theorem Ends.noDigit (ends : Ends rest) : NoDigit rest := fun c hc => (ends c hc).1

theorem readWhole_of_le (h : ds.length ≤ Text.digitLimit) :
    readWhole negative ds = .ok (.int (signedInt negative (Text.readDigits ds))) := by
  unfold readWhole Text.numberOf
  rw [if_neg (Nat.not_lt.2 h)]
  rfl

theorem readWhole_of_lt (h : Text.digitLimit < ds.length) :
    readWhole negative ds = .error (.digits ds.length) := by
  unfold readWhole Text.numberOf
  rw [if_pos h]

theorem Magnitude.of_bounded (number : Magnitude true negative v w) (bounded : Bool) :
    Magnitude bounded negative v w := by
  cases number with
  | int whole hlen => exact .int whole fun _ => hlen rfl
  | real whole fraction exponent hne => exact .real whole fraction exponent hne

/-- A number is written by digits, and then perhaps by a fraction or an exponent. -/
theorem Magnitude.digits (number : Magnitude bounded negative v w) :
    ∃ ds t, w = ds ++ t ∧ Digits ds ∧ ∀ c ∈ t.head?, c = '.' ∨ c = 'e' ∨ c = 'E' := by
  have of_whole {ds : List Char} (whole : WholePart ds) : Digits ds := by
    cases whole with
    | zero => exact ⟨by simp, by simp⟩
    | digits digits _ => exact digits
  cases number with
  | int whole _ => exact ⟨w, [], by simp, of_whole whole, by simp⟩
  | @real ds fs f es x whole fraction exponent hne =>
    refine ⟨ds, f ++ es, by simp, of_whole whole, fun c hc => ?_⟩
    cases fraction with
    | none => exact .inr (exponent.head hc)
    | digits _ =>
      obtain rfl : '.' = c := Option.some.inj hc
      exact .inl rfl

/-- What is read as a number is a text of that number. -/
theorem exists_magnitude_of_readMagnitude (h : readMagnitude negative cs = .ok (v, rest)) :
    ∃ w, cs = w ++ rest ∧ Magnitude true negative v w := by
  unfold readMagnitude at h
  split at h
  · cases h
  · next ds rest₁ hwhole =>
    obtain ⟨rfl, whole⟩ := exists_wholePart hwhole
    cases hf : fractionDigits rest₁ with
    | none =>
      cases he : exponentPart rest₁ with
      | none =>
        simp only [hf, he, Bool.false_eq_true, if_false] at h
        by_cases hlen : ds.length ≤ Text.digitLimit
        · rw [readWhole_of_le hlen] at h
          cases h
          exact ⟨ds, rfl, .int whole fun _ => hlen⟩
        · rw [readWhole_of_lt (Nat.lt_of_not_le hlen)] at h
          cases h
      | some r =>
        obtain ⟨w, rfl, exponent, hne⟩ := exists_exponentPart he
        simp only [hf, he, if_true] at h
        cases h
        refine ⟨ds ++ [] ++ w, by simp, ?_⟩
        exact .real (f := []) whole .none exponent (by simpa using hne)
    | some r =>
      obtain ⟨rfl, digits⟩ := exists_fractionPart hf
      cases he : exponentPart r.2 with
      | none =>
        simp only [hf, he, if_true] at h
        cases h
        refine ⟨ds ++ ('.' :: r.1) ++ [], by simp, ?_⟩
        exact .real whole (.digits digits) .none (by simp)
      | some r' =>
        obtain ⟨w, hcut, exponent, -⟩ := exists_exponentPart he
        simp only [hf, he, if_true] at h
        cases h
        refine ⟨ds ++ ('.' :: r.1) ++ w, by simp [hcut], ?_⟩
        exact .real whole (.digits digits) exponent (by simp)

/-- A text of a number is read, unless it is an integer with too many digits. -/
theorem readMagnitude_of_magnitude (number : Magnitude bounded negative v w) (ends : Ends rest) :
    readMagnitude negative (w ++ rest) = .ok (v, rest) ∨
      bounded = false ∧ ∃ n, readMagnitude negative (w ++ rest) = .error (.digits n) := by
  cases number with
  | int whole hlen =>
    have hfraction := fractionDigits_append .none ends.noDigit fun c hc => (ends c hc).2.1
    have hexponent := exponentPart_append .none ends.noDigit fun c hc => (ends c hc).2.2
    simp only [List.nil_append, if_true] at hfraction hexponent
    unfold readMagnitude
    simp only [wholeDigits_append whole ends.noDigit, hfraction, hexponent, Bool.false_eq_true, if_false]
    by_cases hdigits : w.length ≤ Text.digitLimit
    · rw [readWhole_of_le hdigits]
      exact .inl rfl
    · rw [readWhole_of_lt (Nat.lt_of_not_le hdigits)]
      exact .inr ⟨Bool.eq_false_iff.2 fun hb => hdigits (hlen hb), _, rfl⟩
  | @real ds fs f es x whole fraction exponent hne =>
    refine .inl ?_
    -- each part ends where the next begins, with a point or the letter of the exponent
    have hes : ∀ c ∈ (es ++ rest).head?, c.isDigit = false ∧ c ≠ '.' := by
      intro c hc
      by_cases hnil : es = []
      · rw [hnil] at hc
        exact ⟨(ends c hc).1, (ends c hc).2.1⟩
      · obtain ⟨e, es, rfl⟩ := List.exists_cons_of_ne_nil hnil
        have hfirst : c ∈ (e :: es).head? := hc
        rcases exponent.head hfirst with rfl | rfl
        · decide
        · decide
    have hf : NoDigit (f ++ (es ++ rest)) := by
      cases fraction with
      | none => exact fun c hc => (hes c hc).1
      | digits _ =>
        rintro _ ⟨⟩
        rfl
    have hfraction := fractionDigits_append fraction (fun c hc => (hes c hc).1) fun c hc => (hes c hc).2
    have hexponent := exponentPart_append exponent ends.noDigit fun c hc => (ends c hc).2.2
    unfold readMagnitude
    rw [List.append_assoc, List.append_assoc]
    simp only [wholeDigits_append whole hf, hfraction]
    by_cases hnil : es = []
    · subst hnil
      have hf : f ≠ [] := by simpa using hne
      cases exponent
      simp only [if_true, List.nil_append] at hexponent
      simp [hf, hexponent, signedReal]
    · rw [if_neg hnil] at hexponent
      by_cases hf : f = []
      · subst hf
        cases fraction
        simp [hexponent, signedReal]
      · simp [hf, hexponent, signedReal]

end FixGate.Json
