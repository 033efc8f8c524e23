import FixGate.Text.Integer
import Mathlib.Data.List.TakeWhile

/-!
# Words that look like numbers

A word of characters that look like digits denotes an integer only if each of them is a decimal digit, and
there are not too many of them. So the two tests on a word, that it looks like a number and that it is one, do
not coincide.

* `Text.looksDigit_spec` : what a character that looks like a digit is not
* `Text.exists_readInteger_iff` : the words that look like numbers and are
-/

namespace FixGate.Text

variable {c : Char} {cs read : List Char} {s : String}

/-- The code points of blanks. -/
def blankPoints : List Nat :=
  [9, 10, 11, 12, 13, 0x1c, 0x1d, 0x1e, 0x1f, 0x20, 0x85, 0xa0, 0x1680, 0x2000, 0x2001, 0x2002, 0x2003, 0x2004,
    0x2005, 0x2006, 0x2007, 0x2008, 0x2009, 0x200a, 0x2028, 0x2029, 0x202f, 0x205f, 0x3000]

theorem mem_blankPoints_of_isBlank (blank : isBlank c = true) : c.toNat ∈ blankPoints := by
  simp only [isBlank, Bool.or_eq_true, Bool.and_eq_true, decide_eq_true_eq, beq_iff_eq] at blank
  simp only [blankPoints, List.mem_cons, List.not_mem_nil, or_false]
  omega

/-- A character that looks like a digit is no blank. -/
theorem not_isBlank_of_looksDigit (looks : looksDigit c = true) : isBlank c = false := by
  have none_ : ∀ n ∈ blankPoints, looksDigit (Char.ofNat n) = false := by decide +kernel
  rw [Bool.eq_false_iff]
  intro blank
  have := none_ c.toNat (mem_blankPoints_of_isBlank blank)
  rw [Char.ofNat_toNat, looks] at this
  cases this

/-- Nothing is cut from the ends of characters that look like digits. -/
theorem stripNumber_eq_self (looks : ∀ c ∈ cs, looksDigit c = true) : stripNumber cs = cs := by
  have kept (ds : List Char) (hd : ∀ c ∈ ds, looksDigit c = true) : ds.dropWhile isNumberBlank = ds := by
    cases ds with
    | nil => rfl
    | cons d ds =>
      have : isNumberBlank d = false := by
        rw [isNumberBlank, not_isBlank_of_looksDigit (hd d List.mem_cons_self), Bool.false_and]
      rw [List.dropWhile_cons_of_neg (by rw [this]; exact Bool.false_ne_true)]
  unfold stripNumber dropRightWhile
  rw [kept cs looks, kept cs.reverse fun c hc => looks c (List.mem_reverse.1 hc), List.reverse_reverse]

/-- The digits at the start of characters that look like digits are the decimal ones. -/
theorem digitsFrom_eq (looks : ∀ c ∈ cs, looksDigit c = true) (read : List Char) :
    digitsFrom read false cs = some (read.reverse ++ cs.takeWhile isDecimal, cs.dropWhile isDecimal) := by
  induction cs generalizing read with
  | nil => simp [digitsFrom]
  | cons c cs ih =>
    have hbar : (c == '_') = false := by
      rw [Bool.eq_false_iff]
      intro h
      have hc := looks c List.mem_cons_self
      rw [beq_iff_eq.1 h] at hc
      exact absurd hc (by decide)
    rw [digitsFrom, hbar, if_neg Bool.false_ne_true]
    by_cases hdecimal : isDecimal c = true
    · rw [if_pos hdecimal, ih fun d hd => looks d (List.mem_cons_of_mem c hd),
        List.takeWhile_cons_of_pos hdecimal, List.dropWhile_cons_of_pos hdecimal, List.reverse_cons,
        List.append_assoc, List.singleton_append]
    · rw [if_neg hdecimal, if_neg Bool.false_ne_true, List.takeWhile_cons_of_neg hdecimal,
        List.dropWhile_cons_of_neg hdecimal, List.append_nil]

/-- Characters that look like digits denote a number exactly if all are decimal digits, and they are not too
many. -/
theorem exists_readNatural_iff (looks : ∀ c ∈ cs, looksDigit c = true) (filled : cs ≠ []) :
    (∃ n, readNatural cs = .ok n) ↔ (∀ c ∈ cs, isDecimal c = true) ∧ cs.length ≤ digitLimit := by
  have hdigits : digitsFrom [] false cs = some (cs.takeWhile isDecimal, cs.dropWhile isDecimal) :=
    digitsFrom_eq looks []
  unfold readNatural
  rw [hdigits]
  simp only [numberOf]
  constructor
  · rintro ⟨n, hn⟩
    split at hn
    · cases hn
    · next hmany =>
      cases hdrop : cs.dropWhile isDecimal with
      | nil =>
        rw [List.dropWhile_eq_nil_iff] at hdrop
        rw [List.takeWhile_eq_self_iff.2 hdrop, Nat.not_lt] at hmany
        exact ⟨hdrop, hmany⟩
      | cons d ds =>
        simp only [hdrop, List.isEmpty_cons, Bool.not_false, Bool.or_true, if_true] at hn
        cases hn
  · rintro ⟨decimal, hlength⟩
    refine ⟨readDigits cs, ?_⟩
    rw [List.takeWhile_eq_self_iff.2 decimal, List.dropWhile_eq_nil_iff.2 decimal,
      if_neg (Nat.not_lt.2 hlength)]
    simp only [List.isEmpty_eq_false_iff.2 filled, List.isEmpty_nil, Bool.not_true, Bool.or_false,
      Bool.false_eq_true, if_false]
    rfl

/-- A text of characters that look like digits denotes an integer exactly if all are decimal digits, and they
are not too many. -/
theorem exists_readInteger_iff (looks : ∀ c ∈ s.toList, looksDigit c = true) (filled : s.toList ≠ []) :
    (∃ n, readInteger s = .ok n) ↔ (∀ c ∈ s.toList, isDecimal c = true) ∧ s.toList.length ≤ digitLimit := by
  have map_iff {r : Except IntegerFault Nat} {f : Nat → Int} : (∃ n, r.map f = .ok n) ↔ ∃ n, r = .ok n := by
    cases r <;> simp [Except.map]
  rw [← exists_readNatural_iff looks filled]
  unfold readInteger
  rw [stripNumber_eq_self looks]
  -- A sign does not look like a digit, so the word is read as it stands.
  split
  · next cs hcs => exact absurd (looks '-' (hcs ▸ List.mem_cons_self)) (by decide)
  · next cs hcs => exact absurd (looks '+' (hcs ▸ List.mem_cons_self)) (by decide)
  · exact map_iff

end FixGate.Text
