import FixGate.Proofs.Source.Heads
import FixGate.Source.Window
import Mathlib.Data.Nat.Find

/-!
# Where a function starts

The head of a function is meant to be the nearest line above that is written like one and does not begin with a
control word. The search differs in three ways. It takes a line for a control statement if its first name only begins
with the letters of a control word, as `double` does. At an opening brace alone on a line it takes the line above for
the head, be it a control statement. And it looks at that line even if it lies one line above all others that are
searched. Where none of this happens, the search finds the head.

* `Source.Nearest` : the nearest line above a line at which something holds
* `Source.IsHead` : a line that is the head of a function
* `Source.Shows`, `Source.searchUp_eq_some_iff` : what the search takes for a start, and what it finds
* `Source.StartsAtHead`, `Source.Misled` : the start that is meant, and the ways to another one
* `Source.starts_at_head_iff` : the start is the one that is meant exactly if the search is not misled
-/

namespace FixGate.Source

variable {lines : List (List Char)} {ctx : Context} {depth i j k s : Nat}

/-! ## The nearest line above -/

/-- The nearest line at or above a line, no further away than a depth, at which something holds. -/
structure Nearest (P : Nat → Prop) (depth i j : Nat) : Prop where
  le : j ≤ i
  close : i ≤ j + depth
  holds : P j
  clear : ∀ k, j < k → k ≤ i → ¬ P k

section Nearest

variable {P Q : Nat → Prop}

theorem Nearest.unique (hj : Nearest P depth i j) (hk : Nearest P depth i k) : j = k := by
  rcases Nat.lt_trichotomy j k with h | h | h
  · exact absurd hk.holds (hj.clear k h hk.le)
  · exact h
  · exact absurd hj.holds (hk.clear j h hj.le)

theorem nearest_self (depth : Nat) (holds : P i) : Nearest P depth i i :=
  ⟨Nat.le_refl i, Nat.le_add_right i depth, holds, fun _ hlt hle => absurd hlt (Nat.not_lt.2 hle)⟩

/-- Where something holds at one of the lines, there is a nearest one. -/
theorem exists_nearest (le : k ≤ i) (close : i ≤ k + depth) (holds : P k) : ∃ j, Nearest P depth i j := by
  classical
  have hk : k ≤ Nat.findGreatest P i := Nat.le_findGreatest le holds
  refine ⟨Nat.findGreatest P i, Nat.findGreatest_le i, by omega, Nat.findGreatest_spec le holds, ?_⟩
  intro n hlt hle hn
  exact absurd (Nat.le_findGreatest hle hn) (Nat.not_le.2 hlt)

/-- The nearest line of a kind is the nearest one of a narrower kind to which it belongs. -/
theorem Nearest.narrow (h : Nearest P depth i j) (hj : Q j) (sub : ∀ n, Q n → P n) : Nearest Q depth i j :=
  ⟨h.le, h.close, hj, fun n hlt hle hn => h.clear n hlt hle (sub n hn)⟩

/-- Where nothing holds at the line itself, the nearest one is the nearest one above the line before it. -/
theorem nearest_succ_iff (other : ¬ P (i + 1)) : Nearest P (depth + 1) (i + 1) j ↔ Nearest P depth i j := by
  constructor
  · intro h
    have hj : j ≠ i + 1 := fun hj => other (hj ▸ h.holds)
    have hle := h.le
    have hclose := h.close
    exact ⟨by omega, by omega, h.holds, fun n hlt hn => h.clear n hlt (by omega)⟩
  · intro h
    have hle := h.le
    have hclose := h.close
    refine ⟨by omega, by omega, h.holds, fun n hlt hn => ?_⟩
    rcases Nat.lt_or_eq_of_le hn with hn | rfl
    · exact h.clear n hlt (by omega)
    · exact other

end Nearest

/-! ## Heads, and what is taken for one -/

/-- A line without the blanks at its ends. -/
def textAt (lines : List (List Char)) (j : Nat) : List Char :=
  Text.stripChars (lines.getD j [])

/-- A text is the head of a function: it is no comment, it is written like a head, and its first name is no control
word. -/
structure IsHead (text : List Char) : Prop where
  filled : text ≠ []
  code : isComment text = false
  form : HeadForm text
  name : String.ofList (leadingName text) ∉ controlWords

/-- What the search takes for the start of a function at a line: the line itself, which is written like a head and
does not start like a control statement, or the line above an opening brace, which is written like a head. -/
inductive Shows (lines : List (List Char)) : Nat → Nat → Prop
  | head {j : Nat} : HeadForm (textAt lines j) → (∀ w ∈ controlWords, ¬ w.toList <+: leadingName (textAt lines j)) →
      Shows lines j j
  | brace {s : Nat} : textAt lines (s + 1) = ['\x7b'] → HeadForm (textAt lines s) → Shows lines (s + 1) s

theorem not_headForm_brace : ¬ HeadForm ['\x7b'] := by
  rw [← isSignature_iff]
  decide

theorem startAt_eq_some_iff : startAt lines j = some s ↔ Shows lines j s := by
  have hfirst : startsLikeControl (textAt lines j) = false ↔
      ∀ w ∈ controlWords, ¬ w.toList <+: leadingName (textAt lines j) := by
    rw [Bool.eq_false_iff, ne_eq, startsLikeControl_iff]
    simp
  have hstart : startAt lines j =
      if (textAt lines j).isEmpty || isComment (textAt lines j) then none
      else if isControl (textAt lines j) then none
      else if isSignature (textAt lines j) && !startsLikeControl (textAt lines j) then some j
      else if textAt lines j == ['\x7b'] && 0 < j && isSignature (textAt lines (j - 1)) then some (j - 1)
      else none := rfl
  rw [hstart]
  constructor
  · intro h
    split_ifs at h with hskip hcontrol hhead hbrace
    · cases h
      rw [Bool.and_eq_true, Bool.not_eq_true', hfirst, isSignature_iff] at hhead
      exact .head hhead.1 hhead.2
    · cases h
      simp only [Bool.and_eq_true, beq_iff_eq, decide_eq_true_eq, isSignature_iff] at hbrace
      obtain ⟨⟨htext, hpos⟩, hform⟩ := hbrace
      obtain ⟨s, rfl⟩ := Nat.exists_eq_add_one.2 hpos
      exact .brace htext hform
  · intro h
    cases h with
    | head hform hname =>
      have hfilled : (textAt lines j).isEmpty = false := by
        obtain ⟨c, rest, htext, -⟩ := exists_first_of_headForm hform
        rw [htext]
        rfl
      simp [hfilled, not_isComment_of_headForm hform, not_isControl_of_headForm hform, isSignature_iff.2 hform,
        hfirst.2 hname]
    | brace htext hform =>
      have hcontrol : isControl ['\x7b'] = false := by decide +kernel
      have hsignature : isSignature ['\x7b'] = false := by decide
      have hcomment : isComment ['\x7b'] = false := by decide
      simp [htext, hcontrol, hsignature, hcomment, isSignature_iff.2 hform]

/-! ## What the search finds -/

/-- The search takes the line for a start, or the one above it. -/
def Shown (lines : List (List Char)) (j : Nat) : Prop :=
  ∃ s, Shows lines j s

theorem startAt_eq_none_iff : startAt lines j = none ↔ ¬ Shown lines j := by
  rw [Option.eq_none_iff_forall_ne_some]
  simp only [ne_eq, startAt_eq_some_iff, Shown, not_exists]

/-- The search finds what the nearest line shows that shows a start. -/
theorem searchUp_eq_some_iff :
    searchUp lines i depth = some s ↔ ∃ j, Nearest (Shown lines) depth i j ∧ Shows lines j s := by
  induction depth generalizing i with
  | zero =>
    rw [searchUp, startAt_eq_some_iff]
    constructor
    · exact fun hs => ⟨i, nearest_self 0 ⟨s, hs⟩, hs⟩
    · rintro ⟨j, hj, hs⟩
      obtain rfl : j = i := Nat.le_antisymm hj.le hj.close
      exact hs
  | succ depth ih =>
    rw [searchUp]
    cases hstart : startAt lines i with
    | none =>
      have unshown : ¬ Shown lines i := startAt_eq_none_iff.1 hstart
      cases i with
      | zero =>
        refine ⟨fun h => absurd h (by simp), ?_⟩
        rintro ⟨j, hj, -⟩
        obtain rfl : j = 0 := Nat.le_zero.1 hj.le
        exact absurd hj.holds unshown
      | succ i =>
        simp only [Nat.add_one_ne_zero, if_false, Nat.add_sub_cancel, ih, nearest_succ_iff unshown]
    | some t =>
      have here : Shows lines i t := startAt_eq_some_iff.1 hstart
      constructor
      · intro h
        obtain rfl : t = s := Option.some.inj h
        exact ⟨i, nearest_self _ ⟨t, here⟩, here⟩
      · rintro ⟨j, hj, hs⟩
        obtain rfl := hj.unique (nearest_self _ ⟨t, here⟩)
        rw [startAt_eq_some_iff.2 hs] at hstart
        exact hstart.symm

/-- The start is what the nearest line shows that shows one, or the first line of the context. -/
theorem functionStart_of_shows (hj : Nearest (Shown lines) searchDepth i j) (hs : Shows lines j s) :
    functionStart ctx lines i = s := by
  unfold functionStart
  rw [searchUp_eq_some_iff.2 ⟨j, hj, hs⟩]

theorem functionStart_of_none (unshown : ∀ j, ¬ Nearest (Shown lines) searchDepth i j) :
    functionStart ctx lines i = max 0 ((i : Int) - ctx.before) := by
  have hsearch : searchUp lines i searchDepth = none := by
    rw [Option.eq_none_iff_forall_ne_some]
    intro s hs
    obtain ⟨j, hj, -⟩ := searchUp_eq_some_iff.1 hs
    exact unshown j hj
  unfold functionStart
  rw [hsearch]

/-! ## The start that is meant -/

/-- The start is the nearest head, or else the first line of the context. -/
structure StartsAtHead (ctx : Context) (lines : List (List Char)) (i : Nat) : Prop where
  found : ∀ s, Nearest (fun j => IsHead (textAt lines j)) searchDepth i s → functionStart ctx lines i = s
  fallback : (∀ s, ¬ Nearest (fun j => IsHead (textAt lines j)) searchDepth i s) →
    functionStart ctx lines i = max 0 ((i : Int) - ctx.before)

/-- A line is a head, or shows a start. -/
def Notable (lines : List (List Char)) (j : Nat) : Prop :=
  IsHead (textAt lines j) ∨ Shown lines j

/-- The search is led past the nearest head, whose first name begins with the letters of a control word, or by an
opening brace to a line that is no head or too far away. -/
inductive Misled (lines : List (List Char)) (i : Nat) : Prop
  | word {j : Nat} {w : String} : Nearest (Notable lines) searchDepth i j → IsHead (textAt lines j) →
      w ∈ controlWords → w.toList <+: leadingName (textAt lines j) → Misled lines i
  | brace {s : Nat} : Nearest (Notable lines) searchDepth i (s + 1) → textAt lines (s + 1) = ['\x7b'] →
      HeadForm (textAt lines s) →
      String.ofList (leadingName (textAt lines s)) ∈ controlWords ∨ i = s + 1 + searchDepth → Misled lines i

/-- A line that is written like a head is one if its first name is no control word. -/
theorem isHead_of_headForm {text : List Char} (form : HeadForm text)
    (name : String.ofList (leadingName text) ∉ controlWords) : IsHead text := by
  refine ⟨?_, not_isComment_of_headForm form, form, name⟩
  obtain ⟨c, rest, rfl, -⟩ := exists_first_of_headForm form
  exact List.cons_ne_nil _ _

theorem not_isHead_of_brace (h : textAt lines j = ['\x7b']) : ¬ IsHead (textAt lines j) := by
  intro head
  have form := head.form
  rw [h] at form
  exact not_headForm_brace form

/-- A search that is not misled shows the nearest head. -/
theorem nearest_head_of_not_misled (led : ¬ Misled lines i) (hj : Nearest (Notable lines) searchDepth i j) :
    ∃ s, Shows lines j s ∧ Nearest (fun j => IsHead (textAt lines j)) searchDepth i s := by
  have heads : ∀ n, IsHead (textAt lines n) → Notable lines n := fun n hn => .inl hn
  by_cases hshown : Shown lines j
  · obtain ⟨s, hs⟩ := hshown
    refine ⟨s, hs, ?_⟩
    cases hs with
    | head form clean =>
      refine hj.narrow (isHead_of_headForm form fun hword => ?_) heads
      exact clean _ hword (by simp)
    | brace htext form =>
      -- the brace is no head, so the line above it is the nearest one, if it is near enough
      have hname : String.ofList (leadingName (textAt lines s)) ∉ controlWords := fun hword =>
        led (.brace hj htext form (.inl hword))
      have hdepth : i ≠ s + 1 + searchDepth := fun hfar => led (.brace hj htext form (.inr hfar))
      have hle := hj.le
      have hclose := hj.close
      refine ⟨by omega, by omega, isHead_of_headForm form hname, fun n hlt hn => ?_⟩
      rcases Nat.lt_or_eq_of_le (Nat.succ_le_of_lt hlt) with hlt | rfl
      · exact fun head => hj.clear n hlt hn (heads n head)
      · exact not_isHead_of_brace htext
  · -- a head that does not show a start has a first name that begins like a control word
    have head : IsHead (textAt lines j) := hj.holds.resolve_right hshown
    have hword : ∃ w ∈ controlWords, w.toList <+: leadingName (textAt lines j) := by
      by_contra clean
      simp only [not_exists, not_and] at clean
      exact hshown ⟨j, .head head.form clean⟩
    obtain ⟨w, hw, hprefix⟩ := hword
    exact absurd (.word hj head hw hprefix) led

theorem Shows.le (h : Shows lines j s) : s ≤ j := by
  cases h with
  | head => exact Nat.le_refl j
  | brace => exact Nat.le_succ s

/-- A search that is misled finds another start than the one that is meant, if not for all contexts. -/
theorem exists_not_startsAtHead (misled : Misled lines i) : ∃ ctx, ¬ StartsAtHead ctx lines i := by
  -- this context begins below the given line, where no search ends
  refine ⟨⟨-(i + 1), 0⟩, fun starts => ?_⟩
  have far : max 0 ((i : Int) - (⟨-(i + 1), 0⟩ : Context).before) = 2 * i + 1 := by
    simp only
    omega
  cases misled with
  | @word j w hj head hw hprefix =>
    have hfound := starts.found j (hj.narrow head fun n hn => .inl hn)
    have hle := hj.le
    have unshown : ¬ Shown lines j := by
      rintro ⟨s, hs⟩
      cases hs with
      | head _ clean => exact clean w hw hprefix
      | brace htext _ => exact not_isHead_of_brace htext head
    by_cases hany : ∃ m, Nearest (Shown lines) searchDepth i m
    · obtain ⟨m, hm⟩ := hany
      obtain ⟨t, ht⟩ := hm.holds
      rw [functionStart_of_shows hm ht] at hfound
      have htm := ht.le
      have hmj : m ≠ j := fun h => unshown (h ▸ hm.holds)
      exact hj.clear m (by omega) hm.le (.inr hm.holds)
    · rw [functionStart_of_none (not_exists.1 hany), far] at hfound
      omega
  | @brace s hj htext form hbad =>
    have hs : Shows lines (s + 1) s := .brace htext form
    have hstart : functionStart ⟨-(i + 1), 0⟩ lines i = s :=
      functionStart_of_shows (hj.narrow ⟨s, hs⟩ fun n hn => .inr hn) hs
    have hle := hj.le
    by_cases hany : ∃ r, Nearest (fun j => IsHead (textAt lines j)) searchDepth i r
    · obtain ⟨r, hr⟩ := hany
      have hfound := starts.found r hr
      obtain rfl : s = r := by omega
      have hclose := hr.close
      rcases hbad with hword | hfar
      · exact hr.holds.name hword
      · omega
    · have hfallback := starts.fallback (not_exists.1 hany)
      rw [hstart, far] at hfallback
      omega

/-- **A function starts at its head unless the search is misled.** The start is what the nearest line shows that shows
one, or else the first line of the context. For all contexts this is the nearest head, and the first line of the
context only where there is no head, exactly if the search is not misled. -/
theorem starts_at_head_iff (lines : List (List Char)) (i : Nat) :
    (∀ ctx : Context,
      (∀ j s, Nearest (Shown lines) searchDepth i j → Shows lines j s → functionStart ctx lines i = s) ∧
      ((∀ j, ¬ Nearest (Shown lines) searchDepth i j) →
        functionStart ctx lines i = max 0 ((i : Int) - ctx.before))) ∧
    ((∀ ctx, StartsAtHead ctx lines i) ↔ ¬ Misled lines i) := by
  refine ⟨fun ctx => ⟨fun j s hj hs => functionStart_of_shows hj hs, functionStart_of_none⟩, ?_, ?_⟩
  · intro starts misled
    obtain ⟨ctx, other⟩ := exists_not_startsAtHead misled
    exact other (starts ctx)
  · intro led ctx
    refine ⟨fun r hr => ?_, fun headless => functionStart_of_none fun j hj => ?_⟩
    · obtain ⟨j, hj⟩ := exists_nearest hr.le hr.close (show Notable lines r from .inl hr.holds)
      obtain ⟨s, hs, hhead⟩ := nearest_head_of_not_misled led hj
      rw [hr.unique hhead]
      exact functionStart_of_shows (hj.narrow ⟨s, hs⟩ fun n hn => .inr hn) hs
    · obtain ⟨j, hj⟩ := exists_nearest hj.le hj.close (show Notable lines j from .inr hj.holds)
      obtain ⟨s, -, hhead⟩ := nearest_head_of_not_misled led hj
      exact headless s hhead

/-! ## Lines that are told apart, and lines that are not -/

theorem isHead_iff {text : List Char} :
    IsHead text ↔ isSignature text = true ∧ String.ofList (leadingName text) ∉ controlWords :=
  ⟨fun head => ⟨isSignature_iff.2 head.form, head.name⟩, fun h => isHead_of_headForm (isSignature_iff.1 h.1) h.2⟩

instance (text : List Char) : Decidable (IsHead text) :=
  decidable_of_iff _ isHead_iff.symm

/-- There are no heads behind the last line. -/
theorem lt_length_of_isHead (head : IsHead (textAt lines j)) : j < lines.length := by
  by_contra hj
  apply head.filled
  have hempty : lines.getD j [] = [] := by simp [List.getD, List.getElem?_eq_none (Nat.le_of_not_lt hj)]
  rw [textAt, hempty]
  rfl

/-- A function whose brace stands below its head. -/
def bracedFunction : List (List Char) :=
  ["int f(int a)".toList, "\x7b".toList, "  return a;".toList, "\x7d".toList]

/-- The brace below a head shows the head. -/
theorem starts_at_head_of_brace :
    (∀ ctx, StartsAtHead ctx bracedFunction 2) ∧
      Nearest (fun j => IsHead (textAt bracedFunction j)) searchDepth 2 0 ∧
      ∀ ctx, functionStart ctx bracedFunction 2 = 0 := by
  have hs : Shows bracedFunction 1 0 := .brace (by decide) (isSignature_iff.1 (by decide))
  have hbrace : Nearest (Notable bracedFunction) searchDepth 2 1 := by
    refine ⟨by decide, by decide, .inr ⟨0, hs⟩, fun k hlt hle => ?_⟩
    obtain rfl : k = 2 := by omega
    rintro (head | ⟨s, hs⟩)
    · exact absurd head (by decide)
    · have hnone : startAt bracedFunction 2 = none := by decide +kernel
      exact absurd ⟨s, hs⟩ (startAt_eq_none_iff.1 hnone)
  have led : ¬ Misled bracedFunction 2 := by
    intro misled
    cases misled with
    | word hj head _ _ =>
      obtain rfl := hj.unique hbrace
      exact absurd head (by decide)
    | brace hj _ _ hbad =>
      obtain rfl : _ = 0 := Nat.succ.inj (hj.unique hbrace)
      exact absurd hbad (by decide)
  have starts := (starts_at_head_iff bracedFunction 2).2.2 led
  have head : Nearest (fun j => IsHead (textAt bracedFunction j)) searchDepth 2 0 := by
    have other : ∀ k < 3, 0 < k → ¬ IsHead (textAt bracedFunction k) := by decide +kernel
    exact ⟨by decide, by decide, by decide +kernel, fun k hlt hle => other k (by omega) hlt⟩
  exact ⟨starts, head, fun ctx => (starts ctx).found 0 head⟩

/-- A function that gives a number with a fraction. -/
def doubleFunction : List (List Char) :=
  ["int x;".toList, "double f(int a) \x7b".toList, "  return a;".toList, "\x7d".toList]

/-- A branch whose brace stands on a line of its own. -/
def elseBranch : List (List Char) :=
  ["int x;".toList, "else if (x)".toList, "\x7b".toList, "  x = 1;".toList, "\x7d".toList]

/-- A function that gives a `double` is passed over, its type beginning like `do`. And a control statement whose brace
stands below it is taken for a head. -/
theorem not_starts_at_head_double :
    (Nearest (fun j => IsHead (textAt doubleFunction j)) searchDepth 2 1 ∧ functionStart ⟨10, 20⟩ doubleFunction 2 = 0 ∧
      ¬ StartsAtHead ⟨10, 20⟩ doubleFunction 2) ∧
    (∀ j, ¬ IsHead (textAt elseBranch j)) ∧ functionStart ⟨10, 20⟩ elseBranch 3 = 1 ∧
      ¬ StartsAtHead ⟨10, 20⟩ elseBranch 3 := by
  have head : Nearest (fun j => IsHead (textAt doubleFunction j)) searchDepth 2 1 := by
    have other : ∀ k < 3, 1 < k → ¬ IsHead (textAt doubleFunction k) := by decide +kernel
    exact ⟨by decide, by decide, by decide +kernel, fun k hlt hle => other k (by omega) hlt⟩
  have hdouble : functionStart ⟨10, 20⟩ doubleFunction 2 = 0 := by decide +kernel
  have headless : ∀ j, ¬ IsHead (textAt elseBranch j) := by
    have other : ∀ j < elseBranch.length, ¬ IsHead (textAt elseBranch j) := by decide +kernel
    exact fun j head => other j (lt_length_of_isHead head) head
  have helse : functionStart ⟨10, 20⟩ elseBranch 3 = 1 := by decide +kernel
  refine ⟨⟨head, hdouble, fun starts => ?_⟩, headless, helse, fun starts => ?_⟩
  · have hfound := starts.found 1 head
    rw [hdouble] at hfound
    exact absurd hfound (by decide)
  · have hfallback := starts.fallback fun j hj => headless j hj.holds
    rw [helse] at hfallback
    exact absurd hfallback (by decide)

end FixGate.Source
