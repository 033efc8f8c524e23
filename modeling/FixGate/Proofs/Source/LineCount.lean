import FixGate.Proofs.Source.Window
import FixGate.Proofs.Text.Within
import FixGate.Text.Lines

/-!
# Two ways of counting lines

A text is scanned with its line ends unified, and repaired as it stands; both are cut at line feeds. What
stands together in a scanned line stands together in a line of the source, but the numbers of the two lines
need not be the same: a carriage return that no line feed follows ends a scanned line and no line of the
source. So the number of a scanned line is ahead of the source by the lone carriage returns before it.

* `Text.loneReturns` : the carriage returns that no line feed follows
* `Text.exists_of_unified` : where a scanned line stands in the text, and what its number counts
* `Source.exists_line_of_append` : the line of the source at a place of the text
* `Source.exists_windowOf` : the window around a line of the source holds the line
-/

namespace FixGate

namespace Text

variable {cs before left line : List Char} {c : Char} {j : Nat}

/-! ## Scanned lines -/

/-- How many carriage returns of a text have no line feed after them. -/
def loneReturns : List Char → Nat
  | [] => 0
  | '\r' :: '\n' :: cs => loneReturns cs
  | c :: cs => (if c == '\r' then 1 else 0) + loneReturns cs

example : loneReturns "a\rb\r\nc\r\r\n".toList = 2 := by decide

theorem loneReturns_cons_of_ne (hc : c ≠ '\r') (cs : List Char) :
    loneReturns (c :: cs) = loneReturns cs := by
  rw [loneReturns]
  · simp [hc]
  · simp [hc]

theorem loneReturns_return (lone : cs.head? ≠ some '\n') :
    loneReturns ('\r' :: cs) = loneReturns cs + 1 := by
  rw [loneReturns]
  · simp [Nat.add_comm]
  · rintro rest - rfl
    exact lone rfl

/-- A text that begins with no line feed leaves the carriage returns before it as they are. -/
theorem loneReturns_append (start : left.head? ≠ some '\n') (before : List Char) :
    loneReturns (before ++ left) = loneReturns before + loneReturns left := by
  fun_induction loneReturns before with
  | case1 => rw [List.nil_append, Nat.zero_add]
  | case2 cs ih => exact ih
  | case3 c cs whole ih =>
    by_cases hc : c = '\r'
    · subst hc
      have lone : (cs ++ left).head? ≠ some '\n' := by
        cases cs with
        | nil => exact start
        | cons d cs => exact fun h => whole cs rfl (by rw [Option.some.inj h])
      rw [List.cons_append, loneReturns_return lone, ih, beq_self_eq_true, if_pos rfl]
      omega
    · rw [List.cons_append, loneReturns_cons_of_ne hc, ih, beq_false_of_ne hc, if_neg Bool.false_ne_true,
        Nat.zero_add]

theorem loneReturns_eq_zero (returns : '\r' ∉ left) : loneReturns left = 0 := by
  induction left with
  | nil => rfl
  | cons c left ih =>
    rw [List.mem_cons, not_or] at returns
    rw [loneReturns_cons_of_ne (Ne.symm returns.1), ih returns.2]

/-- A line end puts a line without characters in front of the lines after it. -/
theorem getElem?_splitOn_feed :
    (('\n' :: cs).splitOn '\n')[j]? = some line ↔
      (j = 0 ∧ line = []) ∨ ∃ k, j = k + 1 ∧ (cs.splitOn '\n')[k]? = some line := by
  rw [List.splitOn_cons_eq_if_modifyHead, beq_self_eq_true, if_pos rfl]
  cases j <;> simp [eq_comm]

/-- A character that ends no line is put at the front of the first line after it. -/
theorem getElem?_splitOn_of_ne (hc : c ≠ '\n') :
    ((c :: cs).splitOn '\n')[j]? = some line ↔
      (j = 0 ∧ ∃ rest, (cs.splitOn '\n')[0]? = some rest ∧ line = c :: rest) ∨
        (j ≠ 0 ∧ (cs.splitOn '\n')[j]? = some line) := by
  rw [List.splitOn_cons_eq_if_modifyHead, if_neg (by simpa using hc)]
  cases cs.splitOn '\n' <;> cases j <;> simp [eq_comm]

/-- A scanned line is a part of the text without any line end. Its number counts the line feeds and the lone
carriage returns before it. -/
theorem exists_of_unified (hline : ((unifyLineEndsChars cs).splitOn '\n')[j]? = some line) :
    ∃ before after, cs = before ++ line ++ after ∧ j = before.count '\n' + loneReturns before ∧
      '\n' ∉ line ∧ '\r' ∉ line ∧ (j = 0 → before = []) := by
  fun_induction unifyLineEndsChars cs generalizing j line with
  | case1 =>
    cases j with
    | zero =>
      cases hline
      exact ⟨[], [], rfl, rfl, List.not_mem_nil, List.not_mem_nil, fun _ => rfl⟩
    | succ j => cases hline
  | case2 cs ih =>
    rcases getElem?_splitOn_feed.1 hline with ⟨rfl, rfl⟩ | ⟨k, rfl, hk⟩
    · exact ⟨[], _, rfl, rfl, List.not_mem_nil, List.not_mem_nil, fun _ => rfl⟩
    · obtain ⟨before, after, rfl, rfl, feed, returns, -⟩ := ih hk
      refine ⟨'\r' :: '\n' :: before, after, rfl, ?_, feed, returns, nofun⟩
      rw [loneReturns, List.count_cons_of_ne (by decide), List.count_cons_self]
      omega
  | case3 c cs whole ih =>
    by_cases hreturn : c = '\r'
    · subst hreturn
      rcases getElem?_splitOn_feed.1 hline with ⟨rfl, rfl⟩ | ⟨k, rfl, hk⟩
      · exact ⟨[], _, rfl, rfl, List.not_mem_nil, List.not_mem_nil, fun _ => rfl⟩
      · obtain ⟨before, after, rfl, rfl, feed, returns, -⟩ := ih hk
        have lone : before.head? ≠ some '\n' := by
          intro h
          obtain ⟨rest, rfl⟩ := List.head?_eq_some_iff.1 h
          exact whole _ rfl rfl
        refine ⟨'\r' :: before, after, rfl, ?_, feed, returns, nofun⟩
        rw [loneReturns_return lone, List.count_cons_of_ne (by decide)]
        omega
    · rw [beq_false_of_ne hreturn, if_neg Bool.false_ne_true] at hline
      by_cases hfeed : c = '\n'
      · subst hfeed
        rcases getElem?_splitOn_feed.1 hline with ⟨rfl, rfl⟩ | ⟨k, rfl, hk⟩
        · exact ⟨[], _, rfl, rfl, List.not_mem_nil, List.not_mem_nil, fun _ => rfl⟩
        · obtain ⟨before, after, rfl, rfl, feed, returns, -⟩ := ih hk
          refine ⟨'\n' :: before, after, rfl, ?_, feed, returns, nofun⟩
          rw [loneReturns_cons_of_ne hreturn, List.count_cons_self]
          omega
      · rcases (getElem?_splitOn_of_ne hfeed).1 hline with ⟨rfl, rest, hrest, rfl⟩ | ⟨hj, hk⟩
        · obtain ⟨before, after, rfl, -, feed, returns, first⟩ := ih hrest
          obtain rfl := first rfl
          refine ⟨[], after, rfl, rfl, ?_, ?_, fun _ => rfl⟩
          · exact fun h => (List.mem_cons.1 h).elim (fun e => hfeed e.symm) feed
          · exact fun h => (List.mem_cons.1 h).elim (fun e => hreturn e.symm) returns
        · obtain ⟨before, after, rfl, rfl, feed, returns, -⟩ := ih hk
          refine ⟨c :: before, after, rfl, ?_, feed, returns, fun h => absurd h hj⟩
          rw [loneReturns_cons_of_ne hreturn, List.count_cons_of_ne hfeed]

end Text

namespace Source

variable {before after part line : List Char} {lines : List (List Char)} {c x : Char} {ctx : Context}
  {content : String} {n : Nat}

/-! ## Lines of the source -/

theorem linesOf_feed (cs : List Char) : linesOf ('\n' :: cs) = ['\n'] :: linesOf cs := rfl

theorem linesOf_of_ne (hc : c ≠ '\n') (cs : List Char) :
    linesOf (c :: cs) = (c :: (linesOf cs).headD []) :: (linesOf cs).tail := by
  rw [linesOf, if_neg hc]
  cases linesOf cs <;> rfl

/-- The first line of a text holds all that stands before the first line feed. -/
theorem exists_headD_linesOf (feed : '\n' ∉ part) (after : List Char) :
    ∃ q, (linesOf (part ++ after)).headD [] = part ++ q := by
  induction part with
  | nil => exact ⟨_, rfl⟩
  | cons c part ih =>
    rw [List.mem_cons, not_or] at feed
    obtain ⟨q, hq⟩ := ih feed.2
    exact ⟨q, by rw [List.cons_append, linesOf_of_ne (Ne.symm feed.1), List.headD_cons, hq, List.cons_append]⟩

/-- The line at a place of a text is the one whose number counts the line feeds before it. -/
theorem exists_line_of_append (before after : List Char) (filled : part ≠ []) (feed : '\n' ∉ part) :
    ∃ p q, (linesOf (before ++ part ++ after))[before.count '\n']? = some (p ++ part ++ q) := by
  induction before with
  | nil =>
    obtain ⟨c, rest, rfl⟩ := List.exists_cons_of_ne_nil filled
    have hc : c ≠ '\n' := fun h => feed (h ▸ List.mem_cons_self)
    obtain ⟨q, hq⟩ := exists_headD_linesOf feed after
    refine ⟨[], q, ?_⟩
    rw [List.nil_append, ← hq, List.cons_append, linesOf_of_ne hc]
    rfl
  | cons c before ih =>
    obtain ⟨p, q, hline⟩ := ih
    by_cases hc : c = '\n'
    · subst hc
      exact ⟨p, q, by rwa [List.count_cons_self]⟩
    · rw [List.cons_append, List.cons_append, linesOf_of_ne hc, List.count_cons_of_ne hc]
      cases hnumber : before.count '\n' with
      | zero =>
        rw [hnumber, ← List.head?_eq_getElem?] at hline
        exact ⟨c :: p, q, by rw [List.headD_eq_head?_getD, hline]; rfl⟩
      | succ k =>
        refine ⟨p, q, ?_⟩
        rw [hnumber] at hline
        rwa [List.getElem?_cons_succ, List.getElem?_tail]

/-- A character at the end that a text does not end with is not dropped from within it. -/
theorem exists_dropEnd_append (filled : part ≠ []) (clean : x ∉ part) (p q : List Char) :
    ∃ q', dropEnd x (p ++ part ++ q) = p ++ part ++ q' := by
  unfold dropEnd
  split_ifs with hlast
  · rcases List.eq_nil_or_concat q with rfl | ⟨q, c, rfl⟩
    · rw [List.append_nil, List.getLast?_append, List.getLast?_eq_some_getLast filled, Option.some_or] at hlast
      exact absurd (Option.some.inj hlast ▸ List.getLast_mem filled) clean
    · exact ⟨q, by rw [List.concat_eq_append, ← List.append_assoc, List.dropLast_concat]⟩
  · exact ⟨q, rfl⟩

/-- What a line holds besides line ends, it holds without its terminator. -/
theorem infix_bare (filled : part ≠ []) (feed : '\n' ∉ part) (returns : '\r' ∉ part) (p q : List Char) :
    part <:+: bare (p ++ part ++ q) := by
  obtain ⟨q', hfeed⟩ := exists_dropEnd_append filled feed p q
  obtain ⟨q'', hreturn⟩ := exists_dropEnd_append filled returns p q'
  unfold bare
  rw [hfeed, hreturn]
  exact List.infix_append p part q''

/-! ## The window around a line -/

theorem mem_span {first stop : Int} (hline : lines[n]? = some line) (low : 0 ≤ first) (start : first ≤ n)
    (stays : n < stop) : line ∈ span lines first stop := by
  obtain ⟨hn, -⟩ := List.getElem?_eq_some_iff.1 hline
  have hfirst : bound lines.length first + (n - first.toNat) = n := by
    rw [bound, if_neg (by omega)]
    omega
  have hstop : n < bound lines.length stop := by
    rw [bound, if_neg (by omega)]
    omega
  apply List.mem_of_getElem? (i := n - first.toNat)
  unfold span
  rw [List.getElem?_drop, hfirst, List.getElem?_take_of_lt hstop, hline]

/-- A line of a text has a window around it, whose code holds the line. -/
theorem exists_windowOf (before : 0 ≤ ctx.before) (after : 0 ≤ ctx.after) (file : Path)
    (hline : (linesOf content.toList)[n]? = some line) :
    ∃ w, windowOf ctx file content (n + 1) = .ok w ∧ bare line <:+: w.code.toList := by
  obtain ⟨hn, -⟩ := List.getElem?_eq_some_iff.1 hline
  have hbare : ((linesOf content.toList).map bare)[n]? = some (bare line) := by
    rw [List.getElem?_map, hline, Option.map_some]
  have hn' : n < ((linesOf content.toList).map bare).length := by rwa [List.length_map]
  have hnumber : ((n : Int) + 1 - 1).toNat = n := by omega
  unfold windowOf
  simp only
  split_ifs with hempty houtside
  · rw [List.isEmpty_iff] at hempty
    rw [hempty] at hbare
    cases hbare
  · rw [Bool.or_eq_true, decide_eq_true_eq, decide_eq_true_eq, List.length_map] at houtside
    omega
  · obtain ⟨hlow, hstart, hstop, -⟩ := bounds_spec before after hn'
    refine ⟨_, rfl, ?_⟩
    rw [hnumber, String.toList_ofList]
    exact Text.infix_intercalate (mem_span hbare hlow hstart (by omega))

end Source

end FixGate
