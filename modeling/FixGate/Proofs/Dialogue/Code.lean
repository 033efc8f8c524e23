import FixGate.Proofs.Dialogue.Answers
import FixGate.Proofs.Text.Within

/-!
# The code in a reply

Where a reply puts some code between two fences, with any text before and behind, that code is what is taken from
it: single backticks and pairs of them beside a fence do not move the fence, and nothing behind the closing fence
matters.

* `Reply.Fenceless` : no fence stands in a text
* `Reply.upToFence_append`, `Reply.not_prefix_of_fenceless` : the first fence
* `Reply.firstBlock_append` : the first block of code
* `Model.implement_of_reply` : what the coder makes of a reply with a block of code, and of one without a fence
-/

namespace FixGate

namespace Reply

variable {c : Char} {cs ds inside lang rest : List Char}

/-! ## Fences -/

/-- No fence stands in a text. -/
def Fenceless (cs : List Char) : Prop :=
  ¬ fence <:+: cs

instance (cs : List Char) : Decidable (Fenceless cs) :=
  decidable_of_iff (¬ Text.occursIn fence cs = true) (not_congr Text.occursIn_iff)

theorem Fenceless.tail (plain : Fenceless (c :: cs)) : Fenceless cs := fun h =>
  plain (h.trans (List.suffix_cons c cs).isInfix)

theorem fence_append (rest : List Char) : fence.isPrefixOf (fence ++ rest) = true :=
  List.isPrefixOf_iff_prefix.2 (List.prefix_append fence rest)

/-- A text without a fence is cut at the fence behind it, if no backtick stands between. -/
theorem upToFence_append (plain : Fenceless inside) (hc : c ≠ '\x60') (rest : List Char) :
    upToFence (inside ++ c :: (fence ++ rest)) = some (inside ++ [c], rest) := by
  have hfence : c ∉ fence := by simp [fence, hc]
  have hclosing : upToFence (fence ++ rest) = some ([], rest) := rfl
  induction inside with
  | nil =>
    have hopen : ¬ fence.isPrefixOf (c :: (fence ++ rest)) = true := by simp [fence, List.isPrefixOf, hc.symm]
    rw [List.nil_append, upToFence, if_neg hopen, hclosing]
    rfl
  | cons d inside ih =>
    have hopen : ¬ fence.isPrefixOf (d :: inside ++ c :: (fence ++ rest)) = true := by
      rw [List.isPrefixOf_iff_prefix, Within.prefix_append_cons_iff hfence]
      exact fun h => plain h.isInfix
    rw [List.cons_append] at hopen ⊢
    rw [upToFence, if_neg hopen, ih plain.tail]
    rfl

/-- Where a text without a fence ends in backticks, the fence behind it seems to begin earlier. What follows the
third of the backticks is one more of them. -/
theorem drop_of_early_fence (plain : Fenceless (c :: cs)) (early : fence <+: c :: cs ++ (fence ++ rest)) :
    ∃ tail, (c :: cs ++ (fence ++ rest)).drop 3 = '\x60' :: tail := by
  match cs with
  | [] => exact ⟨rest, rfl⟩
  | [_] => exact ⟨'\x60' :: rest, rfl⟩
  | d :: e :: cs =>
    obtain ⟨tail, htail⟩ := early
    simp only [fence, List.cons_append, List.cons.injEq] at htail
    obtain ⟨rfl, rfl, rfl, -⟩ := htail
    exact absurd (List.prefix_append fence cs).isInfix plain

/-! ## The first block of code -/

theorem codeBlock_of_early (plain : Fenceless (c :: cs)) : codeBlock (c :: cs ++ (fence ++ rest)) = none := by
  unfold codeBlock
  split
  · next early =>
    obtain ⟨tail, htail⟩ := drop_of_early_fence plain (List.isPrefixOf_iff_prefix.1 early)
    have hinfo : isInfoChar '\x60' = false := by decide
    rw [htail, List.dropWhile_cons_of_neg (by simp [hinfo])]
    split
    · next h => exact absurd (List.cons.inj h).1 (by decide)
    · rfl
  · rfl

theorem codeBlock_append (info : ∀ c ∈ lang, isInfoChar c = true) (plain : Fenceless inside) (rest : List Char) :
    codeBlock (fence ++ (lang ++ '\n' :: (inside ++ '\n' :: (fence ++ rest)))) = some (inside ++ ['\n']) := by
  have hfeed : isInfoChar '\n' = false := by decide
  have hinfo (cs : List Char) : (lang ++ '\n' :: cs).dropWhile isInfoChar = '\n' :: cs := by
    rw [List.dropWhile_append_of_pos info, List.dropWhile_cons_of_neg (by simp [hfeed])]
  unfold codeBlock
  rw [if_pos (fence_append _)]
  have hdrop : (fence ++ (lang ++ '\n' :: (inside ++ '\n' :: (fence ++ rest)))).drop 3 =
      lang ++ '\n' :: (inside ++ '\n' :: (fence ++ rest)) := rfl
  simp only [hdrop, hinfo, upToFence_append plain (by decide : '\n' ≠ '\x60'), Option.map_some]

/-- The first fence of a text opens the first block of code, if it opens one at all. -/
theorem firstBlock_append (plain : Fenceless cs) {block : List Char}
    (opens : codeBlock (fence ++ rest) = some block) : firstBlock (cs ++ (fence ++ rest)) = some block := by
  induction cs with
  | nil =>
    show (codeBlock (fence ++ rest)).or _ = _
    rw [opens]
    rfl
  | cons c cs ih =>
    show (codeBlock (c :: cs ++ (fence ++ rest))).or (firstBlock (cs ++ (fence ++ rest))) = _
    rw [codeBlock_of_early plain, Option.none_or, ih plain.tail]

theorem firstBlock_of_fenceless (plain : Fenceless cs) : firstBlock cs = none := by
  induction cs with
  | nil => rfl
  | cons c cs ih =>
    have hopen : ¬ fence.isPrefixOf (c :: cs) = true := fun h =>
      plain (List.isPrefixOf_iff_prefix.1 h).isInfix
    rw [firstBlock, codeBlock, if_neg hopen, ih plain.tail]
    rfl

/-! ## The code -/

theorem codeOf_fenced {p lang code q : String} (before : Fenceless p.toList) (plain : Fenceless code.toList)
    (info : ∀ c ∈ lang.toList, isInfoChar c = true) :
    codeOf (p ++ "\x60\x60\x60" ++ lang ++ "\n" ++ code ++ "\n\x60\x60\x60" ++ q) = Text.trimEnd '\n' code := by
  have hblock := firstBlock_append before (codeBlock_append info plain q.toList)
  have hlist : (p ++ "\x60\x60\x60" ++ lang ++ "\n" ++ code ++ "\n\x60\x60\x60" ++ q).toList =
      p.toList ++ (fence ++ (lang.toList ++ '\n' :: (code.toList ++ '\n' :: (fence ++ q.toList)))) := by
    simp [fence]
  unfold codeOf
  rw [hlist, hblock]
  simp [Text.trimEnd]

theorem codeOf_of_fenceless {text : String} (plain : Fenceless text.toList) : codeOf text = Text.strip text := by
  unfold codeOf
  rw [firstBlock_of_fenceless plain]

/-- Cutting blanks from the start of a text leaves it blank, or not blank. -/
theorem all_isBlank_dropWhile {p : Char → Bool} (blanks : ∀ c, p c = true → Text.isBlank c = true) (cs : List Char) :
    (cs.dropWhile p).all Text.isBlank = cs.all Text.isBlank := by
  induction cs with
  | nil => rfl
  | cons c cs ih =>
    by_cases hc : p c = true
    · rw [List.dropWhile_cons_of_pos hc, ih, List.all_cons, blanks c hc, Bool.true_and]
    · rw [List.dropWhile_cons_of_neg hc]

theorem isBlankText_trimEnd (text : String) :
    Text.isBlankText (Text.trimEnd '\n' text) = Text.isBlankText text := by
  have feeds : ∀ c, (c == '\n') = true → Text.isBlank c = true := by
    intro c hc
    obtain rfl := eq_of_beq hc
    decide
  unfold Text.isBlankText Text.trimEnd
  rw [String.toList_ofList, List.all_reverse, all_isBlank_dropWhile feeds, List.all_reverse]

theorem isBlankText_strip (text : String) : Text.isBlankText (Text.strip text) = Text.isBlankText text := by
  have blanks : ∀ c, Text.isBlank c = true → Text.isBlank c = true := fun _ hc => hc
  unfold Text.isBlankText Text.strip Text.stripChars Text.stripRightChars Text.dropRightWhile Text.stripLeftChars
  rw [String.toList_ofList, List.all_reverse, all_isBlank_dropWhile blanks, List.all_reverse,
    all_isBlank_dropWhile blanks]

/-- An answer with code in it holds that code, unless it is blank. -/
theorem newCodeOf_eq {answer : String} {code : String} (hcode : codeOf answer = code) :
    newCodeOf answer = if Text.isBlankText code then .error (.role .noCode) else .ok code := by
  unfold newCodeOf
  rw [hcode]

end Reply

/-! ## What the coder returns -/

/-- A reply with a block of code, whatever stands before and behind it, holds the code of the block without the line
ends at its end, and a reply without a fence is code as a whole, without the blanks around it. That code is what the
coder returns; if it is blank, the answer is refused. -/
theorem Model.implement_of_reply :
    (∀ p lang code q : String, Reply.Fenceless p.toList → Reply.Fenceless code.toList →
      (∀ c ∈ lang.toList, Text.isWord c = true ∨ c = '+' ∨ c = '-') →
      ∀ text, text = p ++ "\x60\x60\x60" ++ lang ++ "\n" ++ code ++ "\n\x60\x60\x60" ++ q →
        Reply.codeOf text = Text.trimEnd '\n' code ∧
        ∀ (h : Host) (s : State) (m : Model) (i : Issue) (old : String) (plan : Plan),
          h.Answers s m .coder (codePrompt i old plan) text →
          ((m.implement old plan i).outcome h s).1 =
            if Text.isBlankText code then .error (.role .noCode) else .ok (Text.trimEnd '\n' code)) ∧
    ∀ text : String, Reply.Fenceless text.toList →
      Reply.codeOf text = Text.strip text ∧
      ∀ (h : Host) (s : State) (m : Model) (i : Issue) (old : String) (plan : Plan),
        h.Answers s m .coder (codePrompt i old plan) text →
        ((m.implement old plan i).outcome h s).1 =
          if Text.isBlankText text then .error (.role (.blank .coder)) else .ok (Text.strip text) := by
  constructor
  · intro p lang code q before plain info text htext
    have hinfo : ∀ c ∈ lang.toList, Reply.isInfoChar c = true := by
      intro c hc
      have := info c hc
      unfold Reply.isInfoChar
      simpa [or_assoc] using this
    have hcode : Reply.codeOf text = Text.trimEnd '\n' code := by
      rw [htext]
      exact Reply.codeOf_fenced before plain hinfo
    refine ⟨hcode, ?_⟩
    intro h s m i old plan answers
    have hfilled : Text.isBlankText text = false := by
      have hmem : '\x60' ∈ text.toList := by
        rw [htext]
        simp
      exact isBlankText_eq_false hmem (by decide)
    rw [implement_of_answers answers, hfilled, Reply.newCodeOf_eq hcode, Reply.isBlankText_trimEnd]
    rfl
  · intro text plain
    have hcode := Reply.codeOf_of_fenceless plain
    refine ⟨hcode, ?_⟩
    intro h s m i old plan answers
    rw [implement_of_answers answers, Reply.newCodeOf_eq hcode, Reply.isBlankText_strip]
    by_cases hblank : Text.isBlankText text = true
    · rw [if_pos hblank, if_pos hblank]
    · rw [if_neg hblank, if_neg hblank, if_neg hblank]

/-- Pairs of backticks beside the fences, a blank line at the end of the code and another block behind it. -/
theorem implement_of_backticks :
    Reply.codeOf ("Use \x60strncpy\x60:\x60\x60" ++ "\x60\x60\x60" ++ "c++" ++ "\n" ++ "x = 1;\x60\x60\n" ++
        "\n\x60\x60\x60" ++ "\x60\n\x60\x60\x60\ny\n\x60\x60\x60") = "x = 1;\x60\x60" ∧
      ((Model.implement ⟨.null, 0⟩ "" ⟨["edit"]⟩ default).outcome (Host.saying
        ("Use \x60strncpy\x60:\x60\x60" ++ "\x60\x60\x60" ++ "c++" ++ "\n" ++ "x = 1;\x60\x60\n" ++
          "\n\x60\x60\x60" ++ "\x60\n\x60\x60\x60\ny\n\x60\x60\x60")) default).1 =
        .ok "x = 1;\x60\x60" := by
  have info : ∀ c ∈ "c++".toList, Text.isWord c = true ∨ c = '+' ∨ c = '-' := by
    intro c hc
    have hc : c = 'c' ∨ c = '+' := by simpa using hc
    rcases hc with rfl | rfl
    · exact .inl (by decide)
    · exact .inr (.inl rfl)
  have hreply := Model.implement_of_reply.1 "Use \x60strncpy\x60:\x60\x60" "c++" "x = 1;\x60\x60\n"
    "\x60\n\x60\x60\x60\ny\n\x60\x60\x60" (by decide) (by decide) info _ rfl
  have htrim : Text.trimEnd '\n' "x = 1;\x60\x60\n" = "x = 1;\x60\x60" := by decide +kernel
  rw [htrim] at hreply
  exact ⟨hreply.1, hreply.2 _ _ _ _ _ _ (Host.saying_answers _ _ _ _ _)⟩

end FixGate
