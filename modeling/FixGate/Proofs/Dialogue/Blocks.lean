import FixGate.Proofs.Dialogue.Code
import Mathlib.Data.List.TakeWhile

/-!
# The blocks of data in a reply

A block of data stands between an opening fence, which ends a line, and the next fence behind it. So a text that has
its fences only within one line, with something behind them, has no block at all.

* `Opening` : what may stand before a block of data
* `exists_of_jsonBlocks` : where a block stands
* `jsonBlocks_of_line` : texts around a line that has none
-/

namespace FixGate.Reply

variable {c e : Char} {cs inside line rest : List Char}

/-- What opens a block of data: a fence, perhaps the word for the format, and blanks up to the end of a line. -/
inductive Opening : List Char → Prop
  | line {word blanks : List Char} : word = [] ∨ word = "json".toList → (∀ c ∈ blanks, Text.isBlank c = true) →
      Opening (fence ++ word ++ blanks ++ ['\n'])

/-! ## Where blocks stand -/

theorem eq_append_drop_of_isPrefixOf {start cs : List Char} (h : start.isPrefixOf cs = true) :
    cs = start ++ cs.drop start.length := by
  obtain ⟨tail, rfl⟩ := List.isPrefixOf_iff_prefix.1 h
  rw [List.drop_left]

theorem eq_of_upToFence (h : upToFence cs = some (inside, rest)) :
    cs = inside ++ fence ++ rest ∧ Fenceless inside := by
  induction cs generalizing inside with
  | nil => cases h
  | cons c cs ih =>
    rw [upToFence] at h
    split at h
    · next hopen =>
      cases h
      exact ⟨eq_append_drop_of_isPrefixOf hopen, by decide⟩
    · next hopen =>
      obtain ⟨⟨inside', rest'⟩, htail, heq⟩ := Option.map_eq_some_iff.1 h
      cases heq
      obtain ⟨rfl, plain⟩ := ih htail
      refine ⟨rfl, fun h => ?_⟩
      rcases List.infix_cons_iff.1 h with h | h
      · rw [List.isPrefixOf_iff_prefix] at hopen
        exact hopen (h.trans ⟨fence ++ rest, by simp⟩)
      · exact plain h

/-- What is left is cut off behind a line feed, and what is cut off is blank. -/
theorem eq_of_afterLastFeed (h : afterLastFeed cs = some rest) :
    ∃ blanks, cs = blanks ++ '\n' :: rest ∧ ∀ c ∈ blanks, Text.isBlank c = true := by
  unfold afterLastFeed at h
  simp only at h
  generalize hkept : (cs.takeWhile Text.isBlank).reverse.dropWhile (· != '\n') = kept at h
  cases kept with
  | nil => cases h
  | cons feed blanks =>
    have hrest : cs.drop (feed :: blanks).length = rest := Option.some.inj h
    have hsuffix : feed :: blanks <:+ (cs.takeWhile Text.isBlank).reverse := hkept ▸ List.dropWhile_suffix _
    have hstart : (feed :: blanks).reverse <+: cs.takeWhile Text.isBlank := by
      rw [← List.reverse_suffix, List.reverse_reverse]
      exact hsuffix
    have hcut := List.prefix_iff_eq_append.1 (hstart.trans (List.takeWhile_prefix _))
    rw [List.length_reverse, hrest] at hcut
    have hfeed : feed = '\n' := by
      have := List.head?_dropWhile_not (· != '\n') (cs.takeWhile Text.isBlank).reverse
      rw [hkept] at this
      simpa using this
    refine ⟨blanks.reverse, ?_, ?_⟩
    · rw [← hcut, hfeed]
      simp
    · intro c hc
      have : c ∈ cs.takeWhile Text.isBlank := hstart.subset (by simp [List.mem_reverse.1 hc])
      exact List.mem_takeWhile_imp this

/-- A block is cut out of the text between its two fences. -/
theorem eq_of_jsonBlock (h : jsonBlock cs = some (inside, rest)) :
    ∃ opening, Opening opening ∧ cs = opening ++ inside ++ fence ++ rest ∧ Fenceless inside := by
  unfold jsonBlock at h
  split at h
  · next hopen =>
    have hcs : cs = fence ++ cs.drop 3 := eq_append_drop_of_isPrefixOf hopen
    obtain ⟨word, after, hword, hcut, start, hstart, h⟩ : ∃ word after, (word = [] ∨ word = "json".toList) ∧
        cs.drop 3 = word ++ after ∧ ∃ start, afterLastFeed after = some start ∧
          upToFence start = some (inside, rest) := by
      by_cases hjson : "json".toList.isPrefixOf (cs.drop 3) = true
      · simp only [if_pos hjson] at h
        split at h
        · cases h
        · next start hstart => exact ⟨_, _, .inr rfl, eq_append_drop_of_isPrefixOf hjson, start, hstart, h⟩
      · simp only [if_neg hjson] at h
        split at h
        · cases h
        · next start hstart => exact ⟨_, _, .inl rfl, rfl, start, hstart, h⟩
    obtain ⟨blanks, rfl, blank⟩ := eq_of_afterLastFeed hstart
    obtain ⟨rfl, plain⟩ := eq_of_upToFence h
    refine ⟨_, .line hword blank, ?_, plain⟩
    rw [hcs, hcut]
    simp
  · cases h

/-- Where a block stands, of those that are cut from a text one after another. -/
theorem exists_of_jsonBlocksFrom {n : Nat} {bs bs' : List (List Char)} (h : jsonBlocksFrom n cs = bs ++ inside :: bs') :
    ∃ before opening rest, Opening opening ∧ cs = before ++ opening ++ inside ++ fence ++ rest ∧ Fenceless inside := by
  induction n generalizing cs bs with
  | zero => exact absurd h.symm (List.append_ne_nil_of_right_ne_nil bs (List.cons_ne_nil inside bs'))
  | succ n ih =>
    cases cs with
    | nil => exact absurd h.symm (List.append_ne_nil_of_right_ne_nil bs (List.cons_ne_nil inside bs'))
    | cons c cs =>
      rw [jsonBlocksFrom] at h
      split at h
      · next first rest hblock =>
        obtain ⟨opening, hopening, hcut, plain⟩ := eq_of_jsonBlock hblock
        cases bs with
        | nil =>
          obtain ⟨rfl, -⟩ := List.cons.inj h
          exact ⟨[], opening, rest, hopening, by simpa using hcut, plain⟩
        | cons b bs =>
          obtain ⟨-, hlater⟩ := List.cons.inj h
          obtain ⟨before, opening', rest', hopening', rfl, plain'⟩ := ih hlater
          refine ⟨opening ++ first ++ fence ++ before, opening', rest', hopening', ?_, plain'⟩
          rw [hcut]
          simp
      · obtain ⟨before, opening, rest, hopening, rfl, plain⟩ := ih h
        exact ⟨c :: before, opening, rest, hopening, by simp, plain⟩

theorem exists_of_jsonBlocks {text block : String} {bs bs' : List String} (h : jsonBlocks text = bs ++ block :: bs') :
    ∃ before opening rest, Opening opening ∧
      text.toList = before ++ opening ++ block.toList ++ fence ++ rest ∧ Fenceless block.toList := by
  unfold jsonBlocks at h
  obtain ⟨bs, rest, hcut, -, hrest⟩ := List.map_eq_append_iff.1 h
  obtain ⟨inside, bs', rfl, rfl, -⟩ := List.map_eq_cons_iff.1 hrest
  rw [String.toList_ofList]
  exact exists_of_jsonBlocksFrom hcut

/-! ## Texts without blocks -/

/-- No line ends among the blanks behind a text within a line, if the line goes on with something else. -/
theorem afterLastFeed_of_line (within : '\n' ∉ line) (he : Text.isBlank e = false) (rest : List Char) :
    afterLastFeed (line ++ e :: rest) = none := by
  have hblanks : ∀ c ∈ (line ++ e :: rest).takeWhile Text.isBlank, c ∈ line := by
    clear within
    induction line with
    | nil => simp [he]
    | cons d line ih =>
      intro c hc
      rw [List.cons_append, List.takeWhile_cons] at hc
      split at hc
      · rcases List.mem_cons.1 hc with rfl | hc
        · exact List.mem_cons_self
        · exact List.mem_cons_of_mem d (ih c hc)
      · cases hc
  have hnone : ((line ++ e :: rest).takeWhile Text.isBlank).reverse.dropWhile (· != '\n') = [] := by
    rw [List.dropWhile_eq_nil_iff]
    intro c hc
    have hne : c ≠ '\n' := fun h => within (h ▸ hblanks c (List.mem_reverse.1 hc))
    simpa using hne
  unfold afterLastFeed
  simp only [hnone]

/-- What ends a line that fences may stand in, without opening a block: no backtick, no letter of the word behind a
fence and no blank. -/
structure Closes (e : Char) : Prop where
  fence : e ∉ Reply.fence
  word : e ∉ "json".toList
  blank : Text.isBlank e = false

theorem jsonBlock_of_line (within : '\n' ∉ line) (he : Closes e) (rest : List Char) :
    jsonBlock (line ++ e :: rest) = none := by
  unfold jsonBlock
  split
  · next hopen =>
    rw [List.isPrefixOf_iff_prefix, Within.prefix_append_cons_iff he.fence] at hopen
    obtain ⟨after, rfl⟩ := hopen
    have hafter : '\n' ∉ after := fun h => within (List.mem_append_right _ h)
    have hdrop : (fence ++ after ++ e :: rest).drop 3 = after ++ e :: rest := rfl
    simp only [hdrop]
    by_cases hjson : "json".toList.isPrefixOf (after ++ e :: rest) = true
    · simp only [if_pos hjson]
      rw [List.isPrefixOf_iff_prefix, Within.prefix_append_cons_iff he.word] at hjson
      obtain ⟨blanks, rfl⟩ := hjson
      have hdrop : ("json".toList ++ blanks ++ e :: rest).drop 4 = blanks ++ e :: rest := rfl
      rw [hdrop, afterLastFeed_of_line (fun h => hafter (List.mem_append_right _ h)) he.blank]
    · simp only [if_neg hjson]
      rw [afterLastFeed_of_line hafter he.blank]
  · rfl

theorem jsonBlock_eq_none (h : ¬ fence <+: cs) : jsonBlock cs = none := by
  unfold jsonBlock
  rw [if_neg (fun hopen => h (List.isPrefixOf_iff_prefix.1 hopen))]

theorem jsonBlocksFrom_cons (first : jsonBlock (c :: cs) = none) (tail : ∀ n, jsonBlocksFrom n cs = []) (n : Nat) :
    jsonBlocksFrom n (c :: cs) = [] := by
  cases n with
  | zero => rfl
  | succ n => rw [jsonBlocksFrom, first, tail n]

theorem jsonBlocksFrom_nil (n : Nat) : jsonBlocksFrom n [] = [] := by
  cases n <;> rfl

theorem jsonBlocksFrom_of_fenceless (plain : Fenceless cs) (n : Nat) : jsonBlocksFrom n cs = [] := by
  induction cs generalizing n with
  | nil => exact jsonBlocksFrom_nil n
  | cons c cs ih =>
    have hopen : ¬ fence <+: c :: cs := fun h => plain h.isInfix
    exact jsonBlocksFrom_cons (jsonBlock_eq_none hopen) (ih plain.tail) n

theorem jsonBlocksFrom_of_line (within : '\n' ∉ line) (he : Closes e) {q : List Char} (after : Fenceless q)
    (n : Nat) : jsonBlocksFrom n (line ++ e :: q) = [] := by
  induction line generalizing n with
  | nil => exact jsonBlocksFrom_cons (jsonBlock_of_line within he q) (jsonBlocksFrom_of_fenceless after) n
  | cons d line ih =>
    have hline : '\n' ∉ line := fun h => within (List.mem_cons_of_mem d h)
    exact jsonBlocksFrom_cons (jsonBlock_of_line within he q) (ih hline) n

/-- A text has no block whose fences all stand within one line, at neither end of it. -/
theorem jsonBlocks_of_line {text : String} {p q : List Char} (hc : c ∉ fence) (within : '\n' ∉ line)
    (he : Closes e) (before : Fenceless p) (after : Fenceless q)
    (htext : text.toList = p ++ (c :: line ++ [e]) ++ q) : jsonBlocks text = [] := by
  have hblocks : ∀ n, jsonBlocksFrom n (p ++ c :: (line ++ e :: q)) = [] := by
    clear htext
    induction p with
    | nil =>
      have hopen : ¬ fence <+: c :: (line ++ e :: q) := fun h => hc (by
        obtain ⟨tail, htail⟩ := h
        rw [← (List.cons.inj htail).1]
        exact List.mem_cons_self)
      exact jsonBlocksFrom_cons (jsonBlock_eq_none hopen) (jsonBlocksFrom_of_line within he after)
    | cons d p ih =>
      have hopen : ¬ fence <+: d :: p ++ c :: (line ++ e :: q) := by
        rw [Within.prefix_append_cons_iff hc]
        exact fun h => before h.isInfix
      exact jsonBlocksFrom_cons (jsonBlock_eq_none hopen) (ih before.tail)
  unfold jsonBlocks
  rw [htext, List.append_assoc, List.cons_append, List.cons_append, List.append_assoc, List.singleton_append, hblocks]
  rfl

end FixGate.Reply
