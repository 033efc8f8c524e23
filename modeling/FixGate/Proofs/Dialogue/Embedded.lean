import FixGate.Proofs.Dialogue.Earliest
import FixGate.Proofs.Json.Rooms

/-!
# A value in prose

A list of texts, or a verdict, is found in a reply that says other things before and behind it, in whatever way the
value is written down: whatever stands in its texts, fences and brackets included, and whatever brackets stand in the
prose, as long as none before the value begins a value of the kind itself. One thing can get in the way, and does so
before the value is looked at: a bracket behind which the reader passes one of its limits. That ends the search.

* `Clear` : no bracket of a text leads the reader to a limit
* `Embedded`, `Embedded.firstOf_of_clear`, `Embedded.firstOf_of_limit` : the search in prose, and where it ends
* `embedded_values_read` : the plan and the verdict of such a reply
-/

namespace FixGate

namespace Reply

open Json (Spells SpellsMembers)

variable {α : Type} {opener e : Char} {pick : Value → Option α} {x : α} {p w line q rest b c : List Char}
  {v : Value} {text : String} {f : Failure}

/-! ## The search before the value -/

/-- No bracket of a text leads the reader to a limit, whatever follows the text. -/
def Clear (opener : Char) (p rest : List Char) : Prop :=
  ∀ b c, p = b ++ opener :: c → ∃ o, Json.leading? (opener :: c ++ rest) = .ok o

/-- No bracket of a text begins a value, which may go on behind the text. -/
def Unmatched (opener : Char) (pick : Value → Option α) (p rest : List Char) : Prop :=
  ∀ b c, p = b ++ opener :: c → ∀ y, ¬ Begins pick y (opener :: c ++ rest)

theorem firstLeading_append (clear : Clear opener p rest) (unmatched : Unmatched opener pick p rest) :
    firstLeading opener pick (p ++ rest) = firstLeading opener pick rest := by
  induction p with
  | nil => rfl
  | cons d p ih =>
    have hp := ih (fun b c hcut => clear (d :: b) c (by rw [hcut]; rfl))
      (fun b c hcut => unmatched (d :: b) c (by rw [hcut]; rfl))
    by_cases hd : d = opener
    · subst hd
      obtain ⟨o, hread⟩ := clear [] p rfl
      have hpick : o.bind pick = none := by
        rw [Option.eq_none_iff_forall_ne_some]
        exact fun y hy => unmatched [] p rfl y (begins_of_leading? hread hy)
      rw [List.cons_append] at hread ⊢
      rw [firstLeading_of_passed hread hpick]
      exact hp
    · rw [List.cons_append, firstLeading_cons pick hd]
      exact hp

/-- A value that is told by a bracket ends in one too. -/
theorem Bracketed.shape (kind : Bracketed opener pick) (hw : Spells none v w) (hpick : pick v = some x) :
    opener ∉ fence ∧ ∃ line e, w = opener :: line ++ [e] ∧ Closes e := by
  have hopener : opener ∉ fence := by
    rcases kind.bracket with rfl | rfl
    · decide
    · decide
  have hhead : w.head? = some opener := (kind.picks hw).1 (by rw [hpick]; rfl)
  refine ⟨hopener, ?_⟩
  rcases hw.shape with ⟨_, line, -, rfl⟩ | ⟨_, line, -, rfl⟩ | ⟨-, hlist, htable⟩
  · obtain rfl : '[' = opener := Option.some.inj hhead
    exact ⟨line, ']', rfl, by decide, by decide, by decide⟩
  · obtain rfl : '\x7b' = opener := Option.some.inj hhead
    exact ⟨line, '\x7d', rfl, by decide, by decide, by decide⟩
  · rcases kind.bracket with rfl | rfl
    · exact absurd hhead hlist
    · exact absurd hhead htable

/-- A text, written on one line, stands between two texts without fences, and no bracket before it begins a value of
the kind. -/
structure Embedded (opener : Char) (pick : Value → Option α) (p J q : String) : Prop where
  before : Fenceless p.toList
  after : Fenceless q.toList
  line : '\n' ∉ J.toList
  unmatched : Unmatched opener pick p.toList (J.toList ++ q.toList)

section

variable {p J q : String} (embedded : Embedded opener pick p J q) (kind : Bracketed opener pick)
  (spells : Spells none v J.toList) (picked : pick v = some x)
include embedded kind spells picked

theorem Embedded.firstOf_eq : firstOf opener pick (p ++ J ++ q) =
    firstLeading opener pick (p.toList ++ (J.toList ++ q.toList)) := by
  obtain ⟨hopener, line, e, hJ, he⟩ := kind.shape spells picked
  have within : '\n' ∉ line := by
    intro h
    refine embedded.line ?_
    rw [hJ]
    simp [h]
  have htext : (p ++ J ++ q).toList = p.toList ++ J.toList ++ q.toList := by
    rw [String.toList_append, String.toList_append]
  have hblocks : jsonBlocks (p ++ J ++ q) = [] :=
    jsonBlocks_of_line hopener within he embedded.before embedded.after (by rw [htext, hJ])
  unfold firstOf
  rw [hblocks, htext, List.append_assoc]
  rfl

/-- The value in prose is the one that is found. -/
theorem Embedded.firstOf_of_clear (room : Spells (some Json.depthLimit) v J.toList)
    (clear : Clear opener p.toList (J.toList ++ q.toList)) : firstOf opener pick (p ++ J ++ q) = .ok (some x) := by
  have hhead : J.toList.head? = some opener := (kind.picks spells).1 (by rw [picked]; rfl)
  have hread : Json.leading? (J.toList ++ q.toList) = .ok (some v) := by
    rcases room.leading? (by simp) q.toList fun h => absurd h (kind.not_numeral hhead) with h | ⟨h, -⟩
    · exact h
    · cases h
  obtain ⟨line, hJ⟩ := List.head?_eq_some_iff.1 hhead
  rw [embedded.firstOf_eq kind spells picked, firstLeading_append clear embedded.unmatched]
  rw [hJ, List.cons_append] at hread ⊢
  exact firstLeading_of_picked hread picked

/-- The search ends at the first bracket that leads the reader to a limit. -/
theorem Embedded.firstOf_of_limit (hp : p.toList = b ++ opener :: c)
    (clear : Clear opener b (opener :: c ++ (J.toList ++ q.toList)))
    (limit : Json.leading? (opener :: c ++ (J.toList ++ q.toList)) = .error f) :
    firstOf opener pick (p ++ J ++ q) = .error f := by
  have unmatched : Unmatched opener pick b (opener :: c ++ (J.toList ++ q.toList)) := by
    intro b' c' hcut y
    have := embedded.unmatched b' (c' ++ opener :: c) (by rw [hp, hcut]; simp) y
    simpa using this
  rw [embedded.firstOf_eq kind spells picked, hp, List.append_assoc, firstLeading_append clear unmatched]
  rw [List.cons_append] at limit ⊢
  rw [firstLeading_opener, limit]
  rfl

end

/-- A limit of the reader is not the complaint that an answer holds no value. -/
theorem not_role_of_leading? {cs : List Char} (h : Json.leading? cs = .error f) (fault : RoleFault) :
    f ≠ .role fault := by
  have of_limit {φ : Json.Fault} (hf : φ.limit? = some f) : f ≠ .role fault := by
    cases φ <;> cases hf <;> simp
  unfold Json.leading? at h
  cases hread : Json.readLeading cs with
  | ok r => rw [hread] at h; cases h
  | error stop =>
    rw [hread] at h
    cases hlimit : stop.fault.limit? with
    | none =>
      simp only [Json.ifWellFormed, hlimit] at h
      cases h
    | some g =>
      simp only [Json.ifWellFormed, hlimit, Except.map, Except.error.injEq] at h
      exact of_limit (h ▸ hlimit)

/-! ## The plan -/

theorem stepsOf_texts (xs : List String) :
    stepsOf (xs.map .text) = (xs.map Text.strip).filter fun s => !s.isEmpty := by
  unfold stepsOf
  rw [List.map_map]
  rfl

theorem planOf_of_firstList {xs : List String} (h : firstList text = .ok (xs.map .text)) :
    planOf text = if ((xs.map Text.strip).filter fun s => !s.isEmpty) = [] then .error (.role .noSteps)
      else .ok ⟨(xs.map Text.strip).filter fun s => !s.isEmpty⟩ := by
  unfold planOf
  rw [h, ← stepsOf_texts]
  show (if (stepsOf (xs.map .text)).isEmpty = true then .error (.role .noSteps)
    else .ok ⟨stepsOf (xs.map .text)⟩ : Except Failure Plan) = _
  simp only [List.isEmpty_iff]

/-! ## The verdict -/

/-- The fields of a verdict, as the reviewer is asked to name them. -/
def verdictFields (passed : Bool) (reason : String) (issues : List String) : List (String × Value) :=
  [("passed", .bool passed), ("reason", .text reason), ("issues", .list (issues.map .text))]

theorem issuesOf_texts (issues : List String) : issuesOf (.list (issues.map .text)) = .ok issues := by
  cases issues with
  | nil => rfl
  | cons x xs =>
    show Except.ok (((x :: xs).map Value.text).map Value.display) = _
    rw [List.map_map]
    congr 1
    exact List.map_id _

section Verdict

variable {ms : List (String × Value)} {passed : Bool} {reason : String} {issues : List String} {cs : List Char}
  (named : ms.Perm (verdictFields passed reason issues))
include named

theorem verdict_room (spells : SpellsMembers none ms cs) :
    Spells (some Json.depthLimit) (.table (Fields.ofMembers ms)) ('\x7b' :: cs ++ ['\x7d']) := by
  refine .table (by decide) (spells.map_room ?_)
  intro m hm w hw
  have := named.mem_iff.1 hm
  simp only [verdictFields, List.mem_cons, List.not_mem_nil, or_false] at this
  rcases this with rfl | rfl | rfl
  · exact hw.bool_room _
  · exact hw.text_room _
  · exact hw.texts_room (by decide)

theorem reviewOf_of_firstTable (given : reason ≠ "") (h : firstTable text = .ok (Fields.ofMembers ms)) :
    reviewOf text = .ok ⟨passed, reason, issues⟩ := by
  have once : (ms.map Prod.fst).Nodup := (named.map Prod.fst).nodup_iff.2 (by simp [verdictFields])
  have hpassed : (Fields.ofMembers ms).lookup "passed" = some (.bool passed) :=
    lookup_ofMembers once (named.mem_iff.2 (by simp [verdictFields]))
  have hreason : (Fields.ofMembers ms).lookup "reason" = some (.text reason) :=
    lookup_ofMembers once (named.mem_iff.2 (by simp [verdictFields]))
  have hissues : (Fields.ofMembers ms).lookup "issues" = some (.list (issues.map .text)) :=
    lookup_ofMembers once (named.mem_iff.2 (by simp [verdictFields]))
  have hgiven : (Value.text reason).isTrue = true := by simpa [Value.isTrue] using given
  unfold reviewOf
  rw [h]
  simp only [bind, Except.bind, hpassed, hreason, hissues, Option.getD_some, hgiven, if_true, issuesOf_texts]
  rfl

end Verdict

/-! ## What the roles return -/

/-- A list of texts, written down in whatever way on one line, is what is found in the prose around it, and the plan
has its texts without blanks around them, empty ones left out; no text left is the one failure. In the same way a
verdict with its reason and its issues is found, in whatever order they are named, and the review is that verdict.
All this is so unless, before the value, a bracket leads the reader to a limit. The first that does is the failure,
and not one that says that the answer holds no value. -/
theorem embedded_values_read (p J q : String) :
    (∀ xs : List String, Embedded '[' list? p J q → Spells none (.list (xs.map .text)) J.toList →
      (Clear '[' p.toList (J.toList ++ q.toList) →
        firstList (p ++ J ++ q) = .ok (xs.map .text) ∧
        ∀ (h : Host) (s : State) (m : Model) (i : Issue) (code : String) (feedback : Option String),
          h.Answers s m .planner (planPrompt i code feedback) (p ++ J ++ q) →
          ((m.plan i code feedback).outcome h s).1 =
            if ((xs.map Text.strip).filter fun s => !s.isEmpty) = [] then .error (.role .noSteps)
            else .ok ⟨(xs.map Text.strip).filter fun s => !s.isEmpty⟩) ∧
      ∀ (b c : List Char) (f : Failure), p.toList = b ++ '[' :: c →
        Clear '[' b ('[' :: c ++ (J.toList ++ q.toList)) →
        Json.leading? ('[' :: c ++ (J.toList ++ q.toList)) = .error f →
        firstList (p ++ J ++ q) = .error f ∧ planOf (p ++ J ++ q) = .error f ∧ ∀ fault, f ≠ .role fault) ∧
    ∀ (passed : Bool) (reason : String) (issues : List String) (ms : List (String × Value)) (cs : List Char),
      reason ≠ "" → ms.Perm (verdictFields passed reason issues) → SpellsMembers none ms cs →
      J.toList = '\x7b' :: cs ++ ['\x7d'] → Embedded '\x7b' table? p J q →
      (Clear '\x7b' p.toList (J.toList ++ q.toList) →
        firstTable (p ++ J ++ q) = .ok (Fields.ofMembers ms) ∧
        ∀ (h : Host) (s : State) (m : Model) (i : Issue) (code newCode : String) (plan : Plan),
          h.Answers s m .reviewer (reviewPrompt i code plan newCode) (p ++ J ++ q) →
          ((m.review code plan newCode i).outcome h s).1 = .ok ⟨passed, reason, issues⟩) ∧
      ∀ (b c : List Char) (f : Failure), p.toList = b ++ '\x7b' :: c →
        Clear '\x7b' b ('\x7b' :: c ++ (J.toList ++ q.toList)) →
        Json.leading? ('\x7b' :: c ++ (J.toList ++ q.toList)) = .error f →
        firstTable (p ++ J ++ q) = .error f ∧ reviewOf (p ++ J ++ q) = .error f ∧ ∀ fault, f ≠ .role fault := by
  constructor
  · intro xs embedded spells
    have hfilled : Text.isBlankText (p ++ J ++ q) = false := by
      obtain ⟨_, line, e, hJ, -⟩ := bracketed_list.shape spells rfl
      exact isBlankText_eq_false (c := '[') (by simp [hJ]) (by decide)
    constructor
    · intro clear
      have hlist : firstList (p ++ J ++ q) = .ok (xs.map .text) := by
        rw [firstList_eq, embedded.firstOf_of_clear bracketed_list spells rfl (spells.texts_room (by decide)) clear]
        rfl
      refine ⟨hlist, ?_⟩
      intro h s m i code feedback answers
      rw [Model.plan_of_answers answers, hfilled, planOf_of_firstList hlist]
      rfl
    · intro b c f hp clear limit
      have hlist : firstList (p ++ J ++ q) = .error f := by
        rw [firstList_eq, embedded.firstOf_of_limit bracketed_list spells rfl hp clear limit]
        rfl
      refine ⟨hlist, ?_, not_role_of_leading? limit⟩
      unfold planOf
      rw [hlist]
      rfl
  · intro passed reason issues ms cs given named members hJ embedded
    have spells : Spells none (.table (Fields.ofMembers ms)) J.toList := by
      rw [hJ]
      exact .table (by simp) members
    have room : Spells (some Json.depthLimit) (.table (Fields.ofMembers ms)) J.toList := by
      rw [hJ]
      exact verdict_room named members
    have hfilled : Text.isBlankText (p ++ J ++ q) = false :=
      isBlankText_eq_false (c := '\x7b') (by simp [hJ]) (by decide)
    constructor
    · intro clear
      have htable : firstTable (p ++ J ++ q) = .ok (Fields.ofMembers ms) := by
        rw [firstTable_eq, embedded.firstOf_of_clear bracketed_table spells rfl room clear]
        rfl
      refine ⟨htable, ?_⟩
      intro h s m i code newCode plan answers
      rw [Model.review_of_answers answers, hfilled, reviewOf_of_firstTable named given htable]
      rfl
    · intro b c f hp clear limit
      have htable : firstTable (p ++ J ++ q) = .error f := by
        rw [firstTable_eq, embedded.firstOf_of_limit bracketed_table spells rfl hp clear limit]
        rfl
      refine ⟨htable, ?_, not_role_of_leading? limit⟩
      unfold reviewOf
      rw [htable]
      rfl

/-! ## Brackets that are tried one by one -/

/-- What the reader makes of each bracket of a text decides both conditions on it. -/
theorem clear_and_unmatched (kind : Bracketed opener pick) (p rest : List Char)
    (tried : ∀ t ∈ p.tails, t.head? = some opener →
      (Json.leading? (t ++ rest)).toOption.map (fun o => (o.bind pick).isNone) = some true) :
    Clear opener p rest ∧ Unmatched opener pick p rest := by
  have read (b c : List Char) (hp : p = b ++ opener :: c) :
      ∃ o, Json.leading? (opener :: c ++ rest) = .ok o ∧ o.bind pick = none := by
    have hmem : opener :: c ∈ p.tails := (List.mem_tails _ _).2 ⟨b, hp.symm⟩
    obtain ⟨o, hread, hnone⟩ := exists_of_toOption (tried _ hmem rfl)
    exact ⟨o, hread, Option.isNone_iff_eq_none.1 hnone⟩
  constructor
  · intro b c hp
    obtain ⟨o, hread, -⟩ := read b c hp
    exact ⟨o, hread⟩
  · intro b c hp y
    obtain ⟨o, hread, hnone⟩ := read b c hp
    exact not_begins_of_leading? kind hread hnone y

/-- A list in prose with other brackets, one of its texts with an escaped quote and a fence, and a verdict with its
fields in another order. -/
theorem embedded_values_read_prose :
    (firstList ("The buffer [16 bytes]: " ++ "[\"\\\"\x60\x60\x60json\", \" \"]" ++ " [\"x\"]") =
        .ok [.text "\"\x60\x60\x60json", .text " "] ∧
      ((Model.plan ⟨.null, 0⟩ default "" none).outcome (Host.saying
        ("The buffer [16 bytes]: " ++ "[\"\\\"\x60\x60\x60json\", \" \"]" ++ " [\"x\"]")) default).1 =
        .ok ⟨["\"\x60\x60\x60json"]⟩) ∧
    ((Model.review ⟨.null, 0⟩ "" ⟨["edit"]⟩ "" default).outcome (Host.saying
      ("if (x) \x7by\x7d: " ++ "\x7b\"issues\":[],\"passed\":false,\"reason\":\"\x7d\"\x7d" ++ "\x7d")) default).1 =
      .ok ⟨false, "\x7d", []⟩ := by
  constructor
  · have spells : Spells none (.list (["\"\x60\x60\x60json", " "].map .text))
        ("[\"\\\"\x60\x60\x60json\", \" \"]").toList := by
      have first : Json.SpellsChars "\"\x60\x60\x60json".toList "\\\"\x60\x60\x60json".toList :=
        .short rfl (.of_plain (by decide))
      have gap : Json.Gap [' '] := by simp [Json.Gap, Json.isSpace]
      exact .list (by simp) (.more (.padded .nil (.text first) .nil)
        (.last (.padded gap (.text (.of_plain (by decide))) .nil)))
    have tried := clear_and_unmatched bracketed_list "The buffer [16 bytes]: ".toList
      ("[\"\\\"\x60\x60\x60json\", \" \"]".toList ++ " [\"x\"]".toList) (by decide +kernel)
    have read := ((embedded_values_read "The buffer [16 bytes]: " "[\"\\\"\x60\x60\x60json\", \" \"]" " [\"x\"]").1
      ["\"\x60\x60\x60json", " "] ⟨by decide, by decide, by decide, tried.2⟩ spells).1 tried.1
    have hsteps : ((["\"\x60\x60\x60json", " "].map Text.strip).filter fun s => !s.isEmpty) =
        ["\"\x60\x60\x60json"] := by
      decide
    refine ⟨read.1, ?_⟩
    rw [read.2 _ _ _ _ _ _ (Host.saying_answers _ _ _ _ _), hsteps]
    rfl
  · have issues : Json.SpellsMember none ("issues", .list ([].map .text)) "\"issues\":[]".toList :=
      .named .nil (.of_plain (by decide)) .nil (.padded .nil (.emptyList (by simp) .nil) .nil)
    have no : Spells none (.bool false) "false".toList := .word (by simp [Json.words])
    have passed : Json.SpellsMember none ("passed", .bool false) "\"passed\":false".toList :=
      .named .nil (.of_plain (by decide)) .nil (.padded .nil no .nil)
    have reason : Json.SpellsMember none ("reason", .text "\x7d") "\"reason\":\"\x7d\"".toList :=
      .named .nil (.of_plain (by decide)) .nil (.padded .nil (.text (.of_plain (by decide))) .nil)
    have named : [("issues", .list ([].map .text)), ("passed", .bool false), ("reason", .text "\x7d")].Perm
        (verdictFields false "\x7d" []) :=
      (List.perm_append_singleton ("issues", Value.list ([].map .text)) [_, _]).symm
    have tried := clear_and_unmatched bracketed_table "if (x) \x7by\x7d: ".toList
      ("\x7b\"issues\":[],\"passed\":false,\"reason\":\"\x7d\"\x7d".toList ++ "\x7d".toList) (by decide +kernel)
    have read := ((embedded_values_read "if (x) \x7by\x7d: "
      "\x7b\"issues\":[],\"passed\":false,\"reason\":\"\x7d\"\x7d" "\x7d").2 false "\x7d" [] _ _ (by decide) named
      (.more issues (.more passed (.last reason))) (by decide)
      ⟨by decide, by decide, by decide, tried.2⟩).1 tried.1
    exact read.2 _ _ _ _ _ _ _ (Host.saying_answers _ _ _ _ _)

/-! ## A bracket before a long number -/

/-- What a list begins with: its first element, and what closes that. -/
theorem exists_first_of_items {vs : List Value} {cs : List Char} (rest : List Char)
    (items : Json.SpellsItems none vs cs) :
    ∃ g w g' s tail v, cs ++ ']' :: rest = g ++ (w ++ (g' ++ s :: tail)) ∧ Json.Gap g ∧ Spells none v w ∧
      Json.Gap g' ∧ (s = ',' ∨ s = ']') := by
  cases items with
  | last value =>
    obtain ⟨gap, spells, gap'⟩ := value
    exact ⟨_, _, _, ']', rest, _, by simp, gap, spells, gap', .inr rfl⟩
  | @more _ _ _ _ ds value items =>
    obtain ⟨gap, spells, gap'⟩ := value
    exact ⟨_, _, _, ',', ds ++ ']' :: rest, _, by simp, gap, spells, gap', .inl rfl⟩

theorem eq_nil_of_gap {g cs ds : List Char} {d : Char} (gap : Json.Gap g) (h : d :: ds = g ++ cs)
    (hd : Json.isSpace d = false) : g = [] := by
  cases g with
  | nil => rfl
  | cons c g =>
    obtain rfl : d = c := (List.cons.inj h).1
    rw [gap d List.mem_cons_self] at hd
    cases hd

/-- What begins with a digit is a number. -/
theorem exists_digits_of_spells {d : Char} {ds : List Char} (hw : Spells none v (d :: ds)) (hd : d.isDigit = true) :
    ∃ ds' t, d :: ds = ds' ++ t ∧ Json.Digits ds' ∧ ∀ c ∈ t.head?, c = '.' ∨ c = 'e' ∨ c = 'E' := by
  have ne_of_digit {c : Char} (hc : c.isDigit = false) : d ≠ c := Json.ne_of_isDigit hd hc
  generalize hds : d :: ds = w at hw
  cases hw with
  | word h =>
    obtain ⟨⟨c, cs, rfl, -, -, -, -, hc⟩, -⟩ := Json.word_shape h
    exact absurd (List.cons.inj hds).1 (ne_of_digit hc)
  | number number =>
    cases number with
    | plain number => exact number.digits
    | negative _ => exact absurd (List.cons.inj hds).1 (ne_of_digit rfl)
  | text _ => exact absurd (List.cons.inj hds).1 (ne_of_digit rfl)
  | emptyList _ _ => exact absurd (List.cons.inj hds).1 (ne_of_digit rfl)
  | list _ _ => exact absurd (List.cons.inj hds).1 (ne_of_digit rfl)
  | emptyTable _ _ => exact absurd (List.cons.inj hds).1 (ne_of_digit rfl)
  | table _ _ => exact absurd (List.cons.inj hds).1 (ne_of_digit rfl)

/-- What comes next after the first digits of an element: the rest of a number, blanks, or what closes the
element. -/
theorem next_after_digits {t g : List Char} {s : Char} (more : List Char)
    (ht : ∀ c ∈ t.head?, c = '.' ∨ c = 'e' ∨ c = 'E') (gap : Json.Gap g) (hs : s = ',' ∨ s = ']') :
    ∀ c ∈ (t ++ (g ++ s :: more)).head?, c ∈ ['.', 'e', 'E', ' ', '\t', '\n', '\r', ',', ']'] := by
  intro c hc
  cases t with
  | cons c' t =>
    obtain rfl : c' = c := Option.some.inj hc
    rcases ht c' rfl with rfl | rfl | rfl <;> decide
  | nil =>
    cases g with
    | cons c' g =>
      obtain rfl : c' = c := Option.some.inj hc
      rcases Json.isSpace_cases (gap c' List.mem_cons_self) with rfl | rfl | rfl | rfl <;> decide
    | nil =>
      obtain rfl : s = c := Option.some.inj hc
      rcases hs with rfl | rfl <;> decide

/-- Digits that another bracket follows are no element of a list. -/
theorem not_begins_of_digits {ds more : List Char} (digits : Json.Digits ds) (y : List Value) :
    ¬ Begins list? y ('[' :: (ds ++ '[' :: more)) := by
  obtain ⟨d, ds, rfl⟩ := List.exists_cons_of_ne_nil digits.ne_nil
  have hd : d.isDigit = true := digits.digit d List.mem_cons_self
  have hspace : Json.isSpace d = false := (Json.startsValue_of_isDigit hd).1
  rintro ⟨v, w, rest, hcut, hw, hpick⟩
  cases v <;> cases hpick
  cases hw with
  | word h => exact absurd rfl ((Json.word_shape h).2.1 _)
  | number number => rcases number.kind with ⟨_, h⟩ | ⟨_, h⟩ <;> cases h
  | emptyList _ gap =>
    simp only [List.cons_append, List.append_assoc, List.nil_append, List.cons.injEq, true_and] at hcut
    obtain rfl := eq_nil_of_gap gap hcut hspace
    obtain rfl : d = ']' := (List.cons.inj hcut).1
    exact absurd hd (by decide)
  | list _ items =>
    simp only [List.cons_append, List.append_assoc, List.nil_append, List.cons.injEq, true_and] at hcut
    obtain ⟨g, w, g', s, tail, u, hsplit, gap, spells, gap', hs⟩ := exists_first_of_items rest items
    rw [hsplit] at hcut
    obtain rfl := eq_nil_of_gap gap hcut hspace
    obtain ⟨e, w, rfl, -⟩ := spells.head
    obtain rfl : d = e := (List.cons.inj hcut).1
    -- the digits of the element are the digits before the second bracket
    obtain ⟨ds', t, hw, digits', ht⟩ := exists_digits_of_spells spells hd
    have stop : Json.NoDigit ('[' :: more) := by
      intro c hc
      obtain rfl : '[' = c := Option.some.inj hc
      rfl
    have hnext := next_after_digits tail ht gap' hs
    have separators : ∀ c ∈ ['.', 'e', 'E', ' ', '\t', '\n', '\r', ',', ']'], c.isDigit = false := by simp
    have stop' : Json.NoDigit (t ++ (g' ++ s :: tail)) := fun c hc => separators c (hnext c hc)
    have hall : d :: ds ++ '[' :: more = ds' ++ (t ++ (g' ++ s :: tail)) := by
      rw [← List.append_assoc, ← hw]
      exact hcut
    have hds := digits.dropWhile_append stop
    rw [hall, digits'.dropWhile_append stop'] at hds
    exact absurd (hnext '[' (by rw [hds]; rfl)) (by decide)

/-- A list behind a bracket and some digits: the bracket begins no list itself. -/
theorem embedded_behind_digits {ds : List Char} {J : String} (digits : Json.Digits ds) (hJ : J.toList.head? = some '[')
    (line : '\n' ∉ J.toList) : Embedded '[' list? (String.ofList ('[' :: ds)) J "" := by
  have plain {c : Char} (hc : c.isDigit = false) : c ∉ ds := by
    intro hmem
    rw [digits.digit c hmem] at hc
    cases hc
  refine ⟨?_, by decide, line, ?_⟩
  · rw [String.toList_ofList]
    intro h
    have hmem : '\x60' ∈ '[' :: ds := h.subset List.mem_cons_self
    rcases List.mem_cons.1 hmem with h | h
    · exact absurd h (by decide)
    · exact plain rfl h
  · intro b c hcut y
    rw [String.toList_ofList] at hcut
    cases b with
    | nil =>
      obtain rfl : ds = c := (List.cons.inj hcut).2
      obtain ⟨more, hmore⟩ := List.head?_eq_some_iff.1 hJ
      rw [hmore]
      exact not_begins_of_digits digits y
    | cons d b =>
      refine absurd ?_ (plain (c := '[') rfl)
      rw [(List.cons.inj hcut).2]
      exact List.mem_append_right b List.mem_cons_self

/-- An opening bracket and the digits of a number that is too long to be read. -/
def longNumber : String :=
  String.ofList ('[' :: List.replicate 4301 '1')

/-- The bracket before the number begins no list, but the reader passes a limit behind it, and the list that follows
is not looked for. -/
theorem not_embedded_value_read :
    Embedded '[' list? longNumber "[\"a\"]" "" ∧ Spells none (.list (["a"].map .text)) "[\"a\"]".toList ∧
      ∃ f, firstList (longNumber ++ "[\"a\"]" ++ "") = .error f ∧ planOf (longNumber ++ "[\"a\"]" ++ "") = .error f ∧
        f.message = (ValueFault.tooManyDigits 4301).message := by
  have digits : Json.Digits (List.replicate 4301 '1') :=
    ⟨List.ne_nil_of_length_pos (by rw [List.length_replicate]; decide),
      fun c hc => by rw [List.eq_of_mem_replicate hc]; rfl⟩
  have spells : Spells none (.list (["a"].map .text)) "[\"a\"]".toList :=
    .list (by decide) (.last (.padded .nil (.text (.of_plain (by decide))) .nil))
  have embedded : Embedded '[' list? longNumber "[\"a\"]" "" := embedded_behind_digits digits rfl (by decide)
  obtain ⟨f, hlimit, hmessage⟩ := exists_of_complaint?
    (show complaint? (Json.leading? ('[' :: List.replicate 4301 '1' ++ ("[\"a\"]".toList ++ "".toList))) =
      some (ValueFault.tooManyDigits 4301).message by decide +kernel)
  have hlist : firstList (longNumber ++ "[\"a\"]" ++ "") = .error f := by
    have clear : Clear '[' [] ('[' :: List.replicate 4301 '1' ++ ("[\"a\"]".toList ++ "".toList)) :=
      fun b c hcut => absurd hcut.symm (List.append_ne_nil_of_right_ne_nil b (List.cons_ne_nil _ c))
    have hp : longNumber.toList = [] ++ '[' :: List.replicate 4301 '1' := String.toList_ofList
    rw [firstList_eq, embedded.firstOf_of_limit bracketed_list spells rfl hp clear hlimit]
    rfl
  refine ⟨embedded, spells, f, hlist, ?_, hmessage⟩
  unfold planOf
  rw [hlist]
  rfl

end Reply

end FixGate
