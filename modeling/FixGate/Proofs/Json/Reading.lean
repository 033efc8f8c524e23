import FixGate.Proofs.Json.Steps

/-!
# The reader accepts what the grammar has

What is read at the start of a text is a value of the grammar, spelled by the characters that were taken from the
text. Conversely each text of a value is read as that value, whatever follows it, as long as nothing follows that
goes on with a number. Within the room of the reader this is so without exception. Beyond it there is one more
outcome, that a limit was passed, but never that a text of a value is taken for malformed.

* `Reads` : a value is read, or a limit is passed where there is no bound on what is read
* `Spells.reads`, `exists_spells_of_readValue` : a text of a value is read, and what is read is a text of the value
* `SpellsPadded.readAll`, `exists_padded_of_readAll` : the same for whole texts
* `SpellsPadded.whole?`, `Spells.leading?` : the same where malformed texts count for nothing
-/

namespace FixGate.Json

variable {room : Option Nat} {v : Value} {vs : List Value} {ms : List (String × Value)} {m : String × Value}
  {c : Char} {cs g rest w : List Char} {n depth : Nat}

/-! ## Texts of values are read -/

/-- A value is read up to the rest, or a limit is passed, which only happens where there is no bound on what is
read. -/
def Reads {α : Type} (room : Option Nat) (r : Except Stop (α × List Char)) (x : α) (rest : List Char) : Prop :=
  r = .ok (x, rest) ∨ room = none ∧ ∃ e, r = .error e ∧ e.fault.limit?.isSome = true

theorem Reads.bind {α β : Type} {r : Except Stop (α × List Char)} {x : α} {y : β} {mid : List Char}
    {f : α × List Char → Except Stop (β × List Char)} (h : Reads room r x mid)
    (hf : Reads room (f (x, mid)) y rest) : Reads room (r.bind f) y rest := by
  rcases h with rfl | ⟨hroom, e, rfl, he⟩
  · exact hf
  · exact .inr ⟨hroom, e, rfl, he⟩

theorem Reads.map_room {α : Type} {r : Except Stop (α × List Char)} {x : α} {f : Nat → Nat}
    (h : Reads (room.map f) r x rest) : Reads room r x rest := by
  rcases h with h | ⟨hroom, h⟩
  · exact .inl h
  · exact .inr ⟨Option.map_eq_none_iff.1 hroom, h⟩

/-- Where one more list or table may be opened, it can be, or there is no bound on what is read. -/
theorem room_cases (hroom : room ≠ some 0) (deep : ∀ k ∈ room, k ≤ depth) :
    (∃ d, depth = d + 1 ∧ ∀ k ∈ room.map (· - 1), k ≤ d) ∨ depth = 0 ∧ room = none := by
  cases room with
  | none =>
    cases depth with
    | zero => exact .inr ⟨rfl, rfl⟩
    | succ d => exact .inl ⟨d, rfl, fun k hk => absurd hk (by simp)⟩
  | some k =>
    have hk : k ≤ depth := deep k rfl
    have hk0 : k ≠ 0 := fun h => hroom (by rw [h])
    refine .inl ⟨depth - 1, by omega, fun j hj => ?_⟩
    obtain rfl : k - 1 = j := Option.some.inj hj
    omega

theorem ends_cons (hc : c.isDigit = false ∧ c ≠ '.' ∧ c ≠ 'e' ∧ c ≠ 'E') : Ends (c :: cs) := by
  intro d hd
  obtain rfl : c = d := Option.some.inj hd
  exact hc

theorem Ends.of_gap (gap : Gap g) (ends : Ends rest) : Ends (g ++ rest) := by
  cases g with
  | nil => exact ends
  | cons c g =>
    rcases isSpace_cases (gap c List.mem_cons_self) with rfl | rfl | rfl | rfl <;> exact ends_cons (by decide)

theorem Spells.skip (h : Spells room v w) (gap : Gap g) : skipSpace (g ++ w ++ rest) = w ++ rest := by
  obtain ⟨c, cs, rfl, hc⟩ := h.head
  rw [List.append_assoc]
  exact gap.skip hc.1

theorem SpellsPadded.head (h : SpellsPadded room v w) :
    ∃ c cs, skipSpace (w ++ rest) = c :: cs ∧ StartsValue c := by
  cases h with
  | @padded _ _ g w g' gap value gap' =>
    obtain ⟨c, cs, rfl, hc⟩ := value.head
    refine ⟨c, cs ++ (g' ++ rest), ?_, hc⟩
    rw [List.append_assoc, value.skip gap, List.cons_append]

theorem SpellsItems.head (h : SpellsItems room vs w) :
    ∃ c cs, skipSpace (w ++ rest) = c :: cs ∧ StartsValue c := by
  cases h with
  | last value => exact value.head
  | more value _ =>
    rw [List.append_assoc]
    exact value.head

theorem SpellsMembers.head (h : SpellsMembers room ms w) :
    ∃ cs, skipSpace (w ++ rest) = '"' :: cs := by
  have of_member {m : String × Value} {w rest : List Char} (member : SpellsMember room m w) :
      ∃ cs, skipSpace (w ++ rest) = '"' :: cs := by
    cases member with
    | named gap _ _ _ =>
      simp only [List.append_assoc, List.cons_append]
      exact ⟨_, gap.skip rfl⟩
  cases h with
  | last member => exact of_member member
  | more member _ =>
    rw [List.append_assoc]
    exact of_member member

/-- A bracket is read where one more list or table may be opened. Where there is no bound, it may be refused. -/
theorem reads_bracket {c : Char} (hc : c = '[' ∨ c = '\x7b') (hroom : room ≠ some 0)
    (deep : ∀ k ∈ room, k ≤ depth) {v : Value} {cs rest : List Char}
    (inside : ∀ d, (∀ k ∈ room.map (· - 1), k ≤ d) → Reads room (readValue (n + 1) (d + 1) (c :: cs)) v rest) :
    Reads room (readValue (n + 1) depth (c :: cs)) v rest := by
  rcases room_cases hroom deep with ⟨d, rfl, inner⟩ | ⟨rfl, hroom⟩
  · exact inside d inner
  · rcases hc with rfl | rfl
    · exact .inr ⟨hroom, _, rfl, rfl⟩
    · exact .inr ⟨hroom, _, rfl, rfl⟩

mutual

/-- A text of a value is read as the value. -/
theorem Spells.reads {room : Option Nat} {v : Value} {w : List Char} (h : Spells room v w)
    {n depth : Nat} (deep : ∀ k ∈ room, k ≤ depth) (enough : 2 * w.length < n)
    (rest : List Char)
    (ends : (∃ u b, Numeral b u w) → Ends rest) : Reads room (readValue n depth (w ++ rest)) v rest := by
  obtain ⟨n, rfl⟩ := Nat.exists_eq_add_one_of_ne_zero (Nat.ne_zero_of_lt enough)
  match h with
  | .word hw => exact .inl (readValue_word hw n depth rest)
  | .number number =>
    rw [readValue_numeral number]
    rcases readAtom_of_numeral number (ends ⟨v, _, number⟩) with h | ⟨hroom, h⟩
    · exact .inl h
    · exact .inr ⟨Option.not_isSome_iff_eq_none.1 (by simp [hroom]), h⟩
  | .text chars =>
    simp only [List.cons_append, List.append_assoc]
    rw [readValue_quote]
    exact .inl (by rw [List.nil_append, readText_of_spells chars]; rfl)
  | .emptyList hroom gap =>
    simp only [List.cons_append, List.append_assoc, List.nil_append]
    refine reads_bracket (.inl rfl) hroom deep fun d _ => ?_
    exact .inl (readValue_emptyList (gap.skip rfl) n d)
  | .list hroom items =>
    simp only [List.length_append, List.length_cons, List.length_nil] at enough
    simp only [List.cons_append, List.append_assoc, List.nil_append]
    refine reads_bracket (.inl rfl) hroom deep fun d deep => ?_
    obtain ⟨c, cs, hs, hc⟩ := items.head
    rw [readValue_list fun _ h => hc.2.1 (List.cons.inj (hs.symm.trans h)).1]
    exact (items.reads deep (by omega) rest).map_room.bind (.inl rfl)
  | .emptyTable hroom gap =>
    simp only [List.cons_append, List.append_assoc, List.nil_append]
    refine reads_bracket (.inr rfl) hroom deep fun d _ => ?_
    exact .inl (readValue_emptyTable (gap.skip rfl) n d)
  | .table hroom members =>
    simp only [List.length_append, List.length_cons, List.length_nil] at enough
    simp only [List.cons_append, List.append_assoc, List.nil_append]
    refine reads_bracket (.inr rfl) hroom deep fun d deep => ?_
    obtain ⟨cs, hs⟩ := members.head
    rw [readValue_table fun _ h => absurd (List.cons.inj (hs.symm.trans h)).1 (by decide)]
    exact (members.reads deep [] (by omega) rest).map_room.bind (.inl rfl)

theorem SpellsPadded.reads {room : Option Nat} {v : Value} {w : List Char} (h : SpellsPadded room v w)
    {n depth : Nat} (deep : ∀ k ∈ room, k ≤ depth) (enough : 2 * w.length < n) (rest : List Char)
    (ends : Ends rest) :
    ∃ g, Gap g ∧ Reads room (readValue n depth (skipSpace (w ++ rest))) v (g ++ rest) := by
  match h with
  | @SpellsPadded.padded _ _ _ _ g gap value gap' =>
    simp only [List.length_append] at enough
    refine ⟨g, gap', ?_⟩
    rw [List.append_assoc, value.skip gap]
    exact value.reads deep (by omega) _ fun _ => ends.of_gap gap'

theorem SpellsItems.reads {room : Option Nat} {vs : List Value} {w : List Char} (h : SpellsItems room vs w)
    {n depth : Nat} (deep : ∀ k ∈ room, k ≤ depth) (enough : 2 * w.length + 1 < n) (rest : List Char) :
    Reads room (readItems n depth (skipSpace (w ++ ']' :: rest))) vs rest := by
  obtain ⟨n, rfl⟩ := Nat.exists_eq_add_one_of_ne_zero (Nat.ne_zero_of_lt enough)
  rw [readItems_succ]
  match h with
  | .last value =>
    obtain ⟨g, gap, hvalue⟩ := value.reads (n := n) deep (by omega) (']' :: rest) (ends_cons (by decide))
    refine hvalue.bind (.inl ?_)
    rw [afterItem, gap.skip rfl]
    rfl
  | @SpellsItems.more _ _ _ cs ds value items =>
    simp only [List.length_append, List.length_cons] at enough
    obtain ⟨g, gap, hvalue⟩ := value.reads (n := n) deep (by omega) (',' :: (ds ++ ']' :: rest))
      (ends_cons (by decide))
    rw [List.append_assoc, List.cons_append]
    refine hvalue.bind ?_
    rw [afterItem, gap.skip rfl]
    exact (items.reads deep (by omega) rest).bind (.inl rfl)

theorem SpellsMember.reads {room : Option Nat} {m : String × Value} {w : List Char}
    (h : SpellsMember room m w) {n depth : Nat} (deep : ∀ k ∈ room, k ≤ depth) (enough : 2 * w.length < n)
    (rest : List Char) (ends : Ends rest) (fields : Fields) {fields' : Fields} {rest' : List Char}
    (hrest : ∀ g, Gap g → Reads room
      (afterField (readFields n depth) (Fields.insert fields m.1 m.2) (g ++ rest)) fields' rest') :
    Reads room (readFields (n + 1) depth fields (skipSpace (w ++ rest))) fields' rest' := by
  match h with
  | @SpellsMember.named _ name _ _ _ g' ds gap chars gap' value =>
    simp only [List.length_append, List.length_cons] at enough
    simp only [List.append_assoc, List.cons_append]
    rw [gap.skip rfl, readFields_succ, readText_of_spells chars]
    obtain ⟨g, hg, hvalue⟩ := value.reads (n := n) deep (by omega) rest ends
    show Reads room (afterName _ _ fields name (g' ++ ':' :: (ds ++ rest))) fields' rest'
    rw [afterName, gap'.skip rfl]
    exact hvalue.bind (hrest g hg)

theorem SpellsMembers.reads {room : Option Nat} {ms : List (String × Value)} {w : List Char}
    (h : SpellsMembers room ms w) {n depth : Nat} (deep : ∀ k ∈ room, k ≤ depth) (fields : Fields)
    (enough : 2 * w.length + 1 < n) (rest : List Char) :
    Reads room (readFields n depth fields (skipSpace (w ++ '\x7d' :: rest)))
      (ms.foldl (fun fields m => Fields.insert fields m.1 m.2) fields) rest := by
  obtain ⟨n, rfl⟩ := Nat.exists_eq_add_one_of_ne_zero (Nat.ne_zero_of_lt enough)
  match h with
  | .last member =>
    refine member.reads deep (by omega) _ (ends_cons (by decide)) fields fun g gap => .inl ?_
    rw [afterField, gap.skip rfl]
    rfl
  | @SpellsMembers.more _ _ _ cs ds member members =>
    simp only [List.length_append, List.length_cons] at enough
    rw [List.append_assoc, List.cons_append]
    refine member.reads deep (by omega) _ (ends_cons (by decide)) fields fun g gap => ?_
    rw [afterField, gap.skip rfl]
    exact members.reads deep _ (by omega) rest

end

/-! ## What is read is a text of the value -/

/-- What stands for a value read from a text without the spaces before it. -/
theorem exists_padded (cs : List Char) {mid : List Char} (hcut : skipSpace cs = w ++ mid) (hw : Spells room v w) :
    ∃ d, cs = d ++ skipSpace mid ∧ SpellsPadded room v d := by
  obtain ⟨g, gap, hg⟩ := exists_gap cs
  obtain ⟨g', gap', hg'⟩ := exists_gap mid
  refine ⟨g ++ w ++ g', ?_, .padded gap hw gap'⟩
  rw [List.append_assoc, ← hg', List.append_assoc, ← hcut, ← hg]

/-- A reader takes more room than any text it reads may have. -/
theorem room_map (deep : ∀ k ∈ room, depth + 1 ≤ k) :
    room ≠ some 0 ∧ ∀ k ∈ room.map (· - 1), depth ≤ k := by
  cases room with
  | none => exact ⟨by simp, by simp⟩
  | some k =>
    have hk : depth + 1 ≤ k := deep k rfl
    refine ⟨fun h => ?_, fun j hj => ?_⟩
    · cases h
      omega
    · obtain rfl : k - 1 = j := Option.some.inj hj
      omega

mutual

theorem exists_spells_of_readValue {room : Option Nat} {depth : Nat} {cs rest : List Char} {v : Value} (n : Nat)
    (deep : ∀ k ∈ room, depth ≤ k) (h : readValue n depth cs = .ok (v, rest)) :
    ∃ w, cs = w ++ rest ∧ Spells room v w := by
  match n, h with
  | n + 1, h =>
  rcases readValue_cases h with h | ⟨s, tail, rfl, hs, rfl⟩ | ⟨d, tail, rfl, rfl, hin⟩ | ⟨d, tail, rfl, rfl, hin⟩
  · obtain ⟨w, hcut, hw⟩ := exists_spells_of_readAtom h
    exact ⟨w, hcut, hw room⟩
  · obtain ⟨w, rfl, hw⟩ := exists_spells_of_readText hs
    exact ⟨'"' :: w ++ ['"'], by simp, .text hw⟩
  · obtain ⟨hroom, inner⟩ := room_map deep
    rcases hin with ⟨hs, rfl⟩ | ⟨vs, hvs, rfl⟩
    · obtain ⟨g, gap, hg⟩ := exists_gap tail
      exact ⟨'[' :: g ++ [']'], by rw [hg, hs]; simp, .emptyList hroom gap⟩
    · obtain ⟨ds, rfl, hds⟩ := exists_items_of_readItems n inner hvs
      exact ⟨'[' :: ds ++ [']'], by simp, .list hroom hds⟩
  · obtain ⟨hroom, inner⟩ := room_map deep
    rcases hin with ⟨hs, rfl⟩ | ⟨fields, hfields, rfl⟩
    · obtain ⟨g, gap, hg⟩ := exists_gap tail
      exact ⟨'\x7b' :: g ++ ['\x7d'], by rw [hg, hs]; simp, .emptyTable hroom gap⟩
    · obtain ⟨ms, ds, rfl, rfl, hds⟩ := exists_members_of_readFields n inner hfields
      exact ⟨'\x7b' :: ds ++ ['\x7d'], by simp, .table hroom hds⟩

theorem exists_items_of_readItems {room : Option Nat} {depth : Nat} {cs rest : List Char} {vs : List Value} (n : Nat)
    (deep : ∀ k ∈ room, depth ≤ k) (h : readItems n depth (skipSpace cs) = .ok (vs, rest)) :
    ∃ ds, cs = ds ++ ']' :: rest ∧ SpellsItems room vs ds := by
  match n, h with
  | n + 1, h =>
  rw [readItems_succ] at h
  obtain ⟨⟨v, mid⟩, hv, h⟩ := bind_eq_ok h
  obtain ⟨w, hcut, hw⟩ := exists_spells_of_readValue n deep hv
  obtain ⟨d, hd, hw⟩ := exists_padded cs hcut hw
  rcases afterItem_cases h with ⟨hs, rfl⟩ | ⟨tail, vs', hs, hrest, rfl⟩
  · exact ⟨d, by rw [hd, hs], .last hw⟩
  · obtain ⟨ds, rfl, hds⟩ := exists_items_of_readItems n deep hrest
    exact ⟨d ++ ',' :: ds, by rw [hd, hs]; simp, .more hw hds⟩

theorem exists_members_of_readFields {room : Option Nat} {depth : Nat} {cs rest : List Char}
    {fields fields' : Fields} (n : Nat) (deep : ∀ k ∈ room, depth ≤ k)
    (h : readFields n depth fields (skipSpace cs) = .ok (fields', rest)) :
    ∃ ms ds, cs = ds ++ '\x7d' :: rest ∧
      fields' = ms.foldl (fun fields m => Fields.insert fields m.1 m.2) fields ∧ SpellsMembers room ms ds := by
  match n, h with
  | n + 1, h =>
  obtain ⟨g, gap, hg⟩ := exists_gap cs
  have hbegin : ∃ tail, skipSpace cs = '"' :: tail := by
    unfold readFields at h
    split at h
    · next tail hs => exact ⟨tail, hs⟩
    · cases h
  obtain ⟨tail, hs⟩ := hbegin
  rw [hs, readFields_succ] at h
  obtain ⟨⟨name, mid⟩, hname, hafter⟩ := bind_eq_ok h
  obtain ⟨tail, r, hcolon, hv, hafter⟩ := afterName_cases hafter
  obtain ⟨chars, rfl, hchars⟩ := exists_spells_of_readText hname
  obtain ⟨g', gap', hg'⟩ := exists_gap mid
  obtain ⟨w, hcut, hw⟩ := exists_spells_of_readValue n deep hv
  obtain ⟨d, hd, hw⟩ := exists_padded tail hcut hw
  have hmember : SpellsMember room (name, r.1) (g ++ '"' :: chars ++ '"' :: g' ++ ':' :: d) :=
    .named gap hchars gap' hw
  have hall : cs = (g ++ '"' :: chars ++ '"' :: g' ++ ':' :: d) ++ skipSpace r.2 := by
    rw [hg, hs, hg', hcolon, hd]
    simp
  rcases afterField_cases hafter with ⟨hclose, rfl⟩ | ⟨tail, hcomma, hrest⟩
  · exact ⟨[(name, r.1)], _, by rw [hall, hclose], rfl, .last hmember⟩
  · obtain ⟨ms, ds, rfl, rfl, hds⟩ := exists_members_of_readFields n deep hrest
    refine ⟨(name, r.1) :: ms, _, ?_, rfl, .more hmember hds⟩
    rw [hall, hcomma]
    simp

end

/-! ## Whole texts -/

theorem Spells.readLeading (h : Spells room v w) (hroom : ∀ k ∈ room, k ≤ depthLimit) (rest : List Char)
    (ends : (∃ u b, Numeral b u w) → Ends rest) : Reads room (readLeading (w ++ rest)) v rest :=
  h.reads hroom (by simp only [List.length_append]; omega) rest ends

theorem exists_spells_of_readLeading (h : readLeading cs = .ok (v, rest)) (hroom : ∀ k ∈ room, depthLimit ≤ k) :
    ∃ w, cs = w ++ rest ∧ Spells room v w :=
  exists_spells_of_readValue _ hroom h

theorem readAll_of_head (hcs : cs.head? ≠ some '\ufeff') :
    readAll cs = (readLeading (skipSpace cs)).bind fun r =>
      if skipSpace r.2 = [] then .ok r.1 else .error ⟨.extra, (skipSpace r.2).length⟩ := by
  unfold readAll
  split
  · exact absurd rfl hcs
  · cases readLeading (skipSpace cs) with
    | error e => rfl
    | ok r =>
      simp only [Except.bind, bind]
      split
      · next hs => rw [if_pos hs]; rfl
      · next hs => rw [if_neg hs]

theorem SpellsPadded.head?_ne (h : SpellsPadded room v cs) : cs.head? ≠ some '\ufeff' := by
  cases h with
  | @padded _ _ g w g' gap value gap' =>
    cases g with
    | nil =>
      obtain ⟨c, cs, rfl, hc⟩ := value.head
      intro h
      exact hc.2.2 (Option.some.inj h)
    | cons c g =>
      intro h
      obtain rfl : c = '\ufeff' := Option.some.inj h
      exact absurd (gap _ List.mem_cons_self) (by decide)

/-- A text that stands for a value is read as it, or a limit is passed where there is no bound on what is read. -/
theorem SpellsPadded.readAll (h : SpellsPadded room v cs) (hroom : ∀ k ∈ room, k ≤ depthLimit) :
    readAll cs = .ok v ∨ room = none ∧ ∃ e, readAll cs = .error e ∧ e.fault.limit?.isSome = true := by
  rw [readAll_of_head h.head?_ne]
  cases h with
  | @padded _ _ g w g' gap value gap' =>
    rw [value.skip gap]
    have ends : Ends g' := by
      have := Ends.of_gap gap' (show Ends [] from fun c hc => by cases hc)
      rwa [List.append_nil] at this
    have hspace : skipSpace g' = [] := by
      have := skipSpace_append gap' []
      rwa [List.append_nil] at this
    rcases value.readLeading hroom g' fun _ => ends with h | ⟨hroom, e, h, he⟩
    · exact .inl (by rw [h]; exact if_pos hspace)
    · exact .inr ⟨hroom, e, by rw [h]; rfl, he⟩

theorem exists_padded_of_readAll (h : readAll cs = .ok v) (hroom : ∀ k ∈ room, depthLimit ≤ k) :
    SpellsPadded room v cs := by
  have hcs : cs.head? ≠ some '\ufeff' := by
    intro hcs
    obtain ⟨rest, rfl⟩ := List.head?_eq_some_iff.1 hcs
    cases h
  rw [readAll_of_head hcs] at h
  obtain ⟨⟨u, rest⟩, hread, h⟩ := bind_eq_ok h
  split at h
  · next hs =>
    cases h
    obtain ⟨w, hcut, hw⟩ := exists_spells_of_readLeading hread hroom
    obtain ⟨g, gap, hg⟩ := exists_gap cs
    obtain ⟨g', gap', hg'⟩ := exists_gap rest
    rw [hs, List.append_nil] at hg'
    rw [hg, hcut, ← List.append_assoc, hg']
    exact .padded gap hw gap'
  · cases h

/-! ## Limits apart from malformed texts -/

section IfWellFormed

variable {ε α : Type} {fault : ε → Fault} {r : Except ε α} {x : α} {f : Failure}

theorem ifWellFormed_eq_some_iff : ifWellFormed fault r = .ok (some x) ↔ r = .ok x := by
  cases r with
  | ok y => simp [ifWellFormed]
  | error e => cases h : (fault e).limit? <;> simp [ifWellFormed, h]

theorem ifWellFormed_of_limit {e : ε} (h : (fault e).limit?.isSome = true) :
    ∃ f, (fault e).limit? = some f ∧ ifWellFormed fault (.error e : Except ε α) = .error f := by
  obtain ⟨f, hf⟩ := Option.isSome_iff_exists.1 h
  exact ⟨f, hf, by simp [ifWellFormed, hf]⟩

end IfWellFormed

/-- What the reader takes as a value at the start of a text is a text of the value. -/
theorem exists_spells_of_leading? (h : leading? cs = .ok (some v)) (hroom : ∀ k ∈ room, depthLimit ≤ k) :
    ∃ w rest, cs = w ++ rest ∧ Spells room v w := by
  unfold leading? at h
  cases hr : ifWellFormed Stop.fault (readLeading cs) with
  | error f => rw [hr] at h; cases h
  | ok r =>
    rw [hr] at h
    obtain ⟨⟨u, rest⟩, rfl, rfl⟩ := Option.map_eq_some_iff.1 (Except.ok.inj h)
    obtain ⟨w, hcut, hw⟩ := exists_spells_of_readLeading (ifWellFormed_eq_some_iff.1 hr) hroom
    exact ⟨w, rest, hcut, hw⟩

/-- A text of a value at the start of a text is read as the value, or a limit is passed. -/
theorem Spells.leading? (h : Spells room v w) (hroom : ∀ k ∈ room, k ≤ depthLimit) (rest : List Char)
    (ends : (∃ u b, Numeral b u w) → Ends rest) :
    leading? (w ++ rest) = .ok (some v) ∨ room = none ∧ ∃ f, leading? (w ++ rest) = .error f := by
  unfold Json.leading?
  rcases h.readLeading hroom rest ends with h | ⟨hnone, e, h, he⟩
  · rw [ifWellFormed_eq_some_iff.2 h]
    exact .inl rfl
  · obtain ⟨f, -, hf⟩ := ifWellFormed_of_limit (α := Value × List Char) he
    rw [h, hf]
    exact .inr ⟨hnone, f, rfl⟩

theorem read_eq_ok_iff {s : String} : read s = .ok v ↔ readAll s.toList = .ok v := by
  simp only [read]
  split
  · next u hu => rw [hu, Except.ok.injEq, Except.ok.injEq]
  · next e he =>
    rw [he]
    exact iff_of_false (fun h => by cases h) (fun h => by cases h)

/-- What the reader takes as the value of a whole text is what the text stands for. -/
theorem exists_padded_of_whole? {s : String} (h : whole? s = .ok (some v)) (hroom : ∀ k ∈ room, depthLimit ≤ k) :
    SpellsPadded room v s.toList :=
  exists_padded_of_readAll (read_eq_ok_iff.1 (ifWellFormed_eq_some_iff.1 h)) hroom

/-- A text that stands for a value is read as the value, or a limit is passed. -/
theorem SpellsPadded.whole? {s : String} (h : SpellsPadded room v s.toList) (hroom : ∀ k ∈ room, k ≤ depthLimit) :
    whole? s = .ok (some v) ∨ room = none ∧ ∃ f, whole? s = .error f := by
  unfold Json.whole?
  rcases h.readAll hroom with h | ⟨hnone, e, h, he⟩
  · exact .inl (ifWellFormed_eq_some_iff.2 (read_eq_ok_iff.2 h))
  · obtain ⟨complaint, hread, hfault⟩ : ∃ c, read s = .error c ∧ c.fault = e.fault :=
      ⟨⟨e.fault, Text.points (s.toList.take (s.toList.length - e.left))⟩, by simp only [read, h], rfl⟩
    rw [← hfault] at he
    obtain ⟨f, -, hf⟩ := ifWellFormed_of_limit (α := Value) he
    exact .inr ⟨hnone, f, by rw [hread, hf]⟩

/-- What the reader takes for malformed stands for no value. -/
theorem not_padded_of_whole? {s : String} (h : whole? s = .ok none) (v : Value) : ¬ SpellsPadded none v s.toList := by
  intro spells
  rcases spells.whole? (by simp) with hread | ⟨-, f, hread⟩
  · rw [h] at hread
    cases hread
  · rw [h] at hread
    cases hread

end FixGate.Json
