import FixGate.Proofs.Json.Steps

/-!
# Values that need little room

A text that stands for a value without numbers and with few lists in it stands for that value in a small room as well.
So no limit of a reader is in the way of it. And a table that names each of its fields once has the values it names.

* `Spells.text_room`, `Spells.bool_room`, `Spells.texts_room` : texts, truth values and lists of texts
* `SpellsItems.map_room`, `SpellsMembers.map_room` : another room for the parts of a value
* `lookup_ofMembers` : the fields of a table
-/

namespace FixGate

/-! ## Values that need little room -/

namespace Json

variable {room room' : Option Nat} {v : Value} {vs : List Value} {ms : List (String × Value)} {w : List Char}

theorem Spells.text_room {s : String} (h : Spells room (.text s) w) (room' : Option Nat) :
    Spells room' (.text s) w := by
  cases h with
  | word h => simp [words] at h
  | number number => rcases number.kind with ⟨_, h⟩ | ⟨_, h⟩ <;> cases h
  | text chars => exact .text chars

theorem Spells.bool_room {b : Bool} (h : Spells room (.bool b) w) (room' : Option Nat) :
    Spells room' (.bool b) w := by
  cases h with
  | word h => exact .word h
  | number number => rcases number.kind with ⟨_, h⟩ | ⟨_, h⟩ <;> cases h

theorem SpellsPadded.map_room (h : SpellsPadded room v w)
    (hv : ∀ w, Spells room v w → Spells room' v w) : SpellsPadded room' v w := by
  cases h with
  | padded gap value gap' => exact .padded gap (hv _ value) gap'

theorem SpellsItems.map_room {room room' : Option Nat} {vs : List Value} {w : List Char}
    (h : SpellsItems room vs w) (hv : ∀ v ∈ vs, ∀ w, Spells room v w → Spells room' v w) : SpellsItems room' vs w := by
  match h with
  | .last value => exact .last (value.map_room (hv _ List.mem_cons_self))
  | .more value items =>
    exact .more (value.map_room (hv _ List.mem_cons_self))
      (items.map_room fun v h => hv v (List.mem_cons_of_mem _ h))

theorem SpellsMember.map_room {m : String × Value} (h : SpellsMember room m w)
    (hv : ∀ w, Spells room m.2 w → Spells room' m.2 w) : SpellsMember room' m w := by
  cases h with
  | named gap chars gap' value => exact .named gap chars gap' (value.map_room hv)

theorem SpellsMembers.map_room {room room' : Option Nat} {ms : List (String × Value)} {w : List Char}
    (h : SpellsMembers room ms w) (hv : ∀ m ∈ ms, ∀ w, Spells room m.2 w → Spells room' m.2 w) :
    SpellsMembers room' ms w := by
  match h with
  | .last member => exact .last (member.map_room (hv _ List.mem_cons_self))
  | .more member members =>
    exact .more (member.map_room (hv _ List.mem_cons_self))
      (members.map_room fun m h => hv m (List.mem_cons_of_mem _ h))

/-- A character that stands for itself: no quote, no backslash and no control character. -/
def isPlain (c : Char) : Bool :=
  c != '"' && c != '\\' && 32 ≤ c.toNat

theorem SpellsChars.of_plain {cs : List Char} (plain : cs.all isPlain = true) : SpellsChars cs cs := by
  induction cs with
  | nil => exact .nil
  | cons c cs ih =>
    simp only [List.all_cons, isPlain, Bool.and_eq_true, bne_iff_ne, decide_eq_true_eq] at plain
    obtain ⟨⟨⟨hquote, hslash⟩, visible⟩, plain⟩ := plain
    exact .plain hquote hslash visible (ih plain)

/-- A list of texts opens one list. -/
theorem Spells.texts_room {xs : List String} (h : Spells none (.list (xs.map .text)) w) {k : Nat} (hk : k ≠ 0) :
    Spells (some k) (.list (xs.map .text)) w := by
  generalize hv : Value.list (xs.map .text) = v at h
  cases h with
  | word h => subst hv; simp [words] at h
  | number number => rcases number.kind with ⟨_, h⟩ | ⟨_, h⟩ <;> cases hv.trans h
  | text chars => cases hv
  | emptyList _ gap => exact .emptyList (by simp [hk]) gap
  | list _ items =>
    obtain rfl := Value.list.inj hv
    refine .list (by simp [hk]) (items.map_room ?_)
    intro v hv w hw
    obtain ⟨s, -, rfl⟩ := List.mem_map.1 hv
    exact hw.text_room _
  | emptyTable _ _ => cases hv
  | table _ _ => cases hv

end Json

/-! ## The fields of a table -/

theorem Fields.lookup_insert (fields : Fields) (name n : String) (v : Value) :
    (Fields.insert fields name v).lookup n = if n = name then some v else fields.lookup n := by
  induction fields with
  | nil =>
    by_cases hn : n = name
    · simp [Fields.insert, hn]
    · simp [Fields.insert, hn]
  | cons f fields ih =>
    obtain ⟨k, old⟩ := f
    by_cases hk : k = name
    · subst hk
      simp only [Fields.insert, beq_self_eq_true, if_true, List.lookup_cons]
      by_cases hn : n = k
      · simp [hn]
      · simp [hn, show (n == k) = false from by simpa using hn]
    · simp only [Fields.insert, beq_iff_eq, hk, if_false, List.lookup_cons, ih]
      by_cases hn : n = name
      · subst hn
        simp [show (n == k) = false from by simpa using Ne.symm hk]
      · simp [hn]

theorem lookup_foldl_insert {ms : List (String × Value)} {name : String} (hname : name ∉ ms.map Prod.fst)
    (fields : Fields) :
    (ms.foldl (fun fields m => Fields.insert fields m.1 m.2) fields).lookup name = fields.lookup name := by
  induction ms generalizing fields with
  | nil => rfl
  | cons m ms ih =>
    rw [List.map_cons, List.mem_cons, not_or] at hname
    rw [List.foldl_cons, ih hname.2, Fields.lookup_insert, if_neg hname.1]

/-- Where each field is named once, it has the value it is given. -/
theorem lookup_ofMembers {ms : List (String × Value)} (once : (ms.map Prod.fst).Nodup) {name : String} {v : Value}
    (h : (name, v) ∈ ms) : (Fields.ofMembers ms).lookup name = some v := by
  unfold Fields.ofMembers
  generalize ([] : Fields) = fields
  induction ms generalizing fields with
  | nil => cases h
  | cons m ms ih =>
    rw [List.map_cons, List.nodup_cons] at once
    rcases List.mem_cons.1 h with rfl | h
    · rw [List.foldl_cons, lookup_foldl_insert once.1, Fields.lookup_insert, if_pos rfl]
    · exact ih once.2 h _

end FixGate
