import FixGate.Compile.Cargo
import FixGate.Proofs.Json.Reading
import FixGate.Proofs.Json.Zones
import FixGate.Proofs.Text.Strip

/-!
# Reading a report of cargo

A report holds a record on each line, and other lines. It is cut at whatever ends a line in some script, while a record
may hold such characters within the quotes of its texts. A record without them is read as a whole. Of one that is cut
nothing is left: its pieces make no sense, or else name no reason, since the quotes are the wrong way round in them.

* `CargoMessage.Says` : what a record says
* `ReportLine`, `ReportLine.WellFormed` : a message of the compiler, another record, or another line
* `CargoMessage.ofLine_of_spells`, `CargoMessage.ofLine_of_misplaced` : a whole record, and a piece of one
* `cargoMessages_lines` : a report is read line by line
* `cargoMessages_of_report` : the messages in a report
-/

namespace FixGate

open Json (Zone Spells SpellsPadded)

/-! ## Fields of a table -/

namespace Value

variable {fields : Fields} {name : String}

theorem getOr_of_lookup {v : Value} (h : fields.lookup name = some v) (default : Value) :
    (Value.table fields).getOr name default = .ok v := by
  show Except.ok ((fields.lookup name).getD default) = _
  rw [h]
  rfl

theorem getOr_of_lookup_none (h : fields.lookup name = none) (default : Value) :
    (Value.table fields).getOr name default = .ok default := by
  show Except.ok ((fields.lookup name).getD default) = _
  rw [h]
  rfl

end Value

/-! ## Records and what they say -/

namespace CargoMessage

/-- A span of source, which may be marked primary or not. -/
def IsSpan (v : Value) : Prop :=
  ∃ fields, v = .table fields ∧ (fields.lookup "is_primary" = none ∨ ∃ b, fields.lookup "is_primary" = some (.bool b))

/-- A span that is marked primary. -/
def IsPrimary (v : Value) : Prop :=
  ∃ fields, v = .table fields ∧ fields.lookup "is_primary" = some (.bool true)

/-- The span that counts among some: the first one that is marked primary, or else the first one, or else nothing. -/
inductive Counts : List Value → Value → Prop
  | marked {before after : List Value} {s : Value} : (∀ b ∈ before, ¬ IsPrimary b) → IsPrimary s →
      Counts (before ++ s :: after) s
  | first {s : Value} {rest : List Value} : (∀ b ∈ s :: rest, ¬ IsPrimary b) → Counts (s :: rest) s
  | nothing : Counts [] (.table [])

/-- The code of a message: a name in a table, or none. -/
inductive SaysCode : Value → Value → Prop
  | named {fields : Fields} {name : Value} : fields.lookup "code" = some name → SaysCode (.table fields) name
  | nameless : SaysCode .null (.text "")

/-- What a record of the compiler says: its message has a level, a text, a code and spans of source. -/
structure Says (fields : Fields) (m : CargoMessage) : Prop where
  reason : fields.lookup "reason" = some (.text "compiler-message")
  message : ∃ message code spans, fields.lookup "message" = some (.table message) ∧
    message.lookup "level" = some m.level ∧ message.lookup "message" = some m.message ∧
    message.lookup "code" = some code ∧ SaysCode code m.code ∧
    message.lookup "spans" = some (.list spans) ∧ (∀ s ∈ spans, IsSpan s) ∧ Counts spans m.span

variable {fields : Fields} {m : CargoMessage} {vs : List Value} {s : Value}

theorem getOr_of_not_isPrimary (span : IsSpan s) (h : ¬ IsPrimary s) :
    ∃ v, s.getOr "is_primary" .null = .ok v ∧ v.isTrue = false := by
  obtain ⟨fields, rfl, hlookup | ⟨b, hlookup⟩⟩ := span
  · exact ⟨.null, Value.getOr_of_lookup_none hlookup _, rfl⟩
  · cases b with
    | true => exact absurd ⟨fields, rfl, hlookup⟩ h
    | false => exact ⟨.bool false, Value.getOr_of_lookup hlookup _, rfl⟩

theorem firstPrimary_append {before : List Value} (spans : ∀ b ∈ before, IsSpan b) (h : ∀ b ∈ before, ¬ IsPrimary b)
    (rest : List Value) : firstPrimary (before ++ rest) = firstPrimary rest := by
  induction before with
  | nil => rfl
  | cons b before ih =>
    obtain ⟨v, hv, hfalse⟩ := getOr_of_not_isPrimary (spans b List.mem_cons_self) (h b List.mem_cons_self)
    rw [List.cons_append, firstPrimary, hv]
    show (if v.isTrue then _ else _) = _
    rw [hfalse, if_neg Bool.false_ne_true]
    exact ih (fun c hc => spans c (List.mem_cons_of_mem b hc)) fun c hc => h c (List.mem_cons_of_mem b hc)

theorem firstPrimary_of_isPrimary (h : IsPrimary s) (rest : List Value) : firstPrimary (s :: rest) = .ok (some s) := by
  obtain ⟨fields, rfl, hlookup⟩ := h
  rw [firstPrimary, Value.getOr_of_lookup hlookup]
  rfl

theorem primarySpan_cons (first : Value) (rest : List Value) :
    primarySpan (.list (first :: rest)) = (firstPrimary (first :: rest)).map (·.getD first) := by
  show (firstPrimary (first :: rest)).bind _ = _
  cases firstPrimary (first :: rest) <;> rfl

/-- The span that counts is found, also where there are none. -/
theorem primarySpan_of_counts (spans : ∀ s ∈ vs, IsSpan s) (counts : Counts vs s) :
    primarySpan (if (Value.list vs).isTrue then .list vs else .list [.table []]) = .ok s := by
  cases counts with
  | @marked before after _ unmarked primary =>
    have found : firstPrimary (before ++ s :: after) = .ok (some s) := by
      rw [firstPrimary_append (fun b hb => spans b (List.mem_append_left _ hb)) unmarked,
        firstPrimary_of_isPrimary primary]
    rw [if_pos (by simp [Value.isTrue])]
    cases before with
    | nil =>
      rw [List.nil_append] at found ⊢
      rw [primarySpan_cons, found]
      rfl
    | cons b before =>
      rw [List.cons_append] at found ⊢
      rw [primarySpan_cons, found]
      rfl
  | @first _ rest unmarked =>
    have found := firstPrimary_append spans unmarked []
    rw [List.append_nil] at found
    show primarySpan (.list (s :: rest)) = .ok s
    rw [primarySpan_cons, found]
    rfl
  | nothing => rfl

theorem fieldOr_of_lookup {name : String} {v default : Value} (h : fields.lookup name = some v) :
    fieldOr (.table fields) name default = .ok (if v.isTrue then v else default) := by
  rw [fieldOr, Value.getOr_of_lookup h]
  rfl

theorem isTrue_table_of_lookup {name : String} {v : Value} (h : fields.lookup name = some v) :
    (Value.table fields).isTrue = true := by
  cases fields with
  | nil => cases h
  | cons f fields => rfl

/-- A record that says a message is read as the message. -/
theorem ofRecord_of_said (said : Says fields m) : ofRecord (.table fields) = .ok (some m) := by
  obtain ⟨message, code, spans, hmessage, hlevel, htext, hcode, saysCode, hspans, areSpans, counts⟩ := said.message
  have span := primarySpan_of_counts areSpans counts
  have isTable := isTrue_table_of_lookup hlevel
  cases m with
  | mk level text name s =>
    unfold ofRecord
    simp only [Value.getOr_of_lookup said.reason, fieldOr_of_lookup hmessage, isTable, if_true,
      fieldOr_of_lookup hspans, fieldOr_of_lookup hcode, bind, Except.bind, span, Value.getOr_of_lookup hlevel,
      Value.getOr_of_lookup htext]
    cases saysCode with
    | nameless => rfl
    | named hname =>
      simp only [isTrue_table_of_lookup hname, if_true, hname]
      rfl

/-- A record of another kind is passed over. -/
theorem ofRecord_of_ne (other : fields.lookup "reason" ≠ some (.text "compiler-message")) :
    ofRecord (.table fields) = .ok none := by
  have reason : Value.getOr (.table fields) "reason" .null = .ok ((fields.lookup "reason").getD .null) := rfl
  unfold ofRecord
  simp only [reason, bind, Except.bind]
  split
  · next h =>
    cases hlookup : fields.lookup "reason" with
    | none =>
      rw [hlookup] at h
      cases h
    | some v =>
      rw [hlookup] at h
      exact absurd (hlookup.trans (congrArg some h)) other
  · rfl

/-! ## A line -/

/-- A line that begins like a record and leads the reader to one of its limits. -/
def MeetsLimit (line : String) (f : Failure) : Prop :=
  Text.startsWith (Text.strip line) "\x7b" = true ∧ Json.whole? (Text.strip line) = .error f

variable {line : String} {f : Failure} {room : Option Nat} {w : List Char}

theorem ofLine_of_meetsLimit (h : MeetsLimit line f) : ofLine line = .error f := by
  simp only [ofLine, h.1, Bool.not_true, if_neg Bool.false_ne_true, h.2]
  rfl

theorem ofLine_of_not_startsWith (h : Text.startsWith (Text.strip line) "\x7b" = false) : ofLine line = .ok none := by
  simp only [ofLine, h]
  rfl

theorem padded_of_spells {v : Value} (h : Spells room v w) : SpellsPadded room v w := by
  have h : SpellsPadded room v ([] ++ w ++ []) := .padded .nil h .nil
  rwa [List.nil_append, List.append_nil] at h

theorem exists_braces_of_spells (h : Spells room (.table fields) w) : ∃ cs, w = '\x7b' :: cs ++ ['\x7d'] := by
  rcases h.shape with ⟨vs, cs, hv, -⟩ | ⟨fs, cs, -, hw⟩ | ⟨⟨-, hv⟩, -⟩
  · cases hv
  · exact ⟨cs, hw⟩
  · exact absurd rfl (hv fields)

/-- What is left of a text with spaces around that of a table is the latter. -/
theorem stripChars_of_spells {gap gap' : List Char} (hgap : Json.Gap gap) (h : Spells room (.table fields) w)
    (hgap' : Json.Gap gap') : Text.stripChars (gap ++ w ++ gap') = w := by
  obtain ⟨cs, rfl⟩ := exists_braces_of_spells h
  apply Text.stripChars_between
  · exact fun c hc => Json.isBlank_of_isSpace (hgap c hc)
  · exact fun c hc => Json.isBlank_of_isSpace (hgap' c hc)
  · rintro c ⟨⟩
    decide
  · intro c hc
    rw [List.getLast?_concat] at hc
    obtain rfl := Option.some.inj hc
    decide

/-- What is left of the text of a table without the spaces around it is a text of the table. -/
theorem spells_strip (h : SpellsPadded room (.table fields) line.toList) :
    Spells room (.table fields) (Text.strip line).toList := by
  rw [Text.strip, String.toList_ofList]
  generalize line.toList = cs at h
  generalize hv : Value.table fields = v at h
  cases h with
  | padded hgap spells hgap' =>
    subst hv
    rw [stripChars_of_spells hgap spells hgap']
    exact spells

/-- The text of a table has no spaces to lose. -/
theorem strip_of_spells (h : Spells room (.table fields) line.toList) : Text.strip line = line := by
  have hstrip := stripChars_of_spells .nil h .nil
  rw [List.nil_append, List.append_nil] at hstrip
  rw [Text.strip, hstrip, String.ofList_toList]

theorem startsWith_of_spells {text : String} (h : Spells room (.table fields) text.toList) :
    Text.startsWith text "\x7b" = true := by
  obtain ⟨cs, hcs⟩ := exists_braces_of_spells h
  rw [Text.startsWith, hcs]
  rfl

/-- A record on a line is read, unless it leads the reader to a limit. -/
theorem ofLine_of_spells (h : SpellsPadded none (.table fields) line.toList) :
    ofLine line = ofRecord (.table fields) ∨ ∃ f, MeetsLimit line f := by
  have spells := spells_strip h
  have starts := startsWith_of_spells spells
  rcases (padded_of_spells spells).whole? (by simp) with hread | ⟨-, f, hread⟩
  · left
    simp only [ofLine, starts, Bool.not_true, if_neg Bool.false_ne_true, hread]
    rfl
  · exact .inr ⟨f, starts, hread⟩

/-- A record leads the reader to a limit exactly if it is not read. -/
theorem not_meetsLimit_iff (h : Spells none (.table fields) line.toList) :
    (∀ f, ¬ MeetsLimit line f) ↔ (Json.readAll line.toList).isOk = true := by
  rcases (padded_of_spells h).whole? (by simp) with hread | ⟨-, f, hread⟩
  · refine iff_of_true ?_ ?_
    · intro f hf
      rw [MeetsLimit, strip_of_spells h, hread] at hf
      cases hf.2
    · rw [Json.read_eq_ok_iff.1 (Json.ifWellFormed_eq_some_iff.1 hread)]
      rfl
  · refine iff_of_false ?_ ?_
    · intro free
      apply free f
      rw [MeetsLimit, strip_of_spells h]
      exact ⟨startsWith_of_spells h, hread⟩
    · intro hok
      cases hall : Json.readAll line.toList with
      | error e =>
        rw [hall] at hok
        cases hok
      | ok v =>
        cases hread.symm.trans (Json.ifWellFormed_eq_some_iff.2 (Json.read_eq_ok_iff.2 hall))

/-- Only a table is spelled from a brace on. -/
theorem exists_fields_of_startsWith {text : String} {v : Value} (h : SpellsPadded room v text.toList)
    (starts : Text.startsWith text "\x7b" = true) : ∃ fields, v = .table fields := by
  obtain ⟨rest, hrest⟩ := List.isPrefixOf_iff_prefix.1 starts
  rw [← hrest] at h
  generalize hcs : "\x7b".toList ++ rest = cs at h
  cases h with
  | @padded _ _ gap w gap' hgap spells hgap' =>
    cases gap with
    | cons c gap =>
      obtain rfl := (List.cons.inj hcs).1
      exact absurd (hgap _ List.mem_cons_self) (by decide)
    | nil =>
      obtain ⟨c, cs, rfl, -⟩ := spells.head
      obtain rfl := (List.cons.inj hcs).1
      rcases spells.shape with ⟨vs, cs', -, hw⟩ | ⟨fields, -, hv, -⟩ | ⟨-, -, hw⟩
      · exact absurd (List.cons.inj hw).1 (by decide)
      · exact ⟨fields, hv⟩
      · exact absurd rfl hw

/-- A piece of a text that is cut is no JSON text by itself, or one that names no reason. -/
theorem lookup_reason_of_misplaced (h : Zone.Misplaced line.toList)
    (padded : SpellsPadded room (.table fields) (Text.strip line).toList) : fields.lookup "reason" = none := by
  obtain ⟨gap, gap', hcut, hgap, hgap'⟩ := Text.exists_blanks_around_strip line.toList
  have text : (Text.strip line).toList = Text.stripChars line.toList := String.toList_ofList
  have plain {cs : List Char} (hcs : ∀ c ∈ cs, Text.isBlank c = true) {c : Char} (hc : Text.isBlank c = false) :
      c ∉ cs := by
    intro hmem
    rw [hcs c hmem] at hc
    cases hc
  rw [text] at padded
  rw [hcut, List.append_assoc] at h
  rcases h with h | ⟨z, h⟩
  · -- the blanks behind a whole text do not lead into the quotes
    rw [Zone.after_append] at h
    obtain ⟨y, hy, h⟩ := Option.bind_eq_some_iff.1 h
    obtain rfl := Zone.eq_outside_of_quoteless (plain hgap (by decide)) hy
    rw [Zone.after_append_of_after padded.zone] at h
    cases Zone.eq_outside_of_quoteless (plain hgap' (by decide)) h
  · rw [Zone.after_append] at h
    obtain ⟨y, hy, h⟩ := Option.bind_eq_some_iff.1 h
    obtain rfl := Zone.eq_within_of_quoteless (plain hgap (by decide)) (plain hgap (by decide)) hy
    rw [Zone.after_append] at h
    obtain ⟨b, hb, -⟩ := Option.bind_eq_some_iff.1 h
    exact Json.lookup_eq_none_of_within padded hb ⟨'o', by decide, by decide, by decide⟩

/-- A piece that is not in its place says nothing, unless it leads the reader to a limit. -/
theorem ofLine_of_misplaced (h : Zone.Misplaced line.toList) : ofLine line = .ok none ∨ ∃ f, MeetsLimit line f := by
  cases starts : Text.startsWith (Text.strip line) "\x7b" with
  | false => exact .inl (ofLine_of_not_startsWith starts)
  | true =>
    cases hread : Json.whole? (Text.strip line) with
    | error f => exact .inr ⟨f, starts, hread⟩
    | ok o =>
      left
      simp only [ofLine, starts, Bool.not_true, if_neg Bool.false_ne_true, hread]
      cases o with
      | none => rfl
      | some v =>
        have padded : SpellsPadded none v (Text.strip line).toList := Json.exists_padded_of_whole? hread (by simp)
        obtain ⟨fields, rfl⟩ := exists_fields_of_startsWith padded starts
        have nameless := lookup_reason_of_misplaced h padded
        exact ofRecord_of_ne (by simp [nameless])

end CargoMessage

/-! ## The messages on a line -/

section Messages

open CargoMessage (ofLine MeetsLimit ofLine_of_meetsLimit)

variable {pieces : List String} {text : String} {fields : Fields} {m : CargoMessage}

/-- No piece of a text leads the reader to a limit. -/
def WithinLimits (text : String) : Prop :=
  ∀ piece ∈ Text.breakLines text, ∀ f, ¬ MeetsLimit piece f

theorem cargoMessagesOf_cons_of_none {piece : String} (h : ofLine piece = .ok none) (pieces : List String) :
    cargoMessagesOf (piece :: pieces) = cargoMessagesOf pieces := by
  simp [cargoMessagesOf, h]

theorem cargoMessagesOf_cons_of_some {piece : String} (h : ofLine piece = .ok (some m)) (pieces : List String) :
    cargoMessagesOf (piece :: pieces) = .ok m :: cargoMessagesOf pieces := by
  simp [cargoMessagesOf, h]

theorem cargoMessagesOf_cons_of_meetsLimit {piece : String} {f : Failure} (h : MeetsLimit piece f)
    (pieces : List String) : cargoMessagesOf (piece :: pieces) = .error f :: cargoMessagesOf pieces := by
  simp [cargoMessagesOf, ofLine_of_meetsLimit h]

/-- Pieces that say nothing leave failures only, one for each that leads the reader to a limit. -/
theorem cargoMessagesOf_of_silent (silent : ∀ p ∈ pieces, ofLine p = .ok none ∨ ∃ f, MeetsLimit p f) :
    (cargoMessagesOf pieces = [] ↔ ∀ p ∈ pieces, ∀ f, ¬ MeetsLimit p f) ∧
      ∀ r ∈ cargoMessagesOf pieces, ∃ f, r = .error f := by
  induction pieces with
  | nil => exact ⟨by simp [cargoMessagesOf], fun r hr => absurd hr List.not_mem_nil⟩
  | cons p pieces ih =>
    obtain ⟨ihnil, iherror⟩ := ih fun q hq => silent q (List.mem_cons_of_mem p hq)
    rcases silent p List.mem_cons_self with hp | ⟨f, hp⟩
    · have free : ∀ f, ¬ MeetsLimit p f := by
        intro f hf
        rw [ofLine_of_meetsLimit hf] at hp
        cases hp
      rw [cargoMessagesOf_cons_of_none hp, ihnil, List.forall_mem_cons]
      exact ⟨⟨fun h => ⟨free, h⟩, fun h => h.2⟩, iherror⟩
    · rw [cargoMessagesOf_cons_of_meetsLimit hp, List.forall_mem_cons]
      exact ⟨iff_of_false (List.cons_ne_nil _ _) fun h => h.1 f hp, List.forall_mem_cons.2 ⟨⟨f, rfl⟩, iherror⟩⟩

/-- A text that leaves no failure leads the reader to no limit. -/
theorem withinLimits_of_ok (h : ∀ r ∈ cargoMessages text, ∃ m, r = .ok m) : WithinLimits text := by
  intro piece hpiece f hlimit
  have failed : .error f ∈ cargoMessages text := by
    rw [cargoMessages, cargoMessagesOf, List.mem_filterMap]
    exact ⟨piece, hpiece, by rw [ofLine_of_meetsLimit hlimit]⟩
  obtain ⟨m, hm⟩ := h _ failed
  cases hm

/-! ## A report, line by line -/

/-- A report is read line by line. -/
theorem cargoMessages_lines (texts : List String) :
    cargoMessages ("\n".intercalate texts) = texts.flatMap cargoMessages := by
  have append (cs ds : List Char) : cargoMessagesOf (Text.breakLinesFrom (cs ++ '\n' :: ds) []) =
      cargoMessagesOf (Text.breakLinesFrom cs []) ++ cargoMessagesOf (Text.breakLinesFrom ds []) := by
    obtain ⟨gap, hgap, h⟩ := Text.exists_breakLinesFrom_append cs []
    have silent : cargoMessagesOf gap = [] := by
      rcases hgap with rfl | rfl <;> rfl
    rw [h, cargoMessagesOf, List.filterMap_append, List.filterMap_append]
    show cargoMessagesOf _ ++ cargoMessagesOf gap ++ cargoMessagesOf _ = _
    rw [silent, List.append_nil]
  have feed : "\n".toList = ['\n'] := rfl
  show cargoMessagesOf (Text.breakLinesFrom ("\n".intercalate texts).toList []) = _
  rw [String.toList_intercalate, feed]
  induction texts with
  | nil => rfl
  | cons t texts ih =>
    rcases texts with _ | ⟨u, texts⟩
    · rw [List.map_singleton, List.intercalate_singleton, List.flatMap_cons, List.flatMap_nil, List.append_nil]
      rfl
    · rw [List.map_cons, List.map_cons, List.intercalate_cons_cons, List.append_assoc, List.singleton_append, append,
        List.flatMap_cons, ← ih]
      rfl

end Messages

/-! ## Reports -/

section Parts

variable {α β : Type}

theorem length_flatMap_le {given due : α → List β} {xs : List α}
    (short : ∀ x ∈ xs, (given x).length ≤ (due x).length) : (xs.flatMap given).length ≤ (xs.flatMap due).length := by
  induction xs with
  | nil => exact Nat.le_refl _
  | cons x xs ih =>
    rw [List.flatMap_cons, List.flatMap_cons, List.length_append, List.length_append]
    exact Nat.add_le_add (short x List.mem_cons_self) (ih fun y hy => short y (List.mem_cons_of_mem x hy))

/-- Parts of which none is too long are as long as they should be if the whole is. -/
theorem length_eq_of_flatMap {given due : α → List β} {xs : List α}
    (short : ∀ x ∈ xs, (given x).length ≤ (due x).length)
    (h : (xs.flatMap given).length = (xs.flatMap due).length) : ∀ x ∈ xs, (given x).length = (due x).length := by
  induction xs with
  | nil => exact fun x hx => absurd hx List.not_mem_nil
  | cons x xs ih =>
    rw [List.forall_mem_cons] at short
    have rest := length_flatMap_le short.2
    rw [List.flatMap_cons, List.flatMap_cons, List.length_append, List.length_append] at h
    have first := short.1
    exact List.forall_mem_cons.2 ⟨by omega, ih short.2 (by omega)⟩

/-- What is given is what is due only if each part of it is, where a part is due or consists of failures. -/
theorem flatMap_eq_flatMap_iff {given due : α → List (Except Failure β)} {xs : List α}
    (hdue : ∀ x ∈ xs, ∀ r ∈ due x, ∃ y, r = .ok y)
    (hgiven : ∀ x ∈ xs, given x = due x ∨ ∀ r ∈ given x, ∃ f, r = .error f) :
    xs.flatMap given = xs.flatMap due ↔ ∀ x ∈ xs, given x = due x := by
  constructor
  · intro h
    have allDue : ∀ r ∈ xs.flatMap given, ∃ y, r = .ok y := by
      rw [h]
      intro r hr
      obtain ⟨x, hx, hr⟩ := List.mem_flatMap.1 hr
      exact hdue x hx r hr
    -- a part of failures is empty then, and too short unless nothing is due
    have part : ∀ x ∈ xs, given x = due x ∨ given x = [] := by
      intro x hx
      refine (hgiven x hx).imp_right ?_
      intro failures
      rw [List.eq_nil_iff_forall_not_mem]
      intro r hr
      obtain ⟨f, rfl⟩ := failures r hr
      obtain ⟨y, hy⟩ := allDue _ (List.mem_flatMap.2 ⟨x, hx, hr⟩)
      cases hy
    have short : ∀ x ∈ xs, (given x).length ≤ (due x).length := by
      intro x hx
      rcases part x hx with hpart | hpart
      · rw [hpart]
      · rw [hpart]
        exact Nat.zero_le _
    intro x hx
    have length := length_eq_of_flatMap short (congrArg List.length h) x hx
    rcases part x hx with hpart | hpart
    · exact hpart
    · rw [hpart, List.length_nil] at length
      rw [hpart, List.length_eq_zero_iff.1 length.symm]
  · intro h
    rw [List.flatMap_def, List.flatMap_def, List.map_congr_left h]

end Parts

/-- A line of a report: a record that says a message, another record, or another line. -/
inductive ReportLine where
  | message (fields : Fields) (m : CargoMessage) (text : String)
  | record (fields : Fields) (text : String)
  | other (text : String)

namespace ReportLine

/-- The text of a line. -/
def text : ReportLine → String
  | message _ _ text => text
  | record _ text => text
  | other text => text

/-- The message that a line says. -/
def message? : ReportLine → Option CargoMessage
  | message _ m _ => some m
  | _ => none

/-- A record stands for its fields, in one line. -/
structure IsRecord (fields : Fields) (text : String) : Prop where
  spells : SpellsPadded none (.table fields) text.toList
  feedless : '\n' ∉ text.toList
  returnless : '\r' ∉ text.toList

/-- A record that says its message, one of another kind, or a line of which no piece begins like a record. -/
def WellFormed : ReportLine → Prop
  | message fields m text => IsRecord fields text ∧ CargoMessage.Says fields m
  | record fields text => IsRecord fields text ∧ fields.lookup "reason" ≠ some (.text "compiler-message")
  | other text => ∀ piece ∈ Text.breakLines text, Text.startsWith (Text.strip piece) "\x7b" = false

/-- A message is not cut anywhere. -/
def Unbroken : ReportLine → Prop
  | message _ _ text => ∀ c ∈ text.toList, Text.isLineBreak c = false
  | _ => True

/-- A line that is read as it is meant: a message that is not cut, and within the limits of the reader. -/
def IsRead (l : ReportLine) : Prop :=
  l.Unbroken ∧ WithinLimits l.text

/-- What is due of a line: its message. -/
def due (l : ReportLine) : List (Except Failure CargoMessage) :=
  (l.message?.map .ok).toList

variable {l : ReportLine} {fields : Fields} {text : String} {m : CargoMessage}

/-- A record is one piece that is read, or pieces that say nothing. -/
theorem IsRecord.pieces (h : IsRecord fields text) :
    (∀ c ∈ text.toList, Text.isLineBreak c = false) ∧ Text.breakLines text = [text] ∨
      (∃ c ∈ text.toList, Text.isLineBreak c = true) ∧
        ∀ p ∈ Text.breakLines text, CargoMessage.ofLine p = .ok none ∨ ∃ f, CargoMessage.MeetsLimit p f := by
  by_cases cut : ∃ c ∈ text.toList, Text.isLineBreak c = true
  · refine .inr ⟨cut, ?_⟩
    intro p hp
    exact CargoMessage.ofLine_of_misplaced
      (Zone.misplaced_of_mem_breakLines h.feedless h.returnless rfl h.spells.zone cut p hp)
  · have unbroken : ∀ c ∈ text.toList, Text.isLineBreak c = false := by simpa using cut
    refine .inl ⟨unbroken, ?_⟩
    have filled : text.toList ≠ [] := by
      intro hnil
      have starts := CargoMessage.startsWith_of_spells (CargoMessage.spells_strip h.spells)
      rw [Text.strip, hnil] at starts
      exact absurd starts (by decide)
    rw [Text.breakLines, Text.breakLinesFrom_of_unbroken unbroken (.inr filled), List.reverse_nil, List.nil_append,
      String.ofList_toList]

/-- A record that is not cut keeps within the limits exactly if it is read. -/
theorem IsRecord.withinLimits_iff (h : IsRecord fields text) (unbroken : ∀ c ∈ text.toList, Text.isLineBreak c = false)
    (spells : Spells none (.table fields) text.toList) : WithinLimits text ↔ (Json.readAll text.toList).isOk = true := by
  rw [← CargoMessage.not_meetsLimit_iff spells, WithinLimits]
  rcases h.pieces with ⟨-, hpieces⟩ | ⟨⟨c, hc, hbreak⟩, -⟩
  · rw [hpieces]
    exact List.forall_mem_singleton
  · rw [unbroken c hc] at hbreak
    cases hbreak

/-- A message in ASCII is not cut. -/
theorem WellFormed.unbroken_of_ascii (wellFormed : l.WellFormed) (ascii : ∀ c ∈ l.text.toList, c.toNat < 0x80) :
    l.Unbroken := by
  cases l with
  | message fields m text =>
    have isRecord := wellFormed.1
    exact Zone.unbroken_of_ascii isRecord.feedless isRecord.returnless ascii isRecord.spells.zone
  | record fields text => trivial
  | other text => trivial

/-- A record that says nothing as a whole gives what is due of it, which is nothing, exactly within the limits. -/
theorem cargoMessages_of_silent (text : String) (silent : ∀ p ∈ Text.breakLines text, CargoMessage.ofLine p = .ok none ∨
    ∃ f, CargoMessage.MeetsLimit p f) :
    (cargoMessages text = [] ↔ WithinLimits text) ∧ ∀ r ∈ cargoMessages text, ∃ f, r = .error f :=
  cargoMessagesOf_of_silent silent

/-- A message in one piece is read, or leads the reader to a limit. -/
theorem cargoMessages_whole (h : IsRecord fields text) (said : CargoMessage.Says fields m)
    (hpieces : Text.breakLines text = [text]) :
    cargoMessages text = [.ok m] ∧ WithinLimits text ∨
      ∃ f, cargoMessages text = [.error f] ∧ ¬ WithinLimits text := by
  have messages : cargoMessages text = cargoMessagesOf [text] := by
    rw [cargoMessages, hpieces]
  have limits : WithinLimits text ↔ ∀ f, ¬ CargoMessage.MeetsLimit text f := by
    rw [WithinLimits, hpieces]
    exact List.forall_mem_singleton
  rcases CargoMessage.ofLine_of_spells h.spells with hread | ⟨f, hlimit⟩
  · rw [CargoMessage.ofRecord_of_said said] at hread
    refine .inl ⟨?_, limits.2 ?_⟩
    · rw [messages, cargoMessagesOf_cons_of_some hread]
      rfl
    · intro f hf
      rw [CargoMessage.ofLine_of_meetsLimit hf] at hread
      cases hread
  · refine .inr ⟨f, ?_, fun h => limits.1 h f hlimit⟩
    rw [messages, cargoMessagesOf_cons_of_meetsLimit hlimit]
    rfl

/-- A line gives what is due of it exactly if it is read as it is meant; otherwise it gives failures only. -/
theorem cargoMessages_text (wellFormed : l.WellFormed) :
    (cargoMessages l.text = l.due ↔ l.IsRead) ∧ (¬ l.IsRead → ∀ r ∈ cargoMessages l.text, ∃ f, r = .error f) := by
  cases l with
  | other text =>
    have silent := cargoMessages_of_silent text fun p hp =>
      .inl (CargoMessage.ofLine_of_not_startsWith (wellFormed p hp))
    exact ⟨silent.1.trans (iff_of_eq (true_and _).symm), fun _ => silent.2⟩
  | record fields text =>
    obtain ⟨isRecord, other⟩ := wellFormed
    have silent := cargoMessages_of_silent text (by
      rcases isRecord.pieces with ⟨-, hpieces⟩ | ⟨-, silent⟩
      · rw [hpieces, List.forall_mem_singleton, ← CargoMessage.ofRecord_of_ne other]
        exact CargoMessage.ofLine_of_spells isRecord.spells
      · exact silent)
    exact ⟨silent.1.trans (iff_of_eq (true_and _).symm), fun _ => silent.2⟩
  | message fields m text =>
    obtain ⟨isRecord, said⟩ := wellFormed
    change (cargoMessages text = [.ok m] ↔ _ ∧ WithinLimits text) ∧ (_ → ∀ r ∈ cargoMessages text, _)
    rcases isRecord.pieces with ⟨unbroken, hpieces⟩ | ⟨⟨c, hc, hbreak⟩, silent⟩
    · rcases cargoMessages_whole isRecord said hpieces with ⟨read, limits⟩ | ⟨f, failed, limited⟩
      · exact ⟨iff_of_true read ⟨unbroken, limits⟩, fun notRead => absurd ⟨unbroken, limits⟩ notRead⟩
      · rw [failed]
        exact ⟨iff_of_false (by simp) fun h => limited h.2, fun _ => List.forall_mem_singleton.2 ⟨f, rfl⟩⟩
    · have silent := (cargoMessages_of_silent text silent).2
      refine ⟨iff_of_false ?_ ?_, fun _ => silent⟩
      · intro given
        rw [given, List.forall_mem_singleton] at silent
        obtain ⟨f, hf⟩ := silent
        cases hf
      · intro isRead
        rw [isRead.1 c hc] at hbreak
        cases hbreak

theorem flatMap_due (lines : List ReportLine) : lines.flatMap due = (lines.filterMap message?).map .ok := by
  induction lines with
  | nil => rfl
  | cons l lines ih =>
    rw [List.flatMap_cons, ih]
    cases l <;> rfl

/-- Lines that are read as they are meant give their messages. -/
theorem cargoMessages_of_isRead {lines : List ReportLine} (wellFormed : ∀ l ∈ lines, l.WellFormed)
    (isRead : ∀ l ∈ lines, l.IsRead) :
    cargoMessages ("\n".intercalate (lines.map ReportLine.text)) = (lines.filterMap message?).map .ok := by
  have given : lines.map (fun l => cargoMessages l.text) = lines.map due :=
    List.map_congr_left fun l hl => (cargoMessages_text (wellFormed l hl)).1.2 (isRead l hl)
  rw [cargoMessages_lines, List.flatMap_map, List.flatMap_def, given, ← List.flatMap_def, flatMap_due]

end ReportLine

/-- A report of records and other lines, one to a line, gives the message of each record of the compiler, in order, and
nothing for the other lines, exactly if no such record holds a character that ends a line in some script, and nothing
in the report leads the reader to one of its limits. Other records may hold such characters. -/
theorem cargoMessages_of_report (lines : List ReportLine) (wellFormed : ∀ l ∈ lines, l.WellFormed) :
    cargoMessages ("\n".intercalate (lines.map ReportLine.text)) = (lines.filterMap ReportLine.message?).map .ok ↔
      ∀ l ∈ lines, l.IsRead := by
  rw [cargoMessages_lines, List.flatMap_map, ← ReportLine.flatMap_due, flatMap_eq_flatMap_iff]
  · exact forall₂_congr fun l hl => (ReportLine.cargoMessages_text (wellFormed l hl)).1
  · intro l _ r hr
    obtain ⟨m, -, rfl⟩ := Option.map_eq_some_iff.1 (Option.mem_toList.1 hr)
    exact ⟨m, rfl⟩
  · intro l hl
    obtain ⟨hdue, hfailed⟩ := ReportLine.cargoMessages_text (wellFormed l hl)
    by_cases hread : l.IsRead
    · exact .inl (hdue.2 hread)
    · exact .inr (hfailed hread)

namespace ReportLine

/-- The members of a message without a code. -/
def noteMembers (text : String) (spans : List Value) : List (String × Value) :=
  [("level", .text "error"), ("message", .text text), ("code", .null), ("spans", .list spans)]

/-- The members of a record that says such a message. -/
def recordMembers (text : String) (spans : List Value) : List (String × Value) :=
  [("reason", .text "compiler-message"), ("message", .table (Fields.ofMembers (noteMembers text spans)))]

/-- A text between quotes. -/
def quoted (text : String) : List Char :=
  '"' :: text.toList ++ ['"']

/-- A named text, and the ones behind it. -/
def named (name : String) (w : List Char) : List Char :=
  '"' :: name.toList ++ '"' :: ':' :: w

/-- The characters of the record, in which the spans have a text of their own. -/
def noteChars (text : String) (w : List Char) : List Char :=
  '\x7b' :: (named "reason" (quoted "compiler-message") ++ ',' :: named "message"
    ('\x7b' :: (named "level" (quoted "error") ++ ',' :: (named "message" (quoted text) ++
      ',' :: (named "code" "null".toList ++ ',' :: named "spans" w))) ++ ['\x7d'])) ++ ['\x7d']

/-- A text of the record. -/
def noteText (text : String) (w : List Char) : String :=
  String.ofList (noteChars text w)

/-- The line of such a message about a span. -/
def note (text : String) (spans : List Value) (span : Value) (w : List Char) : ReportLine :=
  .message (Fields.ofMembers (recordMembers text spans)) ⟨.text "error", .text text, .text "", span⟩ (noteText text w)

variable {spans : List Value} {span : Value} {w : List Char}

theorem toList_noteText (text : String) (w : List Char) : (noteText text w).toList = noteChars text w :=
  String.toList_ofList

theorem says_note (text : String) (areSpans : ∀ s ∈ spans, CargoMessage.IsSpan s)
    (counts : CargoMessage.Counts spans span) :
    CargoMessage.Says (Fields.ofMembers (recordMembers text spans)) ⟨.text "error", .text text, .text "", span⟩ := by
  have record {name : String} {v : Value} (h : (name, v) ∈ recordMembers text spans) :
      (Fields.ofMembers (recordMembers text spans)).lookup name = some v :=
    lookup_ofMembers (by simp [recordMembers]) h
  have message {name : String} {v : Value} (h : (name, v) ∈ noteMembers text spans) :
      (Fields.ofMembers (noteMembers text spans)).lookup name = some v :=
    lookup_ofMembers (by simp [noteMembers]) h
  exact {
    reason := record (by simp [recordMembers])
    message := ⟨Fields.ofMembers (noteMembers text spans), .null, spans, record (by simp [recordMembers]),
      message (by simp [noteMembers]), message (by simp [noteMembers]), message (by simp [noteMembers]), .nameless,
      message (by simp [noteMembers]), areSpans, counts⟩ }

theorem spells_named (name : String) {v : Value} (plain : name.toList.all Json.isPlain = true)
    (h : Spells none v w) : Json.SpellsMember none (name, v) (named name w) := by
  have h : Json.SpellsMember none (name, v) ([] ++ '"' :: name.toList ++ '"' :: [] ++ ':' :: w) :=
    .named .nil (.of_plain plain) .nil (CargoMessage.padded_of_spells h)
  simpa [named] using h

theorem spells_quoted (text : String) (plain : text.toList.all Json.isPlain = true) :
    Spells none (.text text) (quoted text) :=
  .text (.of_plain plain)

/-- A text in which each character stands for itself is said by its record. -/
theorem spells_note {text : String} (plain : text.toList.all Json.isPlain = true) (h : Spells none (.list spans) w) :
    Spells none (.table (Fields.ofMembers (recordMembers text spans))) (noteText text w).toList := by
  have null : Spells none .null "null".toList := .word List.mem_cons_self
  have message : Json.SpellsMembers none (noteMembers text spans) _ :=
    .more (spells_named "level" (by decide) (spells_quoted "error" (by decide)))
      (.more (spells_named "message" (by decide) (spells_quoted text plain))
        (.more (spells_named "code" (by decide) null) (.last (spells_named "spans" (by decide) h))))
  rw [toList_noteText]
  exact .table (by simp) (.more (spells_named "reason" (by decide) (spells_quoted "compiler-message" (by decide)))
    (.last (spells_named "message" (by decide) (.table (by simp) message))))

theorem wellFormed_note {text : String} (plain : text.toList.all Json.isPlain = true) (h : Spells none (.list spans) w)
    (areSpans : ∀ s ∈ spans, CargoMessage.IsSpan s) (counts : CargoMessage.Counts spans span)
    (feedless : '\n' ∉ noteChars text w) (returnless : '\r' ∉ noteChars text w) : (note text spans span w).WellFormed := by
  rw [← toList_noteText] at feedless returnless
  exact ⟨⟨CargoMessage.padded_of_spells (spells_note plain h), feedless, returnless⟩, says_note text areSpans counts⟩

theorem spells_nothing : Spells none (.list []) "[]".toList :=
  .emptyList (g := []) (by simp) .nil

theorem withinLimits_of_isOk {text : String}
    (h : ∀ piece ∈ Text.breakLines text, (Json.whole? (Text.strip piece)).isOk = true) : WithinLimits text := by
  rintro piece hpiece f ⟨-, hf⟩
  have := h piece hpiece
  rw [hf] at this
  cases this

/-- A report with a line of progress, a record of another kind and a message. -/
def progress : List ReportLine :=
  [.other "   Compiling a v0.1.0", .record [] "\x7b\x7d", note "\u00e9" [] (.table []) "[]".toList]

/-- The message is read from this report, and nothing else. -/
theorem progress_read :
    noteText "\u00e9" "[]".toList = "\x7b\"reason\":\"compiler-message\",\"message\":\x7b\"level\":\"error\"," ++
      "\"message\":\"\u00e9\",\"code\":null,\"spans\":[]\x7d\x7d" ∧
    (∀ l ∈ progress, l.WellFormed) ∧
    cargoMessages ("\n".intercalate (progress.map text)) =
      [.ok ⟨.text "error", .text "\u00e9", .text "", .table []⟩] := by
  have wellFormed : ∀ l ∈ progress, l.WellFormed := by
    have other : (ReportLine.other "   Compiling a v0.1.0").WellFormed := by
      show ∀ piece ∈ _, _
      decide
    have record : (ReportLine.record [] "\x7b\x7d").WellFormed :=
      ⟨⟨CargoMessage.padded_of_spells (.emptyTable (g := []) (by simp) .nil), by decide, by decide⟩, by simp⟩
    simp only [progress, List.forall_mem_cons]
    exact ⟨other, record,
      wellFormed_note (by decide) spells_nothing nofun .nothing (by decide) (by decide), nofun⟩
  refine ⟨by decide, wellFormed, ?_⟩
  apply (cargoMessages_of_report progress wellFormed).2
  simp only [progress, List.forall_mem_cons]
  have unbroken : ∀ c ∈ (noteText "\u00e9" "[]".toList).toList, Text.isLineBreak c = false := by
    have kept : (noteChars "\u00e9" "[]".toList).all (fun c => !Text.isLineBreak c) = true := by decide
    rw [toList_noteText]
    intro c hc
    simpa using List.all_eq_true.1 kept c hc
  refine ⟨⟨trivial, ?_⟩, ⟨trivial, ?_⟩, ⟨unbroken, ?_⟩, nofun⟩
  · exact withinLimits_of_isOk (by decide +kernel)
  · exact withinLimits_of_isOk (by decide)
  · have isRecord := (wellFormed (note "\u00e9" [] (.table []) "[]".toList) (by simp [progress])).1
    refine (isRecord.withinLimits_iff unbroken (spells_note (by decide) spells_nothing)).2 ?_
    rw [toList_noteText]
    decide

/-- A message that holds a line separator is lost, though its record is written as it should be. -/
theorem not_separated_read :
    (note "a\u2028b" [] (.table []) "[]".toList).WellFormed ∧ cargoMessages (noteText "a\u2028b" "[]".toList) = [] := by
  refine ⟨wellFormed_note (by decide) spells_nothing nofun .nothing (by decide) (by decide), ?_⟩
  have none_ : (cargoMessages (noteText "a\u2028b" "[]".toList)).length = 0 := by decide +kernel
  exact List.length_eq_zero_iff.1 none_

end ReportLine

end FixGate
