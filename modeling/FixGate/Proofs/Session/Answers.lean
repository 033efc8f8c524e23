import FixGate.Proofs.Act.Failures
import FixGate.Proofs.Ledger.Exact
import FixGate.Proofs.Session.Accepted
import FixGate.Proofs.Text.Integer

/-!
# Lines that are answered

A typed line is answered, with the word that the session goes on or ends, unless a failure that is not told
escapes. Where the disk, the files, the analyzers and the repairs fail in no other way than the session tells,
there are few such lines: a word after `fix` that looks like a number and is none, a scan that gives a finding
whose title is no text, and a change or an undo that has no text to be written.

* `Session.Answers` : a line is answered
* `Session.Tells`, `Session.answers_iff_tells` : the failures of a command are told
* `Session.Fair` : the surroundings fail in no other way than the session tells
* `Session.Trips` : the lines that are not answered all the same
* `Session.exists_converse_error` : a line that is not answered ends the session by its failure
* `Session.answers_iff` : all others are answered
-/

namespace FixGate

open Act Text

namespace Session

variable {α : Type} {h : Host} {s u : State} {x : Scene} {line : String} {se te : Session} {c : Change}
  {text : String} {b : List UInt8}

/-! ## What is told -/

/-- A typed line is answered with the word that the session goes on or ends. -/
def Answers (h : Host) (x : Scene) (line : String) : Prop :=
  ∃ te goesOn u, (x.session.handle line).outcome h x.state = (.ok (te, .ok goesOn), u)

/-- The session tells every failure that an action has in a state. -/
def Tells (h : Host) (s : State) (a : Act α) : Prop :=
  ∀ f u, a.outcome h s = (.error f, u) → isTold f = true

theorem not_isTold_of_ofDisk {f : Failure} (hf : f.OfDisk) : isTold f = false := by
  unfold Failure.OfDisk at hf
  split at hf
  all_goals first | rfl | exact hf.elim

theorem tells_of_ok {a : Act α} {y : α} (ha : a.outcome h s = (.ok y, u)) : Tells h s a := by
  intro f v hf
  rw [ha] at hf
  cases hf

/-- An action that ends by a failure tells it, or does not. -/
theorem tells_iff_of_error {a : Act α} {f : Failure} (ha : a.outcome h s = (.error f, u)) :
    Tells h s a ↔ isTold f = true := by
  refine ⟨fun tells => tells f u ha, fun told g v hg => ?_⟩
  rw [ha] at hg
  cases hg
  exact told

/-- A line is answered if its command has no failure but such as is told. -/
theorem answers_of_perform {r : Except Failure Unit}
    (hp : (x.session.perform (Command.ofLine line)).outcome h x.state = (.ok (te, r), u)) :
    Answers h x line ↔ ∀ f, r = .error f → isTold f = true := by
  unfold Answers handle
  simp only
  rw [outcome_bind, hp]
  simp only
  cases r with
  | ok _ => exact ⟨fun _ f hf => (nomatch hf), fun _ => ⟨_, _, _, rfl⟩⟩
  | error f =>
    simp only
    constructor
    · rintro ⟨_, _, _, hu⟩ _ ⟨⟩
      split at hu
      · assumption
      · cases hu
    · intro told
      rw [if_pos (told f rfl)]
      exact ⟨_, _, _, rfl⟩

/-- A line is answered if its command tells its failures. -/
theorem answers_iff_tells {a : Act Session}
    (ha : x.session.perform (Command.ofLine line) = x.session.orUnchanged a) :
    Answers h x line ↔ Tells h x.state a := by
  have hout := outcome_orUnchanged (h := h) x.session a x.state
  rw [← ha] at hout
  rcases hr : a.outcome h x.state with ⟨f | te, u⟩
  all_goals
    rw [hr] at hout
    rw [answers_of_perform hout]
  · rw [tells_iff_of_error hr]
    exact ⟨fun told => told f rfl, fun told g hg => by cases hg; exact told⟩
  · exact ⟨fun _ => tells_of_ok hr, fun _ _ hf => (nomatch hf)⟩

/-! ## Provisos -/

/-- Around a session, nothing fails in another way than the session tells: the disk refuses no step, and has a
place for the files that are written and for the temporary files beside them; the file of the pending change is
text; and the analyzers, and the repairs of findings in the rows, fail in ways that are told. -/
structure Fair (h : Host) (x : Scene) : Prop where
  steady : h.steady
  scanned : Tells h x.state (x.session.registry.scan x.session.target x.session.settings.exclude)
  equipped : Tells h x.state (Repair.byModel x.session.settings x.session.project x.session.registry)
  repaired : ∀ r t, (Repair.byModel x.session.settings x.session.project x.session.registry).outcome h x.state =
    (.ok r, t) → ∀ i ∈ x.session.issues, Tells h t (r.fixWithNeighbours i x.session.issues none)
  text : ∀ c, x.session.ledger.pending = some c → ∃ b text, x.state.disk.content c.file = .ok b ∧
    Utf8.decodeStrict b = some text
  temp : ∀ c, x.session.ledger.pending = some c → ∃ temp, placeBeside x.state.disk c.file = .ok temp
  restored : ∀ a ∈ x.session.ledger.history.head?, (∃ l, x.state.disk.locateNew a.file = .ok l) ∧
    ∃ temp, placeBeside x.state.disk a.file = .ok temp

/-- A typed line that is not answered, though nothing around the session fails. -/
inductive Trips (h : Host) (x : Scene) (line : String) : Prop
  /-- The word after `fix` looks like a number, but has a character that is no decimal digit, or too many. -/
  | number {word : String} : Command.ofLine line = .fix (some word) → looksNumber word = true →
      ¬ ((∀ c ∈ word.toList, isDecimal c = true) ∧ word.toList.length ≤ digitLimit) → Trips h x line
  /-- The scan gives a finding whose title is no text. -/
  | title {is : List Issue} {i : Issue} {u : State} : Command.ofLine line = .scan →
      (x.session.registry.scan x.session.target x.session.settings.exclude).outcome h x.state = (.ok is, u) →
      i ∈ is → (∀ title, i.title ≠ .text title) → Trips h x line
  /-- The pending change counts as current, but gives no text to be written: it starts outside of the file, or
  the text has no bytes. -/
  | accepted {c : Change} {b : List UInt8} {text : String} {f : Failure} : Command.ofLine line = .accept →
      x.session.ledger.pending = some c → x.state.disk.content c.file = .ok b →
      Utf8.decodeStrict b = some text → Ledger.isCurrent c text = true →
      (Source.splice text c.first c.last c.newCode >>= Failure.checkText) = .error f → Trips h x line
  /-- The text from before the latest change has no bytes. -/
  | restored {a : Applied} {f : Failure} : Command.ofLine line = .rollback →
      a ∈ x.session.ledger.history.head? → Failure.checkText a.before = .error f → Trips h x line

theorem trips_scan_iff (hline : Command.ofLine line = .scan) :
    Trips h x line ↔ ∃ is u, (x.session.registry.scan x.session.target x.session.settings.exclude).outcome h
      x.state = (.ok is, u) ∧ ∃ i ∈ is, ∀ title, i.title ≠ .text title := by
  refine ⟨?_, fun ⟨is, u, hscan, i, hi, untitled⟩ => .title hline hscan hi untitled⟩
  rintro (hline' | ⟨-, hscan, hi, untitled⟩ | hline' | hline')
  case title => exact ⟨_, _, hscan, _, hi, untitled⟩
  all_goals rw [hline] at hline'; cases hline'

theorem trips_fix_iff {word : Option String} (hline : Command.ofLine line = .fix word) :
    Trips h x line ↔ ∃ w, word = some w ∧ looksNumber w = true ∧
      ¬ ((∀ c ∈ w.toList, isDecimal c = true) ∧ w.toList.length ≤ digitLimit) := by
  constructor
  · rintro (⟨hline', looks, numbers⟩ | hline' | hline' | hline')
    case number =>
      rw [hline] at hline'
      cases hline'
      exact ⟨_, rfl, looks, numbers⟩
    all_goals rw [hline] at hline'; cases hline'
  · rintro ⟨w, rfl, looks, numbers⟩
    exact .number hline looks numbers

theorem trips_accept_iff (hline : Command.ofLine line = .accept) :
    Trips h x line ↔ ∃ c b text f, x.session.ledger.pending = some c ∧ x.state.disk.content c.file = .ok b ∧
      Utf8.decodeStrict b = some text ∧ Ledger.isCurrent c text = true ∧
      (Source.splice text c.first c.last c.newCode >>= Failure.checkText) = .error f := by
  constructor
  · rintro (hline' | hline' | ⟨-, hc, hb, htext, current, hf⟩ | hline')
    case accepted => exact ⟨_, _, _, _, hc, hb, htext, current, hf⟩
    all_goals rw [hline] at hline'; cases hline'
  · rintro ⟨c, b, text, f, hc, hb, htext, current, hf⟩
    exact .accepted hline hc hb htext current hf

theorem trips_rollback_iff (hline : Command.ofLine line = .rollback) :
    Trips h x line ↔ ∃ a f, a ∈ x.session.ledger.history.head? ∧ Failure.checkText a.before = .error f := by
  refine ⟨?_, fun ⟨a, f, ha, hf⟩ => .restored hline ha hf⟩
  rintro (hline' | hline' | hline' | ⟨-, ha, hf⟩)
  case restored => exact ⟨_, _, ha, hf⟩
  all_goals rw [hline] at hline'; cases hline'

/-! ## Scans -/

theorem issueRow_cases (number : Nat) (i : Issue) :
    (∃ title row, i.title = .text title ∧ issueRow number i = .ok row) ∨
      (∀ title, i.title ≠ .text title) ∧ ∃ f, issueRow number i = .error f ∧ isTold f = false := by
  unfold issueRow
  cases htitle : i.title with
  | text title => exact .inl ⟨title, _, rfl, rfl⟩
  | _ => exact .inr ⟨nofun, _, rfl, rfl⟩

/-- Findings can be shown in rows if their titles are texts; no failure to do so is told. -/
theorem issueRows_cases (number : Nat) (is : List Issue) :
    (∃ rows, issueRows number is = .ok rows ∧ ∀ i ∈ is, ∃ title, i.title = .text title) ∨
      ∃ i ∈ is, (∀ title, i.title ≠ .text title) ∧
        ∃ f, issueRows number is = .error f ∧ isTold f = false := by
  induction is generalizing number with
  | nil => exact .inl ⟨[], rfl, fun i hi => (List.not_mem_nil hi).elim⟩
  | cons i is ih =>
    rw [issueRows]
    rcases issueRow_cases number i with ⟨title, row, htitle, hrow⟩ | ⟨untitled, f, hrow, untold⟩
    · rcases ih (number + 1) with ⟨rows, hrows, titled⟩ | ⟨j, hj, untitled, f, hrows, untold⟩
      · exact .inl ⟨row :: rows, by rw [hrow, hrows]; rfl, List.forall_mem_cons.2 ⟨⟨title, htitle⟩, titled⟩⟩
      · exact .inr ⟨j, List.mem_cons_of_mem i hj, untitled, f, by rw [hrow, hrows]; rfl, untold⟩
    · exact .inr ⟨i, List.mem_cons_self, untitled, f, by rw [hrow]; rfl, untold⟩

/-- Findings are printed if their titles are texts; no failure to do so is told. -/
theorem printIssues_cases (is : List Issue) (title : String) (s : State) :
    (∃ u, (printIssues is title).outcome h s = (.ok (), u) ∧ ∀ i ∈ is, ∃ title, i.title = .text title) ∨
      ∃ i ∈ is, (∀ title, i.title ≠ .text title) ∧
        ∃ f u, (printIssues is title).outcome h s = (.error f, u) ∧ isTold f = false := by
  unfold printIssues
  rcases issueRows_cases 1 is with ⟨rows, hrows, titled⟩ | ⟨i, hi, untitled, f, hrows, untold⟩
  · left
    split
    · exact ⟨_, rfl, titled⟩
    · rw [hrows, outcome_ofExcept_ok_bind]
      exact ⟨_, rfl, titled⟩
  · right
    refine ⟨i, hi, untitled, f, s, ?_, untold⟩
    rw [if_neg (by rw [List.isEmpty_iff]; exact List.ne_nil_of_mem hi), hrows, outcome_ofExcept_error_bind]

/-- A scan is answered if the titles of its findings are texts. -/
theorem answers_scan_iff (fair : Fair h x) (hline : Command.ofLine line = .scan) :
    Answers h x line ↔ ¬ Trips h x line := by
  have hperform : (x.session.perform (Command.ofLine line)).outcome h x.state = x.session.rescan.outcome h x.state := by
    rw [hline]
    rfl
  rw [outcome_rescan] at hperform
  rcases hscan : (x.session.registry.scan x.session.target x.session.settings.exclude).outcome h x.state with
    ⟨f | is, u⟩
  all_goals
    rw [hscan] at hperform
    rw [trips_scan_iff hline]
  · rw [answers_of_perform hperform]
    have told := fair.scanned f u hscan
    refine ⟨?_, fun _ g hg => by cases hg; exact told⟩
    rintro - ⟨is, v, hok, -⟩
    rw [hscan] at hok
    cases hok
  · simp only at hperform
    rcases printIssues_cases (h := h) is issuesTitle u with
      ⟨w, hprint, titled⟩ | ⟨i, hi, untitled, f, w, hprint, untold⟩
    all_goals
      rw [hprint] at hperform
      rw [answers_of_perform hperform]
    · refine ⟨?_, fun _ f hf => (nomatch hf)⟩
      rintro - ⟨is', v, hok, i, hi, untitled⟩
      rw [hscan] at hok
      cases hok
      obtain ⟨title, htitle⟩ := titled i hi
      exact untitled title htitle
    · constructor
      · intro told
        rw [told f rfl] at untold
        cases untold
      · exact fun titles => absurd ⟨is, u, hscan, i, hi, untitled⟩ titles

/-! ## Fixes -/

/-- A word that looks like a number is one if all its characters are decimal digits, and they are not too many. -/
theorem exists_number_iff {word : String} (looks : looksNumber word = true) :
    (∃ n, Value.toInteger (.text word) = .ok n) ↔
      (∀ c ∈ word.toList, isDecimal c = true) ∧ word.toList.length ≤ digitLimit := by
  unfold looksNumber at looks
  rw [Bool.and_eq_true, Bool.not_eq_true', List.all_eq_true] at looks
  obtain ⟨filled, looks⟩ := looks
  have filled : word.toList ≠ [] := by
    intro hnil
    rw [String.toList_eq_nil_iff] at hnil
    rw [hnil] at filled
    cases filled
  rw [← exists_readInteger_iff looks filled]
  unfold Value.toInteger
  simp only
  cases readInteger word <;> simp

theorem number_untold {word : String} {f : Failure} (hf : Value.toInteger (.text word) = .error f) :
    isTold f = false := by
  unfold Value.toInteger at hf
  simp only at hf
  split at hf
  · cases hf
  · cases hf
    rfl

/-- A fix is prepared for a finding in a row, or its failure is told. -/
theorem tells_prepare (fair : Fair h x) {i : Issue} (hi : i ∈ x.session.issues) :
    Tells h x.state (x.session.prepare i) := by
  unfold prepare
  rcases hmodel : (Repair.byModel x.session.settings x.session.project x.session.registry).outcome h x.state with
    ⟨f | r, t⟩
  · intro g v hg
    rw [outcome_bind_of_error hmodel] at hg
    cases hg
    exact fair.equipped _ _ hmodel
  have tells := fair.repaired r t hmodel i hi
  intro g v hg
  rw [outcome_bind_of_ok hmodel, outcome_bind, outcome_caught] at hg
  rcases hfix : (r.fixWithNeighbours i x.session.issues none).outcome h t with ⟨f | c, w⟩
  · rw [hfix] at hg
    have told := tells f w hfix
    simp only at hg
    split at hg
    · cases hg
    · cases hg
    · next heq =>
      cases hg
      cases heq
      exact told
  · rw [hfix] at hg
    cases hg

/-- A fix is answered if its word is a number, or does not look like one. -/
theorem answers_fix_iff (fair : Fair h x) {word : Option String} (hline : Command.ofLine line = .fix word) :
    Answers h x line ↔ ¬ Trips h x line := by
  rw [answers_iff_tells (a := x.session.prepareNumbered word) (by rw [hline]; rfl)]
  rw [trips_fix_iff hline]
  unfold prepareNumbered
  cases hword : word.filter looksNumber with
  | none =>
    refine ⟨?_, fun _ => tells_of_ok rfl⟩
    rintro - ⟨w, rfl, looks, -⟩
    rw [Option.filter_some, if_pos looks] at hword
    cases hword
  | some w =>
    obtain ⟨rfl, looks⟩ := Option.filter_eq_some_iff.1 hword
    have hnumber := exists_number_iff looks
    cases hread : Value.toInteger (.text w) with
    | error f =>
      have untold := number_untold hread
      simp only
      rw [tells_iff_of_error (f := f) (u := x.state) (by rw [hread]; rfl), untold]
      refine ⟨nofun, fun numbers => absurd ⟨w, rfl, looks, fun decimal => ?_⟩ numbers⟩
      obtain ⟨n, hn⟩ := hnumber.2 decimal
      rw [hread] at hn
      cases hn
    | ok n =>
      refine ⟨?_, fun _ => ?_⟩
      · rintro - ⟨w', hw', -, numbers⟩
        cases hw'
        exact numbers (hnumber.1 ⟨n, hread⟩)
      · simp only
        rw [hread]
        cases hi : x.session.issueAt n with
        | none => exact tells_of_ok (by rw [outcome_ofExcept_ok_bind, hi]; rfl)
        | some i =>
          intro f u hf
          rw [outcome_ofExcept_ok_bind, hi] at hf
          obtain ⟨row, -, hrow⟩ := issueAt_eq_some_iff.1 hi
          exact tells_prepare fair (List.mem_of_getElem? hrow) f u hf

/-! ## Accepting and rolling back -/

/-- With a disk that refuses nothing and places for the file and the temporary file, a text replaces a file
unless it has no bytes, which is not told. -/
theorem replaceFile_cases_of_steady (steady : h.steady) {p : Path} {y : String}
    (hl : ∃ l, s.disk.locateNew p = .ok l) (ht : ∃ temp, placeBeside s.disk p = .ok temp) :
    (∃ u, (replaceFile p y).outcome h s = (.ok (), u) ∧ Failure.checkText y = .ok ()) ∨
      ∃ f u, (replaceFile p y).outcome h s = (.error f, u) ∧ isTold f = false ∧
        Failure.checkText y ≠ .ok () := by
  have grants (n : Nat) (steps : List DiskStep) : h.Grants n steps := by
    induction steps generalizing n with
    | nil => trivial
    | cons k steps ih => exact ⟨steady n k, ih (n + 1)⟩
  rcases hr : (replaceFile p y).outcome h s with ⟨f | _, u⟩
  · refine .inr ⟨f, u, rfl, not_isTold_of_ofDisk (replaceFile_fails p y s f u hr), fun hy => ?_⟩
    obtain ⟨v, hv⟩ := (replaceFile_ok_iff h s p y).2 ⟨hy, hl, ht, grants _ _⟩
    rw [hr] at hv
    cases hv
  · exact .inl ⟨u, rfl, ((replaceFile_ok_iff h s p y).1 ⟨u, hr⟩).text⟩

theorem startOutside_untold {text code : String} {first last : Int} {f : Failure}
    (hf : Source.splice text first last code = .error f) : isTold f = false := by
  unfold Source.splice at hf
  simp only at hf
  split at hf
  · cases hf
    rfl
  · cases hf

/-- What follows without a failure has no failures that need be told. -/
theorem tells_bind_iff {a : Act α} {k : α → Act Session} (hk : ∀ y s, ∃ se u, (k y).outcome h s = (.ok se, u)) :
    Tells h s (a >>= k) ↔ Tells h s a := by
  rcases ha : a.outcome h s with ⟨f | y, u⟩
  · rw [tells_iff_of_error ha, tells_iff_of_error (outcome_bind_of_error ha k)]
  · obtain ⟨se, v, hok⟩ := hk y u
    have hall : (a >>= k).outcome h s = (.ok se, v) := by rw [outcome_bind_of_ok ha, hok]
    exact ⟨fun _ => tells_of_ok ha, fun _ => tells_of_ok hall⟩

/-- A failure to accept a change is told, unless the change is current and gives no text to be written. -/
theorem tells_accept_iff {l : Ledger} (steady : h.steady) (hc : l.pending = some c)
    (hb : s.disk.content c.file = .ok b) (htext : Utf8.decodeStrict b = some text)
    (ht : ∃ temp, placeBeside s.disk c.file = .ok temp) :
    Tells h s l.accept ↔ ¬ (Ledger.isCurrent c text = true ∧
      ∃ f, (Source.splice text c.first c.last c.newCode >>= Failure.checkText) = .error f) := by
  obtain ⟨place, hplace, -⟩ := Disk.exists_locateNew_of_content hb
  have hread := readStrict_of_content (steady s.diskSteps (.read c.file)) hb htext
  unfold Ledger.accept
  rw [hc]
  simp only
  unfold Ledger.updated
  by_cases current : Ledger.isCurrent c text = true
  · cases hsplice : Source.splice text c.first c.last c.newCode with
    | error f =>
      rw [tells_iff_of_error (f := f) (by
          rw [outcome_bind_of_ok hread, if_pos current, hsplice, outcome_ofExcept_error_bind]),
        startOutside_untold hsplice]
      exact ⟨nofun, fun written => absurd ⟨current, f, rfl⟩ written⟩
    | ok y =>
      -- the text is known, and its bytes decide
      rcases replaceFile_cases_of_steady (s := s.steps (s.diskSteps + 1)) (y := y) steady ⟨place, hplace⟩ ht with
        ⟨u, hreplace, hy⟩ | ⟨f, u, hreplace, untold, hy⟩
      · refine ⟨fun _ => ?_, fun _ => ?_⟩
        · rintro ⟨-, f, hf⟩
          change Failure.checkText y = .error f at hf
          rw [hy] at hf
          cases hf
        · intro f v hf
          rw [outcome_bind_of_ok hread, if_pos current, hsplice, outcome_ofExcept_ok_bind,
            outcome_bind_of_ok hreplace] at hf
          cases hf
      · rw [tells_iff_of_error (f := f) (by
            rw [outcome_bind_of_ok hread, if_pos current, hsplice, outcome_ofExcept_ok_bind,
              outcome_bind_of_error hreplace]), untold]
        refine ⟨nofun, fun written => absurd ⟨current, ?_⟩ written⟩
        cases hcheck : Failure.checkText y with
        | ok _ => exact absurd hcheck hy
        | error g => exact ⟨g, hcheck⟩
  · rw [tells_iff_of_error (f := .change (.stale c.file c.first c.last)) (by
      rw [outcome_bind_of_ok hread, if_neg current, outcome_ofExcept_error_bind])]
    exact ⟨fun _ written => current written.1, fun _ => rfl⟩

/-- Accepting is answered unless the change is current and gives no text to be written. -/
theorem answers_accept_iff (fair : Fair h x) (hline : Command.ofLine line = .accept) :
    Answers h x line ↔ ¬ Trips h x line := by
  rw [answers_iff_tells (a := x.session.accept) (by rw [hline]; rfl)]
  unfold Session.accept
  rw [tells_bind_iff fun y s => ⟨_, _, rfl⟩]
  rw [trips_accept_iff hline]
  cases hc : x.session.ledger.pending with
  | none =>
    have hfail : x.session.ledger.accept.outcome h x.state = (.error (.change .nothingPending), x.state) := by
      unfold Ledger.accept
      rw [hc]
      rfl
    refine ⟨?_, fun _ => (tells_iff_of_error hfail).2 rfl⟩
    rintro - ⟨c, -, -, -, hc', -⟩
    cases hc'
  | some c =>
    obtain ⟨b, text, hb, htext⟩ := fair.text c hc
    rw [tells_accept_iff fair.steady hc hb htext (fair.temp c hc)]
    refine not_congr ⟨fun ⟨current, f, hf⟩ => ⟨c, b, text, f, rfl, hb, htext, current, hf⟩, ?_⟩
    rintro ⟨c', b', text', f, hc', hb', htext', current, hf⟩
    obtain rfl : c = c' := Option.some.inj hc'
    obtain rfl : b = b' := Except.ok.inj (hb.symm.trans hb')
    obtain rfl : text = text' := Option.some.inj (htext.symm.trans htext')
    exact ⟨current, f, hf⟩

/-- Rolling back is answered unless the text from before has no bytes. -/
theorem answers_rollback_iff (fair : Fair h x) (hline : Command.ofLine line = .rollback) :
    Answers h x line ↔ ¬ Trips h x line := by
  rw [answers_iff_tells (a := x.session.rollback) (by rw [hline]; rfl)]
  unfold Session.rollback
  rw [tells_bind_iff fun y s => ⟨_, _, rfl⟩]
  rw [trips_rollback_iff hline]
  have restored := fair.restored
  unfold Ledger.rollback
  cases hhistory : x.session.ledger.history with
  | nil =>
    refine ⟨?_, fun _ => ?_⟩
    · rintro - ⟨a, f, ha, -⟩
      cases ha
    · exact (tells_iff_of_error (u := x.state) rfl).2 rfl
  | cons a rest =>
    rw [hhistory] at restored
    obtain ⟨hl, ht⟩ := restored a rfl
    simp only
    rcases replaceFile_cases_of_steady (y := a.before) fair.steady hl ht with
      ⟨u, hreplace, hbefore⟩ | ⟨f, u, hreplace, untold, hbefore⟩
    · refine ⟨?_, fun _ => tells_of_ok (outcome_bind_of_ok hreplace _)⟩
      rintro - ⟨a', f, ha, hf⟩
      obtain rfl : a = a' := Option.some.inj ha
      rw [hbefore] at hf
      cases hf
    · rw [tells_iff_of_error (outcome_bind_of_error hreplace _), untold]
      refine ⟨nofun, fun written => absurd ?_ written⟩
      cases hcheck : Failure.checkText a.before with
      | ok _ => exact absurd hcheck hbefore
      | error g => exact ⟨a, g, rfl, hcheck⟩

/-! ## All lines -/

theorem exists_printEntries (number : Nat) (history : List Applied) (s : State) :
    ∃ u, (printEntries number history).outcome h s = (.ok (), u) := by
  induction history generalizing number s with
  | nil => exact ⟨s, rfl⟩
  | cons a rest ih =>
    obtain ⟨u, hu⟩ := ih (number + 1) _
    exact ⟨u, hu⟩

theorem exists_printHistory (history : List Applied) (s : State) :
    ∃ u, (printHistory history).outcome h s = (.ok (), u) := by
  unfold printHistory
  split
  · exact ⟨_, rfl⟩
  · exact exists_printEntries 1 history s

/-- A line whose command has no failures is answered. -/
theorem answers_of_perform_ok
    (hp : (x.session.perform (Command.ofLine line)).outcome h x.state = (.ok (te, .ok ()), u)) :
    Answers h x line :=
  (answers_of_perform hp).2 fun _ hf => (nomatch hf)

/-- Commands that only tell something, or drop the pending change, are answered. -/
theorem exists_perform_ok (se : Session) {command : Command} (scan : command ≠ .scan)
    (fix : ∀ word, command ≠ .fix word) (accept : command ≠ .accept) (rollback : command ≠ .rollback)
    (s : State) : ∃ te u, (se.perform command).outcome h s = (.ok (te, .ok ()), u) := by
  cases command with
  | nothing => exact ⟨_, _, rfl⟩
  | quit => exact ⟨_, _, rfl⟩
  | help => exact ⟨_, _, rfl⟩
  | scan => exact absurd rfl scan
  | fix word => exact absurd rfl (fix word)
  | view =>
    have hview : ∃ te u, se.view.outcome h s = (.ok te, u) := by
      unfold view
      split
      · exact ⟨_, _, rfl⟩
      · exact ⟨_, _, rfl⟩
    obtain ⟨te, u, hu⟩ := hview
    exact ⟨te, u, by rw [perform, outcome_orUnchanged, hu]⟩
  | accept => exact absurd rfl accept
  | discard =>
    have hdiscard : ∃ te u, se.discard.outcome h s = (.ok te, u) := by
      unfold discard
      split
      · exact ⟨_, _, rfl⟩
      · exact ⟨_, _, rfl⟩
    obtain ⟨te, u, hu⟩ := hdiscard
    exact ⟨te, u, by rw [perform, outcome_orUnchanged, hu]⟩
  | rollback => exact absurd rfl rollback
  | history =>
    obtain ⟨u, hu⟩ := exists_printHistory (h := h) se.ledger.history s
    have htelling : (se.telling (printHistory se.ledger.history)).outcome h s = (.ok se, u) := by
      unfold telling
      rw [outcome_bind_of_ok hu]
      rfl
    exact ⟨se, u, by rw [perform, outcome_orUnchanged, htelling]⟩
  | unknown word => exact ⟨_, _, rfl⟩

/-- A line that is not answered ends the session by its failure: what follows it is not read, and the pending
change and the history are lost. -/
theorem exists_converse_error (silent : ¬ Answers h x line) (rest : List String)
    (input : x.state = { s with input := rest }) :
    ∃ f u, (x.session.converse (line :: rest)).outcome h s = (.error f, u) := by
  obtain ⟨te, r, u, hp⟩ := exists_perform (h := h) x.session (Command.ofLine line) x.state
  rw [answers_of_perform hp] at silent
  cases r with
  | ok _ => exact absurd (fun f hf => (nomatch hf)) silent
  | error f =>
    have untold : isTold f = false := by
      rw [Bool.eq_false_iff]
      exact fun told => silent fun g hg => by cases hg; exact told
    have hhandle : (x.session.handle line).outcome h x.state = (.ok (te, .error f), u) := by
      unfold handle
      simp only
      rw [outcome_bind_of_ok hp]
      simp only
      rw [untold, if_neg Bool.false_ne_true]
      rfl
    refine ⟨f, u, ?_⟩
    rw [converse, outcome_modify_bind, ← input, outcome_bind_of_ok hhandle]
    rfl

theorem tells_of_toOption {a : Act α} (hok : (a.outcome h s).1.toOption.isSome = true) : Tells h s a := by
  intro f u hf
  rw [hf] at hok
  cases hok

/-- The session with its surroundings after the block was found. -/
def scannedBlock : Scene := oneBlock.run answering ["scan"]

/-- Nothing around the session fails. -/
theorem fair_scannedBlock : Fair answering scannedBlock where
  steady := answering_steady
  scanned := tells_of_toOption (by decide +kernel)
  equipped := tells_of_toOption (by decide +kernel)
  repaired r t hr i hi := by
    have hall : scannedBlock.session.issues.all (fun i =>
        ((Repair.byModel scannedBlock.session.settings scannedBlock.session.project
          scannedBlock.session.registry >>= fun r =>
            r.fixWithNeighbours i scannedBlock.session.issues none).outcome answering
          scannedBlock.state).1.toOption.isSome) = true := by decide +kernel
    have hfix := List.all_eq_true.1 hall i hi
    rw [outcome_bind_of_ok hr] at hfix
    exact tells_of_toOption hfix
  text c hc := by
    have hnone : scannedBlock.session.ledger.pending.isNone = true := by decide +kernel
    rw [hc] at hnone
    cases hnone
  temp c hc := by
    have hnone : scannedBlock.session.ledger.pending.isNone = true := by decide +kernel
    rw [hc] at hnone
    cases hnone
  restored a ha := by
    have hnone : scannedBlock.session.ledger.history.head?.isNone = true := by decide +kernel
    rw [ha] at hnone
    cases hnone

end Session

end FixGate
