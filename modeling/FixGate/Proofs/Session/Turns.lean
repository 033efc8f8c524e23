import FixGate.Proofs.Session.Unwritten

/-!
# A typed line

What a typed line comes to, whatever happens in it: a fix becomes the pending one after its validation, the
pending one is written, the latest one is undone, or nothing is written to stay and nothing becomes pending.

* `Session.Scene`, `Session.Scene.after`, `Session.Scene.run` : a session with its surroundings, after a
  typed line, and after some of them
* `Session.Verified` : a change that became pending after its validation
* `Session.accept_line_cases`, `Session.rollback_line_cases` : what becomes of the session and the files
* `Session.Turn`, `Session.turn_of_line` : what a typed line comes to
-/

namespace FixGate

open Act FileTree

variable {h : Host} {s t u : State} {i : Issue} {c : Change} {line : String}

/-! ## The compiler of a validation that passed -/

/-- A candidate that passed was compiled: the first program that its validation started found its bytes in
the file. -/
theorem Validator.exists_compile_of_passed {v : Validator} {file : Path} {candidate : String}
    {sought : Option Issue} {verdict : Validation} (hv : ∀ a ∈ v.registry, a.Outsourced)
    (hvalid : (v.validate file candidate sought).outcome h s = (.ok verdict, u))
    (hpass : verdict.passed = true) :
    ∃ run rest, u.runs = s.runs ++ run :: rest ∧
      (⟨run.2, s.disk.here⟩ : Disk).content file = .ok (Text.Utf8.encode candidate) := by
  rcases validate_cases v h s file candidate sought with
    ⟨-, hno⟩ | ⟨t, c, w, -, ⟨idle, -, -⟩, heq⟩
  · rw [hvalid] at hno
    cases hpass.symm.trans (hno verdict rfl)
  rw [heq] at hvalid
  obtain ⟨copied, placed, ended, hcopy, hwrite, hjudge, hrestore⟩ := whileInPlace_eq_ok_iff.1 hvalid
  obtain ⟨hcontent, written⟩ := content_of_writeText hwrite
  have copying := copyFile_unmoved (h := h) file (copyOf file) w
  rw [hcopy] at copying
  have moved : Unmoved s placed :=
    ((Unmoved.of_idle idle).trans _ _ _ copying).trans _ _ _ written
  have restoring := restore_unmoved (h := h) file ended
  rw [hrestore] at restoring
  have hstart := judge_cases (h := h) hv t c file sought placed
  rw [hjudge] at hstart
  rcases hstart with ⟨-, hno⟩ | ⟨run, hrun, rest, hrest⟩
  · cases hpass.symm.trans (hno verdict rfl)
  · refine ⟨run, rest, ?_, ?_⟩
    · rw [restoring.2, ← hrest, moved.2, List.append_assoc, List.singleton_append]
    · rw [hrun.tree, ← moved.1]
      exact hcontent

namespace Session

/-! ## Sessions in their surroundings -/

/-- A session with its surroundings. -/
structure Scene where
  session : Session
  state : State

/-- The session and its surroundings after a typed line. -/
def Scene.after (h : Host) (x : Scene) (line : String) : Scene :=
  match (x.session.handle line).outcome h x.state with
  | (.ok (t, _), u) => ⟨t, u⟩
  | (.error _, u) => ⟨x.session, u⟩

/-- The session and its surroundings after typed lines, one after another. -/
def Scene.run (h : Host) (x : Scene) (lines : List String) : Scene :=
  lines.foldl (Scene.after h) x

variable {x y : Scene} {se te : Session} {r : Except Failure Unit} {command : Command}
  {bytes : List UInt8} {candidate : String}

theorem outcome_orUnchanged (se : Session) (a : Act Session) (s : State) :
    (se.orUnchanged a).outcome h s =
      match a.outcome h s with
      | (.ok te, u) => (.ok (te, .ok ()), u)
      | (.error f, u) => (.ok (se, .error f), u) := by
  unfold orUnchanged
  rw [outcome_bind, outcome_caught]
  rcases a.outcome h s with ⟨f | te, u⟩ <;> rfl

theorem outcome_rescan (se : Session) (s : State) :
    se.rescan.outcome h s =
      match (se.registry.scan se.target se.settings.exclude).outcome h s with
      | (.ok is, u) => (.ok ({ se with issues := is }, ((printIssues is issuesTitle).outcome h u).1),
          ((printIssues is issuesTitle).outcome h u).2)
      | (.error f, u) => (.ok (se, .error f), u) := by
  unfold rescan
  rw [outcome_bind, outcome_caught]
  rcases (se.registry.scan se.target se.settings.exclude).outcome h s with ⟨f | is, u⟩
  · rfl
  · simp only
    rw [outcome_bind, outcome_caught]
    rfl

/-- A scan changes the findings of the session at most. -/
theorem exists_rescan (se : Session) (s : State) :
    ∃ issues r u, se.rescan.outcome h s = (.ok ({ se with issues }, r), u) := by
  rw [outcome_rescan]
  rcases (se.registry.scan se.target se.settings.exclude).outcome h s with ⟨f | issues, u⟩
  · exact ⟨se.issues, _, _, rfl⟩
  · exact ⟨issues, _, _, rfl⟩

/-- A command is told apart from its failure, so it does not fail itself. -/
theorem exists_perform (se : Session) (command : Command) (s : State) :
    ∃ te r u, (se.perform command).outcome h s = (.ok (te, r), u) := by
  have caught (a : Act Session) : ∃ te r u, (se.orUnchanged a).outcome h s = (.ok (te, r), u) := by
    rw [outcome_orUnchanged]
    rcases a.outcome h s with ⟨f | te, u⟩
    · exact ⟨_, _, _, rfl⟩
    · exact ⟨_, _, _, rfl⟩
  cases command
  case scan =>
    obtain ⟨issues, r, u, hu⟩ := exists_rescan (h := h) se s
    exact ⟨_, r, u, hu⟩
  all_goals exact caught _

/-- After its command, a line is at most answered with a complaint. -/
theorem after_of_perform
    (hp : (x.session.perform (Command.ofLine line)).outcome h x.state = (.ok (te, r), u)) :
    (x.after h line).session = te ∧ Told u (x.after h line).state := by
  have hhandle : ∃ r' u', (x.session.handle line).outcome h x.state = (.ok (te, r'), u') ∧ Told u u' := by
    unfold handle
    simp only
    rw [outcome_bind, hp]
    simp only
    cases r with
    | ok _ => exact ⟨_, _, rfl, Told.refl u⟩
    | error f =>
      simp only
      split
      · exact ⟨_, _, rfl, _, rfl⟩
      · exact ⟨_, _, rfl, Told.refl u⟩
  obtain ⟨r', u', hu', told⟩ := hhandle
  unfold Scene.after
  rw [hu']
  exact ⟨rfl, told⟩

/-- A command that leaves the session as it is when it fails. -/
theorem after_of_orUnchanged {a : Act Session}
    (ha : x.session.perform (Command.ofLine line) = x.session.orUnchanged a) :
    match a.outcome h x.state with
    | (.ok te, u) => (x.after h line).session = te ∧ Told u (x.after h line).state
    | (.error _, u) => (x.after h line).session = x.session ∧ Told u (x.after h line).state := by
  have hout := outcome_orUnchanged (h := h) x.session a x.state
  rw [← ha] at hout
  rcases hr : a.outcome h x.state with ⟨f | te, u⟩
  all_goals
    rw [hr] at hout
    exact after_of_perform hout

/-! ## Fixes -/

/-- In the course of a typed line, a change became pending after its validation. What it makes of the text
that its file held at the beginning passed, and was compiled as a whole. -/
structure Verified (h : Host) (x y : Scene) (c : Change) (bytes : List UInt8) (candidate : String) :
    Prop where
  pending : y.session.ledger.pending = some c
  read : x.state.disk.content c.file = .ok bytes
  made : Ledger.updated c (Source.decode bytes) = .ok candidate
  passed : c.validation.passed = true
  validated : ∃ (v : Validator) (i : Issue) (t w : State), v.registry = x.session.registry ∧
    x.state.runs <+: t.runs ∧ y.state.runs = w.runs ∧
    (v.validate c.file candidate (some i)).outcome h t = (.ok c.validation, w) ∧
    ∃ run rest, w.runs = t.runs ++ run :: rest ∧
      (⟨run.2, t.disk.here⟩ : Disk).content c.file = .ok (Text.Utf8.encode candidate)

/-- A fix that is prepared leaves the session as it is, or its change becomes the pending one. -/
theorem prepare_cases (hp : (se.prepare i).outcome h s = (.ok te, u)) :
    te = se ∨ ∃ (m : Model) (v : Validator) (c : Change) (w : State), v.registry = se.registry ∧
      te = { se with ledger := se.ledger.stage c } ∧ Idle w u ∧
      (Repair.fixWithNeighbours ⟨.ofModel m v, se.settings⟩ i se.issues none).outcome h s =
        (.ok c, w) := by
  unfold prepare at hp
  rcases Repair.byModel_cases (h := h) se.settings se.project se.registry s with
    ⟨f, hf⟩ | ⟨m, v, hr, registry⟩
  · rw [outcome_bind_of_error hf] at hp
    cases hp
  rw [outcome_bind_of_ok hr, outcome_bind, outcome_caught] at hp
  rcases hfix : (Repair.fixWithNeighbours ⟨.ofModel m v, se.settings⟩ i se.issues none).outcome h s with
    ⟨f | c, w⟩
  all_goals rw [hfix] at hp
  · left
    cases f
    case generation text feedback attempts cause =>
      cases hp
      rfl
    all_goals cases hp
  · cases hp
    exact .inr ⟨m, v, c, w, registry, rfl, ⟨rfl, rfl⟩, hfix⟩

/-- The word after `fix` is the number of a row. The rows are counted from zero, their numbers from one. -/
def Names (word : Option String) (row : Nat) : Prop :=
  ∃ w, word = some w ∧ looksNumber w = true ∧ Value.toInteger (.text w) = .ok ((row : Int) + 1)

theorem issueAt_eq_some_iff {n : Int} :
    se.issueAt n = some i ↔ ∃ row : Nat, n = (row : Int) + 1 ∧ se.issues[row]? = some i := by
  unfold issueAt
  constructor
  · intro hi
    split at hi
    · cases hi
    · exact ⟨(n - 1).toNat, by omega, hi⟩
  · rintro ⟨row, rfl, hi⟩
    rw [if_neg (by omega)]
    simpa using hi

/-- So does a fix for a row. -/
theorem prepareNumbered_cases {word : Option String}
    (hp : (se.prepareNumbered word).outcome h s = (.ok te, u)) :
    te = se ∨ ∃ row i, Names word row ∧ se.issues[row]? = some i ∧
      (se.prepare i).outcome h s = (.ok te, u) := by
  unfold prepareNumbered at hp
  split at hp
  · cases hp
    exact .inl rfl
  · next w hw =>
    obtain ⟨rfl, looks⟩ := Option.filter_eq_some_iff.1 hw
    obtain ⟨number, s', hread, hp⟩ := outcome_bind_eq_ok_iff.1 hp
    rw [outcome_ofExcept] at hread
    obtain ⟨hnumber, rfl⟩ := Prod.mk.inj hread
    split at hp
    · cases hp
      exact .inl rfl
    · next i hat =>
      obtain ⟨row, rfl, hi⟩ := issueAt_eq_some_iff.1 hat
      exact .inr ⟨row, i, ⟨w, rfl, looks, hnumber⟩, hi, hp⟩

/-- The analyzers stay the same. -/
theorem registry_of_prepareNumbered {word : Option String}
    (hp : (se.prepareNumbered word).outcome h s = (.ok te, u)) : te.registry = se.registry := by
  rcases prepareNumbered_cases hp with rfl | ⟨_, i, -, -, hi⟩
  · rfl
  rcases prepare_cases hi with rfl | ⟨_, _, _, _, -, rfl, -, -⟩
  · rfl
  · rfl

/-- A change that becomes pending was verified. -/
theorem verified_of_prepare (harmless : h.Harmless) (hx : ∀ a ∈ x.session.registry, a.Outsourced)
    (lets : ∀ file, h.LetsRestore file) (free : CopiesFree x.state)
    (hp : (x.session.prepare i).outcome h x.state = (.ok te, u)) (hy : y.session = te)
    (idle : Idle u y.state) :
    te = x.session ∨ te.registry = x.session.registry ∧
      ∃ c bytes candidate, Verified h x y c bytes candidate := by
  rcases prepare_cases hp with hsame | ⟨m, v, c, w, registry, rfl, still, hfix⟩
  · exact .inl hsame
  refine .inr ⟨rfl, ?_⟩
  have hv : ∀ a ∈ v.registry, a.Outsourced := registry ▸ hx
  obtain ⟨b, t, ended, hb, leaves, validated, rfl⟩ := Repair.exists_validated_of_fixWithNote
    (Repair.leaves_stays m x.session.settings harmless hv (lets i.file)) hfix
  obtain ⟨candidate, made, hvalid⟩ := validated.candidate
  obtain ⟨run, rest, hruns, hcontent⟩ :=
    Validator.exists_compile_of_passed hv hvalid validated.passed
  refine ⟨c, b, candidate, by rw [hy]; rfl, validated.file ▸ hb, made, validated.passed, v, i, t, ended,
    registry, (leaves free).runs, ?_, validated.file ▸ hvalid, run, rest, hruns,
    validated.file ▸ hcontent⟩
  rw [idle.2, still.2]

/-! ## What a line comes to -/

/-- What a typed line comes to. -/
inductive Turn (h : Host) (x : Scene) (line : String) (y : Scene) : Prop
  /-- Nothing is written to stay, and nothing becomes pending. -/
  | rests : y.session.ledger.pending = x.session.ledger.pending ∨ y.session.ledger.pending = none →
      Unwritten x.state y.state → Turn h x line y
  /-- A change becomes pending, and nothing is written to stay. -/
  | fixes {word : Option String} {c : Change} {bytes : List UInt8} {candidate : String} :
      Command.ofLine line = .fix word → Verified h x y c bytes candidate →
      Unwritten x.state y.state → Turn h x line y
  /-- The pending change is written. -/
  | accepts : y.session.ledger.pending = none → SameWays x.state y.state → Turn h x line y
  /-- The latest change is undone. -/
  | undoes {a : Applied} {l : Ledger} {u : State} : Command.ofLine line = .rollback →
      x.session.ledger.rollback.outcome h x.state = (.ok (a, l), u) → Ledger.RolledBack x.state u a →
      Idle u y.state → y.session.ledger.pending = x.session.ledger.pending → Turn h x line y

/-- A file that was written or restored leaves the directories as they were. -/
theorem sameWays_of_entries {p : Path} {place : Location} {b : List UInt8}
    (here : u.disk.here = s.disk.here) (hplace : s.disk.locateNew p = .ok place)
    (entries : ∀ k, u.disk.tree.get? k = if k = place then some (.file b) else s.disk.tree.get? k) :
    SameWays s u := by
  refine ⟨here, fun k => ?_⟩
  rw [entries]
  split_ifs with hk
  · simp [hk, Disk.get?_ne_dir_of_locateNew hplace]
  · exact Iff.rfl

theorem sameWays_of_accepted {a : Applied} (acc : Ledger.Accepted s u c a) : SameWays s u := by
  obtain ⟨place, text, -, hplace, entries⟩ := acc.tree
  exact sameWays_of_entries acc.here hplace entries

theorem sameWays_of_rolledBack {a : Applied} (rolled : Ledger.RolledBack s u a) : SameWays s u := by
  obtain ⟨place, hplace, entries⟩ := rolled.tree
  exact sameWays_of_entries rolled.here hplace entries

/-- An accept leaves the session and the files when the ledger fails. Otherwise the change is written and the
findings are gone. -/
theorem accept_line_cases (hline : Command.ofLine line = .accept) :
    (∃ f u, x.session.ledger.accept.outcome h x.state = (.error f, u) ∧
        (x.after h line).session = x.session ∧ Unwritten x.state (x.after h line).state) ∨
      ∃ c a u, x.session.ledger.accept.outcome h x.state = (.ok (a, x.session.ledger.enter a), u) ∧
        Ledger.Accepted x.state u c a ∧ Idle u (x.after h line).state ∧
        (x.after h line).session = { x.session with ledger := x.session.ledger.enter a, issues := [] } := by
  have after := after_of_orUnchanged (h := h) (x := x) (a := x.session.accept) (by rw [hline]; rfl)
  unfold Session.accept at after
  rw [outcome_bind] at after
  rcases Ledger.accept_cases (h := h) x.session.ledger x.state with
    ⟨f, n, tree, hf, same⟩ | ⟨c, a, u, -, hok, acc⟩
  · rw [hf] at after
    obtain ⟨hsession, told⟩ := after
    exact .inl ⟨f, _, hf, hsession, (Unwritten.of_same same).trans (.of_idle told.idle)⟩
  · rw [hok] at after
    obtain ⟨hsession, told⟩ := after
    exact .inr ⟨c, a, u, hok, acc, told.idle, hsession⟩

/-- So does a rollback, which gives one file its text back. -/
theorem rollback_line_cases (hline : Command.ofLine line = .rollback) :
    (∃ f u, x.session.ledger.rollback.outcome h x.state = (.error f, u) ∧
        (x.after h line).session = x.session ∧ Unwritten x.state (x.after h line).state) ∨
      ∃ a rest u, x.session.ledger.rollback.outcome h x.state =
          (.ok (a, { x.session.ledger with history := rest }), u) ∧
        Ledger.RolledBack x.state u a ∧ Idle u (x.after h line).state ∧
        (x.after h line).session =
          { x.session with ledger := { x.session.ledger with history := rest }, issues := [] } := by
  have after := after_of_orUnchanged (h := h) (x := x) (a := x.session.rollback) (by rw [hline]; rfl)
  unfold Session.rollback at after
  rw [outcome_bind] at after
  rcases Ledger.rollback_cases (h := h) x.session.ledger x.state with
    ⟨f, n, tree, hf, same⟩ | ⟨a, rest, u, -, hok, rolled⟩
  · rw [hf] at after
    obtain ⟨hsession, told⟩ := after
    exact .inl ⟨f, _, hf, hsession, (Unwritten.of_same same).trans (.of_idle told.idle)⟩
  · rw [hok] at after
    obtain ⟨hsession, told⟩ := after
    exact .inr ⟨a, rest, u, hok, rolled, told.idle, hsession⟩

/-- A line that leaves the session and the files. -/
theorem turn_of_unchanged (hsession : (x.after h line).session = x.session)
    (unwritten : Unwritten x.state (x.after h line).state) :
    Turn h x line (x.after h line) ∧ (x.after h line).session.registry = x.session.registry := by
  rw [hsession]
  exact ⟨.rests (.inl (by rw [hsession])) unwritten, rfl⟩

/-- Accepting empties the slot, unless it fails and leaves everything. -/
theorem turn_of_accept (hline : Command.ofLine line = .accept) :
    Turn h x line (x.after h line) ∧ (x.after h line).session.registry = x.session.registry := by
  rcases accept_line_cases (h := h) hline with
    ⟨-, -, -, hsession, unwritten⟩ | ⟨c, a, u, -, acc, idle, hsession⟩
  · exact turn_of_unchanged hsession unwritten
  · rw [hsession]
    refine ⟨.accepts (by rw [hsession]; rfl) ?_, rfl⟩
    exact (sameWays_of_accepted acc).trans _ _ _ (SameWays.of_idle idle)

/-- Rolling back leaves the pending change, and restores one file unless it fails and leaves everything. -/
theorem turn_of_rollback (hline : Command.ofLine line = .rollback) :
    Turn h x line (x.after h line) ∧ (x.after h line).session.registry = x.session.registry := by
  rcases rollback_line_cases (h := h) hline with
    ⟨-, -, -, hsession, unwritten⟩ | ⟨a, rest, u, hok, rolled, idle, hsession⟩
  · exact turn_of_unchanged hsession unwritten
  · rw [hsession]
    exact ⟨.undoes hline hok rolled idle (by rw [hsession]), rfl⟩

/-- A fix becomes pending after its validation, or nothing does. -/
theorem turn_of_fix (harmless : h.Harmless) (hx : ∀ a ∈ x.session.registry, a.Outsourced)
    (lets : ∀ file, h.LetsRestore file) (free : CopiesFree x.state) {word : Option String}
    (hline : Command.ofLine line = .fix word) :
    Turn h x line (x.after h line) ∧ (x.after h line).session.registry = x.session.registry := by
  have after := after_of_orUnchanged (h := h) (x := x) (a := x.session.prepareNumbered word)
    (by rw [hline]; rfl)
  have leaves := (quiet_leaves (x := x.session) harmless hx lets).prepareNumbered word x.state
  rcases hn : (x.session.prepareNumbered word).outcome h x.state with ⟨f | te, u⟩
  all_goals
    rw [hn] at after leaves
    obtain ⟨hsession, told⟩ := after
    have idle := told.idle
    have unwritten : Unwritten x.state (x.after h line).state := (leaves free).trans (.of_idle idle)
  · exact turn_of_unchanged hsession unwritten
  rcases prepareNumbered_cases hn with rfl | ⟨_, i, -, -, hi⟩
  · exact turn_of_unchanged hsession unwritten
  rcases verified_of_prepare harmless hx lets free hi hsession idle with
    rfl | ⟨registry, c, bytes, candidate, verified⟩
  · exact turn_of_unchanged hsession unwritten
  · exact ⟨.fixes hline verified unwritten, hsession ▸ registry⟩

/-- Commands that neither scan, fix, accept nor roll back leave the session as it is, but for the pending change
that may be dropped. -/
theorem session_of_perform (scanning : command ≠ .scan) (fixing : ∀ word, command ≠ .fix word)
    (accepting : command ≠ .accept) (undoing : command ≠ .rollback)
    (hp : (se.perform command).outcome h s = (.ok (te, r), u)) :
    te = se ∨ te = { se with ledger := se.ledger.discard } := by
  have told {a : Act Session} (ha : ∀ te u, a.outcome h s = (.ok te, u) →
      te = se ∨ te = { se with ledger := se.ledger.discard })
      (hp : (se.orUnchanged a).outcome h s = (.ok (te, r), u)) :
      te = se ∨ te = { se with ledger := se.ledger.discard } := by
    rw [outcome_orUnchanged] at hp
    rcases hr : a.outcome h s with ⟨f | te', u'⟩
    all_goals
      rw [hr] at hp
      cases hp
    · exact .inl rfl
    · exact ha _ _ hr
  have telling {a : Act Unit} (te : Session) (u : State)
      (hr : (se.telling a).outcome h s = (.ok te, u)) :
      te = se ∨ te = { se with ledger := se.ledger.discard } := by
    obtain ⟨_, _, -, hr⟩ := outcome_bind_eq_ok_iff.1 hr
    cases hr
    exact .inl rfl
  cases command with
  | nothing => exact told (by rintro _ _ ⟨⟩; exact .inl rfl) hp
  | quit => exact told (by rintro _ _ ⟨⟩; exact .inl rfl) hp
  | help => exact told telling hp
  | scan => exact absurd rfl scanning
  | fix word => exact absurd rfl (fixing word)
  | view =>
    refine told (fun te u hr => ?_) hp
    unfold view at hr
    split at hr
    all_goals
      cases hr
      exact .inl rfl
  | accept => exact absurd rfl accepting
  | discard =>
    refine told (fun te u hr => ?_) hp
    unfold discard at hr
    split at hr
    all_goals
      cases hr
      exact .inr rfl
  | rollback => exact absurd rfl undoing
  | history => exact told telling hp
  | unknown word => exact told telling hp

/-- Of the other commands none makes a change pending. -/
theorem pending_of_perform (fixing : ∀ word, command ≠ .fix word) (accepting : command ≠ .accept)
    (undoing : command ≠ .rollback)
    (hp : (se.perform command).outcome h s = (.ok (te, r), u)) :
    (te.ledger.pending = se.ledger.pending ∨ te.ledger.pending = none) ∧ te.registry = se.registry := by
  by_cases scanning : command = .scan
  · subst scanning
    obtain ⟨issues, r', u', hu⟩ := exists_rescan (h := h) se s
    cases hu.symm.trans hp
    exact ⟨.inl rfl, rfl⟩
  · rcases session_of_perform scanning fixing accepting undoing hp with rfl | rfl
    · exact ⟨.inl rfl, rfl⟩
    · exact ⟨.inr rfl, rfl⟩

/-- **What a typed line comes to**, as long as programs and model change no file, files can be restored, and
no directory stands in the place of a copy. The analyzers stay the same. -/
theorem turn_of_line (harmless : h.Harmless) (hx : ∀ a ∈ x.session.registry, a.Outsourced)
    (lets : ∀ file, h.LetsRestore file) (free : CopiesFree x.state) (line : String) :
    Turn h x line (x.after h line) ∧ (x.after h line).session.registry = x.session.registry := by
  by_cases fixing : ∃ word, Command.ofLine line = .fix word
  · obtain ⟨word, hline⟩ := fixing
    exact turn_of_fix harmless hx lets free hline
  by_cases accepting : Command.ofLine line = .accept
  · exact turn_of_accept accepting
  by_cases undoing : Command.ofLine line = .rollback
  · exact turn_of_rollback undoing
  obtain ⟨te, r, u, hp⟩ := exists_perform (h := h) x.session (Command.ofLine line) x.state
  obtain ⟨hsession, told⟩ := after_of_perform hp
  have idle := told.idle
  have leaves := (quiet_leaves (x := x.session) harmless hx lets).perform accepting undoing x.state
  obtain ⟨pending, registry⟩ :=
    pending_of_perform (fun word hword => fixing ⟨word, hword⟩) accepting undoing hp
  rw [hp] at leaves
  exact ⟨.rests (hsession ▸ pending) ((leaves free).trans (.of_idle idle)), hsession ▸ registry⟩

end Session

end FixGate
