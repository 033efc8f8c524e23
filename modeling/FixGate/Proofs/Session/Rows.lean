import FixGate.Proofs.Session.Answers

/-!
# The rows of the last scan

A row is a finding of the last scan, and a fix for a row is made for that finding with all the others beside
it. When a change is written or undone the rows are gone, so no fix is made for a line that has moved. What
fails leaves the rows, the pending change and the history as they were.

* `Session.Completes`, `Session.Writes` : a line that completes a scan, and one that writes or undoes
* `Session.issues_after` : what a line does to the findings
* `Session.perform_fix_eq` : what a fix for a row hands to the repair
* `Session.Listed`, `Session.listed_run` : the findings stem from the last scan, and nothing was written since
* `Session.rows_of_last_scan` : the rows all along a session
-/

namespace FixGate.Session

open Act

variable {h : Host} {s u : State} {x y : Scene} {line : String} {lines : List String} {se te : Session}
  {is : List Issue} {rows : List (List String)} {m n : Nat} {i : Issue}

/-! ## Lines that renew or end the rows -/

/-- What is printed of findings that have rows. -/
def shown (is : List Issue) (rows : List (List String)) : List Notice :=
  if is.isEmpty then [.out (.line "\n  [green]✅ No issues found.[/green]\n")]
  else
    [.out (.table ("[bold]" ++ issuesTitle ++ "[/bold]") issueColumns rows),
     .out (.line s!"  {is.length} issues ({graveCount is} high or critical)\n")]

/-- Findings that are printed have rows. -/
theorem exists_rows_of_printIssues (hp : (printIssues is issuesTitle).outcome h s = (.ok (), u)) :
    ∃ rows, issueRows 1 is = .ok rows ∧ u = { s with notices := s.notices ++ shown is rows } := by
  unfold printIssues at hp
  unfold shown
  split at hp
  · next hempty =>
    cases hp
    rw [List.isEmpty_iff] at hempty
    subst hempty
    exact ⟨[], rfl, rfl⟩
  · next hfilled =>
    obtain ⟨rows, t, hrows, hp⟩ := outcome_bind_eq_ok_iff.1 hp
    rw [outcome_ofExcept] at hrows
    obtain ⟨hmade, rfl⟩ := Prod.mk.inj hrows
    cases hp
    refine ⟨rows, hmade, ?_⟩
    rw [if_neg hfilled]
    simp only [List.append_assoc, List.cons_append, List.nil_append]

/-- A typed line completes a scan: the analyzers return findings, and these are printed in rows. -/
structure Completes (h : Host) (x : Scene) (line : String) (is : List Issue) (rows : List (List String)) :
    Prop where
  asked : Command.ofLine line = .scan
  returned : ∃ u, (x.session.registry.scan x.session.target x.session.settings.exclude).outcome h x.state =
    (.ok is, u) ∧ (x.after h line).state = { u with notices := u.notices ++ shown is rows }
  printed : issueRows 1 is = .ok rows

/-- A typed line writes the pending change to its file, or undoes the latest one. -/
inductive Writes (h : Host) (x : Scene) (line : String) : Prop
  | accepts {a : Applied} {l : Ledger} {u : State} : Command.ofLine line = .accept →
      x.session.ledger.accept.outcome h x.state = (.ok (a, l), u) → Writes h x line
  | undoes {a : Applied} {l : Ledger} {u : State} : Command.ofLine line = .rollback →
      x.session.ledger.rollback.outcome h x.state = (.ok (a, l), u) → Writes h x line

/-- A typed line gets findings from the analyzers. -/
def Scans (h : Host) (x : Scene) (line : String) : Prop :=
  Command.ofLine line = .scan ∧ ∃ is u,
    (x.session.registry.scan x.session.target x.session.settings.exclude).outcome h x.state = (.ok is, u)

/-! ## One line -/

/-- A command without a failure is followed by nothing. -/
theorem after_of_perform_ok
    (hp : (x.session.perform (Command.ofLine line)).outcome h x.state = (.ok (te, .ok ()), u)) :
    x.after h line = ⟨te, u⟩ := by
  unfold Scene.after handle
  simp only
  rw [outcome_bind_of_ok hp]
  rfl

/-- A scan that is answered is completed, or gets no findings and leaves the session as it is. -/
theorem scan_after (answered : Answers h x line) (hline : Command.ofLine line = .scan) :
    (∃ is rows, Completes h x line is rows ∧ (x.after h line).session.issues = is) ∨
      ¬ Scans h x line ∧ (x.after h line).session = x.session := by
  have hperform : (x.session.perform (Command.ofLine line)).outcome h x.state =
      x.session.rescan.outcome h x.state := by
    rw [hline]
    rfl
  rw [outcome_rescan] at hperform
  rcases hscan : (x.session.registry.scan x.session.target x.session.settings.exclude).outcome h x.state with
    ⟨f | is, u⟩
  all_goals rw [hscan] at hperform
  · right
    refine ⟨?_, (after_of_perform hperform).1⟩
    rintro ⟨-, is, v, hok⟩
    rw [hscan] at hok
    cases hok
  · left
    simp only at hperform
    rcases hprint : (printIssues is issuesTitle).outcome h u with ⟨f | ⟨⟩, w⟩
    all_goals rw [hprint] at hperform
    · -- a failure to print is not told, so the line would not have been answered
      have told := (answers_of_perform hperform).1 answered f rfl
      rcases printIssues_cases (h := h) is issuesTitle u with
        ⟨w', hok, -⟩ | ⟨-, -, -, g, w', herror, untold⟩
      · rw [hprint] at hok
        cases hok
      · rw [hprint] at herror
        cases herror
        rw [told] at untold
        cases untold
    · obtain ⟨rows, hrows, rfl⟩ := exists_rows_of_printIssues hprint
      have hafter := after_of_perform_ok hperform
      exact ⟨is, rows, ⟨hline, ⟨u, hscan, by rw [hafter]⟩, hrows⟩, by rw [hafter]⟩

/-- An accept writes and takes the findings away, or fails and leaves everything as it is. -/
theorem accept_after (hline : Command.ofLine line = .accept) :
    Writes h x line ∧ (x.after h line).session.issues = [] ∨
      ¬ Writes h x line ∧ (x.after h line).session = x.session ∧ Unwritten x.state (x.after h line).state := by
  rcases accept_line_cases (h := h) hline with
    ⟨f, u, hf, hsession, unwritten⟩ | ⟨c, a, u, hok, -, -, hsession⟩
  · refine .inr ⟨?_, hsession, unwritten⟩
    rintro (⟨-, hok⟩ | ⟨hline', -⟩)
    · cases hf.symm.trans hok
    · cases hline.symm.trans hline'
  · exact .inl ⟨.accepts hline hok, by rw [hsession]⟩

/-- So does a rollback. -/
theorem rollback_after (hline : Command.ofLine line = .rollback) :
    Writes h x line ∧ (x.after h line).session.issues = [] ∨
      ¬ Writes h x line ∧ (x.after h line).session = x.session ∧ Unwritten x.state (x.after h line).state := by
  rcases rollback_line_cases (h := h) hline with
    ⟨f, u, hf, hsession, unwritten⟩ | ⟨a, rest, u, hok, -, -, hsession⟩
  · refine .inr ⟨?_, hsession, unwritten⟩
    rintro (⟨hline', -⟩ | ⟨-, hok⟩)
    · cases hline.symm.trans hline'
    · cases hf.symm.trans hok
  · exact .inl ⟨.undoes hline hok, by rw [hsession]⟩

/-- A line that does not write leaves the files, as long as programs and model do, files can be restored after a
validation, and no directory stands in the place of a copy. -/
theorem unwritten_of_not_writes (harmless : h.Harmless) (hx : ∀ a ∈ x.session.registry, a.Outsourced)
    (lets : ∀ file, h.LetsRestore file) (free : CopiesFree x.state) (unwriting : ¬ Writes h x line) :
    Unwritten x.state (x.after h line).state := by
  by_cases accept : Command.ofLine line = .accept
  · rcases accept_after accept with ⟨writes, -⟩ | ⟨-, -, unwritten⟩
    · exact absurd writes unwriting
    · exact unwritten
  by_cases rollback : Command.ofLine line = .rollback
  · rcases rollback_after rollback with ⟨writes, -⟩ | ⟨-, -, unwritten⟩
    · exact absurd writes unwriting
    · exact unwritten
  obtain ⟨te, r, u, hp⟩ := exists_perform (h := h) x.session (Command.ofLine line) x.state
  have leaves := (quiet_leaves (x := x.session) harmless hx lets).perform accept rollback x.state
  rw [hp] at leaves
  exact (leaves free).trans (.of_idle (after_of_perform hp).2.idle)

/-! ## Fixes -/

/-- What a session does with a change that a repair makes, or does not make. -/
def taking (se : Session) (made : Act Change) : Act Session := do
  match ← Act.caught made with
  | .ok c => do
    printChange c
    Act.say "  [dim]Type \x60accept\x60 to apply or \x60discard\x60 to drop it.[/dim]"
    pure { se with ledger := se.ledger.stage c }
  | .error (.generation text feedback attempts _) => do
    printFailure text feedback attempts
    pure se
  | .error f => throw f

/-- A fix is asked of the repair for its finding, among all findings of the session. -/
theorem prepare_eq (se : Session) (i : Issue) :
    se.prepare i = (do
      let r ← Repair.byModel se.settings se.project se.registry
      se.taking (r.fixWithNeighbours i se.issues none)) := rfl

/-- The change becomes the pending one, or the session stays as it is. -/
theorem taking_cases {made : Act Change} (ht : (se.taking made).outcome h s = (.ok te, u)) :
    te = se ∨ ∃ c w, made.outcome h s = (.ok c, w) ∧ te = { se with ledger := se.ledger.stage c } := by
  unfold taking at ht
  rw [outcome_bind, outcome_caught] at ht
  rcases hmade : made.outcome h s with ⟨f | c, w⟩
  all_goals rw [hmade] at ht
  · left
    cases f
    case generation =>
      cases ht
      rfl
    all_goals cases ht
  · cases ht
    exact .inr ⟨c, w, rfl, rfl⟩

/-- A fix leaves the session as it is, unless the repair of the finding in the row that its word names gives a
change, which becomes the pending one. -/
theorem fix_after {word : Option String} (hline : Command.ofLine line = .fix word) :
    (x.after h line).session = x.session ∨ ∃ row i r t c u, Names word row ∧ x.session.issues[row]? = some i ∧
      (Repair.byModel x.session.settings x.session.project x.session.registry).outcome h x.state = (.ok r, t) ∧
      (r.fixWithNeighbours i x.session.issues none).outcome h t = (.ok c, u) ∧
      (x.after h line).session = { x.session with ledger := x.session.ledger.stage c } := by
  have after := after_of_orUnchanged (h := h) (x := x) (a := x.session.prepareNumbered word)
    (by rw [hline]; rfl)
  rcases hn : (x.session.prepareNumbered word).outcome h x.state with ⟨f | te, u⟩
  all_goals rw [hn] at after
  · exact .inl after.1
  rw [after.1]
  rcases prepareNumbered_cases hn with rfl | ⟨row, i, names, hi, hprepare⟩
  · exact .inl rfl
  rw [prepare_eq] at hprepare
  obtain ⟨r, t, hr, htaking⟩ := outcome_bind_eq_ok_iff.1 hprepare
  rcases taking_cases htaking with rfl | ⟨c, w, hfix, rfl⟩
  · exact .inl rfl
  · exact .inr ⟨row, i, r, t, c, w, names, hi, hr, hfix, rfl⟩

/-- A fix whose word names the row of a finding is one for this finding, made with all findings beside it. -/
theorem perform_fix_eq {word : Option String} {row : Nat} (names : Names word row)
    (hi : se.issues[row]? = some i) :
    se.perform (.fix word) = se.orUnchanged (do
      let r ← Repair.byModel se.settings se.project se.registry
      se.taking (r.fixWithNeighbours i se.issues none)) := by
  obtain ⟨w, rfl, looks, hn⟩ := names
  have hprepare : se.prepareNumbered (some w) = se.prepare i := by
    unfold prepareNumbered
    rw [Option.filter_some, if_pos looks]
    simp only [hn, Act.ofExcept, pure_bind, issueAt_eq_some_iff.2 ⟨row, rfl, hi⟩]
  rw [perform, hprepare, prepare_eq]

/-- The rows of findings are numbered in their order. -/
theorem rows_spec {k : Nat} (hrows : issueRows k is = .ok rows) :
    rows.length = is.length ∧ ∀ j i row, is[j]? = some i → rows[j]? = some row → issueRow (k + j) i = .ok row := by
  induction is generalizing k rows with
  | nil =>
    cases hrows
    refine ⟨rfl, fun j i row hi => ?_⟩
    rw [List.getElem?_nil] at hi
    cases hi
  | cons first is ih =>
    rw [issueRows] at hrows
    cases hfirst : issueRow k first with
    | error f =>
      rw [hfirst] at hrows
      cases hrows
    | ok row =>
      cases hrest : issueRows (k + 1) is with
      | error f =>
        rw [hfirst, hrest] at hrows
        cases hrows
      | ok rest =>
        rw [hfirst, hrest] at hrows
        cases hrows
        obtain ⟨hlength, hrow⟩ := ih hrest
        refine ⟨congrArg (· + 1) hlength, fun j i row hi hat => ?_⟩
        cases j with
        | zero =>
          cases hi
          cases hat
          rwa [Nat.add_zero]
        | succ j =>
          rw [← hrow j i row hi hat]
          congr 1
          omega

/-! ## All lines -/

/-- What a typed line does to the findings: it completes a scan and they are those returned, it writes or undoes
a change and they are gone, or it does neither and they stay. -/
theorem issues_after (answered : Command.ofLine line = .scan → Answers h x line) :
    (∃ is rows, Completes h x line is rows ∧ (x.after h line).session.issues = is) ∨
      (x.after h line).session.issues = [] ∨
      ¬ Scans h x line ∧ ¬ Writes h x line ∧ (x.after h line).session.issues = x.session.issues := by
  have others (accept : Command.ofLine line ≠ .accept) (rollback : Command.ofLine line ≠ .rollback) :
      ¬ Writes h x line := by
    rintro (⟨hline, -⟩ | ⟨hline, -⟩)
    · exact accept hline
    · exact rollback hline
  by_cases scan : Command.ofLine line = .scan
  · rcases scan_after (answered scan) scan with completed | ⟨unscanned, hsession⟩
    · exact .inl completed
    · exact .inr (.inr ⟨unscanned, others (by rw [scan]; nofun) (by rw [scan]; nofun), by rw [hsession]⟩)
  have unscanned : ¬ Scans h x line := fun scans => scan scans.1
  right
  by_cases accept : Command.ofLine line = .accept
  · rcases accept_after (h := h) accept with ⟨-, hnil⟩ | ⟨unwriting, hsession, -⟩
    · exact .inl hnil
    · exact .inr ⟨unscanned, unwriting, by rw [hsession]⟩
  by_cases rollback : Command.ofLine line = .rollback
  · rcases rollback_after (h := h) rollback with ⟨-, hnil⟩ | ⟨unwriting, hsession, -⟩
    · exact .inl hnil
    · exact .inr ⟨unscanned, unwriting, by rw [hsession]⟩
  refine .inr ⟨unscanned, others accept rollback, ?_⟩
  by_cases fix : ∃ word, Command.ofLine line = .fix word
  · obtain ⟨word, fix⟩ := fix
    rcases fix_after (h := h) fix with hsession | ⟨_, _, _, _, _, _, -, -, -, -, hsession⟩
    · rw [hsession]
    · rw [hsession]
  obtain ⟨te, r, u, hp⟩ := exists_perform (h := h) x.session (Command.ofLine line) x.state
  rw [(after_of_perform hp).1]
  rcases session_of_perform scan (fun word hword => fix ⟨word, hword⟩) accept rollback hp with rfl | rfl
  · rfl
  · rfl

/-- After the first `n` of some typed lines the findings of the session are those of a scan that was completed
among them, and none of the lines since then got findings, wrote or undid. -/
def Listed (h : Host) (x : Scene) (lines : List String) (m n : Nat) (rows : List (List String)) : Prop :=
  ∃ line, m < n ∧ lines[m]? = some line ∧
    Completes h (x.run h (lines.take m)) line (x.run h (lines.take n)).session.issues rows ∧
    ∀ k later, m < k → k < n → lines[k]? = some later →
      ¬ Scans h (x.run h (lines.take k)) later ∧ ¬ Writes h (x.run h (lines.take k)) later

/-- A line that neither gets findings nor writes, and keeps the findings, keeps them listed. -/
theorem Listed.step (listed : Listed h x lines m n rows)
    (quiet : ∀ later, lines[n]? = some later →
      ¬ Scans h (x.run h (lines.take n)) later ∧ ¬ Writes h (x.run h (lines.take n)) later)
    (kept : (x.run h (lines.take (n + 1))).session.issues = (x.run h (lines.take n)).session.issues) :
    Listed h x lines m (n + 1) rows := by
  obtain ⟨line, hm, hline, completed, since⟩ := listed
  refine ⟨line, by omega, hline, by rwa [kept], fun k later hk hn hlater => ?_⟩
  rcases Nat.lt_succ_iff_lt_or_eq.1 hn with hn | rfl
  · exact since k later hk hn hlater
  · exact quiet later hlater

/-- All along a session whose scans are answered, there are no findings, or they stem from the last scan. -/
theorem listed_run (new : x.session.issues = [])
    (answered : ∀ k line, lines[k]? = some line → Command.ofLine line = .scan →
      Answers h (x.run h (lines.take k)) line) (n : Nat) :
    (x.run h (lines.take n)).session.issues = [] ∨ ∃ m rows, Listed h x lines m n rows := by
  induction n with
  | zero => exact .inl new
  | succ n ih =>
    cases hline : lines[n]? with
    | none =>
      have hsame : x.run h (lines.take (n + 1)) = x.run h (lines.take n) := run_take_of_none hline
      rcases ih with hnil | ⟨m, rows, listed⟩
      · exact .inl (by rw [hsame, hnil])
      · exact .inr ⟨m, rows, listed.step (by rw [hline]; nofun) (by rw [hsame])⟩
    | some line =>
      have hnext : x.run h (lines.take (n + 1)) = (x.run h (lines.take n)).after h line := run_take_succ hline
      rcases issues_after (answered n line hline) with
        ⟨is, rows, completed, his⟩ | hnil | ⟨unscanned, unwriting, hkept⟩
      · exact .inr ⟨n, rows, line, by omega, hline, by rwa [hnext, his], fun k later hk hn => by omega⟩
      · exact .inl (by rw [hnext, hnil])
      · rcases ih with hnil | ⟨m, rows, listed⟩
        · exact .inl (by rw [hnext, hkept, hnil])
        · refine .inr ⟨m, rows, listed.step (fun later hlater => ?_) (by rw [hnext, hkept])⟩
          obtain rfl : line = later := Option.some.inj (hline.symm.trans hlater)
          exact ⟨unscanned, unwriting⟩

/-- Lines that do not write leave the files. -/
theorem unwritten_run (harmless : h.Harmless) (hx : ∀ a ∈ x.session.registry, a.Outsourced)
    (lets : ∀ file, h.LetsRestore file) (free : CopiesFree x.state) (new : x.session.ledger.pending = none)
    (hmn : m ≤ n) (since : ∀ k later, m ≤ k → k < n → lines[k]? = some later →
      ¬ Writes h (x.run h (lines.take k)) later) :
    Unwritten (x.run h (lines.take m)).state (x.run h (lines.take n)).state := by
  induction n, hmn using Nat.le_induction with
  | base => exact .refl _
  | succ n hmn ih =>
    have before := ih fun k later hk hn => since k later hk (by omega)
    cases hline : lines[n]? with
    | none => rwa [run_take_of_none hline]
    | some line =>
      have sound := sound_run harmless hx lets free new lines n
      rw [run_take_succ hline]
      exact before.trans (unwritten_of_not_writes harmless (sound.registry.symm ▸ hx) lets sound.free
        (since n line hmn (by omega) hline))

/-- The findings of a session are those of the last scan among some typed lines, which the scan printed in rows.
No line since then got findings, wrote a change or undid one, so that, with programs and a model that change no
file, every place holds what it held at the scan, or nothing. A fix that names a row is one for the finding in it,
made with all findings beside it. -/
structure LastScan (h : Host) (x : Scene) (lines : List String) (y : Scene) (m : Nat) (line : String)
    (rows : List (List String)) : Prop where
  typed : lines[m]? = some line
  completed : Completes h (x.run h (lines.take m)) line y.session.issues rows
  last : ∀ k later, m < k → lines[k]? = some later → ¬ Scans h (x.run h (lines.take k)) later
  unwriting : ∀ k later, m < k → lines[k]? = some later → ¬ Writes h (x.run h (lines.take k)) later
  unwritten : h.Harmless → (∀ a ∈ x.session.registry, a.Outsourced) → (∀ file, h.LetsRestore file) →
    CopiesFree x.state → Unwritten (x.run h (lines.take m)).state y.state
  count : rows.length = y.session.issues.length
  row : ∀ j i row, y.session.issues[j]? = some i → rows[j]? = some row → issueRow (j + 1) i = .ok row
  fix : ∀ j i word, y.session.issues[j]? = some i → Names word j →
    y.session.perform (.fix word) = y.session.orUnchanged (do
      let r ← Repair.byModel y.session.settings y.session.project y.session.registry
      y.session.taking (r.fixWithNeighbours i y.session.issues none))

theorem lastScan_of_listed (new : x.session.ledger.pending = none)
    (listed : Listed h x lines m lines.length rows) : ∃ line, LastScan h x lines (x.run h lines) m line rows := by
  obtain ⟨line, hm, hline, completed, since⟩ := listed
  rw [List.take_length] at completed
  have since : ∀ k later, m < k → lines[k]? = some later →
      ¬ Scans h (x.run h (lines.take k)) later ∧ ¬ Writes h (x.run h (lines.take k)) later :=
    fun k later hk hlater => since k later hk (List.getElem?_eq_some_iff.1 hlater).1 hlater
  have unwriting : ∀ k later, m ≤ k → lines[k]? = some later → ¬ Writes h (x.run h (lines.take k)) later := by
    intro k later hk hlater
    rcases Nat.lt_or_eq_of_le hk with hk | rfl
    · exact (since k later hk hlater).2
    · obtain rfl : line = later := Option.some.inj (hline.symm.trans hlater)
      rintro (⟨hline', -⟩ | ⟨hline', -⟩)
      · cases completed.asked.symm.trans hline'
      · cases completed.asked.symm.trans hline'
  obtain ⟨count, hrow⟩ := rows_spec completed.printed
  refine ⟨line, hline, completed, fun k later hk hlater => (since k later hk hlater).1,
    fun k later hk hlater => (since k later hk hlater).2, fun harmless hx lets free => ?_, count,
    fun j i row hi hat => ?_, fun j i word hi names => perform_fix_eq names hi⟩
  · have unwritten := unwritten_run harmless hx lets free new (Nat.le_of_lt hm)
      fun k later hk _ hlater => unwriting k later hk hlater
    rwa [List.take_length] at unwritten
  · rw [← hrow j i row hi hat, Nat.add_comm]

/-- **The rows of a session are those of its last scan.** After any typed lines of a new session, none of whose
scans ended it, there are no findings, or they are in the rows of the last scan, and nothing was written since.
A fix gives a change for the finding in the row that it names, or leaves the whole session as it is, and so do an
accept and a rollback that do not succeed. -/
theorem rows_of_last_scan (h : Host) (x : Scene) (target project : Path) (settings : Settings)
    (registry : Registry) (new : Session.new target project settings registry = .ok x.session)
    (lines : List String)
    (answered : ∀ k line, lines[k]? = some line → Command.ofLine line = .scan →
      Answers h (x.run h (lines.take k)) line)
    (y : Scene) (hy : y = x.run h lines) :
    (y.session.issues = [] ∨ ∃ m line rows, LastScan h x lines y m line rows) ∧
    (∀ line word, Command.ofLine line = .fix word →
      (y.after h line).session = y.session ∨ ∃ j i r t c u, Names word j ∧ y.session.issues[j]? = some i ∧
        (Repair.byModel y.session.settings y.session.project y.session.registry).outcome h y.state =
          (.ok r, t) ∧
        (r.fixWithNeighbours i y.session.issues none).outcome h t = (.ok c, u) ∧
        (y.after h line).session = { y.session with ledger := y.session.ledger.stage c }) ∧
    ∀ line, Command.ofLine line = .accept ∨ Command.ofLine line = .rollback → ¬ Writes h y line →
      (y.after h line).session = y.session := by
  subst hy
  refine ⟨?_, fun line word hline => fix_after hline, fun line hline unwriting => ?_⟩
  · obtain ⟨empty, unpending⟩ : x.session.issues = [] ∧ x.session.ledger.pending = none := by
      unfold Session.new Ledger.new at new
      split at new
      · cases new
      · injection new with hsession
        rw [← hsession]
        exact ⟨rfl, rfl⟩
    have listed := listed_run empty answered lines.length
    rw [List.take_length] at listed
    rcases listed with hnil | ⟨m, rows, listed⟩
    · exact .inl hnil
    · obtain ⟨line, lastScan⟩ := lastScan_of_listed unpending listed
      exact .inr ⟨m, line, rows, lastScan⟩
  · rcases hline with accept | rollback
    · rcases accept_after (h := h) accept with ⟨writes, -⟩ | ⟨-, hsession, -⟩
      · exact absurd writes unwriting
      · exact hsession
    · rcases rollback_after (h := h) rollback with ⟨writes, -⟩ | ⟨-, hsession, -⟩
      · exact absurd writes unwriting
      · exact hsession

/-- After a scan that found a block and a fix for it, the block is in the only row of the scan. -/
theorem rows_of_last_scan_block :
    (∀ k line, ["scan", "fix 1"][k]? = some line → Command.ofLine line = .scan →
      Answers answering (oneBlock.run answering (["scan", "fix 1"].take k)) line) ∧
    ∃ m line rows, rows.length = 1 ∧
      LastScan answering oneBlock ["scan", "fix 1"] (oneBlock.run answering ["scan", "fix 1"]) m line rows := by
  have answered : ∀ k line, ["scan", "fix 1"][k]? = some line → Command.ofLine line = .scan →
      Answers answering (oneBlock.run answering (["scan", "fix 1"].take k)) line := by
    intro k line hline scan
    match k with
    | 0 =>
      obtain rfl : "scan" = line := Option.some.inj hline
      obtain ⟨⟨te, r⟩, hr, hok⟩ := exists_of_toOption (y := true) (f := fun r => r.2.isOk)
        (x := ((oneBlock.session.handle "scan").outcome answering oneBlock.state).1) (by decide +kernel)
      obtain ⟨u, hu⟩ := Repair.exists_outcome_of_fst hr
      cases r with
      | ok goesOn => exact ⟨te, goesOn, u, hu⟩
      | error f => cases hok
    | 1 =>
      obtain rfl : "fix 1" = line := Option.some.inj hline
      have fix : Command.ofLine "fix 1" = .fix (some "1") := by decide +kernel
      cases scan.symm.trans fix
    | k + 2 => cases hline
  refine ⟨answered, ?_⟩
  obtain ⟨hnil | ⟨m, line, rows, lastScan⟩, -, -⟩ := rows_of_last_scan answering oneBlock ⟨.here, []⟩ ⟨.here, []⟩
    {} [Analyzer.pattern] rfl ["scan", "fix 1"] answered _ rfl
  · have hone : (oneBlock.run answering ["scan", "fix 1"]).session.issues.length = 1 := by decide +kernel
    rw [hnil] at hone
    cases hone
  · exact ⟨m, line, rows, lastScan.count.trans (by decide +kernel), lastScan⟩

end FixGate.Session
