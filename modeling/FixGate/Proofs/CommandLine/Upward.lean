import FixGate.Proofs.CommandLine.Rounds
import FixGate.Proofs.Json.Steps
import FixGate.Proofs.Ledger.Exact
import FixGate.Proofs.Repair.Windows
import FixGate.Proofs.Source.Above

/-!
# Fixes from the bottom up

A command that fixes a file takes up the findings from the bottom up, so that a fix does not move the lines of the
findings that are still to come. A fix replaces a whole window, though, and not only the line of its finding. A finding
above the window is met where the scan saw it. One within the window, above the line that was fixed or on it, is not:
whatever the model wrote there stands at its line.

* `Readable` : a source that repairs can read, and what it stays one through
* `Applied.Windowed`, `Applied.Spares` : an entry for a window that was replaced, and the lines that are safe from it
* `CommandLine.readable_of_fixOne` : what becomes of a source when a finding is taken up
* `CommandLine.TakesUp`, `CommandLine.TakesUp.readable` : findings taken up one after another, and what becomes of it
* `CommandLine.exists_takesUp` : the command takes up its findings in this way, and goes on from there
* `CommandLine.findings_met_above_windows` : a finding above all windows that were replaced is met in its place
-/

namespace FixGate

open Act FileTree Text

variable {h : Host} {s t u : State} {file : Path} {bytes : List UInt8} {i : Issue} {c : Change} {a : Applied}

/-! ## A source that repairs can read -/

/-- Two paths lead to one place. -/
def SamePlace (d : Disk) (p q : Path) : Prop :=
  ∃ place, d.locateNew p = .ok place ∧ d.locateNew q = .ok place

/-- They do so as long as the directories stay. -/
theorem SameWays.samePlace_iff {p q : Path} (ways : SameWays s t) :
    SamePlace t.disk p q ↔ SamePlace s.disk p q := by
  unfold SamePlace
  simp only [ways.locateNew_iff]

/-- What is read at one of them is read at the other. -/
theorem SamePlace.content_iff {d : Disk} {p q : Path} (same : SamePlace d p q) :
    d.content p = .ok bytes ↔ d.content q = .ok bytes := by
  obtain ⟨place, hp, hq⟩ := same
  rw [Disk.content_eq_ok_iff_of_locateNew hp, Disk.content_eq_ok_iff_of_locateNew hq]

theorem Intact.sameWays (intact : Intact h s t) (ready : Ready s) : SameWays s t :=
  ⟨intact.here, intact.sameDirs ready⟩

/-- A change that cannot be written leaves everything intact. -/
theorem Intact.of_accept_error {l : Ledger} {f : Failure} (herror : l.accept.outcome h s = (.error f, u)) :
    Intact h s u := by
  obtain ⟨here, same⟩ := Ledger.untouched_of_accept herror
  have kept := Ledger.toolchains_of_accept (h := h) l s
  rw [herror] at kept
  refine ⟨here, fun k _ => same k, fun k hk => (same k).symm.trans hk, fun _ k hk => (same k).trans hk, ?_⟩
  unfold Validator.SourcesOnly
  rw [kept]
  exact id

/-- A source that repairs can read, where no directory stands beside a source under the name of its copy. -/
structure Readable (s : State) (file : Path) (bytes : List UInt8) : Prop where
  ready : Ready s
  content : s.disk.content file = .ok bytes

namespace Readable

theorem of_intact (readable : Readable s file bytes) (source : Language.ofPath file ≠ .unknown)
    (intact : Intact h s t) : Readable t file bytes :=
  ⟨intact.ready readable.ready, intact.content readable.ready source readable.content⟩

/-- When a change of it is written, it holds what the change makes of its text. -/
theorem of_accepted (readable : Readable s file bytes) (acc : Ledger.Accepted s u c a)
    (kept : u.toolchains = s.toolchains) (same : SamePlace s.disk c.file file) :
    Utf8.decodeStrict bytes = some a.before ∧
      ∃ x, Ledger.updated c a.before = .ok x ∧ Readable u file (Utf8.encode x) := by
  obtain ⟨b, hb, htext⟩ := acc.text
  obtain rfl : bytes = b := Except.ok.inj ((same.content_iff.2 readable.content).symm.trans hb)
  obtain ⟨place, hplace, hfile⟩ := same
  obtain ⟨place', x, hx, hplace', entries⟩ := acc.tree
  have moved := Disk.locateNew_of_sameDirs (Session.sameWays_of_accepted acc).2 acc.here hfile
  refine ⟨htext, x, hx, readable.ready.of_accepted acc kept, (Disk.content_eq_ok_iff_of_locateNew moved).2 ?_⟩
  rw [entries, if_pos (Except.ok.inj (hplace.symm.trans hplace'))]

/-- A change of another file leaves it alone. -/
theorem of_accepted_elsewhere (readable : Readable s file bytes) (acc : Ledger.Accepted s u c a)
    (kept : u.toolchains = s.toolchains) (other : ¬ SamePlace s.disk c.file file) : Readable u file bytes := by
  obtain ⟨place, hfile, hentry⟩ := Disk.exists_locateNew_of_content readable.content
  obtain ⟨place', x, -, hplace', entries⟩ := acc.tree
  have moved := Disk.locateNew_of_sameDirs (Session.sameWays_of_accepted acc).2 acc.here hfile
  refine ⟨readable.ready.of_accepted acc kept, (Disk.content_eq_ok_iff_of_locateNew moved).2 ?_⟩
  rw [entries, if_neg, hentry]
  rintro rfl
  exact other ⟨place, hplace', hfile⟩

end Readable

/-- The entry of the ledger for a change of the window around its finding, in the text as it was then. -/
def Applied.Windowed (ctx : Source.Context) (a : Applied) : Prop :=
  ∃ w, Source.windowOf ctx a.file a.before a.change.issue.line = .ok w ∧ a.change.Replaces a.change.issue w

/-- The window of such an entry lies in the text. -/
theorem Applied.Windowed.inside {ctx : Source.Context} (windowed : a.Windowed ctx) :
    1 ≤ a.change.first ∧ a.change.first ≤ a.change.last ∧
      a.change.first ≤ (Source.linesOf a.before.toList).length := by
  obtain ⟨w, hw, replaces⟩ := windowed
  have hlast := Source.last_le_of_windowOf hw
  have horder := replaces.order
  have := replaces.last
  exact ⟨replaces.low, horder, by omega⟩

/-- Whatever code replaces the window of an entry, a line of the text stays what it was. -/
def Applied.Spares (a : Applied) (n : Int) : Prop :=
  ∀ code y, Source.splice a.before a.change.first a.change.last code = .ok y →
    Source.lineAt y n = Source.lineAt a.before n

/-- The lines that such a window spares are those above it. -/
theorem Applied.Windowed.spares_iff {ctx : Source.Context} (windowed : a.Windowed ctx) (n : Int) :
    a.Spares n ↔ n < a.change.first := by
  obtain ⟨low, order, inside⟩ := windowed.inside
  exact Source.lineAt_splice_iff low order inside n

namespace CommandLine

variable {r : Repair} {is before after : List Issue} {o : FixOptions} {l l' : Ledger} {failed : Bool}
  {as : List Applied} {n : Nat}

/-! ## A finding taken up -/

/-- What comes of a change that is offered without asking. -/
theorem exists_of_offer (yes : o.yes = true) (hoffer : (offer l o c).outcome h s = (.ok (l', failed), u)) :
    ∃ t, Told t u ∧
      ((failed = true ∧ ∃ f, (l.stage c).accept.outcome h s = (.error f, t)) ∨
        failed = false ∧ ∃ a, (l.stage c).accept.outcome h s = (.ok (a, l'), t)) := by
  unfold offer at hoffer
  simp only [yes, if_true, pure_bind, Bool.not_true, Bool.false_eq_true, if_false] at hoffer
  rw [outcome_bind, outcome_caught] at hoffer
  rcases haccept : (l.stage c).accept.outcome h s with ⟨f | ⟨a, l₁⟩, t⟩
  · rw [haccept] at hoffer
    simp only at hoffer
    split at hoffer
    · cases hoffer
      exact ⟨t, ⟨_, rfl⟩, .inl ⟨rfl, f, rfl⟩⟩
    · cases hoffer
  · rw [haccept] at hoffer
    cases hoffer
    exact ⟨t, ⟨_, rfl⟩, .inr ⟨rfl, a, rfl⟩⟩

/-- What comes of a finding that is taken up without asking: no fix is made, or one that cannot be written, or it is
written. -/
theorem exists_of_fixOne (yes : o.yes = true) (written : o.preview = false)
    (hone : (fixOne r is o l i).outcome h s = (.ok (l', failed), u)) :
    ∃ t v, Told s t ∧
      ((failed = true ∧ ∃ f, (r.fixWithNeighbours i is o.retries).outcome h t = (.error f, v) ∧ Told v u) ∨
        ∃ c w x, (r.fixWithNeighbours i is o.retries).outcome h t = (.ok c, v) ∧ Told v w ∧ Told x u ∧
          ((failed = true ∧ ∃ f, (l.stage c).accept.outcome h w = (.error f, x)) ∨
            failed = false ∧ ∃ a, (l.stage c).accept.outcome h w = (.ok (a, l'), x))) := by
  unfold fixOne at hone
  obtain ⟨_, t, hsaid, hone⟩ := outcome_bind_eq_ok_iff.1 hone
  have told : Told s t := by
    cases hsaid
    exact ⟨_, rfl⟩
  rw [outcome_bind, outcome_caught] at hone
  rcases hfix : (r.fixWithNeighbours i is o.retries).outcome h t with ⟨f | c, v⟩
  · refine ⟨t, v, told, .inl ?_⟩
    rw [hfix] at hone
    simp only at hone
    split at hone
    · cases hone
      exact ⟨rfl, f, hfix, ⟨_, rfl⟩⟩
    · cases hone
    · next heq => cases heq
  · rw [hfix] at hone
    simp only at hone
    obtain ⟨_, w, hshown, hone⟩ := outcome_bind_eq_ok_iff.1 hone
    have told' : Told v w := by
      cases hshown
      exact ⟨_, rfl⟩
    rw [written, if_neg Bool.false_ne_true] at hone
    obtain ⟨x, told'', offered⟩ := exists_of_offer yes hone
    exact ⟨t, v, told, .inr ⟨c, w, x, hfix, told', told'', offered⟩⟩

section Repairs

variable {m : Model} {v : Validator} {settings : Settings} (harmless : h.Harmless)
  (secures : ∀ file, h.Secures file) (hv : ∀ a ∈ v.registry, a.Inquiring) (yes : o.yes = true)
  (written : o.preview = false)
include harmless secures hv yes written

/-- A finding that is taken up leaves everything intact and has failed, or a change of the window around it was
written after everything was left intact. -/
theorem intact_or_accepted (ready : Ready s)
    (hone : (fixOne ⟨.ofModel m v, settings⟩ is o l i).outcome h s = (.ok (l', failed), u)) :
    (failed = true ∧ Intact h s u) ∨
      ∃ c a b w x y, failed = false ∧ l' = l.enter a ∧ s.disk.content i.file = .ok b ∧
        Source.windowOf ⟨settings.contextBefore, settings.contextAfter⟩ i.file (Source.decode b) i.line = .ok w ∧
        c.Replaces i w ∧ Intact h s x ∧ Ledger.Accepted x y c a ∧ y.toolchains = x.toolchains ∧ Told y u := by
  obtain ⟨t, t', told, taken⟩ := exists_of_fixOne yes written hone
  have stays := (Repair.stays_intact (i := i) m settings harmless hv (secures i.file)).fixWithNote o.retries
    (neighbourNote i is) t (told.still.intact.ready (h := h) ready)
  have intact : Intact h s t' := by
    have made := stays.1
    rcases taken with ⟨-, f, hfix, -⟩ | ⟨c, w, x, hfix, -⟩
    all_goals
      change (Repair.fixWithNote _ i o.retries (neighbourNote i is)).outcome h t = _ at hfix
      rw [hfix] at made
      exact told.still.intact.trans made
  rcases taken with ⟨hfailed, f, -, told'⟩ | ⟨c, w, x, hfix, told', told'', ⟨hfailed, f, herror⟩ | ⟨hfine, a, hok⟩⟩
  · exact .inl ⟨hfailed, intact.trans told'.still.intact⟩
  · exact .inl ⟨hfailed, ((intact.trans told'.still.intact).trans (Intact.of_accept_error herror)).trans
      told''.still.intact⟩
  · right
    obtain ⟨b, win, hb, hw, replaces⟩ := Repair.exists_window_of_fixWithNote hfix
    have kept := Ledger.toolchains_of_accept (h := h) (l.stage c) w
    rw [hok] at kept
    obtain ⟨c', hc', hl, acc⟩ := Ledger.accepted_of_ok hok
    obtain rfl : c = c' := Option.some.inj hc'
    rw [told.idle.1] at hb
    exact ⟨c, a, b, win, w, x, hfine, hl, hb, hw, replaces, intact.trans told'.still.intact, acc, kept, told''⟩

/-- A finding that is taken up leaves a source alone, or its window in the source is replaced. A line above the window
stays where it is. -/
theorem readable_of_fixOne (readable : Readable s file bytes) (source : Language.ofPath file ≠ .unknown)
    (hone : (fixOne ⟨.ofModel m v, settings⟩ is o l i).outcome h s = (.ok (l', failed), u)) :
    SameWays s u ∧
      ((failed = true ∧ Readable u file bytes) ∨
        failed = false ∧ ∃ a bytes', l' = l.enter a ∧ a.change.issue = i ∧
          (SamePlace s.disk a.file file → a.Windowed ⟨settings.contextBefore, settings.contextAfter⟩) ∧
          Readable u file bytes' ∧ ∀ n, (SamePlace s.disk a.file file → n < a.change.first) →
            Source.lineAt (Source.decode bytes') n = Source.lineAt (Source.decode bytes) n) := by
  rcases intact_or_accepted harmless secures hv yes written readable.ready hone with
    ⟨hfailed, intact⟩ | ⟨c, a, b, w, x, y, hfine, hl, hb, hw, replaces, intact, acc, kept, told⟩
  · exact ⟨intact.sameWays readable.ready, .inl ⟨hfailed, readable.of_intact source intact⟩⟩
  have ways : SameWays s x := intact.sameWays readable.ready
  have readable' := readable.of_intact source intact
  refine ⟨(ways.trans _ _ _ (Session.sameWays_of_accepted acc)).trans _ _ _ (.of_idle told.idle), .inr ⟨hfine, a, ?_⟩⟩
  obtain rfl := acc.change
  rw [acc.file]
  by_cases same : SamePlace s.disk a.change.file file
  · obtain ⟨htext, z, hz, after⟩ := readable'.of_accepted acc kept (ways.samePlace_iff.2 same)
    have decoded : a.before = Source.decode bytes := (Utf8.decodeDropping_of_decodeStrict htext).symm
    obtain rfl : bytes = b := by
      rw [replaces.file] at same
      exact Except.ok.inj ((same.content_iff.2 readable.content).symm.trans hb)
    have windowed : a.Windowed ⟨settings.contextBefore, settings.contextAfter⟩ := by
      refine ⟨w, ?_, replaces.issue.symm ▸ replaces⟩
      rw [acc.file, replaces.file, replaces.issue, decoded]
      exact hw
    refine ⟨Utf8.encode z, hl, replaces.issue, fun _ => windowed, after.of_intact source (h := h) told.still.intact,
      fun n above => ?_⟩
    obtain ⟨low, -, inside⟩ := windowed.inside
    unfold Ledger.updated at hz
    split_ifs at hz
    rw [decoded] at hz inside
    exact Source.lineAt_decode_encode_splice (Utf8.isKept_decodeDropping bytes) low inside (above same) hz
  · exact ⟨bytes, hl, replaces.issue, fun h => absurd h same,
      (readable'.of_accepted_elsewhere acc kept (mt ways.samePlace_iff.1 same)).of_intact source (h := h)
        told.still.intact, fun _ _ => rfl⟩

end Repairs

/-! ## Findings taken up one after another -/

/-- Findings are taken up one after another. The ledger has an entry for each one whose fix was written. -/
inductive TakesUp (h : Host) (r : Repair) (is : List Issue) (o : FixOptions) :
    Ledger → State → List Issue → List Applied → Ledger → State → Prop
  | nil (l : Ledger) (s : State) : TakesUp h r is o l s [] [] l s
  | failed {l l' l'' : Ledger} {s t u : State} {i : Issue} {before : List Issue} {as : List Applied} :
      (fixOne r is o l i).outcome h s = (.ok (l', true), t) → TakesUp h r is o l' t before as l'' u →
        TakesUp h r is o l s (i :: before) as l'' u
  | written {l l' : Ledger} {s t u : State} {i : Issue} {before : List Issue} {a : Applied} {as : List Applied} :
      (fixOne r is o l i).outcome h s = (.ok (l.enter a, false), t) → TakesUp h r is o (l.enter a) t before as l' u →
        TakesUp h r is o l s (i :: before) (a :: as) l' u

/-- The ledger shows what was entered last. -/
theorem enter_inj {a' : Applied} (size : 0 < l.size) (heq : l.enter a = l.enter a') : a = a' := by
  have hhistory := congrArg (fun k => (Ledger.history k).head?) heq
  obtain ⟨k, hk⟩ := Nat.exists_eq_succ_of_ne_zero (Nat.ne_of_gt size)
  simp only [Ledger.enter, hk, List.take_succ_cons, List.head?_cons, Option.some.injEq] at hhistory
  exact hhistory

/-- Accepting keeps the size of the ledger, and so does taking up a finding. -/
theorem accept_gives (l : Ledger) : Gives h (fun x => x.2.size = l.size) l.accept := by
  rintro s ⟨a, l'⟩ u hok
  obtain ⟨-, -, rfl, -⟩ := Ledger.accepted_of_ok hok
  rfl

theorem fixOne_gives (yes : o.yes = true) (written : o.preview = false) (r : Repair) (is : List Issue) (l : Ledger)
    (i : Issue) : Gives h (fun x => x.1.size = l.size) (fixOne r is o l i) := by
  have offered (c : Change) : Gives h (fun x => x.1.size = l.size) (offer l o c) := by
    unfold offer
    simp only [yes, if_true, pure_bind, Bool.not_true, Bool.false_eq_true, if_false]
    refine (accept_gives (l.stage c)).caught.bind_of fun x hx => ?_
    split
    · next a k => exact Gives.bind fun _ => Gives.pure (hx (a, k) rfl)
    · split
      · exact Gives.bind fun _ => Gives.pure rfl
      · exact Gives.throw _
  unfold fixOne
  refine Gives.bind fun _ => Gives.bind fun made => ?_
  split
  · exact Gives.bind fun _ => Gives.pure rfl
  · exact Gives.throw _
  · rw [written, if_neg Bool.false_ne_true]
    exact Gives.bind fun _ => offered _

/-- Findings that a command takes up without asking are taken up in this way, and it goes on from there. -/
theorem exists_takesUp (yes : o.yes = true) (written : o.preview = false)
    (heach : (fixEach r is o l before).outcome h s = (.ok n, u)) :
    ∃ as l', TakesUp h r is o l s before as l' u ∧
      ∀ left, (fixEach r is o l (before ++ left)).outcome h s =
        (((fixEach r is o l' left).outcome h u).1.map (· + n), ((fixEach r is o l' left).outcome h u).2) := by
  induction before generalizing l s n with
  | nil =>
    cases heach
    refine ⟨[], l, .nil l u, fun left => ?_⟩
    rw [List.nil_append]
    rcases (fixEach r is o l left).outcome h u with ⟨f | k, v⟩
    · rfl
    · rfl
  | cons i before ih =>
    rw [fixEach] at heach
    obtain ⟨⟨l₁, failed⟩, t, hone, heach⟩ := outcome_bind_eq_ok_iff.1 heach
    obtain ⟨k, v, hrest, hlast⟩ := outcome_bind_eq_ok_iff.1 heach
    cases hlast
    obtain ⟨as, l', taken, goes⟩ := ih hrest
    have goes' (left : List Issue) : (fixEach r is o l (i :: before ++ left)).outcome h s =
        (((fixEach r is o l' left).outcome h u).1.map (· + if failed then k + 1 else k),
          ((fixEach r is o l' left).outcome h u).2) := by
      rw [List.cons_append, fixEach, outcome_bind_of_ok hone]
      simp only
      rw [outcome_bind, goes left]
      rcases (fixEach r is o l' left).outcome h u with ⟨f | j, w⟩
      · rfl
      · cases failed
        · rfl
        · rfl
    cases failed with
    | true => exact ⟨as, l', .failed hone taken, goes'⟩
    | false =>
      obtain ⟨-, -, -, ⟨⟨⟩, -⟩ | ⟨c, w, x, -, -, -, ⟨⟨⟩, -⟩ | ⟨-, a, hok⟩⟩⟩ := exists_of_fixOne yes written hone
      obtain ⟨-, -, rfl, -⟩ := Ledger.accepted_of_ok hok
      exact ⟨a :: as, l', .written hone taken, goes'⟩

section Repairs

variable {m : Model} {v : Validator} {settings : Settings} (harmless : h.Harmless)
  (secures : ∀ file, h.Secures file) (hv : ∀ a ∈ v.registry, a.Inquiring) (yes : o.yes = true)
  (written : o.preview = false)
include harmless secures hv yes written

/-- While findings are taken up, a line of a source stays where it is if all windows that are replaced in the source
start below it. -/
theorem TakesUp.readable (source : Language.ofPath file ≠ .unknown) (size : 0 < l.size)
    (taken : TakesUp h ⟨.ofModel m v, settings⟩ is o l s before as l' u) (readable : Readable s file bytes) :
    SameWays s u ∧
      (∀ a ∈ as, a.change.issue ∈ before ∧
        (SamePlace s.disk a.file file → a.Windowed ⟨settings.contextBefore, settings.contextAfter⟩)) ∧
      ∃ bytes', Readable u file bytes' ∧
        ∀ n, (∀ a ∈ as, SamePlace s.disk a.file file → n < a.change.first) →
          Source.lineAt (Source.decode bytes') n = Source.lineAt (Source.decode bytes) n := by
  induction taken generalizing bytes with
  | nil l s => exact ⟨.refl s, fun a ha => absurd ha List.not_mem_nil, bytes, readable, fun _ _ => rfl⟩
  | @failed l l₁ l' s t u i before as hone _ ih =>
    have size₁ : l₁.size = l.size := fixOne_gives yes written _ is l i s _ t hone
    obtain ⟨ways, ⟨-, readable'⟩ | ⟨⟨⟩, -⟩⟩ := readable_of_fixOne harmless secures hv yes written readable source hone
    obtain ⟨ways', entries, bytes', readable'', lines⟩ := ih (size₁ ▸ size) readable'
    simp only [ways.samePlace_iff] at entries lines
    refine ⟨ways.trans _ _ _ ways', fun a ha => ?_, bytes', readable'', lines⟩
    obtain ⟨hissue, windowed⟩ := entries a ha
    exact ⟨List.mem_cons_of_mem i hissue, windowed⟩
  | @written l l' s t u i before a as hone _ ih =>
    obtain ⟨ways, ⟨⟨⟩, -⟩ | ⟨-, a', b, heq, hissue, windowed, readable', line⟩⟩ :=
      readable_of_fixOne harmless secures hv yes written readable source hone
    obtain rfl := enter_inj size heq
    obtain ⟨ways', entries, bytes', readable'', lines⟩ := ih size readable'
    simp only [ways.samePlace_iff] at entries lines
    refine ⟨ways.trans _ _ _ ways', fun a' ha => ?_, bytes', readable'', fun n above => ?_⟩
    · rcases List.mem_cons.1 ha with rfl | ha
      · exact ⟨hissue ▸ List.mem_cons_self, windowed⟩
      · obtain ⟨hbefore, windowed'⟩ := entries a' ha
        exact ⟨List.mem_cons_of_mem i hbefore, windowed'⟩
    · rw [lines n fun a' ha => above a' (List.mem_cons_of_mem a ha), line n (above a List.mem_cons_self)]

end Repairs

/-! ## The whole command -/

section Words

variable {d : Disk} {words : List String}

/-- Something stands where a word of the command line leads. -/
theorem exists_entryAt_of_onlyPath {p : Path} (hp : onlyPath d none words = .ok p) : ∃ e, d.entryAt p = some e := by
  unfold onlyPath at hp
  split at hp
  · cases hp
  · next heq => cases heq
  next _ word rest =>
  obtain ⟨q, hq, hlast⟩ := Json.bind_eq_ok hp
  split_ifs at hlast
  cases hlast
  unfold existing at hq
  simp only at hq
  split at hq
  · cases hq
  cases hentry : d.entryAt (Path.ofText word) with
  | none =>
    simp only [hentry] at hq
    split_ifs at hq
  | some e =>
    rw [hentry] at hq
    cases e
    all_goals
      simp only at hq
      split_ifs at hq
      cases hq
      exact ⟨_, hentry⟩

/-- Fixes are made for a file that can be read. -/
theorem exists_content_of_fix (hwords : Task.ofWords d words = .ok (.fix file o)) :
    ∃ bytes, d.content file = .ok bytes := by
  unfold Task.ofWords at hwords
  obtain ⟨g, -, hwords⟩ := Json.bind_eq_ok hwords
  split at hwords
  · obtain ⟨_, -, hwords⟩ := Json.bind_eq_ok hwords
    obtain ⟨_, -, hwords⟩ := Json.bind_eq_ok hwords
    obtain ⟨_, -, hwords⟩ := Json.bind_eq_ok hwords
    cases hwords
  · obtain ⟨g', -, hwords⟩ := Json.bind_eq_ok hwords
    obtain ⟨line, -, hwords⟩ := Json.bind_eq_ok hwords
    obtain ⟨retries, -, hwords⟩ := Json.bind_eq_ok hwords
    obtain ⟨p, hp, hwords⟩ := Json.bind_eq_ok hwords
    obtain ⟨e, hentry⟩ := exists_entryAt_of_onlyPath hp
    split_ifs at hwords with hdir
    cases hwords
    cases e with
    | dir => exact absurd (beq_iff_eq.2 hentry) hdir
    | file bytes =>
      refine ⟨bytes, ?_⟩
      unfold Disk.entryAt at hentry
      unfold Disk.content
      split at hentry
      · next hlocate =>
        cases hentry
        rw [hlocate]
      · cases hentry
  · obtain ⟨_, -, hwords⟩ := Json.bind_eq_ok hwords
    obtain ⟨_, -, hwords⟩ := Json.bind_eq_ok hwords
    cases hwords
  · obtain ⟨_, -, hwords⟩ := Json.bind_eq_ok hwords
    cases hwords

end Words

/-- A command that fixes a file has found something in it, and starts to take up the findings. -/
structure Begins (h : Host) (s : State) (file : Path) (o : FixOptions) (r : Repair) (is : List Issue) (l : Ledger)
    (t : State) : Prop where
  load : Settings.load s.disk (Path.ofLocation s.disk.here) = .ok r.settings
  scan : ∃ found, ((Registry.standard r.settings.tools).scan file r.settings.exclude).outcome h s = (.ok found, t) ∧
    chosen o.line found = is
  filled : is ≠ []
  model : (Repair.byModel r.settings (Path.ofLocation t.disk.here) (Registry.standard r.settings.tools)).outcome h t =
    (.ok r, t)
  ledger : Ledger.new r.settings.historySize = .ok l

/-- What comes of the findings that are left, after so many have failed, is what comes of the command. -/
structure GoesOn (h : Host) (r : Repair) (is : List Issue) (o : FixOptions) (l : Ledger) (left : List Issue) (u : State)
    (failed : Nat) (x : Except Failure Unit × State) : Prop where
  done : ∀ n v, (fixEach r is o l left).outcome h u = (.ok n, v) → Concluded (n + failed) is.length v x
  broken : ∀ f v, (fixEach r is o l left).outcome h u = (.error f, v) → x = (.error f, v)

theorem Begins.goesOn (begins : Begins h s file o r is l t) (goes : ∀ left,
      (fixEach r is o l (before ++ left)).outcome h t =
        (((fixEach r is o l' left).outcome h u).1.map (· + n), ((fixEach r is o l' left).outcome h u).2))
    (split : fromBottom is = before ++ after) : GoesOn h r is o l' after u n ((fixFile file o).outcome h s) := by
  obtain ⟨found, hscan, hchosen⟩ := begins.scan
  have hload : settings.outcome h s = (.ok r.settings, s) := by
    rw [outcome_settings, begins.load]
  obtain ⟨concludes, passes⟩ := outcome_fixFile hload hscan hchosen begins.filled rfl begins.model begins.ledger
  rw [split] at concludes passes
  refine ⟨fun k v hk => concludes _ v ?_, fun f v hf => passes f v ?_⟩
  · rw [goes after, hk]
    rfl
  · rw [goes after, hf]
    rfl

/-- The scan has touched no file. -/
theorem Begins.still (begins : Begins h s file o r is l t) (harmless : h.Harmless) : Still s t := by
  obtain ⟨found, hscan, -⟩ := begins.scan
  have still := Registry.scan_still harmless (Registry.standard_inquiring r.settings.tools) file r.settings.exclude s
  rwa [hscan] at still

/-- Findings are found in sources. -/
theorem Begins.source (begins : Begins h s file o r is l t) (hc : s.disk.content file = .ok bytes) :
    Language.ofPath file ≠ .unknown := by
  intro unknown
  obtain ⟨found, hscan, hchosen⟩ := begins.scan
  obtain ⟨files, lists, hfiles, reported, rfl⟩ := Registry.scan_eq_ok_iff.1 hscan
  have nothing : files = [] := by
    obtain ⟨place, hplace, hentry⟩ := Disk.exists_locateNew_of_content hc
    unfold sourceFiles at hfiles
    rw [Disk.locate_of_locateNew hplace, hentry] at hfiles
    simp only [unknown] at hfiles
    cases hfiles
    rfl
  subst nothing
  cases reported
  apply begins.filled
  have none : inOrder (keepFirst [] ([] : List (List Issue)).flatten) = [] := List.mergeSort_nil
  rw [← hchosen, none]
  unfold chosen
  cases o.line
  · rfl
  · rfl

/-- The findings are repaired by a model, and a validator that makes inquiries. -/
theorem Begins.exists_model (begins : Begins h s file o r is l t) :
    ∃ m v settings, r = ⟨.ofModel m v, settings⟩ ∧ ∀ a ∈ v.registry, a.Inquiring := by
  rcases Repair.byModel_cases (h := h) r.settings (Path.ofLocation t.disk.here)
    (Registry.standard r.settings.tools) t with ⟨f, hf⟩ | ⟨m, v, hr, registry⟩
  · cases hf.symm.trans begins.model
  · exact ⟨m, v, r.settings, Except.ok.inj (Prod.mk.inj (begins.model.symm.trans hr)).1,
      registry ▸ Registry.standard_inquiring _⟩

/-- The ledger has room for an entry. -/
theorem Begins.size_pos (begins : Begins h s file o r is l t) : 0 < l.size := by
  have hledger := begins.ledger
  unfold Ledger.new at hledger
  split_ifs at hledger with low
  cases hledger
  simp only
  omega

/-- A command that finds nothing, or cannot begin, touches no file. -/
theorem begins_or_same (harmless : h.Harmless) (s : State) (file : Path) (o : FixOptions) :
    ((fixFile file o).outcome h s).2.disk = s.disk ∨ ∃ r is l t, Begins h s file o r is l t := by
  unfold fixFile
  rw [outcome_bind, outcome_settings]
  rcases hload : Settings.load s.disk (Path.ofLocation s.disk.here) with f | settings
  · exact .inl rfl
  have still := Registry.scan_still harmless (Registry.standard_inquiring settings.tools) file settings.exclude s
  simp only
  rw [outcome_bind]
  rcases hscan : ((Registry.standard settings.tools).scan file settings.exclude).outcome h s with ⟨f | found, t⟩
  all_goals rw [hscan] at still
  · exact .inl still.disk
  simp only
  split
  · exact .inl still.disk
  next filled =>
  have hproject : project.outcome h t = (.ok (Path.ofLocation t.disk.here), t) := rfl
  rw [outcome_bind_of_ok hproject]
  rcases Repair.byModel_cases (h := h) settings (Path.ofLocation t.disk.here) (Registry.standard settings.tools) t with
    ⟨f, hf⟩ | ⟨m, v, hr, -⟩
  · rw [outcome_bind_of_error hf]
    exact .inl still.disk
  rw [outcome_bind_of_ok hr]
  rcases hledger : Ledger.new settings.historySize with f | l
  · exact .inl still.disk
  · refine .inr ⟨⟨.ofModel m v, settings⟩, chosen o.line found, l, t, hload, ⟨found, hscan, rfl⟩, ?_, hr, hledger⟩
    rintro empty
    rw [empty] at filled
    exact filled rfl

/-- The findings that were taken up before one are on its line, or further down. -/
theorem line_le_of_fromBottom (split : fromBottom is = before ++ i :: after) {j : Issue} (hj : j ∈ before) :
    i.line ≤ j.line := by
  have trans : ∀ a b c : Issue, decide (b.line ≤ a.line) = true → decide (c.line ≤ b.line) = true →
      decide (c.line ≤ a.line) = true := by
    intro a b c hab hbc
    exact decide_eq_true (Int.le_trans (of_decide_eq_true hbc) (of_decide_eq_true hab))
  have total : ∀ a b : Issue, (decide (b.line ≤ a.line) || decide (a.line ≤ b.line)) = true := by
    intro a b
    simpa using Int.le_total b.line a.line
  have sorted := List.pairwise_mergeSort trans total is
  change (fromBottom is).Pairwise _ at sorted
  rw [split] at sorted
  exact of_decide_eq_true ((List.pairwise_append.1 sorted).2.2 j hj i List.mem_cons_self)

/-- **A finding above all windows that were replaced is met in its place.** Let programs and model change no file, and
let files be restored after a validation. A command that fixes a file without asking touches nothing, or it begins to
take up the findings that the scan selected, from the bottom up. When it takes up one of them, the fixes that were
written before are fixes of findings on its line or further down, and each of them has replaced a whole window around
its finding. If all windows that were replaced in the file start below the line of the finding, the line is what it
was when it was scanned. No weaker condition will do: whatever other line of the file a window starts at or above, there
is code for the window with which the line is another. -/
theorem findings_met_above_windows {words : List String} (harmless : h.Harmless) (secures : ∀ file, h.Secures file)
    (ready : Ready s) (hwords : Task.ofWords s.disk words = .ok (.fix file o)) (yes : o.yes = true)
    (written : o.preview = false) :
    (((run words).outcome h s).2.disk = s.disk ∨ ∃ r is l t, Begins h s file o r is l t) ∧
      ∀ r is l t, Begins h s file o r is l t → ∀ before i after failed u, fromBottom is = before ++ i :: after →
        (fixEach r is o l before).outcome h t = (.ok failed, u) →
        ∃ as l' bytes bytes', TakesUp h r is o l t before as l' u ∧
          GoesOn h r is o l' (i :: after) u failed ((run words).outcome h s) ∧
          t.disk.content file = .ok bytes ∧ u.disk.content file = .ok bytes' ∧
          (∀ a ∈ as, a.change.issue ∈ before ∧ i.line ≤ a.change.issue.line ∧
            (SamePlace t.disk a.file file → a.Windowed r.context ∧ ∀ n, a.Spares n ↔ n < a.change.first)) ∧
          ((∀ a ∈ as, SamePlace t.disk a.file file → i.line < a.change.first) →
            Source.lineAt (Source.decode bytes') i.line = Source.lineAt (Source.decode bytes) i.line) := by
  rw [outcome_run_of_words hwords]
  refine ⟨begins_or_same harmless s file o, fun r is l t begins before i after failed u split heach => ?_⟩
  obtain ⟨bytes, hc⟩ := exists_content_of_fix hwords
  have still := begins.still harmless
  have source := begins.source hc
  have readable : Readable t file bytes := Readable.of_intact (h := h) ⟨ready, hc⟩ source still.intact
  obtain ⟨as, l', taken, goes⟩ := exists_takesUp yes written heach
  obtain ⟨m, v, settings, rfl, inquiring⟩ := begins.exists_model
  obtain ⟨-, entries, bytes', readable', lines⟩ :=
    taken.readable harmless secures inquiring yes written source begins.size_pos readable
  refine ⟨as, l', bytes, bytes', taken, begins.goesOn goes split, readable.content, readable'.content, fun a ha => ?_,
    lines i.line⟩
  obtain ⟨hissue, windowed⟩ := entries a ha
  exact ⟨hissue, line_le_of_fromBottom split hissue, fun same => ⟨windowed same, (windowed same).spares_iff⟩⟩

/-! ## Two findings, in functions of their own and in one -/

/-- A function without parameters. -/
def functionOf (name body : String) : String :=
  "void " ++ name ++ "() \x7b\n" ++ body ++ "\x7d\n"

/-- A model that rewrites a window. -/
def rewriting (code : String) : Host :=
  { bounding with
    ask n _ t := (.blocks [("text", ["[\"rewrite it\"]", code, "\x7b\"passed\": true\x7d"].getD n "")], t) }

theorem rewriting_harmless (code : String) : (rewriting code).Harmless := ⟨fun _ _ _ => rfl, fun _ _ _ => rfl⟩

theorem rewriting_secures (code : String) (file : Path) : (rewriting code).Secures file :=
  .inl (Host.steady.letsRestore (fun _ _ => rfl) file)

/-- The source in its directory. -/
def inDirectory : Path := ⟨.here, ["a.c"]⟩

/-- What comes of looking for findings in the source. -/
def looked (code text : String) : Except Failure (List Issue) × State :=
  (findingsAcross (Registry.standard {}) [inDirectory]).outcome (rewriting code) (compilable (Utf8.encode text))

/-- The findings from the bottom up, if there are two of them and the lower one is graver. -/
def spotted (code text : String) : List Issue :=
  (keepFirst [] ((looked code text).1.toOption.getD [])).reverse

/-- The parts that repair them. -/
def rewriter : Repair :=
  ⟨.ofModel ⟨({} : Settings).model, ({} : Settings).maxTokens⟩ ⟨some ⟨.root, []⟩, {}, Registry.standard {}⟩, {}⟩

/-- A ledger without entries. -/
def emptyLedger : Ledger := ⟨({} : Settings).historySize.toNat, none, []⟩

theorem mergeSort_pair {α : Type} {le : α → α → Bool} {x y : α} (h : le x y = false) :
    [x, y].mergeSort le = [y, x] := by
  simp [List.mergeSort, List.MergeSort.Internal.splitInTwo, h]

/-- What comes of the first finding that is taken up. -/
def firstFix (code text : String) : Except Failure (Ledger × Bool) × State :=
  (fixOne rewriter (spotted code text) unasked emptyLedger ((spotted code text).headD default)).outcome (rewriting code)
    (looked code text).2

/-- The command begins to take up two findings if the lower one is graver. -/
theorem begins_spotted {code text : String}
    (load : Settings.load (compilable (Utf8.encode text)).disk (Path.ofLocation []) = .ok {})
    (files : sourceFiles (compilable (Utf8.encode text)).disk inDirectory ({} : Settings).exclude = .ok [inDirectory])
    (hlooked : (looked code text).1.isOk = true) (two : (spotted code text).length = 2)
    (graver : (spotted code text).Pairwise fun i j => Issue.le j i = false) :
    Begins (rewriting code) (compilable (Utf8.encode text)) inDirectory unasked rewriter (spotted code text) emptyLedger
      (looked code text).2 := by
  rcases hlook : looked code text with ⟨f | found, t⟩
  all_goals rw [hlook] at hlooked
  · cases hlooked
  have hspotted : spotted code text = (keepFirst [] found).reverse := by
    unfold spotted
    rw [hlook]
    rfl
  rw [hspotted, List.length_reverse] at two
  obtain ⟨x, y, hpair⟩ := List.length_eq_two.1 two
  rw [hspotted, hpair] at graver
  simp only [List.reverse_cons, List.reverse_nil, List.nil_append, List.singleton_append, List.pairwise_cons,
    List.mem_singleton, forall_eq] at graver
  have hscan : ((Registry.standard {}).scan inDirectory ({} : Settings).exclude).outcome (rewriting code)
      (compilable (Utf8.encode text)) = (.ok (spotted code text), t) := by
    unfold Registry.scan
    rw [outcome_disk_bind, files, outcome_ofExcept_ok_bind, outcome_bind_of_ok hlook, hspotted, hpair, inOrder,
      mergeSort_pair graver.1]
    rfl
  have still := Registry.scan_still (rewriting_harmless code) (Registry.standard_inquiring {}) inDirectory
    ({} : Settings).exclude (compilable (Utf8.encode text))
  rw [hscan] at still
  have here : t.disk.here = [] := by
    rw [still.disk]
    rfl
  refine ⟨load, ⟨_, hscan, rfl⟩, ?_, ?_, rfl⟩
  · rw [hspotted, hpair]
    simp
  · rw [here]
    rfl

/-- A finding that is taken up alone. -/
theorem fixEach_singleton (hone : (fixOne r is o l i).outcome h s = (.ok (l', false), u)) :
    (fixEach r is o l [i]).outcome h s = (.ok 0, u) := by
  rw [fixEach, outcome_bind_of_ok hone]
  rfl

/-- Its entry is the one that the ledger has then. -/
theorem TakesUp.exists_entry (taken : TakesUp h r is o l s [i] as l' u) {l₁ : Ledger} {v : State}
    (hone : (fixOne r is o l i).outcome h s = (.ok (l₁, false), v)) : ∃ a, as = [a] ∧ l₁ = l.enter a := by
  cases taken with
  | failed hfailed _ => cases hone.symm.trans hfailed
  | written hwritten rest =>
    cases rest
    cases hone.symm.trans hwritten
    exact ⟨_, rfl, rfl⟩

/-- The first of two findings is fixed, in a window that starts at some line. -/
theorem exists_first (code text : String) {first m n : Int}
    (load : Settings.load (compilable (Utf8.encode text)).disk (Path.ofLocation []) = .ok {})
    (files : sourceFiles (compilable (Utf8.encode text)).disk inDirectory ({} : Settings).exclude = .ok [inDirectory])
    (hlooked : (looked code text).1.isOk = true) (hlines : (spotted code text).map Issue.line = [m, n]) (lower : n ≤ m)
    (graver : (spotted code text).Pairwise fun i j => Issue.le j i = false)
    (hfirst : (firstFix code text).1.toOption.map
      (fun x => (x.1.history.map fun a => a.change.first, x.2)) = some ([first], false)) :
    ∃ i j l, Begins (rewriting code) (compilable (Utf8.encode text)) inDirectory unasked rewriter [i, j] emptyLedger
        (looked code text).2 ∧ fromBottom [i, j] = [i] ++ j :: [] ∧ i.line = m ∧ j.line = n ∧
      (fixOne rewriter [i, j] unasked emptyLedger i).outcome (rewriting code) (looked code text).2 =
        (.ok (l, false), (firstFix code text).2) ∧ l.history.map (fun a => a.change.first) = [first] := by
  have two : (spotted code text).length = 2 := by
    rw [← List.length_map, hlines]
    rfl
  have begins := begins_spotted load files hlooked two graver
  rcases hfix : firstFix code text with ⟨f | ⟨l, failed⟩, u⟩
  all_goals rw [hfix] at hfirst
  · cases hfirst
  obtain ⟨hhistory, rfl⟩ := Prod.mk.inj (Option.some.inj hfirst)
  unfold firstFix at hfix
  obtain ⟨i, j, hpair⟩ := List.length_eq_two.1 two
  rw [hpair] at begins hlines hfix
  obtain ⟨rfl, hlast⟩ := List.cons.inj hlines
  obtain rfl := List.singleton_inj.1 hlast
  refine ⟨i, j, l, begins, ?_, rfl, rfl, hfix, hhistory⟩
  exact List.mergeSort_of_pairwise (by simpa using lower)

/-- Two functions with a finding in each. -/
def twoFunctions : String := functionOf "f" " rand();\n" ++ functionOf "g" " gets(d);\n"

/-- The second one, rewritten. -/
def longerFunction : String := functionOf "g" " read(d);\n ;\n"

/-- Above a function that was replaced, a finding is met where it was. -/
theorem findings_met_above_windows_function :
    ∃ i j t u, Begins (rewriting longerFunction) (compilable (Utf8.encode twoFunctions)) inDirectory unasked rewriter
        [i, j] emptyLedger t ∧ fromBottom [i, j] = [i] ++ j :: [] ∧ i.line = 5 ∧ j.line = 2 ∧
      (fixEach rewriter [i, j] unasked emptyLedger [i]).outcome (rewriting longerFunction) t = (.ok 0, u) ∧
      ∃ a l bytes bytes', TakesUp (rewriting longerFunction) rewriter [i, j] unasked emptyLedger t [i] [a] l u ∧
        GoesOn (rewriting longerFunction) rewriter [i, j] unasked l [j] u 0
          ((run ["fix", "a.c", "--yes"]).outcome (rewriting longerFunction) (compilable (Utf8.encode twoFunctions))) ∧
        a.change.first = 4 ∧ t.disk.content inDirectory = .ok bytes ∧ u.disk.content inDirectory = .ok bytes' ∧
        Source.lineAt (Source.decode bytes') 2 = Source.lineAt (Source.decode bytes) 2 := by
  obtain ⟨hlooked, hlines, graver⟩ : (looked longerFunction twoFunctions).1.isOk = true ∧
      (spotted longerFunction twoFunctions).map Issue.line = [5, 2] ∧
      (spotted longerFunction twoFunctions).Pairwise fun i j => Issue.le j i = false := by decide +kernel
  have hfix : (firstFix longerFunction twoFunctions).1.toOption.map
      (fun x => (x.1.history.map fun a => a.change.first, x.2)) = some ([4], false) := by decide +kernel
  obtain ⟨i, j, l, begins, split, hi, hj, hone, hfirst⟩ :=
    exists_first longerFunction twoFunctions rfl rfl hlooked hlines (by decide) graver hfix
  have hwords : Task.ofWords (compilable (Utf8.encode twoFunctions)).disk ["fix", "a.c", "--yes"] =
      .ok (.fix inDirectory unasked) := rfl
  obtain ⟨-, meets⟩ := findings_met_above_windows (rewriting_harmless longerFunction)
    (rewriting_secures longerFunction) (ready_compilable (Utf8.encode twoFunctions)) hwords rfl rfl
  have heach := fixEach_singleton hone
  obtain ⟨as, l', bytes, bytes', taken, goes, hbytes, hbytes', -, line⟩ := meets _ _ _ _ begins _ _ _ _ _ split heach
  obtain ⟨a, rfl, rfl⟩ := taken.exists_entry hone
  have start : a.change.first = 4 := List.singleton_inj.1 hfirst
  refine ⟨i, j, _, _, begins, split, hi, hj, heach, a, l', bytes, bytes', taken, goes, start, hbytes, hbytes', ?_⟩
  rw [hj] at line
  refine line fun b hb _ => ?_
  rw [List.mem_singleton.1 hb, start]
  decide

/-- A function with two findings. -/
def oneFunction : String := functionOf "f" " rand();\n gets(d);\n"

/-- The function, rewritten as two. -/
def splitFunction : String := functionOf "g" " read(d);\n" ++ functionOf "f" " rand();\n g();\n"

/-- Within a function that was replaced, a finding further up is not met where it was: at its line stands a line of
another function. -/
theorem finding_not_met_within_window :
    (rewriting splitFunction).Harmless ∧ (∀ file, (rewriting splitFunction).Secures file) ∧
      Task.ofWords (compilable (Utf8.encode oneFunction)).disk ["fix", "a.c", "--yes"] =
        .ok (.fix inDirectory unasked) ∧
      ∃ i j t u, Begins (rewriting splitFunction) (compilable (Utf8.encode oneFunction)) inDirectory unasked rewriter
          [i, j] emptyLedger t ∧ fromBottom [i, j] = [i] ++ j :: [] ∧ i.line = 3 ∧ j.line = 2 ∧
        (fixEach rewriter [i, j] unasked emptyLedger [i]).outcome (rewriting splitFunction) t = (.ok 0, u) ∧
        ∃ bytes bytes', t.disk.content inDirectory = .ok bytes ∧ u.disk.content inDirectory = .ok bytes' ∧
          Source.lineAt (Source.decode bytes) 2 = some " rand();\n".toList ∧
          Source.lineAt (Source.decode bytes') 2 = some " read(d);\n".toList := by
  refine ⟨rewriting_harmless _, rewriting_secures _, rfl, ?_⟩
  obtain ⟨hlooked, hlines, graver⟩ : (looked splitFunction oneFunction).1.isOk = true ∧
      (spotted splitFunction oneFunction).map Issue.line = [3, 2] ∧
      (spotted splitFunction oneFunction).Pairwise fun i j => Issue.le j i = false := by decide +kernel
  obtain ⟨hfix, hline⟩ : (firstFix splitFunction oneFunction).1.toOption.map
        (fun x => (x.1.history.map fun a => a.change.first, x.2)) = some ([1], false) ∧
      ((firstFix splitFunction oneFunction).2.disk.content inDirectory).toOption.map
        (fun b => Source.lineAt (Source.decode b) 2) = some (some " read(d);\n".toList) := by decide +kernel
  obtain ⟨i, j, l, begins, split, hi, hj, hone, -⟩ :=
    exists_first splitFunction oneFunction rfl rfl hlooked hlines (by decide) graver hfix
  obtain ⟨bytes', hbytes', hmoved⟩ := exists_of_toOption hline
  have hbytes : (looked splitFunction oneFunction).2.disk.content inDirectory = .ok (Utf8.encode oneFunction) := by
    rw [(begins.still (rewriting_harmless splitFunction)).disk]
    rfl
  exact ⟨i, j, _, _, begins, split, hi, hj, fixEach_singleton hone, _, bytes', hbytes, hbytes', by decide +kernel,
    hmoved⟩

end CommandLine

end FixGate
