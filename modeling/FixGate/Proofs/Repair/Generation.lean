import FixGate.Proofs.Act.Files
import FixGate.Proofs.Repair.Attempts
import Mathlib.Tactic.Set

/-!
# What a repair comes to

A repair looks for the file and the window of its finding, and then makes its attempts. Before the first
attempt no part is called. From then on, the parts are called in attempts up to the first that passes, and
the repair ends with a change of what that attempt came to, or with a failure after the last attempt.

Two things are not looked after. A name that is too long to be asked about ends the repair with the refusal
of the system, and a number that is too large to be written, with the complaint about it.

* `Repair.windowFor_cases` : the window of a finding, or why there is none
* `Repair.calls_of_exchanged` : the record of calls holds the calls that were made
* `Repair.Settled`, `Repair.fixWithNote_settled` : a repair in all cases
-/

namespace FixGate

open Act

variable {h : Host} {s t u : State} {r : Repair} {i : Issue} {es : List Exchange}

namespace Repair

/-! ## The window -/

/-- A failure that a repair puts into its own words. -/
def IsPlain (f : Failure) : Prop :=
  (∃ g text, f = .os g text) ∨ f.isValue = true

theorem isPlain_ofPath (g : PathFault) (p : Path) : IsPlain (.ofPath g p) := by
  cases g <;> first | exact .inl ⟨_, _, rfl⟩ | exact .inr rfl

/-- Reading a source gives its text, or a failure that is put into words. -/
theorem readSource_cases (p : Path) (s : State) :
    (∃ b, s.disk.content p = .ok b ∧
        (readSource p).outcome h s = (.ok (Source.decode b), s.steps (s.diskSteps + 1))) ∨
      ∃ f, IsPlain f ∧ (readSource p).outcome h s = (.error f, s.steps (s.diskSteps + 1)) := by
  unfold readSource
  rw [outcome_bind, outcome_readBytes]
  cases h.refuse s.diskSteps (.read p) with
  | some f => exact .inr ⟨_, .inl ⟨_, _, rfl⟩, rfl⟩
  | none =>
    cases hc : s.disk.content p with
    | error f => exact .inr ⟨_, isPlain_ofPath f p, rfl⟩
    | ok b => exact .inl ⟨b, rfl, rfl⟩

theorem isPlain_windowOf {ctx : Source.Context} {file : Path} {content : String} {line : Int}
    {f : Failure} (hw : Source.windowOf ctx file content line = .error f) : IsPlain f := by
  unfold Source.windowOf at hw
  simp only at hw
  split_ifs at hw <;> cases hw <;> exact .inr rfl

theorem windowFailure_of_isPlain {f : Failure} (hf : IsPlain f) (i : Issue) :
    windowFailure i f = noWindow i f := by
  rcases hf with ⟨g, text, rfl⟩ | hvalue
  · rfl
  · unfold windowFailure
    split
    · rfl
    · rw [if_pos hvalue]

/-- The window of a finding is found in the text of its file, or a failure says why not. Only steps of the
disk are taken. -/
theorem windowFor_cases (r : Repair) (i : Issue) (s : State) :
    ∃ n, (∃ b w, s.disk.content i.file = .ok b ∧
          Source.windowOf r.context i.file (Source.decode b) i.line = .ok w ∧
          (r.windowFor i).outcome h s = (.ok (Source.decode b, w), s.steps n)) ∨
        ∃ f, (r.windowFor i).outcome h s = (.error (noWindow i f), s.steps n) := by
  unfold windowFor
  have fails {f : Failure} {n : Nat} (hf : IsPlain f)
      (hread : (r.readWindow i).outcome h s = (.error f, s.steps n)) :
      (tryCatch (r.readWindow i) fun f => throw (windowFailure i f)).outcome h s =
        (.error (noWindow i f), s.steps n) := by
    rw [outcome_tryCatch_of_error hread, windowFailure_of_isPlain hf]
    rfl
  rcases readSource_cases (h := h) i.file s with ⟨b, hb, hread⟩ | ⟨f, hf, hread⟩
  · have hsecond := readSource_cases (h := h) i.file (s.steps (s.diskSteps + 1))
    simp only [State.steps_disk, State.steps_steps, State.steps_diskSteps] at hsecond
    rcases hsecond with ⟨b', hb', hagain⟩ | ⟨f, hf, hagain⟩
    · obtain rfl : b = b' := Except.ok.inj (hb.symm.trans hb')
      cases hw : Source.windowOf r.context i.file (Source.decode b) i.line with
      | ok w =>
        refine ⟨s.diskSteps + 1 + 1, .inl ⟨b, w, hb, hw, outcome_tryCatch_of_ok ?_ _⟩⟩
        unfold readWindow
        rw [outcome_bind_of_ok hread, outcome_bind_of_ok hagain, hw]
        rfl
      | error f =>
        refine ⟨s.diskSteps + 1 + 1, .inr ⟨f, fails (isPlain_windowOf hw) ?_⟩⟩
        unfold readWindow
        rw [outcome_bind_of_ok hread, outcome_bind_of_ok hagain, hw]
        rfl
    · refine ⟨s.diskSteps + 1 + 1, .inr ⟨f, fails hf ?_⟩⟩
      unfold readWindow
      rw [outcome_bind_of_ok hread, outcome_bind_of_error hagain]
  · refine ⟨s.diskSteps + 1, .inr ⟨f, fails hf ?_⟩⟩
    unfold readWindow
    exact outcome_bind_of_error hread _

theorem exists_of_windowFor {content : String} {w : Source.Window}
    (hwindow : (r.windowFor i).outcome h s = (.ok (content, w), t)) :
    ∃ n b, s.disk.content i.file = .ok b ∧ content = Source.decode b ∧
      Source.windowOf r.context i.file content i.line = .ok w ∧ t = s.steps n := by
  obtain ⟨n, ⟨b, w', hb, hspec, hw⟩ | ⟨f, hf⟩⟩ := windowFor_cases (h := h) r i s
  · rw [hwindow] at hw
    obtain ⟨hpair, rfl⟩ := Prod.mk.inj hw
    obtain ⟨rfl, rfl⟩ := Prod.mk.inj (Except.ok.inj hpair)
    exact ⟨n, b, hb, rfl, hspec, rfl⟩
  · rw [hwindow] at hf
    cases (Prod.mk.inj hf).1

theorem exists_noWindow_of_windowFor {f : Failure}
    (hwindow : (r.windowFor i).outcome h s = (.error f, t)) :
    ∃ n g, f = noWindow i g ∧ t = s.steps n := by
  obtain ⟨n, ⟨b, w, -, -, hw⟩ | ⟨g, hg⟩⟩ := windowFor_cases (h := h) r i s
  · rw [hwindow] at hw
    cases (Prod.mk.inj hw).1
  · rw [hwindow] at hg
    obtain ⟨hf, rfl⟩ := Prod.mk.inj hg
    exact ⟨n, g, Except.error.inj hf, rfl⟩

/-! ## The record of calls -/

/-- The record of calls is left alone. -/
def SameCalls (s t : State) : Prop := t.calls = s.calls

/-- Parts in someone's hands leave the record of calls to those who keep it. -/
structure LeaveRecord (h : Host) (plan : List Call → Act Plan) (implement : List Call → Act String)
    (review : List Call → Act Review) (validate : List Call → Act Validation) : Prop where
  plan : ∀ past, Keeps h SameCalls (plan past)
  implement : ∀ past, Keeps h SameCalls (implement past)
  review : ∀ past, Keeps h SameCalls (review past)
  validate : ∀ past, Keeps h SameCalls (validate past)

variable {plan : List Call → Act Plan} {implement : List Call → Act String}
  {review : List Call → Act Review} {validate : List Call → Act Validation} {settings : Settings}

/-- The record holds the calls that were made. -/
theorem calls_of_exchanged (leave : LeaveRecord h plan implement review validate)
    (exch : Exchanged ⟨.recorded plan implement review validate, settings⟩ i h s es t) :
    t.calls = s.calls ++ es.map Exchange.call := by
  induction exch with
  | nil s => simp
  | @cons s t u e es he _ ih =>
    have hcall : t.calls = s.calls ++ [e.call] := by
      obtain ⟨call, answer⟩ := e
      have ht := congrArg Prod.snd he
      rw [← show _ = t from ht]
      cases call with
      | plan code feedback => exact leave.plan _ _
      | implement code p => exact leave.implement _ _
      | review code p newCode => exact leave.review _ _
      | validate file candidate => exact leave.validate _ _
    rw [ih, hcall]
    simp

/-! ## A repair in all cases -/

/-- What a repair comes to. Without an attempt allowed, without a file or without a window no part is
called. Otherwise the attempts lead to a change of what the first one came to that passed, or, all of them
being made, to a failure that says so; the record holds their calls and no others. Outside of this are a
name that is too long to be asked about, and a number of attempts or a line too large to be written. -/
structure Settled (r : Repair) (i : Issue) (retries : Int) (h : Host) (s : State)
    (out : Except Failure Change × State) : Prop where
  noAttempts : retries < 1 → out = (.error (.value (.noAttempts retries)), s)
  absent : 1 ≤ retries → s.disk.reaches i.file = .ok false →
    ∃ text, out = (.error (.generation text "" 0 none), s)
  unaskable : 1 ≤ retries → ∀ f, s.disk.reaches i.file = .error f → out = (.error f, s)
  noWindow : 1 ≤ retries → s.disk.reaches i.file = .ok true →
    ∀ f t, (r.windowFor i).outcome h s = (.error f, t) →
      out = (.error f, t) ∧ t.calls = s.calls ∧
        (Text.isTooLong i.line = false → ∃ text cause, f = .generation text "" 0 (some cause)) ∧
        (Text.isTooLong i.line = true → f = .value .tooLongToWrite)
  attempts : 1 ≤ retries → s.disk.reaches i.file = .ok true →
    ∀ content w t, (r.windowFor i).outcome h s = (.ok (content, w), t) →
      (∃ b, s.disk.content i.file = .ok b ∧ content = Source.decode b ∧
        Source.windowOf r.context i.file content i.line = .ok w) ∧
      (Text.isTooLong retries = false → ∃ as u, as ≠ [] ∧ r.Tried i h content w t as u ∧
        u.calls = s.calls ++ (as.flatMap (Attempt.exchanges i.file w.code)).map Exchange.call ∧
        Comes i w retries.toNat retries.toNat as u out) ∧
      (Text.isTooLong retries = true → ∃ a u, r.Tried i h content w t [a] u ∧
        u.calls = s.calls ++ (a.exchanges i.file w.code).map Exchange.call ∧
        ((a.passed = true ∧ ∃ c, a.Makes i w c ∧ out = (.ok c, { u with ids := u.ids + 1 })) ∨
          (a.passed = false ∧ out = (.error (.value .tooLongToWrite), u))))

/-- A repair looks for the file, then for the window, and then makes its attempts. -/
theorem outcome_fixWithNote (r : Repair) (i : Issue) (maxRetries : Option Int) (note : Option String)
    (s : State) :
    (r.fixWithNote i maxRetries note).outcome h s =
      if maxRetries.getD r.settings.maxRetries < 1 then
        (.error (.value (.noAttempts (maxRetries.getD r.settings.maxRetries))), s)
      else
        match s.disk.reaches i.file with
        | .error f => (.error f, s)
        | .ok false => (.error (.generation s!"File not found: {i.file}" "" 0 none), s)
        | .ok true =>
          match (r.windowFor i).outcome h s with
          | (.error f, t) => (.error f, t)
          | (.ok (content, w), t) =>
            (r.attemptsFrom i content w (maxRetries.getD r.settings.maxRetries).toNat note none
              (maxRetries.getD r.settings.maxRetries).toNat).outcome h t := by
  unfold fixWithNote
  simp only
  split
  · rfl
  · rw [outcome_disk_bind, outcome_bind, outcome_ofExcept]
    rcases s.disk.reaches i.file with f | _ | _
    · rfl
    · rfl
    · simp only [Bool.not_true, Bool.false_eq_true, if_false]
      rw [outcome_bind]
      rcases (r.windowFor i).outcome h s with ⟨f | ⟨content, w⟩, t⟩ <;> rfl

/-- A change comes of the attempts at the window around the finding in the text that was read. -/
theorem exists_attemptsFrom_of_fixWithNote {maxRetries : Option Int} {note : Option String}
    (hfix : (r.fixWithNote i maxRetries note).outcome h s = (.ok c, u)) :
    ∃ n b w, s.disk.content i.file = .ok b ∧
      Source.windowOf r.context i.file (Source.decode b) i.line = .ok w ∧
      (r.attemptsFrom i (Source.decode b) w (maxRetries.getD r.settings.maxRetries).toNat note none
        (maxRetries.getD r.settings.maxRetries).toNat).outcome h (s.steps n) = (.ok c, u) := by
  rw [outcome_fixWithNote] at hfix
  split_ifs at hfix
  · cases hfix
  split at hfix
  · cases hfix
  · cases hfix
  split at hfix
  · cases hfix
  next content w t hwindow =>
  obtain ⟨n, b, hb, rfl, hspec, rfl⟩ := exists_of_windowFor hwindow
  exact ⟨n, b, w, hb, hspec, hfix⟩

/-- A change comes of the last of some attempts, which passed. -/
theorem exists_attempt_of_fixWithNote (before : 0 ≤ r.settings.contextBefore)
    (after : 0 ≤ r.settings.contextAfter) {maxRetries : Option Int} {note : Option String}
    (hfix : (r.fixWithNote i maxRetries note).outcome h s = (.ok c, u)) :
    ∃ n b w as a t, s.disk.content i.file = .ok b ∧ w.Fits (Source.decode b) ∧
      r.Tried i h (Source.decode b) w (s.steps n) (as ++ [a]) t ∧ a.passed = true ∧ a.Makes i w c ∧
      u = { t with ids := t.ids + 1 } := by
  obtain ⟨n, b, w, hb, hspec, hattempts⟩ := exists_attemptsFrom_of_fixWithNote hfix
  have hbefore : 0 ≤ r.context.before := before
  obtain ⟨fits, -⟩ := Source.fits_windowOf hbefore after hspec
  obtain ⟨as, a, t, htried, hpass, hmakes, hu⟩ := exists_tried_of_attemptsFrom fits r i hattempts
  exact ⟨n, b, w, as, a, t, hb, fits, htried, hpass, hmakes, hu⟩

/-- A number too large to be written is more than one. -/
theorem le_of_isTooLong {n : Int} (hlong : Text.isTooLong n = true) : 2 ≤ n.natAbs := by
  have grows {k : Nat} (hk : 1 ≤ k) : Nat.pow 10 1 ≤ Nat.pow 10 k := Nat.pow_le_pow_right (by decide) hk
  calc
    2 ≤ Nat.pow 10 1 := by decide
    _ ≤ Nat.pow 10 Text.digitLimit := grows (by decide)
    _ ≤ n.natAbs := of_decide_eq_true hlong

theorem isTooLong_noWindow (i : Issue) (f : Failure) :
    (Text.isTooLong i.line = false →
      ∃ text cause, noWindow i f = .generation text "" 0 (some cause)) ∧
    (Text.isTooLong i.line = true → noWindow i f = .value .tooLongToWrite) := by
  unfold noWindow
  constructor
  · intro hline
    rw [hline, if_neg (by decide)]
    exact ⟨_, _, rfl⟩
  · intro hline
    rw [if_pos hline]

/-- Where attempts are allowed, at least one is made, and the record holds the calls of all of them. -/
theorem exists_tried_recorded (leave : LeaveRecord h plan implement review validate) {content : String}
    {w : Source.Window} (fits : w.Fits content) (i : Issue) (note : Option String) {retries : Nat}
    (allowed : retries ≠ 0) (writable : Text.isTooLong retries = false) (s : State) :
    ∃ as u, as ≠ [] ∧
      Tried ⟨.recorded plan implement review validate, settings⟩ i h content w s as u ∧
      u.calls = s.calls ++ (as.flatMap (Attempt.exchanges i.file w.code)).map Exchange.call ∧
      Comes i w retries retries as u
        ((attemptsFrom ⟨.recorded plan implement review validate, settings⟩ i content w retries note
          none retries).outcome h s) := by
  obtain ⟨as, u, htried, hcomes⟩ := attemptsFrom_spec (h := h) fits
    ⟨.recorded plan implement review validate, settings⟩ i writable note none retries s
  refine ⟨as, u, ?_, htried, calls_of_exchanged leave htried.exchanged, hcomes⟩
  rintro rfl
  rcases hcomes with ⟨a, c, hlast, -⟩ | ⟨-, hlen, -⟩
  · cases hlast
  · exact allowed hlen.symm

/-- Where their number cannot be written, one attempt is made, and the record holds its calls. -/
theorem exists_single_recorded (leave : LeaveRecord h plan implement review validate) {content : String}
    {w : Source.Window} (fits : w.Fits content) (i : Issue) (note : Option String) {retries : Nat}
    (tooLong : Text.isTooLong retries = true) (s : State) :
    ∃ a u, Tried ⟨.recorded plan implement review validate, settings⟩ i h content w s [a] u ∧
      u.calls = s.calls ++ (a.exchanges i.file w.code).map Exchange.call ∧
      ((a.passed = true ∧ ∃ c, a.Makes i w c ∧
          (attemptsFrom ⟨.recorded plan implement review validate, settings⟩ i content w retries note
            none retries).outcome h s = (.ok c, { u with ids := u.ids + 1 })) ∨
        (a.passed = false ∧
          (attemptsFrom ⟨.recorded plan implement review validate, settings⟩ i content w retries note
            none retries).outcome h s = (.error (.value .tooLongToWrite), u))) := by
  have htwo := le_of_isTooLong tooLong
  obtain ⟨left, rfl⟩ : ∃ left, retries = left + 1 := ⟨retries - 1, by omega⟩
  have more : left ≠ 0 := by omega
  obtain ⟨a, u, htried, hend⟩ := attemptsFrom_of_tooLong (h := h) fits
    ⟨.recorded plan implement review validate, settings⟩ i tooLong note none more s
  have hexch := htried.exchanged
  rw [List.flatMap_singleton] at hexch
  exact ⟨a, u, htried, calls_of_exchanged leave hexch, hend⟩

/-- Parts that plan, write and review, and do not let anything pass in the end. -/
def rejecting : Repair where
  parts := .recorded (fun _ => pure ⟨["edit"]⟩) (fun _ => pure "let x = 2;") (fun _ => pure (.pass "ok"))
    fun _ => pure (.reject "still there" [] none)
  settings := {}

theorem rejecting_leave : LeaveRecord Host.quiet (fun _ => pure ⟨["edit"]⟩)
    (fun _ => pure "let x = 2;") (fun _ => pure (.pass "ok"))
    fun _ => pure (.reject "still there" [] none) :=
  ⟨fun _ _ => rfl, fun _ _ => rfl, fun _ _ => rfl, fun _ _ => rfl⟩

/-- A finding in the first line of a file. -/
def findingIn (name : String) : Issue :=
  { (default : Issue) with title := .text "T", place := ⟨⟨.here, [name]⟩, 1, 0, ""⟩, fingerprint := "f" }

theorem name_findingIn (name : String) : (findingIn name).file.name = name := rfl

/-- A source of one line. -/
def sourceState : State := { disk := ⟨⟨[(["a.rs"], .file [0x78, 0x0a])]⟩, []⟩ }

/-- A name of three hundred letters. -/
def overlongName : String := String.ofList (List.replicate 300 'a')

theorem overlongName_toList : overlongName.toList = List.replicate 300 'a' := String.toList_ofList

theorem overlongName_ascii : Text.Utf8.Ascii overlongName.toList := by
  rw [overlongName_toList]
  decide +kernel

theorem isTooLongName_overlongName : Path.isTooLongName overlongName = true := by
  unfold Path.isTooLongName
  rw [Text.Utf8.nameBytes_of_ascii overlongName_ascii, overlongName_toList, List.length_replicate]
  decide

theorem nameFault_overlongName : Path.nameFault? overlongName = none := by
  apply Disk.nameFault?_of_ascii overlongName_ascii
  rw [overlongName_toList]
  decide

theorem overlongName_ne_dots : overlongName ≠ ".." := by
  intro hdots
  have hlength : overlongName.toList.length = 2 := by rw [hdots]; rfl
  rw [overlongName_toList, List.length_replicate] at hlength
  omega

/-- A name that is no fault of its path, but too long, cannot be located. -/
theorem locate_findingIn {name : String} (hname : Path.nameFault? name = none)
    (hlong : Path.isTooLongName name = true) (hdots : name ≠ "..") :
    sourceState.disk.locate (findingIn name).file = .error .nameTooLong := by
  have htext : (findingIn name).file.text = name := Disk.text_name name
  have hroot : (findingIn name).file.fromRoot sourceState.disk.here = [name] := rfl
  unfold Disk.locate Path.fault?
  rw [htext, hname]
  simp only [hroot]
  by_cases hall : Path.longestText < Text.Utf8.nameBytes name
  · simp [hall]
  · simp [hall, FileTree.walk, hlong, hdots, bind, Except.bind]

/-- A repair ends with the refusal of the system to look for its file. -/
theorem fix_of_reaches_error {f : Failure} {n : Int} (hsome : 1 ≤ n)
    (hreach : s.disk.reaches i.file = .error f) :
    (r.fix i (some n)).outcome h s = (.error f, s) := by
  unfold fix
  rw [outcome_fixWithNote, if_neg (by simp only [Option.getD_some]; omega), hreach]

/-- A name that is too long cannot be asked for, and nothing stands there. -/
theorem absent_findingIn {name : String} (hname : Path.nameFault? name = none)
    (hlong : Path.isTooLongName name = true) (hdots : name ≠ "..") :
    sourceState.disk.entryAt (findingIn name).file = none ∧
      ∃ text, sourceState.disk.reaches (findingIn name).file = .error (.os .nameTooLong text) := by
  have hlocate := locate_findingIn hname hlong hdots
  constructor
  · unfold Disk.entryAt
    rw [hlocate]
  · unfold Disk.reaches Disk.lookUp
    rw [hlocate]
    exact ⟨_, rfl⟩

end Repair

end FixGate
