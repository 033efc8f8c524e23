import FixGate.Proofs.CommandLine.Gate
import FixGate.Proofs.Session.Accepted
import FixGate.Proofs.Session.Consent

/-!
# The user decides what is written

A command that makes fixes for a file shows each of them, and asks before it is written unless it was told not to.
Whatever the model answers and however the command ends, nothing is written as long as it only shows the fixes or the
user says yes to none of them. The same holds for a session in which no change is accepted or rolled back.

* `SaysYes`, `Declined` : a line that agrees, and a user who never does
* `exists_confirmFrom` : a user who never agrees is not taken to agree
* `fixFile_intact`, `shell_intact` : the commands leave everything intact
* `left_alone_without_consent` : nothing is written without consent
-/

namespace FixGate.CommandLine

open Act FileTree Session

variable {h : Host} {s t u : State} {o : FixOptions} {l : Ledger} {i : Issue} {is : List Issue} {c : Change}
  {lines : List String} {file target : Path}

/-! ## A user who does not agree -/

/-- A typed line says yes. -/
def SaysYes (line : String) : Prop :=
  Text.lower (Text.strip line) = "y"

/-- Fixes are only shown, or the user is asked and never says yes. -/
def Declined (o : FixOptions) (s : State) : Prop :=
  o.preview = true ∨ o.yes = false ∧ ∀ line ∈ s.input, ¬ SaysYes line

/-- A state from which everything stays intact, with a user who does not agree. -/
structure Unwilling (o : FixOptions) (s : State) : Prop where
  ready : Ready s
  declined : Declined o s

theorem stable_unwilling : Stable h (Unwilling o) := by
  intro s t intact input unwilling
  refine ⟨intact.ready unwilling.ready, ?_⟩
  rcases unwilling.declined with preview | ⟨asked, no⟩
  · exact .inl preview
  · exact .inr ⟨asked, fun line hline => no line (input.mem hline)⟩

/-- Where no line says yes, the answer is not yes. It may be no, or that the lines end. -/
theorem exists_confirmFrom (hinput : s.input = lines) (no : ∀ line ∈ lines, ¬ SaysYes line) :
    ∃ r rest, (confirmFrom lines).outcome h s = (r, { s with input := rest }) ∧ rest <:+ lines ∧ r ≠ .ok true := by
  induction lines generalizing s with
  | nil =>
    have unread : { s with input := [] } = s := by rw [← hinput]
    exact ⟨.error .aborted, [], by rw [unread]; rfl, List.suffix_refl _, by simp⟩
  | cons line rest ih =>
    have noMore : ∀ line ∈ rest, ¬ SaysYes line := fun line hline => no line (List.mem_cons_of_mem _ hline)
    unfold confirmFrom
    rw [outcome_modify_bind]
    split
    · exact ⟨.ok false, rest, rfl, List.suffix_cons _ _, by simp⟩
    split
    · next hyes => exact absurd hyes (no line List.mem_cons_self)
    · exact ⟨.ok false, rest, rfl, List.suffix_cons _ _, by simp⟩
    · obtain ⟨r, rest', hr, suffix, notYes⟩ := ih (s := { s with input := rest }) rfl noMore
      exact ⟨r, rest', hr, suffix.trans (List.suffix_cons _ _), notYes⟩

/-! ## Fixes for a file -/

/-- A change that is offered is not written if the user does not agree. -/
theorem offer_intact (shown : o.preview = false) (l : Ledger) (c : Change) :
    Keeps h (Under h (Unwilling o)) (offer l o c) := by
  intro s unwilling
  rcases unwilling.declined with preview | ⟨asked, no⟩
  · cases shown.symm.trans preview
  obtain ⟨r, rest, hr, suffix, notYes⟩ := exists_confirmFrom (h := h) (s := s) rfl no
  have hconfirmed : confirmed.outcome h s = (r, { s with input := rest }) := hr
  unfold offer
  simp only [asked, Bool.false_eq_true, if_false]
  rcases r with f | _ | _
  · rw [outcome_bind_of_error hconfirmed]
    exact ⟨.of_disk rfl id, suffix⟩
  · rw [outcome_bind_of_ok hconfirmed]
    exact ⟨.of_disk rfl id, suffix⟩
  · exact absurd rfl notYes

section Repairs

variable {m : Model} {v : Validator} {settings : Settings}

/-- A fix for a finding leaves everything intact, whether it is made, shown or declined. -/
theorem fixOne_intact (harmless : h.Harmless) (hv : ∀ a ∈ v.registry, a.Inquiring)
    (secures : ∀ file, h.Secures file) (is : List Issue) (l : Ledger) (i : Issue) :
    Keeps h (Under h (Unwilling o)) (fixOne ⟨.ofModel m v, settings⟩ is o l i) := by
  have stays := Repair.stays_intact (i := i) m settings harmless hv (secures i.file)
  have trans := Under.trans (stable_unwilling (h := h) (o := o))
  have made : Keeps h (Under h (Unwilling o))
      (Repair.fixWithNeighbours ⟨.ofModel m v, settings⟩ i is o.retries) :=
    Under.mono (fun _ unwilling => unwilling.ready) (stays.fixWithNote o.retries _)
  refine (told_under (notify_told _)).bind trans fun _ => made.caught.bind trans fun r => ?_
  split
  · exact (told_under (notify_told _)).bind trans fun _ => .pure .refl _
  · exact .throw .refl _
  · refine (told_under (notify_told _)).bind trans fun _ => ?_
    split
    · exact .pure .refl _
    · next shown => exact offer_intact (Bool.eq_false_iff.2 shown) l _

/-- So do fixes for any number of findings. -/
theorem fixEach_intact (harmless : h.Harmless) (hv : ∀ a ∈ v.registry, a.Inquiring)
    (secures : ∀ file, h.Secures file) (is : List Issue) (l : Ledger) (left : List Issue) :
    Keeps h (Under h (Unwilling o)) (fixEach ⟨.ofModel m v, settings⟩ is o l left) := by
  have trans := Under.trans (stable_unwilling (h := h) (o := o))
  induction left generalizing l with
  | nil => exact .pure .refl _
  | cons i rest ih =>
    refine (fixOne_intact harmless hv secures is l i).bind trans fun r => ?_
    exact (ih r.1).bind trans fun more => .pure .refl _

end Repairs

theorem settings_under {P : State → Prop} : Keeps h (Under h P) settings := by
  intro s
  rw [outcome_settings]
  exact .refl s

theorem project_under {P : State → Prop} : Keeps h (Under h P) project := fun s => .refl s

/-- The fixes for a file leave everything intact. -/
theorem fixFile_intact (harmless : h.Harmless) (secures : ∀ file, h.Secures file) (file : Path)
    (o : FixOptions) : Keeps h (Under h (Unwilling o)) (fixFile file o) := by
  have trans := Under.trans (stable_unwilling (h := h) (o := o))
  refine settings_under.bind trans fun st => ?_
  have hr := Registry.standard_inquiring st.tools
  refine (Registry.scan_under harmless hr file st.exclude).bind trans fun is => ?_
  simp only
  split
  · exact told_under (notify_told _)
  refine project_under.bind trans fun p => ?_
  have prepared : Keeps h (Under h (Unwilling o)) (Repair.byModel st p (Registry.standard st.tools)) := by
    intro s
    rcases Repair.byModel_cases (h := h) st p (Registry.standard st.tools) s with ⟨f, hf⟩ | ⟨m, v, hok, -⟩
    · rw [hf]
      exact .refl s
    · rw [hok]
      exact .refl s
  refine prepared.bind_of_outcome trans fun r s t hmade => ?_
  rcases Repair.byModel_cases (h := h) st p (Registry.standard st.tools) s with ⟨f, hf⟩ | ⟨m, v, hok, registry⟩
  · cases hf.symm.trans hmade
  cases hok.symm.trans hmade
  refine (Keeps.ofExcept .refl _).bind trans fun l => ?_
  refine (fixEach_intact harmless (registry.symm ▸ hr) secures _ l _).bind trans fun failed => ?_
  split
  · exact (told_under (notify_told _)).bind trans fun _ => .throw .refl _
  · exact .pure .refl _

/-! ## Sessions of the command line -/

/-- A state from which everything stays intact, with a user who neither accepts a change nor rolls one back. -/
structure Withholding (s : State) : Prop where
  ready : Ready s
  withheld : ∀ line ∈ s.input, Withholds line

theorem stable_withholding : Stable h Withholding := fun _ _ intact input withholding =>
  ⟨intact.ready withholding.ready, fun line hline => withholding.withheld line (input.mem hline)⟩

theorem registry_of_new {p : Path} {settings : Settings} {registry : Registry} {x : Session}
    (hx : Session.new target p settings registry = .ok x) : x.registry = registry := by
  unfold Session.new at hx
  cases hledger : Ledger.new settings.historySize with
  | error f =>
    rw [hledger] at hx
    cases hx
  | ok l =>
    rw [hledger] at hx
    cases hx
    rfl

/-- A session on a target leaves everything intact. -/
theorem shell_intact (harmless : h.Harmless) (secures : ∀ file, h.Secures file) (target : Path) :
    Keeps h (Under h Withholding) (shell target) := by
  have trans := Under.trans (stable_withholding (h := h))
  refine settings_under.bind trans fun st => project_under.bind trans fun p => ?_
  refine Keeps.bind_of_outcome trans (.ofExcept .refl _) fun x s t hx => ?_
  rw [outcome_ofExcept] at hx
  have registry := registry_of_new (Prod.mk.inj hx).1
  have hr : ∀ a ∈ x.registry, a.Inquiring := registry ▸ Registry.standard_inquiring st.tools
  have scanned : Keeps h (Under h Withholding) x.rescan :=
    Under.mono (fun _ withholding => withholding.ready) (quiet_intact harmless hr secures).rescan
  refine (told_under (notify_told _)).bind trans fun _ => scanned.bind_of_outcome trans fun y s t hy => ?_
  obtain ⟨issues, r, u, hrescan⟩ := exists_rescan (h := h) x s
  cases hrescan.symm.trans hy
  refine (Keeps.ofExcept .refl _).bind trans fun _ => ?_
  have conversed : Keeps h (Under h Withholding) (do converse { x with issues } (← get).input) := by
    intro s withholding
    exact converse_intact (x := { x with issues }) harmless secures hr withholding.ready withholding.withheld
      (List.suffix_refl _)
  have closing (z : Session) : Keeps h (Under h Withholding)
      (if z.ledger.pending.isSome then Act.say "  [yellow]Pending fix discarded on exit.[/yellow]" else pure ()) := by
    split
    · exact told_under (notify_told _)
    · exact .pure .refl _
  have whole := conversed.bind trans closing
  rw [bind_assoc] at whole
  exact whole

/-! ## Nothing is written without consent -/

/-- **Nothing is written without consent.** Let programs and model change no file, let every file be restorable
unless it may not be written at all, and let nothing stand beside a source under the name of its copy. Whatever is
typed in a session, as long as no line accepts a change or rolls one back, and whatever fixes a command makes, as long
as it only shows them or the user says yes to none, everything that stood somewhere stands there still; and where
every file can be restored, the file tree is the same. -/
theorem left_alone_without_consent (h : Host) (harmless : h.Harmless) (secures : ∀ file, h.Secures file) :
    (∀ (x : Scene) (lines : List String), (∀ a ∈ x.session.registry, a.Inquiring) → Tidy x.state →
      (∀ line ∈ lines, Withholds line) → LeftAlone h x.state (x.run h lines).state) ∧
    (∀ (s : State) (words : List String) (target : Path), Task.ofWords s.disk words = .ok (.shell target) →
      Tidy s → (∀ line ∈ s.input, Withholds line) → LeftAlone h s ((run words).outcome h s).2) ∧
    ∀ (s : State) (words : List String) (file : Path) (o : FixOptions),
      Task.ofWords s.disk words = .ok (.fix file o) → Tidy s → Declined o s →
        LeftAlone h s ((run words).outcome h s).2 := by
  refine ⟨fun x lines hx tidy withheld => ?_, fun s words target hwords tidy withheld => ?_,
    fun s words file o hwords tidy declined => ?_⟩
  · exact (run_intact harmless hx secures tidy.ready withheld).leftAlone tidy
  · rw [outcome_run_of_words hwords]
    exact (shell_intact harmless secures target s ⟨tidy.ready, withheld⟩).1.leftAlone tidy
  · rw [outcome_run_of_words hwords]
    exact (fixFile_intact harmless secures file o s ⟨tidy.ready, declined⟩).1.leftAlone tidy

/-! ## A block that nobody wants replaced -/

/-- The package whose source is an unsafe block, with lines that the user will type. -/
def typing (lines : List String) : State :=
  { Repair.blockPackage with input := lines }

theorem tidy_typing (lines : List String) : Tidy (typing lines) := by
  have short : ∀ x ∈ Repair.blockPackage.disk.tree.entries, ∀ n ∈ x.1, n.length < copySuffix.length := by
    decide
  exact tidy_of_short short rfl

theorem secures_answering (file : Path) : answering.Secures file :=
  .inl (answering_steady.letsRestore file)

theorem withholds_of_mem {line : String} (hline : line ∈ ["scan", "fix 1", "discard", "quit"]) : Withholds line := by
  simp only [List.mem_cons, List.not_mem_nil, or_false] at hline
  rcases hline with rfl | rfl | rfl | rfl
  all_goals exact ⟨by decide, by decide +kernel⟩

/-- The block is replaced for the compiler, and stands again after the fix was discarded in a session or declined in
a command. -/
theorem left_alone_without_consent_block :
    (∃ started ∈ (oneBlock.run answering ["scan", "fix 1", "discard"]).state.runs,
        started.2.get? ["a.rs"] ≠ (typing []).disk.tree.get? ["a.rs"]) ∧
      LeftAlone answering oneBlock.state (oneBlock.run answering ["scan", "fix 1", "discard"]).state ∧
      LeftAlone answering (typing ["fix 1", "discard", "quit"])
        ((run ["shell"]).outcome answering (typing ["fix 1", "discard", "quit"])).2 ∧
      (∃ started ∈ ((run ["fix", "a.rs"]).outcome answering (typing ["n"])).2.runs,
        started.2.get? ["a.rs"] ≠ (typing ["n"]).disk.tree.get? ["a.rs"]) ∧
      LeftAlone answering (typing ["n"]) ((run ["fix", "a.rs"]).outcome answering (typing ["n"])).2 ∧
      LeftAlone answering (typing []) ((run ["fix", "a.rs", "--preview"]).outcome answering (typing [])).2 := by
  obtain ⟨sessions, shells, fixes⟩ :=
    left_alone_without_consent answering answering_harmless secures_answering
  have discarding : ∀ line ∈ ["scan", "fix 1", "discard"], Withholds line := fun line hline =>
    withholds_of_mem (List.mem_append_left ["quit"] hline)
  have quitting : ∀ line ∈ ["fix 1", "discard", "quit"], Withholds line := fun line hline =>
    withholds_of_mem (List.mem_cons_of_mem _ hline)
  have declining : ∀ line ∈ ["n"], ¬ SaysYes line := by
    intro line hline
    obtain rfl := List.mem_singleton.1 hline
    unfold SaysYes
    decide
  refine ⟨by decide +kernel, ?_, ?_, by decide +kernel, ?_, ?_⟩
  · exact sessions oneBlock _ fresh_inquiring (tidy_typing []) discarding
  · exact shells _ _ ⟨.here, []⟩ rfl (tidy_typing _) quitting
  · exact fixes _ _ ⟨.here, ["a.rs"]⟩ ⟨none, none, false, false⟩ rfl (tidy_typing _) (.inr ⟨rfl, declining⟩)
  · exact fixes _ _ ⟨.here, ["a.rs"]⟩ ⟨none, none, true, false⟩ rfl (tidy_typing _) (.inl rfl)

end FixGate.CommandLine
