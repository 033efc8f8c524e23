import FixGate.Proofs.Act.Failures
import FixGate.Proofs.Repair.Applied
import FixGate.Proofs.Session.Consent

/-!
# Repairs of one file, one after another

A repair of a finding in a file that can be read gives a change, or says that there is none. It leaves the file as it
was, and its change can be written: it turns the text of the file into one that has bytes. So one repair can follow
another, whether or not the changes are written in between. The text that repairs work on has lost the bytes
that belong to no character; where there are such bytes, writing refuses the file, and it stays as it was.

* `Repair.fixWithNote_cases` : a repair that may be tried gives a change, or says that there is none
* `Repairable` : a source that repairs can work on
* `Repairable.of_fixWithNote`, `Repairable.of_accepted` : it stays one through repairs, and through what they write
* `Repairable.accept` : a change that a repair makes of it is written, unless the source holds no text
-/

namespace FixGate

open Act FileTree Text

variable {h : Host} {s t u : State} {file : Path} {bytes : List UInt8} {i : Issue} {l : Location} {c : Change}
  {a : Applied} {note : Option String}

/-! ## The failures of a repair -/

/-- A repair says that it gave no fix. -/
def Failure.IsGeneration (f : Failure) : Prop :=
  ∃ text feedback attempts cause, f = .generation text feedback attempts cause

namespace Repair

variable {r : Repair} {maxRetries : Option Int}

/-- However the attempts fail, in the end the repair says that it gave no fix, if the number of attempts can be
written. -/
theorem attemptsFrom_fails {retries : Nat} (writable : isTooLong retries = false) (i : Issue) (content : String)
    (w : Source.Window) (note feedback : Option String) (left : Nat) :
    Act.Fails h Failure.IsGeneration (r.attemptsFrom i content w retries note feedback left) := by
  induction left generalizing feedback with
  | zero => exact Act.Fails.throw ⟨_, _, _, _, rfl⟩
  | succ left ih =>
    unfold attemptsFrom
    refine (Act.Fails.caught _).bind fun made => ?_
    split
    · exact Act.Fails.pure _
    · exact ih _
    · split
      · exact Act.Fails.throw ⟨_, _, _, _, rfl⟩
      · refine (Act.Fails.ofExcept fun f hf => ?_).bind fun _ => ih _
        unfold attemptText at hf
        rw [writable, if_neg Bool.false_ne_true] at hf
        cases hf

/-- A repair that may be tried, of a finding in a file that can be read, gives a change or says that there is
none. -/
theorem fixWithNote_cases (allowed : 1 ≤ maxRetries.getD r.settings.maxRetries)
    (writable : isTooLong (maxRetries.getD r.settings.maxRetries) = false) (short : isTooLong i.line = false)
    (hc : s.disk.content i.file = .ok bytes) (note : Option String) :
    (∃ c u, (r.fixWithNote i maxRetries note).outcome h s = (.ok c, u)) ∨
      ∃ f u, (r.fixWithNote i maxRetries note).outcome h s = (.error f, u) ∧ f.IsGeneration := by
  have tried : ¬ maxRetries.getD r.settings.maxRetries < 1 := Int.not_lt.2 allowed
  have same : ((maxRetries.getD r.settings.maxRetries).toNat : Int) = maxRetries.getD r.settings.maxRetries :=
    Int.toNat_of_nonneg (Int.le_trans (by decide) allowed)
  rcases hfix : (r.fixWithNote i maxRetries note).outcome h s with ⟨f | c, u⟩
  · refine .inr ⟨f, u, rfl, ?_⟩
    obtain ⟨place, hplace, hentry⟩ := Disk.exists_locateNew_of_content hc
    have reached : s.disk.reaches i.file = .ok true := by
      rw [Disk.reaches_of_locateNew hplace, hentry]
      rfl
    rw [outcome_fixWithNote, if_neg tried, reached] at hfix
    simp only at hfix
    split at hfix
    · next f' v hwindow =>
      obtain ⟨-, g, hg, -⟩ := exists_noWindow_of_windowFor hwindow
      obtain ⟨text, cause, hnone⟩ := (isTooLong_noWindow i g).1 short
      have hf : f = f' := (Except.error.inj (Prod.mk.inj hfix).1).symm
      exact ⟨text, "", 0, some cause, hf.trans (hg.trans hnone)⟩
    · have writable' : isTooLong ((maxRetries.getD r.settings.maxRetries).toNat : Int) = false := same.symm ▸ writable
      exact attemptsFrom_fails writable' i _ _ note none _ _ f u hfix
  · exact .inl ⟨c, u, rfl⟩

end Repair

/-! ## A source that is repaired again and again -/

/-- The language of a file is that of its place. -/
theorem language_of_locateNew {d : Disk} (hl : d.locateNew file = .ok l)
    (source : Language.ofPath file ≠ .unknown) : Language.ofPath (Path.ofLocation l) = Language.ofPath file := by
  have named : file.names ≠ [] := by
    intro hnil
    apply source
    unfold Language.ofPath Path.suffix Path.name
    rw [hnil]
    decide +kernel
  obtain ⟨parent, n, lead, rfl⟩ := Disk.locateNew_eq_ok_iff.1 hl
  obtain ⟨ns, hns, -⟩ := lead.way
  rw [fromRoot_of_ne_nil named] at hns
  obtain ⟨-, hname⟩ := List.append_inj' hns rfl
  obtain rfl : file.name = n := List.singleton_inj.1 hname
  have hlast : (Path.ofLocation (parent ++ [file.name])).name = file.name := by
    simp [Path.name, Path.ofLocation]
  unfold Language.ofPath Path.suffix
  rw [hlast]

/-- A temporary file does not bear the name of a copy. -/
theorem not_copyPlace_tempName (tree : FileTree) (dir : Location) (name : String) (m : Nat) :
    ¬ CopyPlace tree (dir ++ [tempName name m]) := by
  rintro ⟨dir', name', b, heq, -⟩
  have hname : tempName name m = name' ++ copySuffix := List.singleton_inj.1 (List.append_inj' heq rfl).2
  have hlast := congrArg (fun x : String => x.toList.reverse.head?) hname
  simp [tempName, String.toList_append, copySuffix] at hlast

/-- Where no directory stands in the place of a copy, directories stay where everything is intact. -/
theorem Intact.sameDirs (intact : Intact h s t) (ready : Ready s) : s.disk.tree.SameDirs t.disk.tree := by
  intro k
  refine ⟨fun hk => ?_, intact.dirs k⟩
  have hno : ¬ CopyPlace s.disk.tree k := fun hcopy => ready.free k hcopy hk
  rw [intact.entries k hno, hk]

/-- A source keeps its content where everything is intact. -/
theorem Intact.content (intact : Intact h s t) (ready : Ready s) (source : Language.ofPath file ≠ .unknown)
    (hc : s.disk.content file = .ok bytes) : t.disk.content file = .ok bytes := by
  obtain ⟨place, hplace, hentry⟩ := Disk.exists_locateNew_of_content hc
  have moved := Disk.locateNew_of_sameDirs (intact.sameDirs ready) intact.here hplace
  rw [Disk.content_eq_ok_iff_of_locateNew moved, intact.entries place, hentry]
  exact not_copyPlace_of_language (by rwa [language_of_locateNew hplace source]) _

/-- When a change is written to a file, sources and the places of their copies stay what they are. -/
theorem Ready.of_accepted (ready : Ready s) (acc : Ledger.Accepted s u c a) (kept : u.toolchains = s.toolchains) :
    Ready u := by
  obtain ⟨place, x, hx, hplace, entries⟩ := acc.tree
  obtain ⟨b, hb, -⟩ := acc.text
  have hentry := (Disk.content_eq_ok_iff_of_locateNew hplace).1 hb
  refine ⟨fun k hcopy hdir => ?_, ?_⟩
  · obtain ⟨dir, name, b', rfl, hsource, language⟩ := hcopy
    refine ready.free _ ?_ (((Session.sameWays_of_accepted acc).2 _).2 hdir)
    rw [entries] at hsource
    split_ifs at hsource with hk
    · exact ⟨dir, name, b, rfl, hk ▸ hentry, language⟩
    · exact ⟨dir, name, b', rfl, hsource, language⟩
  · unfold Validator.SourcesOnly
    rw [kept]
    exact ready.sources

/-- A source that repairs can work on: it can be read, a temporary file can be made beside it, and no directory
stands beside a source under the name of its copy. -/
structure Repairable (s : State) (file : Path) (bytes : List UInt8) : Prop where
  ready : Ready s
  content : s.disk.content file = .ok bytes
  temp : ∃ temp, placeBeside s.disk file = .ok temp

namespace Repairable

/-- It stays one where everything is intact. -/
theorem of_intact (able : Repairable s file bytes) (source : Language.ofPath file ≠ .unknown)
    (intact : Intact h s t) : Repairable t file bytes := by
  obtain ⟨temp, htemp⟩ := able.temp
  refine ⟨intact.ready able.ready, intact.content able.ready source able.content, temp,
    placeBeside_of_sameDirs (intact.sameDirs able.ready) intact.here (fun m => ?_) htemp⟩
  rw [intact.entries _ (not_copyPlace_tempName _ _ _ m)]

theorem of_told (able : Repairable s file bytes) (source : Language.ofPath file ≠ .unknown) (told : Told s t) :
    Repairable t file bytes :=
  able.of_intact (h := Host.quiet) source told.still.intact

/-- Once a change was written to it, it holds a text. -/
theorem of_accepted (able : Repairable s file bytes) (acc : Ledger.Accepted s u c a) (hfile : c.file = file)
    (kept : u.toolchains = s.toolchains) : ∃ x, Repairable u file (Utf8.encode x) := by
  obtain ⟨place, x, hx, hplace, entries⟩ := acc.tree
  obtain ⟨place', hplace', hentry⟩ := Disk.exists_locateNew_of_content able.content
  rw [hfile] at hplace
  obtain rfl : place = place' := Except.ok.inj (hplace.symm.trans hplace')
  have dirs := (Session.sameWays_of_accepted acc).2
  have shape : s.disk.tree.SameShape u.disk.tree := by
    refine ⟨dirs, fun k => ?_⟩
    rw [entries]
    split_ifs with hk
    · rw [hk, hentry]
      rfl
    · rfl
  obtain ⟨temp, htemp⟩ := able.temp
  exact ⟨x, able.ready.of_accepted acc kept, hfile ▸ acc.content hx, temp,
    placeBeside_of_sameShape shape acc.here htemp⟩

variable {m : Model} {v : Validator} {settings : Settings} {maxRetries : Option Int}

/-- A repair leaves it as it was. -/
theorem of_fixWithNote (able : Repairable s i.file bytes) (source : Language.ofPath i.file ≠ .unknown)
    (steady : h.steady) (harmless : h.Harmless) (hv : ∀ a ∈ v.registry, a.Inquiring)
    {made : Except Failure Change}
    (hfix : (Repair.fixWithNote ⟨.ofModel m v, settings⟩ i maxRetries note).outcome h s = (made, u)) :
    Repairable u i.file bytes := by
  have stays := Repair.stays_intact (i := i) m settings harmless hv (.inl (steady.letsRestore i.file))
  have intact := (stays.fixWithNote maxRetries note s able.ready).1
  rw [hfix] at intact
  exact able.of_intact source intact

/-- A change that a repair makes of it turns its text into one that can be written. -/
theorem made (able : Repairable s i.file bytes) (source : Language.ofPath i.file ≠ .unknown) (steady : h.steady)
    (harmless : h.Harmless) (hv : ∀ a ∈ v.registry, a.Inquiring)
    (hfix : (Repair.fixWithNote ⟨.ofModel m v, settings⟩ i maxRetries note).outcome h s = (.ok c, u)) :
    c.file = i.file ∧ ∃ x, Ledger.updated c (Source.decode bytes) = .ok x ∧ Failure.checkText x = .ok () := by
  have stays := Repair.stays_intact (i := i) m settings harmless hv (.inl (steady.letsRestore i.file))
  obtain ⟨b, t, w, hb, under, validated, -⟩ := Repair.exists_validated_of_fixWithNote stays hfix
  obtain rfl : bytes = b := Except.ok.inj (able.content.symm.trans hb)
  obtain ⟨x, hx, hvalid⟩ := validated.candidate
  have unharmed : Unharmed i.file bytes t := fun _ => (able.of_intact source (under able.ready).1).content
  obtain ⟨-, -, written⟩ := Repair.compiled_of_passed harmless (steady.letsRestore i.file)
    (fun a ha => (hv a ha).outsourced) unharmed hvalid validated.passed
  exact ⟨validated.file, x, hx, written⟩

end Repairable

/-- Accepting keeps the toolchains. -/
theorem Ledger.toolchains_of_accept (l : Ledger) : Keeps h (fun s t => t.toolchains = s.toolchains) l.accept := by
  have refl : ∀ s : State, s.toolchains = s.toolchains := fun _ => rfl
  have trans : ∀ s t u : State, t.toolchains = s.toolchains → u.toolchains = t.toolchains →
      u.toolchains = s.toolchains := fun _ _ _ st tu => tu.trans st
  unfold Ledger.accept
  split
  · exact fun _ => rfl
  · next c _ =>
    refine Keeps.bind trans (fun s => ?_) fun before => Keeps.bind trans (fun s => ?_) fun after =>
      Keeps.bind trans (fun s => ?_) fun _ => fun s => rfl
    · rw [outcome_readStrict_snd]
      rfl
    · rw [outcome_ofExcept]
    · rcases replaceFile_cases (h := h) c.file after s with ⟨f, n, tree, hf, -⟩ | ⟨l, n, tree, hok, -⟩
      · rw [hf]
        rfl
      · rw [hok]
        rfl

/-- A change of a source that can be repaired is written if it turns the text of the source into one that can be
written, and the source is a source still. Where it holds no text, it is left alone. -/
theorem Repairable.accept (able : Repairable s file bytes) (steady : h.steady) {l : Ledger}
    (hpending : l.pending = some c) (hfile : c.file = file) {x : String}
    (hx : Ledger.updated c (Source.decode bytes) = .ok x)
    (writable : Failure.checkText x = .ok ()) :
    (∃ text a l' u, Utf8.decodeStrict bytes = some text ∧ l.accept.outcome h s = (.ok (a, l'), u) ∧
        ∃ y, Repairable u file (Utf8.encode y)) ∨
      Utf8.decodeStrict bytes = none ∧ ∃ u,
        l.accept.outcome h s = (.error (.undecodable (Utf8.complaint bytes)), u) ∧ u.disk = s.disk := by
  subst hfile
  rcases htext : Utf8.decodeStrict bytes with _ | text
  · right
    have hread : (readStrict c.file).outcome h s =
        (.error (.undecodable (Utf8.complaint bytes)), s.steps (s.diskSteps + 1)) := by
      unfold readStrict
      rw [outcome_bind_of_ok (readBytes_of_content (steady s.diskSteps (.read c.file)) able.content), htext]
      rfl
    refine ⟨rfl, s.steps (s.diskSteps + 1), ?_, State.steps_disk s _⟩
    unfold Ledger.accept
    rw [hpending]
    exact outcome_bind_of_error hread _
  · left
    obtain ⟨temp, htemp⟩ := able.temp
    have decoded : Source.decode bytes = text := Utf8.decodeDropping_of_decodeStrict htext
    obtain ⟨a, u, hok, acc, -, -⟩ :=
      Ledger.exists_accepted_of_steady steady hpending able.content htext (decoded ▸ hx) writable htemp
    have kept := Ledger.toolchains_of_accept (h := h) l s
    rw [hok] at kept
    exact ⟨text, a, _, u, rfl, hok, able.of_accepted acc rfl kept⟩

end FixGate
