import FixGate.Proofs.Act.Failures
import FixGate.Proofs.Repair.Generation

/-!
# The window of a change

A change that a repair makes replaces the window around the line of its finding, as it was in the text that the repair
read. Whatever lines around a finding the settings ask for, this is a range of lines of that text: a window that is
none is refused when the change is made.

* `Change.Replaces` : a change of a window for a finding
* `Source.last_le_of_windowOf` : a window ends within its text
* `Repair.exists_window_of_fixWithNote` : the window of a change that a repair makes
-/

namespace FixGate

open Act

variable {h : Host} {s u : State} {r : Repair} {i : Issue} {c : Change} {w : Source.Window} {k : Task}

/-- A change of a window that was made for a finding. The window is a range of lines. -/
structure Change.Replaces (c : Change) (i : Issue) (w : Source.Window) : Prop where
  issue : c.issue = i
  file : c.file = i.file
  first : c.first = w.first
  last : c.last = w.last
  low : 1 ≤ c.first
  order : c.first ≤ c.last

/-- A window ends within its text. -/
theorem Source.last_le_of_windowOf {ctx : Context} {file : Path} {content : String} {line : Int}
    (hw : windowOf ctx file content line = .ok w) : w.last ≤ (linesOf content.toList).length := by
  unfold windowOf at hw
  simp only at hw
  split_ifs at hw
  cases hw
  generalize hlines : (linesOf content.toList).map bare = lines
  have hcount : (linesOf content.toList).length = lines.length := by rw [← hlines, List.length_map]
  have hstop (start : Int) (j : Nat) : functionEnd ctx lines start j ≤ lines.length - 1 := by
    unfold functionEnd
    split
    · next e he =>
      have := closingLine_bounds he
      rw [List.length_drop] at this
      omega
    · omega
  have hbound := hstop (functionStart ctx lines (line - 1).toNat) (line - 1).toNat
  rw [hcount]
  unfold bounds
  simp only
  split_ifs
  · simp only
    omega
  · simp only
    omega

/-- A change that is made has a range of lines. -/
theorem Change.order_of_make {c c' : Change} (hc : c.make = .ok c') : 1 ≤ c.first ∧ c.first ≤ c.last := by
  unfold make at hc
  split_ifs at hc with _ hrange
  simp only [Bool.or_eq_true, decide_eq_true_eq, not_or, Int.not_lt] at hrange
  exact hrange

namespace Repair

/-- An attempt makes a change of a window for a finding, if it makes one. -/
def MakesFor (i : Issue) (w : Source.Window) (made : Attempted) : Prop :=
  ∀ c, made = .made c → c.Replaces i w

theorem rejected_gives (k : Task) (reason : String → String) :
    Gives h (MakesFor k.issue k.window) (k.rejected reason) := by
  unfold Task.rejected
  refine Gives.bind fun text => Gives.pure ?_
  rintro c ⟨⟩

theorem validateCode_gives (r : Repair) (k : Task) (p : Plan) (code : String) (review : Review) :
    Gives h (MakesFor k.issue k.window) (r.validateCode k p code review) := by
  refine Gives.bind fun candidate => Gives.bind fun validation => ?_
  split
  · exact rejected_gives k _
  refine Gives.bind fun id => Gives.bind_of (T := fun c => c.Replaces k.issue k.window)
    (Gives.ofExcept fun c hc => ?_) fun c replaces => Gives.pure ?_
  · obtain ⟨low, order⟩ := Change.order_of_make hc
    obtain rfl := eq_of_make hc
    exact ⟨rfl, rfl, rfl, rfl, low, order⟩
  · rintro d ⟨⟩
    exact replaces

theorem attempt_gives (r : Repair) (k : Task) (feedback : Option String) :
    Gives h (MakesFor k.issue k.window) (r.attempt k feedback) := by
  refine Gives.bind fun p => ?_
  split
  · exact Gives.throw _
  refine Gives.bind fun code => ?_
  split
  · exact Gives.throw _
  refine Gives.bind fun review => ?_
  split
  · exact rejected_gives k _
  · exact validateCode_gives r k p code review

/-- The attempts that are left make a change of their window. -/
theorem attemptsFrom_gives (r : Repair) (i : Issue) (content : String) (w : Source.Window) (retries : Nat)
    (note feedback : Option String) (left : Nat) :
    Gives h (fun c => c.Replaces i w) (r.attemptsFrom i content w retries note feedback left) := by
  induction left generalizing feedback with
  | zero => exact Gives.throw _
  | succ left ih =>
    unfold attemptsFrom
    refine (attempt_gives r ⟨i, content, w, retries - left, retries⟩ _).caught.bind_of fun made hmade => ?_
    split
    · next c => exact Gives.pure (hmade _ rfl c rfl)
    · exact ih _
    · split
      · exact Gives.throw _
      · exact Gives.bind fun _ => ih _

/-- A change that a repair makes replaces the window around its finding in the text that the repair read. -/
theorem exists_window_of_fixWithNote {maxRetries : Option Int} {note : Option String}
    (hfix : (r.fixWithNote i maxRetries note).outcome h s = (.ok c, u)) :
    ∃ b w, s.disk.content i.file = .ok b ∧
      Source.windowOf r.context i.file (Source.decode b) i.line = .ok w ∧ c.Replaces i w := by
  obtain ⟨n, b, w, hb, hspec, hattempts⟩ := exists_attemptsFrom_of_fixWithNote hfix
  exact ⟨b, w, hb, hspec, attemptsFrom_gives r i _ w _ _ _ _ _ _ _ hattempts⟩

end Repair

end FixGate
