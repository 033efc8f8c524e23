import FixGate.Proofs.Repair.Generation
import FixGate.Proofs.Text.Within

/-!
# What the planner is told

A repair tells the planner two things: which findings are near the one to be fixed, and why the latest
attempt gave no change. The first is the same at every attempt. The second replaces what was said before:
it follows from the way in which the latest attempt ended and from its number, whatever the attempts before
it were.

* `Setback.texts`, `Setback.told_contains` : what is said about a setback, word for word
* `described`, `advice` : what is said after some setbacks, and what the planner is told in all
* `Repair.Course`, `Repair.attemptsFrom_course` : the attempts that are left, with their setbacks
* `constraints` : what is said about findings near another
* `Advised`, `Repair.fixWithNeighbours_guided` : a repair in all cases
-/

namespace FixGate

open Act

/-! ## What is said about a setback -/

namespace Setback

/-- The texts that a setback consists of: the wording of a failure, or a reason, the things that are wrong,
and the plan with its steps. -/
def texts : Setback → List String
  | raised f => [f.message]
  | review p r => r.reason :: r.issues ++ p.format :: p.steps
  | validation p v => v.reason :: v.issues ++ p.format :: p.steps

end Setback

theorem within_listedIssues {x : String} {xs : List String} (hx : x ∈ xs) : Within x (listedIssues xs) := by
  have hsome : xs.isEmpty = false := by simpa using List.ne_nil_of_mem hx
  unfold listedIssues
  rw [hsome, if_neg (by decide)]
  exact .trans (.append_left (.refl x) "  - ") (.intercalate (List.mem_map_of_mem hx) "\n")

theorem exists_mem_numberedFrom {x : String} {xs : List String} (hx : x ∈ xs) (n : Nat) :
    ∃ y ∈ numberedFrom n xs, Within x y := by
  induction xs generalizing n with
  | nil => cases hx
  | cons z zs ih =>
    rcases List.mem_cons.1 hx with rfl | hx
    · exact ⟨_, List.mem_cons_self, .append_left (.refl x) _⟩
    · obtain ⟨y, hy, hxy⟩ := ih hx (n + 1)
      exact ⟨y, List.mem_cons_of_mem _ hy, hxy⟩

theorem within_format {x : String} {p : Plan} (hx : x ∈ p.steps) : Within x p.format := by
  have hsome : p.steps.isEmpty = false := by simpa using List.ne_nil_of_mem hx
  obtain ⟨y, hy, hxy⟩ := exists_mem_numberedFrom hx 1
  unfold Plan.format
  rw [hsome, if_neg (by decide)]
  exact hxy.trans (.intercalate hy "\n")

/-- A verdict is told with its reason, the things that are wrong, and the plan. -/
theorem within_verdict {x reason : String} {issues : List String} {p : Plan} (opening found plan closing : String)
    (hx : x ∈ reason :: issues ++ p.format :: p.steps) :
    Within x (opening ++ reason ++ found ++ listedIssues issues ++ plan ++ p.format ++ closing) := by
  refine .append_right ?_ closing
  rw [List.cons_append, List.mem_cons, List.mem_append, List.mem_cons] at hx
  rcases hx with rfl | hissue | rfl | hstep
  · exact .append_right (.append_right (.append_right (.append_right (.append_left (.refl x) _) _) _) _) _
  · exact .append_right (.append_right (.append_left (within_listedIssues hissue) _) _) _
  · exact .append_left (.refl _) _
  · exact .append_left (within_format hstep) _

namespace Setback

variable {b : Setback} {n retries : Nat} {x : String}

/-- What is said about a setback holds its texts, word for word. -/
theorem told_contains (hx : x ∈ b.texts) : Within x (b.told n retries) := by
  cases b with
  | raised f =>
    obtain rfl := List.mem_singleton.1 hx
    exact .append_right (.append_left (.refl _) _) _
  | review p r => exact within_verdict _ _ _ _ hx
  | validation p v => exact within_verdict _ _ _ _ hx

/-- Something is said about every setback: at least how it goes on. -/
theorem told_ne_empty (b : Setback) (n retries : Nat) : b.told n retries ≠ "" := by
  have closed (x : String) {y : String} (hy : y ≠ "") : x ++ y ≠ "" := by
    rw [Ne, String.append_eq_empty_iff]
    exact fun hempty => hy hempty.2
  cases b with
  | raised f => exact closed _ (by decide)
  | review p r => exact closed _ (by decide)
  | validation p v => exact closed _ (by decide)

end Setback

/-! ## What is handed on -/

/-- What is said after some setbacks: what is told about the latest of them. -/
def described (retries : Nat) (bs : List Setback) : Option String :=
  bs.getLast?.map (Setback.told bs.length retries)

/-- What the planner is told in all: a note, and a description below it with a blank line between them. -/
def advice (note : Option String) : Option String → Option String
  | none => note
  | some told => some (match note with
    | none => told
    | some text => text ++ "\n\n" ++ told)

theorem described_concat (retries : Nat) (bs : List Setback) (b : Setback) :
    described retries (bs ++ [b]) = some (b.told (bs.length + 1) retries) := by
  unfold described
  rw [List.getLast?_concat, List.length_append]
  rfl

theorem described_ne_empty (retries : Nat) (bs : List Setback) : described retries bs ≠ some "" := by
  intro hempty
  obtain ⟨b, -, hb⟩ := Option.map_eq_some_iff.1 hempty
  exact b.told_ne_empty _ _ hb

/-- The latest of the setbacks before an attempt is the one of the attempt before it. -/
theorem described_take {retries k : Nat} {bs : List Setback} {b : Setback} (hb : bs[k]? = some b) :
    described retries (bs.take (k + 1)) = some (b.told (k + 1) retries) := by
  have hlength : (bs.take k).length = k :=
    List.length_take_of_le (Nat.le_of_lt (List.getElem?_eq_some_iff.1 hb).1)
  rw [List.take_add_one, hb, Option.toList_some, described_concat, hlength]

/-- A note and a description are joined to what the planner is told. -/
theorem joinedFeedback_eq_advice {note told : Option String} (hnote : note ≠ some "") (htold : told ≠ some "") :
    joinedFeedback [note, told] = advice note told := by
  have said {x : String} (hx : some x ≠ some "") : (!x.isEmpty) = true := by
    simpa using fun hempty => hx (congrArg some hempty)
  unfold joinedFeedback
  cases note with
  | none =>
    cases told with
    | none => rfl
    | some y =>
      simp only [List.filterMap_cons, List.filterMap_nil, id, List.filter_cons, said htold]
      rfl
  | some x =>
    cases told with
    | none =>
      simp only [List.filterMap_cons, List.filterMap_nil, id, List.filter_cons, said hnote]
      rfl
    | some y =>
      simp only [List.filterMap_cons, List.filterMap_nil, id, List.filter_cons, said hnote, said htold]
      rfl

/-! ## All attempts -/

namespace Repair

variable {r : Repair} {i : Issue} {h : Host} {s t u : State} {content : String} {w : Source.Window}
  {note : Option String} {retries left : Nat} {past bs : List Setback} {a : Attempt} {as : List Attempt}
  {b : Setback} {out : Except Failure Change × State}

/-- Attempts made one after another lead from a state to another: the calls of each of them, and then perhaps
an id drawn for a change. -/
inductive Pursued (r : Repair) (i : Issue) (h : Host) (old : String) : State → List Attempt → State → Prop
  | nil (s : State) : Pursued r i h old s [] s
  | cons {s t u : State} {a : Attempt} {as : List Attempt} (n : Nat) :
      r.Exchanged i h s (a.exchanges i.file old) t → Pursued r i h old { t with ids := n } as u →
        Pursued r i h old s (a :: as) u

/-- Attempts after some setbacks, with the setbacks that they met: each is told what the latest setback
before it says. -/
structure Course (r : Repair) (i : Issue) (h : Host) (content : String) (w : Source.Window)
    (note : Option String) (retries : Nat) (past : List Setback) (s : State) (as : List Attempt)
    (bs : List Setback) (u : State) : Prop where
  pursued : r.Pursued i h w.code s as u
  met : ∀ (k : Nat) (a : Attempt) (b : Setback), as[k]? = some a → bs[k]? = some b → a.Meets i content w b
  advised : ∀ (k : Nat) (a : Attempt), as[k]? = some a → a.feedback = advice note (described retries (past ++ bs.take k))

theorem Course.single (n : Nat) (exchanged : r.Exchanged i h s (a.exchanges i.file w.code) t)
    (advised : a.feedback = advice note (described retries past))
    (met : ∀ b, bs[0]? = some b → a.Meets i content w b) :
    r.Course i h content w note retries past s [a] bs { t with ids := n } where
  pursued := .cons n exchanged (.nil _)
  met := by
    intro k a' b ha hb
    cases k with
    | zero =>
      cases ha
      exact met b hb
    | succ k => simp at ha
  advised := by
    intro k a' ha
    cases k with
    | zero =>
      cases ha
      rw [List.take_zero, List.append_nil]
      exact advised
    | succ k => simp at ha

/-- An attempt with a setback comes before others, for which it is the latest of the setbacks. -/
theorem Course.cons (n : Nat) (exchanged : r.Exchanged i h s (a.exchanges i.file w.code) t)
    (advised : a.feedback = advice note (described retries past)) (met : a.Meets i content w b)
    (rest : r.Course i h content w note retries (past ++ [b]) { t with ids := n } as bs u) :
    r.Course i h content w note retries past s (a :: as) (b :: bs) u where
  pursued := .cons n exchanged rest.pursued
  met := by
    intro k a' b' ha hb
    cases k with
    | zero =>
      cases ha
      cases hb
      exact met
    | succ k => exact rest.met k a' b' ha hb
  advised := by
    intro k a' ha
    cases k with
    | zero =>
      cases ha
      rw [List.take_zero, List.append_nil]
      exact advised
    | succ k =>
      rw [List.take_succ_cons, rest.advised k a' ha, List.append_assoc]
      rfl

/-- What comes of so many attempts with all the setbacks so far: a change after one attempt more, or a failure
after the last one. The failure says what is told about a verdict, and otherwise what was told to the last
attempt. -/
def Concludes (retries tries : Nat) (bs : List Setback) (out : Except Failure Change) : Prop :=
  (tries = bs.length + 1 ∧ tries ≤ retries ∧ ∃ c, out = .ok c) ∨
    (tries = bs.length ∧ tries = retries ∧
      ((∃ b text, bs.getLast? = some b ∧ b.isVerdict = true ∧
          out = .error (.generation text (b.told retries retries) retries none)) ∨
        ∃ f text, bs.getLast? = some (.raised f) ∧
          out = .error (.generation text ((described retries bs.dropLast).getD "") retries (some f))))

/-- The failure after the last attempt. -/
def lastFailure (retries : Nat) (feedback : Option String) : Setback → Failure
  | .raised f => failedLast retries feedback f
  | b => exhausted retries (b.told retries retries)

theorem lastFailure_of_isVerdict (hb : b.isVerdict = true) (retries : Nat) (feedback : Option String) :
    lastFailure retries feedback b = exhausted retries (b.told retries retries) := by
  cases b with
  | raised f => cases hb
  | review p r => rfl
  | validation p v => rfl

/-- The attempts that are left begin with one that gives a change, or that meets a setback, which the next one
is told. -/
theorem attemptsFrom_turns (r : Repair) (i : Issue) (content : String) (w : Source.Window)
    (writable : Text.isTooLong retries = false) (note feedback : Option String) (left : Nat) (s : State) :
    ∃ (a : Attempt) (t : State) (n : Nat), a.feedback = joinedFeedback [note, feedback] ∧
      r.Exchanged i h s (a.exchanges i.file w.code) t ∧
      ((∃ c, (r.attemptsFrom i content w retries note feedback (left + 1)).outcome h s =
          (.ok c, { t with ids := n })) ∨
        ∃ b, a.Meets i content w b ∧
          (r.attemptsFrom i content w retries note feedback (left + 1)).outcome h s =
            if left = 0 then (.error (lastFailure retries feedback b), { t with ids := n })
            else (r.attemptsFrom i content w retries note (some (b.told (retries - left) retries)) left).outcome
              h { t with ids := n }) := by
  obtain ⟨a, t, n, hfeedback, -, hexch, hstate, hend⟩ := attempt_turns (h := h) r
    ⟨i, content, w, retries - left, retries⟩ (joinedFeedback [note, feedback]) s
  refine ⟨a, t, n, hfeedback, hexch, ?_⟩
  rw [outcome_attemptsFrom_succ]
  generalize (r.attempt ⟨i, content, w, retries - left, retries⟩
    (joinedFeedback [note, feedback])).outcome h s = out at hstate hend ⊢
  obtain ⟨x, v⟩ := out
  simp only at hstate hend
  subst hstate
  rcases hend with ⟨c, -, -, -, -, rfl⟩ | ⟨b, -, hmeets, hresult⟩
  · exact .inl ⟨c, rfl⟩
  refine .inr ⟨b, hmeets, ?_⟩
  rw [hresult]
  cases hb : b.isVerdict with
  | false =>
    obtain ⟨f, rfl⟩ := Setback.exists_of_not_isVerdict hb
    rw [Setback.result_raised]
    simp only [attemptText, writable, Bool.false_eq_true, if_false]
    rfl
  | true =>
    rw [Setback.result_of_isVerdict hb writable]
    simp only
    split
    · next hleft =>
      subst hleft
      rw [lastFailure_of_isVerdict hb]
      rfl
    · rfl

/-- The last attempt with a setback ends the repair. -/
theorem concludes_last (retries : Nat) (past : List Setback) (b : Setback)
    (count : past.length + 1 = retries) :
    Concludes retries (past.length + 1) (past ++ [b])
      (.error (lastFailure retries (described retries past) b)) := by
  refine .inr ⟨by simp, count, ?_⟩
  have hlast : (past ++ [b]).getLast? = some b := List.getLast?_concat
  cases b with
  | raised f => exact .inr ⟨f, _, hlast, by rw [List.dropLast_concat]; rfl⟩
  | review p v => exact .inl ⟨.review p v, _, hlast, rfl, rfl⟩
  | validation p v => exact .inl ⟨.validation p v, _, hlast, rfl, rfl⟩

/-- The attempts that are left, each of which is told what the setback before it says. -/
theorem attemptsFrom_course (r : Repair) (i : Issue) (content : String) (w : Source.Window)
    (writable : Text.isTooLong retries = false) (noted : note ≠ some "")
    (count : past.length + (left + 1) = retries) (s : State) :
    ∃ as bs u x, r.Course i h content w note retries past s as bs u ∧
      Concludes retries (past.length + as.length) (past ++ bs) x ∧
      (r.attemptsFrom i content w retries note (described retries past) (left + 1)).outcome h s = (x, u) := by
  induction left generalizing past s with
  | zero =>
    obtain ⟨a, t, n, hfeedback, hexch, hend⟩ := attemptsFrom_turns (h := h) r i content w writable note
      (described retries past) 0 s
    rw [joinedFeedback_eq_advice noted (described_ne_empty retries past)] at hfeedback
    rcases hend with ⟨c, hout⟩ | ⟨b, hmeets, hout⟩
    · refine ⟨[a], [], _, _, .single n hexch hfeedback (by simp), .inl ⟨by simp, ?_, c, rfl⟩, hout⟩
      exact Nat.le_of_eq count
    · refine ⟨[a], [b], _, _, .single n hexch hfeedback (by simpa using hmeets),
        concludes_last retries past b count, ?_⟩
      rw [hout, if_pos rfl]
  | succ left ih =>
    obtain ⟨a, t, n, hfeedback, hexch, hend⟩ := attemptsFrom_turns (h := h) r i content w writable note
      (described retries past) (left + 1) s
    rw [joinedFeedback_eq_advice noted (described_ne_empty retries past)] at hfeedback
    rcases hend with ⟨c, hout⟩ | ⟨b, hmeets, hout⟩
    · refine ⟨[a], [], _, _, .single n hexch hfeedback (by simp), .inl ⟨by simp, ?_, c, rfl⟩, hout⟩
      simp only [List.length_singleton]
      omega
    · have htold : some (b.told (retries - (left + 1)) retries) = described retries (past ++ [b]) := by
        have hnumber : retries - (left + 1) = past.length + 1 := by omega
        rw [described_concat, hnumber]
      rw [if_neg (Nat.succ_ne_zero left), htold] at hout
      have hcount : (past ++ [b]).length + (left + 1) = retries := by
        simp only [List.length_append, List.length_singleton]
        omega
      obtain ⟨as, bs, u, x, hcourse, hconcludes, hrest⟩ := ih hcount { t with ids := n }
      refine ⟨a :: as, b :: bs, u, x, .cons n hexch hfeedback hmeets hcourse, ?_, hout.trans hrest⟩
      simpa [Nat.add_assoc, Nat.add_comm 1] using hconcludes

/-- Where the number of attempts cannot be written, the complaint about it follows the first setback. -/
theorem attemptsFrom_course_of_tooLong (r : Repair) (i : Issue) (content : String) (w : Source.Window)
    (tooLong : Text.isTooLong retries = true) (noted : note ≠ some "") (s : State) :
    ∃ a bs u x, r.Course i h content w note retries [] s [a] bs u ∧
      ((bs = [] ∧ ∃ c, x = .ok c) ∨ bs.length = 1 ∧ x = .error (.value .tooLongToWrite)) ∧
      (r.attemptsFrom i content w retries note none retries).outcome h s = (x, u) := by
  have htwo := le_of_isTooLong tooLong
  obtain ⟨left, hleft⟩ : ∃ left, retries = left + 1 := ⟨retries - 1, by omega⟩
  have more : left ≠ 0 := by omega
  obtain ⟨a, t, n, hfeedback, -, hexch, hstate, hend⟩ := attempt_turns (h := h) r
    ⟨i, content, w, retries - left, retries⟩ (joinedFeedback [note, none]) s
  rw [joinedFeedback_eq_advice noted (by simp)] at hfeedback
  have hout := outcome_attemptsFrom_succ (h := h) r i content w retries note none left s
  rw [← hleft] at hout
  generalize (r.attempt ⟨i, content, w, retries - left, retries⟩
    (joinedFeedback [note, none])).outcome h s = out at hstate hend hout
  obtain ⟨x, v⟩ := out
  simp only at hstate hend hout
  subst hstate
  rcases hend with ⟨c, -, -, -, -, rfl⟩ | ⟨b, -, hmeets, hresult⟩
  · exact ⟨a, [], _, _, .single n hexch hfeedback (by simp), .inl ⟨rfl, c, rfl⟩, hout⟩
  · obtain ⟨f, hf⟩ := Setback.exists_result_of_tooLong b (retries - left) tooLong
    rw [hresult, hf] at hout
    simp only [attemptText, tooLong, if_neg more, if_true] at hout
    exact ⟨a, [b], _, _, .single n hexch hfeedback (by simpa using hmeets), .inr ⟨rfl, rfl⟩, hout⟩

end Repair

/-! ## A repair in all cases -/

/-- What the planner is told about some findings: each of them, by its line, title and category. -/
def constraints (near : List Issue) : Option String :=
  if near.isEmpty then none
  else some ("Other issues near this code (keep them in mind, do not make them worse):\n" ++
    "\n".intercalate (near.map fun o => s!"- line {o.line}: {o.title.display} ({o.category.title})"))

/-- The note is about the findings of another fingerprint in the same file, ten lines away at most. -/
theorem neighbourNote_eq_constraints (i : Issue) (others : List Issue) :
    neighbourNote i others = constraints (others.filter fun o =>
      o.fingerprint ≠ i.fingerprint ∧ o.file = i.file ∧ (o.line - i.line).natAbs ≤ 10) := by
  have hnear : isNeighbour i = fun o => decide
      (o.fingerprint ≠ i.fingerprint ∧ o.file = i.file ∧ (o.line - i.line).natAbs ≤ 10) := by
    funext o
    rw [Bool.eq_iff_iff]
    simp only [isNeighbour, Bool.and_eq_true, bne_iff_ne, beq_iff_eq, decide_eq_true_eq, and_assoc]
    rfl
  unfold neighbourNote constraints
  rw [hnear]

theorem constraints_ne_empty (near : List Issue) : constraints near ≠ some "" := by
  unfold constraints
  split
  · simp
  · intro hempty
    have := String.append_eq_empty_iff.1 (Option.some.inj hempty)
    exact absurd this.1 (by decide)

/-- What some attempts are told and what comes of them, given the setbacks that they met. The first is told
the note and nothing else. Each later one is told the note and, below it, what there is to say about the
setback of the one before, by its number among all of them; this holds the texts of the setback. In the end
there is a change, or a failure that says what was the matter in the end. -/
structure Advised (i : Issue) (content : String) (w : Source.Window) (note : Option String) (retries : Nat)
    (as : List Attempt) (bs : List Setback) (x : Except Failure Change) : Prop where
  met : ∀ (k : Nat) (a : Attempt) (b : Setback), as[k]? = some a → bs[k]? = some b → a.Meets i content w b
  first : ∀ a : Attempt, as[0]? = some a → a.feedback = note
  later : ∀ (k : Nat) (a : Attempt) (b : Setback), as[k + 1]? = some a → bs[k]? = some b →
    a.feedback = advice note (some (b.told (k + 1) retries))
  contains : ∀ b ∈ bs, ∀ n, ∀ text ∈ b.texts, Within text (b.told n retries)
  concludes : Repair.Concludes retries as.length bs x ∨
    (Text.isTooLong retries = true ∧ as.length = 1 ∧ bs.length = 1 ∧ x = .error (.value .tooLongToWrite))

namespace Repair

variable {r : Repair} {i : Issue} {h : Host} {s t u : State} {content : String} {w : Source.Window}
  {note : Option String} {retries : Nat} {as as' : List Attempt} {bs bs' : List Setback}
  {x x' : Except Failure Change}

/-- The attempts of a whole repair are told what they should be. -/
theorem Course.advised_of_nil (course : r.Course i h content w note retries [] s as bs u)
    (concludes : Concludes retries as.length bs x ∨
      (Text.isTooLong retries = true ∧ as.length = 1 ∧ bs.length = 1 ∧ x = .error (.value .tooLongToWrite))) :
    Advised i content w note retries as bs x where
  met := course.met
  first a ha := by
    rw [course.advised 0 a ha]
    rfl
  later k a b ha hb := by
    rw [course.advised (k + 1) a ha, List.nil_append, described_take hb]
  contains b _ n text htext := Setback.told_contains htext
  concludes := concludes

/-- The attempts of a repair begin with the first and lead to what comes of them. -/
theorem exists_advised (r : Repair) (i : Issue) (content : String) (w : Source.Window) (noted : note ≠ some "")
    (allowed : retries ≠ 0) (s : State) :
    ∃ as bs u x, as ≠ [] ∧ r.Pursued i h w.code s as u ∧ Advised i content w note retries as bs x ∧
      (r.attemptsFrom i content w retries note none retries).outcome h s = (x, u) := by
  cases hlong : Text.isTooLong retries with
  | true =>
    obtain ⟨a, bs, u, x, hcourse, hend, hout⟩ := attemptsFrom_course_of_tooLong (h := h) r i content w hlong noted s
    refine ⟨[a], bs, u, x, by simp, hcourse.pursued, hcourse.advised_of_nil ?_, hout⟩
    rcases hend with ⟨rfl, c, rfl⟩ | ⟨hbs, rfl⟩
    · exact .inl (.inl ⟨rfl, Nat.one_le_iff_ne_zero.2 allowed, c, rfl⟩)
    · exact .inr ⟨hlong, rfl, hbs, rfl⟩
  | false =>
    obtain ⟨left, rfl⟩ := Nat.exists_eq_succ_of_ne_zero allowed
    have counted : ([] : List Setback).length + (left + 1) = left + 1 := Nat.zero_add _
    obtain ⟨as, bs, u, x, hcourse, hend, hout⟩ := attemptsFrom_course (h := h) r i content w hlong noted counted s
    rw [List.length_nil, Nat.zero_add, List.nil_append] at hend
    refine ⟨as, bs, u, x, ?_, hcourse.pursued, hcourse.advised_of_nil (.inl hend), hout⟩
    rintro rfl
    rcases hend with ⟨hlength, -⟩ | ⟨-, hlength, -⟩
    · simp at hlength
    · simp at hlength

variable {plan : List Call → Act Plan} {implement : List Call → Act String}
  {review : List Call → Act Review} {validate : List Call → Act Validation} {settings : Settings}

/-- The record holds the calls of the attempts. -/
theorem calls_of_pursued (leave : LeaveRecord h plan implement review validate)
    (pursued : Pursued ⟨.recorded plan implement review validate, settings⟩ i h w.code s as u) :
    u.calls = s.calls ++ (as.flatMap (Attempt.exchanges i.file w.code)).map Exchange.call := by
  induction pursued with
  | nil s => simp
  | cons n hexch _ ih =>
    have hcalls := calls_of_exchanged leave hexch
    rw [ih, List.flatMap_cons, List.map_append, ← List.append_assoc, ← hcalls]

/-- What a repair with a note about some findings tells its planner. Where no attempt is made, no part is
called. Otherwise the record holds the calls of the attempts and no others, and each of them is told what it
should be. -/
structure Guided (r : Repair) (i : Issue) (others : List Issue) (retries : Int) (h : Host) (s : State)
    (out : Except Failure Change × State) : Prop where
  unasked : (retries < 1 ∨ s.disk.reaches i.file ≠ .ok true ∨
      ∃ f t, (r.windowFor i).outcome h s = (.error f, t)) →
    out.2.calls = s.calls ∧ ∃ f, out.1 = .error f
  asked : 1 ≤ retries → s.disk.reaches i.file = .ok true →
    ∀ content w t, (r.windowFor i).outcome h s = (.ok (content, w), t) →
      ∃ as bs, as ≠ [] ∧ r.Pursued i h w.code t as out.2 ∧
        out.2.calls = s.calls ++ (as.flatMap (Attempt.exchanges i.file w.code)).map Exchange.call ∧
        Advised i content w (constraints (others.filter fun o =>
          o.fingerprint ≠ i.fingerprint ∧ o.file = i.file ∧ (o.line - i.line).natAbs ≤ 10))
          retries.toNat as bs out.1

/-- Two repairs whose attempts of one number met the same setback tell the next attempt the same, whatever
came before. -/
theorem Advised.feedback_eq {i' : Issue} {content' : String} {w' : Source.Window} {a a' : Attempt} {k : Nat}
    (first : Advised i content w note retries as bs x) (second : Advised i' content' w' note retries as' bs' x')
    {b : Setback} (hb : bs[k]? = some b) (hb' : bs'[k]? = some b) (ha : as[k + 1]? = some a)
    (ha' : as'[k + 1]? = some a') : a.feedback = a'.feedback := by
  rw [first.later k a b ha hb, second.later k a' b ha' hb']

/-- What the planner was told at a call of it. -/
def toldAt : Call → Option String
  | .plan _ feedback => feedback
  | _ => none

end Repair

end FixGate
