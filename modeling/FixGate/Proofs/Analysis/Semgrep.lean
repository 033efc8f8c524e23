import FixGate.Analysis.Semgrep
import FixGate.Proofs.Compile.Reports

/-!
# What is read from a report of semgrep

A report is read to its end if each of its results is well formed or is passed over. A result is passed over for
whatever it lacks and for most values of the wrong kind, but not where a member of the wrong kind is asked for one
of its own, nor for a line or column that is infinite. Such a result ends the reading, and the results beside it are
lost.

* `Breaking` : a result that ends the reading
* `breaking_of_finding` : a result that is neither well formed nor passed over is one of these
* `mem_of_findings` : where a report is read, its well-formed results are the findings
* `Unreadable`, `unreadable_of_findings` : why a report is not read
-/

namespace FixGate.Semgrep

/-- A result that has a rule and ends the reading: its extras, or the notes in them, are no table where a field
is asked for, its line of source is no text, or its place is infinite. -/
inductive Breaking : Value → Prop
  | extra {fs : Fields} {rule v : Value} : fs.lookup "check_id" = some rule → fs.lookup "extra" = some v →
      (∀ es, v ≠ .table es) → Breaking (.table fs)
  | notes {fs es : Fields} {rule v : Value} : fs.lookup "check_id" = some rule →
      fs.lookup "extra" = some (.table es) → es.lookup "metadata" = some v → v.isTrue = true →
      (∀ ns, v ≠ .table ns) → Breaking (.table fs)
  | source {fs es : Fields} {rule v : Value} : fs.lookup "check_id" = some rule →
      fs.lookup "extra" = some (.table es) → es.lookup "lines" = some v → (∀ s, v ≠ .text s) → Breaking (.table fs)
  | place {fs ps : Fields} {rule v : Value} {name : String} : fs.lookup "check_id" = some rule →
      fs.lookup "start" = some (.table ps) → name ∈ ["line", "col"] → ps.lookup name = some v →
      v.toInteger = .error .infinite → Breaking (.table fs)

variable {result v : Value} {f : Failure} {i : Issue} {is : List Issue} {report : String} {rs : List Value}

/-! ## Looking into values -/

theorem exists_of_field {name : String} {x : Value} (hv : v.field name = .ok x) :
    ∃ fs, v = .table fs ∧ fs.lookup name = some x := by
  unfold Value.field at hv
  split at hv
  · next fs =>
    split at hv
    · next hlookup =>
      cases hv
      exact ⟨fs, rfl, hlookup⟩
    · cases hv
  all_goals cases hv

theorem passesOver_of_field {name : String} (hv : v.field name = .error f) : passesOver f = true := by
  unfold Value.field at hv
  split at hv
  · split at hv
    · cases hv
    · cases hv
      rfl
  all_goals
    cases hv
    rfl

theorem ne_table_of_getOr {name : String} {default : Value} (hv : v.getOr name default = .error f)
    (fs : Fields) : v ≠ .table fs := by
  rintro rfl
  cases hv

theorem passesOver_of_toInteger (hv : v.toInteger = .error f) : passesOver f = true ∨ f = .infinite := by
  unfold Value.toInteger at hv
  split at hv
  · cases hv
  · cases hv
  · split at hv
    · cases hv
    · split_ifs at hv
      · cases hv
        exact .inr rfl
      · cases hv
        exact .inl rfl
  · split at hv
    · cases hv
    · cases hv
      exact .inl rfl
  · cases hv
    exact .inl rfl

theorem passesOver_of_toPath (hv : v.toPath = .error f) : passesOver f = true := by
  unfold Value.toPath at hv
  split at hv
  · cases hv
  · cases hv
    rfl

theorem passesOver_of_make (hi : i.make = .error f) : passesOver f = true := by
  unfold Issue.make at hi
  split_ifs at hi
  · cases hi
    rfl
  · rcases cases_of_bind hi with hprint | ⟨_, -, hpure⟩
    · unfold Issue.checkFingerprint Failure.checkText at hprint
      split at hprint
      · cases hprint
      · cases hprint
        rfl
    · cases hpure
  · cases hi

theorem exists_of_getOr {name : String} {default x : Value} (hv : v.getOr name default = .ok x) :
    ∃ fs, v = .table fs ∧ x = (fs.lookup name).getD default := by
  unfold Value.getOr at hv
  split at hv
  · next fs =>
    cases hv
    exact ⟨fs, rfl, rfl⟩
  · cases hv

/-- A field that is there in place of a default. -/
theorem lookup_of_getD {fs : Fields} {name : String} (default : Value) (hv : (fs.lookup name).getD default ≠ default) :
    fs.lookup name = some ((fs.lookup name).getD default) := by
  cases hlookup : fs.lookup name with
  | none => exact absurd (by rw [hlookup]; rfl) hv
  | some x => rfl

/-- A table that is there in place of an empty one, since it has a field. -/
theorem lookup_of_getD_table {fs es : Fields} {name member : String} {x : Value}
    (htable : (fs.lookup name).getD (.table []) = .table es) (hmember : es.lookup member = some x) :
    fs.lookup name = some (.table es) := by
  rw [← htable]
  apply lookup_of_getD
  intro hempty
  rw [htable] at hempty
  cases hempty
  cases hmember

theorem ne_table_of_fields (hv : v.fields = .error f) (fs : Fields) : v ≠ .table fs := by
  rintro rfl
  cases hv

theorem ne_text_of_textFor {member : String} (hv : v.textFor member = .error f) (s : String) : v ≠ .text s := by
  rintro rfl
  cases hv

/-! ## Results -/

theorem make_dataFault (i : Issue) : DataFault i.make := by
  unfold Issue.make
  split_ifs
  · exact .error rfl
  · refine DataFault.bind ?_ fun _ => .ok _
    unfold Issue.checkFingerprint Failure.checkText
    split
    · exact .ok _
    · exact .error rfl
  · exact .ok _

/-- A result is at fault for its data, and never fails as an analyzer does. -/
theorem finding_dataFault (result : Value) : DataFault (finding result) := by
  refine (result.field_dataFault _).bind fun rule => (result.getOr_dataFault _ _).bind fun extra => ?_
  refine (extra.getOr_dataFault _ _).bind fun message => (result.field_dataFault _).bind fun start => ?_
  refine (start.field_dataFault _).bind fun line => line.toInteger_dataFault.bind fun _ => ?_
  refine (extra.getOr_dataFault _ _).bind fun about => .ite_bind about.fields_dataFault fun notes => ?_
  refine (result.field_dataFault _).bind fun path => path.toPath_dataFault.bind fun file => ?_
  refine (start.getOr_dataFault _ _).bind fun column => column.toInteger_dataFault.bind fun _ => ?_
  refine (extra.getOr_dataFault _ _).bind fun source => (source.textFor_dataFault _).bind fun snippet => ?_
  exact (extra.getOr_dataFault _ _).bind fun grade => (extra.getOr_dataFault _ _).bind fun print =>
    make_dataFault _

/-- A result that is neither well formed nor passed over ends the reading for one of a few reasons. -/
theorem breaking_of_finding (hf : finding result = .error f) (ends : passesOver f = false) : Breaking result := by
  have absurdly {P : Prop} (passes : passesOver f = true) : P := by
    rw [ends] at passes
    cases passes
  unfold finding at hf
  -- The steps in order: each gives what it looked up to the next, or fails in its own way.
  rcases cases_of_bind hf with hfield | ⟨rule, hfield, hf⟩
  · exact absurdly (passesOver_of_field hfield)
  obtain ⟨fs, rfl, hrule⟩ := exists_of_field hfield
  rcases cases_of_bind hf with hextra | ⟨extra, hextra, hf⟩
  · cases hextra
  obtain rfl := Except.ok.inj hextra
  rcases cases_of_bind hf with hmessage | ⟨message, hmessage, hf⟩
  · have hno := ne_table_of_getOr hmessage
    exact .extra hrule (lookup_of_getD _ (hno [])) hno
  obtain ⟨es, extra_eq, -⟩ := exists_of_getOr hmessage
  rcases cases_of_bind hf with hstart | ⟨start, hstart, hf⟩
  · exact absurdly (passesOver_of_field hstart)
  obtain ⟨_, ⟨⟩, hstart⟩ := exists_of_field hstart
  rcases cases_of_bind hf with hfield | ⟨lineValue, hfield, hf⟩
  · exact absurdly (passesOver_of_field hfield)
  obtain ⟨ps, rfl, hline⟩ := exists_of_field hfield
  rcases cases_of_bind hf with hinteger | ⟨line, -, hf⟩
  · rcases passesOver_of_toInteger hinteger with hpasses | rfl
    · exact absurdly hpasses
    · exact .place hrule hstart (by decide) hline hinteger
  rcases cases_of_bind hf with habout | ⟨about, habout, hf⟩
  · rw [extra_eq] at habout
    cases habout
  obtain ⟨_, ⟨⟩, rfl⟩ := exists_of_getOr (extra_eq ▸ habout)
  rcases cases_of_ite_bind hf with ⟨htrue, hnotes⟩ | ⟨notes, hf⟩
  · have hmetadata : es.lookup "metadata" = some ((es.lookup "metadata").getD .null) := by
      apply lookup_of_getD
      intro hnull
      rw [hnull] at htrue
      cases htrue
    exact .notes hrule (lookup_of_getD_table extra_eq hmetadata) hmetadata htrue (ne_table_of_fields hnotes)
  rcases cases_of_bind hf with hfield | ⟨pathValue, -, hf⟩
  · exact absurdly (passesOver_of_field hfield)
  rcases cases_of_bind hf with hpath | ⟨file, -, hf⟩
  · exact absurdly (passesOver_of_toPath hpath)
  rcases cases_of_bind hf with hcolumn | ⟨columnValue, hcolumn, hf⟩
  · cases hcolumn
  obtain rfl := Except.ok.inj hcolumn
  rcases cases_of_bind hf with hinteger | ⟨column, -, hf⟩
  · rcases passesOver_of_toInteger hinteger with hpasses | rfl
    · exact absurdly hpasses
    · refine .place hrule hstart (by decide) (lookup_of_getD (.int 0) ?_) hinteger
      intro hzero
      rw [hzero] at hinteger
      cases hinteger
  rcases cases_of_bind hf with hsource | ⟨source, hsource, hf⟩
  · rw [extra_eq] at hsource
    cases hsource
  obtain ⟨_, ⟨⟩, rfl⟩ := exists_of_getOr (extra_eq ▸ hsource)
  rcases cases_of_bind hf with htext | ⟨snippet, -, hf⟩
  · have hno := ne_text_of_textFor htext
    have hlines := lookup_of_getD _ (hno "")
    exact .source hrule (lookup_of_getD_table extra_eq hlines) hlines hno
  rcases cases_of_bind hf with hgrade | ⟨grade, -, hf⟩
  · rw [extra_eq] at hgrade
    cases hgrade
  rcases cases_of_bind hf with hprint | ⟨print, -, hf⟩
  · rw [extra_eq] at hprint
    cases hprint
  · exact absurdly (passesOver_of_make hf)

/-- Where results are read to their end, the findings are those of the well-formed ones. -/
theorem mem_of_findingsOf (hall : findingsOf rs = .ok is) : i ∈ is ↔ ∃ r ∈ rs, finding r = .ok i := by
  induction rs generalizing is with
  | nil =>
    cases hall
    simp
  | cons r rest ih =>
    rw [findingsOf] at hall
    simp only [List.mem_cons, exists_eq_or_imp]
    split at hall
    · next j hj =>
      rcases hrest : findingsOf rest with g | js
      · rw [hrest] at hall
        cases hall
      · rw [hrest] at hall
        cases hall
        rw [List.mem_cons, ih hrest, hj, Except.ok.injEq, eq_comm]
    · next g hg =>
      split_ifs at hall
      rw [ih hall, hg]
      simp

/-- Where results are not read to their end, one of them has ended the reading. -/
theorem breaking_of_findingsOf (hall : findingsOf rs = .error f) :
    ∃ r ∈ rs, finding r = .error f ∧ Breaking r := by
  induction rs with
  | nil => cases hall
  | cons r rest ih =>
    have later (hrest : findingsOf rest = .error f) : ∃ r' ∈ r :: rest, finding r' = .error f ∧ Breaking r' := by
      obtain ⟨r', hr', hf⟩ := ih hrest
      exact ⟨r', List.mem_cons_of_mem _ hr', hf⟩
    rw [findingsOf] at hall
    split at hall
    · rcases cases_of_bind hall with hrest | ⟨_, -, hpure⟩
      · exact later hrest
      · cases hpure
    · next g hg =>
      split_ifs at hall with hpasses
      · exact later hall
      · cases hall
        exact ⟨r, List.mem_cons_self, hg, breaking_of_finding hg (by simpa using hpasses)⟩

/-! ## Reports -/

/-- Why a report that is well-formed text is not read: it passes a limit of the reader, it is no table of results,
or one of its results ends the reading. -/
inductive Unreadable (report : String) : Failure → Prop
  | limit {c : Json.Complaint} {f : Failure} : Json.read report = .error c → c.fault.limit? = some f →
      Unreadable report f
  | noTable {data : Value} {f : Failure} : Json.read report = .ok data → (∀ fs, data ≠ .table fs) →
      data.getOr "results" (.list []) = .error f → Unreadable report f
  | noResults {fs : Fields} {results : Value} {f : Failure} : Json.read report = .ok (.table fs) →
      fs.lookup "results" = some results → results.elements = .error f → Unreadable report f
  | result {fs : Fields} {results : Value} {rs : List Value} {r : Value} {f : Failure} :
      Json.read report = .ok (.table fs) → fs.lookup "results" = some results → results.elements = .ok rs →
      r ∈ rs → finding r = .error f → Breaking r → Unreadable report f

/-- Reading a table of results ends with the findings of the well-formed ones, or for the data of one of them, but
with no failure of the analyzer. -/
theorem mem_of_findings {fs : Fields} (htable : Json.read report = .ok (.table fs))
    (hresults : fs.lookup "results" = some (.list rs)) :
    DataFault (findings report) ∧ ∀ is, findings report = .ok is → ∀ i, i ∈ is ↔ ∃ r ∈ rs, finding r = .ok i := by
  have hreport : findings report = findingsOf rs := by
    unfold findings
    rw [htable]
    simp only [Value.getOr, hresults, Option.getD_some]
    rfl
  rw [hreport]
  refine ⟨fun f hf => ?_, fun is his i => mem_of_findingsOf his⟩
  obtain ⟨r, -, hr, -⟩ := breaking_of_findingsOf hf
  exact finding_dataFault r f hr

/-- A report that is no text of the format is an analyzer's failure; of the others, these are not read. -/
theorem unreadable_of_findings (hreport : findings report = .error f) :
    (∃ a, f = .analyzer a) ∨ Unreadable report f := by
  unfold findings at hreport
  split at hreport
  · next c hread =>
    cases hlimit : c.fault.limit? with
    | none =>
      rw [hlimit] at hreport
      cases hreport
      exact .inl ⟨_, rfl⟩
    | some g =>
      rw [hlimit] at hreport
      cases hreport
      exact .inr (.limit hread hlimit)
  · next data hread =>
    refine .inr ?_
    rcases cases_of_bind hreport with hdata | ⟨results, hdata, hreport⟩
    · exact .noTable hread (ne_table_of_getOr hdata) hdata
    obtain ⟨fs, rfl, rfl⟩ := exists_of_getOr hdata
    rcases cases_of_bind hreport with hitems | ⟨rs, hitems, hrs⟩
    · refine .noResults hread (lookup_of_getD (.list []) ?_) hitems
      intro hempty
      rw [hempty] at hitems
      cases hitems
    · obtain ⟨r, hr, hf, hbreaking⟩ := breaking_of_findingsOf hrs
      refine .result hread (lookup_of_getD (.list []) ?_) hitems hr hf hbreaking
      intro hempty
      rw [hempty] at hitems
      cases hitems
      cases hr

/-- A report is a table of results, one of which is well formed. -/
def hasFinding : Value → Bool
  | .table fs =>
    match fs.lookup "results" with
    | some (.list rs) => rs.any fun r => (finding r).isOk
    | _ => false
  | _ => false

theorem exists_of_hasFinding {data : Value} (hdata : hasFinding data = true) :
    ∃ fs rs, data = .table fs ∧ fs.lookup "results" = some (.list rs) ∧ ∃ r ∈ rs, ∃ i, finding r = .ok i := by
  unfold hasFinding at hdata
  split at hdata
  · next fs =>
    split at hdata
    · next rs hresults =>
      obtain ⟨r, hr, hok⟩ := List.any_eq_true.1 hdata
      refine ⟨fs, rs, rfl, hresults, r, hr, ?_⟩
      cases hfinding : finding r with
      | error f =>
        rw [hfinding] at hok
        cases hok
      | ok i => exact ⟨i, rfl⟩
    · cases hdata
  · cases hdata

end FixGate.Semgrep
