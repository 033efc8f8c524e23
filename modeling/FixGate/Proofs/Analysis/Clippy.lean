import FixGate.Analysis.Clippy
import FixGate.Proofs.Analysis.Pattern
import FixGate.Proofs.Compile.Cargo
import FixGate.Proofs.Files.Resolved
import FixGate.Proofs.Text.Encoding

/-!
# What a report of clippy says about a file

A span names its file by an absolute path, or from the workspace of the package: the nearest directory at or above the
package with a manifest that has the heading of a workspace, or else the package. A message is about a file if its
primary span names it so. Each of them becomes one finding, with the line and the column of its span, unless something
in the report leads the reader of its records to a limit.

* `Clippy.HasHeading`, `Clippy.IsBase` : the directory that spans are seen from
* `Clippy.concerns` : a message is about a file
* `Clippy.Placed` : a message with a text, and with a span that has a place, or none
* `Clippy.Reports` : a finding reports a message
* `Clippy.findings_of_report` : the findings in a report
-/

namespace FixGate

namespace Clippy

open ReportLine (named quoted note spells_named spells_quoted)

variable {d : Disk} {dir root base target file package : Path} {m : CargoMessage}

/-! ## The workspace of a package -/

/-- A directory has a manifest with a line that begins with the heading of a workspace, behind blanks. -/
def HasHeading (d : Disk) (dir : Path) : Prop :=
  ∃ bytes, d.lookUp (dir.below "Cargo.toml") = .ok (some (.file bytes)) ∧
    ∃ line ∈ Text.splitFeeds (Text.unifyLineEnds (Text.Utf8.decodeDropping bytes)),
      "[workspace]".toList <+: Text.stripLeftChars line.toList

/-- The directory that spans are seen from: the nearest one at or above the package with such a manifest, or else the
package. -/
inductive IsBase (d : Disk) (root : Path) : Path → Prop
  | workspace {base : Path} {before after : List Path} : root :: root.parents = before ++ base :: after →
      HasHeading d base → (∀ dir ∈ before, ¬ HasHeading d dir) → IsBase d root base
  | package : (∀ dir ∈ root :: root.parents, ¬ HasHeading d dir) → IsBase d root root

theorem declaresWorkspace_iff {manifest : String} : declaresWorkspace manifest = true ↔
    ∃ line ∈ Text.splitFeeds manifest, "[workspace]".toList <+: Text.stripLeftChars line.toList := by
  unfold declaresWorkspace
  rw [List.any_eq_true]
  simp only [List.isPrefixOf_iff_prefix]
  rfl

theorem exists_isWorkspace (asked : ∃ o, d.lookUp (dir.below "Cargo.toml") = .ok o) :
    ∃ b, isWorkspace d dir = .ok b ∧ (b = true ↔ HasHeading d dir) := by
  obtain ⟨o, ho⟩ := asked
  have other (h : ∀ bytes, o ≠ some (.file bytes)) : ¬ HasHeading d dir := by
    rintro ⟨bytes, hbytes, -⟩
    exact h bytes (Except.ok.inj (ho.symm.trans hbytes))
  cases o with
  | none => exact ⟨false, by simp only [isWorkspace, ho]; rfl, iff_of_false Bool.false_ne_true (other nofun)⟩
  | some e =>
    cases e with
    | dir => exact ⟨false, by simp only [isWorkspace, ho]; rfl, iff_of_false Bool.false_ne_true (other nofun)⟩
    | file bytes =>
      refine ⟨_, by simp only [isWorkspace, ho]; rfl, ?_⟩
      rw [declaresWorkspace_iff]
      constructor
      · intro h
        exact ⟨bytes, ho, h⟩
      · rintro ⟨bytes', hbytes', h⟩
        obtain rfl : bytes = bytes' := by simpa using ho.symm.trans hbytes'
        exact h

/-- A search among what can be asked gives the first that answers. -/
theorem findM?_of_ok {α : Type} {p : α → Except Failure Bool} {q : α → Bool} {xs : List α}
    (h : ∀ x ∈ xs, p x = .ok (q x)) : xs.findM? p = .ok (xs.find? q) := by
  induction xs with
  | nil => rfl
  | cons x xs ih =>
    rw [List.forall_mem_cons] at h
    rw [List.findM?, List.find?_cons, h.1, ih h.2]
    cases q x <;> rfl

open Classical in
theorem isBase_iff : IsBase d root base ↔
    base = ((root :: root.parents).find? fun dir => decide (HasHeading d dir)).getD root := by
  constructor
  · intro h
    cases h with
    | workspace hcut heading hbefore =>
      have found : (root :: root.parents).find? (fun dir => decide (HasHeading d dir)) = some base :=
        List.find?_eq_some_iff_append.2
          ⟨decide_eq_true heading, _, _, hcut, fun dir hdir => by simpa using hbefore dir hdir⟩
      rw [found]
      rfl
    | package nowhere =>
      have absent : (root :: root.parents).find? (fun dir => decide (HasHeading d dir)) = none :=
        List.find?_eq_none.2 fun dir hdir => by simpa using nowhere dir hdir
      rw [absent]
      rfl
  · rintro rfl
    cases h : (root :: root.parents).find? fun dir => decide (HasHeading d dir) with
    | none => exact .package fun dir hdir => by simpa using List.find?_eq_none.1 h dir hdir
    | some dir =>
      obtain ⟨heading, before, after, hcut, hbefore⟩ := List.find?_eq_some_iff_append.1 h
      exact .workspace hcut (of_decide_eq_true heading) fun dir hdir => by simpa using hbefore dir hdir

/-- There is one directory that spans are seen from, and it is found. -/
theorem exists_base (hpackage : d.resolveChecked package = .ok root)
    (asked : ∀ dir ∈ root :: root.parents, ∃ o, d.lookUp (dir.below "Cargo.toml") = .ok o) :
    ∃ base, (∀ dir, IsBase d root dir ↔ dir = base) ∧ workspaceRoot d package = .ok base := by
  classical
  refine ⟨_, fun dir => isBase_iff, ?_⟩
  have answered : ∀ dir ∈ root :: root.parents, isWorkspace d dir = .ok (decide (HasHeading d dir)) := by
    intro dir hdir
    obtain ⟨b, hb, hiff⟩ := exists_isWorkspace (asked dir hdir)
    rw [hb, ← hiff, Bool.decide_eq_true]
  have found := findM?_of_ok answered
  simp only [workspaceRoot, hpackage, bind, Except.bind] at found ⊢
  rw [found]
  rfl

/-! ## Messages about a file -/

/-- The file that a span names, seen from a directory. -/
def seenFrom (base : Path) (name : String) : Path :=
  if (Path.ofText name).isAbsolute then Path.ofText name
  else { base with names := base.names ++ (Path.ofText name).names }

/-- The name of a file in the span of a message. -/
def spanFile? (m : CargoMessage) : Option String :=
  match m.span with
  | .table fields =>
    match fields.lookup "file_name" with
    | some (.text name) => if name = "" then none else some name
    | _ => none
  | _ => none

/-- The primary span of a message names the target, after dots are followed. -/
def concerns (d : Disk) (base target : Path) (m : CargoMessage) : Bool :=
  match spanFile? m with
  | some name => d.resolve (seenFrom base name) == target
  | none => false

/-- The source that a span quotes: lines with a text each, or nothing. -/
def IsQuoted (v : Option Value) : Prop :=
  v = none ∨ v = some .null ∨ ∃ lines, v = some (.list lines) ∧
    ∀ line ∈ lines, ∃ fields, line = .table fields ∧
      (fields.lookup "text" = none ∨ ∃ text, fields.lookup "text" = some (.text text))

/-- A span with a file, a line and a column. -/
structure HasPlace (fields : Fields) (name : String) (line column : Int) : Prop where
  file : fields.lookup "file_name" = some (.text name)
  names : ∀ n ∈ (Path.ofText name).names, Path.nameFault? n = none
  line : fields.lookup "line_start" = some (.int line)
  column : fields.lookup "column_start" = some (.int column)
  quoted : IsQuoted (fields.lookup "text")

/-- A message with a text, and with a span that has a place, or without one. -/
structure Placed (m : CargoMessage) : Prop where
  text : ∃ text, m.message = .text text ∧ text ≠ ""
  span : m.span = .table [] ∨ ∃ fields name line column, m.span = .table fields ∧ HasPlace fields name line column

/-- A finding reports a message: at its line and column of the file, under its text. -/
structure Reports (file : Path) (m : CargoMessage) (i : Issue) : Prop where
  file : i.file = file
  title : i.title = m.message
  place : ∃ fields, m.span = .table fields ∧ fields.lookup "line_start" = some (.int i.line) ∧
    fields.lookup "column_start" = some (.int i.place.column)

variable {fields : Fields} {name : String} {line column : Int}

/-- Whether a message is about a file can be told. -/
theorem isAbout_eq (hbase : ∀ n ∈ base.names, Path.nameFault? n = none) (placed : Placed m) :
    isAbout d base target m.span = .ok (concerns d base target m) := by
  unfold concerns spanFile?
  rcases placed.span with hspan | ⟨fields, name, line, column, hspan, place⟩
  · rw [hspan]
    rfl
  · have held := Value.getOr_of_lookup place.file (.text "")
    simp only [hspan, place.file]
    by_cases hname : name = ""
    · subst hname
      simp only [isAbout, held]
      rfl
    · have isTrue : (Value.text name).isTrue = true := by simp [Value.isTrue, hname]
      have resolved : d.resolveChecked (base.join (Path.ofText name)) = .ok (d.resolve (seenFrom base name)) := by
        apply Disk.resolveChecked_of_names
        intro n hn
        exact (Path.names_join _ _ n hn).elim (hbase n) (place.names n)
      simp only [isAbout, held, bind, Except.bind, isTrue, Bool.not_true, if_neg Bool.false_ne_true, resolved,
        if_neg hname]
      rfl

theorem exists_snippet (quoted : IsQuoted (fields.lookup "text")) : ∃ s, snippetOf (.table fields) = .ok s := by
  have held : Value.getOr (.table fields) "text" .null = .ok ((fields.lookup "text").getD .null) := rfl
  rcases quoted with h | h | ⟨lines, h, hlines⟩
  · simp only [snippetOf, held, h]
    exact ⟨_, rfl⟩
  · simp only [snippetOf, held, h]
    exact ⟨_, rfl⟩
  · cases lines with
    | nil =>
      simp only [snippetOf, held, h]
      exact ⟨_, rfl⟩
    | cons line lines =>
      obtain ⟨parts, rfl, htext⟩ := hlines line List.mem_cons_self
      have text : ∃ text, Value.getOr (.table parts) "text" (.text "") = .ok (.text text) := by
        rcases htext with htext | ⟨text, htext⟩
        · exact ⟨"", Value.getOr_of_lookup_none htext _⟩
        · exact ⟨text, Value.getOr_of_lookup htext _⟩
      obtain ⟨text, htext⟩ := text
      have isTrue : (Value.list (.table parts :: lines)).isTrue = true := rfl
      refine ⟨Text.strip text, ?_⟩
      simp only [snippetOf, held, h, bind, Except.bind, Option.getD_some, isTrue, Bool.not_true,
        if_neg Bool.false_ne_true, pure, Except.pure, htext, Value.textFor]

/-- What has a title becomes a finding if its fingerprint can be derived. -/
theorem make_of_titled {i : Issue} (titled : i.title.isTrue = true) (empty : i.fingerprint = "") :
    i.make = i.checkFingerprint.map fun _ => i.withFingerprint := by
  unfold Issue.make
  rw [if_neg (by simp [titled])]
  show (if i.fingerprint.isEmpty then _ else _) = _
  rw [if_pos (by rw [empty]; rfl)]
  cases i.checkFingerprint <;> rfl

theorem title_withFingerprint (i : Issue) : i.withFingerprint.title = i.title := by
  unfold Issue.withFingerprint
  split <;> rfl

/-- A message with a place is made into a finding under its text, at the place of its span. -/
theorem exists_made (file : Path) (hspan : m.span = .table fields) (place : HasPlace fields name line column) :
    ∃ (i : Issue) (snippet : String), finding file m = i.make ∧ i.title = m.message ∧ i.fingerprint = "" ∧
      i.place = ⟨file, line, column, snippet⟩ := by
  obtain ⟨snippet, hsnippet⟩ := exists_snippet place.quoted
  unfold finding
  simp only [hspan, Value.getOr_of_lookup place.line, Value.getOr_of_lookup place.column, hsnippet, bind, Except.bind,
    Value.toInteger]
  exact ⟨_, snippet, rfl, rfl, rfl, rfl⟩

/-- A message with a place becomes a finding that reports it, exactly if the name of the file has bytes. -/
theorem finding_of_place (file : Path) (placed : Placed m) (hspan : m.span = .table fields)
    (place : HasPlace fields name line column) :
    (Failure.checkText file.text = .ok () ∧ ∃ i, finding file m = .ok i ∧ Reports file m i) ∨
      Failure.checkText file.text ≠ .ok () ∧ ∃ f, finding file m = .error f := by
  obtain ⟨i, snippet, hi, title, empty, hplace⟩ := exists_made file hspan place
  have titled : i.title.isTrue = true := by
    obtain ⟨text, htext, filled⟩ := placed.text
    rw [title, htext]
    simp [Value.isTrue, filled]
  have derived : i.checkFingerprint = .ok () ↔ Failure.checkText file.text = .ok () := by
    rw [Issue.checkFingerprint_eq_ok_iff, Issue.file, hplace]
  rw [hi, make_of_titled titled empty]
  cases hprint : i.checkFingerprint with
  | ok _ =>
    have kept : i.withFingerprint.place = ⟨file, line, column, snippet⟩ := (place_withFingerprint i).trans hplace
    refine .inl ⟨derived.1 hprint, i.withFingerprint, rfl, ?_⟩
    exact {
      file := congrArg SourcePlace.file kept
      title := (title_withFingerprint i).trans title
      place := ⟨fields, hspan, by rw [place.line, Issue.line, kept], by rw [place.column, kept]⟩ }
  | error f =>
    refine .inr ⟨?_, f, rfl⟩
    intro named
    cases hprint.symm.trans (derived.2 named)

/-! ## A report -/

theorem exists_place_of_concerns (placed : Placed m) (h : concerns d base target m = true) :
    ∃ fields name line column, m.span = .table fields ∧ HasPlace fields name line column := by
  rcases placed.span with hspan | hplace
  · rw [concerns, spanFile?, hspan] at h
    cases h
  · exact hplace

/-- The next message becomes a finding, or is passed over. -/
theorem findingsOf_cons (hbase : ∀ n ∈ base.names, Path.nameFault? n = none) (placed : Placed m)
    (rest : List (Except Failure CargoMessage)) :
    findingsOf d base target file (.ok m :: rest) =
      if concerns d base target m then (finding file m).bind fun i =>
        (findingsOf d base target file rest).map fun is => i :: is
      else findingsOf d base target file rest := by
  rw [findingsOf, isAbout_eq hbase placed]
  rfl

variable {ms : List CargoMessage} {rs : List (Except Failure CargoMessage)} {issues : List Issue}

/-- Findings are given only if no failure is among the messages. -/
theorem ok_of_findingsOf (h : findingsOf d base target file rs = .ok issues) : ∀ r ∈ rs, ∃ m, r = .ok m := by
  induction rs generalizing issues with
  | nil => exact fun r hr => absurd hr List.not_mem_nil
  | cons r rs ih =>
    cases r with
    | error f => cases h
    | ok m =>
      refine List.forall_mem_cons.2 ⟨⟨m, rfl⟩, ?_⟩
      rw [findingsOf] at h
      obtain ⟨about, -, h⟩ := Json.bind_eq_ok h
      cases about with
      | false => exact ih h
      | true =>
        obtain ⟨i, -, h⟩ := Json.bind_eq_ok h
        obtain ⟨is, h, -⟩ := Json.bind_eq_ok h
        exact ih h

theorem ok_of_findings {report : String} (h : findings d report file package = .ok issues) :
    ∀ r ∈ cargoMessages report, ∃ m, r = .ok m := by
  obtain ⟨_, -, h⟩ := Json.bind_eq_ok h
  obtain ⟨_, -, h⟩ := Json.bind_eq_ok h
  exact ok_of_findingsOf h

/-- The messages about a file become findings, in order, exactly if there are none or the name of the file has bytes. -/
theorem exists_findingsOf_iff (hbase : ∀ n ∈ base.names, Path.nameFault? n = none) (placed : ∀ m ∈ ms, Placed m) :
    (∃ issues, findingsOf d base target file (ms.map .ok) = .ok issues ∧
      List.Forall₂ (Reports file) (ms.filter (concerns d base target)) issues) ↔
      (ms.filter (concerns d base target) ≠ [] → Failure.checkText file.text = .ok ()) := by
  induction ms with
  | nil => exact iff_of_true ⟨[], rfl, .nil⟩ fun h => absurd rfl h
  | cons m ms ih =>
    rw [List.forall_mem_cons] at placed
    rw [List.map_cons, findingsOf_cons hbase placed.1]
    by_cases hm : concerns d base target m = true
    · obtain ⟨fields, name, line, column, hspan, place⟩ := exists_place_of_concerns placed.1 hm
      rw [if_pos hm, List.filter_cons_of_pos hm]
      rcases finding_of_place file placed.1 hspan place with ⟨named, i, hi, reports⟩ | ⟨unnamed, f, hf⟩
      · refine iff_of_true ?_ fun _ => named
        obtain ⟨issues, hissues, all⟩ := (ih placed.2).2 fun _ => named
        exact ⟨i :: issues, by rw [hi, hissues]; rfl, .cons reports all⟩
      · refine iff_of_false ?_ fun h => unnamed (h (List.cons_ne_nil _ _))
        rintro ⟨issues, h, -⟩
        rw [hf] at h
        cases h
    · rw [if_neg hm, List.filter_cons_of_neg hm]
      exact ih placed.2

theorem mem_parents {q : Path} (h : q ∈ root.parents) : ∀ n ∈ q.names, n ∈ root.names := by
  obtain ⟨k, -, rfl⟩ := List.mem_map.1 h
  exact fun n hn => List.take_subset k root.names hn

/-- The names of the directory that spans are seen from can be handed to the system, as those of the package can. -/
theorem nameFault?_of_isBase (here : ∀ n ∈ d.here, Path.nameFault? n = none)
    (hpackage : d.resolveChecked package = .ok root) (isBase : IsBase d root base) :
    ∀ n ∈ base.names, Path.nameFault? n = none := by
  obtain ⟨reachable, hroot⟩ := Disk.resolveChecked_eq_ok_iff.1 hpackage
  have rootNames : ∀ n ∈ root.names, Path.nameFault? n = none := by
    intro n hn
    rw [← hroot] at hn
    rcases Path.mem_follow hn with hn | hn
    · exact absurd hn List.not_mem_nil
    · unfold Path.fromRoot at hn
      split at hn
      · exact Path.obstacle?_eq_none_iff.1 reachable n hn
      · exact (List.mem_append.1 hn).elim (here n) (Path.obstacle?_eq_none_iff.1 reachable n)
  have above : base ∈ root :: root.parents := by
    cases isBase with
    | workspace hcut _ _ =>
      rw [hcut]
      exact List.mem_append_right _ List.mem_cons_self
    | package _ => exact List.mem_cons_self
  rcases List.mem_cons.1 above with rfl | above
  · exact rootNames
  · exact fun n hn => rootNames n (mem_parents above n hn)

/-- A report of ASCII lines, each a message, another record or another line, gives one finding for each message about
the file, in order, at the place of its span. The file is meant if the span names it from the nearest workspace at or
above the package, or else from the package. This is so exactly if nothing in the report leads the reader to one of its
limits, and the name of the file has bytes in case there is a message about it. -/
theorem findings_of_report (d : Disk) (file package : Path) {target root : Path} (lines : List ReportLine)
    (here : ∀ n ∈ d.here, Path.nameFault? n = none)
    (htarget : d.resolveChecked file = .ok target) (hpackage : d.resolveChecked package = .ok root)
    (asked : ∀ dir ∈ root :: root.parents, ∃ o, d.lookUp (dir.below "Cargo.toml") = .ok o)
    (wellFormed : ∀ l ∈ lines, l.WellFormed) (ascii : ∀ l ∈ lines, Text.Utf8.Ascii l.text.toList)
    (placed : ∀ m ∈ lines.filterMap ReportLine.message?, Placed m) :
    ∃ base, (∀ dir, IsBase d root dir ↔ dir = base) ∧
      ((∃ issues, findings d ("\n".intercalate (lines.map ReportLine.text)) file package = .ok issues ∧
        List.Forall₂ (Reports file) ((lines.filterMap ReportLine.message?).filter (concerns d base target)) issues) ↔
      (∀ l ∈ lines, WithinLimits l.text) ∧
        ((lines.filterMap ReportLine.message?).filter (concerns d base target) ≠ [] →
          Failure.checkText file.text = .ok ())) := by
  obtain ⟨base, isBase, hbase⟩ := exists_base hpackage asked
  refine ⟨base, isBase, ?_⟩
  have names := nameFault?_of_isBase here hpackage ((isBase base).2 rfl)
  set ms := lines.filterMap ReportLine.message?
  set report := "\n".intercalate (lines.map ReportLine.text)
  have hfindings : findings d report file package = findingsOf d base target file (cargoMessages report) := by
    simp only [findings, htarget, hbase, bind, Except.bind]
  have read (limits : ∀ l ∈ lines, WithinLimits l.text) : cargoMessages report = ms.map .ok :=
    ReportLine.cargoMessages_of_isRead wellFormed fun l hl =>
      ⟨(wellFormed l hl).unbroken_of_ascii (ascii l hl), limits l hl⟩
  constructor
  · rintro ⟨issues, hissues, reports⟩
    have limits : ∀ l ∈ lines, WithinLimits l.text := by
      intro l hl
      apply withinLimits_of_ok
      intro r hr
      apply ok_of_findings hissues
      rw [cargoMessages_lines]
      exact List.mem_flatMap.2 ⟨l.text, List.mem_map_of_mem hl, hr⟩
    refine ⟨limits, ?_⟩
    rw [hfindings, read limits] at hissues
    exact (exists_findingsOf_iff names placed).1 ⟨issues, hissues, reports⟩
  · rintro ⟨limits, named⟩
    rw [hfindings, read limits]
    exact (exists_findingsOf_iff names placed).2 named

/-- A workspace with one package in it. -/
def shared : Disk :=
  ⟨⟨[(["Cargo.toml"], .file (Text.Utf8.encode "[workspace]\nmembers = [\"m\"]\n")),
    (["m", "Cargo.toml"], .file (Text.Utf8.encode "[package]\nname = \"m\"\n"))]⟩, []⟩

/-- The package, and its library. -/
def member : Path := Path.ofText "m"
def library : Path := Path.ofText "m/src/lib.rs"

/-- The members of a span in the third line of the library. -/
def spanMembers (start : Int) : List (String × Value) :=
  [("byte_start", .int start), ("file_name", .text "m/src/lib.rs"), ("line_start", .int 3), ("column_start", .int 5)]

/-- A text of such a span. -/
def spanText (start : List Char) : List Char :=
  '\x7b' :: (named "byte_start" start ++ ',' :: (named "file_name" (quoted "m/src/lib.rs") ++ ',' ::
    (named "line_start" ['3'] ++ ',' :: named "column_start" ['5']))) ++ ['\x7d']

/-- All characters are ASCII characters that can be seen, or spaces. -/
def visible (cs : List Char) : Bool :=
  cs.all fun c => 32 ≤ c.toNat && c.toNat < 0x80

theorem ascii_of_visible {cs : List Char} (h : visible cs = true) : Text.Utf8.Ascii cs := by
  intro c hc
  have hc := List.all_eq_true.1 h c hc
  simp only [Bool.and_eq_true, decide_eq_true_eq] at hc
  exact hc.2

/-- Such a span, its first byte given by some digits. -/
def spanAt (start : List Char) : Fields :=
  Fields.ofMembers (spanMembers (Text.readDigits start))

/-- The line of a message about it. -/
def noteAt (start : List Char) : ReportLine :=
  note "unused" [.table (spanAt start)] (.table (spanAt start)) ('[' :: spanText start ++ [']'])

variable {start : List Char}

theorem lookup_spanAt_of_mem {name : String} {v : Value} (h : (name, v) ∈ spanMembers (Text.readDigits start)) :
    (spanAt start).lookup name = some v :=
  lookup_ofMembers (by simp [spanMembers]) h

theorem lookup_spanAt_of_not_mem {name : String} (h : name ∉ (spanMembers (Text.readDigits start)).map Prod.fst) :
    (spanAt start).lookup name = none :=
  lookup_foldl_insert h []

theorem wholePart_of_digit {c : Char} (hdigit : c.isDigit = true) (h : c ≠ '0') : Json.WholePart [c] :=
  .digits ⟨List.cons_ne_nil c [], List.forall_mem_singleton.2 hdigit⟩ h

/-- Digits make the text of the line a text of the record. -/
theorem spells_noteAt (digits : Json.WholePart start) :
    Json.Spells none (.table (Fields.ofMembers (ReportLine.recordMembers "unused" [.table (spanAt start)])))
      (noteAt start).text.toList := by
  have number {w : List Char} (whole : Json.WholePart w) : Json.Spells none (.int (Text.readDigits w)) w :=
    .number (.plain (.int whole nofun))
  have three : Json.WholePart ['3'] := wholePart_of_digit rfl (by decide)
  have five : Json.WholePart ['5'] := wholePart_of_digit rfl (by decide)
  have span : Json.Spells none (.table (spanAt start)) (spanText start) := .table (by simp)
    (.more (spells_named "byte_start" (by decide) (number digits))
      (.more (spells_named "file_name" (by decide) (spells_quoted "m/src/lib.rs" (by decide)))
        (.more (spells_named "line_start" (by decide) (number three))
          (.last (spells_named "column_start" (by decide) (number five))))))
  exact ReportLine.spells_note (by decide) (.list (by simp) (.last (CargoMessage.padded_of_spells span)))

theorem wellFormed_noteAt (digits : Json.WholePart start) (ascii : visible (noteAt start).text.toList = true) :
    (noteAt start).WellFormed := by
  have marked : (spanAt start).lookup "is_primary" = none := lookup_spanAt_of_not_mem (by simp [spanMembers])
  refine ⟨⟨CargoMessage.padded_of_spells (spells_noteAt digits), ?_, ?_⟩, ReportLine.says_note "unused" ?_ ?_⟩
  · exact fun h => absurd (List.all_eq_true.1 ascii _ h) (by decide)
  · exact fun h => absurd (List.all_eq_true.1 ascii _ h) (by decide)
  · intro s hs
    rw [List.mem_singleton.1 hs]
    exact ⟨_, rfl, .inl marked⟩
  · apply CargoMessage.Counts.first
    intro s hs
    rw [List.mem_singleton.1 hs]
    rintro ⟨fields, heq, h⟩
    cases heq
    cases marked.symm.trans h

theorem withinLimits_noteAt_iff (digits : Json.WholePart start) (ascii : visible (noteAt start).text.toList = true) :
    WithinLimits (noteAt start).text ↔ (Json.readAll (noteAt start).text.toList).isOk = true := by
  have wellFormed := wellFormed_noteAt digits ascii
  have unbroken := wellFormed.unbroken_of_ascii (ascii_of_visible ascii)
  exact wellFormed.1.withinLimits_iff unbroken (spells_noteAt digits)

theorem placed_noteAt (start : List Char) : ∀ m, (noteAt start).message? = some m → Placed m := by
  rintro m ⟨⟩
  refine ⟨⟨"unused", rfl, by decide⟩, .inr ⟨_, "m/src/lib.rs", 3, 5, rfl, ?_⟩⟩
  exact {
    file := lookup_spanAt_of_mem (by simp [spanMembers])
    names := by decide
    line := lookup_spanAt_of_mem (by simp [spanMembers])
    column := lookup_spanAt_of_mem (by simp [spanMembers])
    quoted := .inl (lookup_spanAt_of_not_mem (by simp [spanMembers])) }

theorem target_shared : shared.resolveChecked library = .ok (shared.resolve library) :=
  rfl

theorem root_shared : shared.resolveChecked member = .ok (Path.ofLocation ["m"]) :=
  rfl

theorem asked_shared : ∀ dir ∈ Path.ofLocation ["m"] :: (Path.ofLocation ["m"]).parents,
    ∃ o, shared.lookUp (dir.below "Cargo.toml") = .ok o := by
  have ok : ∀ dir ∈ Path.ofLocation ["m"] :: (Path.ofLocation ["m"]).parents,
      (shared.lookUp (dir.below "Cargo.toml")).isOk = true := by decide
  intro dir hdir
  have hdir := ok dir hdir
  cases h : shared.lookUp (dir.below "Cargo.toml") with
  | ok o => exact ⟨o, rfl⟩
  | error f =>
    rw [h] at hdir
    cases hdir

/-- Spans are seen from the workspace, not from the package. -/
theorem isBase_shared : IsBase shared (Path.ofLocation ["m"]) (Path.ofLocation []) := by
  have answers (dir : Path) (hdir : dir ∈ Path.ofLocation ["m"] :: (Path.ofLocation ["m"]).parents) :
      (isWorkspace shared dir).toOption = some true ↔ HasHeading shared dir := by
    obtain ⟨b, hb, hiff⟩ := exists_isWorkspace (asked_shared dir hdir)
    rw [hb, ← hiff]
    exact Option.some_inj
  have cut : Path.ofLocation ["m"] :: (Path.ofLocation ["m"]).parents =
      [Path.ofLocation ["m"]] ++ Path.ofLocation [] :: [] := rfl
  refine .workspace cut ?_ ?_
  · exact (answers _ (by decide)).1 (by decide)
  · intro dir hdir
    rw [List.mem_singleton.1 hdir, ← answers _ (by decide)]
    decide

/-- The message is about the library. -/
theorem filter_concerns_noteAt (start : List Char) :
    ([noteAt start].filterMap ReportLine.message?).filter
        (concerns shared (Path.ofLocation []) (shared.resolve library)) =
      [⟨.text "error", .text "unused", .text "", .table (spanAt start)⟩] := by
  have named : spanFile? ⟨.text "error", .text "unused", .text "", .table (spanAt start)⟩ = some "m/src/lib.rs" := by
    have lookup : (spanAt start).lookup "file_name" = some (.text "m/src/lib.rs") :=
      lookup_spanAt_of_mem (by simp [spanMembers])
    simp [spanFile?, lookup]
  apply List.filter_cons_of_pos
  rw [concerns, named]
  decide

/-- A message that names the library from the workspace is reported at its place. -/
theorem findings_of_member :
    ∃ i, findings shared ("\n".intercalate [(noteAt ['7']).text]) library member = .ok [i] ∧ i.title = .text "unused" ∧
      i.line = 3 ∧ i.place.column = 5 := by
  have digits : Json.WholePart ['7'] := wholePart_of_digit rfl (by decide)
  have chars : (noteAt ['7']).text.toList = _ := ReportLine.toList_noteText _ _
  have ascii : visible (noteAt ['7']).text.toList = true := by
    rw [chars]
    decide
  have wellFormed := wellFormed_noteAt digits ascii
  obtain ⟨base, isBase, h⟩ := findings_of_report shared library member [noteAt ['7']] nofun target_shared root_shared
    asked_shared (List.forall_mem_singleton.2 wellFormed) (List.forall_mem_singleton.2 (ascii_of_visible ascii))
    fun m hm => placed_noteAt ['7'] m (by simpa using hm)
  obtain rfl := (isBase _).1 isBase_shared
  have limits : WithinLimits (noteAt ['7']).text := by
    rw [withinLimits_noteAt_iff digits ascii, chars]
    decide +kernel
  have printable : Failure.checkText library.text = .ok () := Text.Utf8.checkText_eq_ok_iff.2 (by decide)
  obtain ⟨issues, hissues, reports⟩ := h.2 ⟨List.forall_mem_singleton.2 limits, fun _ => printable⟩
  rw [filter_concerns_noteAt] at reports
  cases reports with
  | cons report rest =>
    cases rest
    obtain ⟨fields, hfields, line, column⟩ := report.place
    cases hfields
    have three : (spanAt ['7']).lookup "line_start" = some (.int 3) := lookup_spanAt_of_mem (by simp [spanMembers])
    have five : (spanAt ['7']).lookup "column_start" = some (.int 5) := lookup_spanAt_of_mem (by simp [spanMembers])
    refine ⟨_, hissues, report.title, ?_, ?_⟩
    · simpa [three] using line.symm
    · simpa [five] using column.symm

/-- A number with one digit too many. -/
def tooLong : List Char :=
  List.replicate (Text.digitLimit + 1) '1'

/-- The whole report is lost if the span of a message about the library begins at a byte with such a number, though its
line and its column are small. -/
theorem not_findings_of_member :
    (noteAt tooLong).WellFormed ∧ Text.Utf8.Ascii (noteAt tooLong).text.toList ∧
      IsBase shared (Path.ofLocation ["m"]) (Path.ofLocation []) ∧
      (∀ m ∈ [noteAt tooLong].filterMap ReportLine.message?, Placed m ∧
        concerns shared (Path.ofLocation []) (shared.resolve library) m = true) ∧
      ∀ issues, findings shared (noteAt tooLong).text library member ≠ .ok issues := by
  have ones : ∀ c ∈ tooLong, c.isDigit = true := by
    intro c hc
    rw [List.eq_of_mem_replicate hc]
    rfl
  have digits : Json.WholePart tooLong := .digits ⟨List.cons_ne_nil _ _, ones⟩ (by decide)
  have chars : (noteAt tooLong).text.toList = _ := ReportLine.toList_noteText _ _
  have ascii : visible (noteAt tooLong).text.toList = true := by
    rw [chars]
    decide +kernel
  have limited : ¬ WithinLimits (noteAt tooLong).text := by
    rw [withinLimits_noteAt_iff digits ascii, chars]
    decide +kernel
  refine ⟨wellFormed_noteAt digits ascii, ascii_of_visible ascii, isBase_shared, ?_, ?_⟩
  · intro m hm
    refine ⟨placed_noteAt tooLong m (by simpa using hm), ?_⟩
    have about : m ∈ ([noteAt tooLong].filterMap ReportLine.message?).filter
        (concerns shared (Path.ofLocation []) (shared.resolve library)) := by
      rw [filter_concerns_noteAt]
      exact hm
    exact (List.mem_filter.1 about).2
  · intro issues h
    exact limited (withinLimits_of_ok (ok_of_findings h))

end Clippy

end FixGate
