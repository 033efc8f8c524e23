import FixGate.Proofs.Compile.Reports
import FixGate.Proofs.Json.Steps

/-!
# The entries of a compilation database

What an entry has to hold for its command to be recorded, said of the data and not of how it is read. An entry that
does not hold it is left out, and the others are recorded in their order, with one exception: an entry with a
directory and a file, whose command is something else than a text, ends the reading.

* `Command.Holds` : the words that the fields of an entry hold
* `Command.Records` : an entry records a command
* `Command.Breaks` : an entry ends the reading
* `Command.ofEntry_eq_ok_iff`, `Command.ofEntry_eq_error` : what comes of an entry
* `Database.recorded` : the commands that entries record
* `Database.commandsOf_of_unbroken`, `Database.commandsOf_of_breaks` : what comes of a list of entries
-/

namespace FixGate

variable {d : Disk} {f : Failure}

/-- What stands in the way of a path is a fault of its text. -/
theorem Path.isValue_of_obstacle {p q : Path} {fault : PathFault} (h : p.obstacle? = some (fault, q)) :
    (Failure.ofPath fault q).isValue = true := by
  have of_name {n : String} {fault : PathFault} (h : Path.nameFault? n = some fault) (q : Path) :
      (Failure.ofPath fault q).isValue = true := by
    unfold Path.nameFault? at h
    split at h
    · cases h
      rfl
    · split at h
      · cases h
        rfl
      · cases h
  have from_path (ns : List String) (p : Path) (h : Path.obstacleFrom p ns = some (fault, q)) :
      (Failure.ofPath fault q).isValue = true := by
    induction ns generalizing p with
    | nil => cases h
    | cons n ns ih =>
      rw [Path.obstacleFrom] at h
      split at h
      · next hn =>
        cases h
        exact of_name hn _
      · exact ih _ h
  exact from_path _ _ h

theorem Disk.isValue_of_resolveChecked {p : Path} (h : d.resolveChecked p = .error f) : f.isValue = true := by
  unfold resolveChecked at h
  split at h
  · next hp =>
    cases h
    exact Path.isValue_of_obstacle hp
  · cases h

theorem Value.marks_of_field {v : Value} {name : String} (h : v.field name = .error f) : f.marksEntry = true := by
  unfold Value.field at h
  split at h
  · split at h
    · cases h
    · cases h
      rfl
  all_goals
    cases h
    rfl

theorem Value.exists_table_of_field {v x : Value} {name : String} (h : v.field name = .ok x) :
    ∃ fields, v = .table fields := by
  cases v
  case table fields => exact ⟨fields, rfl⟩
  all_goals cases h

theorem Value.marks_of_toPath {v : Value} (h : v.toPath = .error f) : f.marksEntry = true := by
  unfold Value.toPath at h
  split at h
  · cases h
  · cases h
    rfl

theorem Value.toPath_eq_ok_iff {v : Value} {p : Path} : v.toPath = .ok p ↔ ∃ s, v = .text s ∧ p = Path.ofText s := by
  cases v <;> simp [Value.toPath, eq_comm]

theorem Failure.marks_of_isValue (h : f.isValue = true) : f.marksEntry = true := by
  cases f <;> first | exact h | rfl | cases h

namespace Command

/-! ## What an entry holds -/

/-- No arguments are listed: there is no such field, or nothing in it. -/
def Unlisted (fields : Fields) : Prop :=
  ∀ v, fields.lookup "arguments" = some v → v.isTrue = false

/-- The words that the fields of an entry hold: what is listed as arguments, or else the words of a command line, of
which there are none if the command is null. -/
inductive Holds (fields : Fields) : List Value → Prop
  | listed {v : Value} {ws : List Value} : fields.lookup "arguments" = some v → v.isTrue = true →
      v.elements = .ok ws → Holds fields ws
  | line {s : String} {ws : List String} : Unlisted fields → fields.lookup "command" = some (.text s) →
      Words.split s = .ok ws → Holds fields (ws.map .text)
  | nothing : Unlisted fields → fields.lookup "command" = some .null → Holds fields []

/-- An entry records a command: it names a directory and a file, which may be a path from there, and holds words. -/
structure Records (d : Disk) (entry : Value) (c : Command) : Prop where
  held : ∃ fields dir file, entry = .table fields ∧ fields.lookup "directory" = some (.text dir) ∧
    fields.lookup "file" = some (.text file) ∧ Holds fields c.arguments ∧ c.directory = Path.ofText dir ∧
    d.resolveChecked (c.directory.join (Path.ofText file)) = .ok c.file

/-- An entry ends the reading: it names a directory and a file and lists no arguments, and its command is neither a
text nor null. -/
def Breaks (entry command : Value) : Prop :=
  ∃ fields dir file, entry = .table fields ∧ fields.lookup "directory" = some (.text dir) ∧
    fields.lookup "file" = some (.text file) ∧ Unlisted fields ∧ fields.lookup "command" = some command ∧
    command ≠ .null ∧ ∀ s, command ≠ .text s

/-! ## The words of an entry -/

theorem wordsOfEntry_listed {fields : Fields} {v : Value} (hv : fields.lookup "arguments" = some v)
    (listed : v.isTrue = true) : wordsOfEntry (.table fields) = v.elements := by
  simp only [wordsOfEntry, Value.mentions, Value.field, hv, Option.isSome_some, bind, Except.bind, pure,
    Except.pure, if_true, listed]

theorem wordsOfEntry_unlisted {fields : Fields} (unlisted : Unlisted fields) :
    wordsOfEntry (.table fields) = ((Value.table fields).field "command").bind fun v =>
      match v with
      | .text s =>
        match Words.split s with
        | .ok ws => .ok (ws.map Value.text)
        | .error f => .error (.value f)
      | .null => .ok []
      | v => .error (.shape (.noMember v.kind "read")) := by
  cases hv : fields.lookup "arguments" with
  | none =>
    simp only [wordsOfEntry, Value.mentions, hv, Option.isSome_none, bind, Except.bind, pure, Except.pure]
    rfl
  | some v =>
    simp only [wordsOfEntry, Value.mentions, Value.field, hv, Option.isSome_some, bind, Except.bind, pure,
      Except.pure, if_true, unlisted v hv]
    rfl

theorem listed_or_unlisted (fields : Fields) :
    (∃ v, fields.lookup "arguments" = some v ∧ v.isTrue = true) ∨ Unlisted fields := by
  by_cases h : ∃ v, fields.lookup "arguments" = some v ∧ v.isTrue = true
  · exact .inl h
  · refine .inr fun v hv => ?_
    rw [← Bool.not_eq_true]
    exact fun listed => h ⟨v, hv, listed⟩

theorem field_table_eq_ok_iff {fields : Fields} {name : String} {v : Value} :
    (Value.table fields).field name = .ok v ↔ fields.lookup name = some v := by
  cases h : fields.lookup name <;> simp [Value.field, h]

theorem wordsOfEntry_eq_ok_iff {fields : Fields} {ws : List Value} :
    wordsOfEntry (.table fields) = .ok ws ↔ Holds fields ws := by
  constructor
  · intro h
    rcases listed_or_unlisted fields with ⟨v, hv, listed⟩ | unlisted
    · rw [wordsOfEntry_listed hv listed] at h
      exact .listed hv listed h
    · rw [wordsOfEntry_unlisted unlisted] at h
      obtain ⟨v, hv, h⟩ := Json.bind_eq_ok h
      rw [field_table_eq_ok_iff] at hv
      split at h
      · split at h
        · next hsplit =>
          cases h
          exact .line unlisted hv hsplit
        · cases h
      · cases h
        exact .nothing unlisted hv
      · cases h
  · intro h
    cases h with
    | listed hv listed hws => rw [wordsOfEntry_listed hv listed, hws]
    | line unlisted hv hsplit =>
      rw [wordsOfEntry_unlisted unlisted, field_table_eq_ok_iff.2 hv]
      simp only [Except.bind, hsplit]
    | nothing unlisted hv =>
      rw [wordsOfEntry_unlisted unlisted, field_table_eq_ok_iff.2 hv]
      rfl

/-- A command that is neither a text nor null is the one fault of an entry's words that does not leave it out. -/
theorem wordsOfEntry_eq_error {fields : Fields} (h : wordsOfEntry (.table fields) = .error f) :
    f.marksEntry = true ∨ ∃ v, Unlisted fields ∧ fields.lookup "command" = some v ∧ v ≠ .null ∧
      (∀ s, v ≠ .text s) ∧ f = .shape (.noMember v.kind "read") := by
  rcases listed_or_unlisted fields with ⟨v, hv, listed⟩ | unlisted
  · rw [wordsOfEntry_listed hv listed] at h
    cases v <;> cases h <;> exact .inl rfl
  · rw [wordsOfEntry_unlisted unlisted] at h
    rcases cases_of_bind h with hfield | ⟨v, hv, h⟩
    · exact .inl (Value.marks_of_field hfield)
    · rw [field_table_eq_ok_iff] at hv
      split at h
      · split at h
        · cases h
        · cases h
          exact .inl rfl
      · cases h
      · next hnotext hnonull =>
        cases h
        exact .inr ⟨v, unlisted, hv, hnonull, hnotext, rfl⟩

/-! ## What comes of an entry -/

theorem ofEntry_eq (d : Disk) (entry : Value) :
    ofEntry d entry = (entry.field "directory").bind fun dir => dir.toPath.bind fun directory =>
      (entry.field "file").bind fun file => file.toPath.bind fun path =>
      (wordsOfEntry entry).bind fun arguments => (d.resolveChecked (directory.join path)).bind fun file =>
      .ok { directory, file, arguments } :=
  rfl

/-- An entry gives the command that it records. -/
theorem ofEntry_eq_ok_iff {entry : Value} {c : Command} : ofEntry d entry = .ok c ↔ Records d entry c := by
  constructor
  · intro h
    rw [ofEntry_eq] at h
    obtain ⟨dirValue, hdir, h⟩ := Json.bind_eq_ok h
    obtain ⟨directory, hdirectory, h⟩ := Json.bind_eq_ok h
    obtain ⟨fileValue, hfile, h⟩ := Json.bind_eq_ok h
    obtain ⟨path, hpath, h⟩ := Json.bind_eq_ok h
    obtain ⟨ws, hws, h⟩ := Json.bind_eq_ok h
    obtain ⟨file, hresolved, h⟩ := Json.bind_eq_ok h
    cases h
    obtain ⟨fields, rfl⟩ := Value.exists_table_of_field hdir
    rw [field_table_eq_ok_iff] at hdir hfile
    obtain ⟨dir, rfl, rfl⟩ := Value.toPath_eq_ok_iff.1 hdirectory
    obtain ⟨name, rfl, rfl⟩ := Value.toPath_eq_ok_iff.1 hpath
    exact ⟨fields, dir, name, rfl, hdir, hfile, wordsOfEntry_eq_ok_iff.1 hws, rfl, hresolved⟩
  · rintro ⟨fields, dir, file, rfl, hdir, hfile, hws, hdirectory, hresolved⟩
    rw [ofEntry_eq, field_table_eq_ok_iff.2 hdir, field_table_eq_ok_iff.2 hfile, wordsOfEntry_eq_ok_iff.2 hws]
    simp only [Except.bind, Value.toPath]
    rw [← hdirectory, hresolved]

/-- An entry that does not record a command is left out, unless it ends the reading. -/
theorem ofEntry_eq_error {entry : Value} (h : ofEntry d entry = .error f) :
    f.marksEntry = true ∨ ∃ v, Breaks entry v ∧ f = .shape (.noMember v.kind "read") := by
  rw [ofEntry_eq] at h
  rcases cases_of_bind h with h | ⟨dirValue, hdir, h⟩
  · exact .inl (Value.marks_of_field h)
  rcases cases_of_bind h with h | ⟨directory, hdirectory, h⟩
  · exact .inl (Value.marks_of_toPath h)
  rcases cases_of_bind h with h | ⟨fileValue, hfile, h⟩
  · exact .inl (Value.marks_of_field h)
  rcases cases_of_bind h with h | ⟨path, hpath, h⟩
  · exact .inl (Value.marks_of_toPath h)
  rcases cases_of_bind h with h | ⟨ws, hws, h⟩
  · obtain ⟨fields, rfl⟩ := Value.exists_table_of_field hdir
    rcases wordsOfEntry_eq_error h with marks | ⟨v, unlisted, hv, hnonull, hnotext, rfl⟩
    · exact .inl marks
    · rw [field_table_eq_ok_iff] at hdir hfile
      obtain ⟨dir, rfl, -⟩ := Value.toPath_eq_ok_iff.1 hdirectory
      obtain ⟨name, rfl, -⟩ := Value.toPath_eq_ok_iff.1 hpath
      exact .inr ⟨v, ⟨fields, dir, name, rfl, hdir, hfile, unlisted, hv, hnonull, hnotext⟩, rfl⟩
  rcases cases_of_bind h with h | ⟨file, hresolved, h⟩
  · exact .inl (Failure.marks_of_isValue (Disk.isValue_of_resolveChecked h))
  · cases h

theorem ofEntry_of_breaks {entry v : Value} (breaks : Breaks entry v) :
    ofEntry d entry = .error (.shape (.noMember v.kind "read")) := by
  obtain ⟨fields, dir, file, rfl, hdir, hfile, unlisted, hv, hnonull, hnotext⟩ := breaks
  have hws : wordsOfEntry (.table fields) = .error (.shape (.noMember v.kind "read")) := by
    rw [wordsOfEntry_unlisted unlisted, field_table_eq_ok_iff.2 hv]
    cases v <;> first | rfl | exact absurd rfl hnonull | exact absurd rfl (hnotext _)
  rw [ofEntry_eq, field_table_eq_ok_iff.2 hdir, field_table_eq_ok_iff.2 hfile, hws]
  rfl

end Command

namespace Database

open Command (Breaks)

/-! ## What comes of a list of entries -/

/-- The commands that entries record, in their order. -/
def recorded (d : Disk) (entries : List Value) : List Command :=
  entries.filterMap fun entry => (Command.ofEntry d entry).toOption

/-- Entries that do not end the reading leave it to the others. -/
theorem commandsOf_append {entries : List Value} (unbroken : ∀ e ∈ entries, ∀ v, ¬ Breaks e v) (rest : List Value) :
    commandsOf d (entries ++ rest) = (commandsOf d rest).map (recorded d entries ++ ·) := by
  induction entries with
  | nil => cases h : commandsOf d rest <;> simp [recorded, h, Except.map]
  | cons e entries ih =>
    have tail := ih fun b hb => unbroken b (List.mem_cons_of_mem e hb)
    rw [List.cons_append, commandsOf, tail]
    cases he : Command.ofEntry d e with
    | ok c =>
      simp only [recorded, List.filterMap_cons, he, Except.toOption]
      cases commandsOf d rest <;> rfl
    | error f =>
      have marks : f.marksEntry = true := by
        rcases Command.ofEntry_eq_error he with marks | ⟨v, breaks, -⟩
        · exact marks
        · exact absurd breaks (unbroken e List.mem_cons_self v)
      simp only [recorded, List.filterMap_cons, he, Except.toOption]
      exact if_pos marks

theorem commandsOf_of_unbroken {entries : List Value} (unbroken : ∀ e ∈ entries, ∀ v, ¬ Breaks e v) :
    commandsOf d entries = .ok (recorded d entries) := by
  have h := commandsOf_append (d := d) unbroken []
  rw [List.append_nil] at h
  rw [h]
  show Except.ok (recorded d entries ++ []) = _
  rw [List.append_nil]

theorem commandsOf_of_breaks {before after : List Value} {e v : Value}
    (unbroken : ∀ b ∈ before, ∀ v, ¬ Breaks b v) (breaks : Breaks e v) :
    commandsOf d (before ++ e :: after) = .error (.shape (.noMember v.kind "read")) := by
  rw [commandsOf_append unbroken, commandsOf, Command.ofEntry_of_breaks breaks]
  rfl

/-- Entries either have none among them that ends the reading, or a first one. -/
theorem unbroken_or_breaks (entries : List Value) :
    (∀ e ∈ entries, ∀ v, ¬ Breaks e v) ∨ ∃ before e after v, entries = before ++ e :: after ∧
      (∀ b ∈ before, ∀ v, ¬ Breaks b v) ∧ Breaks e v := by
  induction entries with
  | nil => exact .inl (by simp)
  | cons e entries ih =>
    by_cases breaks : ∃ v, Breaks e v
    · obtain ⟨v, breaks⟩ := breaks
      exact .inr ⟨[], e, entries, v, rfl, by simp, breaks⟩
    · rw [not_exists] at breaks
      rcases ih with unbroken | ⟨before, e', after, v, rfl, unbroken, breaks'⟩
      · exact .inl (List.forall_mem_cons.2 ⟨breaks, unbroken⟩)
      · exact .inr ⟨e :: before, e', after, v, rfl, List.forall_mem_cons.2 ⟨breaks, unbroken⟩, breaks'⟩

end Database

end FixGate
