import FixGate.Proofs.Act.Outcome
import FixGate.Proofs.Compile.Entries
import FixGate.Proofs.Json.Reading

/-!
# Loading a compilation database

What comes of a database file, for whatever bytes stand in it, and what comes of resolving the command of a source
with it. A file that holds a list of entries gives the commands of those that record one. A text that stands for no
value gives no commands, and so does a table or a text in place of the list. But bytes that are no text, numbers,
truth values and null in place of the list, and an entry that ends the reading, are failures, as are the limits of
the reader; and a recorded command may hold an argument that cannot be looked at as one.

* `Database.Gives` : what a file with some bytes gives
* `Database.Due`, `Database.Loadable` : what is due of a file, and of which it is given
* `Database.load_eq_iff`, `Database.load_due_iff` : what loading comes to
* `Command.flags_eq_error` : why the arguments of a command cannot be looked at
* `Database.load_and_resolve` : loading and resolving
-/

namespace FixGate

open Json (SpellsPadded)

variable {d : Disk} {f : Failure} {bytes : List UInt8} {file : Path}

namespace Database

open Command (Breaks)

/-- What a database file with some bytes gives: its commands, nothing where it holds no data, or a failure. -/
inductive Gives (d : Disk) (bytes : List UInt8) : Except Failure (Option (List Command)) → Prop
  | noText : Text.Utf8.decodeStrict bytes = none → Gives d bytes (.error (.undecodable (Text.Utf8.complaint bytes)))
  | limit {s : String} {f : Failure} : Text.Utf8.decodeStrict bytes = some s →
      Json.whole? (Text.unifyLineEnds s) = .error f → Gives d bytes (.error f)
  | noData {s : String} : Text.Utf8.decodeStrict bytes = some s →
      (∀ f, Json.whole? (Text.unifyLineEnds s) ≠ .error f) →
      (∀ v, ¬ SpellsPadded none v (Text.unifyLineEnds s).toList) → Gives d bytes (.ok none)
  | noItems {s : String} {v : Value} : Text.Utf8.decodeStrict bytes = some s →
      SpellsPadded (some Json.depthLimit) v (Text.unifyLineEnds s).toList →
      (∀ entries, v ≠ .list entries) → (∀ fields, v ≠ .table fields) → (∀ t, v ≠ .text t) →
      Gives d bytes (.error (.shape (.noItems v.kind)))
  | names {s : String} {fields : Fields} : Text.Utf8.decodeStrict bytes = some s →
      SpellsPadded (some Json.depthLimit) (.table fields) (Text.unifyLineEnds s).toList → Gives d bytes (.ok (some []))
  | characters {s t : String} : Text.Utf8.decodeStrict bytes = some s →
      SpellsPadded (some Json.depthLimit) (.text t) (Text.unifyLineEnds s).toList → Gives d bytes (.ok (some []))
  | entries {s : String} {entries : List Value} : Text.Utf8.decodeStrict bytes = some s →
      SpellsPadded (some Json.depthLimit) (.list entries) (Text.unifyLineEnds s).toList →
      (∀ e ∈ entries, ∀ v, ¬ Breaks e v) → Gives d bytes (.ok (some (recorded d entries)))
  | broken {s : String} {before after : List Value} {e v : Value} : Text.Utf8.decodeStrict bytes = some s →
      SpellsPadded (some Json.depthLimit) (.list (before ++ e :: after)) (Text.unifyLineEnds s).toList →
      (∀ b ∈ before, ∀ v, ¬ Breaks b v) → Breaks e v → Gives d bytes (.error (.shape (.noMember v.kind "read")))

theorem reaches_of_content (content : d.content file = .ok bytes) : d.reaches file = .ok true := by
  unfold Disk.content at content
  unfold Disk.reaches Disk.lookUp
  cases hl : d.locate file with
  | error f =>
    rw [hl] at content
    cases content
  | ok found => rfl

/-- The commands that a value gives. -/
def commandsOfValue (d : Disk) (v : Value) : Except Failure (Option (List Command)) :=
  v.elements.bind fun entries => (commandsOf d entries).map some

theorem readCommands_of_noText (content : d.content file = .ok bytes)
    (noText : Text.Utf8.decodeStrict bytes = none) :
    readCommands d file = .error (.undecodable (Text.Utf8.complaint bytes)) := by
  have hread : d.readText file = .error (.undecodable (Text.Utf8.complaint bytes)) := by
    simp only [Disk.readText, content, noText]
  simp only [readCommands, reaches_of_content content, hread]
  rfl

theorem readCommands_of_text {s : String} (content : d.content file = .ok bytes)
    (text : Text.Utf8.decodeStrict bytes = some s) :
    readCommands d file = (Json.whole? (Text.unifyLineEnds s)).bind fun o =>
      match o with
      | none => .ok none
      | some v => commandsOfValue d v := by
  have hread : d.readText file = .ok (Text.unifyLineEnds s) := by
    simp only [Disk.readText, content, text]
  simp only [readCommands, reaches_of_content content, hread]
  rfl

/-- A text or the name of a field is no entry, so nothing in place of the list records a command. -/
theorem commandsOf_texts {α : Type} (g : α → String) (xs : List α) :
    commandsOf d (xs.map fun x => .text (g x)) = .ok [] := by
  induction xs with
  | nil => rfl
  | cons x xs ih =>
    rw [List.map_cons, commandsOf]
    exact ih

theorem whole?_of_spells {s : String} {v : Value} (spells : SpellsPadded (some Json.depthLimit) v s.toList) :
    Json.whole? s = .ok (some v) := by
  rcases spells.whole? (by simp) with h | ⟨h, -⟩
  · exact h
  · cases h

theorem readCommands_of_spells {s : String} {v : Value} (content : d.content file = .ok bytes)
    (text : Text.Utf8.decodeStrict bytes = some s)
    (spells : SpellsPadded (some Json.depthLimit) v (Text.unifyLineEnds s).toList) :
    readCommands d file = commandsOfValue d v := by
  rw [readCommands_of_text content text, whole?_of_spells spells]
  rfl

theorem readCommands_of_gives {r : Except Failure (Option (List Command))} (content : d.content file = .ok bytes)
    (gives : Gives d bytes r) : readCommands d file = r := by
  cases gives with
  | noText noText => exact readCommands_of_noText content noText
  | limit text limit =>
    rw [readCommands_of_text content text, limit]
    rfl
  | @noData s text noLimit noValue =>
    rw [readCommands_of_text content text]
    cases h : Json.whole? (Text.unifyLineEnds s) with
    | error f => exact absurd h (noLimit f)
    | ok o =>
      cases o with
      | none => rfl
      | some v => exact absurd (Json.exists_padded_of_whole? h (by simp)) (noValue v)
  | @noItems s v text spells noList noTable noText =>
    rw [readCommands_of_spells content text spells]
    cases v <;> first | rfl | exact absurd rfl (noList _) | exact absurd rfl (noTable _) | exact absurd rfl (noText _)
  | @names s fields text spells =>
    rw [readCommands_of_spells content text spells]
    show (commandsOf d (fields.map fun f => .text f.1)).map some = _
    rw [commandsOf_texts]
    rfl
  | @characters s t text spells =>
    rw [readCommands_of_spells content text spells]
    show (commandsOf d ((Text.pointsOf t).map fun n => .text (String.ofList (Text.ofPoint n)))).map some = _
    rw [commandsOf_texts]
    rfl
  | entries text spells unbroken =>
    rw [readCommands_of_spells content text spells]
    show (commandsOf d _).map some = _
    rw [commandsOf_of_unbroken unbroken]
    rfl
  | broken text spells unbroken breaks =>
    rw [readCommands_of_spells content text spells]
    show (commandsOf d _).map some = _
    rw [commandsOf_of_breaks unbroken breaks]
    rfl

/-- Whatever bytes stand in a file, it gives something. -/
theorem exists_gives (d : Disk) (bytes : List UInt8) : ∃ r, Gives d bytes r := by
  cases text : Text.Utf8.decodeStrict bytes with
  | none => exact ⟨_, .noText text⟩
  | some s =>
    cases h : Json.whole? (Text.unifyLineEnds s) with
    | error f => exact ⟨_, .limit text h⟩
    | ok o =>
      cases o with
      | none => exact ⟨_, .noData text (by simp [h]) (Json.not_padded_of_whole? h)⟩
      | some v =>
        have spells : SpellsPadded (some Json.depthLimit) v (Text.unifyLineEnds s).toList :=
          Json.exists_padded_of_whole? h (fun k hk => by cases hk; exact Nat.le_refl _)
        cases v with
        | list entries =>
          rcases unbroken_or_breaks entries with unbroken | ⟨before, e, after, v, rfl, unbroken, breaks⟩
          · exact ⟨_, .entries text spells unbroken⟩
          · exact ⟨_, .broken text spells unbroken breaks⟩
        | table fields => exact ⟨_, .names text spells⟩
        | text t => exact ⟨_, .characters text spells⟩
        | _ => exact ⟨_, .noItems text spells (by simp) (by simp) (by simp)⟩

theorem gives_iff {r : Except Failure (Option (List Command))} (content : d.content file = .ok bytes) :
    Gives d bytes r ↔ readCommands d file = r := by
  refine ⟨readCommands_of_gives content, ?_⟩
  rintro rfl
  obtain ⟨r, gives⟩ := exists_gives d bytes
  rw [readCommands_of_gives content gives]
  exact gives

/-- What is due of a file with some bytes: the commands of a list of entries that record one, and nothing where no list
of entries stands there. -/
inductive Due (d : Disk) (bytes : List UInt8) : Option (List Command) → Prop
  | noText : Text.Utf8.decodeStrict bytes = none → Due d bytes none
  | noData {s : String} : Text.Utf8.decodeStrict bytes = some s →
      (∀ v, ¬ SpellsPadded none v (Text.unifyLineEnds s).toList) → Due d bytes none
  | noEntries {s : String} {v : Value} : Text.Utf8.decodeStrict bytes = some s →
      SpellsPadded none v (Text.unifyLineEnds s).toList → (∀ entries, v ≠ .list entries) → Due d bytes none
  | entries {s : String} {entries : List Value} : Text.Utf8.decodeStrict bytes = some s →
      SpellsPadded none (.list entries) (Text.unifyLineEnds s).toList → Due d bytes (some (recorded d entries))

/-- Bytes that are a text within the limits of the reader, which stands for no value or for a list of entries none of
which ends the reading. -/
structure Loadable (bytes : List UInt8) (s : String) : Prop where
  text : Text.Utf8.decodeStrict bytes = some s
  within : ∀ f, Json.whole? (Text.unifyLineEnds s) ≠ .error f
  data : (∀ v, ¬ SpellsPadded none v (Text.unifyLineEnds s).toList) ∨
    ∃ entries, SpellsPadded none (.list entries) (Text.unifyLineEnds s).toList ∧ ∀ e ∈ entries, ∀ v, ¬ Breaks e v

/-- A text within the limits of the reader stands for one value at most. -/
theorem eq_of_spells {s : String} {u v : Value} (hu : SpellsPadded (some Json.depthLimit) u s.toList)
    (hv : SpellsPadded none v s.toList) : u = v := by
  rcases hv.whole? (by simp) with h | ⟨-, f, h⟩
  · rw [whole?_of_spells hu] at h
    exact Option.some.inj (Except.ok.inj h)
  · rw [whole?_of_spells hu] at h
    cases h

/-- Commands are due of a list of entries only. -/
theorem not_due_some {s : String} {v : Value} {cs : List Command} (text : Text.Utf8.decodeStrict bytes = some s)
    (spells : SpellsPadded (some Json.depthLimit) v (Text.unifyLineEnds s).toList)
    (noList : ∀ entries, v ≠ .list entries) : ¬ Due d bytes (some cs) := by
  intro due
  generalize ho : some cs = o at due
  cases due with
  | entries text' spells' =>
    obtain rfl := Option.some.inj (text.symm.trans text')
    exact noList _ (eq_of_spells spells spells')
  | _ => cases ho

/-- A file gives what is due of it exactly if its bytes can be loaded. -/
theorem gives_due_iff : (∃ o, Due d bytes o ∧ Gives d bytes (.ok o)) ↔ ∃ s, Loadable bytes s := by
  constructor
  · rintro ⟨o, due, gives⟩
    generalize ho : Except.ok o = r at gives
    cases gives with
    | noText _ => cases ho
    | limit _ _ => cases ho
    | noData text within noValue => exact ⟨_, text, within, .inl noValue⟩
    | noItems _ _ _ _ _ => cases ho
    | names text spells =>
      cases ho
      exact absurd due (not_due_some text spells (by simp))
    | characters text spells =>
      cases ho
      exact absurd due (not_due_some text spells (by simp))
    | entries text spells unbroken =>
      have hread := whole?_of_spells spells
      exact ⟨_, text, by simp [hread], .inr ⟨_, Json.exists_padded_of_whole? hread (by simp), unbroken⟩⟩
    | broken _ _ _ _ => cases ho
  · rintro ⟨s, text, within, noValue | ⟨entries, spells, unbroken⟩⟩
    · exact ⟨none, .noData text noValue, .noData text within noValue⟩
    · have bounded : SpellsPadded (some Json.depthLimit) (.list entries) (Text.unifyLineEnds s).toList := by
        rcases spells.whole? (by simp) with h | ⟨-, f, h⟩
        · exact Json.exists_padded_of_whole? h (fun k hk => by cases hk; exact Nat.le_refl _)
        · exact absurd h (within f)
      exact ⟨_, .entries text spells, .entries text bounded unbroken⟩

theorem load_of_unread {db : Database} (unread : db.commands = none) :
    db.load d = (readCommands d db.file).map fun cs => { db with commands := cs } := by
  unfold load
  rw [unread]
  cases readCommands d db.file <;> rfl

/-- Loading a database that is not read yet comes to what its file gives. -/
theorem load_eq_iff {db : Database} {r : Except Failure Database} (unread : db.commands = none)
    (content : d.content db.file = .ok bytes) :
    db.load d = r ↔ ∃ o, Gives d bytes o ∧ r = o.map fun cs => { db with commands := cs } := by
  rw [load_of_unread unread]
  constructor
  · rintro rfl
    exact ⟨_, (gives_iff content).2 rfl, rfl⟩
  · rintro ⟨o, gives, rfl⟩
    rw [readCommands_of_gives content gives]

/-- What is due of a file is loaded exactly if its bytes can be. -/
theorem load_due_iff {db : Database} (unread : db.commands = none) (content : d.content db.file = .ok bytes) :
    (∃ o, Due d bytes o ∧ db.load d = .ok { db with commands := o }) ↔ ∃ s, Loadable bytes s := by
  rw [← gives_due_iff (d := d)]
  constructor
  · rintro ⟨o, due, hload⟩
    obtain ⟨o', gives, ho⟩ := (load_eq_iff unread content).1 hload
    cases o' with
    | error f => cases ho
    | ok o' =>
      obtain rfl : o = o' := congrArg Database.commands (Except.ok.inj ho)
      exact ⟨o, due, gives⟩
  · rintro ⟨o, due, gives⟩
    exact ⟨o, due, (load_eq_iff unread content).2 ⟨_, gives, rfl⟩⟩

end Database

/-! ## The arguments of a command -/

namespace Command

/-- Why the arguments of a command cannot be looked at: one is no text, or no path can be made of it. -/
inductive Unreadable (c : Command) (args : List Value) : Failure → Prop
  | noText {arg : Value} : arg ∈ args → (∀ s, arg ≠ .text s) →
      Unreadable c args (.shape (.noMember arg.kind "startswith"))
  | noPath {s : String} {fault : PathFault} {reached : Path} : .text s ∈ args →
      (c.directory.join (Path.ofText s)).obstacle? = some (fault, reached) → Unreadable c args (.ofPath fault reached)

theorem Unreadable.mono {c : Command} {args args' : List Value} (sub : args ⊆ args') (h : Unreadable c args f) :
    Unreadable c args' f := by
  cases h with
  | noText harg htext => exact .noText (sub harg) htext
  | noPath harg obstacle => exact .noPath (sub harg) obstacle

theorem unreadable_of_isSource {c : Command} {s : String} {args : List Value} (h : isSource d c s = .error f)
    (harg : .text s ∈ args) : Unreadable c args f := by
  unfold isSource at h
  split at h
  · cases h
  · rcases cases_of_bind h with h | ⟨_, -, h⟩
    · unfold Disk.resolveChecked at h
      split at h
      · next hp =>
        cases h
        exact .noPath harg hp
      · cases h
    · cases h

theorem flagsFrom_eq_error {c : Command} {args : List Value} (h : flagsFrom d c args = .error f) :
    Unreadable c args f := by
  fun_induction flagsFrom d c args with
  | case1 => cases h
  | case2 => cases h
  | case3 output rest ih => exact (ih h).mono fun v hv => by simp [hv]
  | case4 arg rest _ _ _ ih => exact (ih h).mono (List.subset_cons_self _ _)
  | case5 arg rest _ _ _ ih =>
    rcases cases_of_bind h with h | ⟨source, -, h⟩
    · exact unreadable_of_isSource h List.mem_cons_self
    · have hrest : flagsFrom d c rest = .error f := by
        split at h
        · exact h
        · rcases cases_of_bind h with h | ⟨_, -, h⟩
          · exact h
          · cases h
      exact (ih hrest).mono (List.subset_cons_self _ _)
  | case6 arg rest _ _ noText =>
    cases h
    exact .noText List.mem_cons_self noText

/-- The arguments behind the compiler are looked at, unless one of them cannot be. -/
theorem flags_eq_error {c : Command} (h : c.flags d = .error f) : Unreadable c c.arguments.tail f :=
  flagsFrom_eq_error h

end Command

/-! ## Resolving -/

namespace Toolchain

open Database (Gives)

variable {tools : Tools} {project : Option Path} {cache : DatabaseCache} {target : Path} {db : Database}

theorem resolve_eq (hfile : d.resolveChecked file = .ok target)
    (hdb : databaseFor d project cache target = .ok (some db)) :
    ((cFamily tools project cache).resolve d file).2 = (db.load d).bind fun db =>
      (db.commandFor d target).bind fun c =>
        match c with
        | none => .error (.toolchain .noCommand)
        | some c => checkCommand d target c := by
  simp only [resolve, resolveFamily, hfile, hdb]
  cases db.load d with
  | error f => rfl
  | ok db => rfl

theorem mem_of_commandIn {c : Command} {cs : List Command} (h : Database.commandIn target cs = some c) : c ∈ cs := by
  unfold Database.commandIn at h
  rw [Option.or_eq_some_iff] at h
  rcases h with h | ⟨-, h⟩
  · exact List.mem_of_find?_eq_some h
  · exact List.mem_of_find?_eq_some h

/-- Resolving fails with what the database file gives, for want of a command, or for an argument of a recorded
command that cannot be looked at. -/
theorem resolve_eq_error (hfile : d.resolveChecked file = .ok target)
    (hdb : databaseFor d project cache target = .ok (some db)) (unread : db.commands = none)
    (content : d.content db.file = .ok bytes) (reached : target.obstacle? = none)
    (h : ((cFamily tools project cache).resolve d file).2 = .error f) :
    f = .toolchain .noCommand ∨ Gives d bytes (.error f) ∨
      ∃ cs, ∃ c ∈ cs, Gives d bytes (.ok (some cs)) ∧ c.Unreadable c.arguments.tail f := by
  rw [resolve_eq hfile hdb] at h
  rcases cases_of_bind h with h | ⟨loaded, hload, h⟩
  · obtain ⟨o, gives, ho⟩ := (Database.load_eq_iff unread content).1 h
    cases o with
    | error g =>
      cases ho
      exact .inr (.inl gives)
    | ok cs => cases ho
  · obtain ⟨o, gives, ho⟩ := (Database.load_eq_iff unread content).1 hload
    cases o with
    | error g => cases ho
    | ok o =>
      obtain rfl := Except.ok.inj ho
      have hresolved : d.resolveChecked target = .ok (d.resolve target) := by
        unfold Disk.resolveChecked
        rw [reached]
      cases o with
      | none =>
        cases h
        exact .inl rfl
      | some cs =>
        have hcommand : Database.commandFor d { db with commands := some cs } target =
            .ok (Database.commandIn (d.resolve target) cs) := by
          simp only [Database.commandFor, hresolved]
          rfl
        rw [hcommand] at h
        cases hc : Database.commandIn (d.resolve target) cs with
        | none =>
          rw [hc] at h
          cases h
          exact .inl rfl
        | some c =>
          rw [hc] at h
          rcases cases_of_bind (r := c.flags d) h with h | ⟨flags, -, h⟩
          · exact .inr (.inr ⟨cs, c, mem_of_commandIn hc, gives, Command.flags_eq_error h⟩)
          · cases h

theorem resolve_of_gives_error (hfile : d.resolveChecked file = .ok target)
    (hdb : databaseFor d project cache target = .ok (some db)) (unread : db.commands = none)
    (content : d.content db.file = .ok bytes) (gives : Gives d bytes (.error f)) :
    ((cFamily tools project cache).resolve d file).2 = .error f := by
  rw [resolve_eq hfile hdb, (Database.load_eq_iff unread content).2 ⟨_, gives, rfl⟩]
  rfl

end Toolchain

/-! ## Loading and resolving -/

namespace Database

/-- A disk with some bytes where the root directory has its database. -/
def diskOf (bytes : List UInt8) : Disk :=
  ⟨⟨[([fileName], .file bytes)]⟩, []⟩

/-- The database of the root directory, not read yet. -/
def ofRoot : Database :=
  ofFile ((Path.ofText "/").below fileName)

theorem content_ofRoot (bytes : List UInt8) : (diskOf bytes).content ofRoot.file = .ok bytes :=
  rfl

theorem databaseFor_source (bytes : List UInt8) :
    Toolchain.databaseFor (diskOf bytes) none [] (Path.ofText "/w/b.c") = .ok (some ofRoot) :=
  rfl

/-- Two entries of which the first one names no file. -/
def twoEntries : List UInt8 :=
  Text.Utf8.encode
    "[\x7b\"directory\": \"/w\"\x7d, \x7b\"directory\": \"/w\", \"file\": \"a.c\", \"command\": \"cc -O2 a.c\"\x7d]"

end Database

end FixGate
