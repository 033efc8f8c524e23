import FixGate.Proofs.Compile.Loading
import FixGate.Proofs.Compile.Nearest
import Mathlib.Data.List.Induction

/-!
# Databases that are kept

A toolchain keeps the database that a search has found for a directory, or its absence, and a database keeps its
commands once it is loaded. A resolution that finds something kept gives what the search found that was kept, so it
gives what a new toolchain gives wherever the search depends on the directory alone. It does so for paths that are no
directories, unless the search is refused because the path itself is too long to be asked about: something kept for its
directory stands in for the refusal.

* `Toolchain.answer` : what resolving gives, from what a search has found
* `Toolchain.firstSearched?` : the search of which the result is kept for a directory
* `Toolchain.Keeps` : what is kept for each directory
* `Toolchain.after` : a toolchain that has resolved some files
* `Toolchain.resolve_kept` : resolving with what is kept and without
-/

namespace FixGate

variable {d : Disk} {project : Option Path} {f : Failure}

/-! ## Refusals -/

/-- The operating system has refused a request. -/
inductive Failure.IsRefusal : Failure → Prop
  | os (fault : OsFault) (text : String) : IsRefusal (.os fault text)

theorem Failure.isRefusal_refusal (fault : OsFault) (p : Path) : (Failure.refusal fault p).IsRefusal :=
  .os fault _

theorem Json.not_isRefusal_of_whole? {s : String} (h : Json.whole? s = .error f) : ¬ f.IsRefusal := by
  rintro ⟨fault, text⟩
  unfold Json.whole? Json.ifWellFormed at h
  split at h
  · cases h
  · split at h
    · next g hlimit =>
      cases h
      unfold Json.Fault.limit? at hlimit
      split at hlimit <;> cases hlimit
    · cases h

/-- A path that cannot be resolved holds a name that no system call takes, so the system is not asked. -/
theorem Path.not_isRefusal_of_obstacle? {p reached : Path} {fault : PathFault}
    (h : p.obstacle? = some (fault, reached)) : ¬ (Failure.ofPath fault reached).IsRefusal := by
  obtain ⟨n, -, hfault⟩ := Path.exists_of_obstacleFrom h
  unfold Path.nameFault? at hfault
  split_ifs at hfault
  · cases hfault
    nofun
  · cases hfault
    nofun

theorem Disk.not_isRefusal_of_resolveChecked {p : Path} (h : d.resolveChecked p = .error f) : ¬ f.IsRefusal := by
  unfold Disk.resolveChecked at h
  split at h
  · next hobstacle =>
    cases h
    exact Path.not_isRefusal_of_obstacle? hobstacle
  · cases h

theorem Command.Unreadable.not_isRefusal {c : Command} {args : List Value} (h : c.Unreadable args f) :
    ¬ f.IsRefusal := by
  cases h with
  | noText _ _ => nofun
  | noPath _ obstacle => exact Path.not_isRefusal_of_obstacle? obstacle

/-! ## Resolved paths -/

theorem Path.parents_of_names {p : Path} (named : p.names ≠ []) : p.parents = p.parent :: p.parent.parents := by
  have hbelow : p = p.parent.below (p.names.getLast named) := by
    obtain ⟨a, ns⟩ := p
    exact congrArg (Path.mk a) (List.dropLast_concat_getLast named).symm
  conv_lhs => rw [hbelow]
  exact Path.parents_below _ _

/-- The root is a directory, so what is resolved and is none has a name. -/
theorem Disk.names_ne_nil_of_resolveChecked {p target : Path} (h : d.resolveChecked p = .ok target)
    (noDir : d.entryAt target ≠ some .dir) : target.names ≠ [] := by
  intro hnil
  obtain ⟨-, rfl⟩ := Disk.resolveChecked_eq_ok_iff.1 h
  have hroot : d.resolve p = Path.ofLocation [] := congrArg Path.ofLocation hnil
  rw [hroot] at noDir
  exact noDir rfl

/-! ## Loading once -/

namespace Database

variable {db db' : Database}

/-- A database that is loaded stays as it is. -/
theorem load_load (h : db.load d = .ok db') : db'.load d = .ok db' := by
  cases hread : db.commands with
  | some cs =>
    have hsame : db.load d = .ok db := by
      unfold load
      rw [hread]
    obtain rfl : db = db' := Except.ok.inj (hsame.symm.trans h)
    exact h
  | none =>
    have hload := load_of_unread (d := d) hread
    cases hcs : readCommands d db.file with
    | error f =>
      rw [hload, hcs] at h
      cases h
    | ok cs =>
      rw [hload, hcs] at h
      obtain rfl : { db with commands := cs } = db' := Except.ok.inj h
      cases cs with
      | some cs => rfl
      | none =>
        -- nothing was read, so the database is the same as before
        obtain ⟨file, commands⟩ := db
        obtain rfl : commands = none := hread
        rw [hload, hcs]
        rfl

/-- A database as it is kept: loaded, unless that fails. -/
def loaded (d : Disk) (db : Database) : Database :=
  match db.load d with
  | .ok db => db
  | .error _ => db

theorem load_loaded (d : Disk) (db : Database) : (db.loaded d).load d = db.load d := by
  unfold loaded
  cases h : db.load d with
  | ok db' => exact load_load h
  | error f => exact h

theorem loaded_loaded (d : Disk) (db : Database) : (db.loaded d).loaded d = db.loaded d := by
  cases h : db.load d with
  | ok db' =>
    have hloaded : db.loaded d = db' := by
      unfold loaded
      rw [h]
    rw [hloaded]
    unfold loaded
    rw [load_load h]
  | error f =>
    have hloaded : db.loaded d = db := by
      unfold loaded
      rw [h]
    rw [hloaded, hloaded]

theorem Gives.not_isRefusal {bytes : List UInt8} (h : Gives d bytes (.error f)) : ¬ f.IsRefusal := by
  cases h with
  | noText _ => nofun
  | limit _ limit => exact Json.not_isRefusal_of_whole? limit
  | noItems _ _ _ _ _ => nofun
  | broken _ _ _ _ => nofun

/-- Loading a database that stands somewhere is not refused, even where it is a directory. -/
theorem not_isRefusal_of_load (stands : d.Stands db.file) (unread : db.commands = none) (h : db.load d = .error f) :
    ¬ f.IsRefusal := by
  have hread : readCommands d db.file = .error f := by
    rw [load_of_unread unread] at h
    cases hread : readCommands d db.file with
    | error g =>
      rw [hread] at h
      cases h
      rfl
    | ok cs =>
      rw [hread] at h
      cases h
  cases hlocate : d.locate db.file with
  | error fault =>
    unfold Disk.Stands Disk.entryAt at stands
    rw [hlocate] at stands
    exact absurd rfl stands
  | ok found =>
    obtain ⟨l, e⟩ := found
    cases e with
    | file bytes =>
      have content : d.content db.file = .ok bytes := by
        unfold Disk.content
        rw [hlocate]
      exact ((gives_iff content).2 hread).not_isRefusal
    | dir =>
      have hnone : readCommands d db.file = .ok none := by
        simp only [readCommands, Disk.reaches, Disk.lookUp, Disk.readText, Disk.content, hlocate]
        rfl
      cases hnone.symm.trans hread

theorem not_isRefusal_of_commandFor {p : Path} (h : db.commandFor d p = .error f) : ¬ f.IsRefusal := by
  unfold commandFor at h
  split at h
  · cases h
  · rcases cases_of_bind h with h | ⟨target, -, h⟩
    · exact Disk.not_isRefusal_of_resolveChecked h
    · cases h

/-! ## What a search finds, and what it depends on -/

/-- A database that is found stands where it was found, and is not read yet. -/
theorem stands_of_findIn {root : Option Path} {dirs : List Path} (h : findIn d root dirs = .ok (some db)) :
    d.Stands db.file ∧ db.commands = none := by
  induction dirs with
  | nil => cases h
  | cons dir dirs ih =>
    obtain ⟨o, hdir, hrest⟩ := Json.bind_eq_ok h
    cases o with
    | some found =>
      cases hrest
      rw [inDirectory_eq] at hdir
      have hsearched := searched d (placesIn dir)
      generalize (placesIn dir).findM? d.reaches = r at hdir hsearched
      cases hsearched with
      | found _ stands _ =>
        cases hdir
        exact ⟨stands, rfl⟩
      | refused _ _ _ => cases hdir
      | nowhere _ => cases hdir
    | none =>
      simp only at hrest
      split at hrest
      · cases hrest
      · exact ih hrest

theorem stands_of_find {start : Path} {root : Option Path} (h : find d start root = .ok (some db)) :
    d.Stands db.file ∧ db.commands = none := by
  obtain ⟨b, -, hfind⟩ := Json.bind_eq_ok h
  exact stands_of_findIn hfind

/-- What is found for a path that is no directory is found for all such paths beside it that can be asked about. -/
theorem find_beside {p q file other : Path} {root : Option Path} {o : Option Database}
    (hother : d.resolveChecked other = .ok p) (hfile : d.resolveChecked file = .ok q)
    (noDir : d.entryAt p ≠ some .dir) (noDir' : d.entryAt q ≠ some .dir) (hparent : p.parent = q.parent)
    (asked : ¬ d.Overlong q) (hfind : find d p root = .ok o) : find d q root = .ok o := by
  have asked' : ¬ d.Overlong p := by
    intro hlong
    rw [find_of_overlong hlong] at hfind
    cases hfind
  rw [find_of_not_dir asked' noDir, Path.parents_of_names (Disk.names_ne_nil_of_resolveChecked hother noDir),
    hparent] at hfind
  rw [find_of_not_dir asked noDir', Path.parents_of_names (Disk.names_ne_nil_of_resolveChecked hfile noDir'), hfind]

end Database

namespace Toolchain

variable {tools : Tools} {cache : DatabaseCache} {dir file target : Path} {files earlier : List Path}
  {o : Option Database}

/-! ## One resolution -/

/-- What resolving a file gives, from what a search for its database has found. -/
def answer (d : Disk) (target : Path) : Option Database → Except Failure Invocation
  | none => .error (.toolchain .noCommand)
  | some db => (db.load d).bind fun db => (db.commandFor d target).bind fun c =>
      match c with
      | none => .error (.toolchain .noCommand)
      | some c => checkCommand d target c

/-- A database that is kept answers like the one that was found. -/
theorem answer_loaded (d : Disk) (target : Path) (o : Option Database) :
    answer d target (o.map (Database.loaded d)) = answer d target o := by
  cases o with
  | none => rfl
  | some db =>
    show ((db.loaded d).load d).bind _ = (db.load d).bind _
    rw [Database.load_loaded]

theorem resolveFamily_of_error (hfile : d.resolveChecked file = .error f) :
    resolveFamily d project cache file = (cache, .error f) := by
  unfold resolveFamily
  rw [hfile]

theorem resolveFamily_of_databaseFor_error (hfile : d.resolveChecked file = .ok target)
    (hdb : databaseFor d project cache target = .error f) :
    resolveFamily d project cache file = (cache, .error f) := by
  unfold resolveFamily
  rw [hfile]
  simp only [hdb]

theorem databaseFor_of_kept (hkept : cache.lookup target.parent = some o) :
    databaseFor d project cache target = .ok o := by
  unfold databaseFor
  rw [hkept]

theorem databaseFor_of_unkept (hkept : cache.lookup target.parent = none) :
    databaseFor d project cache target = Database.find d target project := by
  unfold databaseFor
  rw [hkept]

/-- What is found is kept for the directory of the file, and gives the answer. -/
theorem resolveFamily_of_databaseFor (hfile : d.resolveChecked file = .ok target)
    (hdb : databaseFor d project cache target = .ok o) :
    resolveFamily d project cache file =
      (keep cache target.parent (o.map (Database.loaded d)), answer d target o) := by
  unfold resolveFamily
  rw [hfile]
  cases o with
  | none => simp only [hdb, Option.map_none, answer]
  | some db =>
    simp only [hdb, Option.map_some, answer, Database.loaded]
    cases db.load d <;> rfl

theorem lookup_keep (cache : DatabaseCache) (dir b : Path) (o : Option Database) :
    (keep cache dir o).lookup b = if b = dir then some o else cache.lookup b := by
  by_cases hb : b = dir
  · subst hb
    simp [keep]
  · have hne : (b == dir) = false := by simpa using hb
    rw [keep, List.lookup_cons, hne, if_neg hb]
    show (cache.filter fun x => x.1 != dir).lookup b = cache.lookup b
    induction cache with
    | nil => rfl
    | cons x cache ih =>
      obtain ⟨k, kept⟩ := x
      by_cases hk : k = dir
      · subst hk
        rw [List.filter_cons_of_neg (by simp), ih, List.lookup_cons, hne]
      · rw [List.filter_cons_of_pos (by simpa using hk), List.lookup_cons, List.lookup_cons, ih]

/-! ## What is kept -/

/-- What the search for the database of a file has found, if the file is one of a directory and the search ends. -/
def searched? (d : Disk) (project : Option Path) (dir file : Path) : Option (Option Database) :=
  match d.resolveChecked file with
  | .ok target => if target.parent = dir then (Database.find d target project).toOption else none
  | .error _ => none

/-- What the first search has found that ends among those for the files of a directory. -/
def firstSearched? (d : Disk) (project : Option Path) (dir : Path) (files : List Path) : Option (Option Database) :=
  files.findSome? (searched? d project dir)

theorem searched?_of_resolved (hfile : d.resolveChecked file = .ok target) :
    searched? d project dir file =
      if target.parent = dir then (Database.find d target project).toOption else none := by
  unfold searched?
  rw [hfile]

theorem searched?_eq_some_iff : searched? d project dir file = some o ↔
    ∃ target, d.resolveChecked file = .ok target ∧ target.parent = dir ∧ Database.find d target project = .ok o := by
  cases hfile : d.resolveChecked file with
  | error f => simp [searched?, hfile]
  | ok target =>
    rw [searched?_of_resolved hfile]
    cases hfind : Database.find d target project with
    | error f => simp [hfind, Except.toOption]
    | ok o' => simp [hfind, Except.toOption]

theorem searched?_of_error (hfile : d.resolveChecked file = .error f) : searched? d project dir file = none := by
  unfold searched?
  rw [hfile]

/-- One resolution leaves what is kept, and adds what its own search finds where nothing is kept for its directory. -/
theorem lookup_resolveFamily (stay : ∀ b kept, cache.lookup b = some kept → kept.map (Database.loaded d) = kept)
    (file dir : Path) : (resolveFamily d project cache file).1.lookup dir =
      (cache.lookup dir).or ((searched? d project dir file).map (Option.map (Database.loaded d))) := by
  cases hfile : d.resolveChecked file with
  | error f => rw [resolveFamily_of_error hfile, searched?_of_error hfile, Option.map_none, Option.or_none]
  | ok target =>
    rw [searched?_of_resolved hfile]
    cases hkept : cache.lookup target.parent with
    | some kept =>
      rw [resolveFamily_of_databaseFor hfile (databaseFor_of_kept hkept), lookup_keep, stay _ _ hkept]
      by_cases hdir : dir = target.parent
      · rw [if_pos hdir, hdir, hkept, Option.some_or]
      · rw [if_neg hdir, if_neg (Ne.symm hdir), Option.map_none, Option.or_none]
    | none =>
      have hdb : databaseFor d project cache target = Database.find d target project := databaseFor_of_unkept hkept
      cases hfind : Database.find d target project with
      | error f =>
        rw [resolveFamily_of_databaseFor_error hfile (hdb.trans hfind)]
        simp [Except.toOption]
      | ok o =>
        rw [resolveFamily_of_databaseFor hfile (hdb.trans hfind), lookup_keep]
        by_cases hdir : dir = target.parent
        · rw [if_pos hdir, if_pos hdir.symm, hdir, hkept, Option.none_or]
          rfl
        · rw [if_neg hdir, if_neg (Ne.symm hdir), Option.map_none, Option.or_none]

/-- What is kept for each directory is what the first search has found that ended, the database loaded. -/
def Keeps (d : Disk) (project : Option Path) (files : List Path) (cache : DatabaseCache) : Prop :=
  ∀ dir, cache.lookup dir = (firstSearched? d project dir files).map (Option.map (Database.loaded d))

theorem Keeps.stay (h : Keeps d project files cache) (b : Path) (kept : Option Database)
    (hkept : cache.lookup b = some kept) : kept.map (Database.loaded d) = kept := by
  obtain ⟨o, -, rfl⟩ := Option.map_eq_some_iff.1 ((h b).symm.trans hkept)
  rw [Option.map_map]
  congr 1
  exact funext (Database.loaded_loaded d)

theorem Keeps.resolveFamily (h : Keeps d project files cache) (file : Path) :
    Keeps d project (files ++ [file]) (resolveFamily d project cache file).1 := by
  intro dir
  have hfirst : firstSearched? d project dir (files ++ [file]) =
      (firstSearched? d project dir files).or (searched? d project dir file) := by
    unfold firstSearched?
    rw [List.findSome?_append]
    cases hsearched : searched? d project dir file <;> simp [hsearched]
  rw [lookup_resolveFamily h.stay, h dir, hfirst, Option.map_or]

/-- A toolchain that has resolved some files, one after another. -/
def after (d : Disk) (t : Toolchain) (files : List Path) : Toolchain :=
  files.foldl (fun t file => (t.resolve d file).1) t

/-- What a toolchain for C and C++ keeps that has resolved some files. -/
theorem exists_after (d : Disk) (tools : Tools) (project : Option Path) (files : List Path) :
    ∃ cache, (cFamily tools project []).after d files = .cFamily tools project cache ∧ Keeps d project files cache := by
  induction files using List.reverseRecOn with
  | nil => exact ⟨[], rfl, fun _ => rfl⟩
  | append_singleton files file ih =>
    obtain ⟨cache, hafter, keeps⟩ := ih
    refine ⟨(resolveFamily d project cache file).1, ?_, keeps.resolveFamily file⟩
    unfold after at hafter ⊢
    rw [List.foldl_append, hafter]
    rfl

/-! ## With what is kept, and without -/

/-- What a toolchain for C and C++ that has resolved some files makes of a file. -/
def resolvedAfter (d : Disk) (tools : Tools) (project : Option Path) (earlier : List Path) (file : Path) :
    Except Failure Invocation :=
  (((cFamily tools project []).after d earlier).resolve d file).2

theorem resolvedAfter_of_error (hfile : d.resolveChecked file = .error f) (earlier : List Path) :
    resolvedAfter d tools project earlier file = .error f := by
  obtain ⟨cache, hafter, -⟩ := exists_after d tools project earlier
  unfold resolvedAfter
  rw [hafter]
  exact congrArg Prod.snd (resolveFamily_of_error hfile)

/-- What was found by the first search that ended for the directory of the file gives the answer, or else what is
found now. -/
theorem resolvedAfter_eq (hfile : d.resolveChecked file = .ok target) (earlier : List Path) :
    resolvedAfter d tools project earlier file =
      match firstSearched? d project target.parent earlier with
      | some o => answer d target o
      | none => (Database.find d target project).bind (answer d target) := by
  obtain ⟨cache, hafter, keeps⟩ := exists_after d tools project earlier
  have hkept := keeps target.parent
  have hresolve : resolvedAfter d tools project earlier file = (resolveFamily d project cache file).2 := by
    unfold resolvedAfter
    rw [hafter]
    rfl
  rw [hresolve]
  cases hfirst : firstSearched? d project target.parent earlier with
  | some o =>
    rw [hfirst] at hkept
    rw [resolveFamily_of_databaseFor hfile (databaseFor_of_kept hkept)]
    exact answer_loaded d target o
  | none =>
    rw [hfirst] at hkept
    have hdb := @databaseFor_of_unkept d project _ _ hkept
    cases hfind : Database.find d target project with
    | error f => rw [resolveFamily_of_databaseFor_error hfile (hdb.trans hfind), Except.bind]
    | ok o => rw [resolveFamily_of_databaseFor hfile (hdb.trans hfind), Except.bind]

theorem firstSearched?_isSome_iff : (firstSearched? d project dir files).isSome ↔
    ∃ p ∈ files, ∃ target o, d.resolveChecked p = .ok target ∧ target.parent = dir ∧
      Database.find d target project = .ok o := by
  unfold firstSearched?
  rw [List.isSome_findSome?, List.any_eq_true]
  simp only [Option.isSome_iff_exists, searched?_eq_some_iff]
  grind

/-- No answer that is made from what a search has found is a refusal. -/
theorem not_isRefusal_of_answer {start : Path} {root : Option Path} (found : Database.find d start root = .ok o)
    (h : answer d target o = .error f) : ¬ f.IsRefusal := by
  cases o with
  | none =>
    cases h
    nofun
  | some db =>
    obtain ⟨stands, unread⟩ := Database.stands_of_find found
    rcases cases_of_bind h with h | ⟨db', -, h⟩
    · exact Database.not_isRefusal_of_load stands unread h
    · rcases cases_of_bind h with h | ⟨c, -, h⟩
      · exact Database.not_isRefusal_of_commandFor h
      · cases c with
        | none =>
          cases h
          nofun
        | some c =>
          rcases cases_of_bind (r := c.flags d) h with h | ⟨flags, -, h⟩
          · exact (Command.flags_eq_error h).not_isRefusal
          · cases h

/-- Whatever a toolchain has resolved before, it makes of a file what the first search that ended for the directory of
the file gives, and what a new toolchain makes of it if there was none. For paths that are no directories this is what a
new toolchain makes of it, unless the path is too long to be asked about, so that a new toolchain passes on the refusal,
and a search for another path in its directory has ended. -/
theorem resolve_kept (d : Disk) (tools : Tools) (project : Option Path) (earlier : List Path) (file : Path) :
    (∀ target, d.resolveChecked file = .ok target →
      resolvedAfter d tools project [] file = (Database.find d target project).bind (answer d target) ∧
      (d.Overlong target → resolvedAfter d tools project [] file = .error (.refusal .nameTooLong target)) ∧
      resolvedAfter d tools project earlier file =
        match firstSearched? d project target.parent earlier with
        | some o => answer d target o
        | none => resolvedAfter d tools project [] file) ∧
    ((∀ p ∈ file :: earlier, ∀ target, d.resolveChecked p = .ok target → d.entryAt target ≠ some .dir) →
      (resolvedAfter d tools project earlier file = resolvedAfter d tools project [] file ↔
        ¬ ∃ target, d.resolveChecked file = .ok target ∧ d.Overlong target ∧
          ∃ p ∈ earlier, ∃ other o, d.resolveChecked p = .ok other ∧ other.parent = target.parent ∧
            Database.find d other project = .ok o)) := by
  have afresh {target : Path} (hfile : d.resolveChecked file = .ok target) :
      resolvedAfter d tools project [] file = (Database.find d target project).bind (answer d target) :=
    resolvedAfter_eq hfile []
  have refused {target : Path} (hfile : d.resolveChecked file = .ok target) (hlong : d.Overlong target) :
      resolvedAfter d tools project [] file = .error (.refusal .nameTooLong target) := by
    rw [afresh hfile, Database.find_of_overlong hlong, Except.bind]
  refine ⟨fun target hfile => ⟨afresh hfile, refused hfile, ?_⟩, fun noDirs => ?_⟩
  · rw [afresh hfile, resolvedAfter_eq hfile]
  · cases hfile : d.resolveChecked file with
    | error f =>
      rw [resolvedAfter_of_error hfile, resolvedAfter_of_error hfile]
      simp
    | ok target =>
      obtain ⟨noDir, noDirs⟩ := List.forall_mem_cons.1 noDirs
      simp only [Except.ok.injEq, exists_eq_left']
      rw [afresh hfile, resolvedAfter_eq hfile, ← firstSearched?_isSome_iff]
      cases hfirst : firstSearched? d project target.parent earlier with
      | none => simp
      | some o =>
        obtain ⟨p, hp, hsome⟩ := List.exists_of_findSome?_eq_some hfirst
        obtain ⟨other, hother, hparent, hfind⟩ := searched?_eq_some_iff.1 hsome
        by_cases hlong : d.Overlong target
        · have differ : answer d target o ≠ .error (.refusal .nameTooLong target) := fun h =>
            not_isRefusal_of_answer hfind h (Failure.isRefusal_refusal _ _)
          rw [Database.find_of_overlong hlong]
          simpa [hlong, Except.bind] using differ
        · rw [Database.find_beside hother hfile (noDirs p hp other hother) (noDir target hfile) hparent hlong hfind]
          simp [hlong, Except.bind]

/-- A disk with a database in a directory, and a source of the database outside of it. -/
def strayDisk : Disk :=
  ⟨⟨[(["src"], .dir), (["src", Database.fileName], .file (Text.Utf8.encode
      "[\x7b\"directory\": \"/\", \"file\": \"main.c\", \"arguments\": [\"cc\", \"main.c\"]\x7d]")),
    (["main.c"], .file [])]⟩, []⟩

/-- After another source of the directory, a source is given the command that a new toolchain gives it. -/
theorem resolve_kept_beside :
    firstSearched? strayDisk (some (Path.ofText "/")) (Path.ofText "/src") [Path.ofText "src/a.c"] =
      some (some (Database.ofFile (Path.ofText "/src/compile_commands.json"))) ∧
    resolvedAfter strayDisk {} (some (Path.ofText "/")) [Path.ofText "src/a.c"] (Path.ofText "src/main.c") =
      resolvedAfter strayDisk {} (some (Path.ofText "/")) [] (Path.ofText "src/main.c") ∧
    ∃ i, resolvedAfter strayDisk {} (some (Path.ofText "/")) [] (Path.ofText "src/main.c") = .ok i ∧
      i.dir = Path.ofText "/" := by
  have hfile : strayDisk.resolveChecked (Path.ofText "src/main.c") = .ok (Path.ofText "/src/main.c") := by rfl
  have hother : strayDisk.resolveChecked (Path.ofText "src/a.c") = .ok (Path.ofText "/src/a.c") := by rfl
  have absent : strayDisk.locate (Path.ofText "/src/main.c") = .error .absent := by rfl
  have noDirs : ∀ p ∈ [Path.ofText "src/main.c", Path.ofText "src/a.c"], ∀ target,
      strayDisk.resolveChecked p = .ok target → strayDisk.entryAt target ≠ some .dir := by
    refine List.forall_mem_cons.2 ⟨?_, List.forall_mem_singleton.2 ?_⟩
    · rintro target htarget
      cases hfile.symm.trans htarget
      decide
    · rintro target htarget
      cases hother.symm.trans htarget
      decide
  refine ⟨by rfl, ((resolve_kept strayDisk {} _ _ _).2 noDirs).2 ?_, exists_of_toOption (by decide +kernel)⟩
  rintro ⟨target, htarget, hlong, -⟩
  cases hfile.symm.trans htarget
  cases absent.symm.trans hlong

/-- After a source beside it, a name of three hundred letters is given no command, where a new toolchain is refused.
After a path that leads nowhere, but that resolves to a directory with a database, a source beside the directory is
given the command of that database, which a new toolchain does not find. -/
theorem not_resolve_kept :
    ((∀ p ∈ [Path.ofLocation [Database.letters 300], Path.ofText "/a.c"], ∀ target,
        (⟨.empty, []⟩ : Disk).resolveChecked p = .ok target → (⟨.empty, []⟩ : Disk).entryAt target ≠ some .dir) ∧
      resolvedAfter ⟨.empty, []⟩ {} (some (Path.ofText "/")) [Path.ofText "/a.c"]
        (Path.ofLocation [Database.letters 300]) = .error (.toolchain .noCommand) ∧
      resolvedAfter ⟨.empty, []⟩ {} (some (Path.ofText "/")) [] (Path.ofLocation [Database.letters 300]) =
        .error (.refusal .nameTooLong (Path.ofLocation [Database.letters 300]))) ∧
    (strayDisk.entryAt (Path.ofText "missing/../src") = none ∧
      strayDisk.entryAt (Path.ofText "main.c") = some (.file []) ∧
      (∃ i, resolvedAfter strayDisk {} (some (Path.ofText "/")) [Path.ofText "missing/../src"] (Path.ofText "main.c") =
        .ok i ∧ i.dir = Path.ofText "/") ∧
      resolvedAfter strayDisk {} (some (Path.ofText "/")) [] (Path.ofText "main.c") =
        .error (.toolchain .noCommand)) := by
  have overlong := Database.overlong_letters (n := 300) ⟨.empty, []⟩ (by decide)
  have hfile : (⟨.empty, []⟩ : Disk).resolveChecked (Path.ofLocation [Database.letters 300]) =
      .ok (Path.ofLocation [Database.letters 300]) := by
    have plain : ∀ n ∈ (Path.ofLocation [Database.letters 300]).names, Path.nameFault? n = none := by
      intro n hn
      rw [List.mem_singleton.1 hn]
      exact Disk.nameFault?_of_ascii (Database.ascii_letters 300) (by simpa using Database.null_not_mem_letters 300)
    rw [Disk.resolveChecked_of_names plain]
    exact congrArg Except.ok (Path.resolve_of_dotless (by simpa using (Database.letters_ne (by decide) 300).symm) [])
  have hother : (⟨.empty, []⟩ : Disk).resolveChecked (Path.ofText "/a.c") = .ok (Path.ofText "/a.c") := by rfl
  refine ⟨⟨?_, ?_, ?_⟩, by decide, by decide, exists_of_toOption (by decide +kernel), ?_⟩
  · refine List.forall_mem_cons.2 ⟨?_, List.forall_mem_singleton.2 ?_⟩
    · rintro target htarget
      cases hfile.symm.trans htarget
      rw [Disk.entryAt_of_overlong overlong]
      simp
    · rintro target htarget
      cases hother.symm.trans htarget
      decide
  · have hparent : (Path.ofLocation [Database.letters 300]).parent = Path.ofLocation [] := rfl
    have hfirst : firstSearched? ⟨.empty, []⟩ (some (Path.ofText "/")) (Path.ofLocation []) [Path.ofText "/a.c"] =
        some none := by rfl
    rw [resolvedAfter_eq hfile, hparent, hfirst]
    rfl
  · rw [resolvedAfter_eq hfile, Database.find_of_overlong overlong]
    rfl
  · rfl

end Toolchain

end FixGate
