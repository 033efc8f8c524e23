import FixGate.Proofs.Compile.Loading
import FixGate.Proofs.Files.Resolved

/-!
# The flags of a recorded command

A recorded command is used again to check a file and to write nothing. What is left of its arguments is told by looking
at each of them in its place: an argument goes if it is an output option or the operand of one, if it asks for an
object file, or if it denotes the source or another file of its name. Whether an argument is an operand is a question
of reading from left to right, since an operand may look like an option itself.

* `keptAt` : the elements of a list that pass a test on them and their places
* `isOperand` : the argument at a place is the operand of an output option
* `Command.WellFormed` : a command whose words are texts that can be looked at
* `Command.flags_eq` : the flags, argument by argument
* `Toolchain.checks_with_recorded_flags` : what the flags are, and the command that checks a file
-/

namespace FixGate

/-! ## Elements that pass a test in their places -/

section KeptAt

variable {α : Type} {keep keep' : Nat → α → Bool} {xs : List α} {x : α}

/-- The elements of a list that pass a test on them and their places, in their order. -/
def keptAt (keep : Nat → α → Bool) (xs : List α) : List α :=
  (xs.zipIdx.filter fun p => keep p.2 p.1).map Prod.fst

theorem keptAt_nil (keep : Nat → α → Bool) : keptAt keep [] = [] :=
  rfl

theorem keptAt_cons (keep : Nat → α → Bool) (x : α) (xs : List α) :
    keptAt keep (x :: xs) =
      if keep 0 x then x :: keptAt (fun i => keep (i + 1)) xs else keptAt (fun i => keep (i + 1)) xs := by
  have shifted : ((xs.zipIdx 1).filter fun p => keep p.2 p.1).map Prod.fst = keptAt (fun i => keep (i + 1)) xs := by
    rw [List.zipIdx_succ, List.filter_map, List.map_map]
    rfl
  unfold keptAt
  rw [List.zipIdx_cons, Nat.zero_add, List.filter_cons]
  split
  · rw [List.map_cons, shifted]
    rfl
  · exact shifted

theorem keptAt_sublist (keep : Nat → α → Bool) (xs : List α) : (keptAt keep xs).Sublist xs := by
  have h := (List.filter_sublist (p := fun p => keep p.2 p.1) (l := xs.zipIdx)).map Prod.fst
  rwa [List.zipIdx_map_fst] at h

theorem exists_kept_of_mem (h : x ∈ keptAt keep xs) : ∃ i, xs[i]? = some x ∧ keep i x = true := by
  obtain ⟨⟨y, i⟩, hy, rfl⟩ := List.mem_map.1 h
  obtain ⟨hmem, hkept⟩ := List.mem_filter.1 hy
  exact ⟨i, List.mem_zipIdx_iff_getElem?.1 hmem, hkept⟩

theorem keptAt_congr (h : ∀ i x, xs[i]? = some x → keep i x = keep' i x) : keptAt keep xs = keptAt keep' xs := by
  unfold keptAt
  congr 1
  apply List.filter_congr
  intro p hp
  exact h p.2 p.1 (List.mem_zipIdx_iff_getElem?.1 hp)

theorem keptAt_of_forall (h : ∀ i x, xs[i]? = some x → keep i x = true) : keptAt keep xs = xs := by
  unfold keptAt
  rw [List.filter_eq_self.2, List.zipIdx_map_fst]
  intro p hp
  exact h p.2 p.1 (List.mem_zipIdx_iff_getElem?.1 hp)

theorem filter_keptAt (p : α → Bool) (keep : Nat → α → Bool) (xs : List α) :
    (keptAt keep xs).filter p = keptAt (fun i x => p x && keep i x) xs := by
  unfold keptAt
  rw [List.filter_map, List.filter_filter]
  rfl

end KeptAt

/-! ## Options and operands -/

/-- An argument looks like an option. -/
def isDashed (arg : String) : Bool :=
  Text.startsWith arg "-"

/-- An argument is an output option, by itself or with its operand. -/
def isOutput (arg : String) : Bool :=
  Text.startsWith arg "-o"

theorem isDashed_of_isOutput {a : String} (h : isOutput a = true) : isDashed a = true := by
  rw [isOutput, Text.startsWith, List.isPrefixOf_iff_prefix] at h
  rw [isDashed, Text.startsWith, List.isPrefixOf_iff_prefix]
  have dash : "-".toList <+: "-o".toList := List.prefix_append _ "o".toList
  exact dash.trans h

/-- The argument at a place is the operand of an output option, reading from left to right: it stands behind one that
is not an operand itself. -/
def isOperand (args : List String) : Nat → Bool
  | 0 => false
  | i + 1 => args[i]? == some "-o" && !isOperand args i

theorem isOperand_cons {a : String} (ha : a ≠ "-o") (args : List String) (i : Nat) :
    isOperand (a :: args) (i + 1) = isOperand args i := by
  induction i with
  | zero => simp [isOperand, ha]
  | succ i ih => rw [isOperand, ih, List.getElem?_cons_succ, isOperand]

/-- The argument behind an output option is its operand, and the reading goes on behind that. -/
theorem isOperand_output (b : String) (args : List String) (i : Nat) :
    isOperand ("-o" :: b :: args) (i + 2) = isOperand args i := by
  induction i with
  | zero => simp [isOperand]
  | succ i ih => rw [isOperand, ih, List.getElem?_cons_succ, List.getElem?_cons_succ, isOperand]

/-- Without output options there are no operands. -/
theorem isOperand_of_forall {args : List String} (h : ∀ a ∈ args, isOutput a = false) (i : Nat) :
    isOperand args i = false := by
  cases i with
  | zero => rfl
  | succ i =>
    have hne : args[i]? ≠ some "-o" := by
      intro hi
      exact absurd (h _ (List.mem_of_getElem? hi)) (by decide)
    simp [isOperand, hne]

namespace Command

variable {d : Disk} {c : Command} {args flags : List String} {a : String}

/-! ## The flags, argument by argument -/

/-- A command with texts for its words. Its directory, and what a word behind the compiler may denote, are paths whose
names can be handed to the system. -/
structure WellFormed (c : Command) (args : List String) : Prop where
  words : c.arguments = args.map .text
  directory : ∀ n ∈ c.directory.names, Path.nameFault? n = none
  names : ∀ a ∈ args.tail, isDashed a = false → ∀ n ∈ (Path.ofText a).names, Path.nameFault? n = none

/-- An argument denotes the source, or another file of its name. -/
def denotesSource (d : Disk) (c : Command) (arg : String) : Bool :=
  !isDashed arg && (d.resolve (c.directory.join (Path.ofText arg)) == c.file || (Path.ofText arg).name == c.file.name)

/-- The argument at a place says how to compile. -/
def isFlagAt (d : Disk) (c : Command) (args : List String) (i : Nat) (arg : String) : Bool :=
  !isOperand args i && !isOutput arg && arg != "-c" && !denotesSource d c arg

theorem isSource_of_dashed (ha : isDashed a = true) : isSource d c a = .ok (denotesSource d c a) := by
  unfold isSource denotesSource
  rw [ha]
  rw [isDashed] at ha
  rw [if_pos ha]
  rfl

theorem isSource_of_names (directory : ∀ n ∈ c.directory.names, Path.nameFault? n = none) (ha : isDashed a = false)
    (names : ∀ n ∈ (Path.ofText a).names, Path.nameFault? n = none) :
    isSource d c a = .ok (denotesSource d c a) := by
  have resolved : d.resolveChecked (c.directory.join (Path.ofText a)) =
      .ok (d.resolve (c.directory.join (Path.ofText a))) := by
    apply Disk.resolveChecked_of_names
    intro n hn
    exact (Path.names_join _ _ n hn).elim (directory n) (names n)
  unfold isSource denotesSource
  rw [ha]
  rw [isDashed] at ha
  simp only [resolved, ha, if_neg Bool.false_ne_true]
  rfl

/-- Of each argument behind the compiler, a well-formed command tells whether it denotes the source. -/
theorem WellFormed.isSource_eq (wellFormed : c.WellFormed args) (ha : a ∈ args.tail) :
    isSource d c a = .ok (denotesSource d c a) := by
  cases hdash : isDashed a with
  | true => exact isSource_of_dashed hdash
  | false => exact isSource_of_names wellFormed.directory hdash (wellFormed.names a ha hdash)

/-- An argument that is no output option by itself is looked at, and the others as if they stood alone. -/
theorem keptAt_isFlagAt_cons (ha : a ≠ "-o") (args : List String) :
    keptAt (isFlagAt d c (a :: args)) (a :: args) =
      if isFlagAt d c (a :: args) 0 a then a :: keptAt (isFlagAt d c args) args
      else keptAt (isFlagAt d c args) args := by
  have later : (fun i => isFlagAt d c (a :: args) (i + 1)) = isFlagAt d c args := by
    funext i x
    rw [isFlagAt, isOperand_cons ha, isFlagAt]
  rw [keptAt_cons, later]

/-- An output option goes with its operand, and behind them the places count anew. -/
theorem keptAt_isFlagAt_output (b : String) (args : List String) :
    keptAt (isFlagAt d c ("-o" :: b :: args)) ("-o" :: b :: args) = keptAt (isFlagAt d c args) args := by
  have option : isFlagAt d c ("-o" :: b :: args) 0 "-o" = false := rfl
  have operand : isFlagAt d c ("-o" :: b :: args) (0 + 1) b = false := rfl
  have later : (fun i => isFlagAt d c ("-o" :: b :: args) (i + 1 + 1)) = isFlagAt d c args := by
    funext i x
    rw [isFlagAt, isOperand_output, isFlagAt]
  rw [keptAt_cons, keptAt_cons, later, option, operand, if_neg Bool.false_ne_true, if_neg Bool.false_ne_true]

/-- An argument that is neither the last output option nor one with an operand is none. -/
theorem ne_output {rest : List Value} (hlast : rest = [] → a = "-o" → False)
    (hnext : ∀ v rest', rest = v :: rest' → a = "-o" → False) : a ≠ "-o" := by
  intro ha
  cases rest with
  | nil => exact hlast rfl ha
  | cons v rest => exact hnext v rest rfl ha

theorem flagsFrom_eq (h : ∀ a ∈ args, isSource d c a = .ok (denotesSource d c a)) :
    flagsFrom d c (args.map .text) = .ok (keptAt (isFlagAt d c args) args) := by
  generalize hvs : args.map Value.text = vs
  fun_induction flagsFrom d c vs generalizing args with
  | case1 => rw [List.map_eq_nil_iff.1 hvs, keptAt_nil]
  | case2 =>
    obtain ⟨a, as, rfl, ha, has⟩ := List.map_eq_cons_iff.1 hvs
    cases ha
    rw [List.map_eq_nil_iff.1 has, keptAt_cons, keptAt_nil]
    rfl
  | case3 output rest ih =>
    obtain ⟨a, as, rfl, ha, has⟩ := List.map_eq_cons_iff.1 hvs
    obtain ⟨b, bs, rfl, -, hbs⟩ := List.map_eq_cons_iff.1 has
    cases ha
    rw [ih (fun a ha => h a (by simp [ha])) hbs, keptAt_isFlagAt_output]
  | case4 arg rest hlast hnext dropped ih =>
    obtain ⟨a, as, rfl, ha, has⟩ := List.map_eq_cons_iff.1 hvs
    cases ha
    have first : isFlagAt d c (arg :: as) 0 arg = false := by
      rcases Bool.or_eq_true_iff.1 dropped with hout | hobject
      · simp [isFlagAt, isOutput, hout]
      · simp [isFlagAt, beq_iff_eq.1 hobject]
    rw [ih (fun a ha => h a (List.mem_cons_of_mem arg ha)) has, keptAt_isFlagAt_cons (ne_output hlast hnext), first,
      if_neg Bool.false_ne_true]
  | case5 arg rest hlast hnext kept ih =>
    obtain ⟨a, as, rfl, ha, has⟩ := List.map_eq_cons_iff.1 hvs
    cases ha
    have first : isFlagAt d c (arg :: as) 0 arg = !denotesSource d c arg := by
      rw [Bool.not_eq_true, Bool.or_eq_false_iff] at kept
      simp [isFlagAt, isOperand, isOutput, kept.1, beq_eq_false_iff_ne.1 kept.2]
    rw [h arg List.mem_cons_self, ih (fun a ha => h a (List.mem_cons_of_mem arg ha)) has,
      keptAt_isFlagAt_cons (ne_output hlast hnext), first]
    cases denotesSource d c arg <;> rfl
  | case6 arg rest _ _ noText =>
    obtain ⟨a, as, rfl, ha, -⟩ := List.map_eq_cons_iff.1 hvs
    exact absurd ha.symm (noText a)

theorem flags_eq (wellFormed : c.WellFormed args) :
    c.flags d = .ok (keptAt (isFlagAt d c args.tail) args.tail) := by
  unfold flags
  rw [wellFormed.words, ← List.map_tail]
  exact flagsFrom_eq fun _ => wellFormed.isSource_eq

/-! ## What the flags are -/

theorem denotesSource_of_dashed (ha : isDashed a = true) : denotesSource d c a = false := by
  unfold denotesSource
  rw [ha]
  rfl

theorem denotesSource_of_name (ha : isDashed a = false) (name : (Path.ofText a).name = c.file.name) :
    denotesSource d c a = true := by
  simp [denotesSource, ha, name]

/-- A flag is no output option and does not ask for an object file, nor does it denote the source. -/
theorem isFlag_of_mem (h : a ∈ keptAt (isFlagAt d c args) args) :
    isOutput a = false ∧ a ≠ "-c" ∧ denotesSource d c a = false := by
  obtain ⟨i, -, hkept⟩ := exists_kept_of_mem h
  simp only [isFlagAt, Bool.and_eq_true, Bool.not_eq_true', bne_iff_ne, ne_eq] at hkept
  exact ⟨hkept.1.1.2, hkept.1.2, hkept.2⟩

/-- Of the arguments that look like options, all are kept but output options, their operands, and the option that asks
for an object file. -/
theorem dashed_flags (d : Disk) (c : Command) (args : List String) :
    (keptAt (isFlagAt d c args) args).filter isDashed =
      keptAt (fun i a => isDashed a && a != "-c" && !isOutput a && !isOperand args i) args := by
  rw [filter_keptAt]
  apply keptAt_congr
  intro i a _
  cases ha : isDashed a with
  | false => rfl
  | true =>
    rw [isFlagAt, denotesSource_of_dashed ha]
    cases isOperand args i <;> cases isOutput a <;> cases a != "-c" <;> rfl

/-- Flags are kept when they are looked at again. -/
theorem flags_flags (wellFormed : c.WellFormed args) (compiler : Value) (hflags : c.flags d = .ok flags) :
    ({ c with arguments := compiler :: flags.map .text } : Command).flags d = .ok flags := by
  rw [flags_eq wellFormed] at hflags
  obtain rfl := Except.ok.inj hflags
  generalize hk : keptAt (isFlagAt d c args.tail) args.tail = kept
  have flag : ∀ a ∈ kept, isOutput a = false ∧ a ≠ "-c" ∧ denotesSource d c a = false := by
    intro a ha
    rw [← hk] at ha
    exact isFlag_of_mem ha
  have source : ∀ a ∈ kept, isSource d c a = .ok (denotesSource d c a) := by
    intro a ha
    rw [← hk] at ha
    exact wellFormed.isSource_eq ((keptAt_sublist _ _).subset ha)
  -- the command has the directory and the file it had, so that its arguments denote what they denoted
  show flagsFrom d { c with arguments := compiler :: kept.map .text } (kept.map .text) = .ok kept
  rw [flagsFrom_eq (c := { c with arguments := compiler :: kept.map .text }) source, keptAt_of_forall]
  intro i a ha
  obtain ⟨houtput, hobject, hsource⟩ := flag a (List.mem_of_getElem? ha)
  have hoperand := isOperand_of_forall (fun b hb => (flag b hb).1) i
  show (!isOperand kept i && !isOutput a && a != "-c" && !denotesSource d c a) = true
  simp [hoperand, houtput, hobject, hsource]

end Command

/-! ## The command of a file -/

namespace Database

variable {target : Path} {cs : List Command} {c : Command}

/-- The command of a file in a list: the first one that compiles the file, or the first one that compiles a file of its
name where none compiles the file itself. -/
inductive Chosen (target : Path) (cs : List Command) (c : Command) : Prop
  | byPath {before after : List Command} : cs = before ++ c :: after → c.file = target →
      (∀ b ∈ before, b.file ≠ target) → Chosen target cs c
  | byName {before after : List Command} : cs = before ++ c :: after → c.file.name = target.name →
      (∀ b ∈ cs, b.file ≠ target) → (∀ b ∈ before, b.file.name ≠ target.name) → Chosen target cs c

theorem chosen_of_commandIn (h : commandIn target cs = some c) : Chosen target cs c := by
  unfold commandIn at h
  rw [Option.or_eq_some_iff] at h
  rcases h with h | ⟨hnone, h⟩
  · obtain ⟨hc, before, after, rfl, hbefore⟩ := List.find?_eq_some_iff_append.1 h
    exact .byPath rfl (beq_iff_eq.1 hc) (by simpa using hbefore)
  · obtain ⟨hc, before, after, rfl, hbefore⟩ := List.find?_eq_some_iff_append.1 h
    exact .byName rfl (beq_iff_eq.1 hc) (by simpa using List.find?_eq_none.1 hnone) (by simpa using hbefore)

theorem chosen_of_commandFor {d : Disk} {db : Database} (resolved : d.resolve target = target)
    (h : db.commandFor d target = .ok (some c)) : ∃ cs, db.commands = some cs ∧ Chosen target cs c := by
  unfold commandFor at h
  cases hcs : db.commands with
  | none =>
    rw [hcs] at h
    cases h
  | some cs =>
    rw [hcs] at h
    cases htarget : d.resolveChecked target with
    | error f =>
      rw [htarget] at h
      cases h
    | ok target' =>
      rw [htarget] at h
      obtain rfl := resolved.symm.trans (Disk.resolveChecked_eq_ok_iff.1 htarget).2
      exact ⟨cs, rfl, chosen_of_commandIn (Except.ok.inj h)⟩

theorem Chosen.name_eq (h : Chosen target cs c) : c.file.name = target.name := by
  cases h with
  | byPath _ hfile _ => rw [hfile]
  | byName _ hname _ _ => exact hname

end Database

/-! ## Checking with recorded flags -/

namespace Toolchain

open Command (isFlagAt denotesSource denotesSource_of_name)

variable {d : Disk} {file target : Path} {args : List String}

theorem isDashed_text_ofLocation (l : Location) : isDashed (Path.ofLocation l).text = false := by
  have slash : (Path.ofLocation l).text.toList = '/' :: ("/".intercalate l).toList := by
    simp [Path.text, Path.ofLocation, Anchor.text]
  rw [isDashed, Text.startsWith, slash]
  rfl

theorem ofText_text_target (normal : file.Normal) (here : (Path.ofLocation d.here).Normal)
    (h : d.resolveChecked file = .ok target) : Path.ofText target.text = target := by
  obtain ⟨-, rfl⟩ := Disk.resolveChecked_eq_ok_iff.1 h
  exact Path.ofText_text (Path.normal_resolve normal here)

theorem isDashed_text_target (h : d.resolveChecked file = .ok target) : isDashed target.text = false := by
  obtain ⟨-, rfl⟩ := Disk.resolveChecked_eq_ok_iff.1 h
  exact isDashed_text_ofLocation _

/-- The arguments of a check behind the compiler: some flags, the file, and the option to write nothing. -/
structure Checks (target : Path) (checked : List String) : Prop where
  writesNothing : ∀ a ∈ checked, a ≠ "-c" ∧ isOutput a = false
  once : checked.count target.text = 1
  alone : ∀ a ∈ checked, isDashed a = false → (Path.ofText a).name = target.name → a = target.text
  ending : [target.text, "-fsyntax-only"] <:+ checked

theorem checks_flags {c : Command} (read : Path.ofText target.text = target) (dashless : isDashed target.text = false)
    (name : c.file.name = target.name) :
    Checks target (keptAt (isFlagAt d c args) args ++ [target.text, "-fsyntax-only"]) := by
  have flag : ∀ a ∈ keptAt (isFlagAt d c args) args, isOutput a = false ∧ a ≠ "-c" ∧ denotesSource d c a = false :=
    fun _ => Command.isFlag_of_mem
  have foreign : ∀ a ∈ keptAt (isFlagAt d c args) args, isDashed a = false → (Path.ofText a).name ≠ target.name := by
    intro a ha hdash hname
    have source := denotesSource_of_name (d := d) hdash (hname.trans name.symm)
    rw [(flag a ha).2.2] at source
    cases source
  have absent : target.text ∉ keptAt (isFlagAt d c args) args := by
    intro h
    exact foreign _ h dashless (by rw [read])
  have ne : ∀ a, isDashed a = true → a ≠ target.text := by
    rintro a ha rfl
    rw [dashless] at ha
    cases ha
  refine ⟨?_, ?_, ?_, List.suffix_append _ _⟩
  · intro a ha
    rcases List.mem_append.1 ha with ha | ha
    · exact ⟨(flag a ha).2.1, (flag a ha).1⟩
    · rcases List.mem_cons.1 ha with rfl | ha
      · refine ⟨(ne "-c" rfl).symm, ?_⟩
        cases houtput : isOutput target.text with
        | false => rfl
        | true => exact absurd rfl (ne _ (isDashed_of_isOutput houtput))
      · rw [List.mem_singleton.1 ha]
        decide
  · rw [List.count_append, List.count_eq_zero.2 absent, List.count_cons_self,
      List.count_eq_zero.2 fun h => ne "-fsyntax-only" rfl (List.mem_singleton.1 h).symm]
  · intro a ha hdash hname
    rcases List.mem_append.1 ha with ha | ha
    · exact absurd hname (foreign a ha hdash)
    · rcases List.mem_cons.1 ha with rfl | ha
      · rfl
      · rw [List.mem_singleton.1 ha] at hdash
        cases hdash

end Toolchain

/-- The flags of a recorded command are some of its arguments in their order. Of those that look like options, they are
all but the output options, what stands behind one as its operand, and the option that asks for an object file; and the
flags of the compiler with these flags are these flags. A file with a command in the database, by its path or else by
its name, is checked with the flags of that command: nothing that is passed writes an output or asks for an object
file, and the file stands there once, at the end, with no other argument that could be a source of its name. -/
theorem Toolchain.checks_with_recorded_flags {d : Disk} (here : (Path.ofLocation d.here).Normal) {c : Command}
    {args : List String} (wellFormed : c.WellFormed args) :
    ∃ flags, c.flags d = .ok flags ∧ flags.Sublist args.tail ∧
      flags.filter isDashed =
        keptAt (fun i a => isDashed a && a != "-c" && !isOutput a && !isOperand args.tail i) args.tail ∧
      ({ c with arguments := c.compiler :: flags.map .text } : Command).flags d = .ok flags ∧
      ∀ (tools : Tools) (project : Option Path) (cache : DatabaseCache) (file target : Path) (db loaded : Database),
        file.Normal → d.resolveChecked file = .ok target → databaseFor d project cache target = .ok (some db) →
        db.load d = .ok loaded → loaded.commandFor d target = .ok (some c) →
        (∃ cs, loaded.commands = some cs ∧ Database.Chosen target cs c) ∧
        ((cFamily tools project cache).resolve d file).2 =
          .ok ⟨c.compiler :: (flags ++ [target.text, "-fsyntax-only"]).map .text, c.directory⟩ ∧
        Checks target (flags ++ [target.text, "-fsyntax-only"]) := by
  have hflags := Command.flags_eq (d := d) wellFormed
  refine ⟨_, hflags, keptAt_sublist _ _, Command.dashed_flags d c args.tail,
    Command.flags_flags wellFormed c.compiler hflags, ?_⟩
  intro tools project cache file target db loaded normal resolved hdb hload hcommand
  obtain ⟨cs, hcs, chosen⟩ := Database.chosen_of_commandFor (Disk.resolve_of_resolveChecked resolved) hcommand
  refine ⟨⟨cs, hcs, chosen⟩, ?_, ?_⟩
  · rw [resolve_eq resolved hdb, hload]
    simp only [Except.bind, hcommand, checkCommand, hflags]
    simp [bind, Except.bind, pure, Except.pure]
  · exact checks_flags (ofText_text_target normal here resolved) (isDashed_text_target resolved) chosen.name_eq

namespace Toolchain

/-- Words of which one stands behind an output option as its operand, though it asks for an object file. -/
def buildWords : List String :=
  ["cc", "-Wall", "-o", "-c", "-oa.o", "-DNAME=a.c", "-c", "a.c", "../w/a.c", "b.c"]

/-- The command with these words, of a file on an empty disk. -/
def build : Command :=
  ⟨Path.ofText "/w", Path.ofText "/w/a.c", buildWords.map .text⟩

/-- A database that has been read, with this command only. -/
def buildDatabase : Database :=
  ⟨Path.ofText "/w/compile_commands.json", some [build]⟩

theorem wellFormed_build : build.WellFormed buildWords where
  words := rfl
  directory := by decide +kernel
  names := by decide +kernel

/-- Three of these words are flags, with which the file is checked, and so is another one of its name. -/
theorem checks_with_build_flags :
    build.flags ⟨⟨[]⟩, []⟩ = .ok ["-Wall", "-DNAME=a.c", "b.c"] ∧
    ∀ place ∈ ["/w", "/v"], ∃ checked : List String,
      ((cFamily {} none [(Path.ofText place, some buildDatabase)]).resolve ⟨⟨[]⟩, []⟩
        ((Path.ofText place).below "a.c")).2 = .ok ⟨.text "cc" :: checked.map .text, Path.ofText "/w"⟩ ∧
      Checks ((Path.ofText place).below "a.c") checked := by
  obtain ⟨flags, hflags, -, -, -, resolves⟩ :=
    checks_with_recorded_flags (d := ⟨⟨[]⟩, []⟩) (fun _ h => absurd h List.not_mem_nil) wellFormed_build
  have recorded : build.flags ⟨⟨[]⟩, []⟩ = .ok ["-Wall", "-DNAME=a.c", "b.c"] := rfl
  obtain rfl := Except.ok.inj (hflags.symm.trans recorded)
  refine ⟨recorded, ?_⟩
  intro place hplace
  rcases List.mem_cons.1 hplace with rfl | hplace
  · obtain ⟨-, resolved, checks⟩ := resolves {} none [(Path.ofText "/w", some buildDatabase)]
      (Path.ofText "/w/a.c") (Path.ofText "/w/a.c") buildDatabase buildDatabase
      (Path.normal_ofText _) rfl rfl rfl rfl
    exact ⟨_, resolved, checks⟩
  · rw [List.mem_singleton.1 hplace]
    obtain ⟨-, resolved, checks⟩ := resolves {} none [(Path.ofText "/v", some buildDatabase)]
      (Path.ofText "/v/a.c") (Path.ofText "/v/a.c") buildDatabase buildDatabase
      (Path.normal_ofText _) rfl rfl rfl rfl
    exact ⟨_, resolved, checks⟩

end Toolchain

end FixGate
