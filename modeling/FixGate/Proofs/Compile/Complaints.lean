import FixGate.Compile.Toolchain
import FixGate.Proofs.Files.Endings
import FixGate.Proofs.Text.Strip
import FixGate.Proofs.Text.Within
import Mathlib.Algebra.Group.Nat.Defs

/-!
# Complaints as a compiler prints them

A compiler of the C family prints a complaint as `file:line:column: error: message` on a line of its own, among lines
of other kinds. A line that is no complaint could be taken for the front of one only together with what stands behind
its end, since blanks include line ends; but what stands there does not begin with the word for a kind. So reading
what was printed gives the complaints, each with its own message, and in their order. Only the length of their
numbers is bounded.

* `Complaint`, `Complaint.printed` : a complaint, and how it is printed
* `PrintedLine` : a complaint or another line
* `Diagnostic.Heralds` : behind blanks stands the word for a kind of complaint
* `Diagnostic.familyLines_printed` : the complaints that are read in lines
* `Toolchain.complaints_read` : reading the output of a compiler
-/

namespace FixGate

/-! ## Complaints and lines -/

/-- What a compiler complains about. -/
structure Complaint where
  file : String
  line : Nat
  column : Nat
  isFatal : Bool
  message : String

namespace Complaint

/-- The word for the kind of a complaint. -/
def kind (c : Complaint) : String :=
  if c.isFatal then "fatal error" else "error"

/-- A complaint as it is printed. -/
def printed (c : Complaint) : String :=
  s!"{c.file}:{c.line}:{c.column}: {c.kind}: {c.message}"

/-- A complaint that can be told apart from other lines: its file has a name that fits before a colon and is no kind,
and its message is one line without blanks at its ends. -/
structure WellFormed (c : Complaint) : Prop where
  named : c.file ≠ ""
  plain : ∀ x ∈ c.file.toList, x ≠ ':' ∧ x ≠ '\n'
  noKind : Text.stripLeftChars c.file.toList ≠ "error".toList ∧
    Text.stripLeftChars c.file.toList ≠ "fatal error".toList
  filled : c.message ≠ ""
  oneLine : '\n' ∉ c.message.toList
  stripped : Text.strip c.message = c.message

/-- The numbers of a complaint are short enough to be read. -/
def Readable (c : Complaint) : Prop :=
  c.line < 10 ^ Text.digitLimit ∧ c.column < 10 ^ Text.digitLimit

/-- A complaint as a diagnostic. -/
def diagnostic (c : Complaint) : Diagnostic :=
  ⟨.text c.file, c.line, c.column, .text c.message, .text "error"⟩

/-- The failure to read a number that is too long. -/
def overlong (n : Nat) : Failure :=
  .value (.ofInteger (toString n) (.tooLong (toString n).length))

/-- The failure to read a complaint: that of its line, unless that one is short enough. -/
def fault (c : Complaint) : Failure :=
  if c.line < 10 ^ Text.digitLimit then overlong c.column else overlong c.line

/-- A complaint as it stands in the output, its numbers in digits. -/
def written (c : Complaint) : Diagnostic.Written :=
  ⟨c.file, Nat.toDigits 10 c.line, Nat.toDigits 10 c.column, c.message⟩

end Complaint

/-- A line that a compiler prints: a complaint, or another line. -/
inductive PrintedLine where
  | complaint (c : Complaint)
  | other (text : String)

namespace PrintedLine

/-- The text of a line. -/
def text : PrintedLine → String
  | complaint c => c.printed
  | other text => text

/-- The complaint on a line. -/
def complaint? : PrintedLine → Option Complaint
  | complaint c => some c
  | other _ => none

/-- A complaint that can be told apart, or one line that does not hold the word for a kind. -/
def WellFormed : PrintedLine → Prop
  | complaint c => c.WellFormed
  | other text => '\n' ∉ text.toList ∧ ¬ Within "error:" text

end PrintedLine

/-! ## The parts of a line -/

namespace Diagnostic

variable {cs ds rest tail after : List Char} {c : Complaint} {w : Written}

theorem skipWord_append (word : String) (cs : List Char) : skipWord word (word.toList ++ cs) = some cs := by
  rw [skipWord, if_pos (List.isPrefixOf_iff_prefix.2 (List.prefix_append _ _)), ← String.length_toList, List.drop_left]

theorem skipWord_eq_some_iff {word : String} : skipWord word cs = some rest ↔ cs = word.toList ++ rest := by
  constructor
  · intro h
    unfold skipWord at h
    split at h
    · next hword =>
      obtain ⟨more, rfl⟩ := List.isPrefixOf_iff_prefix.1 hword
      rw [← String.length_toList, List.drop_left] at h
      rw [Option.some.inj h]
    · cases h
  · rintro rfl
    exact skipWord_append word rest

theorem readNumber_append (digits : ∀ d ∈ ds, Text.isDecimal d = true) (filled : ds ≠ [])
    (stop : ∀ d ∈ cs.head?, Text.isDecimal d = false) : readNumber (ds ++ cs) = some (ds, cs) := by
  rw [readNumber, takeWhile_append_stop digits stop, dropWhile_append_stop digits stop]
  cases ds with
  | nil => exact absurd rfl filled
  | cons d ds => rfl

theorem readNumber_eq_some (h : readNumber cs = some (ds, rest)) :
    cs = ds ++ rest ∧ ∀ d ∈ ds, Text.isDecimal d = true := by
  unfold readNumber at h
  cases hds : cs.takeWhile Text.isDecimal with
  | nil =>
    rw [hds] at h
    cases h
  | cons d digits =>
    rw [hds] at h
    obtain ⟨rfl, rfl⟩ := Prod.mk.inj (Option.some.inj h)
    rw [← hds]
    exact ⟨List.takeWhile_append_dropWhile.symm, fun d hd => List.mem_takeWhile_imp hd⟩

/-! ## Where a complaint could begin -/

/-- Behind blanks stands the word for a kind of complaint. -/
def Heralds (cs : List Char) : Prop :=
  "error:".toList <+: Text.stripLeftChars cs ∨ "fatal error:".toList <+: Text.stripLeftChars cs

/-- What is read on a line begins on it, and the word for a kind stands behind that. -/
theorem exists_front_of_familyLine (h : familyLine cs = some (w, rest)) :
    ∃ front after, cs = front ++ after ∧ '\n' ∉ front ∧ Heralds after := by
  unfold familyLine at h
  generalize hname : cs.takeWhile (fun c => c != ':' && c != '\n') = name at h
  have hcs : cs = name ++ cs.dropWhile (fun c => c != ':' && c != '\n') := by
    rw [← hname, List.takeWhile_append_dropWhile]
  have hfeed : '\n' ∉ name := by
    intro hmem
    rw [← hname] at hmem
    exact absurd (List.mem_takeWhile_imp hmem) (by decide)
  have digits {ds : List Char} (hds : ∀ d ∈ ds, Text.isDecimal d = true) : '\n' ∉ ds := by
    intro hmem
    exact absurd (hds _ hmem) (by decide)
  simp only at h
  split at h
  · cases h
  · obtain ⟨r₁, h₁, h⟩ := Option.bind_eq_some_iff.1 h
    obtain ⟨⟨line, r₂⟩, h₂, h⟩ := Option.bind_eq_some_iff.1 h
    obtain ⟨r₃, h₃, h⟩ := Option.bind_eq_some_iff.1 h
    obtain ⟨⟨column, r₄⟩, h₄, h⟩ := Option.bind_eq_some_iff.1 h
    obtain ⟨r₅, h₅, h⟩ := Option.bind_eq_some_iff.1 h
    obtain ⟨r₆, h₆, -⟩ := Option.bind_eq_some_iff.1 h
    obtain ⟨rfl, hline⟩ := readNumber_eq_some h₂
    obtain ⟨rfl, hcolumn⟩ := readNumber_eq_some h₄
    rw [skipWord_eq_some_iff] at h₁ h₃ h₅
    simp only at h₃ h₅
    refine ⟨name ++ ":".toList ++ line ++ ":".toList ++ column ++ ":".toList, r₅, ?_, ?_, ?_⟩
    · rw [hcs, h₁, h₃, h₅]
      simp
    · simp [hfeed, digits hline, digits hcolumn]
    · rcases Option.or_eq_some_iff.1 h₆ with hfatal | ⟨-, herror⟩
      · exact .inr ⟨_, (skipWord_eq_some_iff.1 hfatal).symm⟩
      · exact .inl ⟨_, (skipWord_eq_some_iff.1 herror).symm⟩

/-- What has a line end behind it announces a complaint only if it holds the word itself, or what is behind it does. -/
theorem infix_or_heralds (feed : ∀ x ∈ tail.head?, x = '\n') (h : Heralds (cs ++ tail)) :
    "error:".toList <:+: cs ∨ Heralds tail := by
  by_cases blank : (cs.dropWhile Text.isBlank).isEmpty
  · -- all blank, and what announces it stands behind
    have strip : Text.stripLeftChars (cs ++ tail) = Text.stripLeftChars tail := by
      rw [Text.stripLeftChars, List.dropWhile_append, if_pos blank, Text.stripLeftChars]
    rw [Heralds, strip] at h
    exact .inr h
  · left
    have strip : Text.stripLeftChars (cs ++ tail) = Text.stripLeftChars cs ++ tail := by
      rw [Text.stripLeftChars, List.dropWhile_append, if_neg blank, Text.stripLeftChars]
    have suffix : Text.stripLeftChars cs <:+ cs := List.dropWhile_suffix _
    have front {word : List Char} (hword : '\n' ∉ word) (h : word <+: Text.stripLeftChars cs ++ tail) :
        word <:+: cs := by
      cases tail with
      | nil =>
        rw [List.append_nil] at h
        exact h.isInfix.trans suffix.isInfix
      | cons x tail =>
        obtain rfl := feed x rfl
        exact ((Within.prefix_append_cons_iff hword _ _).1 h).isInfix.trans suffix.isInfix
    rw [Heralds, strip] at h
    rcases h with h | h
    · exact front (by decide) h
    · have error_fatal : "error:".toList <:+: "fatal error:".toList := by decide
      exact error_fatal.trans (front (by decide) h)

/-- No complaint is read where the word for a kind does not stand, nor is announced behind the end of the line. -/
theorem familyLine_eq_none (feed : ∀ x ∈ tail.head?, x = '\n') (wordless : ¬ "error:".toList <:+: cs)
    (quiet : ¬ Heralds tail) : familyLine (cs ++ tail) = none := by
  cases h : familyLine (cs ++ tail) with
  | none => rfl
  | some r =>
    obtain ⟨front, after, hcs, hfront, heralds⟩ := exists_front_of_familyLine h
    rcases List.append_eq_append_iff.1 hcs with ⟨as, rfl, rfl⟩ | ⟨bs, rfl, rfl⟩
    · cases as with
      | nil => exact absurd heralds quiet
      | cons x as =>
        obtain rfl := feed x rfl
        exact absurd (List.mem_append_right _ List.mem_cons_self) hfront
    · rcases infix_or_heralds feed heralds with h | h
      · exact absurd (h.trans (List.suffix_append _ _).isInfix) wordless
      · exact absurd h quiet

/-- A name before a colon that is no kind announces nothing. -/
theorem not_heralds_of_named (plain : ':' ∉ cs) (noKind : Text.stripLeftChars cs ≠ "error".toList)
    (notFatal : Text.stripLeftChars cs ≠ "fatal error".toList) : ¬ Heralds (cs ++ ':' :: rest) := by
  have kinds {word : List Char} (hword : ':' ∉ word) (hfilled : word ≠ []) (hne : Text.stripLeftChars cs ≠ word) :
      ¬ word ++ [':'] <+: Text.stripLeftChars (cs ++ ':' :: rest) := by
    rintro ⟨more, h⟩
    rw [Text.stripLeftChars, List.dropWhile_append, List.append_assoc, List.singleton_append] at h
    have hcs : ':' ∉ cs.dropWhile Text.isBlank := by
      intro hmem
      exact plain ((List.dropWhile_suffix _).subset hmem)
    split at h
    · rw [List.dropWhile_cons_of_neg (by decide)] at h
      exact hfilled (eq_of_append_cons hword List.not_mem_nil h)
    · exact hne (eq_of_append_cons hword hcs h).symm
  rintro (h | h)
  · exact kinds (by decide) (by decide) noKind h
  · exact kinds (by decide) (by decide) notFatal h

/-! ## Reading what is printed -/

theorem digitValue?_of_isDigit {x : Char} (h : x.isDigit = true) : Text.digitValue? x = some (x.toNat - '0'.toNat) := by
  have bound : x.toNat ≤ 57 := by
    simp only [Char.isDigit, Bool.and_eq_true, decide_eq_true_eq] at h
    exact h.2
  have ascii : x.toNat < 128 := Nat.lt_of_le_of_lt bound (by decide)
  rw [Text.digitValue?, if_pos ascii, if_pos h]

theorem isDecimal_of_mem_toDigits {x : Char} {n : Nat} (h : x ∈ Nat.toDigits 10 n) : Text.isDecimal x = true := by
  rw [Text.isDecimal, digitValue?_of_isDigit (Nat.isDigit_of_mem_toDigits (by decide) (Nat.le_refl 10) h)]
  rfl

theorem readNumber_toDigits (n : Nat) (rest : List Char) :
    readNumber (Nat.toDigits 10 n ++ ':' :: rest) = some (Nat.toDigits 10 n, ':' :: rest) := by
  apply readNumber_append
  · intro d hd
    exact isDecimal_of_mem_toDigits hd
  · exact Nat.toDigits_ne_nil
  · rintro d ⟨⟩
    decide

/-- A message that begins and ends without blanks is read up to the end of its line. -/
theorem readMessage_append {message : String} (filled : message ≠ "") (oneLine : '\n' ∉ message.toList)
    (stripped : Text.strip message = message) (feed : ∀ x ∈ tail.head?, x = '\n') :
    readMessage (' ' :: message.toList ++ tail) = (message, tail) := by
  have hstrip : Text.stripLeftChars (' ' :: message.toList ++ tail) = message.toList ++ tail := by
    rw [Text.stripLeftChars, List.cons_append, List.dropWhile_cons_of_pos (by decide)]
    apply dropWhile_of_stop
    intro x hx
    cases hmessage : message.toList with
    | nil => exact absurd (String.toList_eq_nil_iff.1 hmessage) filled
    | cons y ys =>
      rw [hmessage] at hx
      obtain rfl := Option.some.inj hx
      exact Text.head_of_stripped stripped y (by rw [hmessage]; rfl)
  have line : ∀ x ∈ message.toList, (x != '\n') = true := by
    intro x hx
    simpa using ne_of_mem_of_not_mem hx oneLine
  have stop : ∀ x ∈ tail.head?, (x != '\n') = false := by
    intro x hx
    simp [feed x hx]
  rw [readMessage, hstrip, takeWhile_append_stop line stop, dropWhile_append_stop line stop]
  exact congrArg (·, tail) stripped

/-- The characters of a complaint as it is printed. -/
theorem toList_printed (c : Complaint) :
    c.printed.toList = c.file.toList ++ ':' :: (Nat.toDigits 10 c.line ++ ':' :: (Nat.toDigits 10 c.column ++
      ':' :: ' ' :: (c.kind.toList ++ ':' :: ' ' :: c.message.toList))) := by
  have parts : c.printed = c.file ++ ":" ++ toString c.line ++ ":" ++ toString c.column ++ ": " ++ c.kind ++ ": " ++
      c.message := rfl
  rw [parts]
  simp

theorem familyLine_printed (wellFormed : c.WellFormed) (feed : ∀ x ∈ tail.head?, x = '\n') :
    familyLine (c.printed.toList ++ tail) = some (c.written, tail) := by
  have name : ∀ x ∈ c.file.toList, (x != ':' && x != '\n') = true := by
    intro x hx
    simpa using wellFormed.plain x hx
  have colon (cs : List Char) : ∀ x ∈ (':' :: cs).head?, (x != ':' && x != '\n') = false := by
    rintro x ⟨⟩
    rfl
  have kind (cs : List Char) : ((skipWord "fatal error:" (c.kind.toList ++ ':' :: cs)).or
      (skipWord "error:" (c.kind.toList ++ ':' :: cs))) = some cs := by
    unfold Complaint.kind
    cases c.isFatal <;> rfl
  have strip (cs : List Char) : Text.stripLeftChars (' ' :: (c.kind.toList ++ cs)) = c.kind.toList ++ cs := by
    unfold Complaint.kind
    cases c.isFatal <;> rfl
  have front (cs : List Char) : skipWord ":" (':' :: cs) = some cs := skipWord_append ":" cs
  have filled : c.file.toList.isEmpty = false := by
    rw [List.isEmpty_eq_false_iff, ne_eq, String.toList_eq_nil_iff]
    exact wellFormed.named
  have message := readMessage_append wellFormed.filled wellFormed.oneLine wellFormed.stripped feed
  rw [List.cons_append] at message
  rw [toList_printed]
  unfold familyLine
  simp only [List.append_assoc, List.cons_append, takeWhile_append_stop name (colon _),
    dropWhile_append_stop name (colon _), filled, front, readNumber_toDigits, strip, kind, message, Option.bind_eq_bind,
    Option.bind_some, Option.pure_def, String.ofList_toList, if_neg Bool.false_ne_true]
  rfl

/-! ## Lines after lines -/

/-- The characters of lines, with line ends between them. -/
def charsOf (lines : List PrintedLine) : List Char :=
  ['\n'].intercalate (lines.map fun l => l.text.toList)

/-- What stands behind a line: nothing, or a line end and more lines. -/
def behind (lines : List PrintedLine) : List Char :=
  if lines.isEmpty then [] else '\n' :: charsOf lines

variable {l : PrintedLine} {lines : List PrintedLine}

theorem charsOf_cons (l : PrintedLine) (lines : List PrintedLine) :
    charsOf (l :: lines) = l.text.toList ++ behind lines := by
  cases lines with
  | nil => simp [charsOf, behind]
  | cons l' lines => simp [charsOf, behind, List.intercalate_cons_cons]

theorem feed_behind (lines : List PrintedLine) : ∀ x ∈ (behind lines).head?, x = '\n' := by
  cases lines with
  | nil => rintro x ⟨⟩
  | cons l lines =>
    rintro x ⟨⟩
    rfl

theorem heralds_behind_iff : Heralds (behind lines) ↔ Heralds (charsOf lines) := by
  cases lines with
  | nil => exact Iff.rfl
  | cons l lines => exact Iff.rfl

theorem nextLine_behind (lines : List PrintedLine) : nextLine (behind lines) = charsOf lines := by
  cases lines with
  | nil => rfl
  | cons l lines => rfl

theorem nextLine_append {line : List Char} (hline : '\n' ∉ line) (lines : List PrintedLine) :
    nextLine (line ++ behind lines) = charsOf lines := by
  have inside : ∀ x ∈ line, (x != '\n') = true := by
    intro x hx
    simpa using ne_of_mem_of_not_mem hx hline
  have stop : ∀ x ∈ (behind lines).head?, (x != '\n') = false := by
    intro x hx
    simp [feed_behind lines x hx]
  rw [← nextLine_behind, nextLine, nextLine, dropWhile_append_stop inside stop, dropWhile_of_stop stop]

/-- Lines announce nothing: none holds the word for a kind, or begins with a name that is one. -/
theorem not_heralds_charsOf (wellFormed : ∀ l ∈ lines, l.WellFormed) : ¬ Heralds (charsOf lines) := by
  induction lines with
  | nil => rintro (h | h) <;> exact absurd h (by decide)
  | cons l lines ih =>
    have quiet := ih fun l' h => wellFormed l' (List.mem_cons_of_mem l h)
    rw [charsOf_cons]
    cases l with
    | complaint c =>
      have hc : c.WellFormed := wellFormed _ List.mem_cons_self
      rw [PrintedLine.text, toList_printed, List.append_assoc, List.cons_append]
      exact not_heralds_of_named (fun h => (hc.plain _ h).1 rfl) hc.noKind.1 hc.noKind.2
    | other text =>
      have htext := wellFormed _ List.mem_cons_self
      intro heralds
      rcases infix_or_heralds (feed_behind lines) heralds with h | h
      · exact htext.2 h
      · exact quiet (heralds_behind_iff.1 h)

theorem familyLines_succ (fuel : Nat) (cs : List Char) :
    familyLines (fuel + 1) cs = match familyLine cs with
      | some (w, rest) => w :: familyLines fuel (nextLine rest)
      | none => familyLines fuel (nextLine cs) := by
  cases cs with
  | nil => cases fuel <;> rfl
  | cons c cs => rfl

/-- In lines, the complaints are read, and each as it was printed. -/
theorem familyLines_printed {fuel : Nat} (wellFormed : ∀ l ∈ lines, l.WellFormed) (enough : lines.length ≤ fuel) :
    familyLines fuel (charsOf lines) = (lines.filterMap PrintedLine.complaint?).map Complaint.written := by
  induction lines generalizing fuel with
  | nil => cases fuel <;> rfl
  | cons l lines ih =>
    obtain ⟨fuel, rfl⟩ : ∃ k, fuel = k + 1 := Nat.exists_eq_add_one.2 (Nat.lt_of_lt_of_le (Nat.succ_pos _) enough)
    have rest := ih (fun l' h => wellFormed l' (List.mem_cons_of_mem l h)) (Nat.le_of_succ_le_succ enough)
    rw [charsOf_cons, familyLines_succ]
    cases l with
    | complaint c =>
      rw [PrintedLine.text, familyLine_printed (wellFormed _ List.mem_cons_self) (feed_behind lines)]
      simp only [nextLine_behind, rest]
      rfl
    | other text =>
      have htext := wellFormed _ List.mem_cons_self
      have quiet := not_heralds_charsOf fun l' h => wellFormed l' (List.mem_cons_of_mem _ h)
      rw [PrintedLine.text, familyLine_eq_none (feed_behind lines) htext.2 (heralds_behind_iff.not.2 quiet)]
      simp only [nextLine_append htext.1, rest]
      rfl

/-! ## Numbers -/

theorem readDigits_toDigits (n : Nat) : Text.readDigits (Nat.toDigits 10 n) = n := by
  have same (ds : List Char) (hds : ∀ d ∈ ds, d.isDigit = true) (m : Nat) :
      ds.foldl (fun n c => 10 * n + (Text.digitValue? c).getD 0) m = Nat.ofDigitChars 10 ds m := by
    induction ds generalizing m with
    | nil => rfl
    | cons d ds ih =>
      rw [List.foldl_cons, ih (fun e he => hds e (List.mem_cons_of_mem d he)),
        digitValue?_of_isDigit (hds d List.mem_cons_self)]
      rfl
  rw [Text.readDigits, same _ fun d hd => Nat.isDigit_of_mem_toDigits (by decide) (Nat.le_refl 10) hd]
  exact Nat.ofDigitChars_toDigits (by decide) (Nat.le_refl 10)

/-- A number in digits is read exactly if it is short enough. -/
theorem numberOf_toDigits (n : Nat) :
    numberOf (Nat.toDigits 10 n) =
      if n < 10 ^ Text.digitLimit then .ok (n : Int) else .error (Complaint.overlong n) := by
  have text : toString n = String.ofList (Nat.toDigits 10 n) := rfl
  unfold numberOf Text.numberOf
  by_cases hn : n < 10 ^ Text.digitLimit
  · have short := (Nat.length_toDigits_le_iff (b := 10) (k := Text.digitLimit) (by decide) (by decide)).2 hn
    rw [if_pos hn, if_neg (Nat.not_lt.2 short), readDigits_toDigits]
  · have long : Text.digitLimit < (Nat.toDigits 10 n).length := by
      rw [← Nat.not_le, Nat.length_toDigits_le_iff (by decide) (by decide)]
      exact hn
    rw [if_neg hn, if_pos long, Complaint.overlong, text, ← String.length_toList, String.toList_ofList]

theorem read_written (readable : c.Readable) : c.written.read = .ok c.diagnostic := by
  have line := numberOf_toDigits c.line
  have column := numberOf_toDigits c.column
  rw [if_pos readable.1] at line
  rw [if_pos readable.2] at column
  simp only [Written.read, Complaint.written, line, column]
  rfl

theorem read_written_eq_error (unreadable : ¬ c.Readable) : c.written.read = .error c.fault := by
  have line := numberOf_toDigits c.line
  have column := numberOf_toDigits c.column
  unfold Complaint.fault
  split
  · next hline =>
    rw [if_pos hline] at line
    rw [if_neg fun h => unreadable ⟨hline, h⟩] at column
    simp only [Written.read, Complaint.written, line, column]
    rfl
  · next hline =>
    rw [if_neg hline] at line
    simp only [Written.read, Complaint.written, line]
    rfl

theorem mapM_read_written {complaints : List Complaint} (readable : ∀ c ∈ complaints, c.Readable) :
    (complaints.map Complaint.written).mapM Written.read = .ok (complaints.map Complaint.diagnostic) := by
  induction complaints with
  | nil => rfl
  | cons c complaints ih =>
    rw [List.map_cons, List.mapM_cons, read_written (readable c List.mem_cons_self),
      ih fun c' h => readable c' (List.mem_cons_of_mem c h)]
    rfl

theorem mapM_read_written_eq_error {before after : List Complaint} (readable : ∀ b ∈ before, b.Readable)
    (unreadable : ¬ c.Readable) :
    ((before ++ c :: after).map Complaint.written).mapM Written.read = .error c.fault := by
  rw [List.map_append, List.mapM_append, mapM_read_written readable, List.map_cons, List.mapM_cons,
    read_written_eq_error unreadable]
  rfl

end Diagnostic

/-! ## The output of a compiler -/

namespace Toolchain

open Diagnostic (charsOf charsOf_cons behind toList_printed)

variable {lines : List PrintedLine} {p : Printed}

/-- The complaints on lines. -/
def complaintsOf (lines : List PrintedLine) : List Complaint :=
  lines.filterMap PrintedLine.complaint?

theorem complaintsOf_append (lines lines' : List PrintedLine) :
    complaintsOf (lines ++ lines') = complaintsOf lines ++ complaintsOf lines' :=
  List.filterMap_append

theorem charsOf_append (filled : lines ≠ []) {lines' : List PrintedLine} (filled' : lines' ≠ []) :
    charsOf (lines ++ lines') = charsOf lines ++ '\n' :: charsOf lines' := by
  induction lines with
  | nil => exact absurd rfl filled
  | cons l lines ih =>
    rw [List.cons_append, charsOf_cons, charsOf_cons, List.append_assoc]
    congr 1
    cases lines with
    | nil =>
      rw [List.nil_append, behind, if_neg (by simpa using filled')]
      rfl
    | cons l' lines =>
      rw [behind, behind, if_neg (by simp), if_neg (by simp), ih (by simp)]
      rfl

theorem toList_lines (lines : List PrintedLine) :
    ("\n".intercalate (lines.map PrintedLine.text)).toList = charsOf lines := by
  rw [String.toList_intercalate, List.map_map]
  rfl

/-- The lines of a text that does not hold the word for a kind. -/
theorem exists_lines_of_wordless {s : String} (wordless : ¬ Within "error:" s) :
    ∃ lines : List PrintedLine, lines ≠ [] ∧ (∀ l ∈ lines, l.WellFormed) ∧ complaintsOf lines = [] ∧
      charsOf lines = s.toList := by
  have chars : ['\n'].intercalate (s.toList.splitOn '\n') = s.toList := List.intercalate_splitOn '\n'
  refine ⟨(s.toList.splitOn '\n').map fun line => .other (String.ofList line), ?_, ?_, ?_, ?_⟩
  · simp
  · intro l hl
    obtain ⟨line, hline, rfl⟩ := List.mem_map.1 hl
    refine ⟨?_, ?_⟩
    · rw [String.toList_ofList]
      exact Path.not_mem_of_mem_splitOn hline
    · intro h
      apply wordless
      have held : line <:+: ['\n'].intercalate (s.toList.splitOn '\n') := Text.infix_intercalate hline
      have text : (String.ofList line).toList = line := String.toList_ofList
      rw [Within, text] at h
      rw [Within, ← chars]
      exact List.IsInfix.trans h held
  · simp [complaintsOf, PrintedLine.complaint?]
  · rw [charsOf, List.map_map]
    simp [Function.comp_def, PrintedLine.text]

theorem within_of_stripRight {x s : String} (h : Within x (Text.stripRight s)) : Within x s := by
  have front : (Text.stripRight s).toList <+: s.toList := by
    rw [Text.stripRight, String.toList_ofList]
    exact Text.stripRightChars_isPrefix _
  exact List.IsInfix.trans h front.isInfix

/-- Where nothing is printed there are no complaints. -/
theorem complaintsOf_of_empty (empty : "\n".intercalate (lines.map PrintedLine.text) = "") :
    complaintsOf lines = [] := by
  rw [complaintsOf, List.filterMap_eq_nil_iff]
  intro l hl
  cases l with
  | other text => rfl
  | complaint c =>
    have mem : (PrintedLine.complaint c).text ∈ lines.map PrintedLine.text := List.mem_map_of_mem hl
    have held := Within.intercalate mem "\n"
    rw [empty, PrintedLine.text, Within, String.toList_empty, List.infix_nil, toList_printed] at held
    exact absurd held (List.append_ne_nil_of_right_ne_nil _ (List.cons_ne_nil _ _))

/-- Both streams together are lines, with the complaints of the second one. -/
theorem exists_lines_of_combined (wellFormed : ∀ l ∈ lines, l.WellFormed) (wordless : ¬ Within "error:" p.stdout)
    (stderr : p.stderr = "\n".intercalate (lines.map PrintedLine.text)) :
    ∃ lines' : List PrintedLine, (∀ l ∈ lines', l.WellFormed) ∧ complaintsOf lines' = complaintsOf lines ∧
      charsOf lines' = p.combined.toList := by
  unfold Printed.combined
  by_cases hstderr : p.stderr = ""
  · -- what was printed on the first stream is all there is
    obtain ⟨lines', -, wellFormed', hnone, hchars⟩ := exists_lines_of_wordless wordless
    refine ⟨lines', wellFormed', ?_, ?_⟩
    · rw [hnone, complaintsOf_of_empty (stderr.symm.trans hstderr)]
    · rw [hchars, hstderr]
      cases hstdout : p.stdout.isEmpty with
      | true => simp [String.isEmpty_iff.1 hstdout]
      | false => rfl
  · by_cases hstdout : p.stdout = ""
    · refine ⟨lines, wellFormed, rfl, ?_⟩
      rw [hstdout, stderr, ← toList_lines]
      rfl
    · obtain ⟨lines', filled, wellFormed', hnone, hchars⟩ :=
        exists_lines_of_wordless (fun h => wordless (within_of_stripRight h))
      have hlines : lines ≠ [] := by
        rintro rfl
        exact hstderr stderr
      refine ⟨lines' ++ lines, ?_, ?_, ?_⟩
      · intro l hl
        exact (List.mem_append.1 hl).elim (wellFormed' l) (wellFormed l)
      · rw [complaintsOf_append, hnone, List.nil_append]
      · rw [charsOf_append filled hlines, hchars, ← toList_lines, ← stderr, if_pos]
        · simp
        · simp [hstderr, hstdout]

theorem length_le_length_charsOf (lines : List PrintedLine) : lines.length ≤ (charsOf lines).length + 1 := by
  induction lines with
  | nil => exact Nat.zero_le _
  | cons l lines ih =>
    rw [charsOf_cons, List.length_append, List.length_cons]
    cases lines with
    | nil => simp
    | cons l' lines =>
      have hbehind : (behind (l' :: lines)).length = (charsOf (l' :: lines)).length + 1 := rfl
      omega

/-- Reading the output of a compiler comes to reading the numbers of its complaints. -/
theorem diagnostics_eq {tools : Tools} {project : Option Path} {cache : DatabaseCache}
    (wellFormed : ∀ l ∈ lines, l.WellFormed) (wordless : ¬ Within "error:" p.stdout)
    (stderr : p.stderr = "\n".intercalate (lines.map PrintedLine.text)) :
    (cFamily tools project cache).diagnostics p =
      ((complaintsOf lines).map Complaint.written).mapM Diagnostic.Written.read := by
  obtain ⟨lines', wellFormed', same, chars⟩ := exists_lines_of_combined wellFormed wordless stderr
  have read := Diagnostic.familyLines_printed wellFormed' (length_le_length_charsOf lines')
  rw [chars] at read
  show Diagnostic.ofFamilyOutput p.combined = _
  rw [Diagnostic.ofFamilyOutput, read, ← same]
  rfl

/-- Either all complaints can be read, or there is a first one that cannot. -/
theorem readable_or_first (complaints : List Complaint) :
    (∀ c ∈ complaints, c.Readable) ∨
      ∃ before c after, complaints = before ++ c :: after ∧ (∀ b ∈ before, b.Readable) ∧ ¬ c.Readable := by
  induction complaints with
  | nil => exact .inl fun c h => absurd h List.not_mem_nil
  | cons c complaints ih =>
    by_cases hc : c.Readable
    · rcases ih with ih | ⟨before, c', after, rfl, hbefore, hc'⟩
      · exact .inl (List.forall_mem_cons.2 ⟨hc, ih⟩)
      · exact .inr ⟨c :: before, c', after, rfl, List.forall_mem_cons.2 ⟨hc, hbefore⟩, hc'⟩
    · exact .inr ⟨[], c, complaints, rfl, fun b h => absurd h List.not_mem_nil, hc⟩

end Toolchain

/-- What a compiler printed is read as its complaints, none lost, joined with another or added, in their order: whatever
lines without the word for a kind stand between them or come on the other stream, and whatever their messages hold.
This holds exactly if their numbers are short enough; otherwise the first number that is too long is the failure. -/
theorem Toolchain.complaints_read (tools : Tools) (project : Option Path) (cache : DatabaseCache) (p : Printed)
    (lines : List PrintedLine) (wellFormed : ∀ l ∈ lines, l.WellFormed) (wordless : ¬ Within "error:" p.stdout)
    (stderr : p.stderr = "\n".intercalate (lines.map PrintedLine.text)) :
    ((cFamily tools project cache).diagnostics p = .ok ((complaintsOf lines).map Complaint.diagnostic) ↔
      ∀ c ∈ complaintsOf lines, c.Readable) ∧
    ∀ before c after, complaintsOf lines = before ++ c :: after → (∀ b ∈ before, b.Readable) → ¬ c.Readable →
      (cFamily tools project cache).diagnostics p = .error c.fault := by
  rw [diagnostics_eq wellFormed wordless stderr]
  refine ⟨⟨?_, Diagnostic.mapM_read_written⟩, ?_⟩
  · intro h
    rcases readable_or_first (complaintsOf lines) with readable | ⟨before, c, after, hc, readable, unreadable⟩
    · exact readable
    · rw [hc, Diagnostic.mapM_read_written_eq_error readable unreadable] at h
      cases h
  · intro before c after hc readable unreadable
    rw [hc, Diagnostic.mapM_read_written_eq_error readable unreadable]

namespace Toolchain

/-- A complaint whose message looks like another one. -/
def nested : Complaint :=
  ⟨"a.c", 3, 14, true, "b.h:1:2: error: x"⟩

theorem wellFormed_nested : nested.WellFormed where
  named := by decide
  plain := by simp [nested]
  noKind := by decide
  filled := by decide
  oneLine := by decide
  stripped := by decide

/-- Lines the second of which looks like the front of a complaint. -/
def nestedLines : List PrintedLine :=
  [.other "In file included from a.c", .other "a.c:1:2:", .complaint nested, .other ""]

theorem wellFormed_nestedLines : ∀ l ∈ nestedLines, l.WellFormed := by
  have other {text : String} (h : '\n' ∉ text.toList ∧ ¬ Within "error:" text) :
      (PrintedLine.other text).WellFormed := h
  simp only [nestedLines, List.forall_mem_cons]
  exact ⟨other (by decide), other (by decide), wellFormed_nested, other (by decide),
    fun l h => absurd h List.not_mem_nil⟩

/-- From these lines the complaint is read and nothing else, its message as it is. -/
theorem nested_read :
    nested.printed = "a.c:3:14: fatal error: b.h:1:2: error: x" ∧
    (cFamily {} none []).diagnostics
      ⟨1, "a.c:7:8:\n\n", "\n".intercalate (nestedLines.map PrintedLine.text), false⟩ = .ok [nested.diagnostic] := by
  refine ⟨by decide, ?_⟩
  apply (complaints_read {} none [] ⟨1, "a.c:7:8:\n\n", _, false⟩ nestedLines wellFormed_nestedLines
    (by decide) rfl).1.2
  intro c hc
  obtain rfl := List.mem_singleton.1 (show c ∈ [nested] from hc)
  exact ⟨by decide +kernel, by decide +kernel⟩

/-- A complaint about a line whose number has one digit too many. -/
def remote : Complaint :=
  ⟨"a.c", 10 ^ Text.digitLimit, 1, false, "x"⟩

theorem wellFormed_remote : remote.WellFormed where
  named := by decide
  plain := by simp [remote]
  noKind := by decide
  filled := by decide
  oneLine := by decide
  stripped := by decide

/-- It is not read, though it is printed as it should be, and neither is the complaint before it. -/
theorem not_complaints_read :
    nested.WellFormed ∧ remote.WellFormed ∧
      (cFamily {} none []).diagnostics ⟨1, "", "\n".intercalate [nested.printed, remote.printed], false⟩ =
        .error (Complaint.overlong remote.line) := by
  refine ⟨wellFormed_nested, wellFormed_remote, ?_⟩
  have lines : ∀ l ∈ [PrintedLine.complaint nested, .complaint remote], l.WellFormed := by
    rintro l (_ | ⟨_, _ | ⟨_, ⟨⟩⟩⟩)
    · exact wellFormed_nested
    · exact wellFormed_remote
  have long : ¬ remote.line < 10 ^ Text.digitLimit := Nat.lt_irrefl _
  have fault : remote.fault = Complaint.overlong remote.line := by
    rw [Complaint.fault, if_neg long]
  have cut : complaintsOf [.complaint nested, .complaint remote] = [nested] ++ remote :: [] := rfl
  rw [diagnostics_eq lines (by decide) rfl, cut, ← fault]
  apply Diagnostic.mapM_read_written_eq_error
  · intro b hb
    obtain rfl := List.mem_singleton.1 hb
    exact ⟨by decide +kernel, by decide +kernel⟩
  · intro readable
    exact long readable.1

end Toolchain

end FixGate
