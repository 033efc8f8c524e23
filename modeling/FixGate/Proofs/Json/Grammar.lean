import FixGate.Json.Reader

/-!
# The texts of a value

JSON as a grammar, apart from any reader: which runs of characters stand for a value. A text may stand for each
of its characters as it is or by an escape, tokens may have spaces around them, and a table may name a field more
than once, in which case the last of its values counts. Beyond the standard, the words for no number and for the
infinities stand for real numbers.

The grammar has no bounds. A reader has: on how deep lists and tables may be nested and on how many digits an
integer may have. So each rule is stated for a *room*: how many lists and tables may still be opened, or no bound
at all, in which case the digits are not bounded either.

* `Gap` : spaces between tokens
* `Numeral` : the texts of numbers
* `SpellsChars` : what stands between the quotes of a text
* `Spells`, `SpellsPadded` : the texts of values, and the same with spaces around them
* `SpellsItems`, `SpellsMembers` : the texts of the elements of a list and of the fields of a table
-/

namespace FixGate

/-- The table whose fields are named one after another, the last value of a name counting. -/
def Fields.ofMembers (members : List (String × Value)) : Fields :=
  members.foldl (fun fields m => Fields.insert fields m.1 m.2) []

namespace Json

/-- Spaces between tokens. -/
def Gap (cs : List Char) : Prop :=
  ∀ c ∈ cs, isSpace c = true

/-! ## Numbers -/

/-- Decimal digits, at least one. -/
structure Digits (ds : List Char) : Prop where
  ne_nil : ds ≠ []
  digit : ∀ c ∈ ds, c.isDigit = true

/-- The digits before the point: a zero alone, or digits that do not begin with one. -/
inductive WholePart : List Char → Prop
  | zero : WholePart ['0']
  | digits {d : Char} {ds : List Char} : Digits (d :: ds) → d ≠ '0' → WholePart (d :: ds)

/-- The digits of a fraction, and its text. -/
inductive FractionPart : List Char → List Char → Prop
  | none : FractionPart [] []
  | digits {ds : List Char} : Digits ds → FractionPart ds ('.' :: ds)

/-- The sign of an exponent, and its text. -/
inductive SignPart : Int → List Char → Prop
  | none : SignPart 1 []
  | plus : SignPart 1 ['+']
  | minus : SignPart (-1) ['-']

/-- An exponent, and its text. -/
inductive ExponentPart : Int → List Char → Prop
  | none : ExponentPart 0 []
  | digits {e : Char} {sign : Int} {s ds : List Char} : e = 'e' ∨ e = 'E' → SignPart sign s → Digits ds →
      ExponentPart (sign * Text.readDigits ds) (e :: s ++ ds)

/-- An integer with a sign that stands before its digits. -/
def signedInt (negative : Bool) (n : Nat) : Int :=
  if negative then -(n : Int) else n

/-- A real number with a sign that stands before its digits. -/
def signedReal (negative : Bool) (x : Float) : Float :=
  if negative then -x else x

/-- The texts of a number behind its sign, integers having a bounded number of digits or any. -/
inductive Magnitude (bounded negative : Bool) : Value → List Char → Prop
  | int {ds : List Char} : WholePart ds → (bounded = true → ds.length ≤ Text.digitLimit) →
      Magnitude bounded negative (.int (signedInt negative (Text.readDigits ds))) ds
  | real {ds fs f es : List Char} {x : Int} : WholePart ds → FractionPart fs f → ExponentPart x es →
      f ++ es ≠ [] →
      Magnitude bounded negative
        (.real (signedReal negative (Decimal.ofScientific (Text.readDigits (ds ++ fs)) (x - fs.length))))
        (ds ++ f ++ es)

/-- The texts of a number. -/
inductive Numeral (bounded : Bool) : Value → List Char → Prop
  | plain {v : Value} {w : List Char} : Magnitude bounded false v w → Numeral bounded v w
  | negative {v : Value} {w : List Char} : Magnitude bounded true v w → Numeral bounded v ('-' :: w)

/-! ## Texts -/

/-- A text begins with an escape for the second half of a pair. -/
def BeginsLow (cs : List Char) : Prop :=
  ∃ a b c d rest n, cs = '\\' :: 'u' :: a :: b :: c :: d :: rest ∧ codeUnit? a b c d = some n ∧
    Text.isLow n = true

/-- Characters, and what may stand for them between quotes. The escapes for the two halves of a pair, one behind
the other, stand for the pair and for nothing else. -/
inductive SpellsChars : List Char → List Char → Prop
  | nil : SpellsChars [] []
  | plain {c : Char} {s cs : List Char} : c ≠ '"' → c ≠ '\\' → 32 ≤ c.toNat → SpellsChars s cs →
      SpellsChars (c :: s) (c :: cs)
  | short {e c : Char} {s cs : List Char} : escaped? e = some c → SpellsChars s cs →
      SpellsChars (c :: s) ('\\' :: e :: cs)
  | unit {a b c d : Char} {n : Nat} {s cs : List Char} : codeUnit? a b c d = some n →
      ¬ (Text.isHigh n = true ∧ BeginsLow cs) → SpellsChars s cs →
      SpellsChars (Text.ofPoint n ++ s) ('\\' :: 'u' :: a :: b :: c :: d :: cs)
  | pair {a b c d e f g h : Char} {n m : Nat} {s cs : List Char} : codeUnit? a b c d = some n →
      Text.isHigh n = true → codeUnit? e f g h = some m → Text.isLow m = true → SpellsChars s cs →
      SpellsChars (Text.ofPoint (Text.pairPoint n m) ++ s)
        ('\\' :: 'u' :: a :: b :: c :: d :: '\\' :: 'u' :: e :: f :: g :: h :: cs)

/-! ## Values -/

mutual

/-- A value, and the texts that stand for it in a room. -/
inductive Spells : Option Nat → Value → List Char → Prop
  | word {room : Option Nat} {v : Value} {w : List Char} : (w, v) ∈ words → Spells room v w
  | number {room : Option Nat} {v : Value} {w : List Char} : Numeral room.isSome v w → Spells room v w
  | text {room : Option Nat} {s : String} {cs : List Char} : SpellsChars s.toList cs →
      Spells room (.text s) ('"' :: cs ++ ['"'])
  | emptyList {room : Option Nat} {g : List Char} : room ≠ some 0 → Gap g →
      Spells room (.list []) ('[' :: g ++ [']'])
  | list {room : Option Nat} {vs : List Value} {cs : List Char} : room ≠ some 0 →
      SpellsItems (room.map (· - 1)) vs cs → Spells room (.list vs) ('[' :: cs ++ [']'])
  | emptyTable {room : Option Nat} {g : List Char} : room ≠ some 0 → Gap g →
      Spells room (.table []) ('\x7b' :: g ++ ['\x7d'])
  | table {room : Option Nat} {ms : List (String × Value)} {cs : List Char} : room ≠ some 0 →
      SpellsMembers (room.map (· - 1)) ms cs →
      Spells room (.table (Fields.ofMembers ms)) ('\x7b' :: cs ++ ['\x7d'])

/-- A value, and the texts that stand for it with spaces around them. -/
inductive SpellsPadded : Option Nat → Value → List Char → Prop
  | padded {room : Option Nat} {v : Value} {g w g' : List Char} : Gap g → Spells room v w → Gap g' →
      SpellsPadded room v (g ++ w ++ g')

/-- Values, and the texts that stand for them one after another. -/
inductive SpellsItems : Option Nat → List Value → List Char → Prop
  | last {room : Option Nat} {v : Value} {cs : List Char} : SpellsPadded room v cs → SpellsItems room [v] cs
  | more {room : Option Nat} {v : Value} {vs : List Value} {cs ds : List Char} : SpellsPadded room v cs →
      SpellsItems room vs ds → SpellsItems room (v :: vs) (cs ++ ',' :: ds)

/-- A name with its value, and the texts that stand for them. -/
inductive SpellsMember : Option Nat → String × Value → List Char → Prop
  | named {room : Option Nat} {n : String} {v : Value} {g cs g' ds : List Char} : Gap g →
      SpellsChars n.toList cs → Gap g' → SpellsPadded room v ds →
      SpellsMember room (n, v) (g ++ '"' :: cs ++ '"' :: g' ++ ':' :: ds)

/-- Names with their values, and the texts that stand for them one after another. -/
inductive SpellsMembers : Option Nat → List (String × Value) → List Char → Prop
  | last {room : Option Nat} {m : String × Value} {cs : List Char} : SpellsMember room m cs →
      SpellsMembers room [m] cs
  | more {room : Option Nat} {m : String × Value} {ms : List (String × Value)} {cs ds : List Char} :
      SpellsMember room m cs → SpellsMembers room ms ds → SpellsMembers room (m :: ms) (cs ++ ',' :: ds)

end

end Json

end FixGate
