import FixGate.Text.Point
import FixGate.Text.Search

/-!
# Bytes as text

Files hold bytes, and a text has bytes unless half of a pair of code units is in it. Three policies for bytes that are no text are in use: to refuse them, to drop
them, and to put a replacement character in their place. All three read the same division of the
bytes into characters and faults, where a fault is the longest start of a character that cannot be
completed, or a single byte that starts none.

* `segments` : the characters (`some`) and faults (`none`) of a byte sequence
* `decodeStrict`, `decodeDropping`, `decodeReplacing` : the three policies
* `complaint` : what is wrong with bytes that are no text
* `encode`, `encodeComplaint?` : the bytes of a text, and what is wrong with a text that has none
* `nameBytes`, `nameComplaint?` : the same for the names of files
-/

namespace FixGate.Text.Utf8

/-- A character begun: how many bytes are owed, the bounds of the next one, and the bits so far. -/
structure Begun where
  owed : Nat
  least : Nat
  greatest : Nat
  bits : Nat
  deriving DecidableEq, Repr

/-- What a byte means where a character may start. -/
inductive Lead where
  | whole (c : Char)
  | start (b : Begun)
  | fault

/-- The meaning of a byte where a character may start. -/
def lead (b : UInt8) : Lead :=
  let n := b.toNat
  if n < 0x80 then .whole (Char.ofNat n)
  else if n < 0xc2 then .fault
  else if n < 0xe0 then .start ⟨1, 0x80, 0xbf, n - 0xc0⟩
  else if n == 0xe0 then .start ⟨2, 0xa0, 0xbf, 0⟩
  else if n == 0xed then .start ⟨2, 0x80, 0x9f, 0xd⟩
  else if n < 0xf0 then .start ⟨2, 0x80, 0xbf, n - 0xe0⟩
  else if n == 0xf0 then .start ⟨3, 0x90, 0xbf, 0⟩
  else if n < 0xf4 then .start ⟨3, 0x80, 0xbf, n - 0xf0⟩
  else if n == 0xf4 then .start ⟨3, 0x80, 0x8f, 4⟩
  else .fault

/-- The characters and faults of a byte sequence, with the character begun before it, if any. -/
def segmentsFrom : Option Begun → List UInt8 → List (Option Char)
  | none, [] => []
  | some _, [] => [none]
  | none, b :: bs =>
    match lead b with
    | .whole c => some c :: segmentsFrom none bs
    | .start s => segmentsFrom (some s) bs
    | .fault => none :: segmentsFrom none bs
  | some s, b :: bs =>
    if s.least ≤ b.toNat && b.toNat ≤ s.greatest then
      let bits := s.bits * 64 + (b.toNat - 0x80)
      if s.owed ≤ 1 then some (Char.ofNat bits) :: segmentsFrom none bs
      else segmentsFrom (some ⟨s.owed - 1, 0x80, 0xbf, bits⟩) bs
    else
      match lead b with
      | .whole c => none :: some c :: segmentsFrom none bs
      | .start s => none :: segmentsFrom (some s) bs
      | .fault => none :: none :: segmentsFrom none bs

/-- The characters and faults of a byte sequence, in order. -/
def segments (bs : List UInt8) : List (Option Char) :=
  segmentsFrom none bs

/-- The text in which only characters stand. -/
def textOf (cs : List Char) : String :=
  keep (String.ofList cs)

/-- The text of the bytes, if none of them is at fault. -/
def decodeStrict (bs : List UInt8) : Option String :=
  ((segments bs).mapM id).map textOf

/-- The text of the bytes, faults dropped. -/
def decodeDropping (bs : List UInt8) : String :=
  textOf ((segments bs).filterMap id)

/-- The text of the bytes, each fault shown as the replacement character. -/
def decodeReplacing (bs : List UInt8) : String :=
  textOf ((segments bs).map fun c => c.getD '\ufffd')

/-- Why bytes are no text: the offset and number of the bytes at fault, and what is wrong. -/
structure Fault where
  offset : Nat
  count : Nat
  reason : String
  deriving DecidableEq, Repr

/-- The first fault of a byte sequence, given the offset of its first byte and the character begun
before it with the number of its bytes so far. -/
def firstFaultFrom (offset : Nat) : Option (Begun × Nat) → List UInt8 → Option Fault
  | none, [] => none
  | some (_, seen), [] => some ⟨offset - seen, seen, "unexpected end of data"⟩
  | none, b :: bs =>
    match lead b with
    | .whole _ => firstFaultFrom (offset + 1) none bs
    | .start s => firstFaultFrom (offset + 1) (some (s, 1)) bs
    | .fault => some ⟨offset, 1, "invalid start byte"⟩
  | some (s, seen), b :: bs =>
    if s.least ≤ b.toNat && b.toNat ≤ s.greatest then
      if s.owed ≤ 1 then firstFaultFrom (offset + 1) none bs
      else firstFaultFrom (offset + 1) (some (⟨s.owed - 1, 0x80, 0xbf, 0⟩, seen + 1)) bs
    else some ⟨offset - seen, seen, "invalid continuation byte"⟩

/-- The complaint about the first fault of a byte sequence. -/
def complaint (bs : List UInt8) : String :=
  match firstFaultFrom 0 none bs with
  | none => ""
  | some f =>
    let place :=
      if f.count ≤ 1 then
        let b := (bs.getD f.offset 0).toNat
        let digits := String.ofList (Text.hexDigits b 2)
        s!"byte 0x{digits} in position {f.offset}"
      else s!"bytes in position {f.offset}-{f.offset + f.count - 1}"
    s!"'utf-8' codec can't decode {place}: {f.reason}"

/-- The bytes of a text, which should hold no half of a pair. -/
def encode (s : String) : List UInt8 :=
  (pointsOf s).flatMap fun n => String.utf8EncodeChar (Char.ofNat n)

/-- The complaint about a run of halves, given how many code points stand before it. -/
def runComplaint (offset : Nat) (run : List Nat) : Option String :=
  match run with
  | [] => none
  | [half] =>
    let digits := String.ofList (Text.hexDigits half 4)
    some (s!"'utf-8' codec can't encode character '\\u{digits}' in position {offset}: " ++
      "surrogates not allowed")
  | _ =>
    some (s!"'utf-8' codec can't encode characters in position {offset}-{offset + run.length - 1}: " ++
      "surrogates not allowed")

/-- The complaint about the first run of halves among code points; halves that are admitted do not begin
one. -/
def complaintAbout? (admitted : Nat → Bool) (ns : List Nat) : Option String :=
  let before := ns.takeWhile fun n => !isHalf n || admitted n
  runComplaint before.length ((ns.drop before.length).takeWhile isHalf)

/-- The complaint about a text that has no bytes. -/
def encodeComplaint? (s : String) : Option String :=
  complaintAbout? (fun _ => false) (pointsOf s)

/-- A half that stands for a byte beyond the first 128 in the name of a file. -/
def standsForByte (n : Nat) : Bool :=
  0xdc80 ≤ n && n ≤ 0xdcff

/-- The complaint about the name of a file that has no bytes. -/
def nameComplaint? (s : String) : Option String :=
  complaintAbout? standsForByte (pointsOf s)

/-- How many bytes the name of a file takes. -/
def nameBytes (s : String) : Nat :=
  ((pointsOf s).map fun n => if standsForByte n then 1 else (Char.ofNat n).utf8Size).foldr (· + ·) 0

example : decodeDropping [0x61, 0xe2, 0x82, 0x62] = "ab" := by decide +kernel
example : decodeReplacing [0xe2, 0x82, 0xff] = "\ufffd\ufffd" := by decide +kernel
example : decodeStrict (encode "é€😀") = some "é€😀" := by decide +kernel

end FixGate.Text.Utf8
