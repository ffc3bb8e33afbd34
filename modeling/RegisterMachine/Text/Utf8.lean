import RegisterMachine.Text.Quoted

/-!
# Reading UTF-8

* `decode bytes`: the characters that a sequence of bytes spells, or the first fault in it.
* `Fault`: where the bytes go wrong and why. Its range starts at the first byte of the broken
  character and holds the part of it that was valid so far.

The bounds on the second byte rule out overlong forms, surrogates and what lies beyond the last
code point.
-/

set_option autoImplicit false

namespace RegisterMachine.Text.Utf8

/-- What is wrong with a sequence of bytes. -/
inductive Reason where
  /-- No character starts with this byte. -/
  | start
  /-- The next byte cannot go on with the character. -/
  | continuation
  /-- The bytes end inside a character. -/
  | truncated
  deriving DecidableEq, Repr

/-- The wording of a reason. -/
def Reason.text : Reason → String
  | .start => "invalid start byte"
  | .continuation => "invalid continuation byte"
  | .truncated => "unexpected end of data"

/-- A range of bytes that spells no character. -/
structure Fault where
  /-- The first byte of the range. -/
  byte : UInt8
  /-- Its position, counted from zero. -/
  position : Nat
  /-- How many bytes the range has. -/
  length : Nat
  reason : Reason
  deriving DecidableEq, Repr

/-- A range of one byte is named by the byte, a longer one by its two ends. -/
def Fault.message (f : Fault) : String :=
  let place :=
    if f.length = 1 then
      "byte 0x" ++ String.ofList (hex 2 f.byte.toNat) ++ " in position " ++ toString f.position
    else
      "bytes in position " ++ toString f.position ++ "-" ++ toString (f.position + f.length - 1)
  "'utf-8' codec can't decode " ++ place ++ ": " ++ f.reason.text

/-- What the first byte of a character says about the rest of it: the bits it gives, how many bytes
follow, and the bounds on the next one. -/
structure Lead where
  bits : Nat
  follow : Nat
  low : UInt8
  high : UInt8

/-- The lead that a byte is, if it is one. -/
def lead? (b : UInt8) : Option Lead :=
  if b < 0x80 then some ⟨b.toNat, 0, 0x80, 0xBF⟩
  else if b < 0xC2 then none
  else if b < 0xE0 then some ⟨b.toNat - 0xC0, 1, 0x80, 0xBF⟩
  else if b < 0xF0 then
    some ⟨b.toNat - 0xE0, 2, if b = 0xE0 then 0xA0 else 0x80, if b = 0xED then 0x9F else 0xBF⟩
  else if b < 0xF5 then
    some ⟨b.toNat - 0xF0, 3, if b = 0xF0 then 0x90 else 0x80, if b = 0xF4 then 0x8F else 0xBF⟩
  else none

/-- A character that is being read. -/
structure Partial where
  /-- The byte it starts with and the position of that byte. -/
  first : UInt8
  position : Nat
  /-- How many bytes are read. -/
  length : Nat
  /-- The bits so far. -/
  bits : Nat
  /-- How many bytes are missing, not counting the next. -/
  missing : Nat
  /-- The bounds on the next byte. -/
  low : UInt8
  high : UInt8

/-- The characters read so far, newest first, and the one begun. -/
structure State where
  position : Nat
  done : List Char
  begun : Option Partial

/-- The fault of a character that cannot be finished. -/
def Partial.fault (p : Partial) (reason : Reason) : Fault := ⟨p.first, p.position, p.length, reason⟩

/-- One byte more. -/
def State.next (s : State) (b : UInt8) : Except Fault State :=
  match s.begun with
  | none =>
    match lead? b with
    | none => .error ⟨b, s.position, 1, .start⟩
    | some l =>
      match l.follow with
      | 0 => .ok ⟨s.position + 1, Char.ofNat l.bits :: s.done, none⟩
      | k + 1 => .ok ⟨s.position + 1, s.done, some ⟨b, s.position, 1, l.bits, k, l.low, l.high⟩⟩
  | some p =>
    if p.low ≤ b ∧ b ≤ p.high then
      let bits := p.bits * 64 + (b.toNat - 0x80)
      match p.missing with
      | 0 => .ok ⟨s.position + 1, Char.ofNat bits :: s.done, none⟩
      | k + 1 =>
        .ok ⟨s.position + 1, s.done, some ⟨p.first, p.position, p.length + 1, bits, k, 0x80, 0xBF⟩⟩
    else .error (p.fault .continuation)

/-- The characters that the bytes spell. -/
def decode (bytes : List UInt8) : Except Fault (List Char) := do
  let s ← bytes.foldlM State.next ⟨0, [], none⟩
  match s.begun with
  | none => return s.done.reverse
  | some p => throw (p.fault .truncated)

end RegisterMachine.Text.Utf8
