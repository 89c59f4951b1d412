import Widgetry.Text.Quoted

/-!
# Text from bytes

Reads UTF-8. A fault tells where the sequence that cannot be read begins and where it ends: in front
of the byte that does not fit, or at the end of the data.
-/

namespace Widgetry.Text

inductive DecodeCause where
  | invalidStart
  | invalidContinuation
  | unexpectedEnd
deriving DecidableEq, Repr

def DecodeCause.reason : DecodeCause → String
  | invalidStart => "invalid start byte"
  | invalidContinuation => "invalid continuation byte"
  | unexpectedEnd => "unexpected end of data"

/-- A sequence of bytes, from `start` up to `stop`, that cannot be read. -/
structure DecodeFault where
  start : Nat
  stop : Nat
  /-- the byte at the start -/
  first : UInt8
  cause : DecodeCause
deriving DecidableEq, Repr

namespace DecodeFault

def reason (e : DecodeFault) : String := e.cause.reason

def message (e : DecodeFault) : String :=
  let what := if e.stop = e.start + 1 then
      "byte 0x" ++ String.ofList (hexDigits 2 e.first.toNat) ++ " in position " ++ e.start.repr
    else "bytes in position " ++ e.start.repr ++ "-" ++ (e.stop - 1).repr
  "'utf-8' codec can't decode " ++ what ++ ": " ++ e.reason

end DecodeFault

/-- A character of which some bytes were read. -/
structure Pending where
  start : Nat
  first : UInt8
  /-- what the bytes read so far stand for -/
  value : Nat
  /-- how many bytes are to come -/
  owed : Nat
  /-- the least that the next byte may be -/
  low : UInt8
  /-- the most that the next byte may be -/
  high : UInt8

/-- A character that begins with a byte beyond ASCII. -/
def Pending.ofLead? (position : Nat) (b : UInt8) : Option Pending :=
  let n := b.toNat
  if 0xc2 ≤ n ∧ n ≤ 0xdf then some ⟨position, b, n - 0xc0, 1, 0x80, 0xbf⟩
  else if n = 0xe0 then some ⟨position, b, 0, 2, 0xa0, 0xbf⟩
  else if n = 0xed then some ⟨position, b, 0xd, 2, 0x80, 0x9f⟩
  else if 0xe1 ≤ n ∧ n ≤ 0xef then some ⟨position, b, n - 0xe0, 2, 0x80, 0xbf⟩
  else if n = 0xf0 then some ⟨position, b, 0, 3, 0x90, 0xbf⟩
  else if n = 0xf4 then some ⟨position, b, 4, 3, 0x80, 0x8f⟩
  else if 0xf1 ≤ n ∧ n ≤ 0xf3 then some ⟨position, b, n - 0xf0, 3, 0x80, 0xbf⟩
  else none

/-- Reads on from a position; `read` are the characters so far, the last one first. -/
def decodeFrom (position : Nat) (read : List Char) :
    Option Pending → List UInt8 → Except DecodeFault (List Char)
  | none, [] => .ok read.reverse
  | some p, [] => .error ⟨p.start, position, p.first, .unexpectedEnd⟩
  | none, b :: rest =>
    if b.toNat < 0x80 then decodeFrom (position + 1) (Char.ofNat b.toNat :: read) none rest
    else match Pending.ofLead? position b with
      | none => .error ⟨position, position + 1, b, .invalidStart⟩
      | some p => decodeFrom (position + 1) read (some p) rest
  | some p, b :: rest =>
    if p.low ≤ b ∧ b ≤ p.high then
      let value := 64 * p.value + b.toNat % 64
      if p.owed = 1 then decodeFrom (position + 1) (Char.ofNat value :: read) none rest
      else
        let p := { p with value, owed := p.owed - 1, low := 0x80, high := 0xbf }
        decodeFrom (position + 1) read (some p) rest
    else .error ⟨p.start, position, p.first, .invalidContinuation⟩

/-- The text of some bytes. -/
def decode (bytes : List UInt8) : Except DecodeFault String :=
  (decodeFrom 0 [] none bytes).map String.ofList

/-- The bytes of a text. -/
def encode (s : String) : List UInt8 := s.toUTF8.toList

/-- Characters with every line end written as one line feed. -/
def unifyNewlines : List Char → List Char
  | '\r' :: '\n' :: rest => '\n' :: unifyNewlines rest
  | '\r' :: rest => '\n' :: unifyNewlines rest
  | c :: rest => c :: unifyNewlines rest
  | [] => []

/-- The text of a file, with every line end written as one line feed. -/
def decodeLines (bytes : List UInt8) : Except DecodeFault String :=
  (decode bytes).map fun s => String.ofList (unifyNewlines s.toList)

end Widgetry.Text
