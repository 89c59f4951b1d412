import Widgetry.Digest.Bytes

/-!
# xxHash64

The 64-bit checksum with the seed zero. Stripes of 32 bytes are mixed into four lanes; what is left
over is mixed into their sum by eight bytes, then four, then one.
-/

namespace Widgetry.Digest.XxHash64

def prime1 : UInt64 := 0x9e3779b185ebca87
def prime2 : UInt64 := 0xc2b2ae3d27d4eb4f
def prime3 : UInt64 := 0x165667b19e3779f9
def prime4 : UInt64 := 0x85ebca77c2b2ae63
def prime5 : UInt64 := 0x27d4eb2f165667c5

/-- Turns a word to the left. -/
def turn (x n : UInt64) : UInt64 := (x <<< n) ||| (x >>> (64 - n))

def word (bytes : List UInt8) : UInt64 := UInt64.ofNat (littleEndian bytes)

/-- Mixes a word into a lane. -/
def mix (lane w : UInt64) : UInt64 := turn (lane + w * prime2) 31 * prime1

structure Lanes where
  a : UInt64
  b : UInt64
  c : UInt64
  d : UInt64

def initial : Lanes := ⟨prime1 + prime2, prime2, 0, 0 - prime1⟩

/-- Mixes the four words of a stripe into the lanes. -/
def Lanes.add (l : Lanes) (stripe : List UInt8) : Lanes :=
  match (blocks 8 4 stripe).map word with
  | [p, q, r, s] => ⟨mix l.a p, mix l.b q, mix l.c r, mix l.d s⟩
  | _ => l

/-- Mixes a lane into the sum. -/
def merge (sum lane : UInt64) : UInt64 := (sum ^^^ mix 0 lane) * prime1 + prime4

def Lanes.sum (l : Lanes) : UInt64 :=
  let start := turn l.a 1 + turn l.b 7 + turn l.c 12 + turn l.d 18
  [l.a, l.b, l.c, l.d].foldl merge start

/-- Mixes eight bytes into the sum. -/
def addEight (sum : UInt64) (bytes : List UInt8) : UInt64 :=
  turn (sum ^^^ mix 0 (word bytes)) 27 * prime1 + prime4

/-- Mixes four bytes into the sum. -/
def addFour (sum : UInt64) (bytes : List UInt8) : UInt64 :=
  turn (sum ^^^ (word bytes * prime1)) 23 * prime2 + prime3

/-- Mixes a byte into the sum. -/
def addOne (sum : UInt64) (b : UInt8) : UInt64 := turn (sum ^^^ (b.toUInt64 * prime5)) 11 * prime1

/-- Lets every bit of the sum depend on every other. -/
def spread (x : UInt64) : UInt64 :=
  let x := (x ^^^ (x >>> 33)) * prime2
  let x := (x ^^^ (x >>> 29)) * prime3
  x ^^^ (x >>> 32)

/-- Mixes what follows the stripes, fewer than 32 bytes, into the sum. -/
def addRest (sum : UInt64) (bytes : List UInt8) : UInt64 :=
  let eights := bytes.length / 8
  let sum := (blocks 8 eights bytes).foldl addEight sum
  let rest := bytes.drop (8 * eights)
  let fours := rest.length / 4
  let sum := (blocks 4 fours rest).foldl addFour sum
  (rest.drop (4 * fours)).foldl addOne sum

def digest (bytes : List UInt8) : UInt64 :=
  let stripes := bytes.length / 32
  let sum :=
    if stripes = 0 then prime5
    else ((blocks 32 stripes bytes).foldl Lanes.add initial).sum
  spread (addRest (sum + UInt64.ofNat bytes.length) (bytes.drop (32 * stripes)))

end Widgetry.Digest.XxHash64
