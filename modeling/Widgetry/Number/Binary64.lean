/-!
# Exact arithmetic on binary64 numbers

A finite `Float` is an integer times a power of two. This module takes a number apart into
those two integers and works on them exactly: the integer a number stands for, its order
against an integer of any size, and the remainder whose sign is that of the divisor.

* `Exact.ofFloat?`: the parts of a finite number;
* `compareInt`: the order of a number and an integer, without rounding either;
* `floorRemainder`: what is left of `x` after the whole multiples of `y` below it;
* `ofInt?`: the number nearest to an integer, unless that lies outside the range.
-/

namespace Widgetry.Binary64

/-- A finite number as `mantissa · 2 ^ exponent`, negated if `negative`. -/
structure Exact where
  negative : Bool
  mantissa : Nat
  exponent : Int
deriving DecidableEq, Repr

/-- The eleven exponent bits. -/
def exponentBits (x : Float) : Nat := (x.toBits.toNat >>> 52) % 2048

/-- What the leading bit of a mantissa of fifty-three bits counts: `2 ^ 52`. -/
def leadingBit : Nat := 0x10000000000000

/-- The fifty-two fraction bits. -/
def fractionBits (x : Float) : Nat := x.toBits.toNat % leadingBit

/-- The sign bit, which is set for `-0.0` too. -/
def signBit (x : Float) : Bool := x.toBits.toNat >>> 63 == 1

def isFinite (x : Float) : Bool := exponentBits x != 2047

/-- The parts of a finite number; none for an infinity or a number that is not one. -/
def Exact.ofFloat? (x : Float) : Option Exact :=
  if isFinite x then
    if exponentBits x = 0 then
      some ⟨signBit x, fractionBits x, -1074⟩
    else
      some ⟨signBit x, fractionBits x + leadingBit, (exponentBits x : Int) - 1075⟩
  else none

/-- The numerator of the value over `2 ^ Exact.shift`. -/
def Exact.scaled (e : Exact) : Int :=
  let n : Int := e.mantissa * Nat.pow 2 e.exponent.toNat
  if e.negative then -n else n

/-- The power of two below the fraction bar: zero for whole exponents. -/
def Exact.shift (e : Exact) : Nat := (-e.exponent).toNat

/-- The order of the exact value and an integer. -/
def Exact.compareInt (e : Exact) (n : Int) : Ordering :=
  compare e.scaled (n * Nat.pow 2 e.shift)

/-- The order of a number and an integer of any size; none if the number is not one. -/
def compareInt (x : Float) (n : Int) : Option Ordering :=
  match Exact.ofFloat? x with
  | some e => some (e.compareInt n)
  | none => if x.isNaN then none else some (if signBit x then .lt else .gt)

/-- The integer that a number stands for, if it stands for one. -/
def toInt? (x : Float) : Option Int :=
  match Exact.ofFloat? x with
  | some e =>
    let unit := Nat.pow 2 e.shift
    if e.scaled % unit = 0 then some (e.scaled / unit) else none
  | none => none

/-- The number nearest to an integer, halves to even; none beyond the largest finite number. -/
def ofInt? (n : Int) : Option Float :=
  let magnitude := Float.ofScientific n.natAbs false 0
  if isFinite magnitude then some (if n < 0 then -magnitude else magnitude) else none

/-- The number with the given parts, for a mantissa below `2 ^ 53` and an exponent from `-1074`
up that leave it in range. -/
def ofExact (e : Exact) : Float :=
  let top := e.mantissa.log2
  let bits :=
    if e.mantissa = 0 then 0
    else if e.exponent + top < -1022 then e.mantissa * Nat.pow 2 (e.exponent + 1074).toNat
    else (e.exponent + top + 1022).toNat * leadingBit + e.mantissa * Nat.pow 2 (52 - top)
  Float.ofBits (UInt64.ofNat (if e.negative then 2048 * leadingBit + bits else bits))

/-- The remainder of `x` by `y` that keeps the sign of `x`, computed exactly. -/
def truncatedRemainder (x y : Float) : Float :=
  match Exact.ofFloat? x, Exact.ofFloat? y with
  | some a, some b =>
    let low := min a.exponent b.exponent
    let m := a.mantissa * Nat.pow 2 (a.exponent - low).toNat
    let n := b.mantissa * Nat.pow 2 (b.exponent - low).toNat
    -- At least one of `m` and `n` is a mantissa, so the remainder has 53 bits at most.
    ofExact ⟨a.negative, m % n, low⟩
  | some _, none => if y.isNaN then y else x
  | none, _ => if x.isNaN then x else 0.0 / 0.0

/-- The remainder of `x` by a non-zero `y` that takes the sign of `y`: what is left above the
largest whole multiple of `y` below `x`. -/
def floorRemainder (x y : Float) : Float :=
  let r := truncatedRemainder x y
  if r == 0.0 then (if signBit y then -0.0 else 0.0)
  else if (r < 0.0) != (y < 0.0) then r + y
  else r

end Widgetry.Binary64
