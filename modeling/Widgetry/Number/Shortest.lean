import Widgetry.Number.Binary64

/-!
# The fewest digits that identify a number

Every binary64 number is the nearest one to a whole interval of reals. Among the decimals in
that interval this module picks one with the fewest digits, of those the nearest to the number,
and of two equally near the one with an even last digit. All comparisons are between exact
naturals.
-/

namespace Widgetry.Decimal

/-- The positive number `digits · 10 ^ exponent`. -/
structure Digits where
  digits : Nat
  exponent : Int
deriving DecidableEq, Repr

/-- The reals that round to one positive number, as numerators over one common `denominator`.
The `ends` belong to the interval exactly if the mantissa is even. -/
structure Interval where
  low : Nat
  value : Nat
  high : Nat
  denominator : Nat
  ends : Bool

/-- Halfway to the neighbours on both sides. Below a power of two the gap is half as wide. -/
def Interval.ofExact (e : Binary64.Exact) : Interval :=
  let unit := Nat.pow 2 e.exponent.toNat
  let narrow := e.mantissa == Binary64.leadingBit && decide (-1074 < e.exponent)
  { low := (4 * e.mantissa - if narrow then 1 else 2) * unit
    value := 4 * e.mantissa * unit
    high := (4 * e.mantissa + 2) * unit
    denominator := 4 * Nat.pow 2 e.shift
    ends := e.mantissa % 2 == 0 }

/-- Whether `n · 10 ^ p` lies in the interval. -/
def Interval.holds (i : Interval) (n : Nat) (p : Int) : Bool :=
  let x := n * Nat.pow 10 p.toNat * i.denominator
  let scale := Nat.pow 10 (-p).toNat
  if i.ends then decide (i.low * scale ≤ x ∧ x ≤ i.high * scale)
  else decide (i.low * scale < x ∧ x < i.high * scale)

/-- The largest `n` with `n · 10 ^ p` not above the value. -/
def Interval.below (i : Interval) (p : Int) : Nat :=
  i.value * Nat.pow 10 (-p).toNat / (i.denominator * Nat.pow 10 p.toNat)

/-- Of the two neighbours of the value on the grid of multiples of `10 ^ p`, the nearest that
lies in the interval. -/
def Interval.onGrid? (i : Interval) (p : Int) : Option Nat :=
  let n := i.below p
  match i.holds n p, i.holds (n + 1) p with
  | false, false => none
  | true, false => some n
  | false, true => some (n + 1)
  | true, true =>
    let twice := 2 * i.value * Nat.pow 10 (-p).toNat
    match compare twice ((2 * n + 1) * Nat.pow 10 p.toNat * i.denominator) with
    | .lt => some n
    | .gt => some (n + 1)
    | .eq => some (if n % 2 = 0 then n else n + 1)

/-- How many decimal digits a natural has; zero has none. -/
def digitCount (n : Nat) : Nat :=
  if n = 0 then 0 else digitCount (n / 10) + 1

/-- Three hundred and twenty-four places after the point reach below every positive number. -/
def deepestPlace : Nat := 324

/-- The exponent of the leading digit of the value. -/
def Interval.leading (i : Interval) : Int :=
  (digitCount (i.below (-deepestPlace)) : Int) - 1 - deepestPlace

/-- The first grid, coarsest first, with a point in the interval. Seventeen digits identify
every number. -/
def Interval.shortest (i : Interval) : Digits :=
  let grids := (List.range 17).map fun k : Nat => i.leading - (k : Int)
  match grids.findSome? fun p => (i.onGrid? p).map (Digits.mk · p) with
  | some d => d
  | none => ⟨i.below (i.leading - 16), i.leading - 16⟩

/-- Moves the zeros at the end of the digits into the exponent. -/
def Digits.trim (d : Digits) : Digits :=
  if h : d.digits ≠ 0 ∧ d.digits % 10 = 0 then
    Digits.trim ⟨d.digits / 10, d.exponent + 1⟩
  else d
termination_by d.digits
decreasing_by show d.digits / 10 < d.digits; omega

/-- The shortest digits of the magnitude of a finite number other than zero. -/
def shortest (e : Binary64.Exact) : Digits := (Interval.ofExact e).shortest.trim

end Widgetry.Decimal
