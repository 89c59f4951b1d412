import Widgetry.Number.Shortest

/-!
# Number text

How numbers are written and read. `Layout` holds the decisions of one output format about the
digits chosen by `Decimal.shortest`: where positional notation ends, and what an exponent looks
like. Whole numbers are written in decimal, but never with more than `digitLimit` digits, and
none longer is read.
-/

namespace Widgetry.Decimal

/-- What a format decides about the text of a number. -/
structure Layout where
  /-- the least exponent of the leading digit that is written positionally -/
  plainFrom : Int
  /-- the least exponent above those that is not -/
  plainBelow : Int
  /-- whether an exponent that is not negative has a sign -/
  exponentPlus : Bool
  /-- the least number of digits of an exponent -/
  exponentWidth : Nat
  /-- the text of what is not a number -/
  notNumber : String
  /-- the text of the positive infinity -/
  infinity : String

/-- Zeros in front up to the width. -/
def padLeft (width : Nat) (digits : List Char) : List Char :=
  List.replicate (width - digits.length) '0' ++ digits

/-- The text of the digits under a layout. -/
def Layout.magnitude (l : Layout) (d : Digits) : List Char :=
  let ds := (Nat.repr d.digits).toList
  let leading := d.exponent + ds.length - 1
  if l.plainFrom ≤ leading ∧ leading < l.plainBelow then
    if 0 ≤ d.exponent then
      ds ++ List.replicate d.exponent.toNat '0' ++ ".0".toList
    else if 0 ≤ leading then
      let whole := leading.toNat + 1
      ds.take whole ++ '.' :: ds.drop whole
    else "0.".toList ++ List.replicate (-leading - 1).toNat '0' ++ ds
  else
    let mantissa := match ds with
      | [] => []
      | [c] => [c]
      | c :: rest => c :: '.' :: rest
    let sign := if leading < 0 then ['-'] else if l.exponentPlus then ['+'] else []
    mantissa ++ 'e' :: sign ++ padLeft l.exponentWidth (Nat.repr leading.natAbs).toList

/-- The text of a number: the fewest digits that identify it, laid out. -/
def Layout.render (l : Layout) (x : Float) : String :=
  match Binary64.Exact.ofFloat? x with
  | none =>
    if x.isNaN then l.notNumber
    else if Binary64.signBit x then "-" ++ l.infinity else l.infinity
  | some e =>
    let text := if e.mantissa = 0 then "0.0".toList else l.magnitude (shortest e)
    String.ofList (if e.negative then '-' :: text else text)

/-- The value of decimal digits of any script, most significant first; none if a character is no
decimal digit. -/
def valueOf? (digitValue : Char → Option Nat) (digits : List Char) : Option Nat :=
  digits.foldlM (fun n c => (digitValue c).map (10 * n + ·)) 0

/-- No whole number with more digits than this is written or read. -/
def digitLimit : Nat := 4300

/-- The decimal text of a whole number, unless it has more digits than `digitLimit`. -/
def ofInt? (n : Int) : Option String :=
  let digits := Nat.repr n.natAbs
  if digits.length ≤ digitLimit then some (if n < 0 then "-" ++ digits else digits) else none

end Widgetry.Decimal
