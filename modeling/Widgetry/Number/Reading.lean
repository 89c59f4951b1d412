import Widgetry.Number.Fault
import Widgetry.Number.Layout
import Widgetry.Text.Blank
import Widgetry.Text.Numeral

/-!
# Reading numbers

The numbers that a source text writes with the decimal digits of any script.
-/

namespace Widgetry.Decimal

def isDecimal (c : Char) : Bool := (Text.decimalValue? c).isSome

/-- The whole number that digits stand for. The limit on their count is checked first, on the
decimal digits at the front. -/
def readWhole (text : String) : Except NumberFault Nat :=
  let leading := (text.toList.takeWhile isDecimal).length
  if digitLimit < leading then .error (.longText leading)
  else match valueOf? Text.decimalValue? text.toList with
    | some n => .ok n
    | none => .error (.notWhole text)

/-- The number nearest to digits with a point among them. -/
def readFraction (text : String) : Except NumberFault Float :=
  let whole := text.toList.takeWhile (· != '.')
  let places := (text.toList.dropWhile (· != '.')).drop 1
  match valueOf? Text.decimalValue? (whole ++ places) with
  | some n => .ok (Float.ofScientific n true places.length)
  | none => .error (.notFraction text)

/-- The number nearest to decimal digits times a power of ten. A power that puts the leading digit
far outside the range of all numbers is not computed. -/
def scaled (digits : Nat) (exponent : Int) : Float :=
  let leading := exponent + (Nat.repr digits).length
  if digits = 0 ∨ leading < -400 then Float.ofScientific 0 false 0
  else if 400 < leading then Float.ofBits 0x7ff0000000000000
  else Float.ofScientific digits (exponent < 0) exponent.natAbs

/-- A number as its parts: digits, the places behind the point, and an exponent. -/
structure Notation where
  negative : Bool
  digits : List Char
  /-- how many of the digits stand behind the point -/
  places : Nat
  exponent : Int

/-- The value of ASCII digits. -/
def asciiValue (digits : List Char) : Nat := digits.foldl (fun n c => 10 * n + (c.toNat - 48)) 0

/-- The whole number in front of a rest that starts with no digit; a sign may precede it. -/
def signedValue : List Char → Option Int
  | '-' :: ds => if ds ≠ [] ∧ ds.all Char.isDigit then some (-(asciiValue ds : Int)) else none
  | '+' :: ds => if ds ≠ [] ∧ ds.all Char.isDigit then some (asciiValue ds) else none
  | ds => if ds ≠ [] ∧ ds.all Char.isDigit then some (asciiValue ds) else none

/-- Characters without the blanks around them. -/
def trim (cs : List Char) : List Char :=
  let front := cs.dropWhile Text.isBlank
  (front.reverse.dropWhile Text.isBlank).reverse

/-- Digits without the underscores that stand singly between them. -/
def joined? (cs : List Char) : Option (List Char) :=
  if cs.head? = some '_' ∨ cs.getLast? = some '_' then none
  else if (cs.zip cs.tail).contains ('_', '_') then none
  else some (cs.filter (· != '_'))

/-- The parts of a number that is written with ASCII digits: a sign, digits with a point among them
or not, and an exponent or none. -/
def notation? (text : List Char) : Option Notation := do
  let (negative, text) := match text with
    | '-' :: rest => (true, rest)
    | '+' :: rest => (false, rest)
    | _ => (false, text)
  let isMark (c : Char) : Bool := c == 'e' || c == 'E'
  let mantissa := text.takeWhile (!isMark ·)
  let whole := mantissa.takeWhile (· != '.')
  let behind := (mantissa.dropWhile (· != '.')).drop 1
  let digits := whole ++ behind
  if digits.isEmpty || !digits.all Char.isDigit then none
  let exponent ← match text.dropWhile (!isMark ·) with
    | [] => some 0
    | _ :: rest => signedValue rest
  return { negative, digits, places := behind.length, exponent }

def Notation.value (n : Notation) : Float :=
  let x := scaled (asciiValue n.digits) (n.exponent - n.places)
  if n.negative then -x else x

end Widgetry.Decimal
