import Widgetry.Text.Quoted

/-!
# What can go wrong with a number

Whole numbers have no bound, but their decimal text has one, and not every whole number has a
floating-point neighbour.
-/

namespace Widgetry

inductive NumberFault where
  /-- the text of a whole number holds a digit that is not decimal -/
  | notWhole (text : String)
  /-- the text of a fraction holds a digit that is not decimal -/
  | notFraction (text : String)
  /-- the text of a whole number is longer than the limit -/
  | longText (digits : Nat)
  /-- a whole number has a longer text than the limit -/
  | longNumber
  /-- a whole number lies outside the floating-point range -/
  | beyondRange
deriving DecidableEq, Repr

namespace NumberFault

def message : NumberFault → String
  | notWhole text => "invalid literal for int() with base 10: " ++ Text.quoted text
  | notFraction text => "could not convert string to float: " ++ Text.quoted text
  | longText digits =>
    "Exceeds the limit (4300 digits) for integer string conversion: value has " ++ digits.repr ++
      " digits; use sys.set_int_max_str_digits() to increase the limit"
  | longNumber =>
    "Exceeds the limit (4300 digits) for integer string conversion; " ++
      "use sys.set_int_max_str_digits() to increase the limit"
  | beyondRange => "int too large to convert to float"

end NumberFault

end Widgetry
