import Widgetry.Number.Fault
import Widgetry.Number.Layout
import Widgetry.Value.Basic

/-!
# The text of values

A value has two texts. `Value.inspect` is the one it has inside a printed container: texts are
quoted and the truth values are capitalised. `Value.display` is the one a program prints: texts
stand as they are, the absent value is `nil`, and lists show their items in the same way. Both fail
only on a whole number that is too long to be written.

A reference to a table prints as an object with its fields left out; `Store.read` puts them in
first, except where a table holds itself.
-/

namespace Widgetry

/-- Numbers have the fewest digits that identify them, positional from a ten-thousandth up to
sixteen digits, and otherwise a signed exponent of two digits or more. -/
def numberLayout : Decimal.Layout where
  plainFrom := -4
  plainBelow := 16
  exponentPlus := true
  exponentWidth := 2
  notNumber := "nan"
  infinity := "inf"

/-- The text of a whole number. -/
def wholeText (n : Int) : Except NumberFault String :=
  match Decimal.ofInt? n with
  | some s => .ok s
  | none => .error .longNumber

/-- Texts set off by a comma and a blank. -/
def commaSeparated (parts : List String) : String := ", ".intercalate parts

def Scalar.inspect : Scalar → Except NumberFault String
  | .nil => .ok "None"
  | .bool b => .ok (if b then "True" else "False")
  | .int n => wholeText n
  | .float x => .ok (numberLayout.render x)
  | .str s => .ok (Text.quoted s)

mutual

def Value.inspect : Value → Except NumberFault String
  | .scalar s => s.inspect
  | .list items => do
    let parts ← inspectItems items
    return "[" ++ commaSeparated parts ++ "]"
  | .object entries => do
    let parts ← inspectEntries entries
    return "\x7b" ++ commaSeparated parts ++ "\x7d"
  | .node n => n.inspect
  | .live _ => .ok "\x7b...\x7d"

def inspectItems : List Value → Except NumberFault (List String)
  | [] => .ok []
  | v :: rest => do
    let part ← v.inspect
    let parts ← inspectItems rest
    return part :: parts

def inspectEntries : List (Key × Value) → Except NumberFault (List String)
  | [] => .ok []
  | (k, v) :: rest => do
    let key ← k.inspect
    let part ← v.inspect
    let parts ← inspectEntries rest
    return (key ++ ": " ++ part) :: parts

def Node.inspect : Node → Except NumberFault String
  | .mk kind args props children => do
    let k ← kind.inspect
    let a ← inspectItems args
    let p ← inspectEntries props
    let c ← inspectNodes children
    return "Node(kind=" ++ k ++ ", args=[" ++ commaSeparated a ++ "], props=\x7b" ++
      commaSeparated p ++ "\x7d, children=[" ++ commaSeparated c ++ "])"

def inspectNodes : List Node → Except NumberFault (List String)
  | [] => .ok []
  | n :: rest => do
    let part ← n.inspect
    let parts ← inspectNodes rest
    return part :: parts

end

/-- The text of a value that stands alone: only texts differ from `inspect`. -/
def Value.plain : Value → Except NumberFault String
  | .str s => .ok s
  | v => v.inspect

mutual

/-- What a program prints for a value. -/
def Value.display : Value → Except NumberFault String
  | .nil => .ok "nil"
  | .bool b => .ok (if b then "true" else "false")
  | .list items => do
    let parts ← displayItems items
    return "[" ++ commaSeparated parts ++ "]"
  | v => v.plain

def displayItems : List Value → Except NumberFault (List String)
  | [] => .ok []
  | v :: rest => do
    let part ← v.display
    let parts ← displayItems rest
    return part :: parts

end

end Widgetry
