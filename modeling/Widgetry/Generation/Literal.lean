import Widgetry.Generation.Error
import Widgetry.Json.Quoted

/-!
# Literals of generated source

The source of a plain value. Texts are written as in JSON. A node has no literal.
-/

namespace Widgetry

/-- The literal of a scalar that a program can write. -/
def Scalar.source : Scalar → String
  | .nil => "None"
  | .bool b => if b then "True" else "False"
  | .int n => toString n
  | .float x => numberLayout.render x
  | .str s => Json.quoted s

/-- The literal of a scalar, unless it is a number whose text is too long. -/
def Scalar.literal (s : Scalar) : Except GenerationFault String :=
  match s with
  | .int n => (wholeText n).mapError .number
  | s => .ok s.source

mutual

/-- The literal of a value. -/
def Value.literal : Value → Except GenerationFault String
  | .scalar s => s.literal
  | .list items => do
    let parts ← literalItems items
    return "[" ++ commaSeparated parts ++ "]"
  | .object entries => do
    let parts ← literalEntries entries
    return "\x7b" ++ commaSeparated parts ++ "\x7d"
  | .node _ | .live _ => GenerationFault.codegen .nodeInLiteral

def literalItems : List Value → Except GenerationFault (List String)
  | [] => .ok []
  | v :: rest => do
    let part ← v.literal
    let parts ← literalItems rest
    return part :: parts

def literalEntries : List (Key × Value) → Except GenerationFault (List String)
  | [] => .ok []
  | (k, v) :: rest => do
    let key ← k.literal
    let part ← v.literal
    let parts ← literalEntries rest
    return (key ++ ": " ++ part) :: parts

end

end Widgetry
