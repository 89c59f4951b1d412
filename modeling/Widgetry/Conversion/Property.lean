import Widgetry.Conversion.Error
import Widgetry.Value.Equality

/-!
# Reading properties

The properties of a node with the type that an element expects. A property that is absent, or whose
value is the absent value, has no value; one of another type is refused. Truth values are no whole
numbers here, but a floating-point number without fraction is one.
-/

namespace Widgetry

namespace Node

/-- The value of a property, unless it is the absent value. -/
def given? (n : Node) (key : String) : Option Value :=
  match n.prop? key with
  | some .nil => none
  | v => v

/-- Refuses a property of another type. -/
def wrongType {α : Type} (n : Node) (key expected : String) (v : Value) :
    Except ConversionFault α :=
  refuse n.kind (.invalidType key expected v.typeName)

def intProp? (n : Node) (key : String) : Except ConversionFault (Option Int) :=
  match n.given? key with
  | none => .ok none
  | some (.int k) => .ok (some k)
  | some (.float x) => match Binary64.toInt? x with
    | some k => .ok (some k)
    | none => n.wrongType key "int" (.float x)
  | some v => n.wrongType key "int" v

def boolProp? (n : Node) (key : String) : Except ConversionFault (Option Bool) :=
  match n.given? key with
  | none => .ok none
  | some (.bool b) => .ok (some b)
  | some v => n.wrongType key "bool" v

def strProp? (n : Node) (key : String) : Except ConversionFault (Option String) :=
  match n.given? key with
  | none => .ok none
  | some (.str s) => .ok (some s)
  | some v => n.wrongType key "str" v

/-- The texts of a list, up to the first item that is none. -/
def textItems (n : Node) (key : String) : List Value → Except ConversionFault (List String)
  | [] => .ok []
  | .str s :: rest => do
    let ss ← textItems n key rest
    return s :: ss
  | v :: _ => refuse n.kind (.invalidType key "array of str" ("array of " ++ v.typeName))

/-- A list of texts; no value counts as an empty list. -/
def strsProp (n : Node) (key : String) : Except ConversionFault (List String) :=
  match n.given? key with
  | none => .ok []
  | some (.list items) => textItems n key items
  | some v => n.wrongType key "array" v

/-- The identifier of a message. -/
def messageProp? (n : Node) (key : String) : Except ConversionFault (Option String) :=
  match n.given? key with
  | none => .ok none
  | some (.str s) => .ok (some s)
  | some _ => refuse n.kind (.messageRequired key)

/-- The identifier of a message that must be there. -/
def messageProp (n : Node) (key : String) : Except ConversionFault String := do
  match ← n.messageProp? key with
  | some s => return s
  | none => refuse n.kind (.missingProp key)

/-- The first argument as a text to be shown. -/
def mainText (n : Node) (default : String) : Except ConversionFault String :=
  match n.mainArg? with
  | none | some .nil => .ok default
  | some (.node _) => refuse n.kind (.invalidType "arg0" "str" "node")
  | some (.bool b) => .ok (if b then "true" else "false")
  | some v => v.plain.mapError .number

end Node

end Widgetry
