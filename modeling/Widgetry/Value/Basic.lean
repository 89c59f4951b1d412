/-!
# Values and nodes

The data of a running program. A `Scalar` is a plain datum, a `Value` adds lists, objects and
nodes, and a `Node` is one element of a user interface: a kind with positional arguments, named
properties and child nodes. A node's kind is a name, except in nodes read from foreign data, where
any value may stand in its place.

The fields of a widget live in a table that a program can write to while it holds it. Such a table
is not a value: `Value.live` is a reference to it, and `Store` holds what it refers to.
-/

namespace Widgetry

/-- A datum without parts. -/
inductive Scalar where
  | nil
  | bool (b : Bool)
  | int (n : Int)
  | float (x : Float)
  | str (s : String)

/-- The key of an object entry. -/
abbrev Key := Scalar

/-- Names a table of fields. -/
structure TableId where
  index : Nat
deriving DecidableEq, Repr, Inhabited

mutual

inductive Value where
  | scalar (s : Scalar)
  | list (items : List Value)
  | object (entries : List (Key × Value))
  | node (n : Node)
  | live (table : TableId)

inductive Node where
  | mk (kind : Value) (args : List Value) (props : List (Key × Value)) (children : List Node)

end

instance : Inhabited Scalar := ⟨.nil⟩
instance : Inhabited Value := ⟨.scalar .nil⟩
instance : Inhabited Node := ⟨.mk default [] [] []⟩

instance : Coe Scalar Value := ⟨.scalar⟩
instance : Coe Node Value := ⟨.node⟩

namespace Value

@[match_pattern] abbrev nil : Value := .scalar .nil
@[match_pattern] abbrev bool (b : Bool) : Value := .scalar (.bool b)
@[match_pattern] abbrev int (n : Int) : Value := .scalar (.int n)
@[match_pattern] abbrev float (x : Float) : Value := .scalar (.float x)
@[match_pattern] abbrev str (s : String) : Value := .scalar (.str s)

end Value

/-- The name of a scalar's type in messages. -/
def Scalar.typeName : Scalar → String
  | .nil => "nil"
  | .bool _ => "bool"
  | .int _ => "int"
  | .float _ => "float"
  | .str _ => "str"

/-- The name of a value's type in messages. -/
def Value.typeName : Value → String
  | .scalar s => s.typeName
  | .list _ => "array"
  | .object _ => "object"
  | .live _ => "object"
  | .node _ => "node"

namespace Node

def kind : Node → Value
  | mk k _ _ _ => k

def args : Node → List Value
  | mk _ a _ _ => a

def props : Node → List (Key × Value)
  | mk _ _ p _ => p

def children : Node → List Node
  | mk _ _ _ c => c

/-- The first positional argument. -/
def mainArg? (n : Node) : Option Value := n.args.head?

/-- A node of a named kind. -/
def named (kind : String) (args : List Value) (props : List (Key × Value))
    (children : List Node) : Node :=
  mk (.str kind) args props children

/-- Stands in where a view cannot be produced. -/
def placeholder : Node := named "view" [] [] []

mutual

/-- How many levels of nodes there are; a node without children has one. -/
def depth : Node → Nat
  | mk _ _ _ children => 1 + depthBelow children

def depthBelow : List Node → Nat
  | [] => 0
  | n :: rest => max n.depth (depthBelow rest)

end

def withArg (n : Node) (v : Value) : Node := mk n.kind (n.args ++ [v]) n.props n.children

def withChild (n : Node) (c : Node) : Node := mk n.kind n.args n.props (n.children ++ [c])

end Node

end Widgetry
