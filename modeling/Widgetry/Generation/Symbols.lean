import Widgetry.Generation.Template
import Widgetry.Text.Identifier
import Widgetry.Text.Sorted

/-!
# Messages and kinds of a template

A property whose name begins with `on` names a message: `Msg.Inc`, `"Counter.Inc"` and `"Inc"` all
name the variant `Inc`. `Template.symbols` gathers these and the kinds of all nodes.

In a template read from foreign data, a kind or the name of a property may be any value. Such a kind
is gathered too, unless it has parts; a property must have a name.
-/

namespace Widgetry

/-- Whether a property names a message. -/
def isMessageProp (name : String) : Bool := "on".toList.isPrefixOf name.toList

/-- The variant that a text names: what follows the last point, if it is an identifier. -/
def textVariant? (s : String) : Option String :=
  let name := String.ofList (s.toList.reverse.takeWhile (· != '.')).reverse
  if Text.isIdentifier name then some name else none

def Scalar.variant? : Scalar → Option String
  | .str s => textVariant? s
  | _ => none

def Value.variant? : Value → Option String
  | .scalar s => s.variant?
  | _ => none

def Expr.variant? : Expr → Option String
  | .member (.ident obj _) name _ => if obj == "self" then none else some name
  | .literal s _ => s.variant?
  | _ => none

def Part.variant? : Part → Option String
  | .known v => v.variant?
  | .code e => e.variant?

/-- Why the symbols of a template cannot be gathered. -/
inductive TemplateFault where
  /-- a kind is a list or an object -/
  | compoundKind
  /-- a property has no name -/
  | namelessProp
  /-- some kinds are names and others are numbers -/
  | mixedKinds
deriving DecidableEq, Repr

structure Symbols where
  variants : List String := []
  kinds : List Scalar := []

namespace Symbols

def addVariant (s : Symbols) (name : String) : Symbols :=
  { s with variants := Text.insertSorted name s.variants }

/-- Adds a kind, unless an equal one is there. -/
def addKind (s : Symbols) (kind : Scalar) : Symbols :=
  if s.kinds.any (·.same kind) then s else { s with kinds := s.kinds ++ [kind] }

/-- Adds the variants that properties name. -/
def addProps : List (Key × Part) → Symbols → Except TemplateFault Symbols
  | [], s => .ok s
  | (.str name, part) :: rest, s =>
    match if isMessageProp name then part.variant? else none with
    | some v => addProps rest (s.addVariant v)
    | none => addProps rest s
  | _ :: _, _ => .error .namelessProp

/-- The number that a kind stands for. -/
def number? : Scalar → Option Quantity
  | .bool b => some (.whole (if b then 1 else 0))
  | .int n => some (.whole n)
  | .float x => some (.real x)
  | _ => none

/-- Adds a number to a sorted list. -/
def insertNumber (kind : Scalar) (n : Quantity) : List (Scalar × Quantity) → List (Scalar × Quantity)
  | [] => [(kind, n)]
  | (k, m) :: rest =>
    if n.compare? m == some .lt then (kind, n) :: (k, m) :: rest
    else (k, m) :: insertNumber kind n rest

/-- The name that a kind is. -/
def name? : Scalar → Option String
  | .str s => some s
  | _ => none

/-- The kinds in order: names by their text, numbers by size. -/
def sortedKinds (s : Symbols) : Except TemplateFault (List Scalar) :=
  match s.kinds with
  | [] => .ok []
  | [k] => .ok [k]
  | kinds =>
    match kinds.mapM name?, kinds.mapM fun k => (number? k).map fun n => (k, n) with
    | some names, _ => .ok ((Text.sortedSet names).map .str)
    | none, some numbers =>
      .ok ((numbers.foldl (fun sorted e => insertNumber e.1 e.2 sorted) []).map (·.1))
    | none, none => .error .mixedKinds

end Symbols

mutual

/-- Adds the symbols of a template and of all below it. -/
def Template.addSymbols : Template → Symbols → Except TemplateFault Symbols
  | .mk (.scalar kind) _ props children, s => do
    let s ← Symbols.addProps props (s.addKind kind)
    addAllSymbols children s
  | .mk _ _ _ _, _ => .error .compoundKind

def addAllSymbols : List Template → Symbols → Except TemplateFault Symbols
  | [], s => .ok s
  | t :: rest, s => do
    let s ← t.addSymbols s
    addAllSymbols rest s

end

/-- The variants and kinds that occur in a template. -/
def Template.symbols (t : Template) : Except TemplateFault Symbols := t.addSymbols {}

end Widgetry
