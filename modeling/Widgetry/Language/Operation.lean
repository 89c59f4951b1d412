import Widgetry.Language.Error
import Widgetry.Language.Operator
import Widgetry.Value.Store
import Widgetry.Value.Text

/-!
# Operators on values

What the operators of the language do. Whole numbers have no bound and divide towards zero; an
operation on a whole number and a floating-point number first rounds the whole number, but a
comparison does not. `+` also joins texts, with the text of whatever stands beside one, and lists.

Operands may hold references to tables of fields; `σ` is the store that these refer to.
-/

namespace Widgetry

/-- Whether a value counts as true: all do but the absent value, `false`, zero, and the empty text
and list. -/
def Value.truthy : Value → Bool
  | .scalar .nil => false
  | .scalar (.bool b) => b
  | .scalar (.int n) => n != 0
  | .scalar (.float x) => x != 0.0
  | .scalar (.str s) => s != ""
  | .list items => !items.isEmpty
  | .object _ | .node _ | .live _ => true

/-- What a field of a type holds if nothing else is said. -/
def zeroValue (type : String) : Value :=
  if "[]".toList.isPrefixOf type.toList then .list []
  else if ["int", "i32", "i64", "u32", "u64", "uint"].contains type then .int 0
  else if ["float", "f32", "f64", "double"].contains type then .float 0.0
  else if type == "bool" then .bool false
  else if type == "str" || type == "string" then .str ""
  else .nil

/-- Two operands of an arithmetic operator. -/
inductive Operands where
  | whole (m n : Int)
  | real (x y : Float)

/-- A number, whole or not. Truth values are no numbers here. -/
inductive Quantity where
  | whole (n : Int)
  | real (x : Float)

namespace Quantity

def ofValue? : Value → Option Quantity
  | .int n => some (.whole n)
  | .float x => some (.real x)
  | _ => none

def toReal : Quantity → Except NumberFault Float
  | whole n => match Binary64.ofInt? n with
    | some x => .ok x
    | none => .error .beyondRange
  | real x => .ok x

def isZero : Quantity → Bool
  | whole n => n == 0
  | real x => x == 0.0

/-- The exact order of two quantities; none if one is not a number. -/
def compare? : Quantity → Quantity → Option Ordering
  | whole m, whole n => some (compare m n)
  | real x, whole n => Binary64.compareInt x n
  | whole m, real y => (Binary64.compareInt y m).map Ordering.swap
  | real x, real y =>
    if x < y then some .lt else if y < x then some .gt else if x == y then some .eq else none

/-- Both as whole numbers if both are, otherwise both rounded. -/
def operands : Quantity → Quantity → Except NumberFault Operands
  | whole m, whole n => .ok (.whole m n)
  | a, b => do
    let x ← a.toReal
    let y ← b.toReal
    return .real x y

end Quantity

def applyUnary (op : UnaryOp) (v : Value) (line : Option Nat) : Except Fault Value :=
  match op with
  | .bang => .ok (.bool !v.truthy)
  | .minus =>
    match v with
    | .int n => .ok (.int (-n))
    | .float x => .ok (.float (-x))
    | _ => Fault.evaluation (.unaryMismatch op.symbol v.typeName) line

/-- The arithmetic of numbers; a division has been checked for zero. -/
def arithmetic (op : BinaryOp) (a b : Quantity) : Except NumberFault Value := do
  match ← a.operands b with
  | .whole m n => return .int (match op with
    | .add => m + n
    | .sub => m - n
    | .mul => m * n
    | .div => Int.tdiv m n
    | _ => Int.tmod m n)
  | .real x y => return .float (match op with
    | .add => x + y
    | .sub => x - y
    | .mul => x * y
    | .div => x / y
    | _ => Binary64.floorRemainder x y)

/-- Whether an order satisfies a comparison operator. -/
def BinaryOp.holds (op : BinaryOp) (order : Option Ordering) : Bool :=
  match op, order with
  | .lt, some .lt => true
  | .le, some .lt | .le, some .eq => true
  | .gt, some .gt => true
  | .ge, some .gt | .ge, some .eq => true
  | _, _ => false

def applyNumbers (op : BinaryOp) (a b : Quantity) (line : Option Nat) : Except Fault Value :=
  match op with
  | .lt | .le | .gt | .ge => .ok (.bool (op.holds (a.compare? b)))
  | .div | .mod =>
    if b.isZero then Fault.evaluation .divisionByZero line
    else Fault.ofNumber (arithmetic op a b)
  | _ => Fault.ofNumber (arithmetic op a b)

/-- Whether a value is a text. -/
def Value.isStr : Value → Bool
  | .str _ => true
  | _ => false

/-- What is left when no operand is special: numbers, or a mismatch. -/
def applyPlain (op : BinaryOp) (left right : Value) (line : Option Nat) : Except Fault Value :=
  match Quantity.ofValue? left, Quantity.ofValue? right with
  | some a, some b => applyNumbers op a b line
  | _, _ => Fault.evaluation (.binaryMismatch op.symbol left.typeName right.typeName) line

def applyBinary (σ : Store) (op : BinaryOp) (left right : Value) (line : Option Nat) :
    Except Fault Value :=
  match op with
  | .and => .ok (.bool (left.truthy && right.truthy))
  | .or => .ok (.bool (left.truthy || right.truthy))
  | .eq => .ok (.bool ((σ.read left).same (σ.read right)))
  | .ne => .ok (.bool !(σ.read left).same (σ.read right))
  | .add =>
    if left.isStr || right.isStr then Fault.ofNumber do
      let a ← (σ.read left).display
      let b ← (σ.read right).display
      return .str (a ++ b)
    else match left, right with
      | .list xs, .list ys => .ok (.list (xs ++ ys))
      | _, _ => applyPlain op left right line
  | _ => applyPlain op left right line

/-- The prefix operator written as a symbol, which may be none of the language. -/
def applyUnarySymbol (symbol : String) (v : Value) (line : Option Nat) : Except Fault Value :=
  match UnaryOp.ofSymbol? symbol with
  | some op => applyUnary op v line
  | none => Fault.evaluation (.unaryMismatch symbol v.typeName) line

/-- The infix operator written as a symbol, which may be none of the language. -/
def applyBinarySymbol (σ : Store) (symbol : String) (left right : Value) (line : Option Nat) :
    Except Fault Value :=
  match BinaryOp.ofSymbol? symbol with
  | some op => applyBinary σ op left right line
  | none =>
    match Quantity.ofValue? left, Quantity.ofValue? right with
    | some _, some _ => Fault.evaluation (.unknownOperator symbol) line
    | _, _ => Fault.evaluation (.binaryMismatch symbol left.typeName right.typeName) line

end Widgetry
