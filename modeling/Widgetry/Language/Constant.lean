import Widgetry.Language.Operation
import Widgetry.Language.Syntax

/-!
# Constant expressions

The expressions that have a value without any program around them: literals, lists of constant
expressions, and operators on them, except the logical ones.
-/

namespace Widgetry

/-- Why an expression has no constant value. -/
inductive NotConstant where
  /-- it holds a name, a call, a node or a logical operator -/
  | shape
  /-- an operator refuses its operands -/
  | refused (e : SourceError)

/-- Tells a refusal from a fault in a number, which is passed on. -/
def settle {α : Type} (r : Except Fault α) : Except NumberFault (Except NotConstant α) :=
  match r with
  | .ok a => .ok (.ok a)
  | .error (.source e) => .ok (.error (.refused e))
  | .error (.number e) => .error e

/-- Goes on with a constant value. -/
def Constant.bind {α β : Type} (r : Except NumberFault (Except NotConstant α))
    (f : α → Except NumberFault (Except NotConstant β)) :
    Except NumberFault (Except NotConstant β) :=
  match r with
  | .ok (.ok a) => f a
  | .ok (.error e) => .ok (.error e)
  | .error e => .error e

mutual

/-- The value of a constant expression. -/
def Expr.constant : Expr → Except NumberFault (Except NotConstant Value)
  | .literal s _ => .ok (.ok (.scalar s))
  | .array items _ =>
    Constant.bind (constantItems items) fun vs => .ok (.ok (.list vs))
  | .unary op operand line =>
    Constant.bind operand.constant fun v => settle (applyUnary op v (some line))
  | .binary op left right line =>
    if op.isLogical then .ok (.error .shape)
    else
      Constant.bind left.constant fun a =>
        Constant.bind right.constant fun b => settle (applyBinary {} op a b (some line))
  | .ident .. | .member .. | .call .. | .node .. => .ok (.error .shape)

def constantItems : List Expr → Except NumberFault (Except NotConstant (List Value))
  | [] => .ok (.ok [])
  | e :: rest =>
    Constant.bind e.constant fun v =>
      Constant.bind (constantItems rest) fun vs => .ok (.ok (v :: vs))

end

/-- The constant value of an expression, and the absent value if it has none. -/
def Expr.constantOrNil (e : Expr) : Except NumberFault Value :=
  e.constant.map fun | .ok v => v | .error _ => .nil

/-- Whether an expression has a constant value. -/
def Expr.isConstant (e : Expr) : Except NumberFault Bool :=
  e.constant.map fun | .ok _ => true | .error _ => false

end Widgetry
