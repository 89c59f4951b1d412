import Widgetry.Language.Constant
import Widgetry.Language.Evaluation

/-!
# Templates

The tree of nodes that a view makes, as far as it is known before the program runs. Arguments and
properties whose value is constant hold that value; the others hold their expression. Only nodes
that are written out are known: a statement that is no node leaves no trace.
-/

namespace Widgetry

/-- An argument or a property of a template. -/
inductive Part where
  | known (v : Value)
  | code (e : Expr)

instance : Inhabited Part := ⟨.known default⟩

inductive Template where
  | mk (kind : Value) (args : List Part) (props : List (Key × Part)) (children : List Template)

instance : Inhabited Template := ⟨.mk default [] [] []⟩

namespace Template

def kind : Template → Value
  | mk k _ _ _ => k

def args : Template → List Part
  | mk _ a _ _ => a

def props : Template → List (Key × Part)
  | mk _ _ p _ => p

def children : Template → List Template
  | mk _ _ _ c => c

def prop? (t : Template) (name : String) : Option Part := Entries.find? (.str name) t.props

/-- The children of one kind, in order. -/
def childrenOf (t : Template) (kind : String) : List Template :=
  t.children.filter fun c => c.kind.same (.str kind)

mutual

/-- A node as a template: everything in it is known. -/
def ofNode : Node → Template
  | .mk kind args props children =>
    mk kind (args.map .known) (props.map fun p => (p.1, .known p.2)) (ofNodes children)

def ofNodes : List Node → List Template
  | [] => []
  | n :: rest => ofNode n :: ofNodes rest

end

/-- Stands in where a view has no node. -/
def placeholder : Template := ofNode Node.placeholder

end Template

/-- The value of a constant expression, or else the expression. -/
def Part.ofExpr (e : Expr) : Except NumberFault Part := do
  match ← e.constant with
  | .ok v => return .known v
  | .error _ => return .code e

def partsOf : List Expr → Except NumberFault (List Part)
  | [] => .ok []
  | e :: rest => do
    let p ← Part.ofExpr e
    let ps ← partsOf rest
    return p :: ps

/-- The properties of a node expression; of several of one name the last value counts. -/
def propParts (props : List Property) : Except NumberFault (List (Key × Part)) := do
  let values ← partsOf (props.map (·.value))
  return Entries.ofPairs ((props.map fun p => Scalar.str p.name).zip values)

mutual

/-- The template that an expression denotes, if it makes a node. -/
def Expr.template? : Expr → Except NumberFault (Option Template)
  | .node kind args props body _ => do
    let args ← partsOf args
    let props ← propParts props
    let children ← templatesOf body
    return some (.mk (.str kind) args props children)
  | .call (.ident name _) args _ =>
    if builtins.contains name then .ok none
    else do
      let args ← partsOf args
      return some (.mk (.str name) args [] [])
  | _ => .ok none

/-- The templates of the statements that denote one. -/
def templatesOf : List Stmt → Except NumberFault (List Template)
  | [] => .ok []
  | .expr e _ :: rest => do
    let t ← e.template?
    let ts ← templatesOf rest
    return t.toList ++ ts
  | _ :: rest => templatesOf rest

end

end Widgetry
