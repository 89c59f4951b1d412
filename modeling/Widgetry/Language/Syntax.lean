import Widgetry.Language.Operator
import Widgetry.Value.Basic

/-!
# Syntax trees

The expressions, statements and declarations of the language. Every part knows the line where it
began, so that later stages can say where something went wrong.

A *node expression* `kind(args) \x7b name: value  statement… \x7d` describes one element of a user
interface; the statements in its body produce its children. A call without a body is a `call`, even
if it turns out to make a node.
-/

namespace Widgetry

mutual

inductive Expr where
  | literal (value : Scalar) (line : Nat)
  | ident (name : String) (line : Nat)
  | array (items : List Expr) (line : Nat)
  | unary (op : UnaryOp) (operand : Expr) (line : Nat)
  | binary (op : BinaryOp) (left right : Expr) (line : Nat)
  | member (obj : Expr) (name : String) (line : Nat)
  | call (callee : Expr) (args : List Expr) (line : Nat)
  | node (kind : String) (args : List Expr) (props : List Property) (body : List Stmt) (line : Nat)

/-- A named property of a node expression. -/
structure Property where
  name : String
  value : Expr
  line : Nat

inductive Stmt where
  | expr (e : Expr) (line : Nat)
  /-- `let` and `var` -/
  | bind (name : String) (value : Expr) (type : Option String) (mutable : Bool) (line : Nat)
  | assign (target : Target) (op : AssignOp) (value : Expr) (line : Nat)
  /-- `is`: the first arm whose pattern equals the subject -/
  | choose (subject : Expr) (arms : List Arm) (line : Nat)
  /-- `for` -/
  | each (name : String) (items : Expr) (body : List Stmt) (line : Nat)
  | fn (decl : FnDecl)
  | type (decl : TypeDecl)

/-- What can be assigned to. -/
inductive Target where
  | name (name : String) (line : Nat)
  | member (obj : Expr) (name : String) (line : Nat)

/-- An arm of an `is` statement; one without a pattern matches everything. -/
structure Arm where
  pattern : Option Expr
  body : List Stmt
  line : Nat

structure FnDecl where
  name : String
  params : List (String × Option String)
  body : List Stmt
  result : Option String
  line : Nat

/-- A field of a type declaration. -/
structure FieldDecl where
  name : String
  type : String
  default : Option Expr
  line : Nat

structure TypeDecl where
  name : String
  specs : List String
  members : List FieldDecl
  methods : List FnDecl
  line : Nat

end

instance : Inhabited Expr := ⟨.literal .nil 0⟩
instance : Inhabited Stmt := ⟨.expr default 0⟩

namespace FnDecl

def paramNames (fn : FnDecl) : List String := fn.params.map (·.1)

end FnDecl

namespace TypeDecl

/-- The first method of a name. -/
def method? (d : TypeDecl) (name : String) : Option FnDecl := d.methods.find? (·.name == name)

/-- A type is a widget if it says so or has a view. -/
def isWidget (d : TypeDecl) : Bool := d.specs.contains "Widget" || (d.method? "view").isSome

end TypeDecl

namespace Target

/-- The name that is written to. -/
def label : Target → String
  | name n _ => n
  | member _ n _ => n

/-- The expression that a target is written as. -/
def toExpr : Target → Expr
  | name n line => .ident n line
  | member obj n line => .member obj n line

/-- The target that an expression denotes. -/
def ofExpr? : Expr → Option Target
  | .ident n line => some (.name n line)
  | .member obj n line => some (.member obj n line)
  | _ => none

end Target

namespace Expr

def isNode : Expr → Bool
  | node .. => true
  | _ => false

/-- Whether an expression is the name `self`. -/
def isSelf : Expr → Bool
  | ident n _ => n == "self"
  | _ => false

end Expr

/-- A parsed source text. -/
structure Code where
  stmts : List Stmt
  file : Option String

namespace Code

def types (c : Code) : List TypeDecl :=
  c.stmts.filterMap fun | .type d => some d | _ => none

def functions (c : Code) : List FnDecl :=
  c.stmts.filterMap fun | .fn d => some d | _ => none

/-- The declarations of widgets, in order. -/
def widgets (c : Code) : List TypeDecl := c.types.filter (·.isWidget)

end Code

end Widgetry
