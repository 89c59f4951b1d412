import Widgetry.Generation.Literal
import Widgetry.Generation.Sink

/-!
# Generated expressions and statements

The source of expressions and statements. The fields of the widget are attributes there, its
methods are methods, and its messages are the members of an enumeration. A name that is bound in
the method itself hides a field and a method of that name.

A `let` binds a name for the statements behind it; the bodies of arms and loops have names of their
own.
-/

namespace Widgetry

/-- The names that generated source speaks of. -/
structure Naming where
  /-- the enumeration of the messages -/
  messages : String := "Msg"
  fields : List String := []
  methods : List String := []

def UnaryOp.source : UnaryOp → String
  | .bang => "not "
  | .minus => "-"

def BinaryOp.source : BinaryOp → String
  | .and => "and"
  | .or => "or"
  | op => op.symbol

namespace Expr

def isText : Expr → Bool
  | literal (.str _) _ => true
  | _ => false

def isBinary : Expr → Bool
  | binary .. => true
  | _ => false

/-- An operand's source, in parentheses if it has an operator between operands. -/
def asOperand (e : Expr) (source : String) : String :=
  if e.isBinary then "(" ++ source ++ ")" else source

/-- The source of a chosen name. -/
def nameSource (g : Naming) (locals : List String) (name : String) : String :=
  if locals.contains name || name == "self" then name
  else if g.fields.contains name then "self." ++ name
  else name

mutual

/-- The source of an expression among some local names. -/
def source (g : Naming) (locals : List String) : Expr → String
  | literal s _ => s.source
  | array items _ => "[" ++ commaSeparated (sources g locals items) ++ "]"
  | ident name _ => nameSource g locals name
  | unary op operand _ => op.source ++ operand.asOperand (operand.source g locals)
  | binary op left right _ =>
    let l := left.source g locals
    let r := right.source g locals
    let joins := op == .add
    let lhs := if joins && right.isText && !left.isText then "str(" ++ l ++ ")"
      else left.asOperand l
    let rhs := if joins && left.isText && !right.isText then "str(" ++ r ++ ")"
      else right.asOperand r
    lhs ++ " " ++ op.source ++ " " ++ rhs
  | member (ident "Msg" line) name _ =>
    if locals.contains "Msg" then (ident "Msg" line).source g locals ++ "." ++ name
    else g.messages ++ "." ++ name
  | member obj name _ => obj.source g locals ++ "." ++ name
  | call (ident name _) args _ =>
    let owner := if g.methods.contains name && !locals.contains name then "self." else ""
    owner ++ name ++ "(" ++ commaSeparated (sources g locals args) ++ ")"
  | call callee args _ =>
    callee.source g locals ++ "(" ++ commaSeparated (sources g locals args) ++ ")"
  | node kind _ _ _ _ => "View.empty()  # nested node: " ++ kind

def sources (g : Naming) (locals : List String) : List Expr → List String
  | [] => []
  | e :: rest => e.source g locals :: sources g locals rest

end

end Expr

/-- The local names with one more. -/
def bindLocal (name : String) (locals : List String) : List String :=
  Text.insertSorted name locals

namespace Stmt

/-- The local names behind a statement. -/
def localsAfter (locals : List String) : Stmt → List String
  | bind name _ _ _ _ => bindLocal name locals
  | _ => locals

/-- Stands for a declaration inside a method. -/
def unsupported (what : String) : Line := .at0 ("pass  # unsupported statement: " ++ what)

mutual

/-- The lines of a statement among some local names. -/
def lines (g : Naming) (locals : List String) : Stmt → List Line
  | expr e _ => [.at0 (e.source g locals)]
  | bind name value _ _ _ => [.at0 (name ++ " = " ++ value.source g locals)]
  | assign target op value _ =>
    [.at0 (target.toExpr.source g locals ++ " " ++ op.symbol ++ " " ++ value.source g locals)]
  | choose subject arms _ =>
    .at0 ("match " ++ subject.source g locals ++ ":") :: Line.indented (armLines g locals arms)
  | each name items body _ =>
    .at0 ("for " ++ name ++ " in " ++ items.source g locals ++ ":") ::
      Line.indented (blockLines g (bindLocal name locals) body)
  | fn _ => [unsupported "FnDecl"]
  | type _ => [unsupported "TypeDecl"]

/-- The lines of an indented block, which is never empty. -/
def blockLines (g : Naming) (locals : List String) : List Stmt → List Line
  | [] => [.at0 "pass"]
  | s :: rest => s.lines g locals ++ restLines g (s.localsAfter locals) rest

/-- The lines of the statements behind the first. -/
def restLines (g : Naming) (locals : List String) : List Stmt → List Line
  | [] => []
  | s :: rest => s.lines g locals ++ restLines g (s.localsAfter locals) rest

def armLines (g : Naming) (locals : List String) : List Arm → List Line
  | [] => []
  | ⟨pattern, body, _⟩ :: rest =>
    let head := match pattern with
      | none => "_"
      | some p => p.source g locals
    .at0 ("case " ++ head ++ ":") :: Line.indented (blockLines g locals body) ++
      armLines g locals rest

end

end Stmt

end Widgetry
