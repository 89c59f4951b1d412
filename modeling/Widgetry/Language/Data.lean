import Widgetry.Language.Syntax

/-!
# Syntax trees as plain data

Every part of a tree is an object whose entry `t` names what the part is, followed by the parts that
it consists of and the line where it began. What is absent is written as such.
-/

namespace Widgetry

/-- The object of a part of a tree. -/
def treeData (tag : String) (entries : List (String × Value)) (line : Nat) : Value :=
  .object ((.str "t", .str tag) :: entries.map (fun e => (.str e.1, e.2)) ++ [(.str "line", .int line)])

/-- A name that may be absent. -/
def nameData : Option String → Value
  | some s => .str s
  | none => .nil

/-- A parameter with its type. -/
def paramData (p : String × Option String) : Value :=
  .object [(.str "t", .str "Param"), (.str "name", .str p.1), (.str "type_name", nameData p.2)]

mutual

def Expr.toData : Expr → Value
  | .literal v line => treeData "Literal" [("value", .scalar v)] line
  | .ident n line => treeData "Ident" [("name", .str n)] line
  | .array items line => treeData "ArrayLit" [("items", .list (exprsData items))] line
  | .unary op e line => treeData "Unary" [("op", .str op.symbol), ("operand", e.toData)] line
  | .binary op l r line =>
    treeData "Binary" [("op", .str op.symbol), ("left", l.toData), ("right", r.toData)] line
  | .member e n line => treeData "Member" [("obj", e.toData), ("name", .str n)] line
  | .call f args line =>
    treeData "Call" [("callee", f.toData), ("args", .list (exprsData args))] line
  | .node kind args props body line =>
    treeData "NodeExpr" [("kind", .str kind), ("args", .list (exprsData args)),
      ("props", .list (propertiesData props)), ("body", .list (stmtsData body))] line

def exprsData : List Expr → List Value
  | [] => []
  | e :: rest => e.toData :: exprsData rest

def optionalExprData : Option Expr → Value
  | some e => e.toData
  | none => .nil

def Property.toData : Property → Value
  | ⟨name, value, line⟩ => treeData "Prop" [("name", .str name), ("value", value.toData)] line

def propertiesData : List Property → List Value
  | [] => []
  | p :: rest => p.toData :: propertiesData rest

def Target.toData : Target → Value
  | .name n line => treeData "Ident" [("name", .str n)] line
  | .member e n line => treeData "Member" [("obj", e.toData), ("name", .str n)] line

def Stmt.toData : Stmt → Value
  | .expr e line => treeData "ExprStmt" [("expr", e.toData)] line
  | .bind name value type mutable line =>
    treeData "Let" [("name", .str name), ("value", value.toData), ("type_name", nameData type),
      ("mutable", .bool mutable)] line
  | .assign target op value line =>
    treeData "Assign" [("target", target.toData), ("op", .str op.symbol),
      ("value", value.toData)] line
  | .choose subject arms line =>
    treeData "IsStmt" [("subject", subject.toData), ("arms", .list (armsData arms))] line
  | .each name items body line =>
    treeData "ForStmt" [("var", .str name), ("iterable", items.toData),
      ("body", .list (stmtsData body))] line
  | .fn d => d.toData
  | .type d => d.toData

def stmtsData : List Stmt → List Value
  | [] => []
  | s :: rest => s.toData :: stmtsData rest

def Arm.toData : Arm → Value
  | ⟨pattern, body, line⟩ =>
    treeData "IsArm" [("pattern", optionalExprData pattern), ("body", .list (stmtsData body))] line

def armsData : List Arm → List Value
  | [] => []
  | a :: rest => a.toData :: armsData rest

def FnDecl.toData : FnDecl → Value
  | ⟨name, params, body, result, line⟩ =>
    treeData "FnDecl" [("name", .str name), ("params", .list (params.map paramData)),
      ("body", .list (stmtsData body)), ("return_type", nameData result)] line

def fnsData : List FnDecl → List Value
  | [] => []
  | d :: rest => d.toData :: fnsData rest

def FieldDecl.toData : FieldDecl → Value
  | ⟨name, type, default, line⟩ =>
    treeData "FieldDecl" [("name", .str name), ("type_name", .str type),
      ("default", optionalExprData default)] line

def fieldsData : List FieldDecl → List Value
  | [] => []
  | f :: rest => f.toData :: fieldsData rest

def TypeDecl.toData : TypeDecl → Value
  | ⟨name, specs, members, methods, line⟩ =>
    treeData "TypeDecl" [("name", .str name), ("specs", .list (specs.map .str)),
      ("members", .list (fieldsData members)), ("methods", .list (fnsData methods))] line

end

end Widgetry
