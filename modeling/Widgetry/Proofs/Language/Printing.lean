import Widgetry.Language.Parser

/-!
# Printing syntax trees

How a program is written as a sequence of tokens, without their places. Statements, members,
properties and arms stand between braces with a semicolon between two of them, patterns of arms
stand in brackets, and an operand does where it has to: if it binds less tightly than its place asks
for, or if it is a node expression in a place where a brace opens something else.

Some things can be written in several ways, and a `Style` says which one is taken. Lines are not
written; `atLine` is a tree with all its parts on one line.

What the grammar has no text for is not `writable`: literals that are negative or have a point or
too many digits, and calls of a node expression.
-/

namespace Widgetry

/-! ## Lexemes -/

/-- What a token says, without its place. -/
structure Lexeme where
  kind : TokenKind
  text : String
deriving DecidableEq, Repr

def Token.lexeme (t : Token) : Lexeme := ⟨t.kind, t.text⟩

namespace Lexeme

def op (symbol : String) : Lexeme := ⟨.op, symbol⟩

def word (w : String) : Lexeme := ⟨.keyword, w⟩

def name (n : String) : Lexeme := ⟨.ident, n⟩

def quoted (s : String) : Lexeme := ⟨.str, s⟩

/-- A sequence between two brackets. -/
def enclosed (opening closing : String) (ls : List Lexeme) : List Lexeme :=
  .op opening :: ls ++ [.op closing]

/-- Items with a separator between two of them. -/
def separated (separator : String) (items : List (List Lexeme)) : List Lexeme :=
  [Lexeme.op separator].intercalate items

/-- A list of arguments. -/
def arguments (items : List (List Lexeme)) : List Lexeme := enclosed "(" ")" (separated "," items)

/-- What stands in a body. -/
def block (items : List (List Lexeme)) : List Lexeme :=
  enclosed "\x7b" "\x7d" (separated ";" items)

/-- A text in brackets or not; inside of brackets there may be braces. -/
def wrapped (brackets : Bool) (text : Bool → List Lexeme) (braces : Bool) : List Lexeme :=
  if brackets then enclosed "(" ")" (text true) else text braces

/-- A type name: brackets for each array, and a name. -/
def ofTypeName : List Char → List Lexeme
  | '[' :: ']' :: cs => .op "[" :: .op "]" :: ofTypeName cs
  | cs => [.name (String.ofList cs)]

/-- A type name, if there is one. -/
def ofType : Option String → List Lexeme
  | none => []
  | some s => ofTypeName s.toList

/-- A parameter with its type. -/
def ofParam (p : String × Option String) : List Lexeme := .name p.1 :: ofType p.2

/-- What a type is declared to be. -/
def ofSpecs : List String → List Lexeme
  | [] => []
  | s :: rest => .word "is" :: .name s :: rest.flatMap fun s => [.op ",", .name s]

end Lexeme

/-- How things are written that can be written in several ways. -/
structure Style where
  /-- node expressions without round brackets, and without an empty body, where they can do so -/
  brief : Bool
  /-- `else` for the pattern that takes everything, or else `_` -/
  elseWord : Bool
  /-- `let mut`, or else `var` -/
  letMut : Bool
  /-- no braces around the only statement of an arm -/
  bareArms : Bool

/-! ## Expressions and statements -/

/-- A literal. -/
def Scalar.lexeme : Scalar → Lexeme
  | .nil => .word "nil"
  | .bool b => .word (if b then "true" else "false")
  | .int n => ⟨.int, Nat.repr n.toNat⟩
  | .float x => ⟨.float, toString x⟩
  | .str s => .quoted s

namespace Expr

/-- How tightly an expression binds. -/
def level : Expr → Nat
  | .unary .. => BinaryOp.levels
  | .binary op .. => op.level
  | _ => BinaryOp.levels + 1

/-- Whether an expression must stand in brackets as an operand of a level. -/
def bracketed (e : Expr) (level : Nat) (braces : Bool) : Bool :=
  e.level < level || (e.isNode && !braces)

/-- The only argument of a node expression, if it is a text. -/
def soleText? : List Expr → Option String
  | [.literal (.str s) _] => some s
  | _ => none

end Expr

namespace Style

variable (style : Style)

/-- What stands behind the kind of a node expression. -/
def nodeRest (text? : Option String) (args items : List (List Lexeme)) : List Lexeme :=
  if style.brief then
    if args = [] then Lexeme.block items
    else match text? with
      | some s => .quoted s :: if items = [] then [] else Lexeme.block items
      | none => Lexeme.arguments args ++ Lexeme.block items
  else Lexeme.arguments args ++ Lexeme.block items

/-- What a declaration of a variable begins with. -/
def binder (mutable : Bool) : List Lexeme :=
  if mutable then if style.letMut then [.word "let", .word "mut"] else [.word "var"]
  else [.word "let"]

/-- The pattern that takes everything. -/
def anything : Lexeme := if style.elseWord then .word "else" else .name "_"

/-- The body of an arm. -/
def armBody (items : List (List Lexeme)) : List Lexeme :=
  match items with
  | [item] => if style.bareArms then item else Lexeme.block [item]
  | _ => Lexeme.block items

mutual

/-- An expression without brackets around it. -/
@[simp] def bare : Expr → Bool → List Lexeme
  | .literal v _, _ => [v.lexeme]
  | .ident n _, _ => [.name n]
  | .array items _, braces =>
    Lexeme.enclosed "[" "]" (Lexeme.separated "," (operands items braces))
  | .unary op e _, braces =>
    .op op.symbol :: Lexeme.wrapped (e.bracketed BinaryOp.levels braces) (bare e) braces
  | .binary op l r _, braces =>
    Lexeme.wrapped (l.bracketed op.level braces) (bare l) braces ++
      .op op.symbol :: Lexeme.wrapped (r.bracketed (op.level + 1) braces) (bare r) braces
  | .member e n _, braces =>
    Lexeme.wrapped (e.bracketed (BinaryOp.levels + 1) braces) (bare e) braces ++
      [.op ".", .name n]
  | .call f args _, braces =>
    Lexeme.wrapped (f.bracketed (BinaryOp.levels + 1) braces) (bare f) braces ++
      Lexeme.arguments (operands args true)
  | .node kind args props body _, _ =>
    .name kind :: style.nodeRest (Expr.soleText? args) (operands args true)
      (properties props ++ stmts body)

/-- The items of a list. -/
def operands : List Expr → Bool → List (List Lexeme)
  | [], _ => []
  | e :: rest, braces =>
    Lexeme.wrapped (e.bracketed 0 braces) (bare e) braces :: operands rest braces

def properties : List Property → List (List Lexeme)
  | [] => []
  | ⟨name, value, _⟩ :: rest => (.name name :: .op ":" :: bare value true) :: properties rest

def target : Target → List Lexeme
  | .name n _ => [.name n]
  | .member e n _ =>
    Lexeme.wrapped (e.bracketed (BinaryOp.levels + 1) true) (bare e) true ++ [.op ".", .name n]

def stmt : Stmt → List Lexeme
  | .expr e _ => bare e true
  | .bind name value type mutable _ =>
    style.binder mutable ++ .name name :: Lexeme.ofType type ++ .op "=" :: bare value true
  | .assign t op value _ => target t ++ .op op.symbol :: bare value true
  | .choose subject arms' _ =>
    .word "is" :: Lexeme.wrapped (subject.bracketed 0 false) (bare subject) false ++
      Lexeme.block (arms arms')
  | .each name items body _ =>
    .word "for" :: .name name :: .word "in" ::
      Lexeme.wrapped (items.bracketed 0 false) (bare items) false ++ Lexeme.block (stmts body)
  | .fn d => fn d
  | .type d => type d

def stmts : List Stmt → List (List Lexeme)
  | [] => []
  | s :: rest => stmt s :: stmts rest

/-- A pattern of an arm. -/
def pattern : Option Expr → List Lexeme
  | none => [style.anything]
  | some e => Lexeme.enclosed "(" ")" (bare e true)

def arms : List Arm → List (List Lexeme)
  | [] => []
  | ⟨p, body, _⟩ :: rest =>
    (pattern p ++ .op "=>" :: style.armBody (stmts body)) :: arms rest

def fn : FnDecl → List Lexeme
  | ⟨name, params, body, result, _⟩ =>
    .word "fn" :: .name name :: Lexeme.arguments (params.map Lexeme.ofParam) ++
      Lexeme.ofType result ++ Lexeme.block (stmts body)

/-- The initial value of a field, if it has one. -/
def initial : Option Expr → List Lexeme
  | none => []
  | some e => .op "=" :: bare e true

def fields : List FieldDecl → List (List Lexeme)
  | [] => []
  | ⟨name, type, default, _⟩ :: rest =>
    (.name name :: Lexeme.ofTypeName type.toList ++ initial default) :: fields rest

def fns : List FnDecl → List (List Lexeme)
  | [] => []
  | d :: rest => fn d :: fns rest

def type : TypeDecl → List Lexeme
  | ⟨name, specs, members, methods, _⟩ =>
    .word "type" :: .name name :: Lexeme.ofSpecs specs ++
      Lexeme.block (fields members ++ fns methods)

end

/-- An expression as an operand of a level. -/
def operand (e : Expr) (level : Nat) (braces : Bool) : List Lexeme :=
  Lexeme.wrapped (e.bracketed level braces) (style.bare e) braces

/-- A whole program. -/
def program (c : Code) : List Lexeme := Lexeme.separated ";" (style.stmts c.stmts)

end Style

/-! ## Lines -/

mutual

/-- An expression with all its parts on one line. -/
@[simp] def Expr.atLine (n : Nat) : Expr → Expr
  | .literal v _ => .literal v n
  | .ident name _ => .ident name n
  | .array items _ => .array (Expr.allAtLine n items) n
  | .unary op e _ => .unary op (e.atLine n) n
  | .binary op l r _ => .binary op (l.atLine n) (r.atLine n) n
  | .member e name _ => .member (e.atLine n) name n
  | .call f args _ => .call (f.atLine n) (Expr.allAtLine n args) n
  | .node kind args props body _ =>
    .node kind (Expr.allAtLine n args) (Property.allAtLine n props) (Stmt.allAtLine n body) n

def Expr.allAtLine (n : Nat) : List Expr → List Expr
  | [] => []
  | e :: rest => e.atLine n :: Expr.allAtLine n rest

def Expr.optionAtLine (n : Nat) : Option Expr → Option Expr
  | none => none
  | some e => some (e.atLine n)

def Property.allAtLine (n : Nat) : List Property → List Property
  | [] => []
  | ⟨name, value, _⟩ :: rest => ⟨name, value.atLine n, n⟩ :: Property.allAtLine n rest

def Target.atLine (n : Nat) : Target → Target
  | .name name _ => .name name n
  | .member e name _ => .member (e.atLine n) name n

/-- A statement with all its parts on one line. -/
def Stmt.atLine (n : Nat) : Stmt → Stmt
  | .expr e _ => .expr (e.atLine n) n
  | .bind name value type mutable _ => .bind name (value.atLine n) type mutable n
  | .assign target op value _ => .assign (target.atLine n) op (value.atLine n) n
  | .choose subject arms _ => .choose (subject.atLine n) (Arm.allAtLine n arms) n
  | .each name items body _ => .each name (items.atLine n) (Stmt.allAtLine n body) n
  | .fn d => .fn (d.atLine n)
  | .type d => .type (d.atLine n)

def Stmt.allAtLine (n : Nat) : List Stmt → List Stmt
  | [] => []
  | s :: rest => s.atLine n :: Stmt.allAtLine n rest

def Arm.allAtLine (n : Nat) : List Arm → List Arm
  | [] => []
  | ⟨pattern, body, _⟩ :: rest =>
    ⟨Expr.optionAtLine n pattern, Stmt.allAtLine n body, n⟩ :: Arm.allAtLine n rest

def FnDecl.atLine (n : Nat) : FnDecl → FnDecl
  | ⟨name, params, body, result, _⟩ => ⟨name, params, Stmt.allAtLine n body, result, n⟩

def FnDecl.allAtLine (n : Nat) : List FnDecl → List FnDecl
  | [] => []
  | d :: rest => d.atLine n :: FnDecl.allAtLine n rest

def FieldDecl.allAtLine (n : Nat) : List FieldDecl → List FieldDecl
  | [] => []
  | ⟨name, type, default, _⟩ :: rest =>
    ⟨name, type, Expr.optionAtLine n default, n⟩ :: FieldDecl.allAtLine n rest

def TypeDecl.atLine (n : Nat) : TypeDecl → TypeDecl
  | ⟨name, specs, members, methods, _⟩ =>
    ⟨name, specs, FieldDecl.allAtLine n members, FnDecl.allAtLine n methods, n⟩

end

/-- A program with all its parts on one line. -/
def Code.atLine (n : Nat) (c : Code) : Code := { c with stmts := Stmt.allAtLine n c.stmts }

/-! ## What can be written -/

/-- Whether a literal has a text: a number has no sign and no point, and its digits can be read. -/
def Scalar.writable : Scalar → Bool
  | .int n => decide (0 ≤ n) && decide ((Nat.repr n.toNat).length ≤ Decimal.digitLimit)
  | .float _ => false
  | _ => true

mutual

/-- Whether all literals of an expression can be written, and no node expression is called. -/
def Expr.writable : Expr → Bool
  | .literal v _ => v.writable
  | .ident _ _ => true
  | .array items _ => Expr.allWritable items
  | .unary _ e _ => e.writable
  | .binary _ l r _ => l.writable && r.writable
  | .member e _ _ => e.writable
  | .call f args _ => !f.isNode && f.writable && Expr.allWritable args
  | .node _ args props body _ =>
    Expr.allWritable args && Property.allWritable props && Stmt.allWritable body

def Expr.allWritable : List Expr → Bool
  | [] => true
  | e :: rest => e.writable && Expr.allWritable rest

def Expr.optionWritable : Option Expr → Bool
  | none => true
  | some e => e.writable

def Property.allWritable : List Property → Bool
  | [] => true
  | ⟨_, value, _⟩ :: rest => value.writable && Property.allWritable rest

def Target.writable : Target → Bool
  | .name _ _ => true
  | .member e _ _ => e.writable

def Stmt.writable : Stmt → Bool
  | .expr e _ => e.writable
  | .bind _ value _ _ _ => value.writable
  | .assign target _ value _ => target.writable && value.writable
  | .choose subject arms _ => subject.writable && Arm.allWritable arms
  | .each _ items body _ => items.writable && Stmt.allWritable body
  | .fn d => d.writable
  | .type d => d.writable

def Stmt.allWritable : List Stmt → Bool
  | [] => true
  | s :: rest => s.writable && Stmt.allWritable rest

def Arm.allWritable : List Arm → Bool
  | [] => true
  | ⟨pattern, body, _⟩ :: rest =>
    Expr.optionWritable pattern && Stmt.allWritable body && Arm.allWritable rest

def FnDecl.writable : FnDecl → Bool
  | ⟨_, _, body, _, _⟩ => Stmt.allWritable body

def FnDecl.allWritable : List FnDecl → Bool
  | [] => true
  | d :: rest => d.writable && FnDecl.allWritable rest

def FieldDecl.allWritable : List FieldDecl → Bool
  | [] => true
  | ⟨_, _, default, _⟩ :: rest => Expr.optionWritable default && FieldDecl.allWritable rest

def TypeDecl.writable : TypeDecl → Bool
  | ⟨_, _, members, methods, _⟩ => FieldDecl.allWritable members && FnDecl.allWritable methods

end

/-- Whether a program can be written. -/
def Code.writable (c : Code) : Bool := Stmt.allWritable c.stmts

end Widgetry
