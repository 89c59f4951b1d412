import Widgetry.Language.Lexer
import Widgetry.Language.Syntax
import Widgetry.Number.Reading

/-!
# From tokens to syntax trees

A recursive-descent parser: one rule for each construct, each a function of how much deeper it may
nest. The loops of the grammar (arguments, blocks, operator chains) are combinators that run a rule
again and again; every round takes at least one token, so they need no more rounds than tokens are
left.

Expressions are parsed in one of two ways. Where a brace opens the body of a statement, behind
`is` and `for` and in patterns, a node expression with a body may only stand inside brackets:
there, `braces` is false.
-/

namespace Widgetry

/-- The tokens that lie ahead, and the token of the end. -/
structure Stream where
  ahead : List Token
  last : Token

abbrev Parser := StateT Stream (Except Fault)

namespace Parser

/-! ## Single tokens -/

/-- The token that the next rule begins with. -/
def peek : Parser Token := return ((← get).ahead.head?.getD (← get).last)

/-- The token after the next. -/
def peekSecond : Parser Token := return ((← get).ahead[1]?.getD (← get).last)

/-- Takes a token. The end is never passed. -/
def advance : Parser Token := do
  let token ← peek
  modify fun s => { s with ahead := s.ahead.tail }
  return token

def failAt {α : Type} (cause : Cause) (token : Token) : Parser α :=
  throw (.source (.parsing cause token.position))

def expectOp (symbol : String) : Parser Token := do
  let token ← peek
  if token.isOp symbol then advance else failAt (.expected symbol token) token

def expectKeyword (word : String) : Parser Token := do
  let token ← peek
  if token.isKeyword word then advance else failAt (.expected word token) token

def expectName : Parser Token := do
  let token ← peek
  if token.kind = .ident then advance else failAt (.expectedName token) token

def isSeparator (t : Token) : Bool := t.isOp "," || t.isOp ";"

def skipSeparators : Parser Unit :=
  modify fun s => { s with ahead := s.ahead.dropWhile isSeparator }

/-- How many rounds a loop has at most. -/
def rounds : Parser Nat := return (← get).ahead.length

/-! ## Loops -/

/-- Items with optional separators between them, up to a closing brace. -/
def itemsWithin {α : Type} (cause : Cause) (item : Parser α) : Nat → Parser (List α)
  | 0 => do
    let token ← peek
    failAt cause token
  | n + 1 => do
    let token ← peek
    if token.isOp "\x7d" then return []
    else if token.isEnd then failAt cause token
    else
      let x ← item
      skipSeparators
      let xs ← itemsWithin cause item n
      return x :: xs

/-- A braced sequence of items. The cause is told if the end comes before the brace. -/
def braced {α : Type} (cause : Cause) (item : Parser α) : Parser (List α) := do
  let _ ← expectOp "\x7b"
  skipSeparators
  let xs ← itemsWithin cause item ((← rounds) + 1)
  let _ ← expectOp "\x7d"
  return xs

/-- Items with a comma after each but, if one wants, the last, up to a closing bracket. -/
def listedUpTo {α : Type} (close : String) (item : Parser α) : Nat → Parser (List α)
  | 0 => do
    let token ← peek
    failAt (.unexpected token) token
  | n + 1 => do
    if (← peek).isOp close then return []
    let x ← item
    unless (← peek).isOp close do
      let _ ← expectOp ","
    let xs ← listedUpTo close item n
    return x :: xs

/-- A bracketed list of items. -/
def bracketed {α : Type} (opening close : String) (item : Parser α) : Parser (List α) := do
  let _ ← expectOp opening
  let xs ← listedUpTo close item ((← rounds) + 1)
  let _ ← expectOp close
  return xs

/-- The operator of a level that a token is. -/
def operatorAt? (level : Nat) (t : Token) : Option BinaryOp :=
  if t.kind = .op then (BinaryOp.ofSymbol? t.text).filter (·.level == level) else none

/-- A chain of operators of one level, grouped from the left. -/
def chain (level : Nat) (operand : Parser Expr) : Nat → Expr → Parser Expr
  | 0, left => return left
  | n + 1, left => do
    let token ← peek
    match operatorAt? level token with
    | none => return left
    | some op =>
      let _ ← advance
      let right ← operand
      chain level operand n (.binary op left right token.line)

/-- Member accesses and calls behind an expression. A call has the line of the token after it. -/
def suffixes (args : Parser (List Expr)) : Nat → Expr → Parser Expr
  | 0, e => return e
  | n + 1, e => do
    let token ← peek
    if token.isOp "." then
      let _ ← advance
      let name ← expectName
      suffixes args n (.member e name.text name.line)
    else if token.isOp "(" && !e.isNode then
      let xs ← args
      let next ← peek
      suffixes args n (.call e xs next.line)
    else return e

/-- The statements up to the end of the text. -/
def statementsToEnd (statement : Parser Stmt) : Nat → Parser (List Stmt)
  | 0 => return []
  | n + 1 => do
    if (← peek).isEnd then return []
    let s ← statement
    skipSeparators
    let rest ← statementsToEnd statement n
    return s :: rest

/-! ## Rules -/

def tooDeep {α : Type} : Parser α := throw (.source ⟨.parsing, .nestingTooDeep, {}⟩)

/-- Turns a failure to read a number into one of the parser. -/
def number {α : Type} (r : Except NumberFault α) : Parser α :=
  match r with
  | .ok a => pure a
  | .error e => throw (.number e)

def typeName : Nat → Parser String
  | 0 => tooDeep
  | d + 1 => do
    if (← peek).isOp "[" then
      let _ ← advance
      let _ ← expectOp "]"
      let inner ← typeName d
      return "[]" ++ inner
    else return (← expectName).text

def startsType (t : Token) : Bool := t.kind == .ident || t.isOp "["

/-- A type name, if one begins here. -/
def optionalType (depth : Nat) : Parser (Option String) := do
  if startsType (← peek) then return some (← typeName depth) else return none

def param (depth : Nat) : Parser (String × Option String) := do
  let name ← expectName
  let type ← optionalType depth
  return (name.text, type)

/-- The names behind a comma each. -/
def moreSpecs : Nat → Parser (List String)
  | 0 => return []
  | n + 1 => do
    if (← peek).isOp "," then
      let _ ← advance
      let name ← expectName
      let rest ← moreSpecs n
      return name.text :: rest
    else return []

/-- What a type is declared to be. -/
def specs : Parser (List String) := do
  if (← peek).isKeyword "is" then
    let _ ← advance
    let first ← expectName
    let rest ← moreSpecs (← rounds)
    return first.text :: rest
  else return []

/-- A member of a type declaration. -/
def separate {α β : Type} : List (α ⊕ β) → List α × List β
  | [] => ([], [])
  | .inl a :: rest => (a :: (separate rest).1, (separate rest).2)
  | .inr b :: rest => ((separate rest).1, b :: (separate rest).2)

/-- The operator of an assignment that a token is. -/
def assignOp? (t : Token) : Option AssignOp :=
  if t.kind = .op then AssignOp.ofSymbol? t.text else none

/-- The prefix operator that a token is. -/
def prefixOp? (t : Token) : Option UnaryOp :=
  if t.kind = .op then UnaryOp.ofSymbol? t.text else none

mutual

def expression : Nat → Bool → Parser Expr
  | 0, _ => tooDeep
  | d + 1, braces => binary d 0 braces

/-- The operators of a level and of those that bind more tightly. -/
def binary : Nat → Nat → Bool → Parser Expr
  | 0, _, _ => tooDeep
  | d + 1, level, braces => do
    if level = BinaryOp.levels then unary d braces
    else
      let operand := binary d (level + 1) braces
      let left ← operand
      chain level operand (← rounds) left

def unary : Nat → Bool → Parser Expr
  | 0, _ => tooDeep
  | d + 1, braces => do
    let token ← peek
    match prefixOp? token with
    | some op =>
      let _ ← advance
      let operand ← unary d braces
      return .unary op operand token.line
    | none => suffixed d braces

def suffixed : Nat → Bool → Parser Expr
  | 0, _ => tooDeep
  | d + 1, braces => do
    let e ← primary d braces
    suffixes (arguments d) (← rounds) e

def arguments : Nat → Parser (List Expr)
  | 0 => tooDeep
  | d + 1 => bracketed "(" ")" (expression d true)

def primary : Nat → Bool → Parser Expr
  | 0, _ => tooDeep
  | d + 1, braces => do
    let token ← peek
    match token.kind with
    | .int =>
      let _ ← advance
      let n ← number (Decimal.readWhole token.text)
      return .literal (.int n) token.line
    | .float =>
      let _ ← advance
      let x ← number (Decimal.readFraction token.text)
      return .literal (.float x) token.line
    | .str =>
      let _ ← advance
      return .literal (.str token.text) token.line
    | .keyword =>
      if token.text = "true" || token.text = "false" then
        let _ ← advance
        return .literal (.bool (token.text = "true")) token.line
      else if token.text = "nil" then
        let _ ← advance
        return .literal .nil token.line
      else failAt (.unexpected token) token
    | .ident => named d braces
    | .op =>
      if token.text = "(" then
        let _ ← advance
        let e ← expression d true
        let _ ← expectOp ")"
        return e
      else if token.text = "[" then
        let items ← bracketed "[" "]" (expression d braces)
        return .array items token.line
      else failAt (.unexpected token) token
    | .eof => failAt (.unexpected token) token

/-- A name, alone or as the head of a call or of a node expression. -/
def named : Nat → Bool → Parser Expr
  | 0, _ => tooDeep
  | d + 1, braces => do
    let name ← advance
    let next ← peek
    if next.kind = .str ∧ next.line = name.line then
      let _ ← advance
      let args := [Expr.literal (.str next.text) next.line]
      if braces && (← peek).isOp "\x7b" then
        let (props, body) ← nodeBody d name.text
        return .node name.text args props body name.line
      else return .node name.text args [] [] name.line
    else if next.isOp "(" then
      let args ← arguments d
      if braces && (← peek).isOp "\x7b" then
        let (props, body) ← nodeBody d name.text
        return .node name.text args props body name.line
      else return .call (.ident name.text name.line) args name.line
    else if braces && next.isOp "\x7b" then
      let (props, body) ← nodeBody d name.text
      return .node name.text [] props body name.line
    else return .ident name.text name.line

def nodeBody : Nat → String → Parser (List Property × List Stmt)
  | 0, _ => tooDeep
  | d + 1, kind => do
    let items ← braced (.openBody kind) do
      let token ← peek
      if token.kind = .ident && (← peekSecond).isOp ":" then
        let _ ← advance
        let _ ← advance
        let value ← expression d true
        return Sum.inl ⟨token.text, value, token.line⟩
      else
        let s ← statement d
        return Sum.inr s
    return separate items

def statement : Nat → Parser Stmt
  | 0 => tooDeep
  | d + 1 => do
    let token ← peek
    if token.isKeyword "type" then typeDecl d
    else if token.isKeyword "fn" then return .fn (← fnDecl d)
    else if token.isKeyword "let" || token.isKeyword "var" then binding d
    else if token.isKeyword "is" then choice d
    else if token.isKeyword "for" then iteration d
    else
      let e ← expression d true
      match assignOp? (← peek) with
      | none => return .expr e token.line
      | some op =>
        let _ ← advance
        match Target.ofExpr? e with
        | none => failAt .invalidTarget token
        | some target =>
          let value ← expression d true
          return .assign target op value token.line

def block : Nat → Parser (List Stmt)
  | 0 => tooDeep
  | d + 1 => braced .openBlock (statement d)

def binding : Nat → Parser Stmt
  | 0 => tooDeep
  | d + 1 => do
    let start ← advance
    let marked := (← peek).isKeyword "mut"
    if marked then
      let _ ← advance
    let name ← expectName
    let type ← if (← peek).isOp "=" then pure none else some <$> typeName d
    let _ ← expectOp "="
    let value ← expression d true
    return .bind name.text value type (start.text == "var" || marked) start.line

def choice : Nat → Parser Stmt
  | 0 => tooDeep
  | d + 1 => do
    let start ← expectKeyword "is"
    let subject ← expression d false
    let arms ← braced .openIs (arm d)
    return .choose subject arms start.line

def arm : Nat → Parser Arm
  | 0 => tooDeep
  | d + 1 => do
    let token ← peek
    let pattern ←
      if token.isKeyword "else" || (token.kind == .ident && token.text == "_") then
        let _ ← advance
        pure none
      else some <$> expression d false
    let _ ← expectOp "=>"
    let body ← if (← peek).isOp "\x7b" then block d else List.singleton <$> statement d
    return ⟨pattern, body, token.line⟩

def iteration : Nat → Parser Stmt
  | 0 => tooDeep
  | d + 1 => do
    let start ← expectKeyword "for"
    let name ← expectName
    let _ ← expectKeyword "in"
    let items ← expression d false
    let body ← block d
    return .each name.text items body start.line

def fnDecl : Nat → Parser FnDecl
  | 0 => tooDeep
  | d + 1 => do
    let start ← expectKeyword "fn"
    let name ← expectName
    let params ← bracketed "(" ")" (param d)
    let result ← optionalType d
    let body ← block d
    return ⟨name.text, params, body, result, start.line⟩

def fieldDecl : Nat → Parser FieldDecl
  | 0 => tooDeep
  | d + 1 => do
    let name ← expectName
    let type ← typeName d
    if (← peek).isOp "=" then
      let _ ← advance
      let value ← expression d true
      return ⟨name.text, type, some value, name.line⟩
    else return ⟨name.text, type, none, name.line⟩

def typeDecl : Nat → Parser Stmt
  | 0 => tooDeep
  | d + 1 => do
    let start ← expectKeyword "type"
    let name ← expectName
    let specs ← specs
    let items ← braced (.openType name.text) do
      if (← peek).isKeyword "fn" then return Sum.inr (← fnDecl d)
      else return Sum.inl (← fieldDecl d)
    let (members, methods) := separate items
    return .type ⟨name.text, specs, members, methods, start.line⟩

end

/-- A whole text. -/
def code (depth : Nat) : Parser (List Stmt) := do
  skipSeparators
  statementsToEnd (statement depth) (← rounds)

end Parser

/-- How deep the rules of the grammar may nest. -/
def nestingLimit : Nat := 2000

/-- The stream of a token list that ends with the token of its end. -/
def Stream.ofTokens (ts : List Token) : Stream :=
  ⟨ts.dropLast, ts.getLast?.getD ⟨.eof, "", .start⟩⟩

/-- Runs a rule on a text; answers its result and the tokens that it left. -/
def Parser.run {α : Type} (rule : Parser α) (source : String) (file : Option String) :
    Except Fault (α × Stream) :=
  match tokenize source file with
  | .error e => .error (.source e)
  | .ok ts => (StateT.run rule (.ofTokens ts)).mapError (·.inFile file)

/-- Parses a source text. -/
def parse (source : String) (file : Option String) : Except Fault Code :=
  (Parser.run (Parser.code nestingLimit) source file).map fun r => ⟨r.1, file⟩

end Widgetry
