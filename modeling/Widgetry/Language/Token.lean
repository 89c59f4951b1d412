/-!
# Tokens

The words of the language with the place where each begins. Lines and columns count from one, and
columns count characters.
-/

namespace Widgetry

structure Position where
  line : Nat
  column : Nat
deriving DecidableEq, Repr

namespace Position

/-- The place of the first character. -/
def start : Position := ⟨1, 1⟩

/-- The place after a character. -/
def advance (p : Position) (c : Char) : Position :=
  if c = '\n' then ⟨p.line + 1, 1⟩ else ⟨p.line, p.column + 1⟩

/-- The place after some characters. -/
def after (p : Position) (cs : List Char) : Position := cs.foldl advance p

end Position

inductive TokenKind where
  | ident
  | keyword
  | int
  | float
  | str
  | op
  | eof
deriving DecidableEq, Repr

def TokenKind.name : TokenKind → String
  | ident => "ident"
  | keyword => "keyword"
  | int => "int"
  | float => "float"
  | str => "str"
  | op => "op"
  | eof => "eof"

/-- A token's `text` is what it stands for: a string without its quotes and escapes, a number
without its underscores. -/
structure Token where
  kind : TokenKind
  text : String
  position : Position
deriving DecidableEq, Repr

namespace Token

def line (t : Token) : Nat := t.position.line

def isOp (t : Token) (symbol : String) : Bool := t.kind == .op && t.text == symbol

def isKeyword (t : Token) (word : String) : Bool := t.kind == .keyword && t.text == word

def isEnd (t : Token) : Bool := t.kind == .eof

/-- How a message names a token. -/
def describe (t : Token) : String :=
  if t.isEnd then "end of input" else "'" ++ t.text ++ "'"

end Token

/-- The words that are no identifiers. -/
def keywords : List String :=
  ["type", "is", "fn", "let", "var", "mut", "for", "in", "true", "false", "nil", "else"]

/-- The operators and separators, the longer ones first. -/
def operatorSymbols : List String :=
  ["=>", "==", "!=", "<=", ">=", "&&", "||", "+=", "-=", "*=", "/=",
    "+", "-", "*", "/", "%", "<", ">", "!", "=", ".", ",", ":", ";",
    "(", ")", "\x7b", "\x7d", "[", "]"]

end Widgetry
