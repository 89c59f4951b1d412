/-!
# Operators

The prefix, infix and assignment operators of the language, and how each is written.
-/

namespace Widgetry

inductive UnaryOp where
  | minus
  | bang
deriving DecidableEq, Repr

inductive BinaryOp where
  | or
  | and
  | eq
  | ne
  | lt
  | le
  | gt
  | ge
  | add
  | sub
  | mul
  | div
  | mod
deriving DecidableEq, Repr

/-- `set` stores a value; the others combine it with the one stored before. -/
inductive AssignOp where
  | set
  | add
  | sub
  | mul
  | div
deriving DecidableEq, Repr

namespace UnaryOp

def symbol : UnaryOp → String
  | minus => "-"
  | bang => "!"

def all : List UnaryOp := [minus, bang]

def ofSymbol? (s : String) : Option UnaryOp := all.find? (·.symbol == s)

end UnaryOp

namespace BinaryOp

def symbol : BinaryOp → String
  | or => "||"
  | and => "&&"
  | eq => "=="
  | ne => "!="
  | lt => "<"
  | le => "<="
  | gt => ">"
  | ge => ">="
  | add => "+"
  | sub => "-"
  | mul => "*"
  | div => "/"
  | mod => "%"

def all : List BinaryOp := [or, and, eq, ne, lt, le, gt, ge, add, sub, mul, div, mod]

def ofSymbol? (s : String) : Option BinaryOp := all.find? (·.symbol == s)

/-- How tightly an operator binds; the loosest has level zero. -/
def level : BinaryOp → Nat
  | or => 0
  | and => 1
  | eq | ne => 2
  | lt | le | gt | ge => 3
  | add | sub => 4
  | mul | div | mod => 5

/-- One above the level of the tightest operators. -/
def levels : Nat := 6

/-- `||` and `&&`, whose operands may stay without a value. -/
def isLogical : BinaryOp → Bool
  | or | and => true
  | _ => false

end BinaryOp

namespace AssignOp

def symbol : AssignOp → String
  | set => "="
  | add => "+="
  | sub => "-="
  | mul => "*="
  | div => "/="

def all : List AssignOp := [set, add, sub, mul, div]

def ofSymbol? (s : String) : Option AssignOp := all.find? (·.symbol == s)

/-- The operator that combines the stored value with the new one. -/
def binary? : AssignOp → Option BinaryOp
  | set => none
  | add => some .add
  | sub => some .sub
  | mul => some .mul
  | div => some .div

end AssignOp

end Widgetry
