import Widgetry.Json.Quoted
import Widgetry.Value.Text

/-!
# Writing JSON

A `Format` holds what one way of writing decides: how lines are broken, how texts and numbers are
written, and which values it refuses. The strict format takes whole numbers of 64 bits and texts as
keys; the loose one takes whole numbers of any size and numbers as keys; the plain one takes all
values, but keeps to ASCII. `write` uses the strictest that takes a value.
-/

namespace Widgetry.Json

/-- Why a format does not write a value. -/
inductive WriteFault where
  | refused
  | number (e : NumberFault)
deriving DecidableEq, Repr

/-- How parts are set off. -/
structure Spacing where
  /-- the blanks for each level, if every part stands on a line of its own -/
  indent : Option Nat
  /-- what stands behind a part on the same line, and behind a key -/
  comma : String
  colon : String

def Spacing.compact : Spacing := ⟨none, ",", ":"⟩

def Spacing.wide : Spacing := ⟨none, ", ", ": "⟩

def Spacing.lines (indent : Nat) : Spacing := ⟨some indent, ",", ": "⟩

/-- Parts between two brackets, at a level. -/
def Spacing.enclose (s : Spacing) (level : Nat) (opening closing : String) (parts : List String) :
    String :=
  if parts.isEmpty then opening ++ closing
  else match s.indent with
    | none => opening ++ s.comma.intercalate parts ++ closing
    | some width =>
      let line (level : Nat) : String := "\n" ++ String.ofList (List.replicate (width * level) ' ')
      opening ++ line (level + 1) ++ (s.comma ++ line (level + 1)).intercalate parts ++
        line level ++ closing

structure Format where
  spacing : Spacing
  quote : String → String
  whole : Int → Except WriteFault String
  float : Float → String
  key : Key → Except WriteFault String
  /-- a node that is not written as an object of its parts -/
  nodeText : Option (Node → Except WriteFault String)

namespace Format

/-- The text of any whole number. -/
def anyWhole (n : Int) : Except WriteFault String := (wholeText n).mapError .number

/-- Numbers have the fewest digits, positional from a hundred-thousandth up to sixteen digits. -/
def strictLayout : Decimal.Layout where
  plainFrom := -5
  plainBelow := 16
  exponentPlus := true
  exponentWidth := 1
  notNumber := "null"
  infinity := "null"

def looseLayout : Decimal.Layout := { strictLayout with exponentPlus := false }

/-- A number, or nothing for what has no digits. -/
def finiteText (l : Decimal.Layout) (x : Float) : String :=
  if Binary64.isFinite x then l.render x else "null"

/-- A number; what has no digits has a name. -/
def namedText (x : Float) : String :=
  { numberLayout with notNumber := "NaN", infinity := "Infinity" : Decimal.Layout }.render x

/-- Whole numbers of 64 bits, and texts as keys. -/
def strict (spacing : Spacing) : Format where
  spacing
  quote := quoted
  whole n := if -0x8000000000000000 ≤ n ∧ n < 0x10000000000000000 then anyWhole n
    else .error .refused
  float := finiteText strictLayout
  key k := match k with
    | .str s => .ok (quoted s)
    | _ => .error .refused
  nodeText := none

/-- Numbers may be keys. -/
def loose : Format where
  spacing := .compact
  quote := quoted
  whole := anyWhole
  float := finiteText looseLayout
  key k := match k with
    | .str s => .ok (quoted s)
    | .int n => (anyWhole n).map quoted
    | .float x => .ok (quoted (finiteText looseLayout x))
    | _ => .error .refused
  nodeText := none

/-- All values, in ASCII; a node is a text. -/
def plain (spacing : Spacing) : Format where
  spacing
  quote := quotedAscii
  whole := anyWhole
  float := namedText
  key k := match k with
    | .nil => .ok (quotedAscii "null")
    | .bool b => .ok (quotedAscii (if b then "true" else "false"))
    | .int n => (anyWhole n).map quotedAscii
    | .float x => .ok (quotedAscii (namedText x))
    | .str s => .ok (quotedAscii s)
  nodeText := some fun n => (n.inspect.mapError .number).map quotedAscii

def scalar (f : Format) : Scalar → Except WriteFault String
  | .nil => .ok "null"
  | .bool b => .ok (if b then "true" else "false")
  | .int n => f.whole n
  | .float x => .ok (f.float x)
  | .str s => .ok (f.quote s)

mutual

/-- The text of a value at a level. -/
def value (f : Format) (level : Nat) : Value → Except WriteFault String
  | .scalar s => f.scalar s
  | .list items => do
    let parts ← f.items (level + 1) items
    return f.spacing.enclose level "[" "]" parts
  | .object es => do
    let parts ← f.entries (level + 1) es
    return f.spacing.enclose level "\x7b" "\x7d" parts
  | .node n => f.node level n
  | .live _ => .error .refused

def items (f : Format) (level : Nat) : List Value → Except WriteFault (List String)
  | [] => .ok []
  | v :: rest => do
    let part ← f.value level v
    let parts ← f.items level rest
    return part :: parts

def entries (f : Format) (level : Nat) : List (Key × Value) → Except WriteFault (List String)
  | [] => .ok []
  | (k, v) :: rest => do
    let key ← f.key k
    let part ← f.value level v
    let parts ← f.entries level rest
    return (key ++ f.spacing.colon ++ part) :: parts

def node (f : Format) (level : Nat) : Node → Except WriteFault String
  | .mk kind args props children =>
    match f.nodeText with
    | some text => text (.mk kind args props children)
    | none => do
      let k ← f.value (level + 1) kind
      let a ← f.items (level + 2) args
      let p ← f.entries (level + 2) props
      let c ← f.nodes (level + 2) children
      let entry (name text : String) : String := quoted name ++ f.spacing.colon ++ text
      return f.spacing.enclose level "\x7b" "\x7d"
        [entry "kind" k, entry "args" (f.spacing.enclose (level + 1) "[" "]" a),
          entry "props" (f.spacing.enclose (level + 1) "\x7b" "\x7d" p),
          entry "children" (f.spacing.enclose (level + 1) "[" "]" c)]

def nodes (f : Format) (level : Nat) : List Node → Except WriteFault (List String)
  | [] => .ok []
  | n :: rest => do
    let part ← f.node level n
    let parts ← f.nodes level rest
    return part :: parts

end

end Format

/-- The text of a value in the first of some formats that takes it, or else in the last one. -/
def writeFirst (v : Value) (last : Format) : List Format → Except WriteFault String
  | [] => last.value 0 v
  | f :: rest => match f.value 0 v with
    | .ok s => .ok s
    | .error _ => writeFirst v last rest

/-- The text of a value, with so many blanks for each level; with none, it is all on one line. -/
def write (v : Value) (indent : Int) : Except WriteFault String :=
  let last := Format.plain (if 0 < indent then .lines indent.toNat else .wide)
  if indent = 2 then writeFirst v last [.strict (.lines 2)]
  else if indent = 0 then writeFirst v last [.strict .compact, .loose]
  else writeFirst v last []

end Widgetry.Json
