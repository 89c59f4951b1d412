import Widgetry.Number.Binary64
import Widgetry.Value.Basic

/-!
# Equality of values

Truth values count as the numbers zero and one, and numbers are equal if they stand for the same
quantity, whole or not. Lists are compared in order; objects and properties by key, whatever the
order of their entries.
-/

namespace Widgetry

/-- The whole number that a truth value or a whole number counts as. -/
def Scalar.whole? : Scalar → Option Int
  | .bool b => some (if b then 1 else 0)
  | .int n => some n
  | _ => none

def Scalar.same : Scalar → Scalar → Bool
  | .nil, .nil => true
  | .str a, .str b => a == b
  | .float x, .float y => x == y
  | .float x, t => match t.whole? with
    | some n => Binary64.compareInt x n == some .eq
    | none => false
  | s, .float y => match s.whole? with
    | some n => Binary64.compareInt y n == some .eq
    | none => false
  | s, t => match s.whole?, t.whole? with
    | some m, some n => m == n
    | _, _ => false

/-! ## Entries by key -/

namespace Entries

variable {α : Type}

/-- The value of the entry with a key. -/
def find? (k : Key) : List (Key × α) → Option α
  | [] => none
  | (k', v) :: rest => if k'.same k then some v else find? k rest

/-- Replaces the value of the entry with a key; a new key goes to the end. -/
def put (k : Key) (v : α) : List (Key × α) → List (Key × α)
  | [] => [(k, v)]
  | (k', w) :: rest => if k'.same k then (k', v) :: rest else (k', w) :: put k v rest

/-- Entries put one after the other. -/
def ofPairs (pairs : List (Key × α)) : List (Key × α) :=
  pairs.foldl (fun es e => put e.1 e.2 es) []

end Entries

def Node.prop? (n : Node) (name : String) : Option Value := Entries.find? (.str name) n.props

def Node.withProp (n : Node) (k : Key) (v : Value) : Node :=
  .mk n.kind n.args (Entries.put k v n.props) n.children

/-! ## Values -/

mutual

def Value.same : Value → Value → Bool
  | .scalar a, .scalar b => a.same b
  | .list xs, .list ys => sameItems xs ys
  | .object es, .object fs => es.length == fs.length && sameEntries es fs
  | .node m, .node n => m.same n
  | .live a, .live b => a == b
  | _, _ => false

def sameItems : List Value → List Value → Bool
  | [], [] => true
  | x :: xs, y :: ys => x.same y && sameItems xs ys
  | _, _ => false

/-- Whether every entry on the left has an equal one on the right. -/
def sameEntries : List (Key × Value) → List (Key × Value) → Bool
  | [], _ => true
  | (k, v) :: rest, fs =>
    (match Entries.find? k fs with
      | some w => v.same w
      | none => false) && sameEntries rest fs

def Node.same : Node → Node → Bool
  | .mk k a p c, .mk k' a' p' c' =>
    k.same k' && sameItems a a' && (p.length == p'.length && sameEntries p p') && sameNodes c c'

def sameNodes : List Node → List Node → Bool
  | [], [] => true
  | m :: ms, n :: ns => m.same n && sameNodes ms ns
  | _, _ => false

end

/-- The child nodes of one kind, in order. -/
def Node.childrenOf (n : Node) (kind : String) : List Node :=
  n.children.filter fun c => c.kind.same (.str kind)

end Widgetry
