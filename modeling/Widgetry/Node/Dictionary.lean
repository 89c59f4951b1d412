import Widgetry.Value.Equality

/-!
# Nodes as plain data

A node is exchanged as an object with the entries `kind`, `args`, `props` and `children`, of which
only the first is required. A node that stands as a value inside is wrapped in an object whose only
key is `$node`.

Reading is lenient: a text counts as the list of its characters and an object as the list of its
keys where a list of arguments or children is expected.
-/

namespace Widgetry

/-- Why data is no node. -/
inductive DataFault where
  /-- not an object with a kind -/
  | noKind
  /-- arguments or children that have no elements -/
  | notIterable
  /-- properties that have no keys -/
  | notKeyed
deriving DecidableEq, Repr

/-- The key of the object that wraps a node. -/
def nodeKey : String := "$node"

/-! ## Writing -/

mutual

/-- A value with its nodes written out as objects. -/
def Value.toData : Value → Value
  | .scalar s => .scalar s
  | .list items => .list (itemsToData items)
  | .object entries => .object (entriesToData entries)
  | .node n => .object [(.str nodeKey, n.toData)]
  | .live t => .live t

def itemsToData : List Value → List Value
  | [] => []
  | v :: rest => v.toData :: itemsToData rest

def entriesToData : List (Key × Value) → List (Key × Value)
  | [] => []
  | (k, v) :: rest => (k, v.toData) :: entriesToData rest

/-- A node as an object. Its kind is left as it is. -/
def Node.toData : Node → Value
  | .mk kind args props children =>
    .object [(.str "kind", kind), (.str "args", .list (itemsToData args)),
      (.str "props", .object (entriesToData props)), (.str "children", .list (nodesToData children))]

def nodesToData : List Node → List Value
  | [] => []
  | n :: rest => n.toData :: nodesToData rest

end

/-! ## Reading -/

/-- Whether a value counts as missing where a kind is expected. -/
def Value.isBlank : Value → Bool
  | .scalar .nil => true
  | .scalar (.bool b) => !b
  | .scalar (.int n) => n == 0
  | .scalar (.float x) => x == 0.0
  | .scalar (.str s) => s == ""
  | .list items => items.isEmpty
  | .object entries => entries.isEmpty
  | .node _ | .live _ => false

/-- The characters of a text, as values. -/
def charValues (s : String) : List Value := s.toList.map fun c => .str c.toString

/-- The wrapped data, if the only key of an object is that of a node. -/
def wrapped? : List (Key × Value) → Option Value
  | [(.str k, v)] => if k = nodeKey then some v else none
  | _ => none

theorem wrapped?_smaller {entries : List (Key × Value)} {v : Value}
    (h : wrapped? entries = some v) : sizeOf v < sizeOf entries := by
  unfold wrapped? at h
  split at h
  · split at h
    · simp only [Option.some.injEq] at h
      subst h
      simp only [List.cons.sizeOf_spec, Prod.mk.sizeOf_spec]
      omega
    · simp at h
  · simp at h

theorem Entries.find?_smaller {k : Key} {entries : List (Key × Value)} {v : Value}
    (h : Entries.find? k entries = some v) : sizeOf v < sizeOf entries := by
  induction entries with
  | nil => simp [Entries.find?] at h
  | cons e rest ih =>
    obtain ⟨k', w⟩ := e
    unfold Entries.find? at h
    split at h
    · simp only [Option.some.injEq] at h
      subst h
      simp only [List.cons.sizeOf_spec, Prod.mk.sizeOf_spec]
      omega
    · have := ih h
      simp only [List.cons.sizeOf_spec]
      omega

mutual

/-- A value with the objects that wrap nodes turned into nodes. -/
def Value.ofData (v : Value) : Except DataFault Value :=
  match v with
  | .object entries =>
    match _h : wrapped? entries with
    | some data => do
      let n ← Node.ofData data
      return .node n
    | none => do
      let es ← entriesOfData entries
      return .object es
  | .list items => do
    let vs ← itemsOfData items
    return .list vs
  | v => .ok v
termination_by sizeOf v
decreasing_by
  · have := wrapped?_smaller _h
    simp only [Value.object.sizeOf_spec]
    omega
  · simp only [Value.object.sizeOf_spec]
    omega
  · simp only [Value.list.sizeOf_spec]
    omega

def itemsOfData (items : List Value) : Except DataFault (List Value) :=
  match items with
  | [] => .ok []
  | v :: rest => do
    let w ← v.ofData
    let ws ← itemsOfData rest
    return w :: ws
termination_by sizeOf items

def entriesOfData (entries : List (Key × Value)) : Except DataFault (List (Key × Value)) :=
  match entries with
  | [] => .ok []
  | (k, v) :: rest => do
    let w ← v.ofData
    let ws ← entriesOfData rest
    return (k, w) :: ws
termination_by sizeOf entries

/-- The arguments that data stands for. -/
def argsOfData (v : Value) : Except DataFault (List Value) :=
  match v with
  | .list items => itemsOfData items
  | .str s => .ok (charValues s)
  | .object entries => .ok (entries.map fun e => .scalar e.1)
  | _ => .error .notIterable
termination_by sizeOf v
decreasing_by
  simp only [Value.list.sizeOf_spec]
  omega

/-- The properties that data stands for. -/
def propsOfData (v : Value) : Except DataFault (List (Key × Value)) :=
  match v with
  | .object entries => entriesOfData entries
  | _ => .error .notKeyed
termination_by sizeOf v
decreasing_by
  simp only [Value.object.sizeOf_spec]
  omega

/-- The child nodes that data stands for. Neither a character nor a key is a node. -/
def childrenOfData (v : Value) : Except DataFault (List Node) :=
  match v with
  | .list items => nodesOfData items
  | .str s => if s = "" then .ok [] else .error .noKind
  | .object entries => if entries.isEmpty then .ok [] else .error .noKind
  | _ => .error .notIterable
termination_by sizeOf v
decreasing_by
  simp only [Value.list.sizeOf_spec]
  omega

def nodesOfData (items : List Value) : Except DataFault (List Node) :=
  match items with
  | [] => .ok []
  | v :: rest => do
    let n ← Node.ofData v
    let ns ← nodesOfData rest
    return n :: ns
termination_by sizeOf items

/-- The arguments among the entries of an object; there are none unless it says so. -/
def argsAmong (entries : List (Key × Value)) : Except DataFault (List Value) :=
  match _h : Entries.find? (.str "args") entries with
  | some v => argsOfData v
  | none => .ok []
termination_by sizeOf entries
decreasing_by exact Entries.find?_smaller _h

/-- The properties among the entries of an object. -/
def propsAmong (entries : List (Key × Value)) : Except DataFault (List (Key × Value)) :=
  match _h : Entries.find? (.str "props") entries with
  | some v => propsOfData v
  | none => .ok []
termination_by sizeOf entries
decreasing_by exact Entries.find?_smaller _h

/-- The child nodes among the entries of an object. -/
def childrenAmong (entries : List (Key × Value)) : Except DataFault (List Node) :=
  match _h : Entries.find? (.str "children") entries with
  | some v => childrenOfData v
  | none => .ok []
termination_by sizeOf entries
decreasing_by exact Entries.find?_smaller _h

/-- The node that an object stands for. -/
def Node.ofData (v : Value) : Except DataFault Node :=
  match v with
  | .object entries =>
    match Entries.find? (.str "kind") entries with
    | none => .error .noKind
    | some kind =>
      if kind.isBlank then .error .noKind
      else do
        let args ← argsAmong entries
        let props ← propsAmong entries
        let children ← childrenAmong entries
        return .mk kind args props children
  | _ => .error .noKind
termination_by sizeOf v
decreasing_by
  all_goals
    simp only [Value.object.sizeOf_spec]
    omega

end

/-- A new node of a kind, which must not be missing. -/
def Node.ofKind? (kind : Value) : Option Node :=
  if kind.isBlank then none else some (.mk kind [] [] [])

end Widgetry
