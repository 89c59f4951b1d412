import Widgetry.Value.Equality

/-!
# Tables of fields

The fields of widgets are kept in tables that running code writes to. A `Store` holds all tables
ever made; a `Value.live` reference names one of them, so that every holder of the reference sees
each write.

* `read` replaces the references in a value by what their tables hold;
* `copyTable` makes a table of its own out of one, together with all tables it refers to.
-/

namespace Widgetry

/-- The fields of a widget, in the order of their declaration. -/
abbrev Fields := List (String × Value)

namespace Fields

def get? (name : String) : Fields → Option Value
  | [] => none
  | (n, v) :: rest => if n = name then some v else get? name rest

/-- Replaces the value of a field; a new name goes to the end. -/
def put (name : String) (v : Value) : Fields → Fields
  | [] => [(name, v)]
  | (n, w) :: rest => if n = name then (n, v) :: rest else (n, w) :: put name v rest

def has (name : String) (fs : Fields) : Bool := (get? name fs).isSome

/-- Fields put one after the other. -/
def ofPairs (pairs : List (String × Value)) : Fields :=
  pairs.foldl (fun fs f => put f.1 f.2 fs) []

/-- The fields as the entries of an object. -/
def entries (fs : Fields) : List (Key × Value) := fs.map fun f => (.str f.1, f.2)

end Fields

/-- All tables of fields. -/
structure Store where
  tables : Array Fields := #[]
deriving Inhabited

namespace Store

def get (σ : Store) (t : TableId) : Fields := σ.tables.getD t.index []

def set (σ : Store) (t : TableId) (fs : Fields) : Store := ⟨σ.tables.setIfInBounds t.index fs⟩

/-- A new table. -/
def alloc (σ : Store) (fs : Fields) : TableId × Store := (⟨σ.tables.size⟩, ⟨σ.tables.push fs⟩)

/-! ## Reading through references -/

mutual

/-- Replaces every reference in a value by what `f` makes of it. -/
def mapLive (f : TableId → Value) : Value → Value
  | .scalar s => .scalar s
  | .list items => .list (mapLiveItems f items)
  | .object entries => .object (mapLiveEntries f entries)
  | .node n => .node (mapLiveNode f n)
  | .live t => f t

def mapLiveItems (f : TableId → Value) : List Value → List Value
  | [] => []
  | v :: rest => mapLive f v :: mapLiveItems f rest

def mapLiveEntries (f : TableId → Value) : List (Key × Value) → List (Key × Value)
  | [] => []
  | (k, v) :: rest => (k, mapLive f v) :: mapLiveEntries f rest

def mapLiveNode (f : TableId → Value) : Node → Node
  | .mk k a p c => .mk (mapLive f k) (mapLiveItems f a) (mapLiveEntries f p) (mapLiveNodes f c)

def mapLiveNodes (f : TableId → Value) : List Node → List Node
  | [] => []
  | n :: rest => mapLiveNode f n :: mapLiveNodes f rest

end

/-- Reads a table and the tables it refers to, except those that are being read already. Each
step reads one more, so there are at most as many steps as tables. -/
def readTable (σ : Store) : Nat → List TableId → TableId → Value
  | 0, _, t => .live t
  | fuel + 1, reading, t =>
    if reading.contains t then .live t
    else .object ((σ.get t).entries.map fun e =>
      (e.1, mapLive (readTable σ fuel (t :: reading)) e.2))

/-- A value with what its references stand for. A reference that leads back to itself stays. -/
def read (σ : Store) : Value → Value := mapLive (readTable σ (σ.tables.size + 1) [])

/-! ## Copying -/

mutual

/-- The references in a value. -/
def liveIn : Value → List TableId
  | .scalar _ => []
  | .list items => liveInItems items
  | .object entries => liveInEntries entries
  | .node n => liveInNode n
  | .live t => [t]

def liveInItems : List Value → List TableId
  | [] => []
  | v :: rest => liveIn v ++ liveInItems rest

def liveInEntries : List (Key × Value) → List TableId
  | [] => []
  | (_, v) :: rest => liveIn v ++ liveInEntries rest

def liveInNode : Node → List TableId
  | .mk k a p c => liveIn k ++ liveInItems a ++ liveInEntries p ++ liveInNodes c

def liveInNodes : List Node → List TableId
  | [] => []
  | n :: rest => liveInNode n ++ liveInNodes rest

end

/-- The tables that some tables refer to, directly or through others. Each round adds one level of
references. -/
def reachable (σ : Store) : Nat → List TableId → List TableId
  | 0, seen => seen
  | fuel + 1, seen =>
    let next := (seen.flatMap fun t => (σ.get t).flatMap fun f => liveIn f.2).filter
      fun t => !seen.contains t
    if next.isEmpty then seen else reachable σ fuel (seen ++ next.eraseDups)

/-- The place of a table's copy, if the copies of some tables start at an index. -/
def copyOf (first : Nat) (sources : List TableId) (t : TableId) : TableId :=
  match sources.idxOf? t with
  | some i => ⟨first + i⟩
  | none => t

/-- A copy of a table that shares no table with it: whatever it refers to is copied as well. -/
def copyTable (σ : Store) (t : TableId) : TableId × Store :=
  let sources := reachable σ σ.tables.size [t]
  let rename := mapLive fun u => .live (copyOf σ.tables.size sources u)
  let copies := sources.map fun u => (σ.get u).map fun f => (f.1, rename f.2)
  (⟨σ.tables.size⟩, ⟨σ.tables ++ copies.toArray⟩)

end Store

end Widgetry
