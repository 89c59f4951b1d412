import Widgetry.Value.Store

/-!
# The widgets of a host

For each widget of the loaded program there is a table with its fields, the node that its view
returned last, and whether that node is out of date. When a program is replaced, `migrate` carries
the values of the fields that both programs have over to the new one.
-/

namespace Widgetry

structure WidgetState where
  table : TableId
  /-- what the view returned last -/
  cached : Option Node := none
  /-- whether the view must be run again -/
  dirty : Bool := true

/-- The widgets by name, in the order of their declaration. -/
abbrev Widgets := List (String × WidgetState)

namespace Widgets

def get? (ws : Widgets) (name : String) : Option WidgetState := ws.lookup name

/-- Changes the widget of a name, if there is one. -/
def modify (ws : Widgets) (name : String) (f : WidgetState → WidgetState) : Widgets :=
  ws.map fun w => if w.1 = name then (w.1, f w.2) else w

/-- New widgets with tables of their own; nothing is cached for them. -/
def ofDefaults (σ : Store) : List (String × Fields) → Widgets × Store
  | [] => ([], σ)
  | (name, fields) :: rest =>
    let (t, σ) := σ.alloc fields
    let (ws, σ) := ofDefaults σ rest
    ((name, { table := t }) :: ws, σ)

/-- Puts old values in the place of those of the same name. -/
def carry (old new : Fields) : Fields :=
  old.foldl (fun fs f => if fs.has f.1 then fs.put f.1 f.2 else fs) new

/-- Carries the fields of old widgets over to new ones of the same name, which then are dirty. All
else about the new widgets stays as it is. -/
def migrate (σ : Store) (old : Widgets) : Widgets → Widgets × Store
  | [] => ([], σ)
  | (name, s) :: rest =>
    match old.get? name with
    | none =>
      let (ws, σ) := migrate σ old rest
      ((name, s) :: ws, σ)
    | some previous =>
      let σ := σ.set s.table (carry (σ.get previous.table) (σ.get s.table))
      let (ws, σ) := migrate σ old rest
      ((name, { s with cached := none, dirty := true }) :: ws, σ)

end Widgets

end Widgetry
