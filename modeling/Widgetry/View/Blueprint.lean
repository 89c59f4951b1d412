import Widgetry.View.Basic

/-!
# Views by name

Builds views from the names of their kinds and settings, as programs in other languages describe
them. `make?` makes a view of a kind from what it cannot do without, `adjust?` changes it by one of
its methods, and `replace?` sets one of its fields. All of them fail on a name that is not known
and on arguments of another type.
-/

namespace Widgetry.Blueprint

/-- What a method is called with. -/
inductive Argument where
  | value (v : Value)
  | view (v : View Handler)
  | handler (h : Handler)
  | section (i : AccordionItem Handler)
  | destination (i : NavItem)
  | tabsPosition (p : TabsPosition)
  | sidebarPosition (p : SidebarPosition)
  | list (items : List Argument)

namespace Argument

/-- Any value as a text to be shown. -/
def text? : Argument → Option String
  | value v => v.plain.toOption
  | _ => none

def str? : Argument → Option String
  | value (.str s) => some s
  | _ => none

/-- A reader of what may be the absent value. -/
def optional? {α : Type} (read : Argument → Option α) : Argument → Option (Option α)
  | value .nil => some none
  | a => (read a).map some

def style? : Argument → Option (Option String) := optional? str?

def int? : Argument → Option Int
  | value (.int n) => some n
  | _ => none

def bool? : Argument → Option Bool
  | value (.bool b) => some b
  | _ => none

/-- A number; truth values count as zero and one. -/
def quantity? : Argument → Option Quantity
  | value (.bool b) => some (.whole (if b then 1 else 0))
  | value v => Quantity.ofValue? v
  | _ => none

def handler? : Argument → Option Handler
  | value v => some (.message v)
  | handler h => some h
  | _ => none

def view? : Argument → Option (View Handler)
  | view v => some v
  | _ => none

/-- The value of an argument that is nothing else. -/
def value? : Argument → Option Value
  | value v => some v
  | _ => none

/-- A list of arguments, which is a value if they all are. -/
def ofItems (items : List Argument) : Argument :=
  match items.mapM value? with
  | some vs => value (.list vs)
  | none => list items

/-- The elements of an argument; a text has its characters. -/
def items? : Argument → Option (List Argument)
  | list items => some items
  | value (.list vs) => some (vs.map value)
  | value (.str s) => some (s.toList.map fun c => value (.str c.toString))
  | _ => none

/-- A list of which every element can be read. -/
def all? {α : Type} (read : Argument → Option α) (a : Argument) : Option (List α) :=
  a.items?.bind fun items => items.mapM read

def section? : Argument → Option (AccordionItem Handler)
  | .section i => some i
  | _ => none

def destination? : Argument → Option NavItem
  | destination i => some i
  | _ => none

end Argument

open Argument

/-- A view of a kind. -/
def make? (kind : String) (args : List Argument) : Option (View Handler) := do
  match kind, args with
  | "empty", [] => return .empty
  | "text", [c] => return .text { content := ← c.text? }
  | "text", [c, s] => return .text { content := ← c.text?, style := ← s.style? }
  | "button", [l, h] => return .button { label := ← l.text?, onclick := ← h.handler? }
  | "button", [l, h, s] =>
    return .button { label := ← l.text?, onclick := ← h.handler?, style := ← s.style? }
  | "input", [] => return .input {}
  | "input", [p] => return .input { placeholder := ← p.text? }
  | "checkbox", [b, l] => return .checkbox { checked := ← b.bool?, label := ← l.text? }
  | "radio", [b, l] => return .radio { selected := ← b.bool?, label := ← l.text? }
  | "select", [o] => return .select { options := ← o.all? text? }
  | "slider", [lo, hi, v, h] =>
    return .slider
      { min := ← lo.quantity?, max := ← hi.quantity?, value := ← v.quantity?,
        onChange := ← h.handler? }
  | "progress_bar", [p] => return .progressBar (.of (← p.quantity?))
  | "col", [] | "column", [] => return .column .plain
  | "row", [] => return .row .plain
  | "container", [c] => return .container (.around (← c.view?))
  | "scrollable", [c] => return .scrollable (.around (← c.view?))
  | "list", [i] => return .list (.of (← i.all? view?))
  | "table", [h, r] => return .table (.of (← h.all? view?) (← r.all? (all? view?)))
  | "tabs", [l, c] => return .tabs (.of (← l.all? str?) (← c.all? view?))
  | "accordion", [i] => return .accordion (.of (← i.all? section?))
  | "navigation_rail", [i] => return .navigationRail { items := ← i.all? destination? }
  | "sidebar", [c] => return .sidebar (.around (← c.view?))
  | "sidebar", [c, w] =>
    return .sidebar { Sidebar.around (← c.view?) with width := ← w.quantity? }
  | _, _ => none

/-- A row or a column with another value in one field. -/
def replaceLayout? (field : String) (a : Argument) (l : Layout Handler) :
    Option (Layout Handler) := do
  match field with
  | "children" => return { l with children := ← a.all? view? }
  | "spacing" => return { l with spacing := ← a.int? }
  | "padding" => return { l with padding := ← a.int? }
  | "style" => return { l with style := ← a.style? }
  | _ => none

/-- A view with another value in one field. -/
def replace? (field : String) (a : Argument) (v : View Handler) : Option (View Handler) := do
  match v, field with
  | .text t, "content" => return .text { t with content := ← a.str? }
  | .text t, "style" => return .text { t with style := ← a.style? }
  | .button b, "label" => return .button { b with label := ← a.str? }
  | .button b, "onclick" => return .button { b with onclick := ← a.handler? }
  | .button b, "style" => return .button { b with style := ← a.style? }
  | .input i, "placeholder" => return .input { i with placeholder := ← a.str? }
  | .input i, "value" => return .input { i with value := ← a.str? }
  | .input i, "on_change" => return .input { i with onChange := ← a.optional? handler? }
  | .input i, "width" => return .input { i with width := ← a.optional? int? }
  | .input i, "password" => return .input { i with password := ← a.bool? }
  | .input i, "style" => return .input { i with style := ← a.style? }
  | .checkbox c, "is_checked" => return .checkbox { c with checked := ← a.bool? }
  | .checkbox c, "label" => return .checkbox { c with label := ← a.str? }
  | .checkbox c, "on_toggle" => return .checkbox { c with onToggle := ← a.optional? handler? }
  | .checkbox c, "style" => return .checkbox { c with style := ← a.style? }
  | .radio r, "is_selected" => return .radio { r with selected := ← a.bool? }
  | .radio r, "label" => return .radio { r with label := ← a.str? }
  | .radio r, "on_select" => return .radio { r with onSelect := ← a.optional? handler? }
  | .radio r, "style" => return .radio { r with style := ← a.style? }
  | .select s, "options" => return .select { s with options := ← a.all? str? }
  | .select s, "selected_index" => return .select { s with selected := ← a.optional? int? }
  | .select s, "on_select" => return .select { s with onSelect := ← a.optional? handler? }
  | .select s, "style" => return .select { s with style := ← a.style? }
  | .slider s, "min" => return .slider { s with min := ← a.quantity? }
  | .slider s, "max" => return .slider { s with max := ← a.quantity? }
  | .slider s, "value" => return .slider { s with value := ← a.quantity? }
  | .slider s, "on_change" => return .slider { s with onChange := ← a.handler? }
  | .slider s, "step" => return .slider { s with step := ← a.optional? quantity? }
  | .slider s, "style" => return .slider { s with style := ← a.style? }
  | .progressBar p, "progress" => return .progressBar { p with progress := ← a.quantity? }
  | .progressBar p, "style" => return .progressBar { p with style := ← a.style? }
  | .row l, f => return .row (← replaceLayout? f a l)
  | .column l, f => return .column (← replaceLayout? f a l)
  | .container c, "child" => return .container { c with child := ← a.view? }
  | .container c, "padding" => return .container { c with padding := ← a.int? }
  | .container c, "width" => return .container { c with width := ← a.optional? int? }
  | .container c, "height" => return .container { c with height := ← a.optional? int? }
  | .container c, "center_x" => return .container { c with centerX := ← a.bool? }
  | .container c, "center_y" => return .container { c with centerY := ← a.bool? }
  | .container c, "style" => return .container { c with style := ← a.style? }
  | .scrollable s, "child" => return .scrollable { s with child := ← a.view? }
  | .scrollable s, "width" => return .scrollable { s with width := ← a.optional? int? }
  | .scrollable s, "height" => return .scrollable { s with height := ← a.optional? int? }
  | .scrollable s, "style" => return .scrollable { s with style := ← a.style? }
  | .list l, "items" => return .list { l with items := ← a.all? view? }
  | .list l, "spacing" => return .list { l with spacing := ← a.int? }
  | .list l, "style" => return .list { l with style := ← a.style? }
  | .table t, "headers" => return .table { t with headers := ← a.all? view? }
  | .table t, "rows" => return .table { t with rows := ← a.all? (all? view?) }
  | .table t, "spacing" => return .table { t with spacing := ← a.int? }
  | .table t, "col_spacing" => return .table { t with colSpacing := ← a.int? }
  | .table t, "style" => return .table { t with style := ← a.style? }
  | .tabs t, "labels" => return .tabs { t with labels := ← a.all? str? }
  | .tabs t, "contents" => return .tabs { t with contents := ← a.all? view? }
  | .tabs t, "selected" => return .tabs { t with selected := ← a.int? }
  | .tabs t, "position" =>
    match a with
    | .tabsPosition p => return .tabs { t with position := p }
    | _ => none
  | .tabs t, "on_select" => return .tabs { t with onSelect := ← a.optional? handler? }
  | .tabs t, "style" => return .tabs { t with style := ← a.style? }
  | .accordion c, "items" => return .accordion { c with items := ← a.all? section? }
  | .accordion c, "allow_multiple" => return .accordion { c with allowMultiple := ← a.bool? }
  | .accordion c, "on_toggle" => return .accordion { c with onToggle := ← a.optional? handler? }
  | .accordion c, "style" => return .accordion { c with style := ← a.style? }
  | .navigationRail n, "items" =>
    return .navigationRail { n with items := ← a.all? destination? }
  | .navigationRail n, "selected" => return .navigationRail { n with selected := ← a.int? }
  | .navigationRail n, "width" => return .navigationRail { n with width := ← a.quantity? }
  | .navigationRail n, "show_labels" => return .navigationRail { n with showLabels := ← a.bool? }
  | .navigationRail n, "on_select" =>
    return .navigationRail { n with onSelect := ← a.optional? handler? }
  | .navigationRail n, "style" => return .navigationRail { n with style := ← a.style? }
  | .sidebar s, "content" => return .sidebar { s with content := ← a.view? }
  | .sidebar s, "width" => return .sidebar { s with width := ← a.quantity? }
  | .sidebar s, "collapsible" => return .sidebar { s with collapsible := ← a.bool? }
  | .sidebar s, "position" =>
    match a with
    | .sidebarPosition p => return .sidebar { s with position := p }
    | _ => none
  | .sidebar s, "on_toggle" => return .sidebar { s with onToggle := ← a.optional? handler? }
  | .sidebar s, "style" => return .sidebar { s with style := ← a.style? }
  | _, _ => none

/-- Adds children to a row or a column. -/
def addChildren? (more : List (View Handler)) : View Handler → Option (View Handler)
  | .row l => some (.row { l with children := l.children ++ more })
  | .column l => some (.column { l with children := l.children ++ more })
  | _ => none

/-- A view changed by one of its methods. -/
def adjust? (method : String) (args : List Argument) (v : View Handler) :
    Option (View Handler) := do
  match v, method, args with
  | v, "build", [] => return v
  | .row _, "child", [a] | .column _, "child", [a] => addChildren? [← a.view?] v
  | .row _, "children", [a] | .column _, "children", [a] => addChildren? (← a.all? view?) v
  | .container c, "center", [] => return .container c.centered
  | .container c, "center_x", [] => return .container { c with centerX := true }
  | .container c, "center_y", [] => return .container { c with centerY := true }
  | .input i, "value", [a] => return .input { i with value := ← a.text? }
  | .input i, "password", [] => return .input { i with password := true }
  | .sidebar s, "with_toggle", [a] => return .sidebar (s.withToggle (← a.optional? handler?))
  | .select _, "selected", [a] => replace? "selected_index" a v
  | v, "on_choose", [a] => replace? "on_select" a v
  | v, "with_style", [a] => replace? "style" a v
  | v, "with_toggle", [a] => replace? "on_toggle" a v
  | v, "with_select", [a] => replace? "on_select" a v
  | v, "with_selected", [a] => replace? "selected" a v
  | v, "with_step", [a] => replace? "step" a v
  | v, field, [a] => replace? field a v
  | _, _, _ => none

end Widgetry.Blueprint
