import Widgetry.View.Basic

/-!
# Views as plain data

Every view is an object whose entry `type` names its kind, followed by its settings in a fixed
order. What is absent is written as such.
-/

namespace Widgetry

variable {μ : Type}

namespace View

/-- A text that may be absent. -/
def optionalText : Option String → Value
  | some s => .str s
  | none => .nil

def optionalWhole : Option Int → Value
  | some n => .int n
  | none => .nil

end View

def Quantity.toValue : Quantity → Value
  | .whole n => .int n
  | .real x => .float x

namespace View

def optionalQuantity : Option Quantity → Value
  | some q => q.toValue
  | none => .nil

def optionalMessage (message : μ → Value) : Option μ → Value
  | some m => message m
  | none => .nil

/-- A list of texts. -/
def textList (items : List String) : Value := .list (items.map .str)

/-- An object with the given settings. -/
def settings (entries : List (String × Value)) : Value :=
  .object (entries.map fun e => (.str e.1, e.2))

def navItemData (i : NavItem) : Value :=
  settings [("icon", .str i.icon), ("label", .str i.label), ("badge", optionalText i.badge)]

mutual

/-- A view as data; `message` says how messages are written. -/
def toData (message : μ → Value) : View μ → Value
  | .empty => settings [("type", .str "Empty")]
  | .text t =>
    settings [("type", .str "Text"), ("content", .str t.content), ("style", optionalText t.style)]
  | .button b =>
    settings [("type", .str "Button"), ("label", .str b.label), ("onclick", message b.onclick),
      ("style", optionalText b.style)]
  | .input i =>
    settings [("type", .str "Input"), ("placeholder", .str i.placeholder), ("value", .str i.value),
      ("on_change", optionalMessage message i.onChange), ("width", optionalWhole i.width),
      ("password", .bool i.password), ("style", optionalText i.style)]
  | .checkbox c =>
    settings [("type", .str "Checkbox"), ("is_checked", .bool c.checked), ("label", .str c.label),
      ("on_toggle", optionalMessage message c.onToggle), ("style", optionalText c.style)]
  | .radio r =>
    settings [("type", .str "Radio"), ("is_selected", .bool r.selected), ("label", .str r.label),
      ("on_select", optionalMessage message r.onSelect), ("style", optionalText r.style)]
  | .select s =>
    settings [("type", .str "Select"), ("options", textList s.options),
      ("selected_index", optionalWhole s.selected),
      ("on_select", optionalMessage message s.onSelect), ("style", optionalText s.style)]
  | .slider s =>
    settings [("type", .str "Slider"), ("min", s.min.toValue), ("max", s.max.toValue),
      ("value", s.value.toValue), ("on_change", message s.onChange),
      ("step", optionalQuantity s.step), ("style", optionalText s.style)]
  | .progressBar p =>
    settings [("type", .str "ProgressBar"), ("progress", p.progress.toValue),
      ("style", optionalText p.style)]
  | .row ⟨children, spacing, padding, style⟩ =>
    settings [("type", .str "Row"), ("children", .list (listData message children)),
      ("spacing", .int spacing), ("padding", .int padding), ("style", optionalText style)]
  | .column ⟨children, spacing, padding, style⟩ =>
    settings [("type", .str "Column"), ("children", .list (listData message children)),
      ("spacing", .int spacing), ("padding", .int padding), ("style", optionalText style)]
  | .container ⟨child, padding, width, height, centerX, centerY, style⟩ =>
    settings [("type", .str "Container"), ("child", toData message child),
      ("padding", .int padding), ("width", optionalWhole width), ("height", optionalWhole height),
      ("center_x", .bool centerX), ("center_y", .bool centerY), ("style", optionalText style)]
  | .scrollable ⟨child, width, height, style⟩ =>
    settings [("type", .str "Scrollable"), ("child", toData message child),
      ("width", optionalWhole width), ("height", optionalWhole height),
      ("style", optionalText style)]
  | .list ⟨items, spacing, style⟩ =>
    settings [("type", .str "List"), ("items", .list (listData message items)),
      ("spacing", .int spacing), ("style", optionalText style)]
  | .table ⟨headers, rows, spacing, colSpacing, style⟩ =>
    settings [("type", .str "Table"), ("headers", .list (listData message headers)),
      ("rows", .list (rowsData message rows)), ("spacing", .int spacing),
      ("col_spacing", .int colSpacing), ("style", optionalText style)]
  | .tabs ⟨labels, contents, selected, position, onSelect, style⟩ =>
    settings [("type", .str "Tabs"), ("labels", textList labels),
      ("contents", .list (listData message contents)), ("selected", .int selected),
      ("position", .str position.name), ("on_select", optionalMessage message onSelect),
      ("style", optionalText style)]
  | .accordion ⟨items, allowMultiple, onToggle, style⟩ =>
    settings [("type", .str "Accordion"), ("items", .list (sectionsData message items)),
      ("allow_multiple", .bool allowMultiple), ("on_toggle", optionalMessage message onToggle),
      ("style", optionalText style)]
  | .navigationRail n =>
    settings [("type", .str "NavigationRail"), ("items", .list (n.items.map navItemData)),
      ("selected", .int n.selected), ("width", n.width.toValue),
      ("show_labels", .bool n.showLabels), ("on_select", optionalMessage message n.onSelect),
      ("style", optionalText n.style)]
  | .sidebar ⟨content, width, collapsible, position, onToggle, style⟩ =>
    settings [("type", .str "Sidebar"), ("content", toData message content),
      ("width", width.toValue), ("collapsible", .bool collapsible),
      ("position", .str position.name), ("on_toggle", optionalMessage message onToggle),
      ("style", optionalText style)]

def listData (message : μ → Value) : List (View μ) → List Value
  | [] => []
  | v :: rest => toData message v :: listData message rest

def rowsData (message : μ → Value) : List (List (View μ)) → List Value
  | [] => []
  | r :: rest => .list (listData message r) :: rowsData message rest

def sectionsData (message : μ → Value) : List (AccordionItem μ) → List Value
  | [] => []
  | ⟨title, icon, expanded, children⟩ :: rest =>
    settings [("title", .str title), ("icon", optionalText icon), ("expanded", .bool expanded),
      ("children", .list (listData message children))] :: sectionsData message rest

end

/-- A view whose messages are texts, as data. -/
def data (v : View String) : Value := toData .str v

end View

end Widgetry
