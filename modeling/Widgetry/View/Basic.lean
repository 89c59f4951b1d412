import Widgetry.Language.Operation

/-!
# Views

A view is what a backend draws: a tree of layouts and elements, each with the settings of its kind.
Elements that react to the user carry messages of some type `μ`; which message, if any, is up to the
program. Every kind of view has a structure of its own, whose defaults are those of a plain one.
-/

namespace Widgetry

/-- On which side the labels of tabs stand. -/
inductive TabsPosition where
  | top
  | bottom
  | left
  | right
deriving DecidableEq, Repr

def TabsPosition.name : TabsPosition → String
  | top => "top"
  | bottom => "bottom"
  | left => "left"
  | right => "right"

inductive SidebarPosition where
  | left
  | right
deriving DecidableEq, Repr

def SidebarPosition.name : SidebarPosition → String
  | left => "left"
  | right => "right"

structure TextView where
  content : String
  style : Option String := none

structure Button (μ : Type) where
  label : String
  onclick : μ
  style : Option String := none

structure Input (μ : Type) where
  placeholder : String := ""
  value : String := ""
  onChange : Option μ := none
  width : Option Int := none
  password : Bool := false
  style : Option String := none

structure Checkbox (μ : Type) where
  checked : Bool
  label : String
  onToggle : Option μ := none
  style : Option String := none

structure Radio (μ : Type) where
  selected : Bool
  label : String
  onSelect : Option μ := none
  style : Option String := none

structure Select (μ : Type) where
  options : List String
  selected : Option Int := none
  onSelect : Option μ := none
  style : Option String := none

structure Slider (μ : Type) where
  min : Quantity
  max : Quantity
  value : Quantity
  onChange : μ
  step : Option Quantity := none
  style : Option String := none

structure ProgressBar where
  progress : Quantity
  style : Option String := none

/-- One destination of a navigation rail. -/
structure NavItem where
  icon : String
  label : String
  badge : Option String := none

structure NavigationRail (μ : Type) where
  items : List NavItem := []
  selected : Int := 0
  width : Quantity := .real 72.0
  showLabels : Bool := true
  onSelect : Option μ := none
  style : Option String := none

mutual

inductive View (μ : Type) where
  | empty
  | text (t : TextView)
  | button (b : Button μ)
  | input (i : Input μ)
  | checkbox (c : Checkbox μ)
  | radio (r : Radio μ)
  | select (s : Select μ)
  | slider (s : Slider μ)
  | progressBar (p : ProgressBar)
  | row (l : Layout μ)
  | column (l : Layout μ)
  | container (c : Container μ)
  | scrollable (s : Scrollable μ)
  | list (l : Listing μ)
  | table (t : Table μ)
  | tabs (t : Tabs μ)
  | accordion (a : Accordion μ)
  | navigationRail (n : NavigationRail μ)
  | sidebar (s : Sidebar μ)

/-- What rows and columns have in common. -/
structure Layout (μ : Type) where
  children : List (View μ)
  spacing : Int
  padding : Int
  style : Option String

structure Container (μ : Type) where
  child : View μ
  padding : Int
  width : Option Int
  height : Option Int
  centerX : Bool
  centerY : Bool
  style : Option String

structure Scrollable (μ : Type) where
  child : View μ
  width : Option Int
  height : Option Int
  style : Option String

structure Listing (μ : Type) where
  items : List (View μ)
  spacing : Int
  style : Option String

structure Table (μ : Type) where
  headers : List (View μ)
  rows : List (List (View μ))
  spacing : Int
  colSpacing : Int
  style : Option String

structure Tabs (μ : Type) where
  labels : List String
  contents : List (View μ)
  selected : Int
  position : TabsPosition
  onSelect : Option μ
  style : Option String

/-- One section of an accordion. -/
structure AccordionItem (μ : Type) where
  title : String
  icon : Option String
  expanded : Bool
  children : List (View μ)

structure Accordion (μ : Type) where
  items : List (AccordionItem μ)
  allowMultiple : Bool
  onToggle : Option μ
  style : Option String

structure Sidebar (μ : Type) where
  content : View μ
  width : Quantity
  collapsible : Bool
  position : SidebarPosition
  onToggle : Option μ
  style : Option String

end

variable {μ : Type}

namespace View

/-- The name of a view's kind. -/
def kind : View μ → String
  | empty => "Empty"
  | text _ => "Text"
  | button _ => "Button"
  | input _ => "Input"
  | checkbox _ => "Checkbox"
  | radio _ => "Radio"
  | select _ => "Select"
  | slider _ => "Slider"
  | progressBar _ => "ProgressBar"
  | row _ => "Row"
  | column _ => "Column"
  | container _ => "Container"
  | scrollable _ => "Scrollable"
  | list _ => "List"
  | table _ => "Table"
  | tabs _ => "Tabs"
  | accordion _ => "Accordion"
  | navigationRail _ => "NavigationRail"
  | sidebar _ => "Sidebar"

/-- The kinds that react to the user through a message of their own. -/
def interactiveKinds : List String :=
  ["Button", "Checkbox", "Radio", "Select", "Slider", "Tabs", "Accordion", "NavigationRail",
    "Sidebar"]

def isInteractive (v : View μ) : Bool := interactiveKinds.contains v.kind

end View

/-! ## Plain views -/

def Layout.plain : Layout μ := ⟨[], 0, 0, none⟩

def Container.around (child : View μ) : Container μ := ⟨child, 0, none, none, false, false, none⟩

def Container.centered (c : Container μ) : Container μ :=
  { c with centerX := true, centerY := true }

def Scrollable.around (child : View μ) : Scrollable μ := ⟨child, none, none, none⟩

def Listing.of (items : List (View μ)) : Listing μ := ⟨items, 0, none⟩

def Table.of (headers : List (View μ)) (rows : List (List (View μ))) : Table μ :=
  ⟨headers, rows, 0, 0, none⟩

def Tabs.of (labels : List String) (contents : List (View μ)) : Tabs μ :=
  ⟨labels, contents, 0, .top, none, none⟩

def Accordion.of (items : List (AccordionItem μ)) : Accordion μ := ⟨items, false, none, none⟩

def Sidebar.around (content : View μ) : Sidebar μ :=
  ⟨content, .real 250.0, false, .left, none, none⟩

/-- A sidebar that folds away with a message. -/
def Sidebar.withToggle (s : Sidebar μ) (message : Option μ) : Sidebar μ :=
  { s with collapsible := true, onToggle := message }

/-- Progress cut to the range from zero to one; a bound that is reached is written as such. -/
def ProgressBar.of (progress : Quantity) : ProgressBar where
  progress :=
    let one : Quantity := .real 1.0
    let zero : Quantity := .real 0.0
    let capped := if progress.compare? one == some .lt then progress else one
    if capped.compare? zero == some .gt then capped else zero

/-! ## Messages -/

mutual

/-- A message as data: a node in it is laid out as its four parts. -/
def Value.laidOut : Value → Value
  | .list items => .list (laidOutItems items)
  | .node n => n.laidOut
  | v => v

def laidOutItems : List Value → List Value
  | [] => []
  | v :: rest => v.laidOut :: laidOutItems rest

def Node.laidOut : Node → Value
  | .mk kind args props children =>
    .object [(.str "kind", kind.laidOut), (.str "args", .list (laidOutItems args)),
      (.str "props", .object props), (.str "children", .list (laidOutNodes children))]

def laidOutNodes : List Node → List Value
  | [] => []
  | n :: rest => n.laidOut :: laidOutNodes rest

end

/-- What an element does when the user acts on it: send a message, or work one out from what the
user did. Two functions are the same only if they bear the same mark. -/
inductive Handler where
  | message (v : Value)
  | function (name : String) (mark : Nat)

namespace Handler

/-- The text of the function's result: its name and the texts of its arguments. -/
def applied (name : String) (args : List Value) : Except NumberFault Value := do
  let texts ← displayItems args
  return .str (name ++ "(" ++ ",".intercalate texts ++ ")")

/-- The message that a handler sends when the user did something. -/
def resolve : Handler → List Value → Except NumberFault Value
  | message v, _ => .ok v
  | function name _, args => applied name args

/-- How a handler is shown as data. -/
def toData : Handler → Value
  | message v => v.laidOut
  | function name _ => .str ("<fn " ++ name ++ ">")

def same : Handler → Handler → Bool
  | message v, message w => v.same w
  | function n a, function m b => n == m && a == b
  | _, _ => false

end Handler

end Widgetry
