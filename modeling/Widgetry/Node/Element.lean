import Widgetry.Value.Basic

/-!
# Elements

The kinds of node that can be drawn. Some have two names.
-/

namespace Widgetry

inductive Element where
  | center
  | column
  | row
  | container
  | scrollable
  | text
  | button
  | input
  | checkbox
  | radio
  | select
  | list
  | table
deriving DecidableEq, Repr

namespace Element

/-- Every name of an element, in the order of the alphabet. -/
def names : List (String × Element) :=
  [("button", button), ("center", center), ("checkbox", checkbox), ("col", column),
    ("column", column), ("container", container), ("input", input), ("label", text),
    ("list", list), ("radio", radio), ("row", row), ("scrollable", scrollable),
    ("select", select), ("table", table), ("text", text)]

/-- The names of all elements. -/
def knownKinds : List String := names.map (·.1)

def ofName? (name : String) : Option Element := names.lookup name

/-- The element that a node's kind names, if it is a name. -/
def ofKind? : Value → Option Element
  | .str name => ofName? name
  | _ => none

end Element

end Widgetry
