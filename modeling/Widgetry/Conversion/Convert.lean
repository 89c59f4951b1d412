import Widgetry.Conversion.Property
import Widgetry.Node.Element
import Widgetry.Settings.Basic
import Widgetry.View.Data

/-!
# From nodes to views

Checks a tree of nodes and makes the view that it describes. The first thing that is wrong stops the
conversion. Nodes of an unknown kind are refused under the strict policy and drawn as empty under
the permissive one.

`center`, `container` and `scrollable` show their first child only. A table takes its headers from
its children of the kind `header` and its rows from those of the kind `row`.
-/

namespace Widgetry

/-- What a conversion is asked for. -/
structure ConversionOptions where
  policy : Policy := .strict
  /-- how many levels of nodes are converted -/
  maxDepth : Int := 64

/-- The element of a node's kind, which must not have parts. -/
def elementOf (kind : Value) : Except ConversionFault (Option Element) :=
  match kind with
  | .list _ | .object _ => .error .compoundKind
  | _ => .ok (Element.ofKind? kind)

/-- The limits on depth, as a message names them. -/
def tooDeepFor {α : Type} (kind : Value) (limit : Int) (depth : Nat) : Except ConversionFault α :=
  refuse kind (.invalidType "children" ("depth <= " ++ toString limit)
    ("depth " ++ depth.repr))

/-! ## Elements without children -/

namespace Node

def textView (n : Node) : Except ConversionFault (View String) := do
  let content ← n.mainText ""
  let style ← n.strProp? "style"
  return .text { content, style }

def buttonView (n : Node) : Except ConversionFault (View String) := do
  let onclick ← n.messageProp "onclick"
  let label ← n.mainText ""
  let style ← n.strProp? "style"
  return .button { label, onclick, style }

def inputView (n : Node) : Except ConversionFault (View String) := do
  let placeholder ← n.mainText ""
  let value ← n.strProp? "value"
  let onChange ← n.messageProp? "on_change"
  let width ← n.intProp? "width"
  let password ← n.boolProp? "password"
  let style ← n.strProp? "style"
  return .input
    { placeholder, value := value.getD "", onChange, width, password := password.getD false, style }

def checkboxView (n : Node) : Except ConversionFault (View String) := do
  let checked ← n.boolProp? "is_checked"
  let label ← n.mainText ""
  let onToggle ← n.messageProp? "on_toggle"
  let style ← n.strProp? "style"
  return .checkbox { checked := checked.getD false, label, onToggle, style }

def radioView (n : Node) : Except ConversionFault (View String) := do
  let selected ← n.boolProp? "is_selected"
  let label ← n.mainText ""
  let onSelect ← n.messageProp? "on_select"
  let style ← n.strProp? "style"
  return .radio { selected := selected.getD false, label, onSelect, style }

def selectView (n : Node) : Except ConversionFault (View String) := do
  let options ← n.strsProp "options"
  let selected ← n.intProp? "selected_index"
  let onSelect ← n.messageProp? "on_select"
  let style ← n.strProp? "style"
  return .select { options, selected, onSelect, style }

end Node

/-! ## Trees -/

mutual

/-- The view of a node that stands on some level; the root stands on the first. -/
def convert (o : ConversionOptions) (depth : Nat) : Node → Except ConversionFault (View String)
  | .mk kind args props children => do
    let n := Node.mk kind args props children
    if o.maxDepth < depth then tooDeepFor kind o.maxDepth depth
    else match ← elementOf kind with
    | none =>
      match o.policy with
      | .permissive => return .empty
      | .strict => refuse kind .unknownKind
    | some .center => do
      let child ← convertFirst o depth children
      return .container (Container.around child).centered
    | some .column => do
      let spacing ← n.intProp? "spacing"
      let padding ← n.intProp? "padding"
      let style ← n.strProp? "style"
      let views ← convertEach o depth children
      return .column ⟨views, spacing.getD 0, padding.getD 0, style⟩
    | some .row => do
      let spacing ← n.intProp? "spacing"
      let padding ← n.intProp? "padding"
      let style ← n.strProp? "style"
      let views ← convertEach o depth children
      return .row ⟨views, spacing.getD 0, padding.getD 0, style⟩
    | some .container => do
      let child ← convertFirst o depth children
      let padding ← n.intProp? "padding"
      let width ← n.intProp? "width"
      let height ← n.intProp? "height"
      let centerX ← n.boolProp? "center_x"
      let centerY ← n.boolProp? "center_y"
      let style ← n.strProp? "style"
      return .container
        ⟨child, padding.getD 0, width, height, centerX.getD false, centerY.getD false, style⟩
    | some .scrollable => do
      let child ← convertFirst o depth children
      let width ← n.intProp? "width"
      let height ← n.intProp? "height"
      let style ← n.strProp? "style"
      return .scrollable ⟨child, width, height, style⟩
    | some .text => n.textView
    | some .button => n.buttonView
    | some .input => n.inputView
    | some .checkbox => n.checkboxView
    | some .radio => n.radioView
    | some .select => n.selectView
    | some .list => do
      let views ← convertEach o depth children
      let spacing ← n.intProp? "spacing"
      let style ← n.strProp? "style"
      return .list ⟨views, spacing.getD 0, style⟩
    | some .table => do
      let headers ← convertHeaders o depth children
      let rows ← convertRows o depth children
      let spacing ← n.intProp? "spacing"
      let colSpacing ← n.intProp? "col_spacing"
      let style ← n.strProp? "style"
      return .table ⟨headers, rows, spacing.getD 0, colSpacing.getD 0, style⟩

/-- The views of the children of a node on some level. -/
def convertEach (o : ConversionOptions) (depth : Nat) :
    List Node → Except ConversionFault (List (View String))
  | [] => .ok []
  | n :: rest => do
    let v ← convert o (depth + 1) n
    let vs ← convertEach o depth rest
    return v :: vs

/-- The view of the first child of a node on some level; without one it is empty. -/
def convertFirst (o : ConversionOptions) (depth : Nat) :
    List Node → Except ConversionFault (View String)
  | [] => .ok .empty
  | n :: _ => convert o (depth + 1) n

/-- The headers among the children of a table: the first child of each, or its text. -/
def convertHeaders (o : ConversionOptions) (depth : Nat) :
    List Node → Except ConversionFault (List (View String))
  | [] => .ok []
  | .mk kind args props children :: rest =>
    if kind.same (.str "header") then do
      let v ← match children with
        | [] => (Node.mk kind args props []).textView
        | n :: _ => convert o (depth + 2) n
      let vs ← convertHeaders o depth rest
      return v :: vs
    else convertHeaders o depth rest

/-- The rows among the children of a table. -/
def convertRows (o : ConversionOptions) (depth : Nat) :
    List Node → Except ConversionFault (List (List (View String)))
  | [] => .ok []
  | .mk kind _ _ children :: rest =>
    if kind.same (.str "row") then do
      let row ← convertEach o (depth + 1) children
      let rows ← convertRows o depth rest
      return row :: rows
    else convertRows o depth rest

end

/-- The view that a tree of nodes describes. -/
def Node.toView (n : Node) (o : ConversionOptions) : Except ConversionFault (View String) :=
  convert o 1 n

/-- A view, or the reason why there is none; other faults are passed on. -/
def Node.toViewOrReason (n : Node) (o : ConversionOptions) :
    Except ConversionFault (Except ConversionError (View String)) :=
  match n.toView o with
  | .ok v => .ok (.ok v)
  | .error (.refused e) => .ok (.error e)
  | .error f => .error f

end Widgetry
