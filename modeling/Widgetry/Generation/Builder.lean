import Widgetry.Generation.Expression
import Widgetry.Node.Element

/-!
# Generated views

The expression that builds the view of a template: a call for the element, a chain of calls for its
settings, and the builders of its children inside. A node of an unknown kind is an empty view with a
remark.
-/

namespace Widgetry

namespace Part

/-- The source of a part. A node inside another's settings is an empty view. -/
def source (g : Naming) : Part → Except GenerationFault String
  | .code e => .ok (e.source g [])
  | .known (.node _) => .ok "View.empty()"
  | .known v => v.literal

/-- The source of a message. -/
def messageSource (g : Naming) (p : Part) : Except GenerationFault String :=
  match p.variant? with
  | some v => .ok (g.messages ++ "." ++ v)
  | none => p.source g

def isNil : Part → Bool
  | .known .nil => true
  | _ => false

def isTrue : Part → Bool
  | .known (.bool b) => b
  | _ => false

end Part

namespace Template

/-- A property that is not the absent value. -/
def given? (t : Template) (name : String) : Option Part :=
  (t.prop? name).filter fun p => !p.isNil

/-- The source of the first argument; without one it is the empty text. -/
def mainSource (g : Naming) (t : Template) : Except GenerationFault String :=
  match t.args with
  | [] => .ok "\"\""
  | p :: _ => p.source g

/-- The source of a property, or of its default. -/
def propSource (g : Naming) (t : Template) (name default : String) :
    Except GenerationFault String :=
  match t.prop? name with
  | some p => p.source g
  | none => .ok default

/-- A setting of a builder: the property that gives it, and the method that takes it. -/
structure Setting where
  prop : String
  method : String

namespace Setting

/-- A setting whose method bears the name of the property. -/
def named (name : String) : Setting := ⟨name, name⟩

def style : Setting := named "style"

def elementStyle : Setting := ⟨"style", "with_style"⟩

/-- The call of a setting that is given. -/
def call (source : Part → Except GenerationFault String) (t : Template) (s : Setting) :
    Except GenerationFault String :=
  match t.given? s.prop with
  | none => .ok ""
  | some p => do
    let text ← source p
    return "." ++ s.method ++ "(" ++ text ++ ")"

/-- The calls of settings, one after the other. -/
def calls (source : Part → Except GenerationFault String) (t : Template) :
    List Setting → Except GenerationFault String
  | [] => .ok ""
  | s :: rest => do
    let first ← s.call source t
    let others ← calls source t rest
    return first ++ others

end Setting

/-- The calls of settings that hold values. -/
def valueCalls (g : Naming) (t : Template) (settings : List Setting) :
    Except GenerationFault String :=
  Setting.calls (Part.source g) t settings

/-- The call of a setting that holds a message. -/
def messageCall (g : Naming) (t : Template) (prop method : String) :
    Except GenerationFault String :=
  Setting.call (Part.messageSource g) t ⟨prop, method⟩

/-- The call of a setting that is on. -/
def flagCall (t : Template) (name : String) : String :=
  match t.prop? name with
  | some p => if p.isTrue then "." ++ name ++ "()" else ""
  | none => ""

/-- The style of an element as a last argument. -/
def styleArgument (g : Naming) (t : Template) : Except GenerationFault String :=
  match t.given? "style" with
  | none => .ok ""
  | some p => do
    let text ← p.source g
    return ", style=" ++ text

/-! ## Elements without children -/

def textSource (g : Naming) (t : Template) : Except GenerationFault String := do
  let style ← t.styleArgument g
  let main ← t.mainSource g
  return "View.text(" ++ main ++ style ++ ")"

def buttonSource (g : Naming) (t : Template) : Except GenerationFault String := do
  let message ← match t.given? "onclick" with
    | some p => p.messageSource g
    | none => .ok "None"
  let style ← t.styleArgument g
  let main ← t.mainSource g
  return "View.button(" ++ main ++ ", " ++ message ++ style ++ ")"

def inputSource (g : Naming) (t : Template) : Except GenerationFault String := do
  let settings ← t.valueCalls g [.named "value", .named "width"]
  let message ← t.messageCall g "on_change" "on_change"
  let style ← t.valueCalls g [.style]
  let main ← t.mainSource g
  return "View.input(" ++ main ++ ")" ++ settings ++ message ++ t.flagCall "password" ++ style ++
    ".build()"

/-- A check box or a radio button. -/
def choiceSource (g : Naming) (t : Template) (call state prop method : String) :
    Except GenerationFault String := do
  let on ← t.propSource g state "False"
  let main ← t.mainSource g
  let style ← t.valueCalls g [.elementStyle]
  let message ← t.messageCall g prop method
  return call ++ "(" ++ on ++ ", " ++ main ++ ")" ++ style ++ message

def selectSource (g : Naming) (t : Template) : Except GenerationFault String := do
  let options ← t.propSource g "options" "[]"
  let settings ← t.valueCalls g [⟨"selected_index", "selected"⟩, .elementStyle]
  let message ← t.messageCall g "on_select" "on_choose"
  return "View.select(" ++ options ++ ")" ++ settings ++ message

/-- The settings of a container behind its child. -/
def containerTail (g : Naming) (t : Template) : Except GenerationFault String := do
  let settings ← t.valueCalls g [.named "padding", .named "width", .named "height"]
  let style ← t.valueCalls g [.style]
  return settings ++ t.flagCall "center_x" ++ t.flagCall "center_y" ++ style ++ ".build()"

/-- The text of a kind in a remark. -/
def kindText (kind : Value) : Except GenerationFault String := kind.plain.mapError .number

/-! ## Trees -/

mutual

/-- The lines that build a template's view, between two texts. -/
def lines (g : Naming) (before after : String) :
    Template → Except GenerationFault (List Line)
  | mk kind args props children => do
    let t := mk kind args props children
    match Element.ofKind? kind with
    | some .column => do
      let settings ← t.valueCalls g [.named "spacing", .named "padding", .style]
      layoutLines g before after ("View.col()" ++ settings) children
    | some .row => do
      let settings ← t.valueCalls g [.named "spacing", .named "padding", .style]
      layoutLines g before after ("View.row()" ++ settings) children
    | some .center => singleLines g before after "View.container" ".center().build()" children
    | some .container => do
      let tail ← t.containerTail g
      singleLines g before after "View.container" tail children
    | some .scrollable => do
      let settings ← t.valueCalls g [.named "width", .named "height", .style]
      singleLines g before after "View.scrollable" (settings ++ ".build()") children
    | some .text => do
      let source ← t.textSource g
      return [.at0 (before ++ source ++ after)]
    | some .button => do
      let source ← t.buttonSource g
      return [.at0 (before ++ source ++ after)]
    | some .input => do
      let source ← t.inputSource g
      return [.at0 (before ++ source ++ after)]
    | some .checkbox => do
      let source ← t.choiceSource g "View.checkbox" "is_checked" "on_toggle" "with_toggle"
      return [.at0 (before ++ source ++ after)]
    | some .radio => do
      let source ← t.choiceSource g "View.radio" "is_selected" "on_select" "with_select"
      return [.at0 (before ++ source ++ after)]
    | some .select => do
      let source ← t.selectSource g
      return [.at0 (before ++ source ++ after)]
    | some .list => do
      let tail ← t.valueCalls g [.named "spacing", .style]
      match children with
      | [] => return [.at0 (before ++ "View.list([])" ++ tail ++ ".build()" ++ after)]
      | _ => do
        let inside ← eachLines g children
        return .at0 (before ++ "View.list([") :: Line.indented inside ++
          [.at0 ("])" ++ tail ++ ".build()" ++ after)]
    | some .table => do
      let tail ← t.valueCalls g [.named "spacing", .named "col_spacing", .style]
      let headers ← headerLines g children
      let rows ← rowLines g children
      let inside := .at0 "[" :: Line.indented headers ++ .at0 "]," ::
        .at0 "[" :: Line.indented rows ++ [.at0 "],"]
      return .at0 (before ++ "View.table(") :: Line.indented inside ++
        [.at0 (")" ++ tail ++ ".build()" ++ after)]
    | none => do
      let text ← kindText kind
      return [.at0 (before ++ "View.empty()" ++ after ++ "  # unknown call: " ++ text)]

/-- The lines of a row or a column. -/
def layoutLines (g : Naming) (before after head : String) :
    List Template → Except GenerationFault (List Line)
  | [] => .ok [.at0 (before ++ head ++ ".build()" ++ after)]
  | t :: rest => do
    let first ← lines g "" "," t
    let others ← eachLines g rest
    return .at0 (before ++ head ++ ".children([") :: Line.indented (first ++ others) ++
      [.at0 ("]).build()" ++ after)]

/-- The lines of an element that shows its first child. -/
def singleLines (g : Naming) (before after call tail : String) :
    List Template → Except GenerationFault (List Line)
  | [] => .ok [.at0 (before ++ call ++ "(View.empty())" ++ tail ++ after)]
  | t :: _ => do
    let inside ← lines g "" "" t
    return .at0 (before ++ call ++ "(") :: Line.indented inside ++ [.at0 (")" ++ tail ++ after)]

/-- The lines of children, each with a comma. -/
def eachLines (g : Naming) : List Template → Except GenerationFault (List Line)
  | [] => .ok []
  | t :: rest => do
    let first ← lines g "" "," t
    let others ← eachLines g rest
    return first ++ others

/-- The lines of the headers among the children of a table. -/
def headerLines (g : Naming) : List Template → Except GenerationFault (List Line)
  | [] => .ok []
  | mk kind args props children :: rest =>
    if kind.same (.str "header") then do
      let first ← match children with
        | [] => do
          let source ← (mk kind args props []).textSource g
          pure [.at0 (source ++ ",")]
        | t :: _ => lines g "" "," t
      let others ← headerLines g rest
      return first ++ others
    else headerLines g rest

/-- The lines of the rows among the children of a table. -/
def rowLines (g : Naming) : List Template → Except GenerationFault (List Line)
  | [] => .ok []
  | mk kind _ _ children :: rest =>
    if kind.same (.str "row") then do
      let inside ← eachLines g children
      let others ← rowLines g rest
      return .at0 "[" :: Line.indented inside ++ .at0 "]," :: others
    else rowLines g rest

end

end Template

end Widgetry
