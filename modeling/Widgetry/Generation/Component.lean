import Widgetry.Generation.Builder
import Widgetry.Generation.TypeMap
import Widgetry.Generation.Widget
import Widgetry.Language.Operation

/-!
# Generated components

The source of one widget: an enumeration of its messages, and a class with its fields, its
constructor, its default instance, its own methods, its event method and its view. The messages are
those that the view refers to; a handler of any other leaves a remark.
-/

namespace Widgetry

/-- What the source of a widget consists of. -/
structure Component where
  variants : List String
  imports : List String
  lines : List Line

namespace Widget

/-- Refuses a name that is no identifier of the generated source. -/
def checkNames (cause : String → GenerationCause) : List String → Except GenerationFault Unit
  | [] => .ok ()
  | name :: rest =>
    if Text.isIdentifier name && !Text.isReserved name then checkNames cause rest
    else GenerationFault.codegen (cause name)

/-- All names that a widget declares. -/
def declaredNames (w : Widget) : List String :=
  w.name :: w.fields.map (·.name) ++ w.helpers.flatMap fun fn => fn.name :: fn.paramNames

def naming (w : Widget) (messages : String) : Naming where
  messages
  fields := w.fields.map (·.name)
  methods := w.methods

/-- The enumeration of the messages. -/
def enumLines (messages : String) (variants : List String) : List Line :=
  let members := match variants with
    | [] => [.at0 "pass"]
    | _ => variants.map fun v => .at0 (v ++ " = " ++ Json.quoted v)
  .at0 ("class " ++ messages ++ "(Enum):") :: Line.indented members

/-- The fields with their hints. -/
def hints (w : Widget) (types : TypeMap) : List (String × String) :=
  w.fields.map fun f => (f.name, types.hint f.type)

/-- Where each field is declared. -/
def fieldLines (hints : List (String × String)) : List Line :=
  match hints with
  | [] => []
  | _ => hints.map (fun a => .at0 (a.1 ++ ": " ++ a.2)) ++ [.blank]

def constructorLines (hints : List (String × String)) : List Line :=
  let params := hints.map fun a => ", " ++ a.1 ++ ": " ++ a.2
  let body := match hints with
    | [] => [.at0 "pass"]
    | _ => hints.map fun a => .at0 ("self." ++ a.1 ++ " = " ++ a.1)
  .at0 ("def __init__(self" ++ String.join params ++ ") -> None:") :: Line.indented body

/-- The value that a field starts with. -/
def WidgetField.start (f : WidgetField) : Value :=
  match f.initial with
  | .nil => zeroValue f.type
  | v => v

/-- The literals that the fields start with. -/
def startLiterals : List WidgetField → Except GenerationFault (List String)
  | [] => .ok []
  | f :: rest => do
    let text ← (WidgetField.start f).literal
    let texts ← startLiterals rest
    return text :: texts

def defaultLines (name : String) (literals : List String) : List Line :=
  [.at0 "@classmethod", .at0 ("def default(cls) -> \"" ++ name ++ "\":"),
    ⟨1, "return cls(" ++ commaSeparated literals ++ ")"⟩]

/-- The body of a method, whose last expression is its result. -/
def helperBody (g : Naming) (locals : List String) : List Stmt → List Line
  | [] => [.at0 "pass"]
  | [.expr e _] => [.at0 ("return " ++ e.source g locals)]
  | [s] => s.lines g locals
  | s :: rest => s.lines g locals ++ helperBody g (s.localsAfter locals) rest

/-- Only the last statement can be a result. -/
theorem helperBody_cons (g : Naming) (locals : List String) (s s' : Stmt) (rest : List Stmt) :
    helperBody g locals (s :: s' :: rest)
      = s.lines g locals ++ helperBody g (s.localsAfter locals) (s' :: rest) := by
  cases s <;> rfl

def helperLines (g : Naming) (fn : FnDecl) : List Line :=
  let params := fn.paramNames.map fun p => ", " ++ p
  .at0 ("def " ++ fn.name ++ "(self" ++ String.join params ++ "):") ::
    Line.indented (helperBody g (Text.sortedSet fn.paramNames) fn.body)

/-- The methods of a widget's own, each with a blank line behind it. -/
def helpersLines (g : Naming) (helpers : List FnDecl) : List Line :=
  helpers.flatMap fun fn => helperLines g fn ++ [.blank]

/-- The name of the event in the event method. -/
def eventName (w : Widget) : String :=
  match w.eventParam with
  | some p => if p = "" then "msg" else p
  | none => "msg"

/-- The variants that have a handler but are not referred to by the view. -/
def unreferenced (w : Widget) (variants : List String) : List String :=
  Text.sortedSet ((w.handlers.map (·.1)).filter fun k => k != wildcard && !variants.contains k)

/-- The handler of a variant in the generated event method. -/
def handlerOf (w : Widget) (variant : String) : List Stmt := (w.handlers.lookup variant).getD []

/-- The cases of the event method: what each stands for, and its statements. -/
def cases (w : Widget) (messages : String) (variants : List String) :
    List (String × List Stmt) :=
  let known := variants.map fun v => (messages ++ "." ++ v, w.handlerOf v)
  match w.handlers.lookup wildcard with
  | some body => known ++ [(wildcard, body)]
  | none => known

def caseLines (g : Naming) (locals : List String) (c : String × List Stmt) : List Line :=
  .at0 ("case " ++ c.1 ++ ":") :: Line.indented (Stmt.blockLines g locals c.2)

def eventLines (g : Naming) (w : Widget) (variants : List String) : List Line :=
  let remarks := (w.unreferenced variants).map fun v =>
    .at0 ("# no view event references " ++ g.messages ++ "." ++ v)
  let body := match w.cases g.messages variants with
    | [] => [.at0 "pass"]
    | cases => .at0 ("match " ++ w.eventName ++ ":") ::
        Line.indented (cases.flatMap (caseLines g [w.eventName]))
  .at0 ("def on(self, " ++ w.eventName ++ ": " ++ g.messages ++ ") -> None:") ::
    Line.indented (remarks ++ body)

def viewLines (g : Naming) (w : Widget) : Except GenerationFault (List Line) := do
  let body ← w.view.lines g "return " ""
  return .at0 ("def view(self) -> View[" ++ g.messages ++ "]:") :: Line.indented body

/-- The class of a widget. -/
def classLines (g : Naming) (w : Widget) (types : TypeMap) (variants : List String) :
    Except GenerationFault (List Line) := do
  let hints := w.hints types
  let literals ← startLiterals w.fields
  let view ← viewLines g w
  let body := fieldLines hints ++ constructorLines hints ++ .blank ::
    defaultLines w.name literals ++ .blank :: helpersLines g w.helpers ++
    eventLines g w variants ++ .blank :: view
  return .at0 ("class " ++ w.name ++ "(Component[" ++ g.messages ++ "]):") :: Line.indented body

/-- What every component imports. -/
def commonImports : List String :=
  ["enum.Enum", "auto_ui.component.Component", "auto_ui.view.View"]

/-- What a component imports. -/
def importsFor (w : Widget) (types : TypeMap) : List String :=
  if (w.hints types).any (mentionsAnything ·.2) then commonImports ++ ["typing.Any"]
  else commonImports

/-- The source of a widget whose messages have a name. -/
def component (w : Widget) (types : TypeMap) (messages : String) :
    Except GenerationFault Component := do
  checkNames (fun name => .notIdentifier name w.name) w.declaredNames
  let symbols ← w.view.symbols.mapError .template
  let variants := symbols.variants
  checkNames (fun v => .variantNotIdentifier v w.name) variants
  let g := w.naming messages
  let lines ← classLines g w types variants
  let _ ← symbols.sortedKinds.mapError .template
  let lines := enumLines messages variants ++ [.blank, .blank] ++ lines
  return { variants, imports := w.importsFor types, lines }

/-- What a component is made of, and what has been checked for it. -/
theorem component_parts {w : Widget} {types : TypeMap} {messages : String} {c : Component}
    (h : w.component types messages = .ok c) : ∃ symbols lines,
      checkNames (fun name => .notIdentifier name w.name) w.declaredNames = .ok () ∧
      w.view.symbols = .ok symbols ∧
      checkNames (fun v => .variantNotIdentifier v w.name) symbols.variants = .ok () ∧
      classLines (w.naming messages) w types symbols.variants = .ok lines ∧
      c = ⟨symbols.variants, w.importsFor types,
        enumLines messages symbols.variants ++ [.blank, .blank] ++ lines⟩ := by
  obtain ⟨_, hdeclared, h⟩ := bind_eq_ok.mp h
  obtain ⟨symbols, hsymbols, h⟩ := bind_eq_ok.mp h
  obtain ⟨_, hvariants, h⟩ := bind_eq_ok.mp h
  obtain ⟨lines, hlines, h⟩ := bind_eq_ok.mp h
  obtain ⟨_, -, h⟩ := bind_eq_ok.mp h
  cases h
  exact ⟨symbols, lines, hdeclared, mapError_eq_ok.mp hsymbols, hvariants, hlines, rfl⟩

end Widget

namespace Sink

/-- Adds a component. -/
def addComponent (s : Sink) (c : Component) : Sink :=
  (c.imports.foldl addImport s).putAll c.lines

end Sink

end Widgetry
