import Widgetry.Generation.Error
import Widgetry.Settings.Basic

/-!
# Widgets to be generated

What the generator knows about a widget: its fields with their initial values, the template of its
view, and the methods and handlers that are generated with it. `Widget.ofType` reads this off a
declaration.

The template comes from the last statement of the view. A widget without one is refused under the
strict policy and gets a placeholder under the permissive one.
-/

namespace Widgetry

/-- A field of a widget. The initial value is absent if none is known. -/
structure WidgetField where
  name : String
  type : String
  initial : Value

structure Widget where
  name : String
  fields : List WidgetField := []
  view : Template
  /-- the statements for each message variant, and for all others those of `wildcard` -/
  handlers : List (String × List Stmt) := []
  /-- the parameter of the event method -/
  eventParam : Option String := none
  /-- the names of all methods -/
  methods : List String := []
  /-- the methods that are generated as they are -/
  helpers : List FnDecl := []

namespace Widget

/-- The handler of all variants that have none of their own. -/
def wildcard : String := "_"

/-- The methods that have a meaning of their own. -/
def reservedMethods : List String := ["view", "on"]

/-- Whether the names of a widget and its fields are there. -/
def hasNames (w : Widget) : Bool := w.name != "" && w.fields.all (·.name != "")

/-- The field of a declaration. -/
def fieldOf (m : FieldDecl) : Except NumberFault WidgetField := do
  let initial ← match m.default with
    | some e => e.constantOrNil
    | none => .ok .nil
  return ⟨m.name, m.type, initial⟩

def fieldsOf : List FieldDecl → Except NumberFault (List WidgetField)
  | [] => .ok []
  | m :: rest => do
    let f ← fieldOf m
    let fs ← fieldsOf rest
    return f :: fs

/-- The template of a view method, or why it has none. -/
def templateOf : Option FnDecl → Except NumberFault (Except NoView Template)
  | none => .ok (.error .noMethod)
  | some fn =>
    match fn.body.getLast? with
    | none => .ok (.error .emptyBody)
    | some (.expr e _) => do
      match ← e.template? with
      | some t => return .ok t
      | none => return .error .noNode
    | some _ => .ok (.error .noNode)

/-- The template of a widget's view under a policy. -/
def viewOf (decl : TypeDecl) (policy : Policy) (file : Option String) :
    Except GenerationFault Template := do
  let fn := decl.method? "view"
  match ← (templateOf fn).mapError .number with
  | .ok t => return t
  | .error reason =>
    match policy with
    | .permissive => return .placeholder
    | .strict =>
      let line := match fn with
        | some fn => fn.line
        | none => decl.line
      throw (.refused ⟨.noView decl.name reason, { file, line := some line }⟩)

/-- The key of an arm: the variant of its pattern, or the wildcard. -/
def armKey? (arm : Arm) : Option String :=
  match arm.pattern with
  | none => some wildcard
  | some p => p.variant?

/-- Adds a handler, unless there is one of that key. -/
def addHandler (handlers : List (String × List Stmt)) (arm : Arm) : List (String × List Stmt) :=
  match armKey? arm with
  | none => handlers
  | some key =>
    if (handlers.lookup key).isSome then handlers else handlers ++ [(key, arm.body)]

/-- The arms of a statement that chooses by a name. -/
def armsOn (param : Option String) : Stmt → List Arm
  | .choose (.ident name _) arms _ => if param = some name then arms else []
  | _ => []

/-- The parameter of the event method and its handlers. -/
def handlersOf (decl : TypeDecl) : Option String × List (String × List Stmt) :=
  match decl.method? "on" with
  | none => (none, [])
  | some fn =>
    let param := fn.paramNames.head?
    (param, (fn.body.flatMap (armsOn param)).foldl addHandler [])

/-- The methods that are generated as they are. -/
def helpersOf (decl : TypeDecl) : List FnDecl :=
  decl.methods.filter fun fn => !reservedMethods.contains fn.name

/-- What the generator knows about a declared widget. -/
def ofType (decl : TypeDecl) (policy : Policy) (file : Option String) :
    Except GenerationFault Widget := do
  let fields ← (fieldsOf decl.members).mapError .number
  let (eventParam, handlers) := handlersOf decl
  let view ← viewOf decl policy file
  let methods := decl.methods.map (·.name)
  return { name := decl.name, fields, view, handlers, eventParam, methods, helpers := helpersOf decl }

end Widget

end Widgetry
