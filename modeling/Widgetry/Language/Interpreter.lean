import Widgetry.Language.Evaluation
import Widgetry.Language.Parser

/-!
# The interpreter

Loads whole programs and runs the methods of their widgets. A program replaces the one before it
only after it was parsed and run to its end without an error; what it printed on the way stays
printed. A method runs on a table of fields that belongs to its caller.
-/

namespace Widgetry

/-- A program that was loaded. -/
structure Program where
  code : Code
  /-- the variables of its top level -/
  globals : Scope
  /-- the initial fields of each widget -/
  defaults : List (String × Fields)
  /-- what `main` returned, or else the value of the last expression of the top level -/
  result : Value

namespace Program

/-- The names of the declared widgets, in order. -/
def widgetNames (code : Code) : List String := code.widgets.map (·.name)

/-- What a method of a widget sees that runs on a table of fields. -/
def context (p : Program) (widget : String) (table : TableId) : Context where
  code := p.code
  widget := some widget
  fields := some table

end Program

/-- A loaded program, if any, and all lines printed so far. -/
structure Interpreter where
  program : Option Program := none
  output : Array String := #[]

namespace Load

open Run

/-- Runs the statements of the top level; the last expression among them gives the result. -/
def topLevel (d : Nat) (c : Context) : Value → List Stmt → Run Value
  | result, [] => pure result
  | result, s :: rest => do
    match s with
    | .fn _ | .type _ => topLevel d c result rest
    | .expr .. =>
      let v ← exec d c s
      topLevel d c v rest
    | _ =>
      let _ ← exec d c s
      topLevel d c result rest

/-- The initial value of a declared field. -/
def fieldDefault (d : Nat) (c : Context) (f : FieldDecl) : Run (String × Value) := do
  match f.default with
  | some e =>
    let v ← eval d c e
    return (f.name, v)
  | none => return (f.name, zeroValue f.type)

/-- The initial fields of a widget; of several fields of one name the last one counts. -/
def widgetDefaults (d : Nat) (c : Context) (name : String) : Run (String × Fields) := do
  let members := ((c.code.type? name).map (·.members)).getD []
  let fields ← each (fieldDefault d { c with widget := some name }) members
  return (name, Fields.ofPairs fields)

/-- Keeps one entry for each name, the last one in the place of the first. -/
def byName (entries : List (String × Fields)) : List (String × Fields) :=
  entries.foldl (fun table e => insert e table) []
where
  insert (e : String × Fields) : List (String × Fields) → List (String × Fields)
    | [] => [e]
    | f :: rest => if f.1 = e.1 then e :: rest else f :: insert e rest

/-- Runs a whole program. -/
def program (d : Nat) (code : Code) : Run Program := do
  let c : Context := { code }
  let result ← topLevel d c .nil code.stmts
  let defaults ← each (widgetDefaults d c) (Program.widgetNames code)
  let result ← match code.function? "main" with
    | some fn => call d c fn []
    | none => pure result
  let m ← get
  return { code, globals := m.globals, defaults := byName defaults, result }

end Load

namespace Interpreter

/-- Parses and runs a program. -/
def interpret (i : Interpreter) (source : String) (file : Option String) :
    Except Fault Value × Interpreter :=
  match parse source file with
  | .error e => (.error e, i)
  | .ok code =>
    match Load.program evaluationLimit code { output := i.output } with
    | (.ok p, m) => (.ok p.result, { program := some p, output := m.output })
    | (.error h, m) =>
      (.error ((h.settle { file }).inFile file), { i with output := m.output })

/-- The initial fields of every widget of the loaded program. -/
def defaults (i : Interpreter) : List (String × Fields) :=
  (i.program.map (·.defaults)).getD []

/-- The widget declared last. -/
def mainWidget? (i : Interpreter) : Option String :=
  i.program.bind fun p => (Program.widgetNames p.code).getLast?

/-- An event without a widget is one of the widget whose method gets it. -/
def addressEvent (widget method : String) (args : List Value) : List Value :=
  match args with
  | .str event :: rest =>
    if method == "on" && !event.toList.contains '.' then .str (widget ++ "." ++ event) :: rest
    else args
  | _ => args

/-- Runs a computation on the variables of a program that is loaded. Where it began is told if it
nests too deep. -/
def execute (i : Interpreter) (p : Program) (σ : Store) (line : Nat) (x : Run Value) :
    Except Fault Value × Interpreter × Store :=
  let (r, m) := x { globals := p.globals, store := σ, output := i.output }
  (r.mapError (·.settle { line }),
    { program := some { p with globals := m.globals }, output := m.output }, m.store)

/-- Runs a method of a widget on a table of fields. -/
def invoke (i : Interpreter) (σ : Store) (widget method : String) (args : List Value)
    (table : TableId) : Except Fault Value × Interpreter × Store :=
  match i.program with
  | none => (Fault.evaluation .noProgram none, i, σ)
  | some p =>
    match p.code.type? widget with
    | none => (Fault.evaluation (.unknownWidget widget) none, i, σ)
    | some decl =>
      match decl.method? method with
      | none => (Fault.evaluation (.missingMethod widget method) decl.line, i, σ)
      | some fn =>
        i.execute p σ fn.line
          (call evaluationLimit (p.context widget table) fn (addressEvent widget method args))

/-- A method that the loaded program has is run. -/
theorem invoke_method {i : Interpreter} {p : Program} {σ : Store} {widget method : String}
    {decl : TypeDecl} {fn : FnDecl} (hp : i.program = some p)
    (hd : p.code.type? widget = some decl) (hm : decl.method? method = some fn)
    (args : List Value) (table : TableId) :
    i.invoke σ widget method args table = i.execute p σ fn.line
      (call evaluationLimit (p.context widget table) fn (addressEvent widget method args)) := by
  simp only [invoke, hp, hd, hm]

end Interpreter

end Widgetry
