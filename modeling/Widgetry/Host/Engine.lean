import Widgetry.Host.Error
import Widgetry.Host.Widgets
import Widgetry.Language.Interpreter
import Widgetry.View.Basic

/-!
# Engines and what they may ask

A host is asked for something by a `Request` and gives an `Answer`. The programs themselves are run
by an `Engine`, which has a state of its own. While an engine works it may read and write that
state and the tables of fields, and it may itself ask the host: such a piece of work is a
`Callback`. `Interpreter.engine` never asks.
-/

namespace Widgetry

/-- What a host hands on to a widget. -/
inductive Message where
  /-- an event whose text may name the widget -/
  | event (text : String)
  | typed (widget event : String) (args : List Value)
  /-- anything else, which no widget takes -/
  | other (v : Value)

/-- The widget and the event that a text names: what stands in front of the first point and what
follows it. Without a point no widget is named. -/
def Message.split (text : String) : Option String × String :=
  let cs := text.toList
  match cs.dropWhile (· != '.') with
  | [] => (none, text)
  | _ :: rest => (some (String.ofList (cs.takeWhile (· != '.'))), String.ofList rest)

inductive Request where
  | interpret (source : String)
  | reload (source : String)
  | loadFile (path : Path)
  | mainView
  /-- whether the main view is the same node when it is asked for twice -/
  | sameView
  | render
  | send (m : Message)
  | getField (widget field : String)
  | setField (widget field : String) (v : Value)
  | widget (name : String)
  | setHot (on : Bool)

inductive Answer where
  | done
  | node (n : Node)
  | flag (b : Bool)
  | view (v : View String)
  | value (v : Value)
  | widget (s : WidgetState)

/-- A piece of an engine's work, done step by step. -/
inductive Callback (ρ : Type) : Type where
  /-- comes to an end -/
  | done (r : Except Failure Value)
  /-- reads the state of the engine and the tables -/
  | get (next : ρ → Store → Callback ρ)
  /-- writes both -/
  | put (state : ρ) (σ : Store) (next : Callback ρ)
  /-- asks the host -/
  | ask (r : Request) (next : Except Failure Answer → Callback ρ)

structure Engine (ρ : Type) where
  /-- runs a whole program -/
  interpret : String → Callback ρ
  /-- runs the method of a widget on a table of fields -/
  invoke : (widget method : String) → List Value → TableId → Callback ρ
  /-- the initial fields of each widget of the loaded program -/
  defaults : ρ → List (String × Fields)
  /-- the widget to be shown -/
  main? : ρ → Option String

/-- The interpreter as an engine. -/
def Interpreter.engine : Engine Interpreter where
  interpret source := .get fun i σ =>
    let (r, i) := i.interpret source none
    .put i σ (.done (r.mapError .ofFault))
  invoke widget method args t := .get fun i σ =>
    let (r, i, σ) := i.invoke σ widget method args t
    .put i σ (.done (r.mapError .ofFault))
  defaults := Interpreter.defaults
  main? := Interpreter.mainWidget?

end Widgetry
