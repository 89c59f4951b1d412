import Widgetry.Conversion.Convert
import Widgetry.Host.Engine
import Widgetry.Settings.Basic

/-!
# The host

Owns an engine and the widgets of the loaded program. It loads programs, shows the view of the main
widget, hands events to widgets and replaces a running program by a new one that keeps the fields.

Loading, showing and handing on are tasks that a host does one at a time: what an engine asks for
in between is refused if it is one of them, and done if it is not.

* A program that fails leaves the widgets as they were.
* A handler runs on a copy of the fields, which takes their place only if it succeeds.
* A view that was cached is shown again until the fields of its widget may have changed.
-/

namespace Widgetry

/-- How far a host has come. -/
inductive Lifecycle where
  | uninitialized
  | loaded
  | rendered
  | reloading
deriving DecidableEq, Repr

def Lifecycle.name : Lifecycle → String
  | uninitialized => "uninitialized"
  | loaded => "loaded"
  | rendered => "rendered"
  | reloading => "reloading"

structure Host (ρ : Type) where
  /-- the state of the engine -/
  engine : ρ
  store : Store := {}
  settings : Settings := {}
  /-- what is done with a main view that is no node -/
  policy : Policy := .permissive
  lifecycle : Lifecycle := .uninitialized
  widgets : Widgets := []
  /-- the result of the loaded program -/
  result : Value := .nil
  /-- the file that was loaded last -/
  sourcePath : Option Path := none
  /-- whether fields outlive the program -/
  hot : Bool := true
  /-- whether a task is being done -/
  busy : Bool := false

/-- A host without a program. -/
def Host.new {ρ : Type} (engine : ρ) (settings : Settings) (policy : Option Policy) : Host ρ where
  engine
  settings
  policy := policy.getD settings.bridgePolicy
  hot := settings.hotReload

/-- The widget of a name that is neither absent nor empty. -/
def Host.named? {ρ : Type} (h : Host ρ) : Option String → Option (String × WidgetState)
  | none => none
  | some name => if name = "" then none else (h.widgets.get? name).map (name, ·)

/-- Something that a host does. What it changed before a failure stays changed. -/
def Act (ρ α : Type) : Type := Host ρ → Except Failure α × Host ρ

namespace Act

variable {ρ α β : Type}

instance : Monad (Act ρ) where
  pure a := fun h => (.ok a, h)
  bind x f := fun h => match x h with
    | (.ok a, h') => f a h'
    | (.error e, h') => (.error e, h')

def get : Act ρ (Host ρ) := fun h => (.ok h, h)

def modify (f : Host ρ → Host ρ) : Act ρ Unit := fun h => (.ok (), f h)

def fail (e : Failure) : Act ρ α := fun h => (.error e, h)

def refuse (e : HostError) : Act ρ α := fail (.refused e)

def ofExcept : Except Failure α → Act ρ α
  | .ok a => pure a
  | .error e => fail e

/-! What one step does to a host. -/

@[simp] theorem run_pure (a : α) (h : Host ρ) : (pure a : Act ρ α) h = (.ok a, h) := rfl

@[simp] theorem run_get (h : Host ρ) : get h = (.ok h, h) := rfl

@[simp] theorem run_modify (f : Host ρ → Host ρ) (h : Host ρ) :
    modify f h = (.ok (), f h) := rfl

@[simp] theorem run_fail (e : Failure) (h : Host ρ) : (fail e : Act ρ α) h = (.error e, h) := rfl

theorem run_bind (x : Act ρ α) (f : α → Act ρ β) (h : Host ρ) :
    (x >>= f) h = match x h with
      | (.ok a, h') => f a h'
      | (.error e, h') => (.error e, h') := rfl

theorem run_bind_ok {x : Act ρ α} {f : α → Act ρ β} {h h' : Host ρ} {a : α}
    (hx : x h = (.ok a, h')) : (x >>= f) h = f a h' := by
  rw [run_bind, hx]

theorem run_bind_error {x : Act ρ α} {f : α → Act ρ β} {h h' : Host ρ} {e : Failure}
    (hx : x h = (.error e, h')) : (x >>= f) h = (.error e, h') := by
  rw [run_bind, hx]

/-- A sequence that succeeded went through a success of its first part. -/
theorem run_bind_eq_ok {x : Act ρ α} {f : α → Act ρ β} {h h' : Host ρ} {b : β} :
    (x >>= f) h = (.ok b, h') ↔ ∃ a h₁, x h = (.ok a, h₁) ∧ f a h₁ = (.ok b, h') := by
  rw [run_bind]
  constructor
  · intro hrun
    rcases hx : x h with ⟨r, h₁⟩
    rw [hx] at hrun
    cases r with
    | error e => cases hrun
    | ok a => exact ⟨a, h₁, rfl, hrun⟩
  · rintro ⟨a, h₁, hx, hf⟩
    rw [hx]
    exact hf

/-- Does something and answers how it ended. -/
def attempt (x : Act ρ α) : Act ρ (Except Failure α) := fun h =>
  let (r, h') := x h
  (.ok r, h')

/-- Does a task. A host that is busy refuses; afterwards it is free, however the task ended. -/
def exclusive (task : Task) (x : Act ρ α) : Act ρ α := fun h =>
  if h.busy then (.error (.refused (.busy task)), h)
  else
    let (r, h') := x { h with busy := true }
    (r, { h' with busy := false })

/-! ## Fields -/

/-- The widget of a name. -/
def widget (name : String) : Act ρ WidgetState := do
  match (← get).widgets.get? name with
  | some s => return s
  | none => refuse (.noWidget name)

def getField (name field : String) : Act ρ Value := do
  let s ← widget name
  match ((← get).store.get s.table).get? field with
  | some v => return v
  | none => refuse (.noField name field)

/-- Whether a value may take the place of another: their types agree, or one is absent. -/
def checkType : Value → Value → Act ρ Unit
  | .nil, _ => pure ()
  | _, .nil => pure ()
  | current, v =>
    if current.typeName = v.typeName then pure ()
    else refuse (.mismatch current.typeName v.typeName)

def setField (name field : String) (v : Value) : Act ρ Unit := do
  let s ← widget name
  let current ← getField name field
  checkType current v
  modify fun h => { h with
    store := h.store.set s.table ((h.store.get s.table).put field v)
    widgets := h.widgets.modify name fun s => { s with dirty := true } }

/-! ## Programs -/

section

variable (E : Engine ρ) (run : Callback ρ → Act ρ Value)

/-- Runs a program and makes its widgets. Whatever the engine ends with becomes an error of the
host. -/
def load (source : String) : Act ρ Unit := do
  match ← attempt (run (E.interpret source)) with
  | .error (.source e) => refuse (.program e)
  | .error (.refused e) => refuse e
  | .error e => refuse (.unknown e.text)
  | .ok v =>
    modify fun h =>
      let (widgets, store) := Widgets.ofDefaults h.store (E.defaults h.engine)
      { h with result := v, widgets, store, lifecycle := .loaded }

def interpret (source : String) : Act ρ Unit := exclusive .interpret (load E run source)

/-- Replaces the program. If hot reloading is on, fields that the new program has too keep their
values, and a host that was rendered stays so. -/
def reload (source : String) : Act ρ Unit := do
  if !(← get).hot then interpret E run source
  else exclusive .reload do
    let before ← get
    modify fun h => { h with lifecycle := .reloading }
    match ← attempt (load E run source) with
    | .error e =>
      modify fun h => { h with lifecycle := before.lifecycle }
      fail e
    | .ok () =>
      modify fun h =>
        let (widgets, store) := Widgets.migrate h.store before.widgets h.widgets
        let lifecycle := if before.lifecycle = .rendered then .rendered else h.lifecycle
        { h with widgets, store, lifecycle }

def loadFile (disk : Disk) (path : Path) : Act ρ Unit := do
  match disk.readSource path (← get).settings.maxSourceSize with
  | .error e => refuse (.unreadable path e)
  | .ok source =>
    interpret E run source
    modify fun h => { h with sourcePath := some path }

/-! ## Views and events -/

/-- Runs a method of a widget; an error of the language becomes one of the host. -/
def invoke (widget method : String) (args : List Value) (t : TableId) : Act ρ Value := do
  match ← attempt (run (E.invoke widget method args t)) with
  | .error (.source e) => refuse (.program e)
  | .error e => fail e
  | .ok v => return v

/-- A value as a node. What is none is refused, or a placeholder stands in for it. -/
def asNode (v : Value) : Act ρ Node := do
  match v with
  | .node n => return n
  | _ =>
    match (← get).policy with
    | .strict => refuse (.mismatch "node" v.typeName)
    | .permissive => return .placeholder

/-- The view of a widget, which is run only if there is none that is up to date. -/
def widgetView (name : String) (s : WidgetState) : Act ρ Node := do
  match s.cached, s.dirty with
  | some n, false => return n
  | _, _ =>
    let v ← invoke E run name "view" [] s.table
    let n ← asNode v
    modify fun h => { h with
      widgets := h.widgets.modify name fun s => { s with cached := some n, dirty := false } }
    return n

/-- Shows the main widget, or else the result of the program. -/
def showMain : Act ρ Node := do
  let h ← get
  let n ← match h.named? (E.main? h.engine) with
    | some (name, s) => widgetView E run name s
    | none => asNode h.result
  modify fun h => if h.lifecycle = .loaded then { h with lifecycle := .rendered } else h
  return n

/-- The view of the main widget, or else the result of the program. -/
def mainView : Act ρ Node := exclusive .mainView (showMain E run)

/-- Whether the main view is one that the host keeps. -/
def sameView : Act ρ Bool := do
  let _ ← mainView E run
  let _ ← mainView E run
  let h ← get
  match h.named? (E.main? h.engine), h.result with
  | some _, _ => return true
  | none, .node _ => return true
  | none, _ => return false

/-- The main view as the backends take it. -/
def render : Act ρ (View String) := do
  let n ← mainView E run
  let h ← get
  let n := match h.store.read (.node n) with
    | .node n => n
    | _ => n
  ofExcept ((n.toView ⟨h.settings.converterPolicy, h.settings.maxViewDepth⟩).mapError .conversion)

/-- Whom a message is for, and what its handler gets: the event and its arguments. -/
def address (main : Option String) : Message → Act ρ (Option String × String × List Value)
  | .event text =>
    match Message.split text with
    | (none, event) => return (main, event, [])
    | (some name, event) => return (if name = "" then main else some name, event, [])
  | .typed name event args => return (some name, event, args)
  | .other v => do
    match ((← get).store.read v).inspect with
    | .ok s => refuse (.unknown ("Unsupported message " ++ s))
    | .error e => fail (.number e)

/-- The name in front of a text, if it is not empty. -/
def nameOr (name : Option String) (event : String) : String :=
  match name with
  | some n => if n = "" then event else n
  | none => event

/-- Hands a message to its widget. The handler gets a copy of the fields, and only if it succeeds
does the copy take their place. -/
def deliver (m : Message) : Act ρ Unit := do
  let h ← get
  let (name, event, args) ← address (E.main? h.engine) m
  match h.named? name with
  | none => refuse (.noWidget (nameOr name event))
  | some (name, s) =>
    let (t, store) := h.store.copyTable s.table
    modify fun h => { h with store }
    let _ ← invoke E run name "on" (.str event :: args) t
    modify fun h => { h with
      widgets := h.widgets.modify name fun s => { s with table := t, dirty := true } }

def send (m : Message) : Act ρ Unit := exclusive .handleMessage (deliver E run m)

/-- Does what is requested; `run` does the work of the engine. -/
def respond (disk : Disk) : Request → Act ρ Answer
  | .interpret source => do
    interpret E run source
    return .done
  | .reload source => do
    reload E run source
    return .done
  | .loadFile path => do
    loadFile E run disk path
    return .done
  | .mainView => do
    let n ← mainView E run
    return .node n
  | .sameView => do
    let b ← sameView E run
    return .flag b
  | .render => do
    let v ← render E run
    return .view v
  | .send m => do
    send E run m
    return .done
  | .getField name field => do
    let v ← getField name field
    return .value v
  | .setField name field v => do
    setField name field v
    return .done
  | .widget name => do
    let s ← widget name
    return .widget s
  | .setHot on => do
    modify fun h => { h with hot := on }
    return .done

end

/-- Does no work: a host that is busy refuses every request for which its engine would have to. -/
def idle : Callback ρ → Act ρ Value := fun _ => fail (.crash "no engine is free")

/-- Does the work of an engine. What it asks for reaches a host that is busy. -/
def runCallback (E : Engine ρ) (disk : Disk) : Callback ρ → Act ρ Value
  | .done r => ofExcept r
  | .get next => fun h => runCallback E disk (next h.engine h.store) h
  | .put engine store next => fun h => runCallback E disk next { h with engine, store }
  | .ask r next => fun h =>
    let (answer, h') := respond E idle disk r h
    runCallback E disk (next answer) h'

end Act

/-- Does what a host is asked for. -/
def Engine.respond {ρ : Type} (E : Engine ρ) (disk : Disk) (r : Request) : Act ρ Answer :=
  Act.respond E (Act.runCallback E disk) disk r

end Widgetry
