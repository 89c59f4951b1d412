import Widgetry.Command.Basic
import Widgetry.Generation.Symbols
import Widgetry.Generation.Widget
import Widgetry.Host.Session
import Widgetry.Json.Reader
import Widgetry.Json.Writer
import Widgetry.Node.Dictionary
import Widgetry.Settings.Reading
import Widgetry.Text.Wrap
import Widgetry.View.Data

/-!
# Running commands

What each command prints and writes, given what is on the disk. A command that cannot do its work
says so and exits with one; a `Crash` is an error that no command expects.
-/

namespace Widgetry

inductive Crash where
  | failure (e : Failure)
  | generation (e : GenerationFault)
  | suffix (e : SuffixFault)
  | template (e : TemplateFault)
  | data (e : DataFault)
  | encoding (e : Text.DecodeFault)
  | json (e : Json.WriteFault)
  | settings (e : SettingsFault)

/-- What a command did. -/
structure Outcome where
  exit : Nat := 0
  stdout : String := ""
  stderr : String := ""
  disk : Disk
  /-- the listed widgets, if widgets were asked for -/
  rows : List (List String) := []
  /-- whether there was no widget to list -/
  empty : Bool := false
  crash : Option Crash := none

namespace Outcome

def fail (disk : Disk) (message : String) : Outcome := { exit := 1, stderr := "✗ " ++ message ++ "\n", disk }

def crashed (disk : Disk) (e : Crash) : Outcome := { exit := 1, disk, crash := some e }

def print (disk : Disk) (stdout : String) : Outcome := { stdout, disk }

/-- The outcome of a computation whose error is a crash. -/
def orCrash (disk : Disk) : Except Crash Outcome → Outcome
  | .ok o => o
  | .error e => crashed disk e

end Outcome

namespace Command

/-- The width of the lines of messages. -/
def messageWidth : Nat := 80

/-- A message with its lines broken. -/
def message (s : String) : String :=
  String.join ((Text.wrapLine messageWidth s).map (· ++ "\n"))

/-- A value as indented JSON. -/
def jsonText (v : Value) : Except Crash String :=
  ((Json.write v 2).map (· ++ "\n")).mapError .json

/-- What a failure of the host means to a command: a message, or else a crash. -/
def expected : Failure → Except Crash String
  | .refused e => .ok e.message
  | .conversion (.refused e) => .ok e.message
  | e => .error (.failure e)

/-! ## The commands -/

def runTranspile (s : Settings) (disk : Disk) (path : Path) (place : Destination) (policy : Option Policy) :
    Outcome :=
  let o : GenerationOptions :=
    { policy := policy.getD s.extractorPolicy, indentWidth := s.indentWidth }
  match Generation.ofFile disk path s o place with
  | .error (.generation (.refused e)) => .fail disk e.text
  | .error (.generation e) => .crashed disk (.generation e)
  | .error (.suffix e) => .crashed disk (.suffix e)
  | .ok (u, disk) =>
    match Generation.target? path s.outputSuffix place with
    | .error e => .crashed disk (.suffix e)
    | .ok none => .print disk u.text
    | .ok (some target) =>
      .print disk (message ("✓ Wrote " ++ target.text ++ " (" ++ commaSeparated u.widgets ++ ")"))

/-- Runs a file, sends events, and answers the main view as data. -/
def rendered (disk : Disk) (path : Path) (events : List String) (asNode : Bool) :
    Act Interpreter Value := do
  let run := Act.runCallback Interpreter.engine disk
  Act.loadFile Interpreter.engine run disk path
  events.forM fun e => Act.send Interpreter.engine run (.event e)
  if asNode then
    let n ← Act.mainView Interpreter.engine run
    let h ← Act.get
    match h.store.read (.node n) with
    | .node n => return n.toData
    | v => return v
  else
    let v ← Act.render Interpreter.engine run
    return v.data

def runRender (s : Settings) (disk : Disk) (path : Path) (events : List String) (asNode : Bool) :
    Outcome :=
  match (rendered disk path events asNode (Host.new {} s none)).1 with
  | .ok v => .orCrash disk ((jsonText v).map (.print disk))
  | .error e => .orCrash disk ((expected e).map (.fail disk))

/-- The view of a node that is written as JSON. -/
def converted (s : Settings) (bytes : List UInt8) (policy : Option Policy) :
    Except Crash (Except String (View String)) :=
  match Json.readObject bytes (2 * s.maxViewDepth + 2) with
  | .error e => .ok (.error ((e.message?).getD "Invalid JSON"))
  | .ok data =>
    match Node.ofData data with
    | .error .noKind => .ok (.error "Node dictionary requires a non-empty 'kind'")
    | .error e => .error (.data e)
    | .ok n =>
      match n.toView ⟨policy.getD s.converterPolicy, s.maxViewDepth⟩ with
      | .ok v => .ok (.ok v)
      | .error (.number .beyondRange) => .error (.failure (.number .beyondRange))
      | .error (.number e) => .ok (.error e.message)
      | .error e => (expected (.conversion e)).map .error

def runConvert (s : Settings) (disk : Disk) (path : Path) (policy : Option Policy) : Outcome :=
  match disk.read path with
  | .error e => .fail disk ("Cannot read " ++ path.text ++ ": " ++ e.message path)
  | .ok f => .orCrash disk do
    match ← converted s f.content policy with
    | .error text => return .fail disk text
    | .ok v => return .print disk (← jsonText v.data)

/-- Texts set off by commas, or a dash if there are none. -/
def listed (parts : List String) : String :=
  if parts.isEmpty then "-" else commaSeparated parts

/-- The row of a widget: its name, its fields, its messages, and the kind of its view. -/
def row (path : Path) (d : TypeDecl) : Except Crash (List String) := do
  let w ← (Widget.ofType d .permissive (some path.text)).mapError .generation
  let symbols ← w.view.symbols.mapError .template
  let kind ← (w.view.kind.plain).mapError fun e => .failure (.number e)
  return [w.name, listed (w.fields.map fun f => f.name ++ ": " ++ f.type), listed symbols.variants, kind]

def rowsOf (path : Path) : List TypeDecl → Except Crash (List (List String))
  | [] => .ok []
  | d :: rest => do
    let r ← row path d
    let rs ← rowsOf path rest
    return r :: rs

def runCheck (disk : Disk) (path : Path) : Outcome :=
  match disk.readText path with
  | .error (.text e) => .crashed disk (.encoding e)
  | .error (.disk e) => .fail disk ("Cannot read " ++ path.text ++ ": " ++ e.message path)
  | .error e => .fail disk e.reason
  | .ok source =>
    match parse source (some path.text) with
    | .error (.source e) => .fail disk e.text
    | .error (.number e) => .crashed disk (.failure (.number e))
    | .ok code =>
      if code.widgets.isEmpty then { disk, empty := true }
      else .orCrash disk ((rowsOf path code.widgets).map fun rows => { disk, rows })

/-! ## Watching -/

/-- What happens while a watched file is not looked at. -/
inductive Pause where
  | quiet
  /-- the file gets another text -/
  | edit (text : String)
  /-- watching is broken off -/
  | interrupt

/-- What was printed while watching, and whether it went on. -/
structure Screen where
  stdout : String := ""
  stderr : String := ""
  crash : Option Crash := none

namespace Screen

def out (s : Screen) (text : String) : Screen := { s with stdout := s.stdout ++ text }

def err (s : Screen) (text : String) : Screen := { s with stderr := s.stderr ++ text }

/-- Prints the view of a session, or why there is none. -/
def display (screen : Screen) (disk : Disk) (s : Session Interpreter) : Screen × Session Interpreter :=
  match s.ask Interpreter.engine disk .render with
  | (.ok (.view v), s) => match jsonText v.data with
    | .ok text => (screen.out text, s)
    | .error e => ({ screen with crash := some e }, s)
  | (.ok _, s) => (screen, s)
  | (.error e, s) => match expected e with
    | .ok text => (screen.err ("Render failed: " ++ text ++ "\n"), s)
    | .error e => ({ screen with crash := some e }, s)

/-- Looks for changes once and prints the view anew if the file was reloaded. -/
def poll (screen : Screen) (disk : Disk) (s : Session Interpreter) : Screen × Session Interpreter :=
  match s.poll Interpreter.engine disk with
  | (.error e, s) => ({ screen with crash := some (.failure e) }, s)
  | (.ok true, s) => screen.display disk s
  | (.ok false, s) => match s.lastError with
    | some e => (screen.err ("Reload failed: " ++ e.message ++ "\n"), { s with lastError := none })
    | none => (screen, s)

end Screen

/-- The pauses behind the polls: as many as there are polls, or all that are known. -/
def pausesFor (polls : Int) (known : List Pause) : List Pause :=
  if polls ≤ 0 then known
  else (known ++ List.replicate polls.toNat Pause.quiet).take polls.toNat

/-- Polls in front of every pause. An edited file is posted at once. -/
def watchOn (path : Path) : List Pause → Screen → Disk → Session Interpreter → Screen
  | [], screen, _, _ => screen
  | pause :: rest, screen, disk, s =>
    let (screen, s) := screen.poll disk s
    if screen.crash.isSome then screen
    else match pause with
      | .quiet => watchOn path rest screen disk s
      | .interrupt => screen
      | .edit text =>
        let disk := (disk.write path ⟨Text.encode text, 0⟩).toOption.getD disk
        watchOn path rest screen disk (s.post path)

/-- Starts a session on a file and prints its view, or says why it cannot. -/
def startWatching (s : Settings) (disk : Disk) (path : Path) :
    Except Outcome (Screen × Session Interpreter) :=
  match (Session.new (Host.new {} s none) path).start Interpreter.engine disk with
  | (.error e, _) => .error (.orCrash disk ((expected e).map (.fail disk)))
  | (.ok (), session) =>
    let (screen, session) := ({} : Screen).display disk session
    if screen.crash.isSome then
      .error { exit := 1, stdout := screen.stdout, stderr := screen.stderr, disk, crash := screen.crash }
    else .ok (screen.out (message ("Watching " ++ path.text ++ " (Ctrl-C to stop)")), session)

def runWatch (s : Settings) (disk : Disk) (path : Path) (polls : Int) (known : List Pause) : Outcome :=
  match startWatching s disk path with
  | .error o => o
  | .ok (screen, session) =>
    let screen := watchOn path (pausesFor polls known) screen disk session
    { exit := if screen.crash.isSome then 1 else 0
      stdout := screen.stdout
      stderr := screen.stderr
      disk
      crash := screen.crash }

/-! ## Listings -/

/-- The widths of the widest cells of each column. -/
def widths : List (List String) → List Nat
  | [] => []
  | [r] => r.map String.length
  | r :: rest => List.zipWith max (r.map String.length) (widths rest)

/-- A row with its cells filled up to the widths of the columns. -/
def rowText (widths : List Nat) (row : List String) : String :=
  let cells := List.zipWith (fun w c => c ++ String.ofList (List.replicate (w - c.length) ' ')) widths row
  "  ".intercalate cells ++ "\n"

/-- The listed widgets as a table. -/
def listing (rows : List (List String)) : String :=
  let rows := ["Widget", "Fields", "Messages", "Root"] :: rows
  String.join (rows.map (rowText (widths rows)))

/-- Does what a command says. What happens while a file is watched is known beforehand. -/
def run (c : Command) (s : Settings) (disk : Disk) (pauses : List Pause) : Outcome :=
  match c with
  | .transpile path place policy => Command.runTranspile s disk path place policy
  | .render path events asNode => Command.runRender s disk path events asNode
  | .convert path policy => Command.runConvert s disk path policy
  | .check path => Command.runCheck disk path
  | .watch path _ polls => Command.runWatch s disk path polls pauses

end Command

/-- The file that settings are read from. -/
def Settings.file : Path := Path.ofText ".env"

/-- The settings that the environment and the disk give. -/
def Settings.ofSurroundings (given : List (String × Value)) (environment : List (String × String))
    (disk : Disk) : Except SettingsFault Settings :=
  let assignments := match disk.readText Settings.file with
    | .ok text => Assignments.resolve environment (Assignments.ofText text)
    | .error _ => []
  Settings.read given environment assignments

/-- Runs a command line: finds the command, reads the settings, and only then reads the arguments of
the command. -/
def runCommandLine (args : List String) (environment : List (String × String)) (disk : Disk)
    (pauses : List Command.Pause) : Outcome :=
  let usage : UsageFault → Outcome
    | .misused => { exit := 2, disk }
    | .help => { disk }
  match CommandName.split args with
  | .error e => usage e
  | .ok (name, rest) =>
    match Settings.ofSurroundings [] environment disk with
    | .error e => .crashed disk (.settings e)
    | .ok s =>
      match name.read rest with
      | .error e => usage e
      | .ok c => c.run s disk pauses

end Widgetry
