import Widgetry.Command.Arguments
import Widgetry.Generation.SourceFile
import Widgetry.Number.Reading

/-!
# Commands

What the program can be told to do, and how the command line says it. A command line has options for
the program as a whole, the name of a command, and the arguments of that command.
-/

namespace Widgetry

inductive Command where
  /-- generates source from the widgets of a file -/
  | transpile (path : Path) (place : Destination) (policy : Option Policy)
  /-- runs a file, sends events, and prints the view or its node -/
  | render (path : Path) (events : List String) (asNode : Bool)
  /-- prints the view of a node that is written as JSON -/
  | convert (path : Path) (policy : Option Policy)
  /-- lists the widgets of a file -/
  | check (path : Path)
  /-- runs a file and prints its view again after every change -/
  | watch (path : Path) (interval : Option Float) (polls : Int)

/-- The file that a command is about. -/
def Command.path : Command → Path
  | transpile path .. | render path .. | convert path .. | check path | watch path .. => path

/-- Why there is nothing to do. -/
inductive UsageFault where
  | misused
  /-- only help is asked for -/
  | help
deriving DecidableEq, Repr

inductive CommandName where
  | transpile
  | render
  | convert
  | check
  | watch
deriving DecidableEq, Repr

namespace CommandName

def text : CommandName → String
  | transpile => "transpile"
  | render => "render"
  | convert => "convert"
  | check => "check"
  | watch => "watch"

def all : List CommandName := [transpile, render, convert, check, watch]

def ofText? (s : String) : Option CommandName := all.find? (·.text == s)

def helpOption : CommandOption := { names := ["--help"] }

/-- The options of the program as a whole. -/
def programOptions : List CommandOption :=
  [{ names := ["--log-level"], takesValue := true }, { names := ["--json-logs"] },
    { names := ["--console-logs"] }, helpOption]

def options : CommandName → List CommandOption
  | transpile =>
    [{ names := ["--output", "-o"], takesValue := true }, { names := ["--write", "-w"] },
      { names := ["--strict"] }, helpOption]
  | render =>
    [{ names := ["--send", "-s"], takesValue := true }, { names := ["--node"] }, helpOption]
  | convert => [{ names := ["--permissive"] }, helpOption]
  | check => [helpOption]
  | watch =>
    [{ names := ["--interval"], takesValue := true }, { names := ["--iterations"], takesValue := true },
      helpOption]

/-- The number that an argument stands for. -/
def number? (s : String) : Option Float := do
  let cs := Decimal.trim s.toList
  let word := String.ofList ((if cs.head? = some '-' ∨ cs.head? = some '+' then cs.drop 1 else cs).map
    Char.toLower)
  if word == "nan" then return 0.0 / 0.0
  if word == "inf" || word == "infinity" then
    return if cs.head? = some '-' then -1.0 / 0.0 else 1.0 / 0.0
  let n ← Decimal.notation? (← Decimal.joined? cs)
  return n.value

/-- The whole number that an argument stands for. -/
def whole? (s : String) : Option Int := do
  Decimal.signedValue (← Decimal.joined? (Decimal.trim s.toList))

/-- The value of an option, if it was given, in another form. -/
def readOption {α : Type} (a : Arguments) (name : String) (read? : String → Option α) :
    Except UsageFault (Option α) :=
  match a.value? name with
  | none => .ok none
  | some s => match read? s with
    | some v => .ok (some v)
    | none => .error .misused

/-- The command of a name with its sorted arguments. -/
def command (name : CommandName) (path : Path) (a : Arguments) : Except UsageFault Command :=
  match name with
  | transpile =>
    let place := match a.value? "--output" with
      | some target => Destination.file (Path.ofText target)
      | none => if a.has "--write" then .beside else .nowhere
    .ok (.transpile path place (if a.has "--strict" then some .strict else none))
  | render => .ok (.render path (a.values "--send") (a.has "--node"))
  | convert => .ok (.convert path (if a.has "--permissive" then some .permissive else none))
  | check => .ok (.check path)
  | watch => do
    let interval ← readOption a "--interval" number?
    let polls ← readOption a "--iterations" whole?
    return .watch path interval (polls.getD 0)

/-- The command of a name with its arguments. -/
def read (name : CommandName) (args : List String) : Except UsageFault Command :=
  match Arguments.of? name.options true args with
  | none => .error .misused
  | some a =>
    if a.has "--help" then .error .help
    else match a.positions with
      | [path] => name.command (Path.ofText path) a
      | _ => .error .misused

end CommandName

/-- The name of the command in a command line, and its arguments. -/
def CommandName.split (args : List String) : Except UsageFault (CommandName × List String) :=
  match Arguments.of? programOptions false args with
  | none => .error .misused
  | some a =>
    if a.has "--help" then .error .help
    else match a.positions with
      | [] => .error .misused
      | name :: rest => match ofText? name with
        | some c => .ok (c, rest)
        | none => .error .misused

end Widgetry
