import Widgetry.Files.Path
import Widgetry.Generation.Component
import Widgetry.Language.Parser

/-!
# Generated units

The source of all widgets that a program declares, in the order of their declaration. The messages
of a single widget are named `Msg`; with several, each name begins with that of its widget.
-/

namespace Widgetry

/-- The generated source and what it defines: each widget with its message variants. -/
structure GeneratedUnit where
  text : String
  variants : List (String × List String)

namespace GeneratedUnit

/-- The names of the widgets. -/
def widgets (u : GeneratedUnit) : List String := u.variants.map (·.1)

end GeneratedUnit

/-- What the generator is asked for. -/
structure GenerationOptions where
  types : TypeMap := .standard
  policy : Policy := .permissive
  indentWidth : Int := 4

namespace Generation

/-- The first line of what is generated. -/
def headerLine : String := "# Generated by auto-ui. Do not edit by hand."

/-- The lines in front of the imports. -/
def header (file : Option String) : List String :=
  match file with
  | none => [headerLine]
  | some f => [headerLine, "# Source: " ++ (Path.ofText f).name]

/-- What the generator knows about each of some declarations. -/
def widgetsOf (o : GenerationOptions) (file : Option String) :
    List TypeDecl → Except GenerationFault (List Widget)
  | [] => .ok []
  | d :: rest => do
    let w ← Widget.ofType d o.policy file
    let ws ← widgetsOf o file rest
    return w :: ws

/-- Replaces the variants of a widget; those of a new one go to the end. -/
def putVariants (name : String) (variants : List String) :
    List (String × List String) → List (String × List String)
  | [] => [(name, variants)]
  | (n, vs) :: rest =>
    if n = name then (n, variants) :: rest else (n, vs) :: putVariants name variants rest

/-- Adds widgets to a sink, with two empty lines behind each. -/
def emitAll (o : GenerationOptions) (messages : Widget → String) :
    List Widget → Sink → List (String × List String) →
      Except GenerationFault (Sink × List (String × List String))
  | [], s, table => .ok (s, table)
  | w :: rest, s, table => do
    let c ← w.component o.types (messages w)
    emitAll o messages rest ((s.addComponent c).putAll [.blank, .blank])
      (putVariants w.name c.variants table)

/-- The name of a widget's messages, alone in its unit or not. -/
def messagesName (alone : Bool) (w : Widget) : String :=
  if alone then "Msg" else w.name ++ "Msg"

/-- The unit of a parsed program. -/
def ofCode (code : Code) (o : GenerationOptions) : Except GenerationFault GeneratedUnit := do
  if code.widgets.isEmpty then
    throw (.refused ⟨.noWidgets, { file := code.file }⟩)
  let widgets ← widgetsOf o code.file code.widgets
  let sink : Sink := { indentWidth := o.indentWidth, header := header code.file }
  let (sink, variants) ← emitAll o (messagesName (widgets.length == 1)) widgets sink []
  return { text := sink.text, variants }

/-- The unit of a source text. -/
def ofSource (source : String) (file : Option String) (o : GenerationOptions) :
    Except GenerationFault GeneratedUnit :=
  match parse source file with
  | .ok code => ofCode code o
  | .error (.source e) => .error (.refused (.ofSource e file))
  | .error (.number e) => .error (.number e)

/-- The unit of a single widget. -/
def ofWidget (w : Widget) (types : TypeMap) (indentWidth : Int) :
    Except GenerationFault GeneratedUnit := do
  let c ← w.component types "Msg"
  let sink : Sink := { indentWidth, header := [headerLine] }
  return { text := (sink.addComponent c).text, variants := [(w.name, c.variants)] }

end Generation

end Widgetry
