import Widgetry.Text.Sorted

/-!
# Generated text

A `Line` stands on a level of indentation. A `Sink` gathers the lines and the imports of one unit of
generated source, and `done` puts it together: header, imports, body, with one blank line between
the first two and two before the body. Blank lines around the body are dropped. A sink that is done
takes no more lines.

Imports are dotted paths: `a.b.C` is imported from `a.b`, together with the other names from there,
and a path without a point is imported as a whole.
-/

namespace Widgetry

/-- A line of source on a level of indentation, counted from the lines around it. -/
structure Line where
  level : Nat
  text : String
deriving DecidableEq, Repr

namespace Line

def at0 (text : String) : Line := ⟨0, text⟩

/-- Lines one level further in. -/
def indented (lines : List Line) : List Line := lines.map fun l => { l with level := l.level + 1 }

/-- An empty line. -/
def blank : Line := at0 ""

/-- The line as it is written, so many blanks for each level; an empty line stays empty. -/
def render (width : Int) (l : Line) : String :=
  if l.text = "" then ""
  else String.ofList (List.replicate (l.level * width).toNat ' ') ++ l.text

end Line

/-! ## Imports -/

/-- What a dotted path is imported as. -/
structure Import where
  /-- the module, or the path as a whole -/
  source : String
  /-- the name taken from it -/
  name : Option String
deriving DecidableEq, Repr

namespace Import

def ofPath (path : String) : Import :=
  let cs := path.toList.reverse
  match cs.dropWhile (· != '.') with
  | [] => ⟨path, none⟩
  | _ :: source =>
    ⟨String.ofList source.reverse, some (String.ofList (cs.takeWhile (· != '.')).reverse)⟩

/-- The names taken from a module. -/
def namesFrom (imports : List Import) (source : String) : List String :=
  Text.sortedSet (imports.filterMap fun i => if i.source = source then i.name else none)

/-- The lines that import from a module: its names, and the module as a whole. -/
def linesOf (imports : List Import) (source : String) : List String :=
  let names := namesFrom imports source
  let named := if imports.any (fun i => i.source = source ∧ i.name.isSome)
    then ["from " ++ source ++ " import " ++ ", ".intercalate names] else []
  let whole := if imports.any (fun i => i.source = source ∧ i.name.isNone)
    then ["import " ++ source] else []
  named ++ whole

/-- The import lines of some paths, ordered by module. -/
def lines (paths : List String) : List String :=
  let imports := paths.map ofPath
  (Text.sortedSet (imports.map (·.source))).flatMap (linesOf imports)

end Import

/-! ## Sinks -/

structure Sink where
  indentWidth : Int := 4
  header : List String := []
  imports : List String := []
  body : List String := []
  level : Nat := 0
  closed : Bool := false

namespace Sink

/-- Says that a sink takes no more lines. -/
def closedMessage : String := "CodeSink is closed; done() was already called"

def addImport (s : Sink) (path : String) : Sink :=
  { s with imports := Text.insertSorted path s.imports }

def indent (s : Sink) : Sink := { s with level := s.level + 1 }

def dedent (s : Sink) : Sink := { s with level := s.level - 1 }

/-- Adds a line that stands so many levels further in than the sink. -/
def put (s : Sink) (l : Line) : Sink :=
  { s with body := s.body ++ [{ l with level := s.level + l.level }.render s.indentWidth] }

def putAll (s : Sink) (lines : List Line) : Sink := lines.foldl put s

/-- Adds a line, unless the sink is closed. -/
def line? (s : Sink) (text : String) : Option Sink :=
  if s.closed then none else some (s.put (.at0 text))

/-- Adds empty lines; that none are added is never refused. -/
def blank? (s : Sink) (count : Int) : Option Sink :=
  if count ≤ 0 then some s
  else if s.closed then none
  else some (s.putAll (List.replicate count.toNat .blank))

def importLines (s : Sink) : List String := Import.lines s.imports

/-- A body without the empty lines around it. -/
def trimmed (body : List String) : List String :=
  ((body.dropWhile (· == "")).reverse.dropWhile (· == "")).reverse

/-- The whole unit. -/
def text (s : Sink) : String :=
  let imports := s.importLines
  let top := if imports.isEmpty then s.header
    else if s.header.isEmpty then imports else s.header ++ "" :: imports
  let body := trimmed s.body
  let all := if body.isEmpty then top
    else if top.isEmpty then body else top ++ "" :: "" :: body
  "\n".intercalate all ++ "\n"

/-- Closes the sink and answers the unit, unless it is closed. -/
def done? (s : Sink) : Option (String × Sink) :=
  if s.closed then none else some (s.text, { s with closed := true })

end Sink

end Widgetry
