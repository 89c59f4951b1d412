import Widgetry.Generation.Symbols

/-!
# Why no source is generated
-/

namespace Widgetry

/-- The stage that refused. -/
inductive GenerationStage where
  | io
  | parse
  | codegen
deriving DecidableEq, Repr

def GenerationStage.name : GenerationStage → String
  | io => "io"
  | parse => "parse"
  | codegen => "codegen"

def GenerationStage.all : List GenerationStage := [.io, .parse, .codegen]

def GenerationStage.ofName? (s : String) : Option GenerationStage :=
  GenerationStage.all.find? (·.name == s)

/-- Why a widget has no view that is known. -/
inductive NoView where
  | noMethod
  | emptyBody
  | noNode
deriving DecidableEq, Repr

def NoView.message : NoView → String
  | noMethod => "no view() method"
  | emptyBody => "view() body is empty"
  | noNode => "last statement of view() is not a node"

inductive GenerationCause where
  | noWidgets
  | noView (widget : String) (reason : NoView)
  | notIdentifier (name widget : String)
  | variantNotIdentifier (variant widget : String)
  /-- a literal holds a node -/
  | nodeInLiteral
  | sourceTooLarge (size : Nat) (limit : Int)
  /-- what the file system or the parser said -/
  | told (stage : GenerationStage) (message : String)
deriving DecidableEq, Repr

namespace GenerationCause

def stage : GenerationCause → GenerationStage
  | sourceTooLarge .. => .io
  | told s _ => s
  | _ => .codegen

def message : GenerationCause → String
  | noWidgets => "No widget declarations found"
  | noView widget reason => "Widget '" ++ widget ++ "': " ++ reason.message
  | notIdentifier name widget =>
    "'" ++ name ++ "' in widget '" ++ widget ++ "' is not a valid Python identifier"
  | variantNotIdentifier variant widget =>
    "message variant '" ++ variant ++ "' in widget '" ++ widget ++
      "' is not a valid Python identifier"
  | nodeInLiteral => "Cannot emit literal of type Node"
  | sourceTooLarge size limit =>
    "Source is " ++ size.repr ++ " bytes, limit is " ++ toString limit
  | told _ message => message

end GenerationCause

structure GenerationError where
  cause : GenerationCause
  place : Place := {}
deriving DecidableEq, Repr

namespace GenerationError

/-- The message behind its stage and its place. -/
def text (e : GenerationError) : String :=
  let stage := e.cause.stage.name ++ " error"
  if e.place.text = "" then stage ++ ": " ++ e.cause.message
  else stage ++ " at " ++ e.place.text ++ ": " ++ e.cause.message

/-- The file of a place, if it has a name, or else another one. -/
def namedFile (file fallback : Option String) : Option String :=
  match file with
  | some f => if f = "" then fallback else some f
  | none => fallback

/-- An error of the language as an error of the generator. -/
def ofSource (e : SourceError) (file : Option String) : GenerationError where
  cause := .told .parse e.message
  place := { e.place with file := namedFile e.place.file file }

end GenerationError

/-- What stops the generator. -/
inductive GenerationFault where
  | refused (e : GenerationError)
  | number (e : NumberFault)
  | template (e : TemplateFault)
deriving DecidableEq, Repr

/-- Refuses to generate, at no place in particular. -/
def GenerationFault.codegen {α : Type} (cause : GenerationCause) : Except GenerationFault α :=
  .error (.refused { cause })

theorem exists_of_isOk {ε α : Type} {r : Except ε α} (h : r.isOk = true) : ∃ a, r = .ok a := by
  cases r with
  | ok a => exact ⟨a, rfl⟩
  | error e => cases h

/-- What follows a step is done if the step succeeds. -/
theorem bind_eq_ok {ε α β : Type} {x : Except ε α} {f : α → Except ε β} {b : β} :
    (x >>= f) = .ok b ↔ ∃ a, x = .ok a ∧ f a = .ok b := by
  cases x with
  | error e => simp [bind, Except.bind]
  | ok a => simp [bind, Except.bind]

/-- A step succeeds whatever its failures are called. -/
theorem mapError_eq_ok {ε ε' α : Type} {x : Except ε α} {f : ε → ε'} {a : α} :
    x.mapError f = .ok a ↔ x = .ok a := by
  cases x with
  | error e => exact iff_of_false nofun nofun
  | ok b =>
    show (.ok b : Except ε' α) = .ok a ↔ _
    simp

end Widgetry
