import Widgetry.Value.Text

/-!
# Why a node has no view
-/

namespace Widgetry

inductive ConversionCause where
  | unknownKind
  | missingProp (prop : String)
  | invalidType (prop expected got : String)
  | messageRequired (prop : String)
deriving DecidableEq, Repr

/-- What is wrong with a node of some kind. -/
structure ConversionError where
  kind : Value
  cause : ConversionCause

namespace ConversionError

/-- The kind as it stands in a message. -/
def kindText (e : ConversionError) : String := e.kind.plain.toOption.getD ""

def message (e : ConversionError) : String :=
  match e.cause with
  | .unknownKind => "Unknown node kind: " ++ e.kindText
  | .missingProp prop =>
    "Node '" ++ e.kindText ++ "' is missing required prop '" ++ prop ++ "'"
  | .invalidType prop expected got =>
    "Node '" ++ e.kindText ++ "' prop '" ++ prop ++ "' expected " ++ expected ++ ", got " ++ got
  | .messageRequired prop =>
    "Node '" ++ e.kindText ++ "' requires a message identifier" ++
      if prop = "" then "" else " in '" ++ prop ++ "'"

end ConversionError

/-- What stops a conversion. -/
inductive ConversionFault where
  | refused (e : ConversionError)
  | number (e : NumberFault)
  /-- the kind of a node is a list or an object -/
  | compoundKind

/-- Refuses a node; the text of its kind goes into the message. -/
def refuse {α : Type} (kind : Value) (cause : ConversionCause) : Except ConversionFault α :=
  match kind.plain with
  | .ok _ => .error (.refused ⟨kind, cause⟩)
  | .error e => .error (.number e)

end Widgetry
