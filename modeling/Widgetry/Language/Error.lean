import Widgetry.Language.Token
import Widgetry.Number.Fault

/-!
# Errors of the language

What can be wrong with a source text or with a running program, and where. A `SourceError` is a
cause with a place; its `text` puts the place in front of the message, leaving out what is unknown.
-/

namespace Widgetry

/-- The stage that refused the program. -/
inductive Phase where
  | parsing
  | evaluation
  /-- neither of the two in particular -/
  | unspecific
deriving DecidableEq, Repr

inductive Cause where
  -- words
  | openComment
  | strangeCharacter (c : Char)
  | openString
  | strangeEscape (c : Char)
  -- sentences
  | expected (what : String) (found : Token)
  | expectedName (found : Token)
  | unexpected (found : Token)
  | openType (name : String)
  | openBlock
  | openIs
  | openBody (kind : String)
  | invalidTarget
  | nestingTooDeep
  -- values
  | unaryMismatch (op type : String)
  | binaryMismatch (op left right : String)
  | unknownOperator (op : String)
  | divisionByZero
  -- programs
  | undefinedName (name : String)
  | unknownField (name : String)
  | immutable (name : String)
  | foreignTarget
  | notIterable (type : String)
  | nestedDeclaration
  | noMember (type name : String)
  | notCallable
  | unknownMethod (name : String)
  | lenArity
  | lenType (type : String)
  | unknownWidget (name : String)
  | missingMethod (widget method : String)
  | noProgram
  | recursionTooDeep
  /-- told by a runtime of another make -/
  | stated (message : String)
deriving DecidableEq, Repr

namespace Cause

def message : Cause → String
  | openComment => "Unterminated block comment"
  | strangeCharacter c => "Unexpected character " ++ Text.quoted c.toString
  | openString => "Unterminated string literal"
  | strangeEscape c => "Unknown escape sequence \\" ++ c.toString
  | expected what found => "Expected '" ++ what ++ "', found " ++ found.describe
  | expectedName found => "Expected identifier, found " ++ found.describe
  | unexpected found => "Unexpected " ++ found.describe
  | openType name => "Unterminated type '" ++ name ++ "'"
  | openBlock => "Unterminated block"
  | openIs => "Unterminated 'is' statement"
  | openBody kind => "Unterminated '" ++ kind ++ "' body"
  | invalidTarget => "Invalid assignment target"
  | nestingTooDeep => "Maximum nesting depth exceeded"
  | unaryMismatch op type => "Cannot apply '" ++ op ++ "' to " ++ type
  | binaryMismatch op left right => "Cannot apply '" ++ op ++ "' to " ++ left ++ " and " ++ right
  | unknownOperator op => "Unknown operator '" ++ op ++ "'"
  | divisionByZero => "Division by zero"
  | undefinedName name => "Undefined name '" ++ name ++ "'"
  | unknownField name => "Unknown field '" ++ name ++ "'"
  | immutable name => "Cannot assign to immutable '" ++ name ++ "'"
  | foreignTarget => "Only self fields can be assigned"
  | notIterable type => "Cannot iterate over " ++ type
  | nestedDeclaration => "Declarations are only allowed at the top level"
  | noMember type name => type ++ " has no member '" ++ name ++ "'"
  | notCallable => "Only named functions can be called"
  | unknownMethod name => "Unknown method '" ++ name ++ "'"
  | lenArity => "len() takes exactly one argument"
  | lenType type => "len() of " ++ type
  | unknownWidget name => "Unknown widget '" ++ name ++ "'"
  | missingMethod widget method => "Widget '" ++ widget ++ "' has no method '" ++ method ++ "'"
  | noProgram => "No program loaded"
  | recursionTooDeep => "Maximum recursion depth exceeded"
  | stated message => message

end Cause

/-- Where something was found; unknown parts are absent. -/
structure Place where
  file : Option String := none
  line : Option Nat := none
  column : Option Nat := none
deriving DecidableEq, Repr

namespace Place

def ofPosition (p : Position) : Place := ⟨none, some p.line, some p.column⟩

/-- The known parts, set off by colons. -/
def text (p : Place) : String :=
  ":".intercalate (p.file.toList ++ p.line.toList.map Nat.repr ++ p.column.toList.map Nat.repr)

/-- The place with a file, unless it has one that is named. -/
def inFile (p : Place) (file : Option String) : Place :=
  match p.file with
  | some f => if f = "" then { p with file } else p
  | none => { p with file }

end Place

structure SourceError where
  phase : Phase
  cause : Cause
  place : Place := {}
deriving DecidableEq, Repr

namespace SourceError

def message (e : SourceError) : String := e.cause.message

/-- The message behind its place. -/
def text (e : SourceError) : String :=
  if e.place.text = "" then e.message else e.place.text ++ ": " ++ e.message

def inFile (e : SourceError) (file : Option String) : SourceError :=
  { e with place := e.place.inFile file }

/-- A parsing error at a place of the text. -/
def parsing (cause : Cause) (p : Position) : SourceError := ⟨.parsing, cause, .ofPosition p⟩

/-- An evaluation error at a line. -/
def evaluation (cause : Cause) (line : Option Nat) : SourceError :=
  ⟨.evaluation, cause, { line }⟩

end SourceError

/-- What stops the parsing or the running of a program. -/
inductive Fault where
  | source (e : SourceError)
  | number (e : NumberFault)
deriving DecidableEq, Repr

namespace Fault

def inFile (file : Option String) : Fault → Fault
  | source e => source (e.inFile file)
  | number e => number e

/-- The text of what went wrong, with its place if it has one. -/
def text : Fault → String
  | source e => e.text
  | number e => e.message

/-- Stops with an evaluation error. -/
def evaluation {α : Type} (cause : Cause) (line : Option Nat) : Except Fault α :=
  .error (.source (.evaluation cause line))

/-- A fault in a number as what stops a program. -/
def ofNumber {α : Type} (r : Except NumberFault α) : Except Fault α := r.mapError .number

end Fault

theorem toOption_eq_some_iff {ε α : Type} {r : Except ε α} {a : α} :
    r.toOption = some a ↔ r = .ok a := by
  cases r <;> simp [Except.toOption]

end Widgetry
