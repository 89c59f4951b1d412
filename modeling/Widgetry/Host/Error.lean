import Widgetry.Conversion.Error
import Widgetry.Files.Disk
import Widgetry.Language.Error

/-!
# What a host refuses

A host runs the widgets of a loaded program. A `HostError` is what it answers when it cannot do what
it was asked for; a `Failure` also covers what the program's engine and the views of nodes end with.
-/

namespace Widgetry

/-- What a host does only when it does nothing else. -/
inductive Task where
  | interpret
  | mainView
  | handleMessage
  | reload
deriving DecidableEq, Repr

def Task.name : Task → String
  | interpret => "interpret"
  | mainView => "get_main_view"
  | handleMessage => "handle_message"
  | reload => "reload"

/-- Why a source file gives no source text, in words. -/
def SourceFault.reason : SourceFault → String
  | disk e => e.reason
  | text e => "not valid UTF-8 (" ++ e.reason ++ ")"
  | tooLarge size limit => "file is " ++ size.repr ++ " bytes, limit is " ++ toString limit

inductive HostError where
  | unreadable (path : Path) (fault : SourceFault)
  /-- the program cannot be parsed, or failed while it ran -/
  | program (e : SourceError)
  | busy (task : Task)
  | noWidget (name : String)
  | noField (widget field : String)
  | mismatch (expected found : String)
  | unknown (message : String)
deriving DecidableEq, Repr

def HostError.message : HostError → String
  | unreadable path fault => "Cannot read " ++ path.text ++ ": " ++ fault.reason
  | program e => e.text
  | busy task => "Bridge is busy; cannot " ++ task.name ++ " re-entrantly"
  | noWidget name => "Component not found: " ++ name
  | noField widget field => "Field '" ++ field ++ "' not found on " ++ widget
  | mismatch expected found => "Type mismatch: expected " ++ expected ++ ", found " ++ found
  | unknown message => message

/-- What ends a request, or the work of an engine, without a result. -/
inductive Failure where
  | refused (e : HostError)
  | source (e : SourceError)
  | number (e : NumberFault)
  /-- the engine itself broke down -/
  | crash (message : String)
  | conversion (e : ConversionFault)

namespace Failure

def text : Failure → String
  | refused e => e.message
  | source e => e.text
  | number e => e.message
  | crash message => message
  | conversion (.refused e) => e.message
  | conversion (.number e) => e.message
  | conversion .compoundKind => "the kind of a node is no name"

def ofFault : Fault → Failure
  | .source e => source e
  | .number e => number e

end Failure

end Widgetry
