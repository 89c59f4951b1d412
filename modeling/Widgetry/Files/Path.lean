import Widgetry.Text.Quoted

/-!
# Paths

A path is a root, if it has one, and the names on the way down. Points that stand for the place
itself and repeated separators do not count; `..` stays, since only the disk says where it leads.
-/

namespace Widgetry

structure Path where
  /-- the separators in front: none, one or two -/
  root : String
  parts : List String
deriving DecidableEq, Repr, Inhabited

/-- Why a path gets no other suffix. -/
inductive SuffixFault where
  | invalidSuffix (suffix : String)
  | emptyName (path : String)
deriving DecidableEq, Repr

def SuffixFault.message : SuffixFault → String
  | invalidSuffix suffix => "Invalid suffix " ++ Text.quoted suffix
  | emptyName path => "PosixPath(" ++ Text.quoted path ++ ") has an empty name"

namespace Path

/-- The separators in front of a path. Three and more count as one. -/
def rootOf : List Char → String
  | '/' :: '/' :: '/' :: _ => "/"
  | '/' :: '/' :: _ => "//"
  | '/' :: _ => "/"
  | _ => ""

/-- The text between separators. -/
def split (cs : List Char) : List (List Char) :=
  cs.foldr (fun c pieces => match c, pieces with
    | '/', _ => [] :: pieces
    | _, [] => [[c]]
    | _, p :: rest => (c :: p) :: rest) [[]]

def ofText (text : String) : Path where
  root := rootOf text.toList
  parts := ((split text.toList).map String.ofList).filter fun p => p != "" && p != "."

/-- The text of a path; the place itself is a point. -/
def text (p : Path) : String :=
  if p.root = "" ∧ p.parts = [] then "." else p.root ++ "/".intercalate p.parts

/-- The last name. -/
def name (p : Path) : String := p.parts.getLast?.getD ""

/-- The path without its last name. -/
def parent (p : Path) : Path := { p with parts := p.parts.dropLast }

/-- How many characters of a name its suffix has: the last point and what follows, unless the point
stands at the start or at the end. -/
def suffixLength (name : List Char) : Nat :=
  let after := (name.reverse.takeWhile (· != '.')).length
  if after = 0 ∨ name.length ≤ after + 1 then 0 else after + 1

/-- Whether a text can be a suffix: nothing, or a point and something without separators. -/
def isSuffix (suffix : String) : Bool :=
  match suffix.toList with
  | [] => true
  | c :: rest => c == '.' && !rest.isEmpty && !rest.contains '/'

/-- The path with another suffix in the place of its own. -/
def withSuffix (p : Path) (suffix : String) : Except SuffixFault Path :=
  if !isSuffix suffix then .error (.invalidSuffix suffix)
  else if p.name = "" then .error (.emptyName p.text)
  else
    let stem := p.name.toList.take (p.name.length - suffixLength p.name.toList)
    .ok { p with parts := p.parts.dropLast ++ [String.ofList stem ++ suffix] }

end Path

end Widgetry
