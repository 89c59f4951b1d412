import Widgetry.Files.Path
import Widgetry.Text.Utf8

/-!
# The disk

What files there are below the working directory, with their contents and the times of their last
change. A path is followed name by name, so that everything in front of its last name must be a
folder that exists. The root and what lies above the working directory are folders only if they are
among those of the disk.
-/

namespace Widgetry

structure File where
  content : List UInt8
  /-- when it was last changed, in seconds -/
  modified : Int
deriving DecidableEq, Repr

/-- The names on the way down from the working directory. -/
abbrev Spot := List String

structure Disk where
  files : List (Spot × File) := []
  folders : List Spot := []
deriving DecidableEq, Repr, Inhabited

/-- Why a file cannot be used. -/
inductive DiskFault where
  | missing
  | notFolder
  | isFolder
  | nameTooLong
deriving DecidableEq, Repr

namespace DiskFault

def number : DiskFault → Nat
  | missing => 2
  | notFolder => 20
  | isFolder => 21
  | nameTooLong => 36

def reason : DiskFault → String
  | missing => "No such file or directory"
  | notFolder => "Not a directory"
  | isFolder => "Is a directory"
  | nameTooLong => "File name too long"

/-- The fault with its number and the path that was asked for. -/
def message (e : DiskFault) (p : Path) : String :=
  "[Errno " ++ e.number.repr ++ "] " ++ e.reason ++ ": " ++ Text.quoted p.text

end DiskFault

/-- What stands at a place. -/
inductive Entry where
  | file (f : File)
  | folder
deriving Repr

namespace Disk

def isFolder (d : Disk) (s : Spot) : Bool := s.isEmpty || d.folders.contains s

def entry? (d : Disk) (s : Spot) : Option Entry :=
  match d.files.lookup s with
  | some f => some (.file f)
  | none => if d.isFolder s then some .folder else none

/-- Whether a place is a folder, or why it is none. -/
def folderAt (d : Disk) (s : Spot) : Except DiskFault Unit :=
  match d.entry? s with
  | some .folder => .ok ()
  | some (.file _) => .error .notFolder
  | none => .error .missing

/-- The most bytes that a name may have. -/
def nameLimit : Nat := 255

/-- The place above another. Nothing is above the root, and what is above the working directory has
a place of its own. -/
def above (s : Spot) : Spot :=
  match s.getLast? with
  | none | some ".." => s ++ [".."]
  | some "/" | some "//" => s
  | some _ => s.dropLast

/-- Where a path leads from a folder. The last place need not exist. -/
def follow (d : Disk) (here : Spot) : List String → Except DiskFault Spot
  | [] => .ok here
  | name :: rest => do
    d.folderAt here
    if name = ".." then follow d (above here) rest
    else if nameLimit < name.utf8ByteSize then .error .nameTooLong
    else follow d (here ++ [name]) rest

def find (d : Disk) (p : Path) : Except DiskFault Spot :=
  d.follow (if p.root = "" then [] else [p.root]) p.parts

/-- What a path leads to. -/
def look (d : Disk) (p : Path) : Except DiskFault Entry := do
  let s ← d.find p
  match d.entry? s with
  | some e => return e
  | none => throw .missing

/-- The file that a path leads to. -/
def read (d : Disk) (p : Path) : Except DiskFault File := do
  match ← d.look p with
  | .file f => return f
  | .folder => throw .isFolder

/-- All folders on the way to a place. -/
def foldersAbove (s : Spot) : List Spot := (List.range s.length).drop 1 |>.map fun n => s.take n

/-- Puts a file at a place, in new folders if need be. -/
def put (d : Disk) (s : Spot) (f : File) : Disk where
  files := (s, f) :: d.files.filter (·.1 != s)
  folders := (d.folders ++ foldersAbove s).eraseDups

def remove (d : Disk) (s : Spot) : Disk := { d with files := d.files.filter (·.1 != s) }

/-- Writes a file into a folder that exists. -/
def write (d : Disk) (p : Path) (f : File) : Except DiskFault Disk := do
  let s ← d.find p
  match d.entry? s with
  | some .folder => throw .isFolder
  | _ => return d.put s f

/-- The places of all files. -/
def places (d : Disk) : List Spot := d.files.map (·.1)

end Disk

/-! ## Source files -/

/-- Why a source file gives no source text. -/
inductive SourceFault where
  | disk (e : DiskFault)
  | text (e : Text.DecodeFault)
  | tooLarge (size : Nat) (limit : Int)
deriving DecidableEq, Repr

namespace Disk

/-- The text of a file. -/
def readText (d : Disk) (p : Path) : Except SourceFault String := do
  let f ← (d.read p).mapError .disk
  (Text.decodeLines f.content).mapError .text

/-- The text of a file that must not be larger than a limit. -/
def readSource (d : Disk) (p : Path) (limit : Int) : Except SourceFault String := do
  let f ← (d.read p).mapError .disk
  if limit < f.content.length then throw (.tooLarge f.content.length limit)
  d.readText p

end Disk

end Widgetry
