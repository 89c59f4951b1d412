import Widgetry.Files.Disk
import Widgetry.Files.Glob

/-!
# Watching files

Compares the files under some paths with what they were at the last scan. A path may lead to a file
or to a folder, in which all files are watched whose names match a pattern. Files that are new or
were changed later than before are posted to a channel.
-/

namespace Widgetry

/-- The watched files with the times of their last change. -/
abbrev Times := List (Path × Int)

structure Watcher where
  paths : List Path
  patterns : List String := ["*.at"]
  /-- what the last scan found -/
  seen : Times := []

namespace Times

/-- Sets the time of a file; a new one goes to the end. -/
def put (p : Path) (time : Int) : Times → Times
  | [] => [(p, time)]
  | (q, t) :: rest => if q = p then (q, time) :: rest else (q, t) :: put p time rest

/-- The files that are new or were changed later. -/
def changed (before now : Times) : List Path :=
  now.filterMap fun e => match before.lookup e.1 with
    | some t => if t < e.2 then some e.1 else none
    | none => some e.1

end Times

namespace Watcher

/-- A watcher of some paths; without patterns, the standard one applies. -/
def of (paths : List Path) (patterns : List String) : Watcher :=
  if patterns.isEmpty then { paths } else { paths, patterns }

/-- The files below a folder that match a pattern. -/
def matching (d : Disk) (path : Path) (folder : Spot) (pattern : String) : List (Path × File) :=
  d.files.filterMap fun e =>
    if folder.isPrefixOf e.1 ∧
        Glob.acceptsEnd (Path.ofText pattern).parts (e.1.drop folder.length) then
      some ({ path with parts := path.parts ++ e.1.drop folder.length }, e.2)
    else none

/-- The watched files that a path leads to. -/
def filesAt (w : Watcher) (d : Disk) (path : Path) : List (Path × File) :=
  match d.find path with
  | .error _ => []
  | .ok s => match d.entry? s with
    | none => []
    | some (.file f) => [(path, f)]
    | some .folder => w.patterns.flatMap (matching d path s)

/-- The watched files there are. -/
def scan (w : Watcher) (d : Disk) : Times :=
  (w.paths.flatMap (w.filesAt d)).foldl (fun times e => times.put e.1 e.2.modified) []

/-- Scans once: the files that changed, and the watcher that has seen them. -/
def poll (w : Watcher) (d : Disk) : List Path × Watcher :=
  let now := w.scan d
  (Times.changed w.seen now, { w with seen := now })

/-- The watcher that takes what there is as seen. -/
def start (w : Watcher) (d : Disk) : Watcher := { w with seen := w.scan d }

end Watcher

end Widgetry
