import Widgetry.Command.Run

/-!
# The program

Reads the files and variables that a command line needs, runs the command on them, and writes what
comes of it.
-/

namespace Widgetry

/-- The variables that settings may be given by. -/
def readEnvironment : IO (List (String × String)) := do
  let names := Settings.rules.map fun rule => (Settings.variablePrefix ++ rule.name).toUpper
  names.filterMapM fun name => do
    return (← IO.getEnv name).map (name, ·)

/-- The place that a path names, as long as it leads upwards only at its start. -/
def placeOf (p : Path) : Spot := if p.root = "" then p.parts else p.root :: p.parts

/-- The disk with what a path leads to. -/
def readInto (disk : Disk) (p : Path) : IO Disk := do
  try
    let bytes ← IO.FS.readBinFile p.text
    return disk.put (placeOf p) ⟨bytes.toList, 0⟩
  catch
    | .inappropriateType .. => return { disk with folders := placeOf p :: disk.folders }
    | _ => return disk

/-- The disk with the folders on the way to the file that a command writes. -/
def withTarget (disk : Disk) : Command → Disk
  | .transpile _ (.file target) _ =>
    { disk with folders := disk.folders ++ Disk.foldersAbove (placeOf target) }
  | _ => disk

/-- Writes the files that are new or have changed. -/
def writeChanges (before after : Disk) : IO Unit := do
  for (place, file) in after.files do
    if before.files.lookup place != some file then
      IO.FS.writeBinFile ("/".intercalate place) ⟨file.content.toArray⟩

def printScreen (screen : Command.Screen) : IO Unit := do
  IO.print screen.stdout
  IO.eprint screen.stderr
  (← IO.getStdout).flush

/-- Watches a file until the polls are used up. -/
def watchFile (s : Settings) (path : Path) (interval : Float) (polls : Int) : IO UInt32 := do
  match Command.startWatching s (← readInto {} path) path with
  | .error o =>
    IO.print o.stdout
    IO.eprint o.stderr
    return 1
  | .ok (screen, session) =>
    printScreen screen
    let mut session := session
    let mut count : Int := 0
    repeat
      if 0 < polls && polls ≤ count then break
      count := count + 1
      let (screen, next) := ({} : Command.Screen).poll (← readInto {} path) (session.post path)
      printScreen screen
      if screen.crash.isSome then return 1
      session := next
      IO.sleep (interval * 1000.0).toUInt32
    return 0

/-- Prints the outcome of a command. -/
def report (o : Outcome) : IO UInt32 := do
  IO.print o.stdout
  if !o.rows.isEmpty then IO.print (Command.listing o.rows)
  if o.empty then IO.println "No widgets found"
  IO.eprint o.stderr
  if o.exit = 2 then IO.eprintln "Usage: auto-ui [OPTIONS] COMMAND [ARGS]..."
  if o.crash.isSome then IO.eprintln "The command broke down."
  return UInt32.ofNat o.exit

/-- The command that a command line means, if it means one. -/
def commandOf (args : List String) : Option Command := do
  let (name, rest) ← (CommandName.split args).toOption
  (name.read rest).toOption

/-- Runs a command line. -/
def runProgram (args : List String) : IO UInt32 := do
  let environment ← readEnvironment
  let disk ← readInto {} Settings.file
  let command := commandOf args
  let disk ← match command with
    | some c => readInto (withTarget disk c) c.path
    | none => pure disk
  match command, Settings.ofSurroundings [] environment disk with
  | some (.watch path interval polls), .ok s =>
    watchFile s path (interval.getD s.watchPollInterval) polls
  | _, _ =>
    let o := runCommandLine args environment disk []
    writeChanges disk o.disk
    report o

end Widgetry

def main (args : List String) : IO UInt32 := Widgetry.runProgram args
