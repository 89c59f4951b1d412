import Widgetry.Digest.Fingerprint
import Widgetry.Files.Watcher
import Widgetry.Host.Basic

/-!
# Hot reload of a source file

A session keeps the program of a host in step with a source file. A watcher posts the paths of
changed files to a channel; polling the session empties the channel and, if it held anything,
reloads the file. A file whose text has the fingerprint of the loaded one is left alone.

An error while reloading is kept for whoever asks, and the host goes on with the program it has.
-/

namespace Widgetry

structure Session (ρ : Type) where
  host : Host ρ
  /-- the source file -/
  path : Path
  watcher : Watcher
  /-- the posted paths, the oldest first -/
  channel : List Path := []
  /-- of the text that was loaded last -/
  fingerprint : Option String := none
  /-- how many reloads there were -/
  reloads : Nat := 0
  lastError : Option HostError := none

namespace Session

variable {ρ : Type}

/-- A session that has loaded nothing yet. -/
def new (host : Host ρ) (path : Path) : Session ρ where
  host
  path
  watcher := .of [path] host.settings.watchPatterns

/-- The text of the source file. -/
def source (s : Session ρ) (disk : Disk) : Except HostError String :=
  (disk.readSource s.path s.host.settings.maxSourceSize).mapError (.unreadable s.path)

def fingerprintOf (s : Session ρ) (source : String) : String :=
  s.host.settings.fingerprintAlgorithm.fingerprint source

/-- Puts a path into the channel. -/
def post (s : Session ρ) (p : Path) : Session ρ := { s with channel := s.channel ++ [p] }

/-- Looks for changed files and posts them. -/
def scan (s : Session ρ) (disk : Disk) : List Path × Session ρ :=
  let (changed, watcher) := s.watcher.poll disk
  (changed, { s with watcher, channel := s.channel ++ changed })

variable (E : Engine ρ) (disk : Disk)

/-- Loads the file for the first time. -/
def load (s : Session ρ) : Except Failure Unit × Session ρ :=
  match s.source disk with
  | .error e => (.error (.refused e), s)
  | .ok text =>
    match E.respond disk (.interpret text) s.host with
    | (.error e, host) => (.error e, { s with host })
    | (.ok _, host) =>
      (.ok (), { s with
        host := { host with sourcePath := some s.path }
        fingerprint := some (s.fingerprintOf text) })

/-- Loads the file anew if its text is another; whether it did. -/
def reload (s : Session ρ) : Except Failure Bool × Session ρ :=
  match s.source disk with
  | .error e => (.ok false, { s with lastError := some e })
  | .ok text =>
    let fingerprint := some (s.fingerprintOf text)
    if fingerprint = s.fingerprint then (.ok false, s)
    else match E.respond disk (.reload text) s.host with
      | (.error (.refused e), host) => (.ok false, { s with host, lastError := some e })
      | (.error e, host) => (.error e, { s with host })
      | (.ok _, host) =>
        (.ok true, { s with host, fingerprint, lastError := none, reloads := s.reloads + 1 })

/-- Takes all paths out of the channel and reloads the file if there were any. -/
def poll (s : Session ρ) : Except Failure Bool × Session ρ :=
  if s.channel.isEmpty then (.ok false, s) else reload E disk { s with channel := [] }

/-- Loads the file if that was not done yet, and watches it from now on. -/
def start (s : Session ρ) : Except Failure Unit × Session ρ :=
  let loaded : Except Failure Unit × Session ρ := match s.fingerprint with
    | some _ => (.ok (), s)
    | none => load E disk s
  match loaded with
  | (.error e, s) => (.error e, s)
  | (.ok (), s) =>
    (.ok (), { s with host := { s.host with hot := true }, watcher := s.watcher.start disk })

/-- Asks the host of the session. -/
def ask (r : Request) (s : Session ρ) : Except Failure Answer × Session ρ :=
  let (a, host) := E.respond disk r s.host
  (a, { s with host })

end Session

end Widgetry
