import Widgetry.Files.Disk
import Widgetry.Generation.Unit
import Widgetry.Settings.Basic

/-!
# Generating from a file

Reads a source file, generates its unit and, if asked to, writes that to a file: to one beside the
source with another suffix, or to one that is named. What the disk refuses becomes an error of the
generator that names the file.
-/

namespace Widgetry

/-- Where a generated unit is written to. -/
inductive Destination where
  | nowhere
  | beside
  | file (path : Path)

inductive FileFault where
  | generation (e : GenerationFault)
  | suffix (e : SuffixFault)

namespace Generation

/-- An error that concerns a file as a whole. -/
def fileError (cause : GenerationCause) (path : Path) : GenerationFault :=
  .refused ⟨cause, { file := some path.text }⟩

/-- What the disk says about a file. -/
def diskError (e : DiskFault) (path : Path) : GenerationFault :=
  fileError (.told .io (e.message path)) path

def ofSourceFault (path : Path) : SourceFault → GenerationFault
  | .disk e => diskError e path
  | .text e => fileError (.told .io e.message) path
  | .tooLarge size limit => fileError (.sourceTooLarge size limit) path

/-- The unit of a source file. -/
def ofPath (disk : Disk) (path : Path) (limit : Int) (o : GenerationOptions) :
    Except GenerationFault GeneratedUnit := do
  let source ← (disk.readSource path limit).mapError (ofSourceFault path)
  ofSource source (some path.text) o

/-- The file that a unit is written to, if any. -/
def target? (path : Path) (suffix : String) : Destination → Except SuffixFault (Option Path)
  | .nowhere => .ok none
  | .beside => (path.withSuffix suffix).map some
  | .file target => .ok (some target)

/-- The unit of a source file, and the disk it was written to. -/
def ofFile (disk : Disk) (path : Path) (s : Settings) (o : GenerationOptions) (place : Destination) :
    Except FileFault (GeneratedUnit × Disk) := do
  let u ← (ofPath disk path s.maxSourceSize o).mapError .generation
  match ← (target? path s.outputSuffix place).mapError .suffix with
  | none => return (u, disk)
  | some target =>
    let disk ← (disk.write target ⟨Text.encode u.text, 0⟩).mapError fun e =>
      .generation (diskError e target)
    return (u, disk)

end Generation

end Widgetry
