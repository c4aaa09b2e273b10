import ScriptCache.Disk.Change
import ScriptCache.Preload.Manifest
import ScriptCache.Scan
import ScriptCache.Settings

/-!
# Making the boot script

The roots are scanned, the manifest of their types is compiled, and its script is written. The
script is first written to a file beside its target and then moved there, so that a reader finds
the old script or the new one, and never a part of one.
-/

namespace ScriptCache

inductive PreloadError where
  | readExclusions (path : Path) (cause : IoError)
  | writeArtifact (path : Path) (cause : IoError)
  deriving DecidableEq, Repr

namespace PreloadError

def cause : PreloadError → IoError
  | .readExclusions _ cause => cause
  | .writeArtifact _ cause => cause

def message : PreloadError → String
  | .readExclusions path cause => "read exclusion list " ++ path ++ ": " ++ cause.message
  | .writeArtifact path cause => "write preload artifact " ++ path ++ ": " ++ cause.message

end PreloadError

namespace Disk

/-- The exclusions listed in a file, one to a line. -/
def loadExclusions (d : Disk) (p : Path) : Except PreloadError Exclusions :=
  match d.readText p with
  | .error e => .error (.readExclusions p e)
  | .ok text => .ok (.ofText text)

/-- The directory that a target is written in. -/
def artifactDir (target : Path) : Path :=
  match target.parent? with
  | some parent => if parent.isEmpty then "." else parent
  | none => "."

/-- The file that is written before it is moved to the target. -/
def draftPath (target : Path) : Path :=
  Path.join (artifactDir target) ("." ++ target.fileName?.getD "preload.php" ++ ".tmp")

/-- Writes a file beside the target and moves it there. -/
def replaceFile (d : Disk) (target : Path) (content : List UInt8) : Disk × Except IoError Unit :=
  match d.makeDirs (artifactDir target) with
  | (d, .error e) => (d, .error e)
  | (d, .ok ()) =>
    let draft := draftPath target
    match d.write draft content with
    | .error e => (d, .error e)
    | .ok d =>
      match d.moveFile draft target with
      | .ok d => (d, .ok ())
      | .error e =>
        match d.removeFile draft with
        | .ok d => (d, .error e)
        | .error _ => (d, .error e)

def writeArtifact (d : Disk) (target : Path) (text : String) : Disk × Except PreloadError Unit :=
  let (d, result) := d.replaceFile target (Utf8.encode text)
  (d, result.mapError (.writeArtifact target))

end Disk

/-- The names that settings exclude, inline and in a file. -/
def PreloadSettings.exclusions (s : PreloadSettings) (d : Disk) : Except PreloadError Exclusions :=
  let inline := Exclusions.ofNames s.exclude
  match s.excludeFile with
  | none => .ok inline
  | some p => (d.loadExclusions p).map inline.union

namespace Disk

/-- Scans the roots of the settings and writes the boot script of what they declare. -/
def preload (d : Disk) (s : Settings) (target : Path) : Disk × Except PreloadError Manifest :=
  match s.preload.exclusions d with
  | .error e => (d, .error e)
  | .ok exclusions =>
    let types := scannedTypes (d.scan s.scan.filter s.scan.roots)
    let manifest := Manifest.ofNames (types.map (·.name)) exclusions
    let (d, result) := d.writeArtifact target (manifest.script s.preload.autoload)
    (d, result.map fun () ↦ manifest)

end Disk

end ScriptCache
