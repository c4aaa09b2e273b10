import ScriptCache.Disk
import ScriptCache.Reconcile.Plan

/-!
# Files as the cache knows them

The cache keeps a script under its canonical path and with its modification time in seconds.
-/

namespace ScriptCache

structure SourceFile where
  /-- Absolute and without links. -/
  path : Path
  /-- In seconds. -/
  mtime : Int
  deriving DecidableEq, Repr

namespace Disk

/-- Looks at the file that a path leads to. -/
def sourceFile (d : Disk) (p : Path) : Except IoError SourceFile :=
  match d.canonicalize p with
  | .error e => .error e
  | .ok canonical =>
    match d.stat canonical with
    | .error e => .error e
    | .ok node => .ok ⟨canonical, node.mtime.recorded⟩

/-- The name that the cache would know a missing file by: its directory made canonical, if that
is there. -/
def missingName (d : Disk) (p : Path) : Path :=
  match p.parent?, p.fileName? with
  | some parent, some name =>
    match d.canonicalize parent with
    | .ok dir => Path.join dir name
    | .error _ => p
  | _, _ => p

/-- Looks for a watched file. -/
def probe (d : Disk) (p : Path) : DiskEntry :=
  match d.sourceFile p with
  | .ok file => .found file.path file.mtime
  | .error _ => .missing (d.missingName p)

end Disk

end ScriptCache
