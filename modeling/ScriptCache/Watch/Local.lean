import ScriptCache.Disk.Walk
import ScriptCache.Disk.SourceFile
import ScriptCache.Reconcile.Apply
import ScriptCache.Settings

/-!
# Watching local files

A watch goes through the source files under its roots. A cycle finds out which cached scripts are
older than their files, and has them compiled or the cache reset.
-/

namespace ScriptCache

structure LocalWatch where
  filter : SourceFilter
  roots : List Path
  /-- With more stale scripts than this the cache is reset. -/
  resetThreshold : Nat
  deriving DecidableEq, Repr

namespace LocalWatch

/-- A watch on roots, which are made canonical once, as far as they are there. -/
def of (d : Disk) (filter : SourceFilter) (roots : List Path) (resetThreshold : Nat) :
    LocalWatch where
  filter
  roots := roots.map fun root ↦
    match d.canonicalize root with
    | .ok canonical => canonical
    | .error _ => root
  resetThreshold

def ofSettings (d : Disk) (s : Settings) : LocalWatch :=
  of d s.scan.filter s.watchRoots s.watch.resetThreshold

/-- The watched files, in the order of a walk. Roots that cannot be entered are passed over. -/
def entries (w : LocalWatch) (d : Disk) : List DiskEntry :=
  (d.walkAll w.filter w.roots).filterMap fun item ↦ item.toOption.map d.probe

variable {σ : Type}

/-- Compares the watched files with the cache once, and acts on it. -/
def cycle (w : LocalWatch) (d : Disk) (rt : Runtime σ) : EngineM σ Report := do
  let scripts ← rt.status
  let entries := w.entries d
  (Plan.of (staleOnDisk entries scripts) (unresolvedOnDisk entries scripts)
    w.resetThreshold).apply rt

/-- Whether a watched file calls for compiling: it is there, and the cache does not hold it at
least as new. -/
def wants (scripts : Registry) (force : Bool) : DiskEntry → Option Path
  | .found path mtime =>
    if force || !(scripts.get? path).any (mtime ≤ ·) then some path else none
  | .missing _ => none

/-- Compiles the watched files: all of them, or those that the cache does not hold fresh. -/
def compileAll (w : LocalWatch) (d : Disk) (rt : Runtime σ) (force : Bool) :
    EngineM σ Outcome := do
  let scripts ← rt.status
  rt.compileMany ((w.entries d).filterMap (wants scripts force))

end LocalWatch

end ScriptCache
