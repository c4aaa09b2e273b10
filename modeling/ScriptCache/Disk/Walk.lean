import ScriptCache.Disk
import ScriptCache.Disk.Filter

/-!
# Enumerating source files

A walk lists the source files at or below a root, in the order of their names at every level. A
root may be a link. Links below a root are neither listed nor followed.
-/

namespace ScriptCache

/-- A root that could not be entered. -/
structure WalkError where
  path : Path
  cause : IoError
  deriving DecidableEq, Repr

def WalkError.message (e : WalkError) : String :=
  "IO error for operation on " ++ e.path ++ ": " ++ e.cause.message

namespace SourceFilter

mutual

/-- The source files at or below a node that stands at `p`. -/
def files (filter : SourceFilter) (p : Path) : Node → List Path
  | .file _ _ => if filter.accepts p then [p] else []
  | .link _ => []
  | .dir entries _ => filesIn filter p entries

/-- The source files below the entries of a directory at `p`. -/
def filesIn (filter : SourceFilter) (p : Path) : List (String × Node) → List Path
  | [] => []
  | (name, node) :: entries =>
    (if node.isDir && filter.excludedDirs.contains name then []
      else files filter (p.join name) node) ++ filesIn filter p entries

end

end SourceFilter

namespace Disk

/-- The source files at or below a root, or the reason why there are none. -/
def walk (d : Disk) (filter : SourceFilter) (root : Path) : List (Except WalkError Path) :=
  match d.get false root with
  | .error e => [.error ⟨root, e⟩]
  | .ok (.link _) =>
    match d.stat root with
    | .error e => [.error ⟨root, e⟩]
    | .ok (.dir entries _) => (filter.filesIn root entries).map .ok
    | .ok _ => []
  | .ok node => (filter.files root node).map .ok

/-- Walks one root after the other. -/
def walkAll (d : Disk) (filter : SourceFilter) (roots : List Path) :
    List (Except WalkError Path) :=
  roots.flatMap (d.walk filter)

end Disk

end ScriptCache
