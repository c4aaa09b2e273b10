import ScriptCache.Registry

/-!
# What to do about stale scripts

A script is stale when its source is strictly newer than what the cache recorded. Few stale
scripts are compiled one by one. Many, or a cached script whose source is gone, call for a reset.
-/

namespace ScriptCache

inductive Strategy where
  | clean
  | compile
  | reset
  deriving DecidableEq, Repr

def Strategy.name : Strategy → String
  | .clean => "clean"
  | .compile => "compile"
  | .reset => "reset"

def Strategy.all : List Strategy := [.clean, .compile, .reset]

structure Plan where
  stale : List Path
  /-- Cached scripts that no longer lead to a file. -/
  unresolved : List Path
  strategy : Strategy
  deriving DecidableEq, Repr

/-- The plan for the stale and the unresolved scripts. More than `threshold` stale ones are
many. -/
def Plan.of (stale unresolved : List Path) (threshold : Nat) : Plan where
  stale
  unresolved
  strategy :=
    if !unresolved.isEmpty || threshold < stale.length then .reset
    else if stale.isEmpty then .clean
    else .compile

/-- What looking for one watched file found. -/
inductive DiskEntry where
  /-- The canonical path of the file, and its time in seconds. -/
  | found (path : Path) (mtime : Int)
  | missing (path : Path)
  deriving DecidableEq, Repr

namespace DiskEntry

def path : DiskEntry → Path
  | .found path _ => path
  | .missing path => path

def isStale (r : Registry) : DiskEntry → Bool
  | .found path mtime => (r.get? path).any (· < mtime)
  | .missing _ => false

def isUnresolved (r : Registry) : DiskEntry → Bool
  | .found _ _ => false
  | .missing path => r.contains path

end DiskEntry

/-- The stale paths among the entries. Files that were never cached are not stale. -/
def staleOnDisk (entries : List DiskEntry) (r : Registry) : List Path :=
  (entries.filter (·.isStale r)).map (·.path)

/-- The cached paths among the entries whose file is missing. -/
def unresolvedOnDisk (entries : List DiskEntry) (r : Registry) : List Path :=
  (entries.filter (·.isUnresolved r)).map (·.path)

/-- The scripts in both registries for which `other` records a later time than `own`, in the
order of their paths. -/
def staleAgainst (other own : Registry) : List Path :=
  (other.entries.filter fun (path, mtime) ↦ (own.get? path).any (· < mtime)).map (·.1)

end ScriptCache
