import ScriptCache.Path
import ScriptCache.Sorted

/-!
# What a cache holds

A registry gives the modification time, in seconds, that a cache recorded for each script. It is
kept in the order of the scripts' paths, so that two registries that answer alike are equal.
-/

namespace ScriptCache

structure Registry where
  entries : List (Path × Int)
  sorted : entries.Pairwise (·.1 < ·.1)
  deriving DecidableEq

namespace Registry

def empty : Registry := ⟨[], .nil⟩

def get? (r : Registry) (p : Path) : Option Int := r.entries.lookup p

def contains (r : Registry) (p : Path) : Bool := (r.get? p).isSome

def size (r : Registry) : Nat := r.entries.length

/-- Records a time for a script, over an earlier one. -/
def record (r : Registry) (p : Path) (m : Int) : Registry :=
  ⟨Sorted.place p m r.entries, Sorted.pairwise_place p m r.sorted⟩

/-- The registry of some entries; of two for one path the later counts. -/
def ofList (entries : List (Path × Int)) : Registry :=
  entries.foldl (fun r (p, m) ↦ r.record p m) empty

end Registry

end ScriptCache
