import ScriptCache.Path
import ScriptCache.Sorted
import ScriptCache.Timestamp

/-!
# Trees of files

A directory keeps its entries in the order of their names. Nodes are found by the names on the
way to them from the top; links are not followed here.
-/

namespace ScriptCache

inductive Node where
  | file (content : List UInt8) (mtime : Timestamp)
  | link (target : Path)
  | dir (entries : List (String × Node)) (mtime : Timestamp)
  deriving Repr, Inhabited

namespace Node

abbrev Entries := List (String × Node)

def isDir : Node → Bool
  | .dir _ _ => true
  | _ => false

def mtime : Node → Timestamp
  | .file _ t => t
  | .link _ => default
  | .dir _ t => t

def entries : Node → Entries
  | .dir entries _ => entries
  | _ => []

/-- The node that names lead to. -/
def at? : Node → List String → Option Node
  | node, [] => some node
  | .dir entries _, name :: names => (entries.lookup name).bind fun child ↦ at? child names
  | _, _ :: _ => none

/-- Puts a node at the end of the way that names lead, if there are directories up to it. -/
def put (new : Node) : Node → List String → Node
  | _, [] => new
  | .dir entries t, [name] => .dir (Sorted.place name new entries) t
  | .dir entries t, name :: names =>
    .dir (entries.map fun e ↦ if e.1 = name then (e.1, put new e.2 names) else e) t
  | node, _ :: _ => node

/-- Takes away the node that names lead to. -/
def erase : Node → List String → Node
  | .dir entries t, [name] => .dir (entries.filter (·.1 ≠ name)) t
  | .dir entries t, name :: names =>
    .dir (entries.map fun e ↦ if e.1 = name then (e.1, erase e.2 names) else e) t
  | node, _ => node

end Node

end ScriptCache
