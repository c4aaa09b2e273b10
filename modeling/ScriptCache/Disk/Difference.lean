import ScriptCache.Disk

/-!
# What was written

The files of a disk that an earlier disk does not have as they are.
-/

namespace ScriptCache

namespace Node

/-- Whether this is a file, and the other one is it. -/
def isSameFile : Node → Node → Bool
  | .file content t, .file other u => t == u && content == other
  | _, _ => false

mutual

/-- The files at or below a node at `p` that are not the same in what stood there before. -/
def written (p : Path) (before : Option Node) : Node → List (Path × List UInt8)
  | .file content t =>
    if before.any (isSameFile (.file content t)) then [] else [(p, content)]
  | .link _ => []
  | .dir entries _ => writtenIn p (before.elim [] Node.entries) entries

def writtenIn (p : Path) (before : List (String × Node)) :
    List (String × Node) → List (Path × List UInt8)
  | [] => []
  | (name, node) :: entries =>
    written (p.join name) (before.lookup name) node ++ writtenIn p before entries

end

end Node

/-- The files of a disk that are new or not as they were before. -/
def Disk.written (before after : Disk) : List (Path × List UInt8) :=
  after.root.written "/" before.root

end ScriptCache
