import ScriptCache.Engine
import ScriptCache.Disk.SourceFile
import ScriptCache.Source.Statement.Parser

/-!
# A cache in memory

Compiling a file checks that it parses, and records its modification time under its canonical
path. This is the cache that the daemon serves.
-/

namespace ScriptCache

open Source (Statement)

structure Memory where
  loaded : Bool := true
  enabled : Bool := true
  scripts : Registry := .empty

namespace Memory

/-- Reads and checks a file on a disk. -/
def check (d : Disk) (p : Path) : Except String SourceFile := do
  let file ← (d.sourceFile p).mapError (·.message)
  let content ← (d.read file.path).mapError (·.message)
  let _ ← (Statement.ofSource content).mapError fun e ↦ "syntax error, " ++ e.message
  return file

def record (c : Memory) (p : Path) (mtime : Int) : Memory :=
  { c with scripts := c.scripts.record p mtime }

/-- Compiles a file from a disk. -/
def compile (d : Disk) (p : Path) : StateM Memory (Except String Unit) := do
  match check d p with
  | .ok file =>
    modify (·.record file.path file.mtime)
    return .ok ()
  | .error reason => return .error reason

def reset : StateM Memory Bool := do
  modify fun c ↦ { c with scripts := .empty }
  return true

/-- The cache for the scripts on a disk. -/
def runtime (d : Disk) : Runtime Memory where
  loaded := return (← get).loaded
  enabled := return (← get).enabled
  scripts := return (← get).scripts
  compile := compile d
  reset

end Memory

end ScriptCache
