import ScriptCache.Path

/-!
# Which files count as sources
-/

namespace ScriptCache

structure SourceFilter where
  /-- Without the dot, in lower case. -/
  extensions : List String
  /-- Names of directories that are not entered. -/
  excludedDirs : List String
  deriving DecidableEq, Repr

namespace SourceFilter

/-- Dots in front of an extension and the case of its ASCII letters do not count. -/
def of (extensions excludedDirs : List String) : SourceFilter where
  extensions := extensions.map fun e ↦ (String.ofList (e.toList.dropWhile (· = '.'))).toLower
  excludedDirs

/-- Every script file, in every directory. -/
def scripts : SourceFilter := of ["php"] []

def accepts (filter : SourceFilter) (p : Path) : Bool :=
  p.extension?.any fun e ↦ filter.extensions.contains e.toLower

end SourceFilter

end ScriptCache
