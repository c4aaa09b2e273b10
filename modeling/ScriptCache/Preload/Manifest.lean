import ScriptCache.Preload.Exclusions
import ScriptCache.Path

/-!
# The preload manifest and its boot script

The manifest lists the types that workers load when they start, each once, in the order in which
they were first seen. The boot script loads the autoloader and then asks for every type, which
makes the autoloader load it.
-/

namespace ScriptCache

/-- Counts of the names that went into a manifest, and of those that did not. -/
structure ManifestStats where
  emitted : Nat
  excluded : Nat
  /-- Names seen again after they were listed. -/
  duplicates : Nat
  deriving DecidableEq, Repr

structure Manifest where
  names : List String
  stats : ManifestStats
  deriving DecidableEq, Repr

namespace Manifest

/-- Lists one more declared name. -/
def add (exclusions : Exclusions) (m : Manifest) (declared : String) : Manifest :=
  let name := normalName declared
  if exclusions.contains name then
    { m with stats := { m.stats with excluded := m.stats.excluded + 1 } }
  else if m.names.contains name then
    { m with stats := { m.stats with duplicates := m.stats.duplicates + 1 } }
  else
    { names := m.names ++ [name], stats := { m.stats with emitted := m.stats.emitted + 1 } }

/-- The manifest of the declared names, in the order given. -/
def ofNames (declared : List String) (exclusions : Exclusions) : Manifest :=
  declared.foldl (add exclusions) ⟨[], ⟨0, 0, 0⟩⟩

/-- A single-quoted string literal: a backslash stands in front of backslashes and quotes. -/
def literal (value : String) : String :=
  "'" ++ String.ofList (value.toList.flatMap fun c ↦
    if c = '\\' ∨ c.toNat = 0x27 then ['\\', c] else [c]) ++ "'"

def scriptHead (autoload : Path) : String :=
  "<?php\n\n// Generated by opsyncctl preload. Do not edit.\n\nrequire_once " ++ literal autoload
    ++ ";\n\n"

def scriptLine (name : String) : String := "\\class_exists(" ++ literal name ++ ");\n"

/-- The boot script. -/
def script (m : Manifest) (autoload : Path) : String :=
  scriptHead autoload ++ String.join (m.names.map scriptLine)

end Manifest

end ScriptCache
