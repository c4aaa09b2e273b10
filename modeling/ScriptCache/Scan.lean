import ScriptCache.Disk.Walk
import ScriptCache.Disk.SourceFile
import ScriptCache.Source.Declaration

/-!
# Scanning files for declared types

Every file gives a result of its own: the types that it declares, or why it was passed over. A
fault in one file has no part in the results of the others.
-/

namespace ScriptCache

open Source (ParseError DeclaredType Statement declaredTypes)

inductive ScanError where
  | walk (e : WalkError)
  | read (path : Path) (cause : IoError)
  | parse (path : Path) (cause : ParseError)
  deriving DecidableEq, Repr

def ScanError.message : ScanError → String
  | .walk e => "walk failed: " ++ e.message
  | .read path cause => "read " ++ path ++ ": " ++ cause.message
  | .parse path cause => "parse " ++ path ++ ": " ++ cause.message

structure FileTypes where
  file : SourceFile
  /-- In document order. -/
  types : List DeclaredType
  deriving DecidableEq, Repr

abbrev ScanResult := Except ScanError FileTypes

namespace Disk

def scanFile (d : Disk) (p : Path) : ScanResult := do
  let file ← (d.sourceFile p).mapError (.read p)
  let content ← (d.read file.path).mapError (.read p)
  let statements ← (Statement.ofSource content).mapError (.parse file.path)
  return ⟨file, declaredTypes statements⟩

def scanWalked (d : Disk) : Except WalkError Path → ScanResult
  | .error e => .error (.walk e)
  | .ok p => d.scanFile p

/-- Scans the source files under roots, in the order of a walk. -/
def scan (d : Disk) (filter : SourceFilter) (roots : List Path) : List ScanResult :=
  (d.walkAll filter roots).map d.scanWalked

end Disk

namespace ScanResult

def typesOf : ScanResult → List DeclaredType
  | .ok file => file.types
  | .error _ => []

def errorOf? : ScanResult → Option ScanError
  | .ok _ => none
  | .error e => some e

end ScanResult

/-- The types of all files that could be scanned, one file after the other. -/
def scannedTypes (results : List ScanResult) : List DeclaredType :=
  results.flatMap ScanResult.typesOf

def scanErrors (results : List ScanResult) : List ScanError :=
  results.filterMap ScanResult.errorOf?

end ScriptCache
