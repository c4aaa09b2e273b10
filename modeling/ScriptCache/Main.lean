import ScriptCache.Control
import ScriptCache.Disk.Difference

/-!
# The control program on a real disk

What a command may look at is read into a disk, the command is run on it, and the files that it
wrote are written back. There is no way to a network here, so commands that ask a daemon fail.
-/

namespace ScriptCache.Main

open Control (Arguments)

/-- How far down source directories are read. -/
def depthLimit : Nat := 256

/-- Reads an entry of a directory, and so many levels below it. A link is read as one to the place
where it ends; what cannot be read is left out. -/
def readEntry (depth : Nat) (entry : IO.FS.DirEntry) : IO (Option Node) := do
  try
    let data ← entry.path.symlinkMetadata
    let mtime := Timestamp.of data.modified.sec data.modified.nsec.toNat
    match data.type with
    | .file => return some (.file (← IO.FS.readBinFile entry.path).toList mtime)
    | .symlink => return some (.link (← IO.FS.realPath entry.path).toString)
    | .dir =>
      match depth with
      | 0 => return some (.dir [] mtime)
      | depth + 1 =>
        let children ← (← entry.path.readDir).toList.filterMapM fun child ↦ do
          return (← readEntry depth child).map (child.fileName, ·)
        return some (.dir (children.foldl (fun entries (name, node) ↦
          Sorted.place name node entries) []) mtime)
    | .other => return none
  catch _ => return none

/-- Puts a node at a path, unless something else than an empty directory is there. -/
def settle (d : Disk) (p : Path) (node : Node) : Disk :=
  let d := (d.makeDirs ((Path.parent? p).getD "/")).1
  match d.find false p with
  | .ok (.vacant dir name) => d.put (dir ++ [name]) node
  | .ok (.node names) =>
    if (d.node? names).any fun n ↦ n.isDir && n.entries.isEmpty then d.put names node else d
  | .error _ => d

/-- Reads what stands at a path into a disk, and what it leads to, so many levels deep. -/
def mountPlace (d : Disk) (depth : Nat) (p : Path) : IO Disk := do
  match ← readEntry depth ⟨"/", p⟩ with
  | none => return d
  | some (.link real) =>
    let target ← readEntry depth ⟨"/", real⟩
    return settle (target.elim d (settle d real)) p (.link real)
  | some node => return settle d p node

/-- Reads what a path leads to into a disk, so many levels deep, and what stands on the way. -/
def mount (d : Disk) (depth : Nat) (p : Path) : IO Disk := do
  let p := (Disk.absolute d.workingDir).join p
  let d ← p.ancestors.reverse.foldlM (mountPlace · 0 ·) d
  mountPlace d depth p

/-- The paths that a command may look at, with the levels below them. Deeper ones come first. -/
def places (a : Arguments) (s : Settings) : List (Path × Nat) :=
  match a.command with
  | .preload output =>
    s.scan.roots.map (·, depthLimit) ++ s.preload.excludeFile.toList.map (·, 0)
      ++ [(output.getD s.preload.output, 0)]
  | .scan [] => s.scan.roots.map (·, depthLimit)
  | .scan files => files.map (·, 0)
  | _ => []

/-- The part of the real disk that a command line is about. -/
def readDisk (words : List String) : IO Disk := do
  let here := (← IO.currentDir).toString
  let empty : Disk := ⟨.dir [] default, Disk.steps here, default⟩
  let d := (empty.makeDirs here).1
  match Arguments.parse words with
  | .error _ => return d
  | .ok a =>
    let d ← mount d 0 a.projectRoot
    let d ← mount d 0 (a.settingsFile d)
    let s := (d.projectSettings (a.settingsFile d) (a.root d)).toOption.getD {}
    (places a s).foldlM (fun d (p, depth) ↦ mount d depth p) d

/-- Writes a file beside its place and moves it there. -/
def writeBack (p : Path) (content : List UInt8) : IO Unit := do
  IO.FS.createDirAll (Disk.artifactDir p)
  let draft := Disk.draftPath p
  IO.FS.writeBinFile draft ⟨content.toArray⟩
  IO.FS.rename draft p

def noNetwork : Http.Network Unit := fun _ _ ↦ return .error .unreachable

end ScriptCache.Main

open ScriptCache in
def main (words : List String) : IO UInt32 := do
  let before ← Main.readDisk words
  let ((after, result), ()) := (Control.run Main.noNetwork before words).run ()
  for (p, content) in before.written after do
    Main.writeBack p content
  IO.print result.stdout
  IO.eprint result.stderr
  return result.code.toUInt32
