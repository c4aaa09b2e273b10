import ScriptCache.Disk.IoError
import ScriptCache.Disk.Node
import ScriptCache.Text.Utf8

/-!
# The file system

A disk is a tree of files with a working directory. Paths are followed as on Linux: name by name,
through links, with limits on the length of names and paths and on the number of links.
-/

namespace ScriptCache

structure Disk where
  root : Node
  /-- The names on the way to the directory that relative paths start in. -/
  workingDir : List String
  /-- The time given to what is written. -/
  now : Timestamp

namespace Disk

def node? (d : Disk) (names : List String) : Option Node := d.root.at? names

/-- The longest name, in bytes. -/
def nameLimit : Nat := 255

/-- The longest path, in bytes. -/
def pathLimit : Nat := 4095

/-- How many links one path may lead through. -/
def linkLimit : Nat := 40

/-- The steps of a path. A slash at its end asks for a directory, as a `.` there does. -/
def steps (p : Path) : List String :=
  p.segments.filter (!·.isEmpty) ++ if p.endsWith "/" then ["."] else []

/-- What a path leads to. -/
inductive Found where
  /-- The node at the end of these names, none of which is a link. -/
  | node (names : List String)
  /-- A name that is free in the directory at the end of these names. -/
  | vacant (dir : List String) (name : String)
  deriving DecidableEq, Repr

/-- Follows steps from a directory, with so many links left. The last step is followed through a
link only if `follow` says so. -/
def descend (d : Disk) (follow : Bool) (links : Nat) (here : List String) (todo : List String) :
    Except IoError Found :=
  match todo with
  | [] => .ok (.node here)
  | step :: todo =>
    match d.node? here with
    | none => .error .notFound
    | some (.dir entries _) =>
      if step = "." then descend d follow links here todo
      else if step = ".." then descend d follow links here.dropLast todo
      else if nameLimit < step.utf8ByteSize then .error .nameTooLong
      else
        match entries.lookup step with
        | none => if todo.isEmpty then .ok (.vacant here step) else .error .notFound
        | some (.link target) =>
          if todo.isEmpty ∧ ¬follow then .ok (.node (here ++ [step]))
          else
            match links with
            | 0 => .error .tooManyLinks
            | links + 1 =>
              let start := if target.isAbsolute then [] else here
              descend d follow links start (steps target ++ todo)
        | some _ => descend d follow links (here ++ [step]) todo
    | some _ => .error .notDirectory
termination_by (links, todo.length)

/-- Follows a path. -/
def find (d : Disk) (follow : Bool) (p : Path) : Except IoError Found :=
  if p.contains '\x00' then .error .zeroInPath
  else if p.isEmpty then .error .notFound
  else if pathLimit < p.utf8ByteSize then .error .nameTooLong
  else descend d follow linkLimit (if p.isAbsolute then [] else d.workingDir) (steps p)

/-- The names on the way to the node that a path leads to. -/
def locate (d : Disk) (follow : Bool) (p : Path) : Except IoError (List String) :=
  match d.find follow p with
  | .ok (.node names) => .ok names
  | .ok (.vacant _ _) => .error .notFound
  | .error e => .error e

/-- The path of the node at the end of names. -/
def absolute (names : List String) : Path := "/" ++ "/".intercalate names

/-- The absolute path without links to the same node. -/
def canonicalize (d : Disk) (p : Path) : Except IoError Path := (d.locate true p).map absolute

/-- The node that a path leads to. -/
def get (d : Disk) (follow : Bool) (p : Path) : Except IoError Node :=
  match d.locate follow p with
  | .error e => .error e
  | .ok names => (d.node? names).elim (.error .notFound) .ok

def stat (d : Disk) (p : Path) : Except IoError Node := d.get true p

def isDir (d : Disk) (p : Path) : Bool :=
  match d.stat p with
  | .ok node => node.isDir
  | .error _ => false

def exists? (d : Disk) (p : Path) : Bool := (d.stat p).isOk

def read (d : Disk) (p : Path) : Except IoError (List UInt8) :=
  match d.stat p with
  | .error e => .error e
  | .ok (.file content _) => .ok content
  | .ok _ => .error .isDirectory

def readText (d : Disk) (p : Path) : Except IoError String :=
  match d.read p with
  | .error e => .error e
  | .ok content => (Utf8.decode? content).elim (.error .notText) .ok

/-- The names in a directory. -/
def list (d : Disk) (p : Path) : Except IoError (List String) :=
  match d.stat p with
  | .error e => .error e
  | .ok (.dir entries _) => .ok (entries.map (·.1))
  | .ok _ => .error .notDirectory

end Disk

end ScriptCache
