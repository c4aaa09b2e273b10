import ScriptCache.Disk

/-!
# Changing the file system

Every change gives the disk after it. Changes that take several steps give it also when they fail
half way.
-/

namespace ScriptCache.Disk

def put (d : Disk) (names : List String) (node : Node) : Disk :=
  { d with root := Node.put node d.root names }

def erase (d : Disk) (names : List String) : Disk := { d with root := d.root.erase names }

/-- The path without the slashes at its end. -/
def trimSlashes (p : Path) : Path :=
  if p.toList.all (· = '/') then p
  else String.ofList (p.toList.reverse.dropWhile (· = '/')).reverse

/-- Makes something at a free name. -/
def make (d : Disk) (p : Path) (node : Node) : Except IoError Disk :=
  match d.find false p with
  | .error e => .error e
  | .ok (.node _) => .error .exists
  | .ok (.vacant dir name) => .ok (d.put (dir ++ [name]) node)

/-- Makes a directory; slashes behind its name do not count. -/
def makeDir (d : Disk) (p : Path) : Except IoError Disk := d.make (trimSlashes p) (.dir [] d.now)

def makeLink (d : Disk) (target p : Path) : Except IoError Disk :=
  if target.isEmpty then .error .notFound
  else if pathLimit < target.utf8ByteSize then .error .nameTooLong
  else if p.endsWith "/" then
    match d.make (trimSlashes p) (.link target) with
    | .ok _ => .error .notFound
    | .error e => .error e
  else d.make p (.link target)

/-- Makes the first of these directories in the second, the second in the third, and so on, as
far as they are missing. -/
def makeChain (d : Disk) : List Path → Disk × Except IoError Unit
  | [] => (d, .error .noTree)
  | p :: above =>
    let settle (d : Disk) : Disk × Except IoError Unit :=
      match d.makeDir p with
      | .ok d => (d, .ok ())
      | .error e => (d, if d.isDir p then .ok () else .error e)
    if p.isEmpty then (d, .ok ())
    else
      match d.makeDir p with
      | .error .notFound =>
        match makeChain d above with
        | (d, .ok ()) => settle d
        | (d, .error e) => (d, .error e)
      | _ => settle d

/-- Makes a directory, and those above it that are missing. -/
def makeDirs (d : Disk) (p : Path) : Disk × Except IoError Unit := d.makeChain (p :: p.ancestors)

/-- Whether a path ends in dots, so that it can only name a directory. -/
def endsInDots (p : Path) : Bool :=
  p.segments.getLast?.any fun s ↦ s == "." || s == ".."

/-- Writes a whole file, a new one or over an old one. -/
def write (d : Disk) (p : Path) (content : List UInt8) : Except IoError Disk :=
  let follow := !p.endsWith "/"
  match d.find follow (if follow then p else trimSlashes p) with
  | .error e => .error e
  | .ok (.vacant dir name) =>
    if follow then .ok (d.put (dir ++ [name]) (.file content d.now)) else .error .isDirectory
  | .ok (.node names) =>
    match follow, d.node? names with
    | true, some (.file _ _) => .ok (d.put names (.file content d.now))
    | _, _ => .error .isDirectory

/-- Sets the modification time of a file or directory. -/
def setTime (d : Disk) (p : Path) (t : Timestamp) : Except IoError Disk :=
  match d.locate true p with
  | .error e => .error e
  | .ok names =>
    match d.node? names with
    | some (.file content _) => .ok (d.put names (.file content t))
    | some (.dir entries _) => .ok (d.put names (.dir entries t))
    | _ => .error .notFound

/-- Takes away a file, a link or a whole directory. -/
def remove (d : Disk) (p : Path) : Except IoError Disk :=
  (d.locate false p).map d.erase

/-- Takes away a file or a link. -/
def removeFile (d : Disk) (p : Path) : Except IoError Disk :=
  match d.locate false p with
  | .error e => .error e
  | .ok names =>
    match d.node? names with
    | some (.dir _ _) => .error .isDirectory
    | _ => .ok (d.erase names)

/-- Moves a file or a link, over a file or a link that has the new name. -/
def moveFile (d : Disk) (source target : Path) : Except IoError Disk :=
  match d.locate false source, d.find false (trimSlashes target) with
  | .error e, _ => .error e
  | _, .error e => .error e
  | .ok names, .ok found =>
    match d.node? names with
    | none => .error .notFound
    | some node =>
      if endsInDots (trimSlashes target) || trimSlashes target == "/" then .error .busy
      else if target.endsWith "/" then .error .notDirectory
      else
        match found with
        | .vacant dir name => .ok ((d.erase names).put (dir ++ [name]) node)
        | .node old =>
          match d.node? old with
          | some (.dir _ _) => .error .isDirectory
          | _ => .ok ((d.erase names).put old node)

end ScriptCache.Disk
