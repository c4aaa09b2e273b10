import ScriptCache.Disk.Filter

/-!
# Settings

Both programs read one file of settings, in five sections. Every setting has a default. The
columns list the settings of a section in their order, with the key under which each is written;
the text formats are read and written through them.
-/

namespace ScriptCache

/-- Which files are read for declarations. -/
structure ScanSettings where
  roots : List Path := ["src"]
  extensions : List String := ["php"]
  excludeDirs : List String := []
  deriving DecidableEq, Repr, Inhabited

/-- How the boot script is made. -/
structure PreloadSettings where
  output : Path := "preload.php"
  autoload : Path := "vendor/autoload.php"
  exclude : List String := []
  excludeFile : Option Path := none
  deriving DecidableEq, Repr, Inhabited

/-- How this machine's files are watched. Without roots, those of the scan are watched. -/
structure WatchSettings where
  enabled : Bool := true
  roots : List Path := []
  intervalSecs : Nat := 10
  resetThreshold : Nat := 25
  deriving DecidableEq, Repr, Inhabited

/-- How a peer's registry is polled. Without a peer, this process polls itself. -/
structure FleetSettings where
  enabled : Bool := false
  peerUrl : Option String := none
  intervalSecs : Nat := 30
  timeoutMs : Nat := 2000
  useCanonicalHost : Bool := true
  resetThreshold : Nat := 25
  deriving DecidableEq, Repr, Inhabited

/-- Where the daemon listens, and how it is reached. -/
structure ServerSettings where
  listen : String := "127.0.0.1:8089"
  selfUrl : Option String := none
  canonicalUrl : Option String := none
  deriving DecidableEq, Repr, Inhabited

structure Settings where
  scan : ScanSettings := {}
  preload : PreloadSettings := {}
  watch : WatchSettings := {}
  fleet : FleetSettings := {}
  server : ServerSettings := {}
  deriving DecidableEq, Repr, Inhabited

def ScanSettings.filter (s : ScanSettings) : SourceFilter := .of s.extensions s.excludeDirs

/-- The address under which the daemon reaches itself. -/
def ServerSettings.ownUrl (s : ServerSettings) : String :=
  s.selfUrl.getD ("http://" ++ s.listen)

namespace Settings

def watchRoots (s : Settings) : List Path :=
  if s.watch.roots.isEmpty then s.scan.roots else s.watch.roots

/-- Reads every relative path as one under `base`. -/
def rooted (s : Settings) (base : Path) : Settings :=
  { s with
    scan := { s.scan with roots := s.scan.roots.map base.join }
    watch := { s.watch with roots := s.watch.roots.map base.join }
    preload := { s.preload with
      output := base.join s.preload.output
      autoload := base.join s.preload.autoload
      excludeFile := s.preload.excludeFile.map base.join } }

/-- Where the settings of a project are kept. -/
def defaultPath (projectRoot : Path) : Path :=
  (projectRoot.join ".opsync").join "opsync.toml"

/-- The type of a setting's value. -/
inductive Kind where
  | flag
  /-- A natural number of 64 bits. -/
  | count
  | text
  | optionalText
  | texts
  deriving DecidableEq, Repr

abbrev Kind.Value : Kind → Type
  | .flag => Bool
  | .count => Nat
  | .text => String
  | .optionalText => Option String
  | .texts => List String

structure Column (S : Type) where
  key : String
  kind : Kind
  get : S → kind.Value
  set : S → kind.Value → S

/-- A section in settings, with its columns. -/
structure Section where
  key : String
  Row : Type
  initial : Row
  columns : List (Column Row)
  get : Settings → Row
  set : Settings → Row → Settings

def scanColumns : List (Column ScanSettings) :=
  [⟨"roots", .texts, (·.roots), fun s v ↦ { s with roots := v }⟩,
    ⟨"extensions", .texts, (·.extensions), fun s v ↦ { s with extensions := v }⟩,
    ⟨"exclude_dirs", .texts, (·.excludeDirs), fun s v ↦ { s with excludeDirs := v }⟩]

def preloadColumns : List (Column PreloadSettings) :=
  [⟨"output", .text, (·.output), fun s v ↦ { s with output := v }⟩,
    ⟨"autoload", .text, (·.autoload), fun s v ↦ { s with autoload := v }⟩,
    ⟨"exclude", .texts, (·.exclude), fun s v ↦ { s with exclude := v }⟩,
    ⟨"exclude_file", .optionalText, (·.excludeFile), fun s v ↦ { s with excludeFile := v }⟩]

def watchColumns : List (Column WatchSettings) :=
  [⟨"enabled", .flag, (·.enabled), fun s v ↦ { s with enabled := v }⟩,
    ⟨"roots", .texts, (·.roots), fun s v ↦ { s with roots := v }⟩,
    ⟨"interval_secs", .count, (·.intervalSecs), fun s v ↦ { s with intervalSecs := v }⟩,
    ⟨"reset_threshold", .count, (·.resetThreshold), fun s v ↦ { s with resetThreshold := v }⟩]

def fleetColumns : List (Column FleetSettings) :=
  [⟨"enabled", .flag, (·.enabled), fun s v ↦ { s with enabled := v }⟩,
    ⟨"peer_url", .optionalText, (·.peerUrl), fun s v ↦ { s with peerUrl := v }⟩,
    ⟨"interval_secs", .count, (·.intervalSecs), fun s v ↦ { s with intervalSecs := v }⟩,
    ⟨"timeout_ms", .count, (·.timeoutMs), fun s v ↦ { s with timeoutMs := v }⟩,
    ⟨"use_canonical_host", .flag, (·.useCanonicalHost),
      fun s v ↦ { s with useCanonicalHost := v }⟩,
    ⟨"reset_threshold", .count, (·.resetThreshold), fun s v ↦ { s with resetThreshold := v }⟩]

def serverColumns : List (Column ServerSettings) :=
  [⟨"listen", .text, (·.listen), fun s v ↦ { s with listen := v }⟩,
    ⟨"self_url", .optionalText, (·.selfUrl), fun s v ↦ { s with selfUrl := v }⟩,
    ⟨"canonical_url", .optionalText, (·.canonicalUrl), fun s v ↦ { s with canonicalUrl := v }⟩]

/-- The sections in their order. -/
def sections : List Section :=
  [⟨"scan", ScanSettings, {}, scanColumns, (·.scan), fun s v ↦ { s with scan := v }⟩,
    ⟨"preload", PreloadSettings, {}, preloadColumns, (·.preload),
      fun s v ↦ { s with preload := v }⟩,
    ⟨"watch", WatchSettings, {}, watchColumns, (·.watch), fun s v ↦ { s with watch := v }⟩,
    ⟨"fleet", FleetSettings, {}, fleetColumns, (·.fleet), fun s v ↦ { s with fleet := v }⟩,
    ⟨"server", ServerSettings, {}, serverColumns, (·.server), fun s v ↦ { s with server := v }⟩]

end Settings

end ScriptCache
