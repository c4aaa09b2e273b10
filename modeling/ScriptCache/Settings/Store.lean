import ScriptCache.Disk.Change
import ScriptCache.Settings.Toml

/-!
# Settings on disk
-/

namespace ScriptCache

inductive SettingsError where
  | read (path : Path) (cause : IoError)
  | parse (path : Path)
  /-- A count is too large for the text format. -/
  | unwritable
  | write (path : Path) (cause : IoError)
  deriving DecidableEq, Repr

namespace SettingsError

def message : SettingsError → String
  | .read path cause => "read " ++ path ++ ": " ++ cause.message
  | .parse path => "parse " ++ path ++ ": not a settings file"
  | .unwritable => "serialize config: out-of-range value"
  | .write path cause => "write " ++ path ++ ": " ++ cause.message

def cause? : SettingsError → Option IoError
  | .read _ cause => some cause
  | .write _ cause => some cause
  | _ => none

end SettingsError

namespace Disk

def loadSettings (d : Disk) (p : Path) : Except SettingsError Settings :=
  match d.readText p with
  | .error e => .error (.read p e)
  | .ok text => (Settings.ofToml? text).elim (.error (.parse p)) .ok

/-- Settings have their defaults where there is no file. -/
def loadSettingsOrDefault (d : Disk) (p : Path) : Except SettingsError Settings :=
  if d.exists? p then d.loadSettings p else .ok {}

/-- Saves settings, in a directory that is made if it is missing. -/
def saveSettings (d : Disk) (p : Path) (s : Settings) : Disk × Except SettingsError Unit :=
  let (d, made) := p.parent?.elim (d, .ok ()) d.makeDirs
  match made with
  | .error e => (d, .error (.write p e))
  | .ok () =>
    match s.toToml? with
    | none => (d, .error .unwritable)
    | some text =>
      match d.write p (Utf8.encode text) with
      | .ok d => (d, .ok ())
      | .error e => (d, .error (.write p e))

end Disk

end ScriptCache
