import ScriptCache.Proofs.Disk.Grow
import ScriptCache.Proofs.Disk.Overwrite
import ScriptCache.Proofs.Settings.Partial
import ScriptCache.Proofs.Text.Utf8
import ScriptCache.Settings.Store

/-!
# Settings that are saved and loaded

What was saved is loaded again. Settings that cannot be written change no file, and a file that
leaves settings out gives them their defaults.
-/

namespace ScriptCache

namespace Settings

/-- The numbers in settings. -/
def counts (s : Settings) : List Nat :=
  [s.watch.intervalSecs, s.watch.resetThreshold, s.fleet.intervalSecs, s.fleet.timeoutMs,
    s.fleet.resetThreshold]

/-- Settings are writable when their numbers are not too large. -/
theorem isWritable_iff (s : Settings) : sections.all (·.isWritable s) ↔
    ∀ n ∈ s.counts, (n : Int) ≤ Int64.maxValue.toInt := by
  simp [sections, Section.isWritable, scanColumns, preloadColumns, watchColumns, fleetColumns,
    serverColumns, Kind.isWritable, counts, and_assoc]

end Settings

namespace Disk

variable {d e : Disk} {p : Path} {s : Settings}

/-- The disk with the directories for a file, and whether they could all be made. -/
def prepare (d : Disk) (p : Path) : Disk × Except IoError Unit :=
  p.parent?.elim (d, .ok ()) d.makeDirs

theorem grows_prepare (d : Disk) (p : Path) : Grows d (d.prepare p).1 := by
  rw [prepare]
  cases p.parent? with
  | none => exact .refl
  | some above => exact grows_makeDirs d above

theorem loadSettings_of_read {text : String} (read : d.read p = .ok (Utf8.encode text))
    (denoted : Settings.ofToml? text = some s) : d.loadSettings p = .ok s := by
  have shown : d.readText p = .ok text := by
    rw [readText, read]
    simp [Utf8.decode?_encode]
  rw [loadSettings, shown]
  simp [denoted]

theorem saveSettings_eq (d : Disk) (p : Path) (s : Settings) :
    d.saveSettings p s =
      match (d.prepare p).2 with
      | .error e => ((d.prepare p).1, .error (.write p e))
      | .ok () =>
        match s.toToml? with
        | none => ((d.prepare p).1, .error .unwritable)
        | some text =>
          match (d.prepare p).1.write p (Utf8.encode text) with
          | .ok d => (d, .ok ())
          | .error e => ((d.prepare p).1, .error (.write p e)) := rfl

/-- Saving writes the text of the settings. -/
theorem exists_written (saved : d.saveSettings p s = (e, .ok ())) :
    ∃ text, s.toToml? = some text ∧ (d.prepare p).1.write p (Utf8.encode text) = .ok e := by
  rw [saveSettings_eq] at saved
  split at saved
  · cases saved
  split at saved
  · cases saved
  · rename_i text written
    split at saved
    · rename_i done
      cases saved
      exact ⟨text, written, done⟩
    · cases saved

theorem loadSettings_of_saved (saved : d.saveSettings p s = (e, .ok ())) :
    e.loadSettings p = .ok s := by
  obtain ⟨text, denoted, written⟩ := exists_written saved
  exact loadSettings_of_read (read_of_write written) (Settings.ofToml?_of_toToml? denoted)

/-- Numbers that are too large are refused before anything is written. -/
theorem saveSettings_of_large (large : ∃ n ∈ s.counts, Int64.maxValue.toInt < n)
    (prepared : (d.prepare p).2 = .ok ()) :
    d.saveSettings p s = ((d.prepare p).1, .error .unwritable) := by
  have unwritable : s.toToml? = none := by
    apply if_neg
    rw [Settings.isWritable_iff]
    obtain ⟨n, mem, large⟩ := large
    intro fits
    exact absurd (fits n mem) (Int.not_le.mpr large)
  rw [saveSettings_eq, prepared, unwritable]

end Disk

namespace Settings

/-- Settings that are saved are loaded again as they are. If a number is too large for the text
format nothing is saved, and every file keeps its content. A file that leaves out some of the keys
and sections of settings, and has unknown ones besides, is loaded as the settings with exactly
those at their defaults that it leaves out. -/
theorem saved_settings_load (s : Settings) :
    (∀ (d e : Disk) (p : Path), d.saveSettings p s = (e, .ok ()) → e.loadSettings p = .ok s) ∧
    ((∃ n ∈ s.counts, Int64.maxValue.toInt < n) → ∀ (d : Disk) (p : Path),
      (d.prepare p).2 = .ok () →
        ∃ e, d.saveSettings p s = (e, .error .unwritable) ∧
          ∀ q content, d.read q = .ok content → e.read q = .ok content) ∧
    ((∀ n ∈ s.counts, (n : Int) ≤ Int64.maxValue.toInt) →
      ∃ text, s.toToml? = some text ∧ Toml.document? text = some s.document) ∧
    (∀ document, Edited s.document document → s.Partial document) ∧
    ∀ (d : Disk) (p : Path) (text : String) (document : Toml.Entries), d.readText p = .ok text →
      Toml.document? text = some document → s.Partial document →
        ∃ t, d.loadSettings p = .ok t ∧ ∀ sec ∈ sections, ∀ c ∈ sec.columns,
          (settingOf? document sec.key c.key = none → c.get (sec.get t) = c.get (sec.get {})) ∧
          (settingOf? document sec.key c.key = settingOf? s.document sec.key c.key →
            c.get (sec.get t) = c.get (sec.get s)) := by
  refine ⟨fun d e p ↦ Disk.loadSettings_of_saved, fun large d p prepared ↦ ?_, fun fits ↦ ?_,
    fun document ↦ Edited.partial, fun d p text document shown read some_of ↦ ?_⟩
  · refine ⟨_, Disk.saveSettings_of_large large prepared, fun q content read ↦ ?_⟩
    exact (Disk.grows_prepare d p).read read
  · have written : s.toToml? = some _ := if_pos ((isWritable_iff s).mpr fits)
    exact ⟨_, written, document?_of_toToml? written⟩
  · obtain ⟨t, loaded, known⟩ := exists_ofToml? read some_of
    refine ⟨t, ?_, known⟩
    rw [Disk.loadSettings, shown]
    simp [loaded]

namespace Sample

def disk : Disk := ⟨.dir [] ⟨0, 0⟩, [], ⟨0, 0⟩⟩

theorem prepare_disk : disk.prepare "/c" = (disk, .ok ()) := by cbv

theorem write_disk (content : List UInt8) :
    disk.write "/c" content = .ok (disk.put ["c"] (.file content disk.now)) := by
  have found : disk.find true "/c" = .ok (.vacant [] "c") := by cbv
  have plain : String.endsWith "/c" "/" = false := by cbv
  simp only [Disk.write, plain, Bool.not_false, if_true, found]
  rfl

/-- Strings that have to be written in several forms, and the largest number. -/
def odd : Settings where
  scan := { roots := ["\"a\"\n", "b\x01\\", "''"], excludeDirs := [""] }
  fleet := { peerUrl := "é'\"\"\"\n", timeoutMs := 9223372036854775807 }

theorem counts_odd : ∀ n ∈ odd.counts, (n : Int) ≤ Int64.maxValue.toInt := by decide

def large : Settings where
  watch := { intervalSecs := 9223372036854775808 }

theorem counts_large : ∃ n ∈ large.counts, Int64.maxValue.toInt < n := by decide

/-- A text with one setting and two unknown keys. -/
def text : String := "x = 1\n[scan]\nroots = ['a']\ny.z = []\n"

def roots : Settings where
  scan := { roots := ["a"], extensions := [] }

def document : Toml.Entries :=
  [("x", .integer 1), ("scan", .table .header [("roots", .array [.string "a"]),
    ("y", .table .dotted [("z", .array [])])])]

theorem document?_text : Toml.document? text = some document := by cbv

theorem partial_sample : roots.Partial document := by
  have known : ∀ sec ∈ sections, sec.key ≠ "x" ∧ ∀ c ∈ sec.columns, c.key ≠ "y" := by decide
  constructor
  · intro sec mem v found
    rcases List.mem_cons.mp (Sorted.mem_of_lookup found) with eq | table
    · exact absurd (congrArg Prod.fst eq) (known sec mem).1
    · obtain ⟨-, rfl⟩ := Prod.mk.inj (List.mem_singleton.mp table)
      exact ⟨_, _, rfl⟩
  · intro sec mem c column v found
    obtain ⟨origin, entries, found, entry⟩ := settingOf?_eq_some_iff.mp found
    rcases List.mem_cons.mp (Sorted.mem_of_lookup found) with eq | table
    · exact absurd (congrArg Prod.fst eq) (known sec mem).1
    obtain ⟨scan, eq⟩ := Prod.mk.inj (List.mem_singleton.mp table)
    cases eq
    rcases List.mem_cons.mp (Sorted.mem_of_lookup entry) with eq | other
    · obtain ⟨roots, rfl⟩ := Prod.mk.inj eq
      rw [scan, roots]
      rfl
    · exact absurd (congrArg Prod.fst (List.mem_singleton.mp other)) ((known sec mem).2 c column)

def holding (content : List UInt8) : Disk :=
  ⟨.dir [("c", .file content ⟨0, 0⟩)] ⟨0, 0⟩, [], ⟨0, 0⟩⟩

theorem read_holding (content : List UInt8) : (holding content).read "/c" = .ok content := by
  cbv

end Sample

open Sample in
theorem saved_settings_load_sample :
    (∃ e, disk.saveSettings "/c" odd = (e, .ok ()) ∧ e.loadSettings "/c" = .ok odd) ∧
    (∃ e, disk.saveSettings "/c" large = (e, .error .unwritable)) ∧
    ∃ t, (holding (Utf8.encode text)).loadSettings "/c" = .ok t ∧ t.scan.roots = ["a"] ∧
      t.scan.extensions = ["php"] := by
  refine ⟨?_, ?_, ?_⟩
  · obtain ⟨load, -, written, -⟩ := saved_settings_load odd
    obtain ⟨text, denoted, -⟩ := written counts_odd
    have saved : disk.saveSettings "/c" odd =
        (disk.put ["c"] (.file (Utf8.encode text) disk.now), .ok ()) := by
      rw [Disk.saveSettings_eq, prepare_disk, denoted]
      simp only [write_disk]
    exact ⟨_, saved, load _ _ _ saved⟩
  · obtain ⟨-, refused, -⟩ := saved_settings_load large
    obtain ⟨e, refused, -⟩ := refused counts_large disk "/c" (by rw [prepare_disk])
    exact ⟨e, refused⟩
  · obtain ⟨-, -, -, -, partly⟩ := saved_settings_load roots
    have shown : (holding (Utf8.encode text)).readText "/c" = .ok text := by
      rw [Disk.readText, read_holding]
      simp [Utf8.decode?_encode]
    obtain ⟨t, loaded, known⟩ := partly _ _ _ _ shown document?_text partial_sample
    have set := (known _ List.mem_cons_self _ List.mem_cons_self).2 rfl
    have unset := (known _ List.mem_cons_self _ (List.mem_cons_of_mem _ List.mem_cons_self)).1 rfl
    exact ⟨t, loaded, set, unset⟩

end Settings

end ScriptCache
