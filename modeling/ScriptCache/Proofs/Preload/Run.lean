import ScriptCache.Proofs.Disk.Replace
import ScriptCache.Proofs.Preload.Manifest
import ScriptCache.Proofs.Preload.Script
import ScriptCache.Proofs.Scan.Retain

/-!
# Runs of the preloader

A run writes the boot script of what the sources declare. A file that cannot be scanned has no part
in it.
-/

namespace ScriptCache

open Exclusions (IsComment)

/-- A name is excluded by one of the names given inline, or by a line of the exclusion file. -/
def PreloadSettings.Excludes (s : PreloadSettings) (d : Disk) (name : String) : Prop :=
  normalName name ≠ "" ∧
    ((∃ given ∈ s.exclude, normalName given = normalName name) ∨
      ∃ p text, s.excludeFile = some p ∧ d.readText p = .ok text ∧
        ∃ line ∈ Text.lines text.toList, ¬IsComment line ∧
          normalName (String.ofList line) = normalName name)

theorem PreloadSettings.contains_exclusions {s : PreloadSettings} {d : Disk}
    {exclusions : Exclusions} (h : s.exclusions d = .ok exclusions) (name : String) :
    exclusions.contains name ↔ s.Excludes d name := by
  rw [Exclusions.contains_iff, Excludes]
  rw [PreloadSettings.exclusions] at h
  cases file : s.excludeFile with
  | none =>
    rw [file] at h
    cases h
    simp [Exclusions.mem_ofNames]
  | some p =>
    rw [file] at h
    cases read : d.readText p with
    | error e => simp [Disk.loadExclusions, read, Except.map] at h
    | ok text =>
      simp only [Disk.loadExclusions, read, Except.map, Except.ok.injEq] at h
      subst h
      rw [Exclusions.mem_union, Exclusions.mem_ofNames, Exclusions.mem_ofText, ← and_or_left]
      simp [read]

namespace Disk

variable {d e : Disk} {s : Settings} {target p : Path} {above dir names place : List String}
  {draft name : String} {exclusions : Exclusions}

/-- The manifest of what the roots of the settings declare. -/
def manifest (d : Disk) (s : Settings) (exclusions : Exclusions) : Manifest :=
  .ofNames ((scannedTypes (d.scan s.scan.filter s.scan.roots)).map (·.name)) exclusions

/-- A run gives this manifest, and its script is what lies at the place of the target. -/
structure Writes (d : Disk) (s : Settings) (target : Path) (m : Manifest) : Prop where
  manifest : (d.preload s target).2 = .ok m
  artifact : ∃ dir name, (d.prepared target).Places target dir name ∧
    (d.preload s target).1.node? (dir ++ [name]) =
      some (.file (Utf8.encode (m.script s.preload.autoload)) d.now)
  read : (∀ q, (d.prepared target).get false target ≠ .ok (.link q)) →
    (d.preload s target).1.read target = .ok (Utf8.encode (m.script s.preload.autoload))

theorem preload_eq (h : d.Writable target above draft dir name)
    (excluded : s.preload.exclusions d = .ok exclusions) :
    d.preload s target =
      (((d.prepared target).erase (above ++ [draft])).put (dir ++ [name])
        (.file (Utf8.encode ((d.manifest s exclusions).script s.preload.autoload)) d.now),
        .ok (d.manifest s exclusions)) := by
  have replaced := h.replaceFile (Utf8.encode ((d.manifest s exclusions).script s.preload.autoload))
  rw [prepared_now] at replaced
  rw [preload, excluded]
  simp only [writeArtifact]
  rw [show Manifest.ofNames ((scannedTypes (d.scan s.scan.filter s.scan.roots)).map (·.name))
    exclusions = d.manifest s exclusions from rfl, replaced]
  rfl

/-- A run writes its script where the target can be written. -/
theorem Writable.writes (h : d.Writable target above draft dir name)
    (excluded : s.preload.exclusions d = .ok exclusions) :
    d.Writes s target (d.manifest s exclusions) := by
  have replaced := h.replaced
    (Utf8.encode ((d.manifest s exclusions).script s.preload.autoload))
  rw [h.replaceFile, prepared_now] at replaced
  refine ⟨by rw [preload_eq h excluded], ⟨dir, name, h.placed, ?_⟩, fun no_link ↦ ?_⟩
  · rw [preload_eq h excluded]
    exact replaced.artifact
  · rw [preload_eq h excluded]
    exact replaced.read_of_no_link no_link

/-! ## Disks on which a run succeeds -/

/-- The tree is one that a file system can hold, the exclusion file can be read and the target
written. -/
structure Ready (d : Disk) (s : Settings) (target : Path) : Prop where
  wellFormed : d.root.WellFormed
  settled : d.Settled
  readable : ∃ exclusions, s.preload.exclusions d = .ok exclusions
  writable : ∃ content, (d.replaceFile target content).2 = .ok ()
  /-- The draft is not written through a link. -/
  no_link : ∀ q, (d.prepared target).get false (draftPath target) ≠ .ok (.link q)

theorem Ready.writes (h : d.Ready s target) (excluded : s.preload.exclusions d = .ok exclusions) :
    d.Writes s target (d.manifest s exclusions) := by
  obtain ⟨content, written⟩ := h.writable
  obtain ⟨above, draft, dir, name, writable⟩ := exists_writable written h.no_link
  exact writable.writes excluded

/-- A target that can be written in one place can be written by a run. -/
theorem Writable.ready (h : d.Writable target above draft dir name) (wf : d.root.WellFormed)
    (settled : d.Settled) (excluded : s.preload.exclusions d = .ok exclusions) :
    d.Ready s target :=
  ⟨wf, settled, ⟨exclusions, excluded⟩, ⟨[], by rw [h.replaceFile]⟩, h.no_link⟩

/-! ## What does not matter -/

/-- A file is read as before where neither it nor the way to it changed. -/
theorem AgreeOff.read (agree : AgreeOff place d e) (deadEnd : d.DeadEnd place)
    (away : ∀ names, d.locate true p = .ok names → names ≠ place ∧ ¬d.Leads place (.node names))
    {content : List UInt8} (read : d.read p = .ok content) : e.read p = .ok content := by
  obtain ⟨names, t, located, shape⟩ := read_eq_ok_iff.mp read
  obtain ⟨other, off⟩ := away names located
  obtain ⟨legal, count, enough, reaches⟩ := locate_eq_ok_iff.mp located
  refine read_eq_ok_iff.mpr ⟨names, t, locate_eq_ok_iff.mpr ⟨legal, count, enough, ?_⟩, ?_⟩
  · rw [start, agree.workingDir]
    obtain same | same | ⟨-, leads⟩ := reaches.of_agreeOff agree deadEnd
    · exact same
    · exact absurd same other
    · exact absurd leads off
  · rw [agree.shape names other, shape]

/-- The exclusions depend on the content of the exclusion file. -/
theorem exclusions_congr (h : s.preload.exclusions d = .ok exclusions)
    (same : ∀ p, s.preload.excludeFile = some p → ∀ content,
      d.read p = .ok content → e.read p = .ok content) :
    s.preload.exclusions e = .ok exclusions := by
  rw [PreloadSettings.exclusions] at h ⊢
  cases file : s.preload.excludeFile with
  | none =>
    rw [file] at h
    exact h
  | some p =>
    rw [file] at h
    cases read : d.read p with
    | error e => simp [loadExclusions, readText, read, Except.map] at h
    | ok content =>
      simp only [loadExclusions, readText, read] at h
      simp only [loadExclusions, readText, same p file content read]
      exact h

/-- The manifest depends on what is found below the roots. -/
theorem manifest_congr (h : ∀ root ∈ s.scan.roots,
    e.typesUnder s.scan.filter root = d.typesUnder s.scan.filter root) :
    e.manifest s exclusions = d.manifest s exclusions := by
  rw [manifest, manifest, scannedTypes_scan, scannedTypes_scan, flatMap_walkAll, flatMap_walkAll,
    List.flatMap_congr h]

/-! ## Files that cannot be scanned -/

/-- Scanning the file fails under every path that leads to it. -/
structure Faulty (d : Disk) (names : List String) : Prop where
  isFile : ∃ content t, d.node? names = some (.file content t)
  fails : ∀ p, d.locate true p = .ok names → ∀ scanned, d.scanFile p ≠ .ok scanned

/-- A file with a content that cannot be parsed. -/
theorem faulty_of_refused (settled : d.Settled) {content : List UInt8} {t : Timestamp}
    {cause : Source.ParseError} (found : d.node? names = some (.file content t))
    (refused : Source.Statement.ofSource content = .error cause) : d.Faulty names := by
  refine ⟨⟨content, t, found⟩, fun p located scanned ok ↦ ?_⟩
  have shape : d.shape? names = some (.file content t) := by rw [shape?, found]; rfl
  rw [scanFile] at ok
  cases file : d.sourceFile p with
  | error e => simp [file, Except.mapError, bind, Except.bind] at ok
  | ok source =>
    have path : source.path = absolute names := by
      simp only [sourceFile, canonicalize, located, Except.map] at file
      split at file
      · cases file
      · cases file
        rfl
    cases read : d.read source.path with
    | error e => simp [file, read, Except.mapError, bind, Except.bind] at ok
    | ok bytes =>
      obtain ⟨again, t', located', shape'⟩ := read_eq_ok_iff.mp read
      rw [path] at located'
      cases locate_absolute (isName_of_locate settled located) (solid_of_locate located) located'
      cases shape.symm.trans shape'
      simp [file, read, refused, Except.mapError, bind, Except.bind] at ok

theorem Faulty.shape (faulty : d.Faulty names) :
    ∃ content t, d.shape? names = some (.file content t) := by
  obtain ⟨content, t, found⟩ := faulty.isFile
  exact ⟨content, t, by rw [shape?, found]; rfl⟩

theorem Faulty.silent (faulty : d.Faulty names) (wf : d.root.WellFormed) (full : names ≠ [])
    {node : Node} (found : d.node? names = some node) (filter : SourceFilter) :
    filter.Silent names node := by
  obtain ⟨content, t, file⟩ := faulty.isFile
  obtain ⟨_, _, shape⟩ := faulty.shape
  cases file.symm.trans found
  intro p
  rw [SourceFilter.typesAt]
  split
  · rename_i accepted
    obtain ⟨-, readable⟩ := accepted
    have isName := wf.isName file
    have solid : d.Solid names := ⟨_, shape, id⟩
    have root_dir : d.shape? [] = some .dir :=
      shape?_of_append (by rw [List.nil_append, shape]; simp) full
    have located :=
      (locate_absolute_iff root_dir isName solid).mpr ⟨readable.canonical, readable.short⟩
    have direct : d.locate false (absolute names) = .ok names := by
      refine locate_eq_ok_iff.mpr ⟨readable.canonical, 0, Nat.zero_le _, ?_⟩
      rw [start, if_pos (isAbsolute_absolute names), steps_absolute full isName]
      exact reaches_names isName readable.short solid
    have enters : d.Enters (absolute names) names := ⟨located, .inr direct⟩
    have scanned := typesOf_scanFile enters.way root_dir
      (enters.plain (by rw [shape]; simp)) isName file
    rw [if_pos ⟨readable.canonical, readable.canonical, readable.short⟩] at scanned
    rw [← scanned]
    cases result : d.scanFile (absolute names) with
    | error e => rfl
    | ok other => exact absurd result (faulty.fails _ located other)
  · rfl

/-- Taking the file away changes nothing about what is found. -/
theorem Faulty.manifest_erase (faulty : d.Faulty names) (wf : d.root.WellFormed)
    (settled : d.Settled) : (d.erase names).manifest s exclusions = d.manifest s exclusions := by
  obtain ⟨content, t, shape⟩ := faulty.shape
  obtain rfl | ⟨above, name, rfl⟩ := List.eq_nil_or_concat names
  · obtain ⟨content, t, root⟩ := faulty.isFile
    have root : d.root = .file content t := by simpa [node?] using root
    have same : d.erase [] = d := by
      obtain ⟨_, workingDir, now⟩ := d
      cases root
      rfl
    rw [same]
  · rw [List.concat_eq_append] at *
    have dir : d.shape? above = some .dir := shape?_of_append (by rw [shape]; simp) (by simp)
    have not_dir : d.shape? (above ++ [name]) ≠ some .dir := by simp [shape]
    have gone : (d.erase (above ++ [name])).shape? (above ++ [name]) = none := shape?_erase_self dir
    have retains : Retains s.scan.filter (above ++ [name]) d (d.erase (above ++ [name])) :=
      retains_erase wf dir (cleared_of_not_dir not_dir)
        fun node found ↦ faulty.silent wf (by simp) found _
    refine manifest_congr fun root _ ↦ retains.typesUnder_eq wf (wf.erase name above) settled
      (deadEnd_of_not_link not_dir (by simp [shape]))
      (deadEnd_of_not_link (by simp [gone]) (by simp [gone]))
      (fun node found ↦ faulty.silent wf (by simp) found _) (fun node found ↦ ?_) root
    rw [shape?, found] at gone
    cases gone

/-- The exclusion file is another one if it can be read without the file. -/
theorem Faulty.exclusions_erase (faulty : d.Faulty names)
    (h : s.preload.exclusions (d.erase names) = .ok exclusions) :
    s.preload.exclusions d = .ok exclusions := by
  obtain ⟨content, t, shape⟩ := faulty.shape
  obtain rfl | ⟨above, name, rfl⟩ := List.eq_nil_or_concat names
  · obtain ⟨content, t, root⟩ := faulty.isFile
    have root : d.root = .file content t := by simpa [node?] using root
    obtain ⟨_, workingDir, now⟩ := d
    cases root
    exact h
  · rw [List.concat_eq_append] at *
    have dir : d.shape? above = some .dir := shape?_of_append (by rw [shape]; simp) (by simp)
    have gone : (d.erase (above ++ [name])).shape? (above ++ [name]) = none := shape?_erase_self dir
    have not_dir : d.shape? (above ++ [name]) ≠ some .dir := by simp [shape]
    have agree := (agreeOff_erase dir (cleared_of_not_dir not_dir)).symm
    refine exclusions_congr h fun p _ _ ↦ agree.read
      (deadEnd_of_not_link (by simp [gone]) (by simp [gone])) fun names located ↦ ⟨?_, ?_⟩
    · rintro rfl
      obtain ⟨_, there, -⟩ := solid_of_locate located
      rw [gone] at there
      cases there
    · rintro ⟨_, _, _, _, -, link, -⟩
      rw [gone] at link
      cases link

end Disk

end ScriptCache
