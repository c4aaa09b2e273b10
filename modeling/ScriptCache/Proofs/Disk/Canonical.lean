import ScriptCache.Disk.SourceFile
import ScriptCache.Proofs.Disk.Reaches

/-!
# Canonical paths

The canonical path of a node is its own canonical path, so that files are found again under the
name that the cache gives them.
-/

namespace ScriptCache

namespace Disk

open ScriptCache.Path (IsName)

variable {d : Disk} {follow : Bool} {p q : Path} {names : List String}

/-- A path that the file system follows at all. -/
structure Legal (p : Path) : Prop where
  no_zero : p.contains '\x00' = false
  ne_empty : p ≠ ""
  short : p.utf8ByteSize ≤ pathLimit

theorem Legal.of_append {rest : String} (h : Legal (p ++ rest)) (full : p ≠ "") : Legal p := by
  obtain ⟨no_zero, -, short⟩ := h
  rw [String.contains_char_eq, String.toList_append] at no_zero
  rw [String.utf8ByteSize_append] at short
  refine ⟨?_, full, by omega⟩
  rw [String.contains_char_eq, decide_eq_false_iff_not]
  exact fun mem ↦ of_decide_eq_false no_zero (List.mem_append_left _ mem)

/-- The directory that a path starts in. -/
def start (d : Disk) (p : Path) : List String := if p.isAbsolute then [] else d.workingDir

theorem find_eq_ok_iff {found : Found} :
    d.find follow p = .ok found ↔
      Legal p ∧ d.descend follow linkLimit (d.start p) (steps p) = .ok found := by
  unfold find
  split
  · rename_i zero
    exact ⟨nofun, fun ⟨legal, _⟩ ↦ absurd zero (Bool.eq_false_iff.mp legal.no_zero)⟩
  · split
    · rename_i empty
      exact ⟨nofun, fun ⟨legal, _⟩ ↦ absurd (String.isEmpty_iff.mp empty) legal.ne_empty⟩
    · split
      · rename_i long
        exact ⟨nofun, fun ⟨legal, _⟩ ↦ absurd legal.short (Nat.not_le.mpr long)⟩
      · rename_i zero full short
        exact ⟨fun h ↦ ⟨⟨Bool.eq_false_iff.mpr zero, fun empty ↦ full (by simp [empty]),
          Nat.not_lt.mp short⟩, h⟩, And.right⟩

theorem locate_eq_ok_iff :
    d.locate follow p = .ok names ↔
      Legal p ∧ ∃ count ≤ linkLimit, d.Reaches follow (d.start p) (steps p) (.node names) count := by
  rw [← descend_eq_ok_iff, ← find_eq_ok_iff, locate]
  rcases d.find follow p with _ | ⟨_ | _⟩ <;> simp

theorem find_of_locate (located : d.locate follow p = .ok names) :
    d.find follow p = .ok (.node names) := by
  rw [locate] at located
  rcases found : d.find follow p with e | (_ | _) <;> simp_all

theorem locate_mono {e : Disk} (workingDir : e.workingDir = d.workingDir)
    (more : ∀ names shape, d.shape? names = some shape → e.shape? names = some shape)
    (located : d.locate follow p = .ok names) : e.locate follow p = .ok names := by
  rw [locate_eq_ok_iff] at located ⊢
  obtain ⟨legal, count, enough, reaches⟩ := located
  refine ⟨legal, count, enough, ?_⟩
  rw [start, workingDir]
  exact reaches.mono more

theorem get_eq_ok_iff {node : Node} :
    d.get follow p = .ok node ↔
      ∃ names, d.locate follow p = .ok names ∧ d.node? names = some node := by
  unfold get
  cases d.locate follow p with
  | error e => simp
  | ok names => cases h : d.node? names <;> simp [h]

theorem canonicalize_eq_ok_iff :
    d.canonicalize p = .ok q ↔ ∃ names, d.locate true p = .ok names ∧ absolute names = q := by
  rw [canonicalize]
  cases d.locate true p <;> simp [Except.map]

theorem stat_eq_file_iff {content : List UInt8} {t : Timestamp} :
    d.stat p = .ok (.file content t) ↔
      ∃ names, d.locate true p = .ok names ∧ d.shape? names = some (.file content t) := by
  simp only [shape?_eq_file_iff]
  exact get_eq_ok_iff

theorem read_eq_ok_iff_stat {content : List UInt8} :
    d.read p = .ok content ↔ ∃ t, d.stat p = .ok (.file content t) := by
  rw [read]
  rcases d.stat p with e | (_ | _ | _) <;> simp

theorem read_eq_ok_iff {content : List UInt8} :
    d.read p = .ok content ↔
      ∃ names t, d.locate true p = .ok names ∧ d.shape? names = some (.file content t) := by
  simp only [read_eq_ok_iff_stat, stat_eq_file_iff]
  exact exists_comm

theorem sourceFile_eq_ok_iff {file : SourceFile} :
    d.sourceFile p = .ok file ↔ d.canonicalize p = .ok file.path ∧
      ∃ node, d.stat file.path = .ok node ∧ node.mtime.recorded = file.mtime := by
  rw [sourceFile]
  cases d.canonicalize p with
  | error e => simp
  | ok canonical =>
    obtain ⟨path, mtime⟩ := file
    dsimp only
    cases stat : d.stat canonical with
    | error e =>
      simp only [reduceCtorEq, Except.ok.injEq, false_iff]
      rintro ⟨rfl, node, stat', -⟩
      cases stat.symm.trans stat'
    | ok node =>
      simp only [Except.ok.injEq, SourceFile.mk.injEq]
      constructor
      · rintro ⟨rfl, rfl⟩
        exact ⟨rfl, node, stat, rfl⟩
      · rintro ⟨rfl, node', stat', rfl⟩
        cases stat.symm.trans stat'
        exact ⟨rfl, rfl⟩

/-- A path leads to the same when a link at its end is not followed, or it ends at a link. -/
theorem locate_false_or_link (located : d.locate true p = .ok names) :
    d.locate false p = .ok names ∨ ∃ target, d.get false p = .ok (.link target) := by
  obtain ⟨legal, count, enough, reaches⟩ := locate_eq_ok_iff.mp located
  rcases reaches.unfollow with same | ⟨last, target, less, same, link, le⟩
  · exact .inl (locate_eq_ok_iff.mpr ⟨legal, count, enough, same⟩)
  · right
    have located := locate_eq_ok_iff.mpr ⟨legal, less, Nat.le_trans le enough, same⟩
    obtain ⟨node, found, shape⟩ := Option.map_eq_some_iff.mp link
    cases node with
    | file | dir => cases shape
    | link target => exact ⟨target, get_eq_ok_iff.mpr ⟨last, located, found⟩⟩

/-- Paths of the working directory have the form of all others. -/
def Settled (d : Disk) : Prop := ∀ name ∈ d.workingDir, IsName name

theorem solid_of_locate (h : d.locate true p = .ok names) : d.Solid names := by
  obtain ⟨legal, count, -, reaches⟩ := locate_eq_ok_iff.mp h
  exact reaches.solid fun none ↦ absurd none (steps_ne_nil legal.ne_empty)

theorem isName_of_locate (settled : d.Settled) (h : d.locate follow p = .ok names) :
    ∀ name ∈ names, IsName name := by
  obtain ⟨-, count, -, reaches⟩ := locate_eq_ok_iff.mp h
  refine reaches.isName (areSteps_steps p) ?_
  unfold start
  split
  · simp
  · exact settled

/-- The path of a node leads to that node, when it leads anywhere. -/
theorem locate_absolute (names_names : ∀ name ∈ names, IsName name) (solid : d.Solid names)
    {found : List String} (h : d.locate true (absolute names) = .ok found) : found = names := by
  obtain ⟨-, count, -, reaches⟩ := locate_eq_ok_iff.mp h
  rw [start, if_pos (isAbsolute_absolute names)] at reaches
  by_cases empty : names = []
  · subst empty
    rw [steps_absolute_nil] at reaches
    cases reaches.of_stay
    rfl
  · rw [steps_absolute empty names_names] at reaches
    exact Found.node.inj (reaches.eq_append names_names solid)

/-- The cache finds a file again under the path that it knows the file by. -/
theorem sourceFile_path (settled : d.Settled) {file : SourceFile} (h : d.sourceFile p = .ok file) :
    d.sourceFile file.path = .ok file := by
  unfold sourceFile canonicalize at h
  cases located : d.locate true p with
  | error e => simp [located, Except.map] at h
  | ok names =>
    simp only [located, Except.map] at h
    cases stat : d.stat (absolute names) with
    | error e => simp [stat] at h
    | ok node =>
      simp only [stat, Except.ok.injEq] at h
      subst h
      obtain ⟨found, again, -⟩ := get_eq_ok_iff.mp stat
      have same := locate_absolute (isName_of_locate settled located) (solid_of_locate located) again
      subst same
      simp [sourceFile, canonicalize, again, Except.map, stat]

end Disk

end ScriptCache
