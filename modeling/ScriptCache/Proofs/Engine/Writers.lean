import Mathlib.Logic.Function.Basic
import Mathlib.Logic.Relation
import ScriptCache.Proofs.Disk.Overwrite
import ScriptCache.Proofs.Watch.Local

/-!
# Writers beside a compilation

To compile a file the cache looks at it, reads it, parses it and records it, and writers may come in
between. The time that it records is from before it read the file. Hence whatever is written after
that is newer than the record, as long as every write makes the file newer.
-/

namespace ScriptCache

open Source (Statement)
open Disk (Overwritten)

/-- How far the compilation of a file has come. -/
inductive Stage where
  | asked (p : Path)
  | found (file : SourceFile)
  | read (file : SourceFile) (content : List UInt8)
  | parsed (file : SourceFile) (content : List UInt8)
  | done (verdict : Except String Unit)

/-- What the compilation comes to in one step, on a disk as it is then. -/
def Stage.next (d : Disk) : Stage → Stage
  | .asked p =>
    match d.sourceFile p with
    | .ok file => .found file
    | .error e => .done (.error e.message)
  | .found file =>
    match d.read file.path with
    | .ok content => .read file content
    | .error e => .done (.error e.message)
  | .read file content =>
    match Statement.ofSource content with
    | .ok _ => .parsed file content
    | .error e => .done (.error ("syntax error, " ++ e.message))
  | .parsed _ _ => .done (.ok ())
  | .done verdict => .done verdict

/-- A disk and a cache at some time, with what was last compiled for each script. -/
structure Moment where
  disk : Disk
  cache : Memory
  stage : Stage
  compiled : Path → Option (List UInt8)

namespace Moment

def start (d : Disk) (c : Memory) : Moment := ⟨d, c, .done (.ok ()), fun _ ↦ none⟩

/-- The compilation takes its next step. Only the last one changes the cache. -/
def advance (s : Moment) : Moment :=
  match s.stage with
  | .parsed file content =>
    { s with
      cache := s.cache.record file.path file.mtime
      stage := .done (.ok ())
      compiled := Function.update s.compiled file.path (some content) }
  | stage => { s with stage := stage.next s.disk }

/-- What can happen next. Writes make their files newer, in seconds from the epoch on. -/
inductive Step : Moment → Moment → Prop where
  | ask {s : Moment} {verdict : Except String Unit} (idle : s.stage = .done verdict) (p : Path) :
      Step s { s with stage := .asked p }
  | advance (s : Moment) : Step s s.advance
  | write {s : Moment} {old : List UInt8} {t : Timestamp} (place : List String)
      (file : s.disk.node? place = some (.file old t)) (content : List UInt8) (now : Timestamp)
      (newer : t.recorded < now.recorded) :
      Step s { s with disk := { s.disk with now }.put place (.file content now) }

end Moment

/-- When nothing comes in between, four steps are the whole compilation. -/
theorem Moment.advance_alone (d : Disk) (c : Memory) (p : Path)
    (compiled : Path → Option (List UInt8)) :
    let s := Moment.advance^[4] ⟨d, c, .asked p, compiled⟩
    let run := (Memory.compile d p).run c
    s.disk = d ∧ s.stage = .done run.1 ∧ s.cache = run.2 := by
  simp only [Function.iterate_succ, Function.iterate_zero, Function.comp_apply, id_eq, advance,
    Stage.next, Memory.run_compile, Memory.attempted, Memory.check]
  cases looked : d.sourceFile p with
  | error e => exact ⟨rfl, rfl, rfl⟩
  | ok file =>
    cases read : d.read file.path with
    | error e => simp [read, Except.mapError, Except.map, bind, Except.bind]
    | ok content =>
      cases parsed : Statement.ofSource content with
      | error e => simp [read, parsed, Except.mapError, Except.map, bind, Except.bind]
      | ok statements =>
        simp [read, parsed, Except.mapError, Except.map, bind, Except.bind, pure, Except.pure]

namespace Disk

variable {d e : Disk} {k q : Path} {m : Int} {bytes content : List UInt8} {place : List String}
  {old new : List UInt8 × Timestamp}

/-- The time is one at which the file had these bytes, or an earlier one. -/
structure Dates (d : Disk) (k : Path) (m : Int) (bytes : List UInt8) : Prop where
  canonical : d.canonicalize k = .ok k
  file : ∃ content t, d.stat k = .ok (.file content t) ∧ m ≤ t.recorded ∧
    (bytes ≠ content → m < t.recorded)

theorem Dates.of_overwritten (h : d.Dates k m bytes) (written : Overwritten place old new d e)
    (newer : old.2.recorded < new.2.recorded) : e.Dates k m bytes := by
  obtain ⟨content, t, stat, early, earlier⟩ := h.file
  refine ⟨written.canonicalize h.canonical, ?_⟩
  rcases written.stat stat with same | ⟨rfl, changed⟩
  · exact ⟨content, t, same, early, earlier⟩
  · have late : m < new.2.recorded := lt_of_le_of_lt early newer
    exact ⟨new.1, new.2, changed, late.le, fun _ ↦ late⟩

/-- A file that no longer has these bytes is stale, by whatever path it is looked at. -/
theorem Dates.stale {entries : List DiskEntry} {r : Registry} {t : Timestamp}
    (h : d.Dates k m bytes) (recorded : r.get? k = some m) (stat : d.stat k = .ok (.file content t))
    (changed : bytes ≠ content) (canonical : d.canonicalize q = .ok k)
    (listed : d.probe q ∈ entries) : k ∈ staleOnDisk entries r := by
  obtain ⟨content', t', stat', -, earlier⟩ := h.file
  cases stat.symm.trans stat'
  have looked : d.sourceFile q = .ok ⟨k, t.recorded⟩ :=
    sourceFile_eq_ok_iff.mpr ⟨canonical, _, stat, rfl⟩
  rw [probe, looked] at listed
  refine List.mem_map.mpr ⟨_, List.mem_filter.mpr ⟨listed, ?_⟩, rfl⟩
  simpa [DiskEntry.isStale, recorded] using earlier changed

end Disk

/-- What has been seen of the file is from the time that is to be recorded, or newer. -/
def Stage.Sound (d : Disk) : Stage → Prop
  | .found file => d.canonicalize file.path = .ok file.path ∧
    ∀ content t, d.stat file.path = .ok (.file content t) → file.mtime ≤ t.recorded
  | .read file content | .parsed file content => d.Dates file.path file.mtime content
  | .asked _ | .done _ => True

theorem Stage.Sound.of_overwritten {d e : Disk} {stage : Stage} {place : List String}
    {old new : List UInt8 × Timestamp} (h : stage.Sound d) (written : Overwritten place old new d e)
    (newer : old.2.recorded < new.2.recorded) : stage.Sound e := by
  cases stage with
  | asked | done => trivial
  | read | parsed => exact Disk.Dates.of_overwritten h written newer
  | found file =>
    obtain ⟨canonical, early⟩ := h
    refine ⟨written.canonicalize canonical, ?_⟩
    intro content t stat
    rcases written.symm.stat stat with same | ⟨rfl, before⟩
    · exact early content t same
    · exact (early old.1 old.2 before).trans newer.le

/-- A file is looked at before it is read, so that it was as old as that when it was read. -/
theorem Stage.Sound.next {d : Disk} {stage : Stage} (settled : d.Settled) (h : stage.Sound d) :
    (stage.next d).Sound d := by
  cases stage with
  | parsed | done => trivial
  | asked p =>
    rw [Stage.next]
    split
    · rename_i file looked
      obtain ⟨canonical, node, stat, time⟩ :=
        Disk.sourceFile_eq_ok_iff.mp (Disk.sourceFile_path settled looked)
      refine ⟨canonical, ?_⟩
      intro content t stat'
      cases stat.symm.trans stat'
      exact time.ge
    · trivial
  | found file =>
    rw [Stage.next]
    split
    · rename_i content read
      obtain ⟨canonical, early⟩ := h
      obtain ⟨t, stat⟩ := Disk.read_eq_ok_iff_stat.mp read
      exact ⟨canonical, content, t, stat, early content t stat, fun other ↦ absurd rfl other⟩
    · trivial
  | read file content =>
    rw [Stage.next]
    split
    · exact h
    · trivial

namespace Moment

variable {s s' : Moment} {d : Disk} {c : Memory}

structure Invariant (s : Moment) : Prop where
  settled : s.disk.Settled
  dated : ∀ k bytes, s.compiled k = some bytes →
    ∃ m, s.cache.scripts.get? k = some m ∧ s.disk.Dates k m bytes
  sound : s.stage.Sound s.disk

theorem invariant_start (settled : d.Settled) (c : Memory) : (start d c).Invariant :=
  ⟨settled, nofun, trivial⟩

theorem Invariant.advance (h : s.Invariant) : s.advance.Invariant := by
  unfold Moment.advance
  split
  · rename_i file content parsed
    have sound : s.disk.Dates file.path file.mtime content := by
      have sound := h.sound
      rw [parsed] at sound
      exact sound
    refine ⟨h.settled, ?_, trivial⟩
    intro k bytes last
    dsimp only at last ⊢
    by_cases same : k = file.path
    · subst same
      rw [Function.update_self] at last
      cases last
      exact ⟨file.mtime, Registry.get?_record_self, sound⟩
    · rw [Function.update_of_ne same] at last
      obtain ⟨m, recorded, dates⟩ := h.dated k bytes last
      exact ⟨m, (Registry.get?_record_of_ne same).trans recorded, dates⟩
  · exact ⟨h.settled, h.dated, h.sound.next h.settled⟩

theorem Invariant.step (h : s.Invariant) (step : Step s s') : s'.Invariant := by
  cases step with
  | ask => exact ⟨h.settled, h.dated, trivial⟩
  | advance => exact h.advance
  | @write old t place file content now newer =>
    have written : Overwritten place (old, t) (content, now) s.disk
        ({ s.disk with now }.put place (.file content now)) :=
      let put := Disk.overwritten_put file (content, now)
      ⟨⟨put.agree.workingDir, put.agree.shape⟩, put.before, put.after⟩
    refine ⟨h.settled, ?_, h.sound.of_overwritten written newer⟩
    intro k bytes last
    obtain ⟨m, recorded, dates⟩ := h.dated k bytes last
    exact ⟨m, recorded, dates.of_overwritten written newer⟩

theorem Invariant.run (h : s.Invariant) (run : Relation.ReflTransGen Step s s') : s'.Invariant := by
  induction run with
  | refl => exact h
  | tail _ step ih => exact ih.step step

/-- To write to a path that leads to a file is such a step, when the clock has gone on. -/
theorem Step.of_write {p : Path} {content old : List UInt8} {t now : Timestamp}
    (stat : { s.disk with now }.stat p = .ok (.file old t)) (newer : t.recorded < now.recorded)
    (written : { s.disk with now }.write p content = .ok d) : Step s { s with disk := d } := by
  obtain ⟨place, file, rfl⟩ := Disk.write_of_stat stat written
  exact .write place file content now newer

end Moment

end ScriptCache
