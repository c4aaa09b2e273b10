import ScriptCache.Disk.Change
import ScriptCache.Proofs.Disk.Agree

/-!
# New content for a file

No path goes on through a file. All paths lead to the same after a file has got new content.
-/

namespace ScriptCache.Disk

variable {d e : Disk} {follow : Bool} {here todo names place : List String} {step : String}
  {child : Option Node.Shape} {p k : Path} {content : List UInt8} {t : Timestamp}
  {old new : List UInt8 × Timestamp}

/-- The disks differ in the content and the time of one file. -/
structure Overwritten (place : List String) (old new : List UInt8 × Timestamp) (d e : Disk) :
    Prop where
  agree : AgreeOff place d e
  before : d.shape? place = some (.file old.1 old.2)
  after : e.shape? place = some (.file new.1 new.2)

namespace Overwritten

theorem symm (h : Overwritten place old new d e) : Overwritten place new old e d :=
  ⟨h.agree.symm, h.after, h.before⟩

variable (h : Overwritten place old new d e)
include h

theorem dir (dir : d.shape? here = some .dir) : e.shape? here = some .dir := by
  rw [h.agree.shape here, dir]
  rintro rfl
  cases h.before.symm.trans dir

theorem looksUp (found : d.LooksUp here step child) (other : here ++ [step] ≠ place) :
    e.LooksUp here step child := by
  apply found.of_agreeOff h.agree _ other
  rw [h.before]
  simp

theorem looksUp_self (found : d.LooksUp here step child) (same : here ++ [step] = place) :
    e.LooksUp here step (some (.file new.1 new.2)) :=
  ⟨h.dir found.dir, found.ne_dot, found.ne_dots, found.short, by rw [same, h.after]⟩

theorem reaches {found : Found} {count : Nat} (reaches : d.Reaches follow here todo found count) :
    e.Reaches follow here todo found count := by
  -- a file stands at the place, so that links and free names are elsewhere
  have other {here : List String} {step : String} {child : Option Node.Shape}
      (found : d.LooksUp here step child) (not_file : child ≠ some (.file old.1 old.2)) :
      here ++ [step] ≠ place := by
    rintro rfl
    exact not_file (found.child.symm.trans h.before)
  induction reaches with
  | here => exact .here _
  | stay dir _ ih => exact .stay (h.dir dir) ih
  | up dir _ ih => exact .up (h.dir dir) ih
  | @enter here todo step shape found count looksUp notLink rest ih =>
    by_cases same : here ++ [step] = place
    · exact .enter (h.looksUp_self looksUp same) (by simp [Node.Shape.IsLink]) ih
    · exact .enter (h.looksUp looksUp same) notLink ih
  | through looksUp on rest ih =>
    exact .through (h.looksUp looksUp (other looksUp (by simp))) on ih
  | link looksUp last => exact .link (h.looksUp looksUp (other looksUp (by simp))) last
  | vacant looksUp => exact .vacant (h.looksUp looksUp (other looksUp (by simp)))

theorem locate (located : d.locate follow p = .ok names) : e.locate follow p = .ok names := by
  obtain ⟨legal, count, enough, reaches⟩ := locate_eq_ok_iff.mp located
  have start : e.start p = d.start p := by rw [start, start, h.agree.workingDir]
  rw [locate_eq_ok_iff, start]
  exact ⟨legal, count, enough, h.reaches reaches⟩

theorem canonicalize (canonical : d.canonicalize p = .ok k) : e.canonicalize p = .ok k := by
  obtain ⟨names, located, rfl⟩ := canonicalize_eq_ok_iff.mp canonical
  exact canonicalize_eq_ok_iff.mpr ⟨names, h.locate located, rfl⟩

/-- A path to a file leads to the same file, or it is the one with the new content. -/
theorem stat (stat : d.stat p = .ok (.file content t)) :
    e.stat p = .ok (.file content t) ∨
      ((content, t) = old ∧ e.stat p = .ok (.file new.1 new.2)) := by
  obtain ⟨names, located, file⟩ := stat_eq_file_iff.mp stat
  by_cases same : names = place
  · subst same
    cases h.before.symm.trans file
    exact .inr ⟨rfl, stat_eq_file_iff.mpr ⟨names, h.locate located, h.after⟩⟩
  · left
    rw [← h.agree.shape names same] at file
    exact stat_eq_file_iff.mpr ⟨names, h.locate located, file⟩

end Overwritten

theorem overwritten_put (file : d.node? place = some (.file content t))
    (new : List UInt8 × Timestamp) :
    Overwritten place (content, t) new d (d.put place (.file new.1 new.2)) := by
  have before := shape?_eq_file_iff.mpr file
  rcases List.eq_nil_or_concat' place with rfl | ⟨above, name, rfl⟩
  · obtain ⟨root, workingDir, now⟩ := d
    cases (Node.at?_nil root).symm.trans file
    refine ⟨⟨rfl, fun names other ↦ ?_⟩, before, rfl⟩
    obtain ⟨step, names, rfl⟩ := List.exists_cons_of_ne_nil other
    rfl
  · have dir : d.shape? above = some .dir :=
      shape?_of_append (by rw [before]; simp) (List.cons_ne_nil name [])
    have cleared : d.Cleared (above ++ [name]) := cleared_of_not_dir (by rw [before]; simp)
    exact ⟨agreeOff_put dir rfl cleared, before, shape?_put_self dir _⟩

/-- To write to a path that leads to a file is to give this file new content. -/
theorem write_of_stat {bytes : List UInt8} (stat : d.stat p = .ok (.file content t))
    (written : d.write p bytes = .ok e) :
    ∃ place, d.node? place = some (.file content t) ∧ e = d.put place (.file bytes d.now) := by
  obtain ⟨place, located, file⟩ := get_eq_ok_iff.mp stat
  refine ⟨place, file, ?_⟩
  cases slash : p.endsWith "/" with
  | true =>
    -- with a slash at its end a path cannot be written to
    simp only [write, slash] at written
    split at written
    · cases written
    · cases written
    · simp at written
  | false =>
    simp only [write, slash, Bool.not_false, if_true, find_of_locate located, file] at written
    exact (Except.ok.inj written).symm

/-- A path to a free name leads to what is put there, unless that is a link. -/
theorem Reaches.filled {dir : List String} {name : String} {shape : Node.Shape} {count : Nat}
    (h : d.Reaches follow here todo (.vacant dir name) count)
    (agree : AgreeOff (dir ++ [name]) d e) (vacant : d.shape? (dir ++ [name]) = none)
    (filled : e.shape? (dir ++ [name]) = some shape) (notLink : ¬shape.IsLink) :
    e.Reaches follow here todo (.node (dir ++ [name])) count := by
  have there {names : List String} {shape : Node.Shape} (found : d.shape? names = some shape) :
      e.shape? names = some shape := by
    rw [agree.shape names, found]
    rintro rfl
    cases vacant.symm.trans found
  have looksUp {here : List String} {step : String} {shape : Node.Shape}
      (l : d.LooksUp here step (some shape)) : e.LooksUp here step (some shape) :=
    ⟨there l.dir, l.ne_dot, l.ne_dots, l.short, there l.child⟩
  generalize found_eq : Found.vacant dir name = found at h
  induction h with
  | here | link => cases found_eq
  | stay dir _ ih => exact .stay (there dir) (ih found_eq)
  | up dir _ ih => exact .up (there dir) (ih found_eq)
  | enter l notLink _ ih => exact .enter (looksUp l) notLink (ih found_eq)
  | through l on _ ih => exact .through (looksUp l) on (ih found_eq)
  | vacant l =>
    cases found_eq
    exact .enter ⟨there l.dir, l.ne_dot, l.ne_dots, l.short, filled⟩ notLink (.here _)

/-- What was written is read. -/
theorem read_of_write (written : d.write p content = .ok e) : e.read p = .ok content := by
  rw [read_eq_ok_iff]
  simp only [write] at written
  cases slash : p.endsWith "/" with
  | true =>
    simp only [slash] at written
    split at written
    · cases written
    · cases written
    · simp at written
  | false =>
    simp only [slash, Bool.not_false, if_true] at written
    split at written
    · cases written
    · rename_i dir name found
      cases written
      obtain ⟨legal, descended⟩ := find_eq_ok_iff.mp found
      obtain ⟨count, enough, reaches⟩ := reaches_of_descend descended
      obtain ⟨looksUp, -⟩ := reaches.vacant_looksUp (areSteps_steps p)
      have filled := @shape?_put_self d dir name looksUp.dir (.file content d.now)
      have agree : AgreeOff (dir ++ [name]) d (d.put (dir ++ [name]) (.file content d.now)) :=
        agreeOff_put looksUp.dir rfl (cleared_of_not_dir (by simp [looksUp.child]))
      have leads := reaches.filled agree looksUp.child filled
        (by simp [Node.shape, Node.Shape.IsLink])
      exact ⟨dir ++ [name], d.now, locate_eq_ok_iff.mpr ⟨legal, count, enough, leads⟩, filled⟩
    · rename_i names found
      split at written
      · rename_i t file
        cases written
        have located : d.locate true p = .ok names := by rw [locate, found]
        have overwritten := overwritten_put file (content, d.now)
        exact ⟨names, d.now, overwritten.locate located, overwritten.after⟩
      · cases written

end ScriptCache.Disk
