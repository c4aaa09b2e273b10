import ScriptCache.Proofs.Disk.Parent

/-!
# Files that vanish

Where files were taken away and nothing else happened, a path leads where it led, or nowhere. A file
that is missing is known by the canonical path that it had.
-/

namespace ScriptCache.Disk

open ScriptCache.Path (IsName)

variable {d e f : Disk} {follow : Bool} {p q k : Path} {names above here todo : List String}
  {name : String} {content : List UInt8} {t : Timestamp}

/-- Nothing can be found under the path. -/
def Gone (d : Disk) (p : Path) : Prop := ∃ error, d.canonicalize p = .error error

/-- The first disk without some of its files. -/
structure Thinned (d e : Disk) : Prop where
  workingDir : e.workingDir = d.workingDir
  shape : ∀ names, e.shape? names = d.shape? names ∨
    e.shape? names = none ∧ ∃ content t, d.shape? names = some (.file content t)

namespace Thinned

theorem refl (d : Disk) : Thinned d d := ⟨rfl, fun _ ↦ .inl rfl⟩

theorem trans (h : Thinned d e) (h' : Thinned e f) : Thinned d f := by
  refine ⟨h'.workingDir.trans h.workingDir, fun names ↦ ?_⟩
  rcases h'.shape names with same | ⟨none, file⟩
  · rw [same]
    exact h.shape names
  · rcases h.shape names with same | ⟨gone, file'⟩
    · exact .inr ⟨none, same ▸ file⟩
    · exact .inr ⟨none, file'⟩

theorem less (h : Thinned d e) {shape : Node.Shape} (found : e.shape? names = some shape) :
    d.shape? names = some shape := by
  rcases h.shape names with same | ⟨none, -⟩
  · exact same ▸ found
  · rw [none] at found
    cases found

theorem keeps (h : Thinned d e) {shape : Node.Shape} (found : d.shape? names = some shape)
    (other : ∀ content t, shape ≠ .file content t) : e.shape? names = some shape := by
  rcases h.shape names with same | ⟨-, content, t, file⟩
  · exact same.trans found
  · exact absurd (Option.some.inj (found.symm.trans file)) (other content t)

theorem dir (h : Thinned d e) (found : d.shape? names = some .dir) : e.shape? names = some .dir :=
  h.keeps found nofun

theorem settled (h : Thinned d e) (settled : d.Settled) : e.Settled := by
  rwa [Settled, h.workingDir]

/-- What is left was there before. -/
theorem locate (h : Thinned d e) (located : e.locate follow p = .ok names) :
    d.locate follow p = .ok names :=
  locate_mono h.workingDir.symm (fun _ _ ↦ h.less) located

theorem gone (h : Thinned d e) (gone : d.Gone p) : e.Gone p := by
  obtain ⟨error, missing⟩ := gone
  cases found : e.canonicalize p with
  | error error => exact ⟨error, found⟩
  | ok k =>
    obtain ⟨names, located, same⟩ := canonicalize_eq_ok_iff.mp found
    cases missing.symm.trans (canonicalize_eq_ok_iff.mpr ⟨names, h.locate located, same⟩)

/-- A way to a directory is as it was. -/
theorem reaches (h : Thinned d e) {count : Nat} (dir : d.shape? names = some .dir)
    (reaches : d.Reaches follow here todo (.node names) count) :
    e.Reaches follow here todo (.node names) count := by
  generalize found_eq : Found.node names = found at reaches
  have looksUp {here : List String} {step : String} {shape : Node.Shape}
      (l : d.LooksUp here step (some shape)) (other : ∀ content t, shape ≠ .file content t) :
      e.LooksUp here step (some shape) :=
    ⟨h.dir l.dir, l.ne_dot, l.ne_dots, l.short, h.keeps l.child other⟩
  induction reaches with
  | here => exact .here _
  | stay at_dir _ ih => exact .stay (h.dir at_dir) (ih found_eq)
  | up at_dir _ ih => exact .up (h.dir at_dir) (ih found_eq)
  | @enter here todo step shape found count l notLink rest ih =>
    refine .enter (looksUp l fun content t file ↦ ?_) notLink (ih found_eq)
    -- there is no way on from a file
    subst file
    have at_file : d.shape? (here ++ [step]) = some .dir := by
      by_cases last : todo = []
      · subst last
        cases rest
        cases found_eq
        exact dir
      · exact rest.dir last
    rw [l.child] at at_file
    cases at_file
  | through l on _ ih => exact .through (looksUp l nofun) on (ih found_eq)
  | link l last => exact .link (looksUp l nofun) last
  | vacant => cases found_eq

theorem places (h : Thinned d e) (places : d.Places p above name) : e.Places p above name := by
  obtain ⟨legal, ⟨init, ends, count, enough, reaches⟩, short, isDir⟩ := places
  have start : e.start p = d.start p := by rw [Disk.start, Disk.start, h.workingDir]
  refine ⟨legal, ⟨init, ends, count, enough, ?_⟩, short, h.dir isDir⟩
  rw [start]
  exact h.reaches isDir reaches

end Thinned

theorem thinned_removeFile (file : d.get false q = .ok (.file content t))
    (removed : d.removeFile q = .ok e) : Thinned d e := by
  obtain ⟨names, located, found⟩ := get_eq_ok_iff.mp file
  have shape : d.shape? names = some (.file content t) := shape?_eq_file_iff.mpr found
  obtain ⟨above, name, places, rfl⟩ := exists_places_of_file located shape
  have same : d.erase (above ++ [name]) = e := by
    rw [removeFile, located] at removed
    simpa only [found, Except.ok.injEq] using removed
  subst same
  have not_dir : d.shape? (above ++ [name]) ≠ some .dir := by simp [shape]
  have agree := agreeOff_erase places.isDir (cleared_of_not_dir not_dir)
  refine ⟨rfl, fun other ↦ ?_⟩
  by_cases here : other = above ++ [name]
  · subst here
    exact .inr ⟨shape?_erase_self places.isDir, content, t, shape⟩
  · exact .inl (agree.shape other here)

/-- A file can be removed, and then nothing is found under its path. -/
theorem exists_removeFile (file : d.get false q = .ok (.file content t)) :
    ∃ e, d.removeFile q = .ok e ∧ e.Gone q := by
  obtain ⟨names, located, found⟩ := get_eq_ok_iff.mp file
  have shape : d.shape? names = some (.file content t) := shape?_eq_file_iff.mpr found
  obtain ⟨above, name, places, rfl⟩ := exists_places_of_file located shape
  have removed : d.removeFile q = .ok (d.erase (above ++ [name])) := by
    rw [removeFile, located]
    simp only [found]
  refine ⟨_, removed, .notFound, ?_⟩
  have places' := (thinned_removeFile file removed).places places
  rw [canonicalize, locate, places'.find_vacant (shape?_erase_self places.isDir)]
  rfl

/-- A missing file is known by the canonical path that it had. -/
theorem Thinned.probe_eq (h : Thinned d e) (settled : d.Settled)
    (file : d.get false p = .ok (.file content t)) (was : d.canonicalize p = .ok k)
    (gone : e.Gone p) (full : p.parent? ≠ some "") : e.probe p = .missing k := by
  obtain ⟨names, located, found⟩ := get_eq_ok_iff.mp file
  obtain ⟨above, name, places, rfl⟩ := exists_places_of_file located (shape?_eq_file_iff.mpr found)
  have followed : d.locate true p = .ok (above ++ [name]) :=
    places.locate_solid ((solid_iff_of_node found).mpr id)
  have path : absolute (above ++ [name]) = k := by
    rw [canonicalize, followed] at was
    exact Except.ok.inj was
  obtain ⟨error, missing⟩ := gone
  rw [probe, sourceFile, missing, (h.places places).missingName_eq (h.settled settled) full, path]

theorem gone_empty (d : Disk) : d.Gone "" := by
  cases found : d.canonicalize "" with
  | error error => exact ⟨error, found⟩
  | ok k =>
    obtain ⟨names, located, -⟩ := canonicalize_eq_ok_iff.mp found
    exact absurd rfl (locate_eq_ok_iff.mp located).1.ne_empty

/-- A missing file keeps a mere name. -/
theorem probe_eq_of_parent_empty (gone : d.Gone p) (mere : p.parent? = some "") :
    d.probe p = .missing p := by
  obtain ⟨error, missing⟩ := gone
  obtain ⟨error', none⟩ := d.gone_empty
  rw [probe, sourceFile, missing, missingName, mere]
  cases p.fileName? with
  | none => rfl
  | some name =>
    dsimp only
    rw [none]

end ScriptCache.Disk
