import ScriptCache.Proofs.Disk.Canonical
import ScriptCache.Proofs.Disk.Tree

/-!
# Disks that differ in one place

Where no path goes on from a place, a change of it concerns the paths that end there and no others.
-/

namespace ScriptCache.Disk

variable {d e : Disk} {follow : Bool} {here todo place above : List String} {name : String}
  {p : Path}

/-- The disks look alike but for one place. -/
structure AgreeOff (place : List String) (d e : Disk) : Prop where
  workingDir : e.workingDir = d.workingDir
  shape : ∀ names ≠ place, e.shape? names = d.shape? names

theorem AgreeOff.symm (h : AgreeOff place d e) : AgreeOff place e d :=
  ⟨h.workingDir.symm, fun names other ↦ (h.shape names other).symm⟩

theorem AgreeOff.trans {f : Disk} (h : AgreeOff place d e) (h' : AgreeOff place e f) :
    AgreeOff place d f :=
  ⟨h'.workingDir.trans h.workingDir,
    fun names other ↦ (h'.shape names other).trans (h.shape names other)⟩

/-- A change of one place is the same after a change of another one. -/
theorem AgreeOff.beside {d' e' : Disk} {other : List String} (h : AgreeOff place d e)
    (before : AgreeOff other d d') (after : AgreeOff other e e')
    (same : e'.shape? other = d'.shape? other) : AgreeOff place d' e' where
  workingDir := by rw [after.workingDir, h.workingDir, before.workingDir]
  shape names off := by
    by_cases at_other : names = other
    · rw [at_other, same]
    · rw [after.shape names at_other, h.shape names off, before.shape names at_other]

/-- Nothing is below a place that holds a node without children, or nothing. -/
def Cleared (d : Disk) (place : List String) : Prop :=
  ∀ node, d.node? place = some node → node.Childless

theorem cleared_of_not_dir (h : d.shape? place ≠ some .dir) : d.Cleared place := by
  intro node found
  cases node with
  | file | link => rfl
  | dir entries t => exact absurd (shape?_eq_dir_iff.mpr ⟨entries, t, found⟩) h

section Change

variable {entries : Node.Entries} {t : Timestamp}

theorem Cleared.childless (cleared : d.Cleared (above ++ [name]))
    (at_above : d.node? above = some (.dir entries t)) :
    ∀ child, entries.lookup name = some child → child.Childless := fun child looked ↦
  cleared child ((Node.lookup_of_at? at_above name).trans looked)

theorem agreeOff_put (dir : d.shape? above = some .dir) {node : Node} (bare : node.Childless)
    (cleared : d.Cleared (above ++ [name])) :
    AgreeOff (above ++ [name]) d (d.put (above ++ [name]) node) := by
  obtain ⟨entries, t, at_above⟩ := shape?_eq_dir_iff.mp dir
  refine ⟨rfl, fun names other ↦ ?_⟩
  rw [shape?, node?, put, Node.put_eq_alter]
  exact Node.shape_at?_alter at_above
    (Node.altersOnly_place bare (cleared.childless at_above)) other

theorem node?_put_self (dir : d.shape? above = some .dir) (node : Node) :
    (d.put (above ++ [name]) node).node? (above ++ [name]) = some node := by
  obtain ⟨entries, t, at_above⟩ := shape?_eq_dir_iff.mp dir
  exact Node.at?_put_self at_above name

theorem shape?_put_self (dir : d.shape? above = some .dir) (node : Node) :
    (d.put (above ++ [name]) node).shape? (above ++ [name]) = some node.shape :=
  congrArg (·.map Node.shape) (node?_put_self dir node)

theorem agreeOff_erase (dir : d.shape? above = some .dir) (cleared : d.Cleared (above ++ [name])) :
    AgreeOff (above ++ [name]) d (d.erase (above ++ [name])) := by
  obtain ⟨entries, t, at_above⟩ := shape?_eq_dir_iff.mp dir
  refine ⟨rfl, fun names other ↦ ?_⟩
  rw [shape?, node?, erase, Node.erase_eq_alter]
  exact Node.shape_at?_alter at_above (Node.altersOnly_filter (cleared.childless at_above)) other

theorem shape?_erase_self (dir : d.shape? above = some .dir) :
    (d.erase (above ++ [name])).shape? (above ++ [name]) = none := by
  obtain ⟨entries, t, at_above⟩ := shape?_eq_dir_iff.mp dir
  exact congrArg (·.map Node.shape) (Node.at?_erase_self at_above name)

end Change

/-- Where something was found, or could be made. -/
def Found.names : Found → List String
  | .node names => names
  | .vacant dir name => dir ++ [name]

/-- What the link at a place leads to. -/
def Leads (d : Disk) (place : List String) (found : Found) : Prop :=
  ∃ above name target count, place = above ++ [name] ∧ d.shape? place = some (.link target) ∧
    d.Reaches true above [name] found count

/-- No path goes on from the place. -/
structure DeadEnd (d : Disk) (place : List String) : Prop where
  not_dir : d.shape? place ≠ some .dir
  leads : ∀ dir, d.Leads place (.node dir) → d.shape? dir ≠ some .dir

theorem deadEnd_of_not_link (not_dir : d.shape? place ≠ some .dir)
    (not_link : ∀ target, d.shape? place ≠ some (.link target)) : d.DeadEnd place :=
  ⟨not_dir, fun _ ⟨_, _, target, _, _, link, _⟩ ↦ absurd link (not_link target)⟩

theorem LooksUp.of_agreeOff {step : String} {child : Option Node.Shape}
    (h : d.LooksUp here step child) (agree : AgreeOff place d e)
    (not_dir : d.shape? place ≠ some .dir) (other : here ++ [step] ≠ place) :
    e.LooksUp here step child := by
  have here_other : here ≠ place := by
    rintro rfl
    exact not_dir h.dir
  exact ⟨by rw [agree.shape _ here_other, h.dir], h.ne_dot, h.ne_dots, h.short,
    by rw [agree.shape _ other, h.child]⟩

/-- A path leads to the same on both disks, unless it ends at the place or at what the place leads
to. -/
theorem Reaches.of_agreeOff {found : Found} {count : Nat}
    (h : d.Reaches follow here todo found count) (agree : AgreeOff place d e)
    (deadEnd : d.DeadEnd place) :
    e.Reaches follow here todo found count ∨ found.names = place ∨
      (follow ∧ d.Leads place found) := by
  have dir_other {here : List String} (dir : d.shape? here = some .dir) :
      e.shape? here = some .dir := by
    rw [agree.shape _ fun eq ↦ deadEnd.not_dir (eq ▸ dir), dir]
  induction h with
  | here => exact .inl (.here _)
  | stay dir _ ih => exact ih.imp_left (.stay (dir_other dir))
  | up dir _ ih => exact ih.imp_left (.up (dir_other dir))
  | @enter here todo step shape found count looksUp notLink rest ih =>
    by_cases same : here ++ [step] = place
    · cases rest with
      | here => exact .inr (.inl same)
      | stay dir | up dir => exact absurd (same ▸ dir) deadEnd.not_dir
      | enter l | through l | link l | vacant l => exact absurd (same ▸ l.dir) deadEnd.not_dir
    · exact ih.imp_left (.enter (looksUp.of_agreeOff agree deadEnd.not_dir same) notLink)
  | @through here todo step target found count looksUp on rest ih =>
    by_cases same : here ++ [step] = place
    · have child := same ▸ looksUp.child
      by_cases empty : todo = []
      · subst empty
        have follow_on := on.resolve_left (by simp)
        refine .inr (.inr ⟨follow_on, here, step, target, count + 1, same.symm, child, ?_⟩)
        rw [follow_on] at rest
        exact .through looksUp (.inr rfl) rest
      · obtain ⟨middle, first, second, before, after, -⟩ := rest.split empty
        have leads : d.Leads place (.node middle) :=
          ⟨here, step, target, first + 1, same.symm, child,
            .through looksUp (.inr rfl) (by simpa using before)⟩
        exact absurd (after.dir empty) (deadEnd.leads middle leads)
    · exact ih.imp_left (.through (looksUp.of_agreeOff agree deadEnd.not_dir same) on)
  | @link here step target looksUp last =>
    by_cases same : here ++ [step] = place
    · exact .inr (.inl same)
    · exact .inl (.link (looksUp.of_agreeOff agree deadEnd.not_dir same) last)
  | @vacant here step looksUp =>
    by_cases same : here ++ [step] = place
    · exact .inr (.inl same)
    · exact .inl (.vacant (looksUp.of_agreeOff agree deadEnd.not_dir same))

end ScriptCache.Disk
