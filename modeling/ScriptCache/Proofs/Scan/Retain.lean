import ScriptCache.Proofs.Disk.Grow
import ScriptCache.Proofs.Scan

/-!
# Changes that a scan does not see

A scan finds the same types when a node that declares none comes, goes or is replaced at a place
that no path goes on from.
-/

namespace ScriptCache

open Source (DeclaredType)

namespace SourceFilter

variable {filter : SourceFilter} {node new : Node} {entries : Node.Entries} {name : String}
  {names above below : List String} {t : Timestamp}

/-- No type is found at the node. -/
def Silent (filter : SourceFilter) (names : List String) (node : Node) : Prop :=
  ∀ p, filter.typesAt p names node = []

theorem silent_link (target : Path) : filter.Silent names (.link target) := fun _ ↦ by
  rw [typesAt]

theorem silent_empty : filter.Silent names (.dir [] t) := fun _ ↦ by rw [typesAt, typesIn]

theorem silent_file {content : List UInt8} (none : contentTypes content = []) :
    filter.Silent names (.file content t) := fun _ ↦ by
  rw [typesAt, none, ite_self]

theorem Silent.typesOfEntry (silent : filter.Silent (names ++ [name]) node) (p : Path) :
    filter.typesOfEntry p names (name, node) = [] := by
  rw [SourceFilter.typesOfEntry]
  split
  · rfl
  · exact silent _

theorem flatMap_place {g : String × Node → List DeclaredType} (after : g (name, new) = [])
    (before : ∀ e ∈ entries, e.1 = name → g e = []) :
    (Sorted.place name new entries).flatMap g = entries.flatMap g := by
  induction entries with
  | nil => simp [Sorted.place, after]
  | cons e entries ih =>
    obtain ⟨first, others⟩ := List.forall_mem_cons.mp before
    rw [Sorted.place]
    split
    · rw [List.flatMap_cons, after, List.nil_append]
    · split
      · rename_i same
        rw [List.flatMap_cons, List.flatMap_cons, after, first same.symm]
      · rw [List.flatMap_cons, List.flatMap_cons, ih others]

theorem flatMap_filter {g : String × Node → List DeclaredType}
    (before : ∀ e ∈ entries, e.1 = name → g e = []) :
    (entries.filter (·.1 ≠ name)).flatMap g = entries.flatMap g := by
  induction entries with
  | nil => rfl
  | cons e entries ih =>
    obtain ⟨first, others⟩ := List.forall_mem_cons.mp before
    by_cases same : e.1 = name
    · rw [List.filter_cons_of_neg (by simp [same]), List.flatMap_cons, first same, ih others]
      rfl
    · rw [List.filter_cons_of_pos (by simp [same]), List.flatMap_cons, List.flatMap_cons, ih others]

theorem isDir_alter (f : Node.Entries → Node.Entries) (node : Node) (names : List String) :
    (node.alter f names).isDir = node.isDir := by
  cases node <;> cases names <;> rfl

/-- The types below a node stay when they stay below the directory that changes. -/
theorem typesAt_alter {f : Node.Entries → Node.Entries} (wf : node.WellFormed)
    (same : ∀ entries t, node.at? below = some (.dir entries t) →
      ∀ p, filter.typesIn p (names ++ below) (f entries) =
        filter.typesIn p (names ++ below) entries) (p : Path) :
    filter.typesAt p names (node.alter f below) = filter.typesAt p names node := by
  induction below generalizing node names p with
  | nil =>
    cases node with
    | file | link => rfl
    | dir entries t => simpa [Node.alter, typesAt] using same entries t (Node.at?_nil _) p
  | cons step below ih =>
    cases node with
    | file | link => rfl
    | dir entries t =>
      obtain - | - | ⟨_, sorted, -, nodes⟩ := wf
      rw [Node.alter, typesAt, typesAt, typesIn_eq, typesIn_eq, List.flatMap_map]
      refine List.flatMap_congr fun e mem ↦ ?_
      split
      · rename_i named
        have rest : filter.typesAt (p.join e.1) (names ++ [e.1]) (e.2.alter f below) =
            filter.typesAt (p.join e.1) (names ++ [e.1]) e.2 := by
          refine ih (nodes e mem) (fun entries t found ↦ ?_) _
          have on : names ++ [e.1] ++ below = names ++ step :: below := by simp [named]
          rw [on]
          refine same entries t ?_
          rw [Node.at?_cons, ← named, Sorted.lookup_of_mem sorted mem, Option.bind_some, found]
        simp only [typesOfEntry, isDir_alter, rest]
      · rfl

end SourceFilter

namespace Disk

variable {filter : SourceFilter} {d e : Disk} {place names above : List String} {name : String}
  {root : Path} {new : Node}

/-- The disks look alike but for one place, and so do the types in them. -/
structure Retains (filter : SourceFilter) (place : List String) (d e : Disk) : Prop where
  agree : AgreeOff place d e
  types : ∀ names ≠ place, ∀ node, d.node? names = some node →
    ∃ other, e.node? names = some other ∧
      ∀ p, filter.typesAt p names other = filter.typesAt p names node

section Change

variable {entries : Node.Entries} {t : Timestamp}

theorem types_alter {f : Node.Entries → Node.Entries} (wf : d.root.WellFormed)
    (at_above : d.node? above = some (.dir entries t)) (only : Node.AltersOnly f entries name)
    (same : ∀ p, filter.typesIn p above (f entries) = filter.typesIn p above entries)
    (other : names ≠ above ++ [name]) {node : Node} (found : d.node? names = some node) :
    ∃ other, (d.root.alter f above).at? names = some other ∧
      ∀ p, filter.typesAt p names other = filter.typesAt p names node := by
  obtain unchanged | ⟨below, rfl, changed⟩ := Node.at?_alter_of_some at_above only other found
  · exact ⟨node, unchanged, fun p ↦ rfl⟩
  · refine ⟨_, changed, SourceFilter.typesAt_alter (wf.at? found) fun entries' t' found' ↦ ?_⟩
    rw [node?, Node.at?_append, ← node?, found, Option.bind_some, found'] at at_above
    cases at_above
    exact same

theorem silent_entry (wf : d.root.WellFormed) (at_above : d.node? above = some (.dir entries t))
    (silent : ∀ node, d.node? (above ++ [name]) = some node →
      filter.Silent (above ++ [name]) node) (p : Path) :
    ∀ e ∈ entries, e.1 = name → filter.typesOfEntry p above e = [] := by
  rintro ⟨_, node⟩ mem rfl
  obtain - | - | ⟨_, sorted, -, -⟩ := wf.at? at_above
  exact (silent node ((node?_child at_above _).trans
    (Sorted.lookup_of_mem sorted mem))).typesOfEntry p

theorem retains_put (wf : d.root.WellFormed) (dir : d.shape? above = some .dir)
    (bare : new.Childless) (cleared : d.Cleared (above ++ [name]))
    (before : ∀ node, d.node? (above ++ [name]) = some node → filter.Silent (above ++ [name]) node)
    (after : filter.Silent (above ++ [name]) new) :
    Retains filter (above ++ [name]) d (d.put (above ++ [name]) new) := by
  obtain ⟨entries, t, at_above⟩ := shape?_eq_dir_iff.mp dir
  refine ⟨agreeOff_put dir bare cleared, fun names other node found ↦ ?_⟩
  rw [node?, put, Node.put_eq_alter]
  refine types_alter wf at_above
    (Node.altersOnly_place bare (cleared.childless at_above)) (fun p ↦ ?_) other found
  rw [SourceFilter.typesIn_eq, SourceFilter.typesIn_eq]
  exact SourceFilter.flatMap_place (after.typesOfEntry p) (silent_entry wf at_above before p)

theorem retains_erase (wf : d.root.WellFormed) (dir : d.shape? above = some .dir)
    (cleared : d.Cleared (above ++ [name]))
    (before : ∀ node, d.node? (above ++ [name]) = some node →
      filter.Silent (above ++ [name]) node) :
    Retains filter (above ++ [name]) d (d.erase (above ++ [name])) := by
  obtain ⟨entries, t, at_above⟩ := shape?_eq_dir_iff.mp dir
  refine ⟨agreeOff_erase dir cleared, fun names other node found ↦ ?_⟩
  rw [node?, erase, Node.erase_eq_alter]
  refine types_alter wf at_above
    (Node.altersOnly_filter (cleared.childless at_above)) (fun p ↦ ?_) other found
  rw [SourceFilter.typesIn_eq, SourceFilter.typesIn_eq]
  exact SourceFilter.flatMap_filter (silent_entry wf at_above before p)

end Change

theorem Enters.of_agreeOff (h : d.Enters root names) (agree : AgreeOff place d e)
    (deadEnd : d.DeadEnd place) (other : names ≠ place) : e.Enters root names := by
  have start : e.start root = d.start root := by rw [Disk.start, Disk.start, agree.workingDir]
  obtain dir | located := h.entered
  · obtain ⟨legal, count, enough, reaches⟩ := locate_eq_ok_iff.mp h.located
    obtain same | same | ⟨-, leads⟩ := reaches.of_agreeOff agree deadEnd
    · refine ⟨locate_eq_ok_iff.mpr ⟨legal, count, enough, by rwa [start]⟩, .inl ?_⟩
      rw [agree.shape names other, dir]
    · exact absurd same other
    · exact absurd dir (deadEnd.leads names leads)
  · obtain ⟨legal, count, enough, reaches⟩ := locate_eq_ok_iff.mp located
    obtain same | same | ⟨nofollow, -⟩ := reaches.of_agreeOff agree deadEnd
    · have followed := same.followed fun target link ↦ by
        obtain ⟨shape, found, notLink⟩ := h.solid
        rw [agree.shape names other, found] at link
        cases link
        exact notLink trivial
      exact ⟨locate_eq_ok_iff.mpr ⟨legal, count, enough, by rwa [start]⟩,
        .inr (locate_eq_ok_iff.mpr ⟨legal, count, enough, by rwa [start]⟩)⟩
    · exact absurd same other
    · cases nofollow

/-- Where something is found below a root, the same is found on a disk on which the root is entered
at a node with the same types. -/
theorem typesUnder_of_ne (wf : d.root.WellFormed) (settled : d.Settled)
    (wf' : e.root.WellFormed) (settled' : e.Settled)
    (there : ∀ names node, d.Enters root names → d.node? names = some node →
      filter.Silent names node ∨ e.Enters root names ∧
        ∃ other, e.node? names = some other ∧
          ∀ p, filter.typesAt p names other = filter.typesAt p names node)
    (h : d.typesUnder filter root ≠ []) :
    e.typesUnder filter root = d.typesUnder filter root := by
  obtain ⟨names, enters⟩ := exists_enters h
  obtain ⟨node, found⟩ := enters.exists_node
  rw [typesUnder_of_enters wf settled enters found] at h ⊢
  obtain silent | ⟨enters', other, found', same⟩ := there names node enters found
  · exact absurd (silent root) h
  · rw [typesUnder_of_enters wf' settled' enters' found', same]

namespace Retains

variable (retains : Retains filter place d e)
include retains

/-- The time of a disk has no part in what is found. -/
theorem with_now (t : Timestamp) : Retains filter place d { e with now := t } :=
  ⟨⟨retains.agree.workingDir, retains.agree.shape⟩, retains.types⟩

theorem symm : Retains filter place e d := by
  refine ⟨retains.agree.symm, fun names other node found ↦ ?_⟩
  have shape := retains.agree.shape names other
  rw [shape?, found] at shape
  obtain ⟨old, found_old, -⟩ := Option.map_eq_some_iff.mp shape.symm
  obtain ⟨again, found_again, same⟩ := retains.types names other old found_old
  cases found.symm.trans found_again
  exact ⟨old, found_old, fun p ↦ (same p).symm⟩

/-- A change that a scan does not see. -/
theorem typesUnder_eq (wf : d.root.WellFormed) (wf' : e.root.WellFormed) (settled : d.Settled)
    (deadEnd : d.DeadEnd place) (deadEnd' : e.DeadEnd place)
    (before : ∀ node, d.node? place = some node → filter.Silent place node)
    (after : ∀ node, e.node? place = some node → filter.Silent place node) (root : Path) :
    e.typesUnder filter root = d.typesUnder filter root := by
  have settled' : e.Settled := by rwa [Settled, retains.agree.workingDir]
  have sees {d e : Disk} (retains : Retains filter place d e) (deadEnd : d.DeadEnd place)
      (silent : ∀ node, d.node? place = some node → filter.Silent place node)
      (names : List String) (node : Node) (enters : d.Enters root names)
      (found : d.node? names = some node) :
      filter.Silent names node ∨ e.Enters root names ∧ ∃ other, e.node? names = some other ∧
        ∀ p, filter.typesAt p names other = filter.typesAt p names node := by
    by_cases same : names = place
    · subst same
      exact .inl (silent node found)
    · exact .inr ⟨enters.of_agreeOff retains.agree deadEnd same,
        retains.types names same node found⟩
  by_cases none : d.typesUnder filter root = []
  · by_cases none' : e.typesUnder filter root = []
    · rw [none, none']
    · exact (typesUnder_of_ne wf' settled' wf settled
        (sees retains.symm deadEnd' after) none').symm
  · exact typesUnder_of_ne wf settled wf' settled' (sees retains deadEnd before) none

end Retains

namespace Grows

theorem wellFormed (h : Grows d e) (wf : d.root.WellFormed) : e.root.WellFormed := by
  induction h with
  | refl => exact wf
  | step _ _ _ isName ih => exact ih.put (.dir _ .nil (by simp) (by simp)) isName _

theorem retains_makeEmpty (wf : d.root.WellFormed) (dir : d.shape? above = some .dir)
    (vacant : d.shape? (above ++ [name]) = none) (t : Timestamp) :
    Retains filter (above ++ [name]) d (d.put (above ++ [name]) (.dir [] t)) := by
  refine retains_put wf dir Node.childless_empty (cleared_of_not_dir (by simp [vacant]))
    (fun node found ↦ ?_) SourceFilter.silent_empty
  rw [shape?, found] at vacant
  cases vacant

/-- The types in what was there are still there, and no others. -/
theorem types (h : Grows d e) (wf : d.root.WellFormed) {node : Node}
    (found : d.node? names = some node) :
    ∃ other, e.node? names = some other ∧
      ∀ p, filter.typesAt p names other = filter.typesAt p names node := by
  induction h with
  | refl => exact ⟨node, found, fun _ ↦ rfl⟩
  | @step e above name before dir vacant _ ih =>
    obtain ⟨middle, found_middle, same⟩ := ih
    have other : names ≠ above ++ [name] := by
      rintro rfl
      rw [shape?, found_middle] at vacant
      cases vacant
    obtain ⟨last, found_last, same'⟩ :=
      (retains_makeEmpty (before.wellFormed wf) dir vacant e.now).types names other _ found_middle
    exact ⟨last, found_last, fun p ↦ (same' p).trans (same p)⟩

/-- There are no types in what is new. -/
theorem silent_of_new (h : Grows d e) (wf : d.root.WellFormed) {node : Node}
    (found : e.node? names = some node) (new : d.shape? names = none) :
    filter.Silent names node := by
  induction h generalizing node with
  | refl =>
    rw [shape?, found] at new
    cases new
  | @step e above name before dir vacant _ ih =>
    by_cases same : names = above ++ [name]
    · subst same
      cases (node?_put_self dir _).symm.trans found
      exact SourceFilter.silent_empty
    · obtain ⟨old, found_old, types⟩ :=
        (retains_makeEmpty (before.wellFormed wf) dir vacant e.now).symm.types names same _ found
      exact fun p ↦ (types p).symm.trans (ih found_old p)

theorem enters (h : Grows d e) (enters : d.Enters root names) : e.Enters root names :=
  ⟨h.locate enters.located, enters.entered.imp h.shape h.locate⟩

/-- A root that leads to something old led there before. -/
def RootStays (d e : Disk) (root : Path) : Prop :=
  ∀ names, e.locate true root = .ok names → d.shape? names ≠ none → d.locate true root = .ok names

theorem enters_of_rootStays (h : Grows d e) (stays : RootStays d e root)
    (enters : e.Enters root names) (old : d.shape? names ≠ none) : d.Enters root names := by
  have located := stays names enters.located old
  refine ⟨located, ?_⟩
  obtain ⟨shape, found, notLink⟩ := solid_of_locate located
  obtain dir | direct := enters.entered
  · rw [h.shape found] at dir
    exact .inl (found.trans dir)
  · obtain ⟨legal, count, enough, reaches⟩ := locate_eq_ok_iff.mp located
    obtain same | ⟨last, target, less, same, link, le⟩ := reaches.unfollow
    · exact .inr (locate_eq_ok_iff.mpr ⟨legal, count, enough, same⟩)
    · have located' : d.locate false root = .ok last :=
        locate_eq_ok_iff.mpr ⟨legal, less, Nat.le_trans le enough, same⟩
      cases (h.locate located').symm.trans direct
      rw [found] at link
      cases link
      exact absurd trivial notLink

/-- New directories do not change what is found below roots that lead where they led. -/
theorem typesUnder_eq (h : Grows d e) (wf : d.root.WellFormed) (settled : d.Settled)
    (stays : RootStays d e root) : e.typesUnder filter root = d.typesUnder filter root := by
  have settled' : e.Settled := by rwa [Settled, h.workingDir]
  by_cases none : d.typesUnder filter root = []
  · by_cases none' : e.typesUnder filter root = []
    · rw [none, none']
    · refine (typesUnder_of_ne (h.wellFormed wf) settled' wf settled
        (fun names node enters found ↦ ?_) none').symm
      by_cases new : d.shape? names = .none
      · exact .inl (h.silent_of_new wf found new)
      · obtain ⟨old, found_old, -⟩ := Option.map_eq_some_iff.mp (Option.ne_none_iff_exists'.mp new).choose_spec
        obtain ⟨again, found_again, same⟩ := h.types wf found_old
        cases found.symm.trans found_again
        exact .inr ⟨h.enters_of_rootStays stays enters new, old, found_old,
          fun p ↦ (same p).symm⟩
  · exact typesUnder_of_ne wf settled (h.wellFormed wf) settled'
      (fun names node enters found ↦ .inr ⟨h.enters enters, h.types wf found⟩) none

end Grows

end Disk

end ScriptCache
