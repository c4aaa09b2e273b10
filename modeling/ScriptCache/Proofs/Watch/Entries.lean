import ScriptCache.Proofs.Disk.Place
import ScriptCache.Proofs.Scan
import ScriptCache.Watch.Local

/-!
# The entries that a walk finds

Walks from two paths to one directory list the same files in the same order. A file that can be
looked at gives the same entry in both, under its canonical path.
-/

namespace ScriptCache

open Disk (absolute EndsIn)
open ScriptCache.Path (IsName)

variable {d : Disk} {filter : SourceFilter} {p q k root : Path} {names rest : List String}
  {node : Node} {file : SourceFile} {content : List UInt8} {t : Timestamp} {m : Int}

theorem SourceFilter.accepts_of_endsIn {init init' : List String} {name : String}
    (h : EndsIn p init name) (h' : EndsIn q init' name) : filter.accepts p = filter.accepts q := by
  rw [accepts, accepts, Path.extension?, Path.extension?, h.fileName?_eq, h'.fileName?_eq]

namespace Disk

theorem endsIn_join {name : String} (full : p ≠ "") (isName : IsName name) :
    EndsIn (p.join name) p.parts name := ⟨steps_join full isName, isName⟩

/-- The walks list a file at or below names, under a path to it and under its canonical one. -/
inductive Listed (d : Disk) (names : List String) : Path → Path → Prop where
  | file {q : Path} {rest : List String} {content : List UInt8} {t : Timestamp}
      (isName : ∀ name ∈ names ++ rest, IsName name) (way : d.Way q (names ++ rest))
      (found : d.node? (names ++ rest) = some (.file content t))
      (plain : q.endsWith "/" = false) : Listed d names q (absolute (names ++ rest))

theorem Listed.below {name : String} (h : d.Listed (names ++ [name]) p q) : d.Listed names p q := by
  obtain ⟨isName, way, found, plain⟩ := h
  simp only [List.append_assoc, List.singleton_append] at *
  exact .file isName way found plain

/-- What a walk from a path lists goes with what one from the canonical path lists. -/
theorem listed_files (filter : SourceFilter) {node : Node} (wf : node.WellFormed)
    (way : d.Way p names) (names_names : ∀ name ∈ names, IsName name)
    (found : d.node? names = some node)
    (plain : ¬node.isDir → p.endsWith "/" = false ∧
      filter.accepts p = filter.accepts (absolute names)) :
    List.Forall₂ (d.Listed names) (filter.files p node) (filter.files (absolute names) node) := by
  induction wf generalizing p names with
  | link target => exact .nil
  | file content t =>
    obtain ⟨plain, same⟩ := plain (by simp [Node.isDir])
    rw [SourceFilter.files, SourceFilter.files, ← same]
    split
    · have listed : d.Listed names p (absolute (names ++ [])) :=
        .file (by simpa using names_names) (by simpa using way) (by simpa using found) plain
      rw [List.append_nil] at listed
      exact .cons listed .nil
    · exact .nil
  | @dir entries t sorted isName nodes ih =>
    rw [SourceFilter.files, SourceFilter.files, SourceFilter.filesIn_eq, SourceFilter.filesIn_eq]
    have same : List.Forall₂ (fun e e' ↦ e ∈ entries ∧ e = e') entries entries :=
      List.forall₂_same.mpr fun e mem ↦ ⟨mem, rfl⟩
    refine List.rel_flatMap same ?_
    rintro ⟨name, child⟩ _ ⟨mem, rfl⟩
    dsimp only
    split
    · exact .nil
    · have looked := Sorted.lookup_of_mem sorted mem
      have name_name := isName _ mem
      rw [← absolute_concat name_name names_names]
      by_cases link : child.shape.IsLink
      · cases child with
        | link => exact .nil
        | file | dir => exact link.elim
      · obtain ⟨way', names_names', child_found⟩ :=
          way.child names_names found looked name_name link
        refine (ih _ mem way' names_names' child_found fun _ ↦ ⟨?_, ?_⟩).imp
          fun _ _ ↦ Listed.below
        · exact Path.endsWith_slash_join way.full name_name
        · rw [absolute_concat name_name names_names]
          exact SourceFilter.accepts_of_endsIn (endsIn_join way.full name_name)
            (endsIn_join (absolute_ne_empty names) name_name)

theorem Listed.exists_file (h : d.Listed names p q) (looked : d.sourceFile p = .ok file) :
    ∃ found content t, d.locate true p = .ok found ∧ d.node? found = some (.file content t) ∧
      q = absolute found := by
  obtain ⟨isName, way, node, plain⟩ := h
  obtain ⟨canonical, -⟩ := sourceFile_eq_ok_iff.mp looked
  obtain ⟨other, located, -⟩ := canonicalize_eq_ok_iff.mp canonical
  obtain ⟨legal, count, -, reaches⟩ := locate_eq_ok_iff.mp located
  rw [steps_eq, plain, if_neg Bool.false_ne_true, List.append_nil] at reaches
  cases way.leads reaches
  exact ⟨_, _, _, located, node, rfl⟩

/-- A file is looked at under its canonical path. -/
theorem Listed.path_eq (h : d.Listed names p q) (looked : d.sourceFile p = .ok file) :
    file.path = q := by
  obtain ⟨found, _, _, located, -, rfl⟩ := h.exists_file looked
  obtain ⟨canonical, -⟩ := sourceFile_eq_ok_iff.mp looked
  rw [canonicalize, located] at canonical
  exact (Except.ok.inj canonical).symm

theorem Listed.probe_eq (settled : d.Settled) (h : d.Listed names p q)
    (looked : d.sourceFile p = .ok file) : d.probe q = d.probe p := by
  have path := h.path_eq looked
  have again := sourceFile_path settled looked
  rw [path] at again
  rw [probe, probe, looked, again]

/-- What looking for the source files at or below roots finds. -/
def watched (d : Disk) (filter : SourceFilter) (roots : List Path) : List DiskEntry :=
  (d.walkAll filter roots).filterMap fun item ↦ item.toOption.map d.probe

theorem watched_eq_flatMap (roots : List Path) :
    d.watched filter roots = roots.flatMap fun root ↦ d.watched filter [root] := by
  simp only [watched, walkAll, List.filterMap_flatMap, List.flatMap_singleton]

theorem Enters.isName (settled : d.Settled) (h : d.Enters root names) :
    ∀ name ∈ names, IsName name := isName_of_locate settled h.located

/-- A root that is a file itself ends with the name of the file. -/
theorem Enters.exists_endsIn (h : d.Enters root names)
    (file : d.shape? names = some (.file content t)) :
    ∃ init above name, EndsIn root init name ∧ names = above ++ [name] := by
  obtain dir | located := h.entered
  · cases file.symm.trans dir
  · obtain ⟨above, name, places, rfl⟩ := exists_places_of_file located file
    obtain ⟨init, ends, -⟩ := places.ends
    exact ⟨init, above, name, ends, rfl⟩

/-- The walk from a root lists what the walk from its canonical path would list. -/
theorem Enters.listed (filter : SourceFilter) (wf : d.root.WellFormed) (settled : d.Settled)
    (h : d.Enters root names) (found : d.node? names = some node) :
    List.Forall₂ (d.Listed names) (filter.files root node)
      (filter.files (absolute names) node) := by
  refine listed_files filter (wf.at? found) h.way (h.isName settled) found ?_
  intro not_dir
  cases node with
  | dir => exact absurd rfl not_dir
  | link target => exact absurd trivial ((solid_iff_of_node found).mp h.solid)
  | file content t =>
    have file : d.shape? names = some (.file content t) := by rw [shape?, found]; rfl
    obtain ⟨init, above, name, ends, rfl⟩ := h.exists_endsIn file
    have canonical : EndsIn (absolute (above ++ [name])) above name :=
      ⟨steps_absolute (by simp) (h.isName settled), ends.2⟩
    exact ⟨ends.endsWith_slash, SourceFilter.accepts_of_endsIn ends canonical⟩

theorem Enters.exists_listed (wf : d.root.WellFormed) (settled : d.Settled)
    (h : d.Enters root names) (found : d.node? names = some node)
    (mem : p ∈ filter.files root node) : ∃ q, d.Listed names p q :=
  have listed := (h.listed filter wf settled found).imp fun _ q r ↦ And.intro (Exists.intro q r) r
  ((List.forall₂_and_left _ _).mp listed).1 p mem

theorem exists_listed_of_walked (wf : d.root.WellFormed) (settled : d.Settled)
    (walked : .ok p ∈ d.walk filter root) : ∃ names q, d.Listed names p q := by
  obtain ⟨names, h⟩ := exists_enters_of_walked walked
  obtain ⟨node, found⟩ := h.exists_node
  rw [walk_of_enters h found] at walked
  obtain ⟨_, mem, same⟩ := List.mem_map.mp walked
  cases same
  exact ⟨names, h.exists_listed wf settled found mem⟩

theorem Way.not_link {name : String} (h : d.Way p names) (isName : IsName name)
    (solid : d.Solid (names ++ [name])) (target : Path) :
    d.get false (p.join name) ≠ .ok (.link target) := by
  intro got
  obtain ⟨last, located, found⟩ := get_eq_ok_iff.mp got
  obtain ⟨-, count, -, reaches⟩ := locate_eq_ok_iff.mp located
  have start : d.start (p.join name) = d.start p := by
    rw [Disk.start, Path.isAbsolute_join h.full isName, Disk.start]
  rw [start, steps_join h.full isName] at reaches
  obtain ⟨middle, first, second, before, after, -⟩ := reaches.split (by simp)
  cases h.leads before
  generalize one : [name] = todo at after
  cases after with
  | here => cases one
  | stay => exact isName.ne_dot (List.cons.inj one).1
  | up => exact isName.ne_dots (List.cons.inj one).1
  | enter _ notLink rest =>
    cases one
    cases rest
    exact (solid_iff_of_node found).mp solid trivial
  | through _ on =>
    cases one
    simp at on
  | link looksUp =>
    cases one
    exact looksUp.not_solid solid

/-- The files at or below a node are no links, if the node itself is found without following one. -/
theorem not_link_of_mem_files {node : Node} (wf : node.WellFormed) (way : d.Way p names)
    (names_names : ∀ name ∈ names, IsName name) (found : d.node? names = some node)
    (direct : ¬node.isDir → ∀ target, d.get false p ≠ .ok (.link target))
    (mem : q ∈ filter.files p node) : ∀ target, d.get false q ≠ .ok (.link target) := by
  induction wf generalizing p names with
  | link target => cases mem
  | file content t =>
    rw [SourceFilter.files] at mem
    split at mem
    · cases List.mem_singleton.mp mem
      exact direct (by simp [Node.isDir])
    · cases mem
  | @dir entries t sorted isName nodes ih =>
    rw [SourceFilter.files, SourceFilter.filesIn_eq] at mem
    obtain ⟨⟨name, child⟩, mem, listed⟩ := List.mem_flatMap.mp mem
    dsimp only at listed
    split at listed
    · cases listed
    · have looked := Sorted.lookup_of_mem sorted mem
      have name_name := isName _ mem
      by_cases link : child.shape.IsLink
      · cases child with
        | link => cases listed
        | file | dir => exact link.elim
      · obtain ⟨way', names_names', child_found⟩ :=
          way.child names_names found looked name_name link
        have solid := (solid_iff_of_node child_found).mpr link
        exact ih _ mem way' names_names' child_found (fun _ ↦ way.not_link name_name solid) listed

/-- A walked file that can be looked at is found without following a link. -/
theorem get_of_walked (wf : d.root.WellFormed) (settled : d.Settled)
    (walked : .ok p ∈ d.walk filter root) {file : SourceFile} (looked : d.sourceFile p = .ok file) :
    ∃ content t, d.get false p = .ok (.file content t) := by
  obtain ⟨names, h⟩ := exists_enters_of_walked walked
  obtain ⟨node, found⟩ := h.exists_node
  rw [walk_of_enters h found] at walked
  obtain ⟨_, mem, same⟩ := List.mem_map.mp walked
  cases same
  have direct : ¬node.isDir → ∀ target, d.get false root ≠ .ok (.link target) := by
    intro not_dir target got
    rcases h.entered with dir | located
    · obtain ⟨entries, t, at_dir⟩ := shape?_eq_dir_iff.mp dir
      cases found.symm.trans at_dir
      exact not_dir rfl
    · cases got.symm.trans (get_eq_ok_iff.mpr ⟨names, located, found⟩)
      exact (solid_iff_of_node found).mp h.solid trivial
  obtain ⟨q, listed⟩ := h.exists_listed wf settled found mem
  obtain ⟨last, content, t, located, file, -⟩ := listed.exists_file looked
  rcases locate_false_or_link located with same | ⟨target, link⟩
  · exact ⟨content, t, get_eq_ok_iff.mpr ⟨last, same, file⟩⟩
  · exact absurd link
      (not_link_of_mem_files (wf.at? found) h.way (h.isName settled) found direct mem target)

theorem watched_of_enters (h : d.Enters root names) (found : d.node? names = some node) :
    d.watched filter [root] = (filter.files root node).map d.probe := by
  rw [watched, walkAll, List.flatMap_singleton, walk_of_enters h found, List.filterMap_map]
  exact congrFun List.filterMap_eq_map' _

theorem enters_of_locate (located : d.locate true root = .ok names)
    (entered : d.isDir root ∨ ∀ target, d.get false root ≠ .ok (.link target)) :
    d.Enters root names := by
  refine ⟨located, ?_⟩
  rcases locate_false_or_link located with direct | ⟨target, is_link⟩
  · exact .inr direct
  · left
    have dir := entered.resolve_right fun other ↦ other target is_link
    rw [isDir] at dir
    split at dir
    · rename_i node stat
      obtain ⟨other, located', found⟩ := get_eq_ok_iff.mp stat
      cases located.symm.trans located'
      cases node with
      | file | link => cases dir
      | dir entries t => exact shape?_eq_dir_iff.mpr ⟨entries, t, found⟩
    · cases dir

/-- The canonical path of a node enters at this node, if it leads there. -/
theorem enters_absolute (names_names : ∀ name ∈ names, IsName name) (solid : d.Solid names)
    (located : d.locate true (absolute names) = .ok names) : d.Enters (absolute names) names := by
  have root_dir := root_dir_of_locate located
  refine ⟨located, ?_⟩
  by_cases empty : names = []
  · subst empty
    exact .inl root_dir
  · right
    obtain ⟨legal, short⟩ := (locate_absolute_iff root_dir names_names solid).mp located
    rw [locate_eq_ok_iff, start, if_pos (isAbsolute_absolute names),
      steps_absolute empty names_names]
    exact ⟨legal, 0, Nat.zero_le _, reaches_names names_names short solid⟩

theorem exists_enters_of_canonicalize (settled : d.Settled) (canonical : d.canonicalize k = .ok k) :
    ∃ names, absolute names = k ∧ d.Enters k names := by
  obtain ⟨names, located, same⟩ := canonicalize_eq_ok_iff.mp canonical
  subst same
  exact ⟨names, rfl, enters_absolute (isName_of_locate settled located) (solid_of_locate located)
    located⟩

theorem exists_enters_of_watched {entry : DiskEntry} (mem : entry ∈ d.watched filter [root]) :
    ∃ names, d.Enters root names := by
  rw [watched, walkAll, List.flatMap_singleton] at mem
  obtain ⟨item, walked, probed⟩ := List.mem_filterMap.mp mem
  cases item with
  | error => cases probed
  | ok p => exact exists_enters_of_walked walked

theorem watched_of_error {e : IoError} (h : d.stat root = .error e) :
    d.watched filter [root] = [] := by
  apply List.eq_nil_iff_forall_not_mem.mpr
  intro entry mem
  obtain ⟨names, enters⟩ := exists_enters_of_watched mem
  obtain ⟨node, found⟩ := enters.exists_node
  cases h.symm.trans (get_eq_ok_iff.mpr ⟨names, enters.located, found⟩)

/-- The path leads to the node with the other path or to something in it. -/
def Below (k p : Path) : Prop :=
  ∃ names rest, (∀ name ∈ names ++ rest, IsName name) ∧ k = absolute names ∧
    p = absolute (names ++ rest)

theorem Below.parts (h : Below k p) : k.parts <+: p.parts := by
  obtain ⟨names, rest, isName, rfl, rfl⟩ := h
  rw [parts_absolute isName, parts_absolute fun n hn ↦ isName n (List.mem_append_left _ hn)]
  exact List.prefix_append names rest

/-- Of two directories that something lies in one lies in the other. -/
theorem Below.nested (h : Below k p) (h' : Below q p) : Below k q ∨ Below q k := by
  obtain ⟨names, rest, isName, rfl, rfl⟩ := h
  obtain ⟨names', rest', isName', rfl, same⟩ := h'
  have eq := congrArg Path.parts same
  rw [parts_absolute isName, parts_absolute isName'] at eq
  rcases List.append_eq_append_iff.mp eq with ⟨between, rfl, -⟩ | ⟨between, rfl, -⟩
  · exact .inl ⟨names, between, fun n hn ↦ isName' n (List.mem_append_left _ hn), rfl, rfl⟩
  · exact .inr ⟨names', between, fun n hn ↦ isName n (List.mem_append_left _ hn), rfl, rfl⟩

section Root

variable (wf : d.root.WellFormed) (settled : d.Settled)
include wf settled

/-- A root and its canonical path give the same entries, where all files can be looked at. -/
theorem watched_absolute (h : d.Enters root names) (again : d.Enters (absolute names) names)
    (looked : ∀ p, .ok p ∈ d.walk filter root → ∃ file, d.sourceFile p = .ok file) :
    d.watched filter [absolute names] = d.watched filter [root] := by
  obtain ⟨node, found⟩ := h.exists_node
  rw [walk_of_enters h found] at looked
  rw [watched_of_enters h found, watched_of_enters again found]
  have files : ∀ p ∈ filter.files root node, ∃ file, d.sourceFile p = .ok file :=
    fun p mem ↦ looked p (List.mem_map_of_mem mem)
  have listed := (List.forall₂_and_left _ _).mpr ⟨files, h.listed filter wf settled found⟩
  have same : List.Forall₂ (· = ·) ((filter.files root node).map d.probe)
      ((filter.files (absolute names) node).map d.probe) := by
    rw [List.forall₂_map_left_iff, List.forall₂_map_right_iff]
    refine listed.imp ?_
    rintro p q ⟨⟨file, looked⟩, listed⟩
    exact (listed.probe_eq settled looked).symm
  exact (List.forall₂_eq_eq_eq ▸ same).symm

/-- What is found lies at or below the node that the root leads to. -/
theorem below_of_mem_watched (canonical : d.canonicalize root = .ok k)
    (mem : .found p m ∈ d.watched filter [root]) : Below k p := by
  obtain ⟨names, h⟩ := exists_enters_of_watched mem
  obtain ⟨other, located, rfl⟩ := canonicalize_eq_ok_iff.mp canonical
  cases h.located.symm.trans located
  obtain ⟨node, found⟩ := h.exists_node
  rw [watched_of_enters h found] at mem
  obtain ⟨q, mem, probe⟩ := List.mem_map.mp mem
  obtain ⟨canonical, listed⟩ := h.exists_listed wf settled found mem
  have looked : d.sourceFile q = .ok ⟨p, m⟩ := by
    rw [Disk.probe] at probe
    split at probe
    · cases probe
      assumption
    · cases probe
  have path := listed.path_eq looked
  obtain ⟨isName, -, -, -⟩ := listed
  exact ⟨names, _, isName, rfl, path⟩

end Root

end Disk

end ScriptCache
