import ScriptCache.Proofs.Scan
import ScriptCache.Proofs.Text.ByteOrder

/-!
# What a walk lists

A walk leaves out the excluded directories while it goes on. It lists what one would keep of a walk
through everything: the files with the right extension that are in no excluded directory, depth
first and in the order of their names.
-/

namespace ScriptCache

open ScriptCache.Path (IsName)

/-! ## Extensions -/

namespace Path

variable {p : Path} {name stem ext : String}

theorem extension?_of_no_dot (named : p.fileName? = some name) (no_dot : '.' ∉ name.toList) :
    p.extension? = none := by
  have rest : name.toList.reverse.dropWhile (· ≠ '.') = [] := by
    simp only [List.dropWhile_eq_nil_iff, List.mem_reverse, decide_eq_true_eq]
    rintro c mem rfl
    exact no_dot mem
  rw [extension?, named, Option.bind_some, List.span_eq_takeWhile_dropWhile, rest]

theorem extension?_of_dot (named : p.fileName? = some (stem ++ "." ++ ext))
    (no_dot : '.' ∉ ext.toList) :
    p.extension? = if stem = "" then none else some ext := by
  have reversed : (stem ++ "." ++ ext).toList.reverse =
      ext.toList.reverse ++ '.' :: stem.toList.reverse := by simp
  have kept : ∀ c ∈ ext.toList.reverse, (decide (c ≠ '.')) = true := by
    intro c mem
    rw [decide_eq_true_eq]
    rintro rfl
    exact no_dot (List.mem_reverse.mp mem)
  rw [extension?, named, Option.bind_some, List.span_eq_takeWhile_dropWhile, reversed,
    List.takeWhile_append_of_pos kept, List.dropWhile_append_of_pos kept]
  by_cases bare : stem = ""
  · simp [bare]
  · have full : stem.toList.reverse ≠ [] := by simpa using bare
    obtain ⟨c, before, eq⟩ := List.exists_cons_of_ne_nil full
    simp [eq, bare]

/-- The extension of a name is what stands behind its last dot, unless the dot comes first. -/
theorem extension?_eq_some_iff (named : p.fileName? = some name) :
    p.extension? = some ext ↔ ∃ stem, name = stem ++ "." ++ ext ∧ stem ≠ "" ∧ '.' ∉ ext.toList := by
  constructor
  · intro found
    by_cases dot : '.' ∈ name.toList
    · obtain ⟨after, before, reversed, no_dot⟩ :=
        List.eq_append_cons_of_mem (List.mem_reverse.mpr dot)
      have split : name = String.ofList before.reverse ++ "." ++ String.ofList after.reverse := by
        rw [← String.toList_inj, ← List.reverse_inj, reversed]
        simp
      rw [split] at named
      rw [extension?_of_dot named (by simpa using no_dot)] at found
      split at found
      · cases found
      · rename_i full
        cases found
        exact ⟨_, split, full, by simpa using no_dot⟩
    · rw [extension?_of_no_dot named dot] at found
      cases found
  · rintro ⟨stem, rfl, full, no_dot⟩
    rw [extension?_of_dot named no_dot, if_neg full]
end Path

/-- The name ends with a dot and one of the extensions, and does not start with this dot. Letters
may be in another case, and an extension may be given with dots in front of it. -/
def HasExtension (extensions : List String) (name : String) : Prop :=
  ∃ stem ext, name = stem ++ "." ++ ext ∧ stem ≠ "" ∧ '.' ∉ ext.toList ∧
    ∃ given ∈ extensions,
      (given.toList.dropWhile (· = '.')).map Char.toLower = ext.toList.map Char.toLower

theorem SourceFilter.accepts_of_iff {extensions excluded : List String} {p : Path} :
    (SourceFilter.of extensions excluded).accepts p ↔
      ∃ name, p.fileName? = some name ∧ HasExtension extensions name := by
  cases named : p.fileName? with
  | none => simp [accepts, Path.extension?, named]
  | some name =>
    have lower (given ext : String) :
        (String.ofList (given.toList.dropWhile (· = '.'))).toLower = ext.toLower ↔
          (given.toList.dropWhile (· = '.')).map Char.toLower = ext.toList.map Char.toLower := by
      rw [← String.toList_inj, String.toLower, String.toLower, String.toList_map, String.toList_map,
        String.toList_ofList]
    simp only [accepts, of, Option.any_eq_true, List.contains_iff_mem, List.mem_map, lower,
      Path.extension?_eq_some_iff named, Option.some.injEq, exists_eq_left', HasExtension]
    constructor
    · rintro ⟨ext, ⟨stem, split, full, no_dot⟩, listed⟩
      exact ⟨stem, ext, split, full, no_dot, listed⟩
    · rintro ⟨stem, ext, split, full, no_dot, listed⟩
      exact ⟨ext, ⟨stem, split, full, no_dot⟩, listed⟩

/-! ## The places of files in a tree -/

namespace Node

variable {node : Node} {entries : Entries} {names : List String}

mutual

/-- The names on the way to each file at or below a node. -/
def places : Node → List (List String)
  | .file _ _ => [[]]
  | .link _ => []
  | .dir entries _ => placesIn entries

/-- The names on the way to each file below the entries of a directory. -/
def placesIn : List (String × Node) → List (List String)
  | [] => []
  | (name, node) :: entries => (places node).map (name :: ·) ++ placesIn entries

end

theorem placesIn_eq (entries : Entries) :
    placesIn entries = entries.flatMap fun e ↦ e.2.places.map (e.1 :: ·) := by
  induction entries with
  | nil => rfl
  | cons e entries ih => rw [placesIn, ih, List.flatMap_cons]

theorem places_of_not_dir (not_dir : ¬node.isDir) (mem : names ∈ node.places) : names = [] := by
  cases node with
  | file => exact List.mem_singleton.mp mem
  | link => cases mem
  | dir => exact absurd rfl not_dir

theorem ne_nil_of_mem_places (dir : node.isDir) (mem : names ∈ node.places) : names ≠ [] := by
  cases node with
  | file | link => cases dir
  | dir entries t =>
    rw [places, placesIn_eq, List.mem_flatMap] at mem
    obtain ⟨e, -, mem⟩ := mem
    obtain ⟨rest, -, rfl⟩ := List.mem_map.mp mem
    exact List.cons_ne_nil _ _

theorem mem_places_iff (wf : node.WellFormed) :
    names ∈ node.places ↔ ∃ content t, node.at? names = some (.file content t) := by
  induction wf generalizing names with
  | file content t => cases names <;> simp [places, at?]
  | link target => cases names <;> simp [places, at?]
  | @dir entries t sorted isName nodes ih =>
    rw [places, placesIn_eq, List.mem_flatMap]
    constructor
    · rintro ⟨e, at_e, mem⟩
      obtain ⟨rest, below, rfl⟩ := List.mem_map.mp mem
      obtain ⟨content, t, found⟩ := (ih e at_e).mp below
      refine ⟨content, t, ?_⟩
      rw [at?_cons, Sorted.lookup_of_mem sorted at_e, Option.bind_some, found]
    · rintro ⟨content, t, found⟩
      cases names with
      | nil => cases found
      | cons name rest =>
        rw [at?_cons, Option.bind_eq_some_iff] at found
        obtain ⟨child, looked, found⟩ := found
        have at_e := Sorted.mem_of_lookup looked
        exact ⟨_, at_e, List.mem_map.mpr ⟨rest, (ih _ at_e).mpr ⟨content, t, found⟩, rfl⟩⟩

/-- Where the ways to two files part, the first one goes on to a name with lesser bytes. -/
def Precedes (names names' : List String) : Prop :=
  ∃ above name name' below below', names = above ++ name :: below ∧
    names' = above ++ name' :: below' ∧ Utf8.encode name < Utf8.encode name'

theorem Precedes.below {names names' : List String} (h : Precedes names names') (name : String) :
    Precedes (name :: names) (name :: names') := by
  obtain ⟨above, s, s', below, below', rfl, rfl, lt⟩ := h
  exact ⟨name :: above, s, s', below, below', rfl, rfl, lt⟩

theorem Precedes.ne {names names' : List String} (h : Precedes names names') : names ≠ names' := by
  obtain ⟨above, s, s', below, below', rfl, rfl, lt⟩ := h
  intro same
  cases List.append_cancel_left same
  exact List.lt_irrefl _ lt

/-- Files are reached depth first, in the order of the names in each directory. -/
theorem places_ascending (wf : node.WellFormed) : node.places.Pairwise Precedes := by
  induction wf with
  | file => exact List.pairwise_singleton _ _
  | link => exact .nil
  | @dir entries t sorted isName nodes ih =>
    rw [places, placesIn_eq, List.flatMap_def, List.pairwise_flatten, List.pairwise_map]
    constructor
    · intro ways mem
      obtain ⟨e, at_e, rfl⟩ := List.mem_map.mp mem
      rw [List.pairwise_map]
      exact (ih e at_e).imp fun precedes ↦ precedes.below e.1
    · refine sorted.imp fun {e e'} lt ↦ ?_
      intro names mem names' mem'
      obtain ⟨rest, -, rfl⟩ := List.mem_map.mp mem
      obtain ⟨rest', -, rfl⟩ := List.mem_map.mp mem'
      exact ⟨[], e.1, e'.1, rest, rest', rfl, rfl, Utf8.encode_lt_encode.mpr lt⟩

end Node

/-! ## Walks -/

namespace Path

variable {p : Path} {name : String} {names : List String}

/-- The path to what names lead to from a directory. -/
def joinAll (p : Path) (names : List String) : Path := names.foldl join p

theorem joinAll_ne_empty (full : p ≠ "") (isName : ∀ name ∈ names, IsName name) :
    p.joinAll names ≠ "" := by
  induction names generalizing p with
  | nil => exact full
  | cons name names ih =>
    obtain ⟨first, others⟩ := List.forall_mem_cons.mp isName
    exact ih (join_ne_empty full first) others

theorem parts_joinAll (full : p ≠ "") (isName : ∀ name ∈ names, IsName name) :
    (p.joinAll names).parts = p.parts ++ names := by
  induction names generalizing p with
  | nil => exact (List.append_nil _).symm
  | cons name names ih =>
    obtain ⟨first, others⟩ := List.forall_mem_cons.mp isName
    rw [joinAll, List.foldl_cons, ← joinAll, ih (join_ne_empty full first) others,
      parts_join full first, List.append_assoc, List.singleton_append]

/-- What is joined last is the name of the file. -/
theorem fileName?_joinAll (full : p ≠ "") (isName : ∀ name ∈ names, IsName name) :
    (p.joinAll names).fileName? = names.getLast?.or p.fileName? := by
  rcases List.eq_nil_or_concat' names with rfl | ⟨above, name, rfl⟩
  · rfl
  · obtain ⟨above_names, name_name⟩ := List.forall_mem_append.mp isName
    have last := List.forall_mem_singleton.mp name_name
    have ends : Disk.EndsIn ((p.joinAll above).join name) (p.joinAll above).parts name :=
      ⟨Disk.steps_join (joinAll_ne_empty full above_names) last, last⟩
    rw [joinAll, List.foldl_concat, ← joinAll, ends.fileName?_eq, List.getLast?_concat,
      Option.some_or]

end Path

namespace SourceFilter

variable {filter : SourceFilter} {p : Path} {node : Node} {names : List String}

/-- A file is kept that has the right extension and lies in no excluded directory. -/
def keeps (filter : SourceFilter) (p : Path) (names : List String) : Bool :=
  filter.accepts (p.joinAll names) && names.dropLast.all fun dir ↦ !filter.excludedDirs.contains dir

theorem keeps_cons_of_ne_nil (full : names ≠ []) (name : String) (p : Path) :
    filter.keeps p (name :: names) =
      (!filter.excludedDirs.contains name && filter.keeps (p.join name) names) := by
  rw [keeps, keeps, List.dropLast_cons_of_ne_nil full, List.all_cons, Path.joinAll,
    List.foldl_cons, ← Path.joinAll]
  exact Bool.and_left_comm ..

/-- To leave out directories on the way is to leave out the files in them. -/
theorem files_eq_places (filter : SourceFilter) (p : Path) (wf : node.WellFormed) :
    filter.files p node = (node.places.filter (filter.keeps p)).map p.joinAll := by
  induction wf generalizing p with
  | file content t =>
    rw [files, Node.places, List.filter_singleton]
    by_cases accepted : filter.accepts p = true <;> simp [keeps, Path.joinAll, accepted]
  | link target => rfl
  | @dir entries t sorted isName nodes ih =>
    rw [files, filesIn_eq, Node.places, Node.placesIn_eq, List.filter_flatMap, List.map_flatMap]
    refine List.flatMap_congr fun e mem ↦ ?_
    rw [List.filter_map, List.map_map]
    have joined : p.joinAll ∘ (e.1 :: ·) = (p.join e.1).joinAll := rfl
    rw [joined]
    split
    · rename_i excluded
      rw [Bool.and_eq_true] at excluded
      rw [List.filter_eq_nil_iff.mpr, List.map_nil]
      intro names at_e kept
      rw [Function.comp_apply, keeps_cons_of_ne_nil (Node.ne_nil_of_mem_places excluded.1 at_e),
        excluded.2] at kept
      cases kept
    · rename_i entered
      rw [ih e mem]
      refine congrArg _ (List.filter_congr fun names at_e ↦ ?_)
      rw [Function.comp_apply]
      by_cases dir : e.2.isDir
      · rw [keeps_cons_of_ne_nil (Node.ne_nil_of_mem_places dir at_e)]
        simp only [dir, Bool.true_and, Bool.not_eq_true] at entered
        rw [entered, Bool.not_false, Bool.true_and]
      · cases Node.places_of_not_dir dir at_e
        rfl

end SourceFilter

/-- The file at the end of names has the right extension, and there is no excluded directory on the
way to it. -/
def Wanted (extensions excluded : List String) (root : Path) (node : Node) (names : List String) :
    Prop :=
  (∃ content t, node.at? names = some (.file content t)) ∧
    (∃ name, names.getLast?.or root.fileName? = some name ∧ HasExtension extensions name) ∧
    ∀ dir ∈ names.dropLast, dir ∉ excluded

namespace SourceFilter

variable {extensions excluded : List String} {root : Path} {node : Node} {names : List String}

theorem keeps_of_iff (full : root ≠ "") (isName : ∀ name ∈ names, IsName name) :
    (SourceFilter.of extensions excluded).keeps root names ↔
      (∃ name, names.getLast?.or root.fileName? = some name ∧ HasExtension extensions name) ∧
        ∀ dir ∈ names.dropLast, dir ∉ excluded := by
  rw [keeps, Bool.and_eq_true, accepts_of_iff, Path.fileName?_joinAll full isName,
    List.all_eq_true]
  simp only [of, Bool.not_eq_true', List.contains_eq_mem, decide_eq_false_iff_not]

theorem mem_filter_places_iff (wf : node.WellFormed) (full : root ≠ "") :
    names ∈ node.places.filter ((SourceFilter.of extensions excluded).keeps root) ↔
      Wanted extensions excluded root node names := by
  rw [List.mem_filter, Node.mem_places_iff wf, Wanted]
  refine and_congr_right fun ⟨content, t, found⟩ ↦ keeps_of_iff full (wf.isName found)

/-- What more is excluded is left out of what was kept. -/
theorem keeps_append (extensions more excluded : List String) (root : Path) (names : List String) :
    (SourceFilter.of extensions (more ++ excluded)).keeps root names =
      ((names.dropLast.all fun dir ↦ !more.contains dir) &&
        (SourceFilter.of extensions excluded).keeps root names) := by
  rw [Bool.eq_iff_iff]
  simp only [keeps, accepts, of, Bool.and_eq_true, List.all_eq_true, List.contains_append,
    Bool.not_or, forall_and]
  exact and_left_comm

/-- Files have different paths if they have different places. -/
theorem nodup_paths (wf : node.WellFormed) (full : root ≠ "") (keep : List String → Bool) :
    ((node.places.filter keep).map root.joinAll).Nodup := by
  have nodup : (node.places.filter keep).Nodup :=
    ((Node.places_ascending wf).imp Node.Precedes.ne).filter keep
  refine nodup.map_on fun names mem names' mem' same ↦ ?_
  have isName {names : List String} (mem : names ∈ node.places.filter keep) :
      ∀ name ∈ names, IsName name := by
    obtain ⟨_, _, found⟩ := (Node.mem_places_iff wf).mp (List.mem_of_mem_filter mem)
    exact wf.isName found
  have parts := Path.parts_joinAll full (isName mem)
  rw [same, Path.parts_joinAll full (isName mem')] at parts
  exact (List.append_cancel_left parts).symm

end SourceFilter

namespace Disk

variable {d : Disk} {filter : SourceFilter} {root : Path} {node : Node}

/-- The node that a walk starts at. A root that is a link to a directory stands for it; with any
other link there is nothing but the link. -/
def top (d : Disk) (root : Path) : Except IoError Node :=
  match d.get false root with
  | .ok (.link target) => (d.stat root).map fun node ↦ if node.isDir then node else .link target
  | found => found

theorem walk_eq_top (d : Disk) (filter : SourceFilter) (root : Path) :
    d.walk filter root =
      match d.top root with
      | .error e => [.error ⟨root, e⟩]
      | .ok node => (filter.files root node).map .ok := by
  rw [walk, top]
  rcases d.get false root with e | (_ | target | _)
  · rfl
  · rfl
  · rcases d.stat root with e | (_ | _ | _) <;> rfl
  · rfl

/-- A walk starts somewhere if the root leads anywhere. -/
theorem isOk_top (d : Disk) (root : Path) : (d.top root).isOk = d.exists? root := by
  rw [top, exists?]
  have followed {node : Node} (get : d.get false root = .ok node) (notLink : ¬node.shape.IsLink) :
      d.stat root = .ok node := by
    obtain ⟨names, located, found⟩ := get_eq_ok_iff.mp get
    obtain ⟨legal, count, enough, reaches⟩ := locate_eq_ok_iff.mp located
    have solid := (solid_iff_of_node found).mpr notLink
    have reaches := reaches.followed fun target link ↦ by
      obtain ⟨shape, same, notLink⟩ := solid
      rw [link] at same
      cases same
      exact notLink trivial
    exact get_eq_ok_iff.mpr ⟨names, locate_eq_ok_iff.mpr ⟨legal, count, enough, reaches⟩, found⟩
  cases get : d.get false root with
  | error e =>
    cases stat : d.stat root with
    | error e => rfl
    | ok node =>
      obtain ⟨names, located, found⟩ := get_eq_ok_iff.mp stat
      obtain located | ⟨target, link⟩ := locate_false_or_link located
      · cases get.symm.trans (get_eq_ok_iff.mpr ⟨names, located, found⟩)
      · cases get.symm.trans link
  | ok node =>
    cases node with
    | link target => cases d.stat root <;> rfl
    | file content t => rw [followed get id]
    | dir entries t => rw [followed get id]

theorem ne_empty_of_top (h : d.top root = .ok node) : root ≠ "" := by
  rintro rfl
  cases get : d.get false "" with
  | error e =>
    rw [top, get] at h
    cases h
  | ok node =>
    obtain ⟨names, located, -⟩ := get_eq_ok_iff.mp get
    exact (locate_eq_ok_iff.mp located).1.ne_empty rfl

theorem wellFormed_of_top (wf : d.root.WellFormed) (h : d.top root = .ok node) :
    node.WellFormed := by
  have found {follow : Bool} {node : Node} (get : d.get follow root = .ok node) :
      node.WellFormed := by
    obtain ⟨names, -, found⟩ := get_eq_ok_iff.mp get
    exact wf.at? found
  rw [top] at h
  split at h
  · cases stat : d.stat root with
    | error e => simp [stat, Except.map] at h
    | ok other =>
      simp only [stat, Except.map, Except.ok.injEq] at h
      subst h
      split
      · exact found stat
      · exact .link _
  · exact found h

/-- A walk from a root lists the files that the filter keeps. -/
theorem walk_of_top (wf : d.root.WellFormed) (filter : SourceFilter) (h : d.top root = .ok node) :
    d.walk filter root =
      (node.places.filter (filter.keeps root)).map fun names ↦ .ok (root.joinAll names) := by
  rw [walk_eq_top, h]
  dsimp only
  rw [SourceFilter.files_eq_places filter root (wellFormed_of_top wf h), List.map_map]
  rfl

namespace Enumeration

/-- A directory with a directory, a script, a link, another file and a directory of others. -/
def sources : Disk where
  root := .dir [("src", .dir [
    ("B", .dir [("z.PHP", .file [] (.of 1 0))] (.of 1 0)),
    ("a.php", .file [] (.of 1 0)),
    ("link", .link "B"),
    ("notes.txt", .file [] (.of 1 0)),
    ("vendor", .dir [("lib.php", .file [] (.of 1 0))] (.of 1 0))] (.of 1 0))] (.of 1 0)
  workingDir := []
  now := .of 1 0

theorem wellFormed_sources : sources.root.WellFormed := by
  have single (name : String) (node : Node) (isName : IsName name) (wf : node.WellFormed) :
      (Node.dir [(name, node)] (.of 1 0)).WellFormed :=
    .dir _ (List.pairwise_singleton _ _) (by simpa using isName) (by simpa using wf)
  refine single "src" _ (by decide) (.dir _ ?_ ?_ ?_)
  · simp only [List.pairwise_cons, List.forall_mem_cons]
    decide
  · simp only [List.forall_mem_cons]
    decide
  · simp only [List.forall_mem_cons]
    exact ⟨single _ _ (by decide) (.file _ _), .file _ _, .link _, .file _ _,
      single _ _ (by decide) (.file _ _), by simp⟩

end Enumeration

open Enumeration

end Disk

end ScriptCache
