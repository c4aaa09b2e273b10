import ScriptCache.Proofs.Disk.Agree
import ScriptCache.Scan

/-!
# Scanning as a function of the tree

What a scan finds below a root depends on the node that the root leads to and on no other. The
links on the way to it have no part in this, as they lead to the same node for every file.
-/

namespace ScriptCache

open Disk (Legal absolute steps nameLimit linkLimit)
open ScriptCache.Path (IsName)
open Source (DeclaredType Statement declaredTypes)

/-- The types that a file with this content declares, if it can be parsed. -/
def contentTypes (content : List UInt8) : List DeclaredType :=
  match Statement.ofSource content with
  | .ok statements => declaredTypes statements
  | .error _ => []

/-- A file at the end of names can be read under the path and under its canonical path. -/
structure Readable (p : Path) (names : List String) : Prop where
  legal : Legal p
  canonical : Legal (absolute names)
  short : ∀ name ∈ names, name.utf8ByteSize ≤ nameLimit

theorem legal_iff {p : Path} :
    Legal p ↔ p.contains '\x00' = false ∧ p ≠ "" ∧ p.utf8ByteSize ≤ Disk.pathLimit :=
  ⟨fun ⟨a, b, c⟩ ↦ ⟨a, b, c⟩, fun ⟨a, b, c⟩ ↦ ⟨a, b, c⟩⟩

theorem readable_iff {p : Path} {names : List String} :
    Readable p names ↔ Legal p ∧ Legal (absolute names) ∧
      ∀ name ∈ names, name.utf8ByteSize ≤ nameLimit :=
  ⟨fun ⟨a, b, c⟩ ↦ ⟨a, b, c⟩, fun ⟨a, b, c⟩ ↦ ⟨a, b, c⟩⟩

instance (p : Path) : Decidable (Legal p) := decidable_of_iff' _ legal_iff

instance (p : Path) (names : List String) : Decidable (Readable p names) :=
  decidable_of_iff' _ readable_iff

namespace SourceFilter

variable (filter : SourceFilter)

mutual

/-- The types that are declared at or below a node that stands at `p` and at the end of names. -/
def typesAt (p : Path) (names : List String) : Node → List DeclaredType
  | .file content _ => if filter.accepts p ∧ Readable p names then contentTypes content else []
  | .link _ => []
  | .dir entries _ => typesIn p names entries

/-- The types that are declared below the entries of a directory. -/
def typesIn (p : Path) (names : List String) : List (String × Node) → List DeclaredType
  | [] => []
  | (name, node) :: entries =>
    (if node.isDir && filter.excludedDirs.contains name then []
      else typesAt (p.join name) (names ++ [name]) node) ++ typesIn p names entries

end

/-- The types below one entry of a directory. -/
def typesOfEntry (p : Path) (names : List String) (e : String × Node) : List DeclaredType :=
  if e.2.isDir && filter.excludedDirs.contains e.1 then []
  else filter.typesAt (p.join e.1) (names ++ [e.1]) e.2

theorem typesIn_eq (p : Path) (names : List String) (entries : Node.Entries) :
    filter.typesIn p names entries = entries.flatMap (filter.typesOfEntry p names) := by
  induction entries with
  | nil => rfl
  | cons e entries ih => rw [typesIn, ih, List.flatMap_cons, typesOfEntry]

theorem filesIn_eq (p : Path) (entries : Node.Entries) :
    filter.filesIn p entries = entries.flatMap fun e ↦
      if e.2.isDir && filter.excludedDirs.contains e.1 then [] else filter.files (p.join e.1) e.2 := by
  induction entries with
  | nil => rfl
  | cons e entries ih => rw [filesIn, ih, List.flatMap_cons]

end SourceFilter

namespace Disk

variable {d : Disk} {follow : Bool} {p root : Path} {here names : List String}

theorem Reaches.short {found : Found} {count : Nat} (h : d.Reaches true here names found count)
    (names_names : ∀ name ∈ names, IsName name) (solid : d.Solid (here ++ names)) :
    ∀ name ∈ names, name.utf8ByteSize ≤ nameLimit := by
  induction names generalizing here count with
  | nil => simp
  | cons name names ih =>
    have name_name := names_names name List.mem_cons_self
    have on : here ++ name :: names = (here ++ [name]) ++ names := by simp
    rw [on] at solid
    cases h with
    | stay => exact absurd rfl name_name.ne_dot
    | up => exact absurd rfl name_name.ne_dots
    | enter looksUp _ rest =>
      exact List.forall_mem_cons.mpr
        ⟨looksUp.short, ih rest (fun n hn ↦ names_names n (List.mem_cons_of_mem _ hn)) solid⟩
    | through looksUp => exact absurd solid.above looksUp.not_solid
    | link _ last => exact absurd rfl last
    | vacant looksUp =>
      obtain ⟨shape, eq, -⟩ := solid.above
      rw [looksUp.child] at eq
      cases eq

/-- The canonical path of a node leads to it exactly if nothing in it is too long. -/
theorem locate_absolute_iff (root_dir : d.shape? [] = some .dir)
    (names_names : ∀ name ∈ names, IsName name) (solid : d.Solid names) :
    d.locate true (absolute names) = .ok names ↔
      Legal (absolute names) ∧ ∀ name ∈ names, name.utf8ByteSize ≤ nameLimit := by
  rw [locate_eq_ok_iff, start, if_pos (isAbsolute_absolute names)]
  refine and_congr_right fun legal ↦ ?_
  by_cases empty : names = []
  · subst empty
    rw [steps_absolute_nil]
    exact ⟨by simp, fun _ ↦ ⟨0, Nat.zero_le _, .stay root_dir (.here _)⟩⟩
  · rw [steps_absolute empty names_names]
    refine ⟨?_, fun short ↦ ⟨0, Nat.zero_le _, reaches_names names_names short solid⟩⟩
    rintro ⟨_, _, reaches⟩
    exact reaches.short names_names solid

/-- The path leads to the node at the end of names, unless something in it is too long. -/
structure Way (d : Disk) (p : Path) (names : List String) : Prop where
  full : p ≠ ""
  leads : ∀ {found : Found} {count : Nat}, d.Reaches true (d.start p) p.parts found count →
    found = .node names
  reaches : (∀ name ∈ names, name.utf8ByteSize ≤ nameLimit) →
    ∃ count ≤ linkLimit, d.Reaches true (d.start p) p.parts (.node names) count

theorem Way.join {name : String} (h : d.Way p names) (isName : IsName name)
    (solid : d.Solid (names ++ [name])) : d.Way (p.join name) (names ++ [name]) := by
  have start : d.start (p.join name) = d.start p := by
    rw [Disk.start, Path.isAbsolute_join h.full isName, Disk.start]
  have parts := Path.parts_join h.full isName
  refine ⟨Path.join_ne_empty h.full isName, fun reaches ↦ ?_, fun short ↦ ?_⟩
  · rw [start, parts] at reaches
    obtain ⟨dir, first, second, before, after, -⟩ := reaches.split (by simp)
    cases h.leads before
    exact after.eq_append (by simpa using isName) solid
  · obtain ⟨count, enough, reaches⟩ :=
      h.reaches fun n mem ↦ short n (List.mem_append_left _ mem)
    obtain ⟨shape, child, notLink⟩ := solid
    have dir : d.shape? names = some .dir := shape?_of_append (by rw [child]; simp) (by simp)
    have last : d.Reaches true names [name] (.node (names ++ [name])) 0 :=
      .enter ⟨dir, isName.ne_dot, isName.ne_dots, short name (by simp), child⟩ notLink (.here _)
    refine ⟨count, enough, ?_⟩
    rw [start, parts]
    exact reaches.append last (by simp)

/-- A way to a directory goes on to what is in it, unless this is a link. -/
theorem Way.child {entries : Node.Entries} {t : Timestamp} {name : String} {node : Node}
    (h : d.Way p names) (names_names : ∀ n ∈ names, IsName n)
    (found : d.node? names = some (.dir entries t)) (looked : entries.lookup name = some node)
    (isName : IsName name) (notLink : ¬node.shape.IsLink) :
    d.Way (p.join name) (names ++ [name]) ∧ (∀ n ∈ names ++ [name], IsName n) ∧
      d.node? (names ++ [name]) = some node := by
  have child := (node?_child found name).trans looked
  refine ⟨h.join isName ((solid_iff_of_node child).mpr notLink), ?_, child⟩
  exact List.forall_mem_append.mpr ⟨names_names, List.forall_mem_singleton.mpr isName⟩

/-- What scanning a file gives depends on its content. -/
theorem typesOf_scanFile {content : List UInt8} {t : Timestamp} (way : d.Way p names)
    (root_dir : d.shape? [] = some .dir) (plain : p.endsWith "/" = false)
    (names_names : ∀ name ∈ names, IsName name)
    (file : d.node? names = some (.file content t)) :
    (d.scanFile p).typesOf = if Readable p names then contentTypes content else [] := by
  have steps_eq : steps p = p.parts := by simp [Disk.steps_eq, plain]
  have solid : d.Solid names := ⟨.file content t, by rw [shape?, file]; rfl, id⟩
  have canonical := locate_absolute_iff root_dir names_names solid
  split
  · rename_i readable
    have located : d.locate true p = .ok names := by
      rw [locate_eq_ok_iff, steps_eq]
      exact ⟨readable.legal, way.reaches readable.short⟩
    have again := canonical.mpr ⟨readable.canonical, readable.short⟩
    have stat : d.stat (absolute names) = .ok (.file content t) :=
      get_eq_ok_iff.mpr ⟨names, again, file⟩
    have source : d.sourceFile p = .ok ⟨absolute names, t.recorded⟩ := by
      simp [sourceFile, canonicalize, located, Except.map, stat, Node.mtime]
    have read : d.read (absolute names) = .ok content := by rw [Disk.read, stat]
    rw [contentTypes, scanFile, source]
    simp only [Except.mapError, read, bind, Except.bind]
    cases Statement.ofSource content <;> rfl
  · rename_i unreadable
    cases located : d.locate true p with
    | error e => simp [scanFile, sourceFile, canonicalize, located, Except.map, Except.mapError, bind,
        Except.bind, ScanResult.typesOf]
    | ok found =>
      obtain ⟨legal, count, -, reaches⟩ := locate_eq_ok_iff.mp located
      rw [steps_eq] at reaches
      cases way.leads reaches
      cases stat : d.stat (absolute names) with
      | error e => simp [scanFile, sourceFile, canonicalize, located, Except.map, stat,
          Except.mapError, bind, Except.bind, ScanResult.typesOf]
      | ok node =>
        obtain ⟨other, again, -⟩ := get_eq_ok_iff.mp stat
        cases locate_absolute names_names solid again
        obtain ⟨canonical_legal, short⟩ := canonical.mp again
        exact absurd ⟨legal, canonical_legal, short⟩ unreadable

/-- The types that the files at or below a node declare. -/
theorem typesOf_files (filter : SourceFilter) {node : Node} (wf : node.WellFormed)
    (way : d.Way p names) (root_dir : d.shape? [] = some .dir)
    (names_names : ∀ name ∈ names, IsName name) (found : d.node? names = some node)
    (plain : ¬node.isDir → p.endsWith "/" = false) :
    (filter.files p node).flatMap (fun q ↦ (d.scanFile q).typesOf) =
      filter.typesAt p names node := by
  induction wf generalizing p names with
  | file content t =>
    have scanned := typesOf_scanFile way root_dir (plain (by simp [Node.isDir])) names_names found
    rw [SourceFilter.files, SourceFilter.typesAt]
    by_cases accepted : filter.accepts p = true
    · simp [accepted, scanned]
    · simp [accepted]
  | link target => simp [SourceFilter.files, SourceFilter.typesAt]
  | @dir entries t sorted isName nodes ih =>
    rw [SourceFilter.files, SourceFilter.typesAt, SourceFilter.filesIn_eq,
      SourceFilter.typesIn_eq, List.flatMap_assoc]
    refine List.flatMap_congr fun e mem ↦ ?_
    rw [SourceFilter.typesOfEntry]
    split
    · rfl
    · obtain ⟨name, child⟩ := e
      have looked := Sorted.lookup_of_mem sorted mem
      have name_name := isName _ mem
      by_cases link : child.shape.IsLink
      · cases child with
        | link => simp [SourceFilter.files, SourceFilter.typesAt]
        | file | dir => exact link.elim
      · obtain ⟨way', names_names', child_found⟩ :=
          way.child names_names found looked name_name link
        exact ih _ mem way' names_names' child_found fun _ ↦
          Path.endsWith_slash_join way.full name_name

/-- The types that are declared below one root. -/
def typesUnder (d : Disk) (filter : SourceFilter) (root : Path) : List DeclaredType :=
  (d.walk filter root).flatMap fun walked ↦ (d.scanWalked walked).typesOf

theorem flatMap_walkAll (filter : SourceFilter) (roots : List Path) :
    (d.walkAll filter roots).flatMap (fun walked ↦ (d.scanWalked walked).typesOf) =
      roots.flatMap (d.typesUnder filter) := by
  rw [walkAll, List.flatMap_assoc]
  rfl

theorem scannedTypes_scan (filter : SourceFilter) (roots : List Path) :
    scannedTypes (d.scan filter roots) =
      (d.walkAll filter roots).flatMap fun walked ↦ (d.scanWalked walked).typesOf := by
  rw [scannedTypes, scan, List.flatMap_map]

/-- A walk enters a root at the node that the root leads to. A root that is a link is entered if it
leads to a directory. -/
structure Enters (d : Disk) (root : Path) (names : List String) : Prop where
  located : d.locate true root = .ok names
  entered : d.shape? names = some .dir ∨ d.locate false root = .ok names

theorem Enters.unique {other : List String} (h : d.Enters root names) (h' : d.Enters root other) :
    names = other :=
  Except.ok.inj (h.located.symm.trans h'.located)

theorem root_dir_of_locate (located : d.locate follow p = .ok names) :
    d.shape? [] = some .dir := by
  obtain ⟨legal, count, -, reaches⟩ := locate_eq_ok_iff.mp located
  exact dir_root (reaches.dir (steps_ne_nil legal.ne_empty))

theorem Enters.root_dir (h : d.Enters root names) : d.shape? [] = some .dir :=
  root_dir_of_locate h.located

theorem Enters.solid (h : d.Enters root names) : d.Solid names := solid_of_locate h.located

theorem Enters.exists_node (h : d.Enters root names) : ∃ node, d.node? names = some node := by
  obtain ⟨shape, found, -⟩ := h.solid
  obtain ⟨node, found, -⟩ := Option.map_eq_some_iff.mp found
  exact ⟨node, found⟩

theorem Enters.way (h : d.Enters root names) : d.Way root names := by
  obtain ⟨legal, count, enough, reaches⟩ := locate_eq_ok_iff.mp h.located
  have bare : ∃ first ≤ linkLimit, d.Reaches true (d.start root) root.parts (.node names) first := by
    rw [steps_eq] at reaches
    split at reaches
    · obtain ⟨dir, first, second, before, after, sum⟩ := reaches.split (by simp)
      cases after.of_stay
      exact ⟨first, by omega, before⟩
    · exact ⟨count, enough, by simpa using reaches⟩
  obtain ⟨first, enough, reaches⟩ := bare
  exact ⟨legal.ne_empty, fun other ↦ other.unique reaches, fun _ ↦ ⟨first, enough, reaches⟩⟩

/-- A path that ends with a slash leads to a directory. -/
theorem Enters.plain (h : d.Enters root names) (not_dir : d.shape? names ≠ some .dir) :
    root.endsWith "/" = false := by
  obtain ⟨legal, count, enough, reaches⟩ := locate_eq_ok_iff.mp h.located
  refine Bool.eq_false_iff.mpr fun ends ↦ ?_
  rw [steps_eq, if_pos ends] at reaches
  obtain ⟨dir, first, second, -, after, -⟩ := reaches.split (by simp)
  have isDir := after.dir (by simp)
  cases after.of_stay
  exact not_dir isDir

section Root

variable {filter : SourceFilter} {node : Node}

theorem walk_of_enters (h : d.Enters root names) (found : d.node? names = some node) :
    d.walk filter root = (filter.files root node).map .ok := by
  have stat : d.stat root = .ok node := get_eq_ok_iff.mpr ⟨names, h.located, found⟩
  have notLink := (solid_iff_of_node found).mp h.solid
  have direct (located : d.locate false root = .ok names) :
      d.walk filter root = (filter.files root node).map .ok := by
    have get : d.get false root = .ok node := get_eq_ok_iff.mpr ⟨names, located, found⟩
    rw [walk, get]
    cases node with
    | link target => exact absurd trivial notLink
    | file | dir => rfl
  obtain dir | located := h.entered
  · obtain located | ⟨target, get⟩ := locate_false_or_link h.located
    · exact direct located
    · obtain ⟨entries, t, eq⟩ := shape?_eq_dir_iff.mp dir
      cases found.symm.trans eq
      rw [walk, get]
      dsimp only
      rw [stat]
      rfl
  · exact direct located

/-- Only a root that is entered has files. -/
theorem exists_enters_of_walked (walked : .ok p ∈ d.walk filter root) :
    ∃ names, d.Enters root names := by
  rw [walk] at walked
  cases get : d.get false root with
  | error e => simp [get] at walked
  | ok node =>
    obtain ⟨names, located, found⟩ := get_eq_ok_iff.mp get
    have direct (notLink : ¬node.shape.IsLink) : ∃ names, d.Enters root names := by
      obtain ⟨legal, count, enough, reaches⟩ := locate_eq_ok_iff.mp located
      have followed := reaches.followed fun target link ↦ notLink (by
        rw [shape?, found] at link
        rw [Option.some.inj link]
        trivial)
      exact ⟨names, locate_eq_ok_iff.mpr ⟨legal, count, enough, followed⟩, .inr located⟩
    cases node with
    | file | dir => exact direct id
    | link target =>
      cases stat : d.stat root with
      | error e => simp [get, stat] at walked
      | ok other =>
        cases other with
        | file | link => simp [get, stat] at walked
        | dir entries t =>
          obtain ⟨names, located, found⟩ := get_eq_ok_iff.mp stat
          exact ⟨names, located, .inl (shape?_eq_dir_iff.mpr ⟨entries, t, found⟩)⟩

theorem exists_enters (h : d.typesUnder filter root ≠ []) : ∃ names, d.Enters root names := by
  obtain ⟨type, mem⟩ := List.exists_mem_of_ne_nil _ h
  obtain ⟨item, walked, mem⟩ := List.mem_flatMap.mp mem
  cases item with
  | error e => cases mem
  | ok p => exact exists_enters_of_walked walked

/-- What is declared below a root is decided by the node where the walk enters. -/
theorem typesUnder_of_enters (wf : d.root.WellFormed) (settled : d.Settled)
    (h : d.Enters root names) (found : d.node? names = some node) :
    d.typesUnder filter root = filter.typesAt root names node := by
  rw [typesUnder, walk_of_enters h found, List.flatMap_map]
  refine typesOf_files filter (wf.at? found) h.way h.root_dir (isName_of_locate settled h.located)
    found fun not_dir ↦ h.plain fun dir ↦ not_dir ?_
  obtain ⟨entries, t, eq⟩ := shape?_eq_dir_iff.mp dir
  cases found.symm.trans eq
  rfl

end Root

end Disk

end ScriptCache
