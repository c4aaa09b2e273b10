import ScriptCache.Proofs.Disk.Parent
import ScriptCache.Proofs.Watch.Freshness
import ScriptCache.Proofs.Watch.Roots

/-!
# What a scan and a watch find

A scan walks its roots as they are given, and a watch walks their canonical paths. Both come by the
same files in the same order, and judge each of them alike.
-/

namespace ScriptCache

open Disk (Legal absolute)
open Memory (check outcome batch)

variable {d : Disk} {filter : SourceFilter} {p q root : Path} {names : List String}
  {file : SourceFile}

theorem Disk.exists_absolute_append (names rest : List String) :
    ∃ s : String, absolute (names ++ rest) = absolute names ++ s := by
  obtain ⟨s, eq⟩ := Path.exists_intercalate_append names rest
  exact ⟨s, by rw [absolute, absolute, eq, String.append_assoc]⟩

namespace Disk

theorem legal_of_sourceFile (looked : d.sourceFile p = .ok file) : Legal p ∧ Legal file.path := by
  obtain ⟨canonical, node, stat, -⟩ := sourceFile_eq_ok_iff.mp looked
  obtain ⟨_, located, -⟩ := canonicalize_eq_ok_iff.mp canonical
  obtain ⟨_, located', -⟩ := get_eq_ok_iff.mp stat
  exact ⟨(locate_eq_ok_iff.mp located).1, (locate_eq_ok_iff.mp located').1⟩

/-- A canonical path under which something is found leads to its own node. -/
theorem locate_of_sourceFile (isName : ∀ name ∈ names, Path.IsName name) (solid : d.Solid names)
    (looked : d.sourceFile (absolute names) = .ok file) :
    d.locate true (absolute names) = .ok names := by
  obtain ⟨canonical, -⟩ := sourceFile_eq_ok_iff.mp looked
  obtain ⟨other, located, -⟩ := canonicalize_eq_ok_iff.mp canonical
  rwa [locate_absolute isName solid located] at located

namespace Listed

/-- A file is found under the path that it is listed under exactly if it is found under its
canonical path, unless the first one is longer than paths may be. -/
theorem sourceFile_eq (h : d.Listed names p q) (settled : d.Settled) (legal : Legal p) :
    (d.sourceFile p).toOption = (d.sourceFile q).toOption := by
  cases looked : d.sourceFile p with
  | ok file =>
    have again := sourceFile_path settled looked
    rw [h.path_eq looked] at again
    rw [again]
  | error e =>
    cases canonical : d.sourceFile q with
    | error => rfl
    | ok file =>
      exfalso
      cases h with
      | @file rest content t isName way found plain =>
        have solid := (solid_iff_of_node found).mpr id
        have located := locate_of_sourceFile isName solid canonical
        obtain ⟨-, short⟩ :=
          (locate_absolute_iff (root_dir_of_locate located) isName solid).mp located
        have there : d.locate true p = .ok (names ++ rest) := by
          rw [locate_eq_ok_iff, steps_eq, plain, if_neg Bool.false_ne_true, List.append_nil]
          exact ⟨legal, way.reaches short⟩
        rw [sourceFile, canonicalize, there, Except.map] at looked
        rw [sourceFile, canonicalize, located, Except.map] at canonical
        cases looked.symm.trans canonical

/-- A directory with a file that is found is itself found under its canonical path. -/
theorem locate_names (h : d.Listed names p q) (settled : d.Settled) (solid : d.Solid names)
    (looked : d.sourceFile p = .ok file) : d.locate true (absolute names) = .ok names := by
  have again := sourceFile_path settled looked
  rw [h.path_eq looked] at again
  cases h with
  | @file rest content t isName way found plain =>
    have file_solid := (solid_iff_of_node found).mpr id
    have located := locate_of_sourceFile isName file_solid again
    have root_dir := root_dir_of_locate located
    obtain ⟨legal, short⟩ := (locate_absolute_iff root_dir isName file_solid).mp located
    obtain ⟨s, eq⟩ := exists_absolute_append names rest
    rw [eq] at legal
    exact (locate_absolute_iff root_dir (fun n hn ↦ isName n (List.mem_append_left _ hn)) solid).mpr
      ⟨legal.of_append (absolute_ne_empty names), fun n hn ↦ short n (List.mem_append_left _ hn)⟩

/-- A listed file that is found can be read. -/
theorem read (h : d.Listed names p q) (looked : d.sourceFile p = .ok file) :
    ∃ content, d.read file.path = .ok content := by
  have path := h.path_eq looked
  obtain ⟨-, node, stat, -⟩ := sourceFile_eq_ok_iff.mp looked
  rw [path] at stat ⊢
  cases h with
  | @file rest content t isName way found plain =>
    obtain ⟨other, located, there⟩ := get_eq_ok_iff.mp stat
    cases locate_absolute isName ((solid_iff_of_node found).mpr id) located
    cases found.symm.trans there
    exact ⟨content, by rw [Disk.read, stat]⟩

end Listed

/-- The path is a link, and it leads to a file. -/
def IsFileLink (d : Disk) (p : Path) : Prop :=
  ∃ target content t, d.get false p = .ok (.link target) ∧ d.stat p = .ok (.file content t)

/-- A root that leads anywhere is entered, unless it is a link to a file. -/
theorem enters_of_plain (located : d.locate true root = .ok names) (plain : ¬d.IsFileLink root) :
    d.Enters root names := by
  refine enters_of_locate located (or_iff_not_imp_right.mpr fun link ↦ ?_)
  push Not at link
  obtain ⟨target, link⟩ := link
  obtain ⟨node, found⟩ : ∃ node, d.node? names = some node := by
    obtain ⟨shape, found, -⟩ := solid_of_locate located
    obtain ⟨node, found, -⟩ := Option.map_eq_some_iff.mp found
    exact ⟨node, found⟩
  have stat : d.stat root = .ok node := get_eq_ok_iff.mpr ⟨names, located, found⟩
  have notLink := (solid_iff_of_node found).mp (solid_of_locate located)
  cases node with
  | file content t => exact absurd ⟨target, content, t, link, stat⟩ plain
  | link => exact absurd trivial notLink
  | dir => rw [isDir, stat]; rfl

/-- The source files that a walk from these roots finds. -/
def foundFiles (d : Disk) (filter : SourceFilter) (roots : List Path) : List SourceFile :=
  (d.walkAll filter roots).filterMap fun item ↦ item.toOption.bind fun p ↦ (d.sourceFile p).toOption

theorem foundFiles_eq_flatMap (roots : List Path) :
    d.foundFiles filter roots = roots.flatMap fun root ↦ d.foundFiles filter [root] := by
  simp only [foundFiles, walkAll, List.filterMap_flatMap, List.flatMap_singleton]

theorem foundFiles_of_enters {node : Node} (h : d.Enters root names)
    (found : d.node? names = some node) :
    d.foundFiles filter [root] =
      (filter.files root node).filterMap fun p ↦ (d.sourceFile p).toOption := by
  rw [foundFiles, walkAll, List.flatMap_singleton, walk_of_enters h found, List.filterMap_map]
  rfl

theorem foundFiles_eq_nil (h : ∀ names, ¬d.Enters root names) : d.foundFiles filter [root] = [] := by
  rw [foundFiles, walkAll, List.flatMap_singleton, List.filterMap_eq_nil_iff]
  intro item walked
  cases item with
  | error => rfl
  | ok p =>
    obtain ⟨names, enters⟩ := exists_enters_of_walked walked
    exact absurd enters (h names)

/-- No file is found under a root whose canonical path cannot be followed. -/
theorem foundFiles_eq_nil_of_lost (wf : d.root.WellFormed) (settled : d.Settled)
    (h : d.Enters root names) (lost : d.locate true (absolute names) ≠ .ok names) :
    d.foundFiles filter [root] = [] := by
  obtain ⟨node, found⟩ := h.exists_node
  rw [foundFiles_of_enters h found, List.filterMap_eq_nil_iff]
  intro p mem
  cases looked : d.sourceFile p with
  | error e => rfl
  | ok file =>
    obtain ⟨q, listed⟩ := h.exists_listed wf settled found mem
    exact absurd (listed.locate_names settled h.solid looked) lost

/-- A walk from a root and one from its canonical path find the same files. -/
theorem foundFiles_absolute (wf : d.root.WellFormed) (settled : d.Settled)
    (h : d.Enters root names) (legal : ∀ p, .ok p ∈ d.walk filter root → Legal p) :
    d.foundFiles filter [absolute names] = d.foundFiles filter [root] := by
  obtain ⟨node, found⟩ := h.exists_node
  by_cases again : d.locate true (absolute names) = .ok names
  · have enters := enters_absolute (h.isName settled) h.solid again
    have legal_files : ∀ p ∈ filter.files root node, Legal p := by
      intro p mem
      refine legal p ?_
      rw [walk_of_enters h found]
      exact List.mem_map_of_mem mem
    have listed :=
      (List.forall₂_and_left _ _).mpr ⟨legal_files, h.listed filter wf settled found⟩
    have same : List.Forall₂ (· = ·)
        ((filter.files root node).map fun p ↦ (d.sourceFile p).toOption)
        ((filter.files (absolute names) node).map fun p ↦ (d.sourceFile p).toOption) := by
      rw [List.forall₂_map_left_iff, List.forall₂_map_right_iff]
      exact listed.imp fun p q ⟨legal, listed⟩ ↦ listed.sourceFile_eq settled legal
    rw [List.forall₂_eq_eq_eq] at same
    rw [foundFiles_of_enters enters found, foundFiles_of_enters h found]
    simpa only [List.filterMap_map, Function.id_comp] using congrArg (List.filterMap id) same.symm
  · rw [foundFiles_eq_nil_of_lost wf settled h again]
    refine foundFiles_eq_nil fun other enters ↦ ?_
    cases locate_absolute (h.isName settled) h.solid enters.located
    exact again enters.located

open LocalWatch (pinned)

theorem foundFiles_pinned (wf : d.root.WellFormed) (settled : d.Settled)
    (plain : ¬d.IsFileLink root) (legal : ∀ p, .ok p ∈ d.walk filter root → Legal p) :
    d.foundFiles filter [pinned d root] = d.foundFiles filter [root] := by
  cases located : d.locate true root with
  | error e => rw [pinned, canonicalize, located, Except.map]
  | ok names =>
    rw [pinned, canonicalize, located, Except.map]
    exact foundFiles_absolute wf settled (enters_of_plain located plain) legal

theorem foundFiles_map_pinned (wf : d.root.WellFormed) (settled : d.Settled) {roots : List Path}
    (plain : ∀ root ∈ roots, ¬d.IsFileLink root)
    (legal : ∀ p, .ok p ∈ d.walkAll filter roots → Legal p) :
    d.foundFiles filter (roots.map (pinned d)) = d.foundFiles filter roots := by
  rw [foundFiles_eq_flatMap, foundFiles_eq_flatMap roots, List.flatMap_map]
  refine List.flatMap_congr fun root mem ↦ foundFiles_pinned wf settled (plain root mem) ?_
  exact fun p walked ↦ legal p (List.mem_flatMap.mpr ⟨root, mem, walked⟩)

/-- What a scan says of a walked file, next to what compiling it says. -/
inductive Judged (d : Disk) (p : Path) : ScanResult → Prop where
  | missing {e : IoError} (looked : d.sourceFile p = .error e) : Judged d p (.error (.read p e))
  | accepted {file : SourceFile} {types : List Source.DeclaredType}
      (looked : d.sourceFile p = .ok file) (passed : check d file.path = .ok file) :
      Judged d p (.ok ⟨file, types⟩)
  | refused {file : SourceFile} {cause : Source.ParseError}
      (looked : d.sourceFile p = .ok file)
      (failed : check d file.path = .error ("syntax error, " ++ cause.message)) :
      Judged d p (.error (.parse file.path cause))

theorem Listed.judged (h : d.Listed names p q) (settled : d.Settled) :
    d.Judged p (d.scanFile p) := by
  rw [scanFile]
  cases looked : d.sourceFile p with
  | error e => exact .missing looked
  | ok file =>
    obtain ⟨content, read⟩ := h.read looked
    have again := sourceFile_path settled looked
    simp only [Except.mapError, read, bind, Except.bind]
    cases parsed : Source.Statement.ofSource content with
    | error cause =>
      refine .refused looked ?_
      simp [check, again, read, parsed, Except.mapError, bind, Except.bind]
    | ok statements =>
      refine .accepted looked ?_
      simp [check, again, read, parsed, Except.mapError, bind, Except.bind, pure, Except.pure]

theorem judged_scanWalked (wf : d.root.WellFormed) (settled : d.Settled) {roots : List Path}
    (walked : .ok p ∈ d.walkAll filter roots) : d.Judged p (d.scanFile p) := by
  obtain ⟨root, -, walked⟩ := List.mem_flatMap.mp walked
  obtain ⟨names, q, listed⟩ := exists_listed_of_walked wf settled walked
  exact listed.judged settled

end Disk

namespace ScanResult

/-- What compiling a file is to say, to go by the result of its scan. -/
def verdict? : ScanResult → Option (Path × Except String Unit)
  | .ok types => some (types.file.path, .ok ())
  | .error (.parse p cause) => some (p, .error ("syntax error, " ++ cause.message))
  | .error _ => none

/-- A file that could not be parsed, with the reason that compiling it is to give. -/
def refusal? : ScanResult → Option (Path × String)
  | .error (.parse p cause) => some (p, "syntax error, " ++ cause.message)
  | _ => none

theorem compiled_ofVerdicts (results : List ScanResult) :
    (Outcome.ofVerdicts (results.filterMap verdict?)).compiled =
      (results.filterMap Except.toOption).map (·.file.path) := by
  rw [Outcome.ofVerdicts, List.filterMap_filterMap, List.map_filterMap]
  refine List.filterMap_congr ?_
  rintro ((_ | _ | _) | _) - <;> rfl

theorem failed_ofVerdicts (results : List ScanResult) :
    (Outcome.ofVerdicts (results.filterMap verdict?)).failed = results.filterMap refusal? := by
  rw [Outcome.ofVerdicts]
  dsimp only
  rw [List.filterMap_filterMap]
  refine List.filterMap_congr ?_
  rintro ((_ | _ | _) | _) - <;> rfl

end ScanResult

namespace Disk

theorem verdict?_eq {result : ScanResult} (h : d.Judged p result) :
    result.verdict? = (d.sourceFile p).toOption.map fun file ↦
      (file.path, (check d file.path).map fun _ ↦ ()) := by
  cases h with
  | missing looked => rw [looked]; rfl
  | accepted looked passed =>
    rw [looked, Except.toOption, Option.map_some, passed]
    rfl
  | refused looked failed =>
    rw [looked, Except.toOption, Option.map_some, failed]
    rfl

theorem verdicts_scan (wf : d.root.WellFormed) (settled : d.Settled) (roots : List Path) :
    (d.scan filter roots).filterMap ScanResult.verdict? =
      (d.foundFiles filter roots).map fun file ↦
        (file.path, (check d file.path).map fun _ ↦ ()) := by
  rw [scan, List.filterMap_map, foundFiles, List.map_filterMap]
  refine List.filterMap_congr fun item walked ↦ ?_
  cases item with
  | error => rfl
  | ok p => exact verdict?_eq (judged_scanWalked wf settled walked)

theorem sourceFile_of_mem_scan (wf : d.root.WellFormed) (settled : d.Settled) {roots : List Path}
    {types : FileTypes} (mem : .ok types ∈ d.scan filter roots) :
    d.sourceFile types.file.path = .ok types.file := by
  obtain ⟨item, walked, scanned⟩ := List.mem_map.mp mem
  cases item with
  | error => cases scanned
  | ok p =>
    have judged := judged_scanWalked wf settled walked
    rw [scanWalked] at scanned
    rw [scanned] at judged
    cases judged with
    | accepted looked => exact sourceFile_path settled looked

/-- The files that could not be read are those that could not be found under the path to them. -/
theorem read_error_mem_scan (wf : d.root.WellFormed) (settled : d.Settled) {roots : List Path}
    {e : IoError} : .error (.read p e) ∈ d.scan filter roots ↔
      .ok p ∈ d.walkAll filter roots ∧ d.sourceFile p = .error e := by
  rw [scan, List.mem_map]
  constructor
  · rintro ⟨item, walked, scanned⟩
    cases item with
    | error => cases scanned
    | ok q =>
      have judged := judged_scanWalked wf settled walked
      rw [scanWalked] at scanned
      rw [scanned] at judged
      cases judged with
      | missing looked => exact ⟨walked, looked⟩
  · rintro ⟨walked, looked⟩
    exact ⟨.ok p, walked, by rw [scanWalked, scanFile, looked]; rfl⟩

theorem filterMap_found?_watched (roots : List Path) :
    (d.watched filter roots).filterMap DiskEntry.found? =
      (d.foundFiles filter roots).map (·.path) := by
  rw [watched, List.filterMap_filterMap, foundFiles, List.map_filterMap]
  refine List.filterMap_congr fun item _ ↦ ?_
  cases item with
  | error => rfl
  | ok p =>
    rw [Except.toOption, Option.map_some, Option.bind_some, Option.bind_some, probe]
    cases d.sourceFile p <;> rfl

end Disk

theorem Memory.outcome_eq_ofVerdicts (d : Disk) (paths : List Path) :
    outcome d paths = .ofVerdicts (paths.map fun p ↦ (p, (check d p).map fun _ ↦ ())) := by
  induction paths with
  | nil => rfl
  | cons p paths ih => rw [outcome_cons, ih, Outcome.cons_ofVerdicts, List.map_cons]

namespace LocalWatch

theorem wantedOnDisk_of (wf : d.root.WellFormed) (settled : d.Settled) {roots : List Path}
    (plain : ∀ root ∈ roots, ¬d.IsFileLink root)
    (legal : ∀ p, .ok p ∈ d.walkAll filter roots → Legal p) (threshold : Nat) (r : Registry) :
    wantedOnDisk ((of d filter roots threshold).entries d) r true =
      (d.foundFiles filter roots).map (·.path) := by
  have entries_eq : (of d filter roots threshold).entries d =
      d.watched filter (roots.map (pinned d)) := rfl
  rw [wantedOnDisk_forced, entries_eq, Disk.filterMap_found?_watched,
    Disk.foundFiles_map_pinned wf settled plain legal]

namespace Sample

/-- A script, and a link to it. -/
def linked : Disk where
  root := .dir [("a.php", .file [] (.of 10 0)), ("link.php", .link "a.php")] (.of 1 0)
  workingDir := []
  now := .of 20 0

/-- The top directory, in a path as long as paths may be. -/
def slashes : Path := String.ofList (List.replicate Disk.pathLimit '/')

/-- Directories one in the other, with a node in the last one. -/
def nested (names : List String) (node : Node) : Node :=
  names.foldr (fun name child ↦ .dir [(name, child)] (.of 1 0)) node

/-- Names that together are longer than a path may be. -/
def farNames : List String := List.replicate 17 (String.ofList (List.replicate 250 'd'))

/-- A directory with one script. -/
def single : Node := .dir [("a.php", .file [] (.of 10 0))] (.of 1 0)

/-- A script in a working directory whose path is too long. -/
def far : Disk where
  root := nested farNames single
  workingDir := farNames
  now := .of 20 0

theorem check_linked : check linked "/a.php" = .ok ⟨"/a.php", 10⟩ := by
  have file : linked.sourceFile "/a.php" = .ok ⟨"/a.php", 10⟩ := by cbv
  have content : linked.read "/a.php" = .ok [] := by cbv
  simp [check, file, content, ofSource_nil, bind, Except.bind, Except.mapError, pure, Except.pure]

theorem runFrom_linked {root : Path}
    (wanted : wantedOnDisk ((of linked .scripts [root] 5).entries linked) .empty true = ["/a.php"]) :
    ((of linked .scripts [root] 5).compileAll linked (Memory.runtime linked) true).runFrom {} =
      (.ok { compiled := ["/a.php"] }, { scripts := .ofList [("/a.php", 10)] }) := by
  have outcome : outcome linked ["/a.php"] = { compiled := ["/a.php"] } := by
    simp [Memory.outcome, check_linked, Outcome.cons, Except.map]
  have batch : batch linked {} ["/a.php"] = { scripts := .ofList [("/a.php", 10)] } := by
    simp only [Memory.batch, List.foldl_cons, Memory.attempted, check_linked, List.foldl_nil]
    rfl
  rw [runFrom_compileAll ⟨rfl, rfl⟩, wanted, outcome, batch]

theorem utf8ByteSize_slashes (count : Nat) :
    (String.ofList (List.replicate count '/')).utf8ByteSize = count := by
  rw [String.utf8ByteSize_ofList]
  induction count with
  | zero => rfl
  | succ count ih =>
    rw [List.replicate_succ, String.utf8Len_cons, ih]
    rfl

theorem slashes_ne_empty : slashes ≠ "" := by
  intro empty
  have size := utf8ByteSize_slashes Disk.pathLimit
  rw [← slashes, empty] at size
  cases size

theorem endsWith_slashes : slashes.endsWith "/" := by
  rw [Path.endsWith_slash_iff, slashes, String.toList_ofList, List.getLast?_replicate]
  exact if_neg (by decide)

theorem enters_slashes : linked.Enters slashes [] := by
  have legal : Legal slashes := by
    refine ⟨?_, slashes_ne_empty, (utf8ByteSize_slashes _).le⟩
    rw [String.contains_char_eq, slashes, String.toList_ofList, decide_eq_false_iff_not]
    exact fun mem ↦ absurd (List.eq_of_mem_replicate mem) (by decide)
  have parts : slashes.parts = [] := by
    have none := Disk.parts_append_slashes "" Disk.pathLimit
    rwa [String.empty_append] at none
  have absolute : slashes.isAbsolute := by
    rw [Path.isAbsolute_iff, slashes, String.toList_ofList, List.head?_replicate]
    exact if_neg (by decide)
  have dir : linked.shape? [] = some .dir := rfl
  refine ⟨Disk.locate_eq_ok_iff.mpr ⟨legal, 0, Nat.zero_le _, ?_⟩, .inl dir⟩
  rw [Disk.start, if_pos absolute, Disk.steps_eq, parts, if_pos endsWith_slashes]
  exact .stay dir (.here _)

/-- The scan of a walked file that is not found. -/
theorem scan_of_walk {d : Disk} {root p : Path} (walk : d.walk .scripts root = [.ok p])
    (missing : ∀ file, d.sourceFile p ≠ .ok file) :
    ∃ e, d.scan .scripts [root] = [.error (.read p e)] := by
  cases looked : d.sourceFile p with
  | ok file => exact absurd looked (missing file)
  | error e =>
    refine ⟨e, ?_⟩
    rw [Disk.scan, Disk.walkAll, List.flatMap_singleton, walk, List.map_singleton, Disk.scanWalked,
      Disk.scanFile, looked]
    rfl

theorem scan_slashes : ∃ e, linked.scan .scripts [slashes] =
    [.error (.read (slashes.join "a.php") e)] := by
  have name : Path.IsName "a.php" := by decide
  have accepts : SourceFilter.scripts.accepts (slashes.join "a.php") = true := by
    rw [SourceFilter.accepts_of_endsIn (Disk.endsIn_join slashes_ne_empty name)
      (Disk.endsIn_join (p := "/") (by decide) name)]
    cbv
  have walk : linked.walk .scripts slashes = [.ok (slashes.join "a.php")] := by
    rw [Disk.walk_of_enters enters_slashes rfl]
    simp [linked, SourceFilter.files, SourceFilter.filesIn, Node.isDir, accepts]
  refine scan_of_walk walk fun file looked ↦ ?_
  have short := (Disk.legal_of_sourceFile looked).1.short
  rw [Path.join_eq slashes_ne_empty name, if_pos endsWith_slashes, String.utf8ByteSize_append, slashes,
    utf8ByteSize_slashes] at short
  exact absurd short (by decide +kernel)

theorem at?_nested (names : List String) (node : Node) :
    (nested names node).at? names = some node := by
  induction names with
  | nil => simp [nested]
  | cons name names ih =>
    rw [nested, List.foldr_cons, ← nested, Node.at?, List.lookup_cons_self, Option.bind_some, ih]

theorem wellFormed_nested {names : List String} {node : Node}
    (isName : ∀ name ∈ names, Path.IsName name) (wf : node.WellFormed) :
    (nested names node).WellFormed := by
  induction names with
  | nil => exact wf
  | cons name names ih =>
    obtain ⟨first, others⟩ := List.forall_mem_cons.mp isName
    exact .dir _ (List.pairwise_singleton _ _) (List.forall_mem_singleton.mpr first)
      (List.forall_mem_singleton.mpr (ih others))

theorem isName_farNames : ∀ name ∈ farNames, Path.IsName name := by
  intro name mem
  rw [List.eq_of_mem_replicate mem]
  decide +kernel

theorem wellFormed_far : far.root.WellFormed := by
  have name : Path.IsName "a.php" := by decide
  exact wellFormed_nested isName_farNames (.dir _ (List.pairwise_singleton _ _)
    (List.forall_mem_singleton.mpr name) (List.forall_mem_singleton.mpr (.file [] _)))

theorem enters_far : far.Enters "." farNames := by
  have dir : far.shape? farNames = some .dir :=
    Disk.shape?_eq_dir_iff.mpr ⟨_, _, at?_nested _ _⟩
  have steps : Disk.steps "." = ["."] := by cbv
  have start : far.start "." = farNames := if_neg (by decide +kernel)
  have legal : Legal "." := ⟨by cbv, by decide, by decide⟩
  refine ⟨Disk.locate_eq_ok_iff.mpr ⟨legal, 0, Nat.zero_le _, ?_⟩, .inl dir⟩
  rw [start, steps]
  exact .stay dir (.here _)

theorem files_far : SourceFilter.scripts.files "." single = ["./a.php"] := by
  cbv

theorem walk_far : far.walk .scripts "." = [.ok "./a.php"] := by
  rw [Disk.walk_of_enters enters_far (at?_nested _ _), files_far]
  rfl

/-- The canonical path of the script is too long. -/
theorem sourceFile_far (file : SourceFile) : far.sourceFile "./a.php" ≠ .ok file := by
  intro looked
  have mem : "./a.php" ∈ SourceFilter.scripts.files "." single := by simp [files_far]
  obtain ⟨q, listed⟩ := enters_far.exists_listed wellFormed_far isName_farNames
    (at?_nested farNames single) mem
  have located := listed.locate_names isName_farNames enters_far.solid looked
  exact absurd (Disk.locate_eq_ok_iff.mp located).1.short (by decide +kernel)

theorem runFrom_far :
    ((of far .scripts ["."] 5).compileAll far (Memory.runtime far) true).runFrom {} =
      (.ok {}, {}) := by
  have plain : ∀ root ∈ ["."], ¬far.IsFileLink root := by
    simp only [List.forall_mem_singleton]
    rintro ⟨target, content, t, -, stat⟩
    obtain ⟨names, located, found⟩ := Disk.get_eq_ok_iff.mp stat
    cases enters_far.located.symm.trans located
    cases (at?_nested farNames single).symm.trans found
  have legal : ∀ p, .ok p ∈ far.walkAll .scripts ["."] → Legal p := by
    intro p walked
    rw [Disk.walkAll, List.flatMap_singleton, walk_far] at walked
    cases List.mem_singleton.mp walked
    exact ⟨by cbv, by decide, by decide +kernel⟩
  have none_found : far.foundFiles .scripts ["."] = [] := by
    rw [Disk.foundFiles_of_enters enters_far (at?_nested farNames single), files_far,
      List.filterMap_eq_nil_iff]
    simp only [List.forall_mem_singleton]
    cases looked : far.sourceFile "./a.php" with
    | error => rfl
    | ok file => exact absurd looked (sourceFile_far file)
  rw [runFrom_compileAll ⟨rfl, rfl⟩, wantedOnDisk_of wellFormed_far isName_farNames plain legal,
    none_found]
  rfl

theorem wellFormed_disk : disk.root.WellFormed := by
  have first : Path.IsName "a.php" := by decide
  have second : Path.IsName "b.php" := by decide
  refine .dir _ ?_ (by simp [first, second]) (by simp [Node.WellFormed.file])
  exact List.pairwise_pair.mpr (by decide)

theorem scan_disk : disk.scan .scripts ["/"] =
    [.ok ⟨⟨"/a.php", 10⟩, []⟩, .error (.parse "/b.php" ⟨1, .unmatchedBrace⟩)] := by
  have walked : disk.walkAll .scripts ["/"] = [.ok "/a.php", .ok "/b.php"] := by cbv
  have file : disk.sourceFile "/a.php" = .ok ⟨"/a.php", 10⟩ := by cbv
  have content : disk.read "/a.php" = .ok [] := by cbv
  have file' : disk.sourceFile "/b.php" = .ok ⟨"/b.php", 10⟩ := by cbv
  have content' : disk.read "/b.php" = .ok [0x3C, 0x3F, 0x70, 0x68, 0x70, 0x20, 0x7D] := by cbv
  simp [Disk.scan, walked, Disk.scanWalked, Disk.scanFile, file, content, file', content',
    ofSource_nil, Source.Lexer.ofSource_brace, bind, Except.bind, Except.mapError, pure, Except.pure,
    Source.declaredTypes, Source.Statement.typesOfAll]

end Sample

open Sample

end LocalWatch

end ScriptCache
