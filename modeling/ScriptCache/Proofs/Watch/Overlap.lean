import ScriptCache.Proofs.Engine.Unordered
import ScriptCache.Proofs.Watch.Freshness
import ScriptCache.Proofs.Watch.Roots

/-!
# Roots that overlap

The walk from one root finds a file once. A watch walks one root after the other, and a file that
several of them lead to is found that often. Each time it is stale again, where the stale files are
compiled and where they are counted.
-/

namespace ScriptCache

open Call
open Disk (Below)
open Memory (batch)

/-! ## The files that a walk lists -/

namespace SourceFilter

variable {filter : SourceFilter} {p q : Path} {node : Node}

theorem parts_of_mem_files (wf : node.WellFormed) (full : p ≠ "") (mem : q ∈ filter.files p node) :
    p.parts <+: q.parts := by
  induction wf generalizing p with
  | link => cases mem
  | file content t =>
    rw [files] at mem
    split at mem
    · cases List.mem_singleton.mp mem
      exact List.prefix_rfl
    · cases mem
  | @dir entries t _ names _ ih =>
    rw [files, filesIn_eq] at mem
    obtain ⟨e, at_e, mem⟩ := List.mem_flatMap.mp mem
    split at mem
    · cases mem
    · have below := ih e at_e (Path.join_ne_empty full (names e at_e)) mem
      rw [Path.parts_join full (names e at_e)] at below
      exact (List.prefix_append _ _).trans below

theorem parts_of_mem_entry {e : String × Node} (wf : e.2.WellFormed) (name : Path.IsName e.1)
    (full : p ≠ "")
    (mem : q ∈ if e.2.isDir && filter.excludedDirs.contains e.1 then []
      else filter.files (p.join e.1) e.2) : p.parts ++ [e.1] <+: q.parts := by
  split at mem
  · cases mem
  · rw [← Path.parts_join full name]
    exact parts_of_mem_files wf (Path.join_ne_empty full name) mem

/-- A file is listed once, since the paths below different entries of a directory differ. -/
theorem nodup_files (wf : node.WellFormed) (full : p ≠ "") : (filter.files p node).Nodup := by
  induction wf generalizing p with
  | link => exact List.nodup_nil
  | file content t =>
    rw [files]
    split
    · exact List.nodup_singleton p
    · exact List.nodup_nil
  | @dir entries t sorted names nodes ih =>
    rw [files, filesIn_eq, List.nodup_flatMap]
    constructor
    · intro e at_e
      split
      · exact List.nodup_nil
      · exact ih e at_e (Path.join_ne_empty full (names e at_e))
    · refine sorted.imp_of_mem ?_
      intro e e' at_e at_e' lt q mem mem'
      have below := parts_of_mem_entry (nodes e at_e) (names e at_e) full mem
      have below' := parts_of_mem_entry (nodes e' at_e') (names e' at_e') full mem'
      have same := (List.prefix_of_prefix_length_le below below' (by simp)).eq_of_length (by simp)
      have name : e.1 = e'.1 := by simpa using same
      exact String.ne_of_lt lt name

end SourceFilter

namespace Disk

variable {d : Disk} {filter : SourceFilter} {root p : Path} {names : List String} {m : Int}

/-- Of the listed files those are found that can be looked at, under their canonical paths. -/
theorem found_sublist {listed canonical : List Path}
    (h : List.Forall₂ (d.Listed names) listed canonical) :
    ((listed.map d.probe).filterMap DiskEntry.found?).Sublist canonical := by
  induction h with
  | nil => exact .slnil
  | @cons p q _ _ first _ ih =>
    rw [List.map_cons, List.filterMap_cons]
    cases looked : d.sourceFile p with
    | error e =>
      have none : (d.probe p).found? = none := by
        rw [probe, looked]
        rfl
      rw [none]
      exact ih.cons q
    | ok file =>
      have some : (d.probe p).found? = some q := by
        rw [probe, looked, ← first.path_eq looked]
        rfl
      rw [some]
      exact ih.cons_cons q

/-- A walk from one root finds no file twice. -/
theorem nodup_found (wf : d.root.WellFormed) (settled : d.Settled) (filter : SourceFilter)
    (root : Path) : ((d.watched filter [root]).filterMap DiskEntry.found?).Nodup := by
  by_cases none : d.watched filter [root] = []
  · rw [none]
    exact List.nodup_nil
  · obtain ⟨entry, mem⟩ := List.exists_mem_of_ne_nil _ none
    obtain ⟨names, enters⟩ := exists_enters_of_watched mem
    obtain ⟨node, found⟩ := enters.exists_node
    rw [watched_of_enters enters found]
    exact (found_sublist (enters.listed filter wf settled found)).nodup
      (SourceFilter.nodup_files (wf.at? found) (absolute_ne_empty names))

/-- Neither of the two roots leads into what the other one leads to. -/
def Apart (d : Disk) (root root' : Path) : Prop :=
  ∀ k k', d.canonicalize root = .ok k → d.canonicalize root' = .ok k' → ¬Below k k' ∧ ¬Below k' k

theorem Apart.not_found {root' : Path} {m' : Int} (h : d.Apart root root') (wf : d.root.WellFormed)
    (settled : d.Settled) (mem : .found p m ∈ d.watched filter [root]) :
    .found p m' ∉ d.watched filter [root'] := by
  intro mem'
  obtain ⟨names, enters⟩ := exists_enters_of_watched mem
  obtain ⟨names', enters'⟩ := exists_enters_of_watched mem'
  have canonical := canonicalize_eq_ok_iff.mpr ⟨names, enters.located, rfl⟩
  have canonical' := canonicalize_eq_ok_iff.mpr ⟨names', enters'.located, rfl⟩
  obtain ⟨out, out'⟩ := h _ _ canonical canonical'
  have below := below_of_mem_watched wf settled canonical mem
  exact (below.nested (below_of_mem_watched wf settled canonical' mem')).elim out out'

end Disk

/-! ## How often a file is stale -/

section Stale

variable {α : Type} {entries : List DiskEntry} {r : Registry} {p : Path}

theorem count_flatMap_of_nodup [DecidableEq α] {β : Type} {f : β → List α} {l : List β}
    (nodup : ∀ x ∈ l, (f x).Nodup) (a : α) :
    (l.flatMap f).count a = l.countP fun x ↦ a ∈ f x := by
  induction l with
  | nil => rfl
  | cons x l ih =>
    obtain ⟨first, others⟩ := List.forall_mem_cons.mp nodup
    rw [List.flatMap_cons, List.count_append, ih others, List.countP_cons, Nat.add_comm,
      first.count]
    simp only [decide_eq_true_eq]

theorem staleOnDisk_sublist (entries : List DiskEntry) (r : Registry) :
    (staleOnDisk entries r).Sublist (entries.filterMap DiskEntry.found?) := by
  have found : staleOnDisk entries r = (entries.filter (·.isStale r)).filterMap DiskEntry.found? := by
    rw [staleOnDisk, ← List.filterMap_eq_map]
    refine List.filterMap_congr ?_
    intro e mem
    cases e with
    | found => rfl
    | missing => cases (List.mem_filter.mp mem).2
  rw [found]
  exact List.filter_sublist.filterMap _

theorem staleOnDisk_flatMap (f : α → List DiskEntry) (l : List α) (r : Registry) :
    staleOnDisk (l.flatMap f) r = l.flatMap fun x ↦ staleOnDisk (f x) r := by
  simp only [staleOnDisk, List.filter_flatMap, List.map_flatMap]

end Stale

/-! ## What is asked of the cache -/

namespace LocalWatch

variable {w : LocalWatch} {d : Disk} {c : Memory} {r : Registry} {p : Path}

theorem mutations_cycle (w : LocalWatch) (d : Disk) (active : c.Active) :
    mutations ((w.cycle d (Memory.runtime d).traced).runFrom (c, [])).2.2 =
      (w.plan d c.scripts).orders := by
  have asked : ∃ result c₁ calls, (w.cycle d (Memory.runtime d).traced).runFrom (c, []) =
      (result, c₁, [.loaded true, .enabled true, .scripts c.scripts] ++ calls) ∧
        Carried (w.plan d c.scripts) calls result :=
    Memory.exists_runFrom_status_bind active ((Memory.runtime d).emits_apply _)
  obtain ⟨result, c₁, calls, traced, carried⟩ := asked
  have untraced : (w.cycle d (Memory.runtime d)).runFrom c = _ :=
    EngineM.runFrom_untraced (fun kept ↦ kept.alike.cycle w d) c
  obtain ⟨report, c₁, ended⟩ := exists_runFrom_apply (d := d) (w.plan d c.scripts) active
  rw [runFrom_cycle active, ended, traced] at untraced
  cases untraced
  rw [traced]
  exact carried.mutations_of_ok

theorem entries_eq_flatMap (w : LocalWatch) (d : Disk) :
    w.entries d = w.roots.flatMap fun root ↦ d.watched w.filter [root] :=
  Disk.watched_eq_flatMap w.roots

/-- The number of roots whose walks find the file. -/
def times (w : LocalWatch) (d : Disk) (p : Path) : Nat :=
  w.roots.countP fun root ↦ p ∈ (d.watched w.filter [root]).filterMap DiskEntry.found?

section Times

variable (wf : d.root.WellFormed) (settled : d.Settled)
include wf settled

theorem count_staleOnDisk (stale : p ∈ staleOnDisk (w.entries d) r) :
    (staleOnDisk (w.entries d) r).count p = w.times d p := by
  obtain ⟨m, k, found, recorded, lt⟩ := mem_staleOnDisk_iff.mp stale
  have entries := w.entries_eq_flatMap d
  have known := isKnown_entries w settled
  rw [entries] at known ⊢
  rw [staleOnDisk_flatMap, count_flatMap_of_nodup, times]
  · apply List.countP_congr
    intro root mem
    simp only [decide_eq_true_eq]
    refine ⟨fun old ↦ (staleOnDisk_sublist _ r).subset old, ?_⟩
    -- whatever root finds the file finds it with the same time
    intro mem'
    obtain ⟨e, at_e, same⟩ := List.mem_filterMap.mp mem'
    cases e with
    | missing => cases same
    | found q m' =>
      cases same
      have again := known _ (List.mem_flatMap.mpr ⟨root, mem, at_e⟩)
      rw [entries] at found
      cases (known _ found).unique again
      exact mem_staleOnDisk_iff.mpr ⟨m, k, at_e, recorded, lt⟩
  · intro root _
    exact (staleOnDisk_sublist _ r).nodup (Disk.nodup_found wf settled w.filter root)

theorem length_staleOnDisk (w : LocalWatch) (r : Registry) :
    let stale := staleOnDisk (w.entries d) r
    stale.length = (stale.dedup.map (w.times d)).sum := by
  intro stale
  rw [← List.sum_map_count_dedup_eq_length stale]
  apply congrArg
  apply List.map_congr_left
  intro p mem
  exact count_staleOnDisk wf settled (List.mem_dedup.mp mem)

theorem nodup_staleOnDisk (apart : w.roots.Pairwise d.Apart) :
    (staleOnDisk (w.entries d) r).Nodup := by
  rw [w.entries_eq_flatMap d, staleOnDisk_flatMap, List.nodup_flatMap]
  constructor
  · intro root _
    exact (staleOnDisk_sublist _ r).nodup (Disk.nodup_found wf settled w.filter root)
  · refine apart.imp ?_
    intro root root' apart p stale stale'
    obtain ⟨m, -, found, -⟩ := mem_staleOnDisk_iff.mp stale
    obtain ⟨m', -, found', -⟩ := mem_staleOnDisk_iff.mp stale'
    exact apart.not_found wf settled found found'

end Times

namespace Sample

/-- A watch on a release and on the link to it. -/
def doubled (threshold : Nat) : LocalWatch := .of (releases "r1") .scripts ["/r1", "/live"] threshold

/-- The script of the release, from an earlier time. -/
def outdated : Memory := { scripts := .ofList [("/r1/a.php", 5)] }

theorem entries_doubled (threshold : Nat) :
    (doubled threshold).entries (releases "r1") =
      [.found "/r1/a.php" 10, .found "/r1/a.php" 10] := by
  have direct : (releases "r1").canonicalize "/r1" = .ok "/r1" := by cbv
  have linked : (releases "r1").canonicalize "/live" = .ok "/r1" := by cbv
  have walk : (releases "r1").walkAll .scripts ["/r1", "/r1"] =
      [.ok "/r1/a.php", .ok "/r1/a.php"] := by cbv
  have found : (releases "r1").probe "/r1/a.php" = .found "/r1/a.php" 10 := by cbv
  simp [LocalWatch.entries, doubled, of, direct, linked, walk, found, Except.toOption]

theorem stale_doubled (threshold : Nat) :
    staleOnDisk ((doubled threshold).entries (releases "r1")) outdated.scripts =
      ["/r1/a.php", "/r1/a.php"] := by
  rw [entries_doubled]
  cbv

theorem unresolved_doubled (threshold : Nat) :
    unresolvedOnDisk ((doubled threshold).entries (releases "r1")) outdated.scripts = [] := by
  rw [entries_doubled]
  rfl

end Sample

open Sample

end LocalWatch

end ScriptCache
