import ScriptCache.Proofs.Reconcile.Orders
import ScriptCache.Proofs.Watch.Entries
import ScriptCache.Proofs.Watch.Local

/-!
# The roots of a watch

A watch keeps its roots as they were when it was made: canonical, as far as they led anywhere. What
it works on later is what a walk from these roots finds then. A root that is a link stands for the
directory that it led to, also after it leads to another one.
-/

namespace ScriptCache

open Disk (Below)
open Call

variable {σ α : Type}

/-- An active cache shows its scripts once and then gets all that is ordered for them. Another one
gets no more than that. -/
structure Works (orders : Registry → List Mutation) (calls : List Call) : Prop where
  complete : Active calls → ∃ own, registries calls = [own] ∧ mutations calls = orders own
  bounded : mutations calls = [] ∨
    ∃ own, registries calls = [own] ∧ mutations calls <+: orders own

theorem Runtime.emits_works (rt : Runtime σ) {orders : Registry → List Mutation}
    {f : Registry → EngineM (σ × List Call) α}
    {P : Registry → List Call → Except EngineError α → Prop} (h : ∀ own, (f own).Emits (P own))
    (shown : ∀ own calls result, P own calls result → registries calls = [])
    (bounded : ∀ own calls result, P own calls result → mutations calls <+: orders own)
    (complete : ∀ own calls result, P own calls result → Active calls →
      mutations calls = orders own) :
    (rt.traced.status >>= f).Emits fun calls _ ↦ Works orders calls := by
  refine (rt.emits_status_bind h).mono ?_
  rintro calls result (⟨e, checks, -⟩ | ⟨own, new, rfl, holds⟩)
  · exact ⟨fun active ↦ absurd active checks.not_active, .inl checks.mutations⟩
  · have once := congrArg (own :: ·) (shown own new result holds)
    refine ⟨fun active ↦ ⟨own, once, ?_⟩, .inr ⟨own, once, ?_⟩⟩
    · exact complete own new result holds (active_append.mp active).2
    · exact bounded own new result holds

namespace LocalWatch

/-- What a cycle orders for the entries of the watched files. -/
def cycleOrders (entries : List DiskEntry) (threshold : Nat) (own : Registry) : List Mutation :=
  (Plan.of (staleOnDisk entries own) (unresolvedOnDisk entries own) threshold).orders

/-- What compiling all files orders for their entries. -/
def compileOrders (entries : List DiskEntry) (force : Bool) (own : Registry) : List Mutation :=
  (entries.filterMap (wants own force)).map .compile

section Calls

variable (w : LocalWatch) (d : Disk) (rt : Runtime σ)

theorem emits_cycle : (w.cycle d rt.traced).Emits fun calls _ ↦
    Works (cycleOrders (w.entries d) w.resetThreshold) calls :=
  rt.emits_works (fun _ ↦ rt.emits_apply _) (fun _ _ _ carried ↦ carried.registries)
    (fun _ _ _ carried ↦ carried.mutations_prefix) fun _ _ _ carried active ↦
      (carried.complete active).1

theorem emits_compileAll (force : Bool) : (w.compileAll d rt.traced force).Emits fun calls _ ↦
    Works (compileOrders (w.entries d) force) calls :=
  rt.emits_works (fun _ ↦ rt.emits_compileMany _) (fun _ _ _ batch ↦ batch.registries)
    (fun _ _ _ batch ↦ batch.mutations_prefix) fun _ _ _ batch active ↦ (batch.complete active).1

end Calls

/-- The path that a watch keeps for a root. -/
def pinned (d : Disk) (root : Path) : Path :=
  match d.canonicalize root with
  | .ok canonical => canonical
  | .error _ => root

variable {d₀ d : Disk} {filter : SourceFilter} {root k : Path}

/-- A root for which it does not matter that the watch was made earlier. -/
inductive Steady (d₀ d : Disk) (filter : SourceFilter) (root : Path) : Prop where
  /-- The root led nowhere. -/
  | absent {e : IoError} (was : d₀.canonicalize root = .error e)
  /-- The root leads where it led, is no link to a file, and the files in it can be looked at. -/
  | still {k : Path} {m : Int} (was : d₀.canonicalize root = .ok k)
      (now : d.sourceFile root = .ok ⟨k, m⟩)
      (entered : d.isDir root ∨ ∀ target, d.get false root ≠ .ok (.link target))
      (looked : ∀ p, .ok p ∈ d.walk filter root → ∃ file, d.sourceFile p = .ok file)
  /-- Neither the root nor the path that it had leads anywhere. -/
  | gone {k : Path} {e e' : IoError} (was : d₀.canonicalize root = .ok k)
      (now : d.stat root = .error e) (canonical : d.stat k = .error e')

theorem watched_pinned (wf : d.root.WellFormed) (settled : d.Settled)
    (steady : Steady d₀ d filter root) :
    d.watched filter [pinned d₀ root] = d.watched filter [root] := by
  cases steady with
  | absent was => rw [pinned, was]
  | gone was now canonical =>
    rw [pinned, was]
    exact (Disk.watched_of_error canonical).trans (Disk.watched_of_error now).symm
  | @still k m was now entered looked =>
    rw [pinned, was]
    obtain ⟨canonical, node, stat, -⟩ := Disk.sourceFile_eq_ok_iff.mp now
    obtain ⟨names, located, rfl⟩ := Disk.canonicalize_eq_ok_iff.mp canonical
    obtain ⟨canonical', -⟩ := Disk.sourceFile_eq_ok_iff.mp (Disk.sourceFile_path settled now)
    obtain ⟨names', -, enters⟩ := Disk.exists_enters_of_canonicalize settled canonical'
    cases Disk.locate_absolute (Disk.isName_of_locate settled located)
      (Disk.solid_of_locate located) enters.located
    exact Disk.watched_absolute wf settled (Disk.enters_of_locate located entered) enters looked

theorem watched_map_pinned (wf : d.root.WellFormed) (settled : d.Settled) {roots : List Path}
    (steady : ∀ root ∈ roots, Steady d₀ d filter root) :
    d.watched filter (roots.map (pinned d₀)) = d.watched filter roots := by
  rw [Disk.watched_eq_flatMap, Disk.watched_eq_flatMap roots, List.flatMap_map]
  exact List.flatMap_congr fun root mem ↦ watched_pinned wf settled (steady root mem)

/-- A root that leads elsewhere by now gives what is found where it led, and nothing of what is
found where it leads, unless one lies in the other. -/
theorem found_of_moved (wf : d.root.WellFormed) (settled : d.Settled) {p : Path} {m : Int}
    (was : d₀.canonicalize root = .ok k) (there : d.canonicalize k = .ok k)
    (mem : .found p m ∈ d.watched filter [pinned d₀ root]) :
    Below k p ∧ ∀ k', d.canonicalize root = .ok k' → ¬Below k k' → ¬Below k' k →
      ∀ m', .found p m' ∉ d.watched filter [root] := by
  rw [pinned, was] at mem
  have old := Disk.below_of_mem_watched wf settled there mem
  refine ⟨old, ?_⟩
  intro k' now apart apart' m' mem'
  have new := Disk.below_of_mem_watched wf settled now mem'
  exact (old.nested new).elim apart apart'

namespace Sample

/-- Two releases of an empty script each, and a link to one of them. -/
def releases (live : Path) : Disk where
  root := .dir [("live", .link live),
    ("r1", .dir [("a.php", .file [] (.of 10 0))] (.of 1 0)),
    ("r2", .dir [("b.php", .file [] (.of 10 0))] (.of 1 0))] (.of 1 0)
  workingDir := []
  now := .of 20 0

variable (live : Path)

theorem wellFormed_releases : (releases live).root.WellFormed := by
  have release (name : String) (isName : Path.IsName name) :
      (Node.dir [(name, .file [] (.of 10 0))] (.of 1 0)).WellFormed :=
    .dir _ (List.pairwise_singleton _ _) (by simpa using isName) (by simpa using .file [] _)
  refine .dir _ ?_ ?_ ?_
  · simp only [List.pairwise_cons, List.forall_mem_cons]
    exact ⟨⟨by decide, by decide, by simp⟩, ⟨by decide, by simp⟩, by simp, .nil⟩
  · simp only [List.forall_mem_cons]
    exact ⟨by decide, by decide, by decide, by simp⟩
  · simp only [List.forall_mem_cons]
    exact ⟨.link live, release "a.php" (by decide), release "b.php" (by decide), by simp⟩

theorem settled_releases : (releases live).Settled := by
  intro name mem
  cases mem

theorem check_old : Memory.check (releases "r2") "/r1/a.php" = .ok ⟨"/r1/a.php", 10⟩ := by
  have file : (releases "r2").sourceFile "/r1/a.php" = .ok ⟨"/r1/a.php", 10⟩ := by cbv
  have content : (releases "r2").read "/r1/a.php" = .ok [] := by cbv
  simp [Memory.check, file, content, ofSource_nil, bind, Except.bind, Except.mapError, pure,
    Except.pure]

end Sample

open Sample

end LocalWatch

end ScriptCache
