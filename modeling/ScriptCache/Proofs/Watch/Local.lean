import ScriptCache.Proofs.Engine.Memory
import ScriptCache.Proofs.Reconcile.Orders
import ScriptCache.Proofs.Source.Tokens
import ScriptCache.Watch.Local

/-!
# Watching files that do not change

While its files stay as they are, a watch comes to rest after one cycle. What could be compiled is
fresh, what could not be compiled is stale for good, and no later cycle changes the cache.
-/

namespace ScriptCache

open Memory (Known isRefused outcome batch)

/-- Entries of files as the cache knows them. -/
def DiskEntry.IsKnown (d : Disk) : DiskEntry → Prop
  | .found p m => d.sourceFile p = .ok ⟨p, m⟩
  | .missing _ => True

section Stale

variable {d : Disk} {entries : List DiskEntry} {r : Registry} {p : Path}

theorem isKnown_probe (settled : d.Settled) (p : Path) : (d.probe p).IsKnown d := by
  unfold Disk.probe
  split
  · rename_i file found
    exact Disk.sourceFile_path settled found
  · trivial

theorem mem_staleOnDisk_iff :
    p ∈ staleOnDisk entries r ↔ ∃ m k, .found p m ∈ entries ∧ r.get? p = some k ∧ k < m := by
  constructor
  · intro stale
    obtain ⟨e, mem, rfl⟩ := List.mem_map.mp stale
    obtain ⟨mem, old⟩ := List.mem_filter.mp mem
    cases e with
    | missing => cases old
    | found p m =>
      obtain ⟨k, recorded, lt⟩ := (Option.any_eq_true _ _).mp old
      exact ⟨m, k, mem, recorded, of_decide_eq_true lt⟩
  · rintro ⟨m, k, mem, recorded, lt⟩
    refine List.mem_map.mpr ⟨.found p m, List.mem_filter.mpr ⟨mem, ?_⟩, rfl⟩
    simp [DiskEntry.isStale, recorded, lt]

theorem contains_of_mem_staleOnDisk (stale : p ∈ staleOnDisk entries r) : r.contains p := by
  obtain ⟨-, k, -, recorded, -⟩ := mem_staleOnDisk_iff.mp stale
  simp [Registry.contains, recorded]

theorem exists_of_mem_staleOnDisk (known : ∀ e ∈ entries, e.IsKnown d)
    (stale : p ∈ staleOnDisk entries r) : Known d p ∧ r.contains p := by
  refine ⟨?_, contains_of_mem_staleOnDisk stale⟩
  obtain ⟨e, mem, rfl⟩ := List.mem_map.mp stale
  obtain ⟨mem, old⟩ := List.mem_filter.mp mem
  cases e with
  | missing => cases old
  | found p m => exact ⟨m, known _ mem⟩

/-- A stale script is recorded by a batch of all stale scripts, or it is refused. -/
theorem get?_batch_staleOnDisk (c : Memory) (known : ∀ e ∈ entries, e.IsKnown d) (p : Path) :
    let stale := staleOnDisk entries c.scripts
    (isRefused d p = false ∧ p ∈ stale ∧
        ∃ m, d.sourceFile p = .ok ⟨p, m⟩ ∧ (batch d c stale).scripts.get? p = some m) ∨
      ((isRefused d p ∨ p ∉ stale) ∧ (batch d c stale).scripts.get? p = c.scripts.get? p) :=
  Memory.get?_batch c (fun _ stale ↦ (exists_of_mem_staleOnDisk known stale).1) p

/-- After a batch of all stale scripts, those are stale that were refused. -/
theorem staleOnDisk_batch (c : Memory) (known : ∀ e ∈ entries, e.IsKnown d) :
    staleOnDisk entries (batch d c (staleOnDisk entries c.scripts)).scripts =
      (staleOnDisk entries c.scripts).filter (isRefused d) := by
  have isStale_eq : ∀ e ∈ entries,
      e.isStale (batch d c (staleOnDisk entries c.scripts)).scripts =
        (e.isStale c.scripts && isRefused d e.path) := by
    intro e mem
    cases e with
    | missing => rfl
    | found p m =>
      have file : d.sourceFile p = .ok ⟨p, m⟩ := known _ mem
      rcases get?_batch_staleOnDisk c known p with ⟨accepted, -, k, file', recorded⟩ | ⟨kept, same⟩
      · rw [file] at file'
        cases file'
        simp [DiskEntry.isStale, DiskEntry.path, recorded, accepted]
      · have refused : (DiskEntry.found p m).isStale c.scripts → isRefused d p := fun old ↦
          kept.resolve_right (not_not_intro (List.mem_map.mpr ⟨_, List.mem_filter.mpr ⟨mem, old⟩, rfl⟩))
        simp only [DiskEntry.isStale, DiskEntry.path, same] at refused ⊢
        cases old : (c.scripts.get? p).any (· < m) with
        | false => rfl
        | true => exact (refused old).symm
  calc staleOnDisk entries (batch d c (staleOnDisk entries c.scripts)).scripts
      = (entries.filter fun e ↦ e.isStale c.scripts && isRefused d e.path).map (·.path) :=
        congrArg _ (List.filter_congr isStale_eq)
    _ = ((entries.filter (·.isStale c.scripts)).map (·.path)).filter (isRefused d) := by
        rw [List.filter_map, List.filter_filter]
        simp only [Function.comp_apply, Bool.and_comm]

/-- A batch of stale scripts adds no script. -/
theorem contains_batch_staleOnDisk (c : Memory) (known : ∀ e ∈ entries, e.IsKnown d)
    (h : (batch d c (staleOnDisk entries c.scripts)).scripts.contains p) :
    c.scripts.contains p := by
  rcases get?_batch_staleOnDisk c known p with ⟨-, stale, -⟩ | ⟨-, same⟩
  · exact (exists_of_mem_staleOnDisk known stale).2
  · rwa [Registry.contains, same] at h

theorem staleOnDisk_empty (entries : List DiskEntry) : staleOnDisk entries .empty = [] := by
  have fresh : ∀ e ∈ entries, ¬e.isStale .empty := by
    rintro (_ | _) - <;> simp [DiskEntry.isStale]
  rw [staleOnDisk, List.filter_eq_nil_iff.mpr fresh]
  rfl

theorem unresolvedOnDisk_eq_nil_iff :
    unresolvedOnDisk entries r = [] ↔ ∀ e ∈ entries, e.isUnresolved r = false := by
  simp [unresolvedOnDisk]

theorem unresolvedOnDisk_empty (entries : List DiskEntry) :
    unresolvedOnDisk entries .empty = [] := by
  rw [unresolvedOnDisk_eq_nil_iff]
  rintro (_ | _) - <;> rfl

theorem unresolvedOnDisk_batch (c : Memory) (known : ∀ e ∈ entries, e.IsKnown d)
    (resolved : unresolvedOnDisk entries c.scripts = []) :
    unresolvedOnDisk entries (batch d c (staleOnDisk entries c.scripts)).scripts = [] := by
  rw [unresolvedOnDisk_eq_nil_iff] at resolved ⊢
  intro e mem
  have before := resolved e mem
  cases e with
  | found => rfl
  | missing p =>
    exact Bool.eq_false_iff.mpr fun after ↦
      Bool.eq_false_iff.mp before (contains_batch_staleOnDisk c known after)

end Stale

/-- What carrying out a plan does to a cache that can be used, with the report on it. -/
inductive Plan.Applied (d : Disk) (plan : Plan) (c : Memory) : Report → Memory → Prop where
  | clean (strategy : plan.strategy = .clean) :
      Applied d plan c ⟨.clean, plan.stale.length, 0, []⟩ c
  | reset (strategy : plan.strategy = .reset) :
      Applied d plan c ⟨.reset, plan.stale.length, 0, []⟩ { c with scripts := .empty }
  | compile (strategy : plan.strategy = .compile) :
      Applied d plan c ⟨.compile, plan.stale.length, (outcome d plan.stale).compiled.length,
        (outcome d plan.stale).failed⟩ (batch d c plan.stale)

namespace LocalWatch

variable {σ : Type} {w : LocalWatch} {d : Disk} {c c₁ : Memory}

/-- Runs so many cycles, one after the other. -/
def cycles (w : LocalWatch) (d : Disk) (rt : Runtime σ) : Nat → EngineM σ (List Report)
  | 0 => return []
  | n + 1 => return (← w.cycle d rt) :: (← w.cycles d rt n)

/-- The plan that a cycle carries out. -/
def plan (w : LocalWatch) (d : Disk) (r : Registry) : Plan :=
  .of (staleOnDisk (w.entries d) r) (unresolvedOnDisk (w.entries d) r) w.resetThreshold

theorem runFrom_cycle (active : c.Active) :
    (w.cycle d (Memory.runtime d)).runFrom c =
      ((w.plan d c.scripts).apply (Memory.runtime d)).runFrom c := by
  rw [cycle, EngineM.runFrom_bind_ok (Memory.runFrom_status active)]
  rfl

theorem runFrom_apply_clean {plan : Plan} (strategy : plan.strategy = .clean) :
    (plan.apply (Memory.runtime d)).runFrom c = (.ok ⟨.clean, plan.stale.length, 0, []⟩, c) := by
  rw [Plan.apply, strategy]
  rfl

theorem runFrom_apply_reset {plan : Plan} (strategy : plan.strategy = .reset)
    (active : c.Active) :
    (plan.apply (Memory.runtime d)).runFrom c =
      (.ok ⟨.reset, plan.stale.length, 0, []⟩, { c with scripts := .empty }) := by
  rw [Plan.apply, strategy]
  exact EngineM.runFrom_bind_ok (Memory.runFrom_resetAll active) _

theorem runFrom_apply_compile {plan : Plan} (strategy : plan.strategy = .compile)
    (active : c.Active) :
    (plan.apply (Memory.runtime d)).runFrom c =
      (.ok ⟨.compile, plan.stale.length, (outcome d plan.stale).compiled.length,
        (outcome d plan.stale).failed⟩, batch d c plan.stale) := by
  rw [Plan.apply, strategy]
  exact EngineM.runFrom_bind_ok (Memory.runFrom_compileMany active plan.stale) _

theorem exists_runFrom_apply (plan : Plan) (active : c.Active) :
    ∃ report c₁, (plan.apply (Memory.runtime d)).runFrom c = (.ok report, c₁) := by
  cases strategy : plan.strategy with
  | clean => exact ⟨_, _, runFrom_apply_clean strategy⟩
  | reset => exact ⟨_, _, runFrom_apply_reset strategy active⟩
  | compile => exact ⟨_, _, runFrom_apply_compile strategy active⟩

theorem applied_of_runFrom_apply {plan : Plan} {report : Report} (active : c.Active)
    (h : (plan.apply (Memory.runtime d)).runFrom c = (.ok report, c₁)) :
    plan.Applied d c report c₁ := by
  cases strategy : plan.strategy with
  | clean =>
    rw [runFrom_apply_clean strategy] at h
    cases h
    exact .clean strategy
  | reset =>
    rw [runFrom_apply_reset strategy active] at h
    cases h
    exact .reset strategy
  | compile =>
    rw [runFrom_apply_compile strategy active] at h
    cases h
    exact .compile strategy

/-- The report of a cycle that finds the files that another cycle failed to compile, and fails to
compile them again. -/
def again (failed : List (Path × String)) : Report where
  strategy := if failed.isEmpty then .clean else .compile
  stale := failed.length
  failed

/-- All that a watch finds stale in a cache are files that cannot be compiled, for these reasons,
and they are few. -/
structure AtRest (w : LocalWatch) (d : Disk) (c : Memory) (failed : List (Path × String)) :
    Prop where
  active : c.Active
  stale : staleOnDisk (w.entries d) c.scripts = failed.map (·.1)
  resolved : unresolvedOnDisk (w.entries d) c.scripts = []
  refused : ∀ p ∈ failed.map (·.1), isRefused d p
  reasons : (outcome d (failed.map (·.1))).failed = failed
  few : failed.length ≤ w.resetThreshold

theorem AtRest.runFrom_cycle {failed : List (Path × String)} (h : w.AtRest d c failed) :
    (w.cycle d (Memory.runtime d)).runFrom c = (.ok (again failed), c) := by
  rw [LocalWatch.runFrom_cycle h.active]
  cases failed with
  | nil =>
    have plan_eq : w.plan d c.scripts = ⟨[], [], .clean⟩ := by
      rw [plan, h.stale, h.resolved]
      rfl
    rw [plan_eq]
    exact runFrom_apply_clean rfl
  | cons first failed =>
    have few : ¬w.resetThreshold < ((first :: failed).map (·.1)).length := by
      rw [List.length_map]
      exact Nat.not_lt.mpr h.few
    have strategy : (w.plan d c.scripts).strategy = .compile := by
      rw [plan, h.stale, h.resolved]
      exact Plan.strategy_of_few few
    have stale : (w.plan d c.scripts).stale = (first :: failed).map (·.1) := h.stale
    have none_compiled : (outcome d ((first :: failed).map (·.1))).compiled = [] := by
      rw [Memory.compiled_outcome, List.filter_eq_nil_iff]
      intro p mem
      simp [h.refused p mem]
    rw [runFrom_apply_compile strategy h.active, stale, Memory.batch_of_refused h.refused, h.reasons,
      none_compiled, List.length_map]
    rfl

theorem AtRest.runFrom_cycles {failed : List (Path × String)} (h : w.AtRest d c failed) (n : Nat) :
    (w.cycles d (Memory.runtime d) n).runFrom c = (.ok (List.replicate n (again failed)), c) := by
  induction n with
  | zero => rfl
  | succ n ih =>
    rw [cycles, EngineM.runFrom_bind_ok h.runFrom_cycle, EngineM.runFrom_bind_ok ih]
    rfl

theorem isKnown_entries (w : LocalWatch) (settled : d.Settled) : ∀ e ∈ w.entries d, e.IsKnown d := by
  intro e mem
  obtain ⟨item, -, entry⟩ := List.mem_filterMap.mp mem
  cases item with
  | error e => cases entry
  | ok p =>
    cases entry
    exact isKnown_probe settled p

theorem applied_of_runFrom_cycle {report : Report}
    (h : (w.cycle d (Memory.runtime d)).runFrom c = (.ok report, c₁)) :
    c.Active ∧ (w.plan d c.scripts).Applied d c report c₁ := by
  have active := Memory.active_of_runFrom_status h
  rw [runFrom_cycle active] at h
  exact ⟨active, applied_of_runFrom_apply active h⟩

/-- After one cycle a watch is at rest. -/
theorem atRest_of_runFrom_cycle (settled : d.Settled) {report : Report}
    (h : (w.cycle d (Memory.runtime d)).runFrom c = (.ok report, c₁)) :
    w.AtRest d c₁ report.failed := by
  obtain ⟨active, applied⟩ := applied_of_runFrom_cycle h
  cases applied with
  | clean strategy =>
    obtain ⟨stale, resolved⟩ := Plan.of_clean strategy
    exact ⟨active, stale, resolved, by simp, rfl, Nat.zero_le _⟩
  | reset =>
    exact ⟨active, staleOnDisk_empty _, unresolvedOnDisk_empty _, by simp, rfl, Nat.zero_le _⟩
  | compile strategy =>
    obtain ⟨few, resolved⟩ := Plan.of_compile strategy
    have known := isKnown_entries w settled
    have failed := Memory.failed_outcome d (w.plan d c.scripts).stale
    refine ⟨Memory.batch_active active _, ?_, unresolvedOnDisk_batch c known resolved, ?_, ?_, ?_⟩
    · rw [failed]
      exact staleOnDisk_batch c known
    · rw [failed]
      exact fun p mem ↦ (List.mem_filter.mp mem).2
    · rw [failed]
      exact Memory.failed_filter_isRefused _
    · have fewer := List.length_filter_le (isRefused d) (w.plan d c.scripts).stale
      rw [← failed, List.length_map] at fewer
      exact Nat.le_trans fewer few

theorem failed_of_strategy_ne_compile {report : Report}
    (h : (w.cycle d (Memory.runtime d)).runFrom c = (.ok report, c₁))
    (other : report.strategy ≠ .compile) : report.failed = [] := by
  cases (applied_of_runFrom_cycle h).2 with
  | clean | reset => rfl
  | compile => exact absurd rfl other

namespace Sample

/-- An empty file, and one with nothing but a closing brace. -/
def disk : Disk where
  root := .dir [("a.php", .file [] (.of 10 0)),
    ("b.php", .file [0x3C, 0x3F, 0x70, 0x68, 0x70, 0x20, 0x7D] (.of 10 0))] (.of 1 0)
  workingDir := ["work"]
  now := .of 20 0

def watch : LocalWatch := ⟨.scripts, ["/"], 5⟩

def cache : Memory := { scripts := .ofList [("/a.php", 5), ("/b.php", 5)] }

theorem ofSource_nil : Source.Statement.ofSource [] = .ok [] := by
  have done : Source.Lexer.skipTrivia ⟨[], 0, 1⟩ = .ok ⟨[], 0, 1⟩ := by cbv
  have stream : Source.TokenStream.ofSource [] = .ok ⟨[], 1⟩ :=
    Source.Lexer.readTokens_done done rfl
  rw [Source.Statement.ofSource, stream]
  cbv

theorem settled_disk : disk.Settled := by
  intro name mem
  cases List.mem_singleton.mp mem
  decide

theorem check_a : Memory.check disk "/a.php" = .ok ⟨"/a.php", 10⟩ := by
  have file : disk.sourceFile "/a.php" = .ok ⟨"/a.php", 10⟩ := by cbv
  have content : disk.read "/a.php" = .ok [] := by cbv
  simp [Memory.check, file, content, ofSource_nil, bind, Except.bind, Except.mapError, pure,
    Except.pure]

theorem check_b :
    Memory.check disk "/b.php" = .error ("syntax error, " ++ Source.ParseError.message ⟨1, .unmatchedBrace⟩) := by
  have file : disk.sourceFile "/b.php" = .ok ⟨"/b.php", 10⟩ := by cbv
  have content : disk.read "/b.php" = .ok [0x3C, 0x3F, 0x70, 0x68, 0x70, 0x20, 0x7D] := by cbv
  simp [Memory.check, file, content, Source.Lexer.ofSource_brace, bind, Except.bind, Except.mapError]

end Sample

end LocalWatch

end ScriptCache
