import ScriptCache.Proofs.Engine.Unordered
import ScriptCache.Proofs.Watch.Peers
import ScriptCache.Proofs.Watch.Wire

/-!
# Scripts that trail behind a peer

What a peer has newer is compiled, and recorded with the time of the own file. Where that time is
still before the one of the peer, the script stays stale, like one that cannot be compiled. Every
further poll compiles it again, to no effect.
-/

namespace ScriptCache

open Memory (isRefused check outcome batch)

variable {d : Disk} {c c₁ : Memory} {remote : Registry} {p : Path} {paths : List Path}

/-- The scripts that are there are recorded under their canonical paths. -/
def Disk.NamesScripts (d : Disk) (r : Registry) : Prop :=
  ∀ p k, r.contains p → d.canonicalize p = .ok k → k = p

theorem Disk.NamesScripts.of_stale {own : Registry} (canonical : d.NamesScripts own)
    (remote : Registry) :
    ∀ p ∈ staleAgainst remote own, ∀ k, d.canonicalize p = .ok k → k = p := by
  intro p stale k
  exact canonical p k (contains_of_mem_staleAgainst stale)

namespace Memory

/-- A batch of canonical paths records those files that pass the check. -/
theorem get?_batch_of_canonical (c : Memory)
    (canonical : ∀ q ∈ paths, ∀ k, d.canonicalize q = .ok k → k = q) (p : Path) :
    (∃ m, p ∈ paths ∧ check d p = .ok ⟨p, m⟩ ∧ (batch d c paths).scripts.get? p = some m) ∨
      ((isRefused d p ∨ p ∉ paths) ∧ (batch d c paths).scripts.get? p = c.scripts.get? p) := by
  by_cases compiled : p ∈ paths ∧ ¬isRefused d p
  · obtain ⟨mem, accepted⟩ := compiled
    rw [isRefused_eq_true_iff] at accepted
    push Not at accepted
    obtain ⟨k, m, leads⟩ := accepted
    cases canonical p mem k leads.1
    exact .inl ⟨m, mem, check_eq_ok_iff.mpr leads, get?_batch_eq_some_iff.mpr (.inl ⟨p, mem, leads⟩)⟩
  · have untouched : ∀ q ∈ paths, ∀ t, ¬d.LeadsToScript q p t := by
      intro q mem t leads
      cases canonical q mem p leads.1
      exact compiled ⟨mem, fun refused ↦ isRefused_eq_true_iff.mp refused p t leads⟩
    refine .inr ⟨by tauto, Option.ext fun m ↦ ?_⟩
    rw [get?_batch_eq_some_iff]
    constructor
    · rintro (⟨q, mem, leads⟩ | ⟨kept, -⟩)
      · exact absurd leads (untouched q mem m)
      · exact kept
    · intro kept
      exact .inr ⟨kept, untouched⟩

end Memory

namespace FleetWatch

variable {w : FleetWatch} {net : Http.Network Memory} {failed : List (Path × String)}

/-- The file is older than the peer says. -/
def trails (d : Disk) (remote : Registry) (p : Path) : Bool :=
  (d.sourceFile p).toOption.any fun file ↦ (remote.get? p).any (file.mtime < ·)

/-- After a batch of all stale scripts, those are stale that were refused or trail behind. -/
theorem staleAgainst_batch (canonical : d.NamesScripts c.scripts) (remote : Registry) :
    let stale := staleAgainst remote c.scripts
    staleAgainst remote (batch d c stale).scripts =
      stale.filter fun p ↦ isRefused d p || trails d remote p := by
  intro stale
  -- a script keeps its time, and is stale as before, unless it was compiled
  have later : ∀ e ∈ remote.entries, ((batch d c stale).scripts.get? e.1).any (· < e.2) =
      ((isRefused d e.1 || trails d remote e.1) && (c.scripts.get? e.1).any (· < e.2)) := by
    rintro ⟨p, k⟩ mem
    have shown : remote.get? p = some k := Registry.get?_eq_some_iff.mpr mem
    dsimp only
    rcases Memory.get?_batch_of_canonical c (canonical.of_stale remote) p with
      ⟨m, mem, passed, recorded⟩ | ⟨kept, same⟩
    · obtain ⟨k', old, shown', before, lt⟩ := mem_staleAgainst.mp mem
      cases shown.symm.trans shown'
      have looked := Memory.sourceFile_of_check passed
      simp [stale, recorded, isRefused, passed, trails, looked, shown, before, lt, Except.toOption]
    · rw [same]
      cases old : (c.scripts.get? p).any (· < k) with
      | false => rw [Bool.and_false]
      | true =>
        obtain ⟨m, before, lt⟩ := (Option.any_eq_true _ _).mp old
        have mem : p ∈ stale := mem_staleAgainst.mpr ⟨k, m, shown, before, of_decide_eq_true lt⟩
        rw [kept.resolve_right (not_not_intro mem)]
        rfl
  calc staleAgainst remote (batch d c stale).scripts
      = (remote.entries.filter fun e ↦ (isRefused d e.1 || trails d remote e.1) &&
          (c.scripts.get? e.1).any (· < e.2)).map (·.1) :=
        congrArg _ (List.filter_congr later)
    _ = ((remote.entries.filter fun e ↦ (c.scripts.get? e.1).any (· < e.2)).map (·.1)).filter
          fun p ↦ isRefused d p || trails d remote p := by
        rw [List.filter_map, List.filter_filter]
        rfl

/-- The report of a poll that compiles scripts again to no effect. -/
def again (stale : List Path) (failed : List (Path × String)) : Report where
  strategy := if stale.isEmpty then .clean else .compile
  stale := stale.length
  compiled := stale.length - failed.length
  failed

/-- The scripts that are stale against the peer are few. Compiling them fails for these reasons, and
changes nothing. -/
structure AtRest (w : FleetWatch) (d : Disk) (remote : Registry) (c : Memory)
    (failed : List (Path × String)) : Prop where
  active : c.Active
  few : (staleAgainst remote c.scripts).length ≤ w.resetThreshold
  reasons : (outcome d (staleAgainst remote c.scripts)).failed = failed
  kept : batch d c (staleAgainst remote c.scripts) = c

theorem AtRest.of_none (active : c.Active) (none : staleAgainst remote c.scripts = []) :
    w.AtRest d remote c [] := by
  constructor
  · exact active
  · rw [none]
    exact Nat.zero_le _
  · rw [none]
    rfl
  · rw [none]
    rfl

theorem AtRest.runFrom_reconcile (h : w.AtRest d remote c failed) :
    (w.reconcile (Memory.runtime d) remote).runFrom c =
      (.ok (again (staleAgainst remote c.scripts) failed), c) := by
  obtain ⟨active, few, reasons, kept⟩ := h
  rw [runFrom_reconcile_shown (Memory.runFrom_status active)]
  cases stale : staleAgainst remote c.scripts with
  | nil =>
    rw [stale] at reasons
    cases reasons
    exact LocalWatch.runFrom_apply_clean rfl
  | cons p rest =>
    rw [stale] at few reasons kept
    have strategy := Plan.strategy_of_few (Nat.not_lt.mpr few)
    have ran := LocalWatch.runFrom_apply_compile (d := d) strategy active
    rw [ran]
    change (Except.ok (⟨.compile, _, (outcome d (p :: rest)).compiled.length,
      (outcome d (p :: rest)).failed⟩ : Report), batch d c (p :: rest)) = _
    rw [kept, Memory.length_compiled_outcome, reasons]
    rfl

theorem applied_of_runFrom_reconcile {report : Report}
    (h : (w.reconcile (Memory.runtime d) remote).runFrom c = (.ok report, c₁)) :
    c.Active ∧
      (Plan.of (staleAgainst remote c.scripts) [] w.resetThreshold).Applied d c report c₁ := by
  have active := Memory.active_of_runFrom_status h
  rw [runFrom_reconcile_shown (Memory.runFrom_status active)] at h
  exact ⟨active, LocalWatch.applied_of_runFrom_apply active h⟩

section Polled

variable {report : Report}
  (ran : (w.reconcile (Memory.runtime d) remote).runFrom c = (.ok report, c₁))
include ran

theorem stale_of_runFrom_reconcile : report.stale = (staleAgainst remote c.scripts).length := by
  cases (applied_of_runFrom_reconcile ran).2 <;> rfl

theorem contains_of_runFrom_reconcile (canonical : d.NamesScripts c.scripts)
    (known : c₁.scripts.contains p) : c.scripts.contains p := by
  cases (applied_of_runFrom_reconcile ran).2 with
  | clean => exact known
  | reset => cases known
  | compile =>
    rw [Plan.stale_of] at known
    rcases Memory.get?_batch_of_canonical c (canonical.of_stale remote) p with
      ⟨-, stale, -⟩ | ⟨-, same⟩
    · exact contains_of_mem_staleAgainst stale
    · rwa [Registry.contains, same] at known

/-- Behind a poll that compiled, exactly those scripts are still stale that failed or that trail
behind. -/
theorem staleAgainst_of_runFrom_reconcile (canonical : d.NamesScripts c.scripts) :
    staleAgainst remote c₁.scripts =
      if report.strategy = .compile then
        (staleAgainst remote c.scripts).filter fun p ↦
          p ∈ report.failed.map (·.1) ∨ trails d remote p
      else [] := by
  cases (applied_of_runFrom_reconcile ran).2 with
  | clean strategy => exact (Plan.of_clean strategy).1
  | reset => exact staleAgainst_empty remote
  | compile =>
    rw [Plan.stale_of, staleAgainst_batch canonical, if_pos rfl]
    apply List.filter_congr
    intro p mem
    simp [Memory.failed_outcome, mem]

/-- After one poll a cache is at rest. -/
theorem atRest_of_runFrom_reconcile (canonical : d.NamesScripts c.scripts) :
    w.AtRest d remote c₁ report.failed := by
  obtain ⟨active, applied⟩ := applied_of_runFrom_reconcile ran
  cases applied with
  | clean strategy => exact .of_none active (Plan.of_clean strategy).1
  | reset => exact .of_none active (staleAgainst_empty remote)
  | compile strategy =>
    have few := (Plan.of_compile strategy).1
    have stale := staleAgainst_batch canonical remote
    rw [Plan.stale_of]
    constructor
    · exact Memory.batch_active active _
    · rw [stale]
      exact (List.length_filter_le _ _).trans few
    · rw [stale]
      apply Memory.failed_outcome_filter
      intro p _ refused
      rw [refused, Bool.true_or]
    · rw [stale]
      exact Memory.batch_batch_of_subset c (List.filter_subset_self _)

end Polled

/-- Asked from this cache, the peer shows its registry and leaves the cache alone. -/
def Shown (w : FleetWatch) (net : Http.Network Memory) (c : Memory) (remote : Registry) : Prop :=
  ∃ url answer, w.address? = some url ∧
    (Http.send net url { method := "GET", target := Http.targetOf url }).run c = (answer, c) ∧
    readAnswer url answer = .ok remote

theorem Shown.runFrom_cycle (shown : w.Shown net c remote) :
    (w.cycle net (Memory.runtime d)).runFrom c =
      (FleetCycle.reconciled <$> w.reconcile (Memory.runtime d) remote).runFrom c := by
  obtain ⟨url, answer, address, sent, told⟩ := shown
  rw [FleetWatch.runFrom_cycle (Memory.runtime d) address sent, told]

theorem AtRest.runFrom_cycles (h : w.AtRest d remote c failed) {nets : List (Http.Network Memory)}
    (shown : ∀ net ∈ nets, w.Shown net c remote) :
    (nets.mapM fun net ↦ w.cycle net (Memory.runtime d)).runFrom c =
      (.ok (nets.map fun _ ↦ .reconciled (again (staleAgainst remote c.scripts) failed)), c) := by
  induction nets with
  | nil => rfl
  | cons net nets ih =>
    obtain ⟨first, others⟩ := List.forall_mem_cons.mp shown
    have cycle : (w.cycle net (Memory.runtime d)).runFrom c =
        (.ok (.reconciled (again (staleAgainst remote c.scripts) failed)), c) := by
      rw [first.runFrom_cycle, EngineM.runFrom_map, h.runFrom_reconcile]
      rfl
    rw [List.mapM_cons, EngineM.runFrom_bind_ok cycle, EngineM.runFrom_bind_ok (ih others)]
    rfl

/-- A cache whose scripts go by their canonical paths polls a peer, and the poll ends with a report.
While neither the disk nor the registry of the peer changes, exactly those scripts are stale behind
a poll that compiled which failed, or whose file is older than the peer says, and there are none
behind any other poll. No poll adds a script. All further polls find just these scripts, fail for
the same reasons and leave the cache as it is. -/
theorem polls_leave_trailing (w : FleetWatch) (d : Disk) (net : Http.Network Memory)
    (c c₁ : Memory) (remote : Registry) (report : Report)
    (canonical : d.NamesScripts c.scripts) (shown : w.Shown net c remote)
    (ran : (w.cycle net (Memory.runtime d)).runFrom c = (.ok (.reconciled report), c₁)) :
    let stale := staleAgainst remote c₁.scripts
    report.stale = (staleAgainst remote c.scripts).length ∧
      stale = (if report.strategy = .compile then
          (staleAgainst remote c.scripts).filter fun p ↦
            p ∈ report.failed.map (·.1) ∨ trails d remote p
        else []) ∧
      (∀ p, c₁.scripts.contains p → c.scripts.contains p) ∧
      ∀ nets : List (Http.Network Memory), (∀ net ∈ nets, w.Shown net c₁ remote) →
        (nets.mapM fun net ↦ w.cycle net (Memory.runtime d)).runFrom c₁ =
          (.ok (nets.map fun _ ↦ .reconciled
            { strategy := if stale.isEmpty then .clean else .compile
              stale := stale.length
              compiled := stale.length - report.failed.length
              failed := report.failed }), c₁) := by
  have reconciled : (w.reconcile (Memory.runtime d) remote).runFrom c = (.ok report, c₁) := by
    rw [shown.runFrom_cycle, EngineM.runFrom_map] at ran
    rcases polled : (w.reconcile (Memory.runtime d) remote).runFrom c with ⟨_ | report', c'⟩
    · rw [polled] at ran
      cases ran
    · rw [polled] at ran
      cases ran
      rfl
  have rest := atRest_of_runFrom_reconcile reconciled canonical
  refine ⟨stale_of_runFrom_reconcile reconciled,
    staleAgainst_of_runFrom_reconcile reconciled canonical, ?_, ?_⟩
  · intro p
    exact contains_of_runFrom_reconcile reconciled canonical
  · intro nets shown
    exact rest.runFrom_cycles shown

namespace Sample

open LocalWatch.Sample (disk)

/-- A peer that has one script newer than the disk, and another one that cannot be compiled. -/
def newer : Registry := ⟨[("/a.php", 12), ("/b.php", 7)], by decide⟩

def network : Http.Network Memory := fun _ _ ↦ pure (.ok (.json 200 newer.toJson))

def tolerant : FleetWatch := { watch with resetThreshold := 2 }

theorem shown_newer (c : Memory) : tolerant.Shown network c newer := by
  have fits : newer.Fits := by
    unfold Registry.Fits
    decide
  have fetchable : Http.isFetchable url := by decide
  refine ⟨url, _, address_watch, ?_, readAnswer_registry fits⟩
  rw [Http.send, if_pos fetchable]
  rfl

theorem namesScripts_cache : disk.NamesScripts LocalWatch.Sample.cache.scripts := by
  have a : disk.canonicalize "/a.php" = .ok "/a.php" := by cbv
  have b : disk.canonicalize "/b.php" = .ok "/b.php" := by cbv
  have entries : LocalWatch.Sample.cache.scripts.entries = [("/a.php", 5), ("/b.php", 5)] := by cbv
  intro p k known canonical
  obtain ⟨m, recorded⟩ := Option.isSome_iff_exists.mp known
  rw [Registry.get?_eq_some_iff, entries] at recorded
  simp only [List.mem_cons, List.not_mem_nil, or_false, Prod.mk.injEq] at recorded
  rcases recorded with ⟨rfl, -⟩ | ⟨rfl, -⟩
  · cases a.symm.trans canonical
    rfl
  · cases b.symm.trans canonical
    rfl

end Sample

open Sample LocalWatch.Sample in
/-- Both scripts stay stale: the one is compiled again and again, and the other one fails. -/
theorem polls_leave_trailing_sample :
    ∃ report c₁, (tolerant.cycle network (Memory.runtime disk)).runFrom cache =
        (.ok (.reconciled report), c₁) ∧
      staleAgainst newer c₁.scripts = ["/a.php", "/b.php"] ∧
      ([network, network].mapM fun net ↦ tolerant.cycle net (Memory.runtime disk)).runFrom c₁ =
        (.ok (List.replicate 2 (.reconciled ⟨.compile, 2, 1, report.failed⟩)), c₁) := by
  have active : cache.Active := ⟨rfl, rfl⟩
  have found : staleAgainst newer cache.scripts = ["/a.php", "/b.php"] := by cbv
  have strategy : (Plan.of ["/a.php", "/b.php"] [] tolerant.resetThreshold).strategy = .compile := rfl
  let paths : List Path := ["/a.php", "/b.php"]
  have ran : (tolerant.cycle network (Memory.runtime disk)).runFrom cache =
      (.ok (.reconciled ⟨.compile, 2, (outcome disk paths).compiled.length,
        (outcome disk paths).failed⟩), batch disk cache paths) := by
    rw [(shown_newer cache).runFrom_cycle, EngineM.runFrom_map,
      runFrom_reconcile_shown (Memory.runFrom_status active), found,
      LocalWatch.runFrom_apply_compile strategy active]
    rfl
  obtain ⟨-, stale, -, later⟩ := polls_leave_trailing tolerant disk network cache _ newer _
    namesScripts_cache (shown_newer cache) ran
  have failed : (outcome disk paths).failed.map (·.1) = ["/b.php"] := by
    simp [Memory.failed_outcome, paths, isRefused, check_a, check_b]
  have behind : trails disk newer "/a.php" := by
    have file : disk.sourceFile "/a.php" = .ok ⟨"/a.php", 10⟩ := by cbv
    have shown : newer.get? "/a.php" = some 12 := by cbv
    simp [trails, file, shown, Except.toOption]
  have still : staleAgainst newer (batch disk cache paths).scripts = ["/a.php", "/b.php"] := by
    rw [stale, if_pos rfl, found]
    simp [failed, behind]
  have one : (outcome disk paths).failed.length = 1 := by
    simpa using congrArg List.length failed
  have again := later [network, network] fun net mem ↦ by
    have same : net = network := by simpa using mem
    rw [same]
    exact shown_newer _
  rw [still, one] at again
  exact ⟨_, _, ran, still, again⟩

end FleetWatch

end ScriptCache
