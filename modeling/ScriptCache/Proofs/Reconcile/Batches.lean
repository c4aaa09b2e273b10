import ScriptCache.Proofs.Engine.Alike
import ScriptCache.Proofs.Reconcile.Orders

/-!
# Batches and plans, call by call

A batch passes its files to the runtime one after the other, and ends before the first one for which
the cache turns out to be missing or switched off. A plan is carried out by no call at all, by a
single reset, or by a batch of the stale files. Runtimes may answer as they like, and otherwise to
the same question a moment later.
-/

namespace ScriptCache

open Call

namespace Outcome

/-- The files that a runtime took and those that it did not, both in the order of its verdicts. -/
def ofVerdicts (verdicts : List (Path × Except String Unit)) : Outcome where
  compiled := verdicts.filterMap fun (p, verdict) ↦ verdict.toOption.map fun () ↦ p
  failed := verdicts.filterMap fun (p, verdict) ↦
    match verdict with
    | .ok () => none
    | .error reason => some (p, reason)

variable (p : Path) (verdict : Except String Unit) (verdicts : List (Path × Except String Unit))

theorem cons_ofVerdicts :
    (ofVerdicts verdicts).cons p verdict = ofVerdicts ((p, verdict) :: verdicts) := by
  cases verdict <;> rfl

theorem length_ofVerdicts :
    (ofVerdicts verdicts).compiled.length + (ofVerdicts verdicts).failed.length =
      verdicts.length := by
  induction verdicts with
  | nil => rfl
  | cons v verdicts ih =>
    obtain ⟨p, verdict⟩ := v
    rw [← cons_ofVerdicts, List.length_cons, ← ih]
    cases verdict with
    | ok => simp only [cons, List.length_cons]; omega
    | error => simp only [cons, List.length_cons]; omega

end Outcome

/-- The calls by which a file is passed to an active runtime, with its verdict. -/
def Call.passing : Path × Except String Unit → List Call
  | (p, verdict) => [.loaded true, .enabled true, .compile p verdict]

/-- A batch that is passed to a cache as far as this is active. -/
structure Batch.Exact (paths : List Path) (calls : List Call)
    (result : Except EngineError Outcome) : Prop where
  /-- Each time it was asked, the cache was active. -/
  complete : Active calls → ∃ verdicts : List (Path × Except String Unit),
    verdicts.map (·.1) = paths ∧ calls = verdicts.flatMap passing ∧
      result = .ok (.ofVerdicts verdicts)
  /-- Before some file the cache was not active. -/
  cut : ¬Active calls → ∃ (verdicts : List (Path × Except String Unit)) (p : Path)
    (later : List Path) (checks : List Call) (e : EngineError),
    paths = verdicts.map (·.1) ++ p :: later ∧ calls = verdicts.flatMap passing ++ checks ∧
      Checks checks (.error e) ∧ result = .error e

theorem Call.active_passing (v : Path × Except String Unit) : Active (passing v) := by
  simp [Active, passing]

theorem Batch.exact {paths : List Path} {calls : List Call} {result : Except EngineError Outcome}
    (h : Batch paths calls result) : Exact paths calls result := by
  induction h with
  | nil =>
    have active : Active [] := by simp [Active]
    exact ⟨fun _ ↦ ⟨[], rfl, rfl, rfl⟩, fun inactive ↦ absurd active inactive⟩
  | @inactive p paths calls e checks =>
    exact ⟨fun active ↦ absurd active checks.not_active,
      fun _ ↦ ⟨[], p, paths, calls, e, rfl, rfl, checks, rfl⟩⟩
  | @cons p paths verdict calls result rest ih =>
    have later : Active (passing (p, verdict) ++ calls) ↔ Active calls := by
      simp only [active_append, active_passing, true_and]
    constructor
    · intro active
      obtain ⟨verdicts, rfl, rfl, rfl⟩ := ih.complete (later.mp active)
      refine ⟨(p, verdict) :: verdicts, rfl, rfl, ?_⟩
      rw [← Outcome.cons_ofVerdicts]
      rfl
    · intro inactive
      obtain ⟨verdicts, q, after, checks, e, rfl, rfl, refused, rfl⟩ :=
        ih.cut fun active ↦ inactive (later.mpr active)
      exact ⟨(p, verdict) :: verdicts, q, after, checks, e, rfl, rfl, refused, rfl⟩

theorem Batch.Exact.length_eq {paths : List Path} {calls : List Call} {o : Outcome}
    (h : Exact paths calls (.ok o)) : o.compiled.length + o.failed.length = paths.length := by
  by_cases active : Active calls
  · obtain ⟨verdicts, rfl, -, same⟩ := h.complete active
    cases same
    rw [Outcome.length_ofVerdicts, List.length_map]
  · obtain ⟨_, _, _, _, _, -, -, -, same⟩ := h.cut active
    cases same

theorem Batch.Exact.isOk_iff {paths : List Path} {calls : List Call}
    {result : Except EngineError Outcome} (h : Exact paths calls result) :
    (∃ o, result = .ok o) ↔ Active calls := by
  by_cases active : Active calls
  · obtain ⟨verdicts, -, -, rfl⟩ := h.complete active
    exact ⟨fun _ ↦ active, fun _ ↦ ⟨_, rfl⟩⟩
  · obtain ⟨_, _, _, _, _, -, -, -, rfl⟩ := h.cut active
    exact ⟨nofun, fun active' ↦ absurd active' active⟩

/-- A reset that is asked of a cache if this is active. -/
theorem Drop.cases_active {calls : List Call} {result : Except EngineError Unit}
    (h : Drop calls result) :
    (Active calls → ∃ granted, calls = [.loaded true, .enabled true, .reset granted] ∧
      result = if granted then .ok () else .error .resetRefused) ∧
    (¬Active calls → ∃ e, Checks calls (.error e) ∧ result = .error e) := by
  cases h with
  | inactive checks => exact ⟨fun active ↦ absurd active checks.not_active, fun _ ↦ ⟨_, checks, rfl⟩⟩
  | refused => exact ⟨fun _ ↦ ⟨false, rfl, rfl⟩, fun inactive ↦ absurd (by simp [Active]) inactive⟩
  | done => exact ⟨fun _ ↦ ⟨true, rfl, rfl⟩, fun inactive ↦ absurd (by simp [Active]) inactive⟩

namespace Plan

variable {σ : Type} {stale unresolved : List Path} {threshold : Nat}

theorem strategy_of_reset (h : unresolved ≠ [] ∨ threshold < stale.length) :
    (Plan.of stale unresolved threshold).strategy = .reset := by
  have many : (!unresolved.isEmpty || decide (threshold < stale.length)) = true := by
    rcases h with found | many
    · simp [found]
    · simp [many]
  simp only [Plan.of, many, if_true]

theorem strategy_eq_reset_iff :
    (Plan.of stale unresolved threshold).strategy = .reset ↔
      unresolved ≠ [] ∨ threshold < stale.length := by
  refine ⟨?_, strategy_of_reset⟩
  intro reset
  by_contra fine
  push Not at fine
  obtain ⟨rfl, few⟩ := fine
  cases stale with
  | nil => cases reset
  | cons p stale => cases (strategy_of_few (Nat.not_lt.mpr few)).symm.trans reset

theorem strategy_of_stale (found : stale ≠ []) (few : stale.length ≤ threshold) :
    (Plan.of stale [] threshold).strategy = .compile := by
  obtain ⟨p, stale, rfl⟩ := List.exists_cons_of_ne_nil found
  exact strategy_of_few (Nat.not_lt.mpr few)

/-- The report on a batch of stale files. -/
def reportOn (stale : List Path) (o : Outcome) : Report :=
  ⟨.compile, stale.length, o.compiled.length, o.failed⟩

theorem runFrom_apply_of_compile {plan : Plan} (strategy : plan.strategy = .compile)
    (rt : Runtime σ) (s : σ) :
    (plan.apply rt).runFrom s =
      (((rt.compileMany plan.stale).runFrom s).1.map (reportOn plan.stale),
        ((rt.compileMany plan.stale).runFrom s).2) := by
  rw [Plan.apply, strategy]
  exact EngineM.runFrom_map (reportOn plan.stale) (rt.compileMany plan.stale) s

end Plan

/-- A report tells the strategy and what became of the stale files. -/
theorem Carried.report_eq {plan : Plan} {calls : List Call} {report : Report}
    (h : Carried plan calls (.ok report)) :
    report.strategy = plan.strategy ∧ report.stale = plan.stale.length ∧
      report.compiled + report.failed.length =
        if plan.strategy = .compile then plan.stale.length else 0 := by
  generalize ended : Except.ok report = result at h
  cases h with
  | clean strategy =>
    cases ended
    rw [strategy]
    exact ⟨rfl, rfl, rfl⟩
  | reset strategy drop =>
    cases drop <;> cases ended
    rw [strategy]
    exact ⟨rfl, rfl, rfl⟩
  | @compile _ outcome strategy batch =>
    cases outcome with
    | error => cases ended
    | ok o =>
      cases ended
      rw [strategy]
      exact ⟨rfl, rfl, batch.exact.length_eq⟩

/-- A plan that was carried out to its end ordered the changes that were made. -/
theorem Carried.mutations_of_ok {plan : Plan} {calls : List Call} {report : Report}
    (h : Carried plan calls (.ok report)) : mutations calls = plan.orders := by
  generalize ended : Except.ok report = result at h
  cases h with
  | clean strategy => rw [Plan.orders, strategy]; rfl
  | reset strategy drop =>
    rw [Plan.orders, strategy]
    cases drop with
    | inactive | refused => cases ended
    | done => rfl
  | @compile _ outcome strategy batch =>
    rw [Plan.orders, strategy]
    cases outcome with
    | error => cases ended
    | ok o => exact (batch.complete (batch.exact.isOk_iff.mp ⟨o, rfl⟩)).1

/-- What carrying out the plan for stale and unresolved scripts asks of a cache, and what comes of
it. -/
structure Plan.Exact {σ : Type} (rt : Runtime σ) (s : σ) (stale unresolved : List Path)
    (threshold : Nat) (calls : List Call) (run : Except EngineError Report × σ) : Prop where
  /-- Where there is nothing to do the cache is not even asked whether it is active. -/
  clean : stale = [] → unresolved = [] → calls = [] ∧ run = (.ok ⟨.clean, 0, 0, []⟩, s)
  /-- An active cache is asked once for a reset, which it may refuse. -/
  reset : unresolved ≠ [] ∨ threshold < stale.length → Active calls →
    ∃ granted, calls = [.loaded true, .enabled true, .reset granted] ∧
      run.1 = if granted then .ok ⟨.reset, stale.length, 0, []⟩ else .error .resetRefused
  inactive : unresolved ≠ [] ∨ threshold < stale.length → ¬Active calls →
    ∃ e, Checks calls (.error e) ∧ run.1 = .error e
  compile : stale ≠ [] → unresolved = [] → stale.length ≤ threshold →
    let batch := (rt.traced.compileMany stale).runFrom (s, [])
    calls = batch.2.2 ∧ run = (batch.1.map (reportOn stale), batch.2.1)
  report : ∀ report, run.1 = .ok report →
    let strategy := (Plan.of stale unresolved threshold).strategy
    report.strategy = strategy ∧ report.stale = stale.length ∧
      report.compiled + report.failed.length = if strategy = .compile then stale.length else 0

theorem Plan.exact {σ : Type} (rt : Runtime σ) (s : σ) (stale unresolved : List Path)
    (threshold : Nat) :
    let run := ((Plan.of stale unresolved threshold).apply rt.traced).runFrom (s, [])
    Exact rt s stale unresolved threshold run.2.2 (run.1, run.2.1) := by
  intro run
  have carried := (rt.emits_apply (.of stale unresolved threshold)).alone s
  have dropped (many : unresolved ≠ [] ∨ threshold < stale.length) :
      ∃ result, Drop run.2.2 result ∧ run.1 = result.map fun () ↦ ⟨.reset, stale.length, 0, []⟩ := by
    have strategy := strategy_of_reset many
    generalize run.2.2 = calls at carried
    generalize run.1 = result at carried
    cases carried with
    | clean other | compile other => cases strategy.symm.trans other
    | reset _ drop => exact ⟨_, drop, rfl⟩
  constructor
  case clean =>
    rintro rfl rfl
    exact ⟨rfl, rfl⟩
  case reset =>
    intro many active
    obtain ⟨result, drop, same⟩ := dropped many
    obtain ⟨granted, calls, rfl⟩ := drop.cases_active.1 active
    refine ⟨granted, calls, same.trans ?_⟩
    cases granted <;> rfl
  case inactive =>
    intro many inactive
    obtain ⟨result, drop, same⟩ := dropped many
    obtain ⟨e, checks, rfl⟩ := drop.cases_active.2 inactive
    exact ⟨e, checks, same⟩
  case compile =>
    rintro found rfl few
    have strategy := strategy_of_stale found few
    have same : run = _ := runFrom_apply_of_compile strategy rt.traced (s, [])
    rw [same]
    exact ⟨rfl, rfl⟩
  case report =>
    intro report ended
    have reported : Carried _ run.2.2 (.ok report) := ended ▸ carried
    exact reported.report_eq

/-- Batches and plans with any runtime, whose answers may change from one call to the next. A batch
passes its files in order, each as often as it is listed, up to the first before which the cache is
not active. If there is none it gives the files sorted by their verdicts, and else this error. To
carry out a plan no call is made if nothing is stale or unresolved, one reset is asked for if
something is unresolved or too much is stale, and otherwise the stale files are a batch. -/
theorem batches_and_plans_exact {σ : Type} (rt : Runtime σ) (s : σ) :
    (∀ paths, ∃ calls, let run := (rt.compileMany paths).runFrom s
      (rt.traced.compileMany paths).runFrom (s, []) = (run.1, run.2, calls) ∧
      Batch.Exact paths calls run.1 ∧ ((∃ o, run.1 = .ok o) ↔ Active calls)) ∧
    ∀ stale unresolved threshold, let plan := Plan.of stale unresolved threshold
      ∃ calls, let run := (plan.apply rt).runFrom s
      (plan.apply rt.traced).runFrom (s, []) = (run.1, run.2, calls) ∧
      Plan.Exact rt s stale unresolved threshold calls run := by
  constructor
  · intro paths
    have exact := ((rt.emits_compileMany paths).alone s).exact
    refine ⟨((rt.traced.compileMany paths).runFrom (s, [])).2.2, ?_⟩
    rw [EngineM.runFrom_untraced fun kept ↦ kept.alike.compileMany paths]
    exact ⟨rfl, exact, exact.isOk_iff⟩
  · intro stale unresolved threshold plan
    refine ⟨((plan.apply rt.traced).runFrom (s, [])).2.2, ?_⟩
    rw [EngineM.runFrom_untraced fun kept ↦ kept.alike.apply plan]
    exact ⟨rfl, Plan.exact rt s stale unresolved threshold⟩

end ScriptCache
