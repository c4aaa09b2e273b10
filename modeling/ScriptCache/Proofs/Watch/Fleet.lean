import ScriptCache.Watch.Fleet
import ScriptCache.Proofs.Reconcile.Orders

/-!
# What a peer can bring about

A cycle asks a peer for its registry. Whatever the answer, and whatever becomes of the cache
meanwhile, only scripts that the cache shows itself are compiled. No answer but a registry brings
any use of the cache about.
-/

namespace ScriptCache

variable {σ : Type}

/-- A network that does not use the runtime whose calls are kept. -/
def Http.Network.aside (net : Network σ) : Network (σ × List Call) := fun url request (s, calls) ↦
  let (answer, s) := (net url request).run s
  (answer, s, calls)

theorem Http.run_send_aside (net : Network σ) (url : Url) (request : Request) (s : σ)
    (calls : List Call) :
    (send net.aside url request).run (s, calls) =
      (((send net url request).run s).1, ((send net url request).run s).2, calls) := by
  unfold send
  split <;> rfl

namespace FleetWatch

open Call

/-- What a cycle does to a cache, for the registry of the peer. -/
structure Follows (remote : Registry) (threshold : Nat) (calls : List Call)
    (result : Except EngineError FleetCycle) : Prop where
  /-- An active cache shows its scripts once. Those that the peer has newer are compiled in the
  order of their bytes, or cause a single reset if they are too many. -/
  exact : Active calls → ∃ (own : Registry) (stale : List Path),
    registries calls = [own] ∧
    (∀ p, p ∈ stale ↔ ∃ m k, remote.get? p = some m ∧ own.get? p = some k ∧ k < m) ∧
    stale.Pairwise (fun p q ↦ Utf8.encode p < Utf8.encode q) ∧
    mutations calls = (if threshold < stale.length then [.reset] else stale.map .compile) ∧
    (.reset false ∉ calls →
      ∃ report, result = .ok (.reconciled report) ∧ report.stale = stale.length)
  /-- Only scripts that the cache showed are compiled. -/
  own : ∀ p, .compile p ∈ mutations calls → ∃ own, registries calls = [own] ∧ own.contains p

theorem emits_reconcile (w : FleetWatch) (rt : Runtime σ) (remote : Registry) :
    (FleetCycle.reconciled <$> w.reconcile rt.traced remote).Emits
      (Follows remote w.resetThreshold) := by
  refine ((rt.emits_status_bind fun own ↦
    rt.emits_apply (.of (staleAgainst remote own) [] w.resetThreshold)).map _).mono ?_
  rintro calls result ⟨_, ⟨e, checks, rfl⟩ | ⟨own, new, rfl, carried⟩, rfl⟩
  · exact ⟨fun active ↦ absurd active checks.not_active, by simp [checks.mutations]⟩
  · have shown := congrArg (own :: ·) carried.registries
    refine ⟨fun active ↦ ?_, fun p compiled ↦ ⟨own, shown, ?_⟩⟩
    · obtain ⟨ordered, done⟩ := carried.complete (active_append.mp active).2
      refine ⟨own, _, shown, fun p ↦ mem_staleAgainst, staleAgainst_ascending remote own, ?_, ?_⟩
      · exact ordered.trans (Plan.orders_of _ _)
      · intro granted
        obtain ⟨report, rfl, -, stale⟩ := done fun h ↦ granted (List.mem_append_right _ h)
        exact ⟨report, rfl, stale⟩
    · have ordered := carried.mutations_prefix.subset compiled
      rw [Plan.orders_of] at ordered
      have stale : p ∈ staleAgainst remote own := by
        split at ordered
        · simp at ordered
        · simpa using ordered
      obtain ⟨m, k, -, known, -⟩ := mem_staleAgainst.mp stale
      rw [Registry.contains, known]
      rfl

theorem runFrom_reconcile_shown {w : FleetWatch} {rt : Runtime σ} {remote own : Registry} {s s' : σ}
    (shown : rt.status.runFrom s = (.ok own, s')) :
    (w.reconcile rt remote).runFrom s =
      ((Plan.of (staleAgainst remote own) [] w.resetThreshold).apply rt).runFrom s' :=
  EngineM.runFrom_bind_ok shown _

section Sent

variable {w : FleetWatch} {net : Http.Network σ} {s s' : σ} {url : Url}
  {answer : Except Http.NetworkError Http.Response}

/-- A cycle goes on from the answer to its request. -/
theorem runFrom_cycle (rt : Runtime σ) (address : w.address? = some url)
    (sent : (Http.send net url { method := "GET", target := Http.targetOf url }).run s =
      (answer, s')) :
    (w.cycle net rt).runFrom s =
      (match readAnswer url answer with
        | .error e => pure (.unreachable e)
        | .ok remote => .reconciled <$> w.reconcile rt remote : EngineM _ _).runFrom s' := by
  simp only [cycle, address]
  rw [EngineM.runFrom_bind_ok (EngineM.runFrom_lift _ _), sent]
  rfl

theorem runFrom_cycle_of_sent (rt : Runtime (σ × List Call)) (address : w.address? = some url)
    (sent : (Http.send net url { method := "GET", target := Http.targetOf url }).run s =
      (answer, s')) :
    (w.cycle net.aside rt).runFrom (s, []) =
      (match readAnswer url answer with
        | .error e => pure (.unreachable e)
        | .ok remote => .reconciled <$> w.reconcile rt remote : EngineM _ _).runFrom (s', []) := by
  apply runFrom_cycle rt address
  rw [Http.run_send_aside, sent]

end Sent

/-- A cycle with any peer and any cache. An address that leads nowhere, a request that fails, an
answer other than success and a body that is no registry leave the cache untouched. -/
theorem cycle_calls (w : FleetWatch) (net : Http.Network σ) (rt : Runtime σ) (s : σ) :
    let run := (w.cycle net.aside rt.traced).runFrom (s, [])
    match w.address? with
    | none => run = (.ok .unresolvable, s, [])
    | some url =>
      match (Http.send net url { method := "GET", target := Http.targetOf url }).run s with
      | (.error _, s) => run = (.ok (.unreachable (.transport url)), s, [])
      | (.ok answer, s) =>
        if answer.status < 200 ∨ 300 ≤ answer.status then
          run = (.ok (.unreachable (.status url answer.status)), s, [])
        else
          match Json.decodeBytes Registry.readJson answer.body with
          | .error _ => run = (.ok (.unreachable (.decode url)), s, [])
          | .ok remote =>
            ∃ result s' calls, run = (result, s', calls) ∧
              Follows remote w.resetThreshold calls result := by
  intro run
  cases address : w.address? with
  | none => simp [run, cycle, address]
  | some url =>
    dsimp only
    rcases sent : (Http.send net url { method := "GET", target := Http.targetOf url }).run s with
      ⟨e | answer, s'⟩
    · exact runFrom_cycle_of_sent rt.traced address sent
    · have ran := runFrom_cycle_of_sent rt.traced address sent
      dsimp only
      split
      · rename_i other
        have refused : answer.isSuccess = false := by
          simp only [Http.Response.isSuccess, Bool.and_eq_false_iff, decide_eq_false_iff_not]
          omega
        simpa [run, readAnswer, refused] using ran
      · rename_i success
        have granted : answer.isSuccess = true := by
          simp only [Http.Response.isSuccess, Bool.and_eq_true, decide_eq_true_eq]
          omega
        cases decoded : Json.decodeBytes Registry.readJson answer.body with
        | error e => simpa [run, readAnswer, granted, decoded, Except.mapError] using ran
        | ok remote =>
          obtain ⟨result, s'', calls, reconciled, follows⟩ := emits_reconcile w rt remote s' []
          refine ⟨result, s'', calls, ?_, follows⟩
          rw [List.nil_append] at reconciled
          simpa [run, readAnswer, granted, decoded, Except.mapError, reconciled] using ran

end FleetWatch

end ScriptCache
