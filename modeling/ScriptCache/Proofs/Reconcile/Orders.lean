import ScriptCache.Proofs.Engine.Trace
import ScriptCache.Proofs.Registry
import ScriptCache.Proofs.Text.ByteOrder

/-!
# The changes that a plan orders

Carrying out a plan attempts the changes that it orders, one after the other, and all of them
where the cache stays active. Scripts that are stale against another registry come in the order of
their bytes.
-/

namespace ScriptCache

open Call

/-- The changes that a plan orders. -/
def Plan.orders (plan : Plan) : List Mutation :=
  match plan.strategy with
  | .clean => []
  | .reset => [.reset]
  | .compile => plan.stale.map .compile

theorem Plan.stale_of (stale unresolved : List Path) (threshold : Nat) :
    (Plan.of stale unresolved threshold).stale = stale := rfl

theorem Plan.strategy_of_many {stale unresolved : List Path} {threshold : Nat}
    (h : threshold < stale.length) : (Plan.of stale unresolved threshold).strategy = .reset := by
  simp [Plan.of, h]

theorem Plan.strategy_of_unresolved {p : Path} {stale unresolved : List Path} {threshold : Nat}
    (h : p ∈ unresolved) : (Plan.of stale unresolved threshold).strategy = .reset := by
  have some : unresolved.isEmpty = false := by simpa using List.ne_nil_of_mem h
  simp [Plan.of, some]

theorem Plan.strategy_of_few {p : Path} {stale : List Path} {threshold : Nat}
    (h : ¬threshold < (p :: stale).length) :
    (Plan.of (p :: stale) [] threshold).strategy = .compile := by
  simp only [Plan.of, decide_eq_false h]
  rfl

theorem Plan.of_clean {stale unresolved : List Path} {threshold : Nat}
    (h : (Plan.of stale unresolved threshold).strategy = .clean) :
    stale = [] ∧ unresolved = [] := by
  simp only [Plan.of] at h
  split at h
  · cases h
  · split at h <;> simp_all

theorem Plan.of_compile {stale unresolved : List Path} {threshold : Nat}
    (h : (Plan.of stale unresolved threshold).strategy = .compile) :
    stale.length ≤ threshold ∧ unresolved = [] := by
  simp only [Plan.of] at h
  split at h
  · cases h
  · split at h <;> simp_all

theorem Plan.orders_of (stale : List Path) (threshold : Nat) :
    (Plan.of stale [] threshold).orders =
      if threshold < stale.length then [.reset] else stale.map .compile := by
  split
  · rename_i many
    rw [Plan.orders, Plan.strategy_of_many many]
  · rename_i few
    cases stale with
    | nil => rfl
    | cons p stale => rw [Plan.orders, Plan.strategy_of_few few]; rfl

namespace Checks

variable {calls : List Call} {result : Except EngineError Unit}

theorem mutations (h : Checks calls result) : mutations calls = [] := by
  cases h <;> rfl

theorem registries (h : Checks calls result) : registries calls = [] := by
  cases h <;> rfl

theorem not_active {e : EngineError} (h : Checks calls (.error e)) : ¬Active calls := by
  cases h <;> simp [Active]

end Checks

namespace Batch

variable {paths : List Path} {calls : List Call} {result : Except EngineError Outcome}

theorem mutations_prefix (h : Batch paths calls result) :
    mutations calls <+: paths.map .compile := by
  induction h with
  | nil => exact List.prefix_rfl
  | inactive checks =>
    rw [checks.mutations]
    exact List.nil_prefix
  | cons _ ih => exact (List.prefix_cons_inj _).mpr ih

theorem registries (h : Batch paths calls result) : registries calls = [] := by
  induction h with
  | nil => rfl
  | inactive checks => exact checks.registries
  | cons _ ih => exact ih

theorem complete (h : Batch paths calls result) (active : Active calls) :
    mutations calls = paths.map .compile ∧ ∃ o, result = .ok o := by
  induction h with
  | nil => exact ⟨rfl, _, rfl⟩
  | inactive checks => exact absurd active checks.not_active
  | @cons p _ verdict calls _ _ ih =>
    have active : Active ([.loaded true, .enabled true, .compile p verdict] ++ calls) := active
    obtain ⟨mutations, o, rfl⟩ := ih (active_append.mp active).2
    exact ⟨congrArg (Mutation.compile p :: ·) mutations, _, rfl⟩

end Batch

namespace Drop

variable {calls : List Call} {result : Except EngineError Unit}

theorem mutations_prefix (h : Drop calls result) : mutations calls <+: [.reset] := by
  cases h with
  | inactive checks =>
    rw [checks.mutations]
    exact List.nil_prefix
  | refused => exact List.prefix_rfl
  | done => exact List.prefix_rfl

theorem registries (h : Drop calls result) : registries calls = [] := by
  cases h with
  | inactive checks => exact checks.registries
  | refused => rfl
  | done => rfl

theorem complete (h : Drop calls result) (active : Active calls) :
    mutations calls = [.reset] ∧ (.reset false ∉ calls → result = .ok ()) := by
  cases h with
  | inactive checks => exact absurd active checks.not_active
  | refused => exact ⟨rfl, by simp⟩
  | done => exact ⟨rfl, fun _ ↦ rfl⟩

end Drop

namespace Carried

variable {plan : Plan} {calls : List Call} {result : Except EngineError Report}

/-- Nothing is changed that is not ordered, even where the cache turns inactive on the way. -/
theorem mutations_prefix (h : Carried plan calls result) : mutations calls <+: plan.orders := by
  cases h with
  | clean => exact List.nil_prefix
  | reset strategy drop => simpa [Plan.orders, strategy] using drop.mutations_prefix
  | compile strategy batch => simpa [Plan.orders, strategy] using batch.mutations_prefix

theorem registries (h : Carried plan calls result) : registries calls = [] := by
  cases h with
  | clean => rfl
  | reset _ drop => exact drop.registries
  | compile _ batch => exact batch.registries

/-- A cache that stays active gets every order. -/
theorem complete (h : Carried plan calls result) (active : Active calls) :
    mutations calls = plan.orders ∧
      (.reset false ∉ calls →
        ∃ report, result = .ok report ∧ report.strategy = plan.strategy ∧
          report.stale = plan.stale.length) := by
  cases h with
  | clean strategy =>
    exact ⟨by rw [Plan.orders, strategy]; rfl, fun _ ↦ ⟨_, rfl, strategy.symm, rfl⟩⟩
  | reset strategy drop =>
    obtain ⟨mutations, done⟩ := drop.complete active
    refine ⟨by rw [mutations, Plan.orders, strategy], fun h ↦ ?_⟩
    rw [done h]
    exact ⟨_, rfl, strategy.symm, rfl⟩
  | compile strategy batch =>
    obtain ⟨mutations, o, rfl⟩ := batch.complete active
    exact ⟨by rw [mutations, Plan.orders, strategy], fun _ ↦ ⟨_, rfl, strategy.symm, rfl⟩⟩

end Carried

section Stale

variable {other own : Registry} {p : Path}

theorem mem_staleAgainst :
    p ∈ staleAgainst other own ↔
      ∃ m k, other.get? p = some m ∧ own.get? p = some k ∧ k < m := by
  simp only [staleAgainst, List.mem_map, List.mem_filter, Option.any_eq_true, Prod.exists,
    decide_eq_true_eq, exists_and_right, exists_eq_right, Registry.get?_eq_some_iff]
  constructor
  · rintro ⟨m, h, k, h', lt⟩
    exact ⟨m, k, h, h', lt⟩
  · rintro ⟨m, k, h, h', lt⟩
    exact ⟨m, h, k, h', lt⟩

theorem contains_of_mem_staleAgainst (stale : p ∈ staleAgainst other own) : own.contains p := by
  obtain ⟨-, m, -, recorded, -⟩ := mem_staleAgainst.mp stale
  simp [Registry.contains, recorded]

theorem staleAgainst_empty (other : Registry) : staleAgainst other .empty = [] := by
  rw [List.eq_nil_iff_forall_not_mem]
  intro p mem
  obtain ⟨-, k, -, recorded, -⟩ := mem_staleAgainst.mp mem
  cases recorded

theorem staleAgainst_ascending (other own : Registry) :
    (staleAgainst other own).Pairwise fun p q ↦ Utf8.encode p < Utf8.encode q := by
  simp only [Utf8.encode_lt_encode]
  exact List.pairwise_map.mpr (other.sorted.filter _)

end Stale

end ScriptCache
