import Mathlib
import ScriptCache.Reconcile.Apply

/-!
# Carrying out operations of a cache

An operation that is carried out in a state gives a result and the state after it. Each operation
has one equation here, by which later proofs take it apart.
-/

namespace ScriptCache

namespace EngineM

variable {σ α β : Type}

/-- The result of an operation in a state, and the state after it. -/
def runFrom (x : EngineM σ α) (s : σ) : Except EngineError α × σ := x.run.run s

@[simp] theorem runFrom_pure (a : α) (s : σ) : (pure a : EngineM σ α).runFrom s = (.ok a, s) := rfl

@[simp] theorem runFrom_throw (e : EngineError) (s : σ) :
    (throw e : EngineM σ α).runFrom s = (.error e, s) := rfl

@[simp] theorem runFrom_lift (x : StateM σ α) (s : σ) :
    (liftM x : EngineM σ α).runFrom s = (.ok (x.run s).1, (x.run s).2) := rfl

theorem runFrom_bind (x : EngineM σ α) (f : α → EngineM σ β) (s : σ) :
    (x >>= f).runFrom s =
      match x.runFrom s with
      | (.ok a, s') => (f a).runFrom s'
      | (.error e, s') => (.error e, s') := by
  simp only [runFrom, ExceptT.run_bind, StateT.run_bind]
  rcases x.run.run s with ⟨a | e, s'⟩ <;> rfl

/-- An operation goes on where the one before it was carried out. -/
theorem runFrom_bind_ok {x : EngineM σ α} {a : α} {s s' : σ} (h : x.runFrom s = (.ok a, s'))
    (f : α → EngineM σ β) : (x >>= f).runFrom s = (f a).runFrom s' := by
  rw [runFrom_bind, h]

theorem runFrom_bind_error {x : EngineM σ α} {e : EngineError} {s s' : σ}
    (h : x.runFrom s = (.error e, s')) (f : α → EngineM σ β) :
    (x >>= f).runFrom s = (.error e, s') := by
  rw [runFrom_bind, h]

theorem runFrom_map (f : α → β) (x : EngineM σ α) (s : σ) :
    (f <$> x).runFrom s = ((x.runFrom s).1.map f, (x.runFrom s).2) := by
  rw [map_eq_pure_bind, runFrom_bind]
  rcases x.runFrom s with ⟨a | e, s'⟩ <;> rfl

end EngineM

namespace Runtime

variable {σ : Type} (rt : Runtime σ)

theorem runFrom_requireActive (s : σ) :
    rt.requireActive.runFrom s =
      match rt.loaded.run s with
      | (false, s) => (.error .notLoaded, s)
      | (true, s) =>
        match rt.enabled.run s with
        | (false, s) => (.error .disabled, s)
        | (true, s) => (.ok (), s) := by
  simp only [requireActive, requireLoaded, EngineM.runFrom_bind, EngineM.runFrom_lift]
  rcases rt.loaded.run s with ⟨_ | _, s⟩
  · rfl
  · simp
    rcases rt.enabled.run s with ⟨_ | _, s⟩ <;> rfl

end Runtime

end ScriptCache
