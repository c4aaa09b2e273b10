import ScriptCache.Engine
import ScriptCache.Reconcile.Plan

/-!
# Carrying out a plan
-/

namespace ScriptCache

/-- What carrying out a plan did. -/
structure Report where
  strategy : Strategy
  /-- How many scripts were stale. -/
  stale : Nat
  compiled : Nat := 0
  /-- Files that were not compiled, which stay stale. -/
  failed : List (Path × String) := []
  deriving DecidableEq, Repr

/-- Carries out a plan. Files that cannot be compiled are reported, and only an unusable cache is
an error. -/
def Plan.apply {σ : Type} (plan : Plan) (rt : Runtime σ) : EngineM σ Report := do
  let report : Report := { strategy := plan.strategy, stale := plan.stale.length }
  match plan.strategy with
  | .clean => return report
  | .reset =>
    rt.resetAll
    return report
  | .compile =>
    let outcome ← rt.compileMany plan.stale
    return { report with compiled := outcome.compiled.length, failed := outcome.failed }

end ScriptCache
