import ScriptCache.Proofs.Engine.Trace
import ScriptCache.Watch.Fleet
import ScriptCache.Watch.Local

/-!
# Runtimes that answer alike

An operation sees no more of a runtime than its answers. On two runtimes that answer alike it gives
the same result, and whatever holds between their states after every single use holds at its end.
In particular a traced runtime behaves like the one that it is made from.
-/

namespace ScriptCache

variable {σ τ α β : Type} {R : σ → τ → Prop}

/-- From related states, the actions give the same answer and lead to related states. -/
def Alike (R : σ → τ → Prop) (x : StateM σ α) (y : StateM τ α) : Prop :=
  ∀ s t, R s t → (x.run s).1 = (y.run t).1 ∧ R (x.run s).2 (y.run t).2

namespace EngineM

/-- From related states, the operations give the same result and lead to related states. -/
def Alike (R : σ → τ → Prop) (x : EngineM σ α) (y : EngineM τ α) : Prop :=
  ScriptCache.Alike R x.run y.run

namespace Alike

theorem pure (a : α) : Alike R (pure a) (pure a) := by
  intro s t related
  exact ⟨rfl, related⟩

theorem throw (e : EngineError) : Alike (α := α) R (throw e) (throw e) := by
  intro s t related
  exact ⟨rfl, related⟩

theorem lift {x : StateM σ α} {y : StateM τ α} (h : ScriptCache.Alike R x y) :
    Alike R (liftM x) (liftM y) := by
  intro s t related
  obtain ⟨answer, ends⟩ := h s t related
  exact ⟨congrArg Except.ok answer, ends⟩

theorem bind {x : EngineM σ α} {y : EngineM τ α} {f : α → EngineM σ β} {g : α → EngineM τ β}
    (h : Alike R x y) (k : ∀ a, Alike R (f a) (g a)) : Alike R (x >>= f) (y >>= g) := by
  intro s t related
  have first : (x.runFrom s).1 = (y.runFrom t).1 ∧ R (x.runFrom s).2 (y.runFrom t).2 :=
    h s t related
  change ((x >>= f).runFrom s).1 = ((y >>= g).runFrom t).1 ∧
    R ((x >>= f).runFrom s).2 ((y >>= g).runFrom t).2
  rw [runFrom_bind, runFrom_bind]
  generalize x.runFrom s = xs at first
  generalize y.runFrom t = yt at first
  obtain ⟨result, s'⟩ := xs
  obtain ⟨result', t'⟩ := yt
  obtain ⟨same, ends⟩ := first
  cases same
  cases result with
  | error e => exact ⟨rfl, ends⟩
  | ok a => exact k a s' t' ends

end Alike

end EngineM

/-- Each use of the runtimes gives the same answer. -/
structure Runtime.Alike (R : σ → τ → Prop) (rt : Runtime σ) (rt' : Runtime τ) : Prop where
  loaded : ScriptCache.Alike R rt.loaded rt'.loaded
  enabled : ScriptCache.Alike R rt.enabled rt'.enabled
  scripts : ScriptCache.Alike R rt.scripts rt'.scripts
  compile : ∀ p, ScriptCache.Alike R (rt.compile p) (rt'.compile p)
  reset : ScriptCache.Alike R rt.reset rt'.reset

namespace Runtime.Alike

variable {rt : Runtime σ} {rt' : Runtime τ} (h : Runtime.Alike R rt rt')
include h

theorem requireActive : EngineM.Alike R rt.requireActive rt'.requireActive := by
  have insist (e : EngineError) (b : Bool) :
      EngineM.Alike R (do unless b do throw e) (do unless b do throw e) := by
    cases b
    · exact .throw e
    · exact .pure ()
  apply EngineM.Alike.bind
  · exact .bind (.lift h.loaded) fun b ↦ insist .notLoaded b
  · intro _
    exact .bind (.lift h.enabled) fun b ↦ insist .disabled b

theorem status : EngineM.Alike R rt.status rt'.status :=
  .bind h.requireActive fun _ ↦ .lift h.scripts

theorem attempt (p : Path) : EngineM.Alike R (rt.attempt p) (rt'.attempt p) :=
  .bind h.requireActive fun _ ↦ .lift (h.compile p)

theorem compileOne (p : Path) : EngineM.Alike R (rt.compileOne p) (rt'.compileOne p) := by
  apply EngineM.Alike.bind (h.attempt p)
  intro verdict
  cases verdict with
  | error reason => exact .throw _
  | ok => exact .pure ()

theorem compileMany (paths : List Path) :
    EngineM.Alike R (rt.compileMany paths) (rt'.compileMany paths) := by
  induction paths with
  | nil => exact .pure _
  | cons p paths ih =>
    apply EngineM.Alike.bind (h.attempt p)
    intro verdict
    exact .bind ih fun o ↦ .pure (o.cons p verdict)

theorem resetAll : EngineM.Alike R rt.resetAll rt'.resetAll := by
  apply EngineM.Alike.bind h.requireActive
  intro _
  apply EngineM.Alike.bind (.lift h.reset)
  intro granted
  cases granted
  · exact .throw .resetRefused
  · exact .pure ()

theorem apply (plan : Plan) : EngineM.Alike R (plan.apply rt) (plan.apply rt') := by
  unfold Plan.apply
  cases plan.strategy with
  | clean => exact .pure _
  | reset => exact .bind h.resetAll fun _ ↦ .pure _
  | compile => exact .bind (h.compileMany plan.stale) fun _ ↦ .pure _

theorem cycle (w : LocalWatch) (d : Disk) : EngineM.Alike R (w.cycle d rt) (w.cycle d rt') :=
  .bind h.status fun _ ↦ h.apply _

theorem compileAll (w : LocalWatch) (d : Disk) (force : Bool) :
    EngineM.Alike R (w.compileAll d rt force) (w.compileAll d rt' force) :=
  .bind h.status fun _ ↦ h.compileMany _

theorem poll (w : FleetWatch) {net : Http.Network σ} {net' : Http.Network τ}
    (sent : ∀ url request, ScriptCache.Alike R (net url request) (net' url request)) :
    EngineM.Alike R (w.cycle net rt) (w.cycle net' rt') := by
  unfold FleetWatch.cycle
  cases w.address? with
  | none => exact .pure _
  | some url =>
    apply EngineM.Alike.bind
    · apply EngineM.Alike.lift
      unfold Http.send
      split
      · exact sent _ _
      · intro s t related
        exact ⟨rfl, related⟩
    · intro answer
      cases FleetWatch.readAnswer url answer with
      | error e => exact .pure _
      | ok remote => exact .bind (.bind h.status fun _ ↦ h.apply _) fun _ ↦ .pure _

end Runtime.Alike

/-- Each use of the runtime keeps a property of its state and of the calls so far. -/
structure Runtime.Keeps (rt : Runtime σ) (I : σ → List Call → Prop) : Prop where
  loaded : ∀ s calls, I s calls → I (rt.loaded.run s).2 (calls ++ [.loaded (rt.loaded.run s).1])
  enabled : ∀ s calls, I s calls →
    I (rt.enabled.run s).2 (calls ++ [.enabled (rt.enabled.run s).1])
  scripts : ∀ s calls, I s calls →
    I (rt.scripts.run s).2 (calls ++ [.scripts (rt.scripts.run s).1])
  compile : ∀ p s calls, I s calls →
    I ((rt.compile p).run s).2 (calls ++ [.compile p ((rt.compile p).run s).1])
  reset : ∀ s calls, I s calls → I (rt.reset.run s).2 (calls ++ [.reset (rt.reset.run s).1])

/-- A traced runtime goes through the states of the one that it is made from, and its calls have
every property that each single use keeps. -/
theorem Runtime.Keeps.alike {rt : Runtime σ} {I : σ → List Call → Prop} (h : rt.Keeps I) :
    Runtime.Alike (fun s t ↦ s.1 = t ∧ I s.1 s.2) rt.traced rt := by
  have noted {α : Type} {x : StateM σ α} {call : α → Call}
      (kept : ∀ s calls, I s calls → I (x.run s).2 (calls ++ [call (x.run s).1])) :
      ScriptCache.Alike (fun s t ↦ s.1 = t ∧ I s.1 s.2) (noting x call) x := by
    rintro ⟨s, calls⟩ t ⟨rfl, holds⟩
    exact ⟨rfl, rfl, kept s calls holds⟩
  exact ⟨noted h.loaded, noted h.enabled, noted h.scripts, fun p ↦ noted (h.compile p),
    noted h.reset⟩

/-- A traced runtime gives the result and goes to the state of the one that it is made from. -/
theorem EngineM.runFrom_untraced {rt : Runtime σ} {x : EngineM (σ × List Call) α} {y : EngineM σ α}
    (h : ∀ {I : σ → List Call → Prop}, rt.Keeps I →
      EngineM.Alike (fun s t ↦ s.1 = t ∧ I s.1 s.2) x y) (c : σ) :
    y.runFrom c = ((x.runFrom (c, [])).1, (x.runFrom (c, [])).2.1) := by
  have kept : rt.Keeps fun _ _ ↦ True := ⟨by simp, by simp, by simp, by simp, by simp⟩
  obtain ⟨result, state, -⟩ := h kept (c, []) c ⟨rfl, trivial⟩
  exact Prod.ext result.symm state.symm

end ScriptCache
