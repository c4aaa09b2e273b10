import ScriptCache.Proofs.Engine.Run

/-!
# What an operation asks of a runtime

A traced runtime behaves like the one it is made from, and keeps a list of its uses with their
answers. `Emits` says what an operation adds to that list and how that decides its result. Batches
and plans are described in full here, for every runtime: `Batch` and `Carried` are the lists that
they can leave.
-/

namespace ScriptCache

/-- A use of a runtime, with its answer. -/
inductive Call where
  | loaded (answer : Bool)
  | enabled (answer : Bool)
  | scripts (answer : Registry)
  | compile (p : Path) (verdict : Except String Unit)
  | reset (answer : Bool)

/-- What a call may change of a cache. -/
inductive Mutation where
  | compile (p : Path)
  | reset
  deriving DecidableEq, Repr

namespace Call

def mutation? : Call → Option Mutation
  | .compile p _ => some (.compile p)
  | .reset _ => some .reset
  | _ => none

def registry? : Call → Option Registry
  | .scripts r => some r
  | _ => none

/-- The cache was found there and switched on each time that it was asked. -/
def Active (calls : List Call) : Prop := .loaded false ∉ calls ∧ .enabled false ∉ calls

/-- The attempts to change the cache. -/
def mutations (calls : List Call) : List Mutation := calls.filterMap mutation?

/-- The registries that the cache showed. -/
def registries (calls : List Call) : List Registry := calls.filterMap registry?

theorem active_append {xs ys : List Call} : Active (xs ++ ys) ↔ Active xs ∧ Active ys := by
  simpa [Active] using and_and_and_comm

end Call

namespace Runtime

variable {σ α β : Type}

/-- Notes the answer of an action as a call. -/
def noting (x : StateM σ α) (call : α → Call) : StateM (σ × List Call) α := fun (s, calls) ↦
  let (a, s) := x.run s
  (a, s, calls ++ [call a])

/-- A runtime that keeps its calls in order. -/
def traced (rt : Runtime σ) : Runtime (σ × List Call) where
  loaded := noting rt.loaded .loaded
  enabled := noting rt.enabled .enabled
  scripts := noting rt.scripts .scripts
  compile p := noting (rt.compile p) (.compile p)
  reset := noting rt.reset .reset

end Runtime

/-- What an operation adds to the calls goes with its result. -/
def EngineM.Emits {σ α : Type} (x : EngineM (σ × List Call) α)
    (P : List Call → Except EngineError α → Prop) : Prop :=
  ∀ s calls, ∃ result s' new, x.runFrom (s, calls) = (result, s', calls ++ new) ∧ P new result

namespace EngineM.Emits

variable {σ α β : Type} {x : EngineM (σ × List Call) α} {f : α → EngineM (σ × List Call) β}
  {P Q : List Call → Except EngineError α → Prop} {R : α → List Call → Except EngineError β → Prop}

theorem mono (h : x.Emits P) (weaken : ∀ calls result, P calls result → Q calls result) :
    x.Emits Q := fun s calls ↦
  have ⟨result, s', new, run, p⟩ := h s calls
  ⟨result, s', new, run, weaken _ _ p⟩

theorem pure (a : α) : (pure a : EngineM (σ × List Call) α).Emits (· = [] ∧ · = .ok a) :=
  fun s _ ↦ ⟨_, s, [], by simp, rfl, rfl⟩

theorem throw (e : EngineError) :
    (throw e : EngineM (σ × List Call) α).Emits (· = [] ∧ · = .error e) :=
  fun s _ ↦ ⟨_, s, [], by simp, rfl, rfl⟩

theorem noting (y : StateM σ α) (call : α → Call) :
    (liftM (Runtime.noting y call) : EngineM (σ × List Call) α).Emits
      (fun calls result ↦ ∃ a, calls = [call a] ∧ result = .ok a) :=
  fun s _ ↦ ⟨_, (y.run s).2, [call (y.run s).1], rfl, _, rfl, rfl⟩

/-- The calls of two operations, one after the other, or of the first where it fails. -/
theorem bind (h : x.Emits P) (k : ∀ a, (f a).Emits (R a)) :
    (x >>= f).Emits fun calls result ↦
      (∃ e, P calls (.error e) ∧ result = .error e) ∨
        ∃ a first second, calls = first ++ second ∧ P first (.ok a) ∧ R a second result := by
  intro s calls
  obtain ⟨result, s', new, run, p⟩ := h s calls
  cases result with
  | error e => exact ⟨_, s', new, runFrom_bind_error run f, .inl ⟨e, p, rfl⟩⟩
  | ok a =>
    obtain ⟨result', s'', new', run', r⟩ := k a s' (calls ++ new)
    refine ⟨result', s'', new ++ new', ?_, .inr ⟨a, new, new', rfl, p, r⟩⟩
    rw [runFrom_bind_ok run, run', List.append_assoc]

/-- An operation that has the list of calls to itself. -/
theorem alone (h : x.Emits P) (s : σ) : P (x.runFrom (s, [])).2.2 (x.runFrom (s, [])).1 := by
  obtain ⟨result, s', new, run, holds⟩ := h s []
  rw [run]
  exact holds

theorem map (h : x.Emits P) (g : α → β) :
    (g <$> x).Emits fun calls result ↦ ∃ r, P calls r ∧ result = r.map g := by
  intro s calls
  obtain ⟨result, s', new, run, p⟩ := h s calls
  exact ⟨_, s', new, by rw [runFrom_map, run], result, p, rfl⟩

end EngineM.Emits

/-- Finding out whether a cache is there and switched on. -/
inductive Checks : List Call → Except EngineError Unit → Prop where
  | missing : Checks [.loaded false] (.error .notLoaded)
  | off : Checks [.loaded true, .enabled false] (.error .disabled)
  | active : Checks [.loaded true, .enabled true] (.ok ())

/-- Compiling files one after the other, up to the first before which the cache is not active. -/
inductive Batch : List Path → List Call → Except EngineError Outcome → Prop where
  | nil : Batch [] [] (.ok {})
  | inactive {p : Path} {paths : List Path} {calls : List Call} {e : EngineError}
      (checks : Checks calls (.error e)) : Batch (p :: paths) calls (.error e)
  | cons {p : Path} {paths : List Path} {verdict : Except String Unit} {calls : List Call}
      {result : Except EngineError Outcome} (rest : Batch paths calls result) :
      Batch (p :: paths) (.loaded true :: .enabled true :: .compile p verdict :: calls)
        (result.map (Outcome.cons p verdict))

/-- Dropping all scripts of a cache. -/
inductive Drop : List Call → Except EngineError Unit → Prop where
  | inactive {calls : List Call} {e : EngineError} (checks : Checks calls (.error e)) :
      Drop calls (.error e)
  | refused : Drop [.loaded true, .enabled true, .reset false] (.error .resetRefused)
  | done : Drop [.loaded true, .enabled true, .reset true] (.ok ())

/-- Carrying out a plan. -/
inductive Carried (plan : Plan) : List Call → Except EngineError Report → Prop where
  | clean (strategy : plan.strategy = .clean) :
      Carried plan [] (.ok ⟨.clean, plan.stale.length, 0, []⟩)
  | reset {calls : List Call} {result : Except EngineError Unit} (strategy : plan.strategy = .reset)
      (drop : Drop calls result) :
      Carried plan calls (result.map fun () ↦ ⟨.reset, plan.stale.length, 0, []⟩)
  | compile {calls : List Call} {result : Except EngineError Outcome}
      (strategy : plan.strategy = .compile) (batch : Batch plan.stale calls result) :
      Carried plan calls
        (result.map fun o ↦ ⟨.compile, plan.stale.length, o.compiled.length, o.failed⟩)

namespace Runtime

open EngineM (Emits)

variable {σ : Type} (rt : Runtime σ)

/-- A question whose answer must be yes. -/
theorem emits_unless (x : StateM σ Bool) (call : Bool → Call) (e : EngineError) :
    ((do unless ← (liftM (noting x call) : EngineM (σ × List Call) Bool) do throw e) :
        EngineM (σ × List Call) Unit).Emits fun calls result ↦
      calls = [call false] ∧ result = .error e ∨ calls = [call true] ∧ result = .ok () := by
  refine ((Emits.noting x call).bind (R := fun b calls result ↦
    calls = [] ∧ result = if b then .ok () else .error e) fun b ↦ ?_).mono ?_
  · cases b
    · exact .throw e
    · exact .pure ()
  · rintro calls result (⟨_, ⟨_, _, h⟩, _⟩ | ⟨b, _, _, rfl, ⟨_, rfl, h⟩, rfl, rfl⟩)
    · cases h
    · cases h
      cases b
      · exact .inl ⟨rfl, rfl⟩
      · exact .inr ⟨rfl, rfl⟩

theorem emits_requireActive : rt.traced.requireActive.Emits Checks := by
  have loaded := emits_unless rt.loaded .loaded .notLoaded
  have enabled := emits_unless rt.enabled .enabled .disabled
  refine (loaded.bind fun _ ↦ enabled).mono ?_
  rintro calls result (⟨e, h, rfl⟩ | ⟨_, _, _, rfl, h, h'⟩)
  · obtain ⟨rfl, h⟩ | ⟨_, h⟩ := h <;> cases h
    exact .missing
  · obtain ⟨_, h⟩ | ⟨rfl, -⟩ := h
    · cases h
    · obtain ⟨rfl, rfl⟩ | ⟨rfl, rfl⟩ := h'
      · exact .off
      · exact .active

theorem emits_status : rt.traced.status.Emits fun calls result ↦
    (∃ e, Checks calls (.error e) ∧ result = .error e) ∨
      ∃ r, calls = [.loaded true, .enabled true, .scripts r] ∧ result = .ok r := by
  refine (rt.emits_requireActive.bind fun _ ↦ Emits.noting rt.scripts .scripts).mono ?_
  rintro calls result (h | ⟨_, _, _, rfl, ⟨⟩, r, rfl, rfl⟩)
  · exact .inl h
  · exact .inr ⟨r, rfl, rfl⟩

/-- What depends on the scripts of a cache happens after they were shown. -/
theorem emits_status_bind {α : Type} {f : Registry → EngineM (σ × List Call) α}
    {P : Registry → List Call → Except EngineError α → Prop} (h : ∀ own, (f own).Emits (P own)) :
    (rt.traced.status >>= f).Emits fun calls result ↦
      (∃ e, Checks calls (.error e) ∧ result = .error e) ∨
        ∃ own new, calls = [.loaded true, .enabled true, .scripts own] ++ new ∧
          P own new result := by
  refine (rt.emits_status.bind h).mono ?_
  rintro calls result (⟨e, ⟨_, checks, same⟩ | ⟨_, _, ended⟩, rfl⟩ |
    ⟨own, _, new, rfl, ⟨_, _, ended⟩ | ⟨_, rfl, same⟩, holds⟩)
  · cases same
    exact .inl ⟨e, checks, rfl⟩
  · cases ended
  · cases ended
  · cases same
    exact .inr ⟨own, new, rfl, holds⟩

theorem emits_attempt (p : Path) : (rt.traced.attempt p).Emits fun calls result ↦
    (∃ e, Checks calls (.error e) ∧ result = .error e) ∨
      ∃ v, calls = [.loaded true, .enabled true, .compile p v] ∧ result = .ok v := by
  refine (rt.emits_requireActive.bind fun _ ↦ Emits.noting (rt.compile p) (.compile p)).mono ?_
  rintro calls result (h | ⟨_, _, _, rfl, ⟨⟩, v, rfl, rfl⟩)
  · exact .inl h
  · exact .inr ⟨v, rfl, rfl⟩

theorem emits_compileMany (paths : List Path) :
    (rt.traced.compileMany paths).Emits (Batch paths) := by
  induction paths with
  | nil =>
    refine (Emits.pure ({} : Outcome)).mono ?_
    rintro calls result ⟨rfl, rfl⟩
    exact .nil
  | cons p paths ih =>
    refine ((rt.emits_attempt p).bind fun v ↦ ih.map (Outcome.cons p v)).mono ?_
    rintro calls result (⟨e, ⟨_, checks, h⟩ | ⟨_, _, h⟩, rfl⟩ |
      ⟨v, _, _, rfl, ⟨_, _, h⟩ | ⟨_, rfl, h⟩, r, batch, rfl⟩)
    · cases h
      exact .inactive checks
    · cases h
    · cases h
    · cases h
      exact .cons batch

theorem emits_resetAll : rt.traced.resetAll.Emits Drop := by
  refine (rt.emits_requireActive.bind fun _ ↦
    emits_unless rt.reset .reset .resetRefused).mono ?_
  rintro calls result (⟨e, checks, rfl⟩ | ⟨_, _, _, rfl, ⟨⟩, ⟨rfl, rfl⟩ | ⟨rfl, rfl⟩⟩)
  · exact .inactive checks
  · exact .refused
  · exact .done

theorem emits_apply (plan : Plan) : (plan.apply rt.traced).Emits (Carried plan) := by
  unfold Plan.apply
  cases strategy : plan.strategy with
  | clean =>
    refine (Emits.pure _).mono ?_
    rintro calls result ⟨rfl, rfl⟩
    exact .clean strategy
  | reset =>
    refine (rt.emits_resetAll.map _).mono ?_
    rintro calls result ⟨r, drop, rfl⟩
    exact .reset strategy drop
  | compile =>
    refine ((rt.emits_compileMany plan.stale).map _).mono ?_
    rintro calls result ⟨r, batch, rfl⟩
    exact .compile strategy batch

end Runtime

end ScriptCache
