import ScriptCache.Proofs.Engine.Provenance

/-!
# Uses of a cache, call by call

A program is an operation as the calls that it makes, each with what follows its answer. Every use
of a cache is carried out by a program, on every runtime (`Program.run_ofUse`). `Program.Makes` is a
single call; what is left of a program after some calls gives, carried out, what the whole program
would have given.
-/

namespace ScriptCache

inductive Program (α : Type) where
  | done (result : Except EngineError α)
  | loaded (next : Bool → Program α)
  | enabled (next : Bool → Program α)
  | scripts (next : Registry → Program α)
  | compile (p : Path) (next : Except String Unit → Program α)
  | reset (next : Bool → Program α)

namespace Program

variable {σ α β : Type}

def run (rt : Runtime σ) : Program α → EngineM σ α
  | .done (.ok a) => pure a
  | .done (.error e) => throw e
  | .loaded next => do (next (← rt.loaded)).run rt
  | .enabled next => do (next (← rt.enabled)).run rt
  | .scripts next => do (next (← rt.scripts)).run rt
  | .compile p next => do (next (← rt.compile p)).run rt
  | .reset next => do (next (← rt.reset)).run rt

def bind (p : Program α) (f : α → Program β) : Program β :=
  match p with
  | .done (.ok a) => f a
  | .done (.error e) => .done (.error e)
  | .loaded next => .loaded fun answer ↦ (next answer).bind f
  | .enabled next => .enabled fun answer ↦ (next answer).bind f
  | .scripts next => .scripts fun answer ↦ (next answer).bind f
  | .compile q next => .compile q fun answer ↦ (next answer).bind f
  | .reset next => .reset fun answer ↦ (next answer).bind f

theorem run_bind (rt : Runtime σ) (p : Program α) (f : α → Program β) :
    (p.bind f).run rt = p.run rt >>= fun a ↦ (f a).run rt := by
  induction p with
  | done result => cases result <;> rfl
  | loaded next ih | enabled next ih | scripts next ih | compile q next ih | reset next ih =>
    simp only [bind, run, ih, bind_assoc]

theorem bind_bind {γ : Type} (p : Program α) (f : α → Program β) (g : β → Program γ) :
    (p.bind f).bind g = p.bind fun a ↦ (f a).bind g := by
  induction p with
  | done result => cases result <;> rfl
  | loaded next ih | enabled next ih | scripts next ih | compile q next ih | reset next ih =>
    simp only [bind, ih]

/-! ## The operations of a cache -/

def requireActive : Program Unit :=
  .loaded fun there ↦
    if there then .enabled fun on ↦ if on then .done (.ok ()) else .done (.error .disabled)
    else .done (.error .notLoaded)

theorem run_requireActive (rt : Runtime σ) : requireActive.run rt = rt.requireActive := by
  unfold requireActive Runtime.requireActive Runtime.requireLoaded
  rw [run, bind_assoc]
  refine bind_congr (m := EngineM σ) fun there ↦ ?_
  cases there with
  | false => rfl
  | true =>
    simp only [if_true, run, pure_bind]
    refine bind_congr (m := EngineM σ) fun on ↦ ?_
    cases on <;> rfl

def status : Program Registry := requireActive.bind fun _ ↦ .scripts fun r ↦ .done (.ok r)

theorem run_status (rt : Runtime σ) : status.run rt = rt.status := by
  rw [status, run_bind, run_requireActive, Runtime.status]
  exact bind_congr (m := EngineM σ) fun _ ↦ bind_pure (m := EngineM σ) _

def attempt (p : Path) : Program (Except String Unit) :=
  requireActive.bind fun _ ↦ .compile p fun verdict ↦ .done (.ok verdict)

theorem run_attempt (rt : Runtime σ) (p : Path) : (attempt p).run rt = rt.attempt p := by
  rw [attempt, run_bind, run_requireActive, Runtime.attempt]
  exact bind_congr (m := EngineM σ) fun _ ↦ bind_pure (m := EngineM σ) _

def compileOne (p : Path) : Program Unit :=
  (attempt p).bind fun
    | .ok () => .done (.ok ())
    | .error reason => .done (.error (.compileFailed p reason))

theorem run_compileOne (rt : Runtime σ) (p : Path) : (compileOne p).run rt = rt.compileOne p := by
  rw [compileOne, run_bind, run_attempt, Runtime.compileOne]
  refine bind_congr (m := EngineM σ) fun verdict ↦ ?_
  cases verdict <;> rfl

def compileMany : List Path → Program Outcome
  | [] => .done (.ok {})
  | p :: paths => (attempt p).bind fun verdict ↦
      (compileMany paths).bind fun outcome ↦ .done (.ok (outcome.cons p verdict))

theorem run_compileMany (rt : Runtime σ) (paths : List Path) :
    (compileMany paths).run rt = rt.compileMany paths := by
  induction paths with
  | nil => rfl
  | cons p paths ih =>
    rw [compileMany, run_bind, run_attempt, Runtime.compileMany]
    refine bind_congr (m := EngineM σ) fun verdict ↦ ?_
    rw [run_bind, ih]
    rfl

def resetAll : Program Unit :=
  requireActive.bind fun _ ↦ .reset fun granted ↦
    if granted then .done (.ok ()) else .done (.error .resetRefused)

theorem run_resetAll (rt : Runtime σ) : resetAll.run rt = rt.resetAll := by
  rw [resetAll, run_bind, run_requireActive, Runtime.resetAll]
  refine bind_congr (m := EngineM σ) fun _ ↦ bind_congr (m := EngineM σ) fun granted ↦ ?_
  cases granted <;> rfl

def apply (plan : Plan) : Program Report :=
  let report : Report := { strategy := plan.strategy, stale := plan.stale.length }
  match plan.strategy with
  | .clean => .done (.ok report)
  | .reset => resetAll.bind fun _ ↦ .done (.ok report)
  | .compile => (compileMany plan.stale).bind fun outcome ↦
      .done (.ok { report with compiled := outcome.compiled.length, failed := outcome.failed })

theorem run_apply (rt : Runtime σ) (plan : Plan) : (apply plan).run rt = plan.apply rt := by
  unfold apply Plan.apply
  cases plan.strategy with
  | clean => rfl
  | reset =>
    rw [run_bind, run_resetAll]
    rfl
  | compile =>
    rw [run_bind, run_compileMany]
    rfl

/-! ## The uses of a cache -/

def ofUse (d : Disk) : Use → Program Unit
  | .compile p => compileOne p
  | .compileMany paths => (compileMany paths).bind fun _ ↦ .done (.ok ())
  | .reset => resetAll
  | .watch w => status.bind fun scripts ↦
      let entries := w.entries d
      (apply (.of (staleOnDisk entries scripts) (unresolvedOnDisk entries scripts)
        w.resetThreshold)).bind fun _ ↦ .done (.ok ())
  | .poll w answer =>
    match w.address? with
    | none => .done (.ok ())
    | some url =>
      match FleetWatch.readAnswer url (if Http.isFetchable url then answer else .error .badScheme) with
      | .error _ => .done (.ok ())
      | .ok remote => status.bind fun scripts ↦
          (apply (.of (staleAgainst remote scripts) [] w.resetThreshold)).bind fun _ ↦ .done (.ok ())
  | .compileAll w force => status.bind fun scripts ↦
      (compileMany ((w.entries d).filterMap (LocalWatch.wants scripts force))).bind fun _ ↦
        .done (.ok ())

/-- Each use is carried out by its program. -/
theorem run_ofUse (d : Disk) (rt : Runtime σ) (u : Use) : (ofUse d u).run rt = u.act d rt := by
  cases u with
  | compile p => exact run_compileOne rt p
  | compileMany paths =>
    rw [ofUse, run_bind, run_compileMany]
    rfl
  | reset => exact run_resetAll rt
  | watch w =>
    rw [ofUse, run_bind, run_status, Use.act, LocalWatch.cycle, bind_assoc]
    refine bind_congr (m := EngineM σ) fun scripts ↦ ?_
    rw [run_bind, run_apply]
    rfl
  | poll w answer =>
    rw [ofUse, Use.act, FleetWatch.cycle]
    cases w.address? with
    | none => rfl
    | some url =>
      have sent : Http.send (fun _ _ ↦ pure answer : Http.Network σ) url
            { method := "GET", target := Http.targetOf url } =
          pure (if Http.isFetchable url then answer else .error .badScheme) := by
        rw [Http.send]
        split <;> rfl
      simp only [sent, liftM_pure, pure_bind]
      cases FleetWatch.readAnswer url (if Http.isFetchable url then answer else .error .badScheme) with
      | error e => rfl
      | ok remote =>
        simp only [run_bind, run_status, FleetWatch.reconcile, bind_assoc]
        refine bind_congr (m := EngineM σ) fun scripts ↦ ?_
        rw [run_apply]
        rfl
  | compileAll w force =>
    rw [ofUse, run_bind, run_status, Use.act, LocalWatch.compileAll, bind_assoc]
    refine bind_congr (m := EngineM σ) fun scripts ↦ ?_
    rw [run_bind, run_compileMany]
    rfl

/-! ## Single calls -/

/-- The next call of a program, with the cache before and after it and what is left to do. -/
inductive Makes (rt : Runtime σ) : Program α → σ → Call → Program α → σ → Prop where
  | loaded (next : Bool → Program α) (c : σ) :
      Makes rt (.loaded next) c (.loaded (rt.loaded.run c).1) (next (rt.loaded.run c).1)
        (rt.loaded.run c).2
  | enabled (next : Bool → Program α) (c : σ) :
      Makes rt (.enabled next) c (.enabled (rt.enabled.run c).1) (next (rt.enabled.run c).1)
        (rt.enabled.run c).2
  | scripts (next : Registry → Program α) (c : σ) :
      Makes rt (.scripts next) c (.scripts (rt.scripts.run c).1) (next (rt.scripts.run c).1)
        (rt.scripts.run c).2
  | compile (p : Path) (next : Except String Unit → Program α) (c : σ) :
      Makes rt (.compile p next) c (.compile p ((rt.compile p).run c).1)
        (next ((rt.compile p).run c).1) ((rt.compile p).run c).2
  | reset (next : Bool → Program α) (c : σ) :
      Makes rt (.reset next) c (.reset (rt.reset.run c).1) (next (rt.reset.run c).1)
        (rt.reset.run c).2

variable {rt : Runtime σ} {p p' : Program α} {c c' : σ} {call : Call}

theorem Makes.run_traced (h : Makes rt p c call p' c') (calls : List Call) :
    (p.run rt.traced).runFrom (c, calls) = (p'.run rt.traced).runFrom (c', calls ++ [call]) := by
  cases h <;> rfl

theorem run_traced_done (result : Except EngineError α) (c : σ) (calls : List Call) :
    ((done result).run rt.traced).runFrom (c, calls) = (result, c, calls) := by
  cases result <;> rfl

theorem done_or_makes (rt : Runtime σ) (p : Program α) (c : σ) :
    (∃ result, p = .done result) ∨ ∃ call p' c', Makes rt p c call p' c' := by
  cases p with
  | done result => exact .inl ⟨result, rfl⟩
  | loaded next => exact .inr ⟨_, _, _, .loaded next c⟩
  | enabled next => exact .inr ⟨_, _, _, .enabled next c⟩
  | scripts next => exact .inr ⟨_, _, _, .scripts next c⟩
  | compile q next => exact .inr ⟨_, _, _, .compile q next c⟩
  | reset next => exact .inr ⟨_, _, _, .reset next c⟩

/-- The calls of a program come behind those before it. -/
theorem exists_new_calls (rt : Runtime σ) (p : Program α) (c : σ) (calls : List Call) :
    ∃ new, ((p.run rt.traced).runFrom (c, calls)).2.2 = calls ++ new := by
  have behind {p p' : Program α} {c c' : σ} {calls : List Call} {call : Call}
      (made : Makes rt p c call p' c')
      (later : ∃ new, ((p'.run rt.traced).runFrom (c', calls ++ [call])).2.2 =
        calls ++ [call] ++ new) :
      ∃ new, ((p.run rt.traced).runFrom (c, calls)).2.2 = calls ++ new := by
    obtain ⟨new, eq⟩ := later
    exact ⟨call :: new, by rw [made.run_traced, eq, List.append_assoc]; rfl⟩
  induction p generalizing c calls with
  | done result => exact ⟨[], by rw [run_traced_done, List.append_nil]⟩
  | loaded next ih => exact behind (.loaded next c) (ih _ _ _)
  | enabled next ih => exact behind (.enabled next c) (ih _ _ _)
  | scripts next ih => exact behind (.scripts next c) (ih _ _ _)
  | compile q next ih => exact behind (.compile q next c) (ih _ _ _)
  | reset next ih => exact behind (.reset next c) (ih _ _ _)

/-- Some calls of a program, one after the other. -/
inductive Runs (rt : Runtime σ) : Program α → σ → List Call → Program α → σ → Prop where
  | nil (p : Program α) (c : σ) : Runs rt p c [] p c
  | cons {p p' p'' : Program α} {c c' c'' : σ} {call : Call} {calls : List Call}
      (first : Makes rt p c call p' c') (rest : Runs rt p' c' calls p'' c'') :
      Runs rt p c (call :: calls) p'' c''

end Program

end ScriptCache
