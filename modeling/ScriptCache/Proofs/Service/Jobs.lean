import ScriptCache.Proofs.Engine.Program
import ScriptCache.Proofs.Watch.Local
import ScriptCache.Service

/-!
# Jobs of a daemon and their lock

The ticks of both watches and the requests to compile or to reset take a lock before they use the
cache. A client may disconnect. While its request waits for the lock, the request is gone; while
its request to compile runs, the lock is free again and the files are compiled to the end. Without
disconnects of the second kind, the changes of a cache are those of jobs that have the cache to
themselves, one after the other.
-/

namespace ScriptCache

namespace Service

inductive Job where
  | localTick
  | fleetTick (answer : Except Http.NetworkError Http.Response)
  | reset
  | compile (force : Bool)

def Job.use (s : Service) : Job → Use
  | .localTick => .watch s.watch
  | .fleetTick answer => .poll s.fleet answer
  | .reset => .reset
  | .compile force => .compileAll s.watch force

def Job.isRequest : Job → Bool
  | .localTick | .fleetTick _ => false
  | .reset | .compile _ => true

/-- A job with the disk that it sees. -/
structure Task where
  job : Job
  disk : Disk

def Task.program (s : Service) (t : Task) : Program Unit := .ofUse t.disk (t.job.use s)

inductive Phase where
  | waiting
  /-- A task that runs with the lock, or without it once its client is gone. -/
  | running (guarded : Bool) (rest : Program Unit)
  | ended

structure Jobs (σ : Type) where
  cache : σ
  /-- The task that holds the lock. -/
  lock : Option Nat
  phase : Nat → Phase
  /-- The changes of the cache, each with its task. -/
  history : List (Nat × Mutation)

namespace Jobs

variable {σ : Type}

def start (c : σ) : Jobs σ := ⟨c, none, fun _ ↦ .waiting, []⟩

def enter (st : Jobs σ) (i : Nat) (phase : Phase) : Jobs σ :=
  { st with phase := Function.update st.phase i phase }

section Steps

variable (s : Service) (rt : Runtime σ) (tasks : Nat → Task)

/-- What happens next. `drops` allows clients to disconnect while their files are compiled. -/
inductive Step (drops : Bool) : Jobs σ → Jobs σ → Prop where
  | acquire {st : Jobs σ} {i : Nat} (free : st.lock = none) (waits : st.phase i = .waiting) :
      Step drops st { st.enter i (.running true ((tasks i).program s)) with lock := some i }
  | call {st : Jobs σ} {i : Nat} {guarded : Bool} {rest rest' : Program Unit} {call : Call}
      {cache : σ} (runs : st.phase i = .running guarded rest)
      (makes : rest.Makes rt st.cache call rest' cache) :
      Step drops st { st.enter i (.running guarded rest') with
        cache, history := st.history ++ (Call.mutations [call]).map (i, ·) }
  | release {st : Jobs σ} {i : Nat} {result : Except EngineError Unit}
      (runs : st.phase i = .running true (.done result)) :
      Step drops st { st.enter i .ended with lock := none }
  | finish {st : Jobs σ} {i : Nat} {result : Except EngineError Unit}
      (runs : st.phase i = .running false (.done result)) : Step drops st (st.enter i .ended)
  | leave {st : Jobs σ} {i : Nat} (request : (tasks i).job.isRequest)
      (waits : st.phase i = .waiting) : Step drops st (st.enter i .ended)
  | drop {st : Jobs σ} {i : Nat} {force : Bool} {rest : Program Unit} (allowed : drops)
      (job : (tasks i).job = .compile force) (runs : st.phase i = .running true rest) :
      Step drops st { st.enter i (.running false rest) with lock := none }

def Reaches (drops : Bool) : Jobs σ → Jobs σ → Prop :=
  Relation.ReflTransGen (Step s rt tasks drops)

/-! ## One job after the other -/

/-- A task that has the cache to itself. -/
def alone (t : Task) (c : σ) : Except EngineError Unit × σ × List Call :=
  ((t.job.use s).act t.disk rt.traced).runFrom (c, [])

/-- Tasks in this order, each to its end: the cache behind them, and its changes. -/
def serially : List Nat → σ → σ × List (Nat × Mutation)
  | [], c => (c, [])
  | i :: order, c =>
    let (_, c, calls) := alone s rt (tasks i) c
    let (c, later) := serially order c
    (c, (Call.mutations calls).map (i, ·) ++ later)

end Steps

variable {s : Service} {rt : Runtime σ} {tasks : Nat → Task} {drops : Bool} {c : σ}
  {st st' : Jobs σ} {i j : Nat} {order : List Nat}

theorem alone_eq (t : Task) (c : σ) :
    alone s rt t c = ((t.program s).run rt.traced).runFrom (c, []) := by
  rw [alone, Task.program, Program.run_ofUse]

theorem alone_cache (t : Task) (c : σ) :
    (alone s rt t c).2.1 = (((t.job.use s).act t.disk rt).runFrom c).2 := by
  have kept : rt.Keeps fun _ _ ↦ True := ⟨by simp, by simp, by simp, by simp, by simp⟩
  exact ((t.job.use s).alike kept.alike t.disk (c, []) c ⟨rfl, trivial⟩).2.1

theorem run_answer {α : Type} (x : EngineM σ α) (f : α → Json) (c : σ) :
    ((answer (do return f (← x))).run c).2 = (x.runFrom c).2 := by
  have mapped := EngineM.runFrom_map f x c
  rw [map_eq_pure_bind] at mapped
  change ((answer (x >>= fun a ↦ pure (f a))).run c).2 = _
  have stays (y : EngineM σ Json) : ((answer y).run c).2 = (y.runFrom c).2 := by
    simp only [answer, StateT.run_bind, EngineM.runFrom]
    rcases y.run.run c with ⟨_ | _, c⟩ <;> rfl
  rw [stays, mapped]

/-- A request to reset changes the cache as its job does. -/
theorem run_perform_reset (d : Disk) (request : Http.Request) (c : σ) :
    ((s.perform d rt .reset request).run c).2 = (alone s rt ⟨.reset, d⟩ c).2.1 := by
  rw [alone_cache]
  exact run_answer rt.resetAll _ c

/-- A request to compile changes the cache as its job does. -/
theorem run_perform_compile (d : Disk) {request : Http.Request} {r : CompileRequest}
    (read : readCompileRequest request = .ok r) (c : σ) :
    ((s.perform d rt .compile request).run c).2 = (alone s rt ⟨.compile r.force, d⟩ c).2.1 := by
  rw [alone_cache, perform, read]
  refine (run_answer (s.watch.compileAll d rt r.force) _ c).trans ?_
  exact congrArg Prod.snd (EngineM.runFrom_map (fun _ ↦ ()) (s.watch.compileAll d rt r.force) c).symm

theorem serially_concat (order : List Nat) (i : Nat) (c : σ) :
    serially s rt tasks (order ++ [i]) c =
      let (c, before) := serially s rt tasks order c
      let (_, c, calls) := alone s rt (tasks i) c
      (c, before ++ (Call.mutations calls).map (i, ·)) := by
  induction order generalizing c with
  | nil => simp [serially]
  | cons k order ih => simp [serially, ih]

theorem mem_of_mem_serially {e : Nat × Mutation} (h : e ∈ (serially s rt tasks order c).2) :
    e.1 ∈ order := by
  induction order generalizing c with
  | nil => cases h
  | cons i order ih =>
    rcases List.mem_append.mp h with own | later
    · obtain ⟨m, -, rfl⟩ := List.mem_map.mp own
      exact List.mem_cons_self
    · exact List.mem_cons_of_mem _ (ih later)

/-- Between two changes by one task stands no change by another. -/
theorem serially_contiguous (nodup : order.Nodup) (before between after : List (Nat × Mutation))
    {m m' : Mutation}
    (h : (serially s rt tasks order c).2 = before ++ (i, m) :: (between ++ (i, m') :: after)) :
    ∀ e ∈ between, e.1 = i := by
  induction order generalizing before c with
  | nil => simp [serially] at h
  | cons k order ih =>
    obtain ⟨fresh, nodup⟩ := List.nodup_cons.mp nodup
    rw [serially] at h
    have ours : ∀ e ∈ (Call.mutations (alone s rt (tasks k) c).2.2).map (k, ·), e.1 = k := by simp
    rcases eq_or_ne i k with rfl | ne
    · -- a later task is another one, so the second change is among its own
      rw [← List.cons_append, ← List.append_assoc] at h
      rcases List.append_eq_append_iff.mp h with ⟨t, -, later⟩ | ⟨t, own, -⟩
      · have mem := mem_of_mem_serially (later ▸ List.mem_append_right t List.mem_cons_self)
        exact absurd mem fresh
      · intro e mem
        exact ours e (by simp [own, mem])
    · rcases List.append_eq_append_iff.mp h with ⟨t, -, later⟩ | ⟨t, own, first⟩
      · exact ih nodup t later
      · cases t with
        | nil => exact ih nodup [] first.symm
        | cons e t =>
          obtain ⟨rfl, -⟩ := List.cons.inj first
          exact absurd (ours (i, m) (by simp [own])) ne

/-! ## The lock -/

/-- Nothing keeps a task from going on once it runs. -/
theorem exists_step_of_running {guarded : Bool} {rest : Program Unit}
    (runs : st.phase i = .running guarded rest) : ∃ st', Step s rt tasks drops st st' := by
  rcases Program.done_or_makes rt rest st.cache with ⟨result, rfl⟩ | ⟨_, _, _, makes⟩
  · cases guarded with
    | true => exact ⟨_, .release runs⟩
    | false => exact ⟨_, .finish runs⟩
  · exact ⟨_, .call runs makes⟩

theorem enter_phase_self (st : Jobs σ) (i : Nat) (phase : Phase) :
    (st.enter i phase).phase i = phase :=
  Function.update_self ..

theorem enter_phase_of_ne (st : Jobs σ) (phase : Phase) (ne : j ≠ i) :
    (st.enter i phase).phase j = st.phase j :=
  Function.update_of_ne ne ..

theorem forall_enter {P : Nat → Phase → Prop} {phase : Phase}
    (others : ∀ j, j ≠ i → P j (st.phase j)) (own : P i phase) :
    ∀ j, P j ((st.enter i phase).phase j) := by
  intro j
  rcases eq_or_ne j i with rfl | ne
  · rwa [enter_phase_self]
  · rw [enter_phase_of_ne st phase ne]
    exact others j ne

/-- The lock is held by the task that runs with it. -/
def Locked (st : Jobs σ) : Prop := ∀ i, st.lock = some i ↔ ∃ rest, st.phase i = .running true rest

theorem locked_start (c : σ) : (start c).Locked := by
  intro i
  simp [start]

theorem Locked.unlock (h : st.Locked) {rest : Program Unit} {phase : Phase}
    (runs : st.phase i = .running true rest) (leaves : ∀ rest, phase ≠ .running true rest) :
    ({ st.enter i phase with lock := none } : Jobs σ).Locked := by
  apply forall_enter (P := fun j phase ↦ none = some j ↔ ∃ rest, phase = .running true rest)
  · intro j ne
    have held := (h i).mpr ⟨_, runs⟩
    have other := h j
    simpa [held, ne.symm] using other
  · simpa using leaves

theorem Locked.enter (h : st.Locked) {phase : Phase}
    (same : (∃ rest, st.phase i = .running true rest) ↔ ∃ rest, phase = .running true rest) :
    (st.enter i phase).Locked :=
  forall_enter (P := fun j phase ↦ st.lock = some j ↔ ∃ rest, phase = .running true rest)
    (fun j _ ↦ h j) ((h i).trans same)

theorem Locked.step (h : st.Locked) (step : Step s rt tasks drops st st') : st'.Locked := by
  cases step with
  | @acquire i free waits =>
    apply forall_enter (P := fun j phase ↦ some i = some j ↔ ∃ rest, phase = .running true rest)
    · intro j ne
      have other := h j
      simpa [free, ne.symm] using other
    · simp
  | call runs makes => exact h.enter (by simp [runs])
  | release runs => exact h.unlock runs (by simp)
  | finish runs => exact h.enter (by simp [runs])
  | leave request waits => exact h.enter (by simp [waits])
  | drop allowed job runs => exact h.unlock runs (by simp)

theorem Reaches.locked (h : Reaches s rt tasks drops (start c) st) : st.Locked := by
  induction h with
  | refl => exact locked_start c
  | tail _ step ih => exact ih.step step

/-! ## Without disconnects from running requests -/

/-- Tasks took the lock in this order. All but the one that holds it have ended, each with the
cache to itself; that one goes on from where it came to. -/
structure Ordered (s : Service) (rt : Runtime σ) (tasks : Nat → Task) (c : σ) (order : List Nat)
    (st : Jobs σ) : Prop where
  nodup : order.Nodup
  entered : ∀ i, i ∈ order → st.phase i ≠ .waiting
  guarded : ∀ i rest, st.phase i ≠ .running false rest
  free : st.lock = none → serially s rt tasks order c = (st.cache, st.history)
  held : ∀ i, st.lock = some i → ∃ before rest calls, order = before ++ [i] ∧
    st.phase i = .running true rest ∧
    st.history = (serially s rt tasks before c).2 ++ (Call.mutations calls).map (i, ·) ∧
    alone s rt (tasks i) (serially s rt tasks before c).1 =
      (rest.run rt.traced).runFrom (st.cache, calls)

theorem ordered_start (c : σ) : Ordered s rt tasks c [] (start c) := by
  constructor
  case nodup => exact List.nodup_nil
  case entered => simp
  case guarded => simp [start]
  case free => exact fun _ ↦ rfl
  case held => simp [start]

theorem Ordered.entered_enter (h : Ordered s rt tasks c order st) {phase : Phase}
    (goesOn : phase ≠ .waiting) : ∀ j, j ∈ order → (st.enter i phase).phase j ≠ .waiting :=
  forall_enter (P := fun j phase ↦ j ∈ order → phase ≠ .waiting) (fun j _ ↦ h.entered j)
    fun _ ↦ goesOn

theorem Ordered.guarded_enter (h : Ordered s rt tasks c order st) {phase : Phase}
    (guarded : ∀ rest, phase ≠ .running false rest) :
    ∀ j rest, (st.enter i phase).phase j ≠ .running false rest :=
  forall_enter (P := fun _ phase ↦ ∀ rest, phase ≠ .running false rest) (fun j _ ↦ h.guarded j)
    guarded

theorem Ordered.acquire (h : Ordered s rt tasks c order st) (free : st.lock = none)
    (waits : st.phase i = .waiting) : Ordered s rt tasks c (order ++ [i])
      { st.enter i (.running true ((tasks i).program s)) with lock := some i } := by
  have fresh : i ∉ order := fun mem ↦ h.entered i mem waits
  constructor
  case nodup =>
    refine List.nodup_append.mpr ⟨h.nodup, List.nodup_singleton i, ?_⟩
    rintro a mem b only rfl
    exact fresh (List.mem_singleton.mp only ▸ mem)
  case entered =>
    apply forall_enter (P := fun j phase ↦ j ∈ order ++ [i] → phase ≠ .waiting)
    · intro j ne mem
      exact h.entered j (by simpa [ne] using mem)
    · simp
  case guarded => exact h.guarded_enter (by simp)
  case free => simp
  case held =>
    rintro j ⟨⟩
    have state := h.free free
    refine ⟨order, _, [], rfl, enter_phase_self .., ?_, ?_⟩
    · simp [state, enter, Call.mutations]
    · rw [alone_eq, state]
      rfl

theorem Ordered.call (h : Ordered s rt tasks c order st) (locked : st.Locked)
    {guarded : Bool} {rest rest' : Program Unit} {call : Call} {cache : σ}
    (runs : st.phase i = .running guarded rest)
    (makes : rest.Makes rt st.cache call rest' cache) :
    Ordered s rt tasks c order { st.enter i (.running guarded rest') with
      cache, history := st.history ++ (Call.mutations [call]).map (i, ·) } := by
  cases guarded with
  | false => exact (h.guarded i _ runs).elim
  | true =>
  have held := (locked i).mpr ⟨_, runs⟩
  constructor
  case nodup => exact h.nodup
  case entered => exact h.entered_enter (by simp)
  case guarded => exact h.guarded_enter (by simp)
  case free =>
    intro free
    exact absurd (held.symm.trans free) (by simp)
  case held =>
    intro j lock
    obtain rfl : i = j := Option.some.inj (held.symm.trans lock)
    obtain ⟨before, left, calls, order_eq, phase, history, carried⟩ := h.held i held
    rw [runs] at phase
    cases phase
    refine ⟨before, rest', calls ++ [call], order_eq, enter_phase_self .., ?_, ?_⟩
    · simp [history, Call.mutations, List.filterMap_append]
    · rw [carried, makes.run_traced]

theorem Ordered.release (h : Ordered s rt tasks c order st) (locked : st.Locked)
    {result : Except EngineError Unit} (runs : st.phase i = .running true (.done result)) :
    Ordered s rt tasks c order { st.enter i .ended with lock := none } := by
  constructor
  case nodup => exact h.nodup
  case entered => exact h.entered_enter (by simp)
  case guarded => exact h.guarded_enter (by simp)
  case free =>
    intro _
    obtain ⟨before, rest, calls, rfl, phase, history, carried⟩ :=
      h.held i ((locked i).mpr ⟨_, runs⟩)
    rw [runs] at phase
    cases phase
    rw [Program.run_traced_done] at carried
    rw [serially_concat]
    simp only [carried]
    rw [← history]
    rfl
  case held => simp

theorem Ordered.leave (h : Ordered s rt tasks c order st) (waits : st.phase i = .waiting) :
    Ordered s rt tasks c order (st.enter i .ended) := by
  constructor
  case nodup => exact h.nodup
  case entered => exact h.entered_enter (by simp)
  case guarded => exact h.guarded_enter (by simp)
  case free => exact h.free
  case held =>
    intro j lock
    obtain ⟨before, rest, calls, order_eq, phase, history, carried⟩ := h.held j lock
    have ne : j ≠ i := by
      rintro rfl
      rw [waits] at phase
      cases phase
    exact ⟨before, rest, calls, order_eq, (enter_phase_of_ne st .ended ne).trans phase, history,
      carried⟩

theorem Ordered.step (h : Ordered s rt tasks c order st) (locked : st.Locked)
    (step : Step s rt tasks false st st') : ∃ order', Ordered s rt tasks c order' st' := by
  cases step with
  | acquire free waits => exact ⟨_, h.acquire free waits⟩
  | call runs makes => exact ⟨_, h.call locked runs makes⟩
  | release runs => exact ⟨_, h.release locked runs⟩
  | finish runs => exact (h.guarded _ _ runs).elim
  | leave _ waits => exact ⟨_, h.leave waits⟩
  | drop allowed => cases allowed

theorem Reaches.ordered (h : Reaches s rt tasks false (start c) st) :
    ∃ order, Ordered s rt tasks c order st := by
  induction h with
  | refl => exact ⟨[], ordered_start c⟩
  | tail reached step ih =>
    obtain ⟨order, ordered⟩ := ih
    exact ordered.step (Reaches.locked reached) step

/-- The changes so far, and those that the task with the lock still makes, are the changes of tasks
that have the cache to themselves. -/
theorem Ordered.exists_later (h : Ordered s rt tasks c order st) :
    ∃ later, (serially s rt tasks order c).2 = st.history ++ later ∧
      ∀ e ∈ later, st.lock = some e.1 := by
  cases lock : st.lock with
  | none =>
    rw [h.free lock]
    exact ⟨[], by simp⟩
  | some i =>
    obtain ⟨before, rest, calls, rfl, -, history, carried⟩ := h.held i lock
    obtain ⟨new, added⟩ := Program.exists_new_calls rt rest st.cache calls
    refine ⟨(Call.mutations new).map (i, ·), ?_, by simp⟩
    rw [serially_concat]
    simp only [carried, added]
    simp [history, Call.mutations, List.filterMap_append]

/-- Some calls of one task, with no other step between them. -/
theorem Reaches.calls {guarded : Bool} {p p' : Program Unit} {c' : σ} {calls : List Call}
    (runs : st.phase i = .running guarded p) (h : p.Runs rt st.cache calls p' c') :
    Reaches s rt tasks drops st { st.enter i (.running guarded p') with
      cache := c', history := st.history ++ (Call.mutations calls).map (i, ·) } := by
  generalize same : st.cache = c at h
  induction h generalizing st with
  | nil p c =>
    have still : st = { st.enter i (.running guarded p) with
        cache := c, history := st.history ++ (Call.mutations []).map (i, ·) } := by
      simp [enter, Call.mutations, ← runs, ← same]
    rw [← still]
    exact .refl
  | @cons p p' p'' c c' c'' call calls first rest ih =>
    subst same
    have step : Step s rt tasks drops st _ := .call runs first
    have later := @ih { st.enter i (.running guarded p') with
      cache := c', history := st.history ++ (Call.mutations [call]).map (i, ·) }
      (enter_phase_self ..) rfl
    refine .head step ?_
    have split : Call.mutations (call :: calls) = Call.mutations [call] ++ Call.mutations calls :=
      List.filterMap_append (l := [call])
    rw [split, List.map_append, ← List.append_assoc]
    simpa [enter, Reaches] using later

namespace Sample

/-- Two empty files. -/
def disk : Disk where
  root := .dir [("a.php", .file [] (.of 10 0)), ("b.php", .file [] (.of 10 0))] (.of 1 0)
  workingDir := []
  now := .of 20 0

def service : Service where
  instanceId := "i"
  watch := ⟨.scripts, ["/"], 25⟩
  fleet := ⟨⟨none⟩, "", true, 25⟩

/-- A request to compile all files, and requests to reset. -/
def requests : Nat → Task
  | 0 => ⟨.compile true, disk⟩
  | _ => ⟨.reset, disk⟩

/-- What is left of the request to compile. -/
def rest (paths : List Path) : Program Unit :=
  (Program.compileMany paths).bind fun _ ↦ .done (.ok ())

theorem program_compile :
    (requests 0).program service = Program.status.bind fun _ ↦ rest ["/a.php", "/b.php"] := by
  have files (scripts : Registry) : (service.watch.entries disk).filterMap
      (LocalWatch.wants scripts true) = ["/a.php", "/b.php"] := by cbv
  simp only [Task.program, requests, Job.use, Program.ofUse, files, rest]

theorem check_disk {p : Path} (file : disk.sourceFile p = .ok ⟨p, 10⟩)
    (content : disk.read p = .ok []) : Memory.check disk p = .ok ⟨p, 10⟩ := by
  simp [Memory.check, file, content, LocalWatch.Sample.ofSource_nil, bind, Except.bind,
    Except.mapError, pure, Except.pure]

theorem check_a : Memory.check disk "/a.php" = .ok ⟨"/a.php", 10⟩ := check_disk (by cbv) (by cbv)

theorem check_b : Memory.check disk "/b.php" = .ok ⟨"/b.php", 10⟩ := check_disk (by cbv) (by cbv)

theorem run_compile {p : Path} (check : Memory.check disk p = .ok ⟨p, 10⟩) (c : Memory) :
    ((Memory.runtime disk).compile p).run c = (.ok (), c.record p 10) := by
  rw [Memory.runtime, Memory.run_compile, Memory.attempted, check]
  rfl

theorem rest_cons (p : Path) (paths : List Path) :
    rest (p :: paths) = (Program.attempt p).bind fun _ ↦ rest paths := by
  rw [rest, Program.compileMany, Program.bind_bind]
  simp only [Program.bind_bind]
  rfl

theorem runs_status {k : Registry → Program Unit} {c : Memory} (active : c.Active) :
    (Program.status.bind k).Runs (Memory.runtime disk) c
      [.loaded true, .enabled true, .scripts c.scripts] (k c.scripts) c := by
  obtain ⟨loaded, enabled, scripts⟩ := c
  obtain ⟨rfl, rfl⟩ := active
  exact .cons (.loaded _ _) (.cons (.enabled _ _) (.cons (.scripts _ _) (.nil _ _)))

theorem runs_reset {c : Memory} (active : c.Active) :
    Program.resetAll.Runs (Memory.runtime disk) c [.loaded true, .enabled true, .reset true]
      (.done (.ok ())) { c with scripts := .empty } := by
  obtain ⟨loaded, enabled, scripts⟩ := c
  obtain ⟨rfl, rfl⟩ := active
  exact .cons (.loaded _ _) (.cons (.enabled _ _) (.cons (.reset _ _) (.nil _ _)))

theorem runs_compile {p : Path} {paths : List Path} {c : Memory} (active : c.Active)
    (check : Memory.check disk p = .ok ⟨p, 10⟩) :
    (rest (p :: paths)).Runs (Memory.runtime disk) c
      [.loaded true, .enabled true, .compile p (.ok ())] (rest paths) (c.record p 10) := by
  obtain ⟨loaded, enabled, scripts⟩ := c
  obtain ⟨rfl, rfl⟩ := active
  rw [rest_cons]
  have compiled := run_compile check ⟨true, true, scripts⟩
  have made : Program.Makes (Memory.runtime disk) _ ⟨true, true, scripts⟩ _ _ _ :=
    .compile p (fun verdict ↦ (Program.done (.ok verdict)).bind fun _ ↦ rest paths) _
  rw [compiled] at made
  exact .cons (.loaded _ _) (.cons (.enabled _ _) (.cons made (.nil _ _)))

/-- The two requests in these phases. -/
def scene (cache : Memory) (lock : Option Nat) (compiling resetting : Phase)
    (history : List (Nat × Mutation)) : Jobs Memory where
  cache
  lock
  history
  phase
    | 0 => compiling
    | 1 => resetting
    | _ => .waiting

variable {cache : Memory} {lock : Option Nat} {compiling resetting phase : Phase}
  {history : List (Nat × Mutation)}

theorem start_eq (c : Memory) : start c = scene c none .waiting .waiting [] := by
  simp only [start, scene, Jobs.mk.injEq, and_true, true_and]
  funext i
  rcases i with - | - | i <;> rfl

theorem enter_compiling :
    (scene cache lock compiling resetting history).enter 0 phase =
      scene cache lock phase resetting history := by
  simp only [enter, scene, Jobs.mk.injEq, and_true, true_and]
  funext i
  rcases i with - | - | i <;> rfl

theorem enter_resetting :
    (scene cache lock compiling resetting history).enter 1 phase =
      scene cache lock compiling phase history := by
  simp only [enter, scene, Jobs.mk.injEq, and_true, true_and]
  funext i
  rcases i with - | - | i <;> rfl

/-- Steps between scenes of the two requests. -/
def Leads (drops : Bool) : Jobs Memory → Jobs Memory → Prop :=
  Reaches service (Memory.runtime disk) requests drops

variable {guarded : Bool} {p p' : Program Unit} {cache' : Memory} {calls : List Call}

theorem leads_compiling (runs : p.Runs (Memory.runtime disk) cache calls p' cache') :
    Leads drops (scene cache lock (.running guarded p) resetting history)
      (scene cache' lock (.running guarded p') resetting
        (history ++ (Call.mutations calls).map (0, ·))) := by
  have steps := @Reaches.calls _ service _ requests drops
    (scene cache lock (.running guarded p) resetting history) 0 guarded _ _ _ _ rfl runs
  rw [enter_compiling] at steps
  exact steps

theorem leads_resetting (runs : p.Runs (Memory.runtime disk) cache calls p' cache') :
    Leads drops (scene cache lock compiling (.running guarded p) history)
      (scene cache' lock compiling (.running guarded p')
        (history ++ (Call.mutations calls).map (1, ·))) := by
  have steps := @Reaches.calls _ service _ requests drops
    (scene cache lock compiling (.running guarded p) history) 1 guarded _ _ _ _ rfl runs
  rw [enter_resetting] at steps
  exact steps

theorem active_new : ({} : Memory).Active := ⟨rfl, rfl⟩

/-- The request to compile takes the lock, looks at the cache and compiles the first file. -/
theorem leads_first :
    Leads drops (start {})
      (scene (Memory.record {} "/a.php" 10) (some 0) (.running true (rest ["/b.php"])) .waiting
        [(0, .compile "/a.php")]) := by
  have acquired : Step service (Memory.runtime disk) requests drops
    (scene {} none .waiting .waiting []) _ := .acquire (i := 0) rfl rfl
  rw [enter_compiling, program_compile] at acquired
  have looked := (Relation.ReflTransGen.single acquired).trans
    (leads_compiling (runs_status active_new))
  rw [start_eq]
  exact looked.trans (leads_compiling (runs_compile active_new check_a))

theorem leads_reset (active : cache.Active) :
    Leads drops (scene cache none compiling .waiting history)
      (scene { cache with scripts := .empty } none compiling .ended (history ++ [(1, .reset)])) := by
  have acquired : Step service (Memory.runtime disk) requests drops
      (scene cache none compiling .waiting history) _ := .acquire (i := 1) rfl rfl
  rw [enter_resetting] at acquired
  have emptied := (Relation.ReflTransGen.single acquired).trans
    (leads_resetting (runs_reset active))
  have released : Step service (Memory.runtime disk) requests drops
      (scene { cache with scripts := .empty } (some 1) compiling (.running true (.done (.ok ())))
        (history ++ [(1, .reset)])) _ := .release (i := 1) rfl
  rw [enter_resetting] at released
  exact emptied.tail released

theorem leads_second (active : cache.Active) :
    Leads drops (scene cache lock (.running guarded (rest ["/b.php"])) resetting history)
      (scene (cache.record "/b.php" 10) lock (.running guarded (.done (.ok ()))) resetting
        (history ++ [(0, .compile "/b.php")])) :=
  leads_compiling (runs_compile active check_b)

theorem leads_release {result : Except EngineError Unit} :
    Leads drops (scene cache (some 0) (.running true (.done result)) resetting history)
      (scene cache none .ended resetting history) := by
  have step : Step service (Memory.runtime disk) requests drops
    (scene cache (some 0) (.running true (.done result)) resetting history) _ :=
    .release (i := 0) rfl
  rw [enter_compiling] at step
  exact .single step

theorem leads_drop :
    Leads true (scene cache (some 0) (.running true p) resetting history)
      (scene cache none (.running false p) resetting history) := by
  have step : Step service (Memory.runtime disk) requests true
    (scene cache (some 0) (.running true p) resetting history) _ := .drop (i := 0) rfl rfl rfl
  rw [enter_compiling] at step
  exact .single step

theorem leads_finish {result : Except EngineError Unit} :
    Leads drops (scene cache none (.running false (.done result)) resetting history)
      (scene cache none .ended resetting history) := by
  have step : Step service (Memory.runtime disk) requests drops
    (scene cache none (.running false (.done result)) resetting history) _ :=
    .finish (i := 0) rfl
  rw [enter_compiling] at step
  exact .single step

end Sample

open Sample

end Jobs

end Service

end ScriptCache
