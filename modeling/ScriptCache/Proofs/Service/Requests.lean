import ScriptCache.Proofs.Service.Jobs

/-!
# Requests as operations of the cache

Every request is answered without the cache, or as one operation of the cache says. Only requests
to reset and to compile can change it, and they do so as their jobs. A run of requests leaves the
cache as the jobs in it do, one after the other.
-/

namespace ScriptCache

namespace Runtime

variable {σ : Type}

/-- Questions leave the cache as it is. -/
structure Quiet (rt : Runtime σ) : Prop where
  loaded : ∀ c, (rt.loaded.run c).2 = c
  enabled : ∀ c, (rt.enabled.run c).2 = c
  scripts : ∀ c, (rt.scripts.run c).2 = c

end Runtime

namespace Service

open Http (Request Response)

variable {σ α : Type}

/-- The route that a request is for. -/
def routeOf (request : Request) : Option Route := Route.all.find? (·.path == pathOf request.target)

/-- The request is for the route, by one of its methods. -/
def Asks (request : Request) (route : Route) : Prop :=
  routeOf request = some route ∧ request.method ∈ route.methods

/-- What is sent of an answer: its head is all that a request for the head gets. -/
def sent (request : Request) (response : Response) : Response :=
  if request.method = "HEAD" then { response with body := [] } else response

/-- The answer to what an operation of the cache results in. -/
def answerTo (f : α → Json) : Except EngineError α → Response
  | .ok a => .json 200 (f a)
  | .error e => refusal e

/-- The state of the cache as far as it could be found out. -/
def shown (s : Service) : Except EngineError Registry → Except EngineError StatusReply
  | .ok r => .ok ⟨s.instanceId, true, true, r.size⟩
  | .error .disabled => .ok ⟨s.instanceId, true, false, 0⟩
  | .error e => .error e

/-- The job that a request starts. -/
def jobOf? (request : Request) : Option Job :=
  match routeOf request with
  | some .reset => if request.method = "POST" then some .reset else none
  | some .compile =>
    if request.method = "POST" then
      (readCompileRequest request).toOption.map fun r ↦ .compile r.force
    else none
  | _ => none

variable (s : Service) (rt : Runtime σ)

/-- The answer to a request, the cache behind it, and the calls that were made for it. -/
def served (d : Disk) (request : Request) (c : σ) : Response × σ × List Call :=
  (s.handle d rt.traced request).run (c, [])

/-- What a request is for. -/
inductive Purpose (request : Request) : Prop where
  | unknown (known : routeOf request = none)
  | method {route : Route} (known : routeOf request = some route)
      (other : request.method ∉ route.methods)
  | health (asks : Asks request .health)
  | status (asks : Asks request .status)
  | registry (asks : Asks request .registry)
  | reset (asks : Asks request .reset)
  | rejected {rejection : Response} (asks : Asks request .compile)
      (read : readCompileRequest request = .error rejection)
  | compile {r : CompileRequest} (asks : Asks request .compile)
      (read : readCompileRequest request = .ok r)

theorem purpose (request : Request) : Purpose request := by
  cases known : routeOf request with
  | none => exact .unknown known
  | some route =>
    by_cases accepted : request.method ∈ route.methods
    · cases route with
      | health => exact .health ⟨known, accepted⟩
      | status => exact .status ⟨known, accepted⟩
      | registry => exact .registry ⟨known, accepted⟩
      | reset => exact .reset ⟨known, accepted⟩
      | compile =>
        cases read : readCompileRequest request with
        | error rejection => exact .rejected ⟨known, accepted⟩ read
        | ok r => exact .compile ⟨known, accepted⟩ read
    · exact .method known accepted

/-! ## One request -/

variable {s : Service} {rt : Runtime σ} {d : Disk} {request : Request} {route : Route} {c : σ}

theorem run_answer_map (x : EngineM σ α) (f : α → Json) (c : σ) :
    (answer (do return f (← x))).run c = (answerTo f (x.runFrom c).1, (x.runFrom c).2) := by
  have mapped := EngineM.runFrom_map f x c
  rw [map_eq_pure_bind] at mapped
  have read (y : EngineM σ Json) :
      (answer y).run c = (answerTo id (y.runFrom c).1, (y.runFrom c).2) := by
    simp only [answer, StateT.run_bind, EngineM.runFrom]
    rcases y.run.run c with ⟨_ | _, c⟩ <;> rfl
  rw [read, mapped]
  cases (x.runFrom c).1 <;> rfl

theorem run_handle_unknown (h : routeOf request = none) (c : σ) :
    (s.handle d rt request).run c = ({ status := 404 }, c) := by
  rw [routeOf] at h
  rw [handle, h]
  rfl

theorem run_handle_method (h : routeOf request = some route)
    (other : request.method ∉ route.methods) (c : σ) :
    (s.handle d rt request).run c =
      ({ status := 405, allow := ",".intercalate route.methods }, c) := by
  have unlisted : ¬route.methods.contains request.method := by simpa using other
  rw [routeOf] at h
  rw [handle, h]
  dsimp only
  rw [if_neg unlisted]
  rfl

theorem handle_asks (h : Asks request route) :
    s.handle d rt request = sent request <$> s.perform d rt route request := by
  obtain ⟨known, accepted⟩ := h
  rw [routeOf] at known
  have listed : route.methods.contains request.method := by simpa using accepted
  rw [handle, known]
  dsimp only
  rw [if_pos listed, map_eq_pure_bind]
  simp only [sent, beq_iff_eq]

theorem run_handle_asks (h : Asks request route) (c : σ) :
    (s.handle d rt request).run c =
      (sent request ((s.perform d rt route request).run c).1,
        ((s.perform d rt route request).run c).2) := by
  rw [handle_asks h]
  rfl

theorem runFrom_statusReply (x : σ) :
    (s.statusReply rt).runFrom x = (s.shown (rt.status.runFrom x).1, (rt.status.runFrom x).2) := by
  have asked : EngineM.runFrom (ExceptT.lift rt.status.run) x =
    (.ok (rt.status.runFrom x).1, (rt.status.runFrom x).2) := rfl
  rw [statusReply, EngineM.runFrom_bind_ok asked]
  generalize rt.status.runFrom x = result
  rcases result with ⟨e | r, x'⟩
  · cases e <;> rfl
  · rfl

theorem run_handle_status (h : Asks request .status) (c : σ) :
    (s.handle d rt request).run c =
      (sent request (answerTo StatusReply.toJson (s.shown (rt.status.runFrom c).1)),
        (rt.status.runFrom c).2) := by
  rw [run_handle_asks h, perform, run_answer_map, runFrom_statusReply]

theorem run_handle_registry (h : Asks request .registry) (c : σ) :
    (s.handle d rt request).run c =
      (sent request (answerTo Registry.toJson (rt.status.runFrom c).1),
        (rt.status.runFrom c).2) := by
  rw [run_handle_asks h, perform, run_answer_map]

theorem run_handle_health (h : Asks request .health) (c : σ) :
    (s.handle d rt request).run c =
      (sent request { status := 200, contentType := Http.textType, body := Utf8.encode "ok" },
        c) := by
  rw [run_handle_asks h, perform]
  rfl

theorem sent_of_post (h : request.method ∈ ["POST"]) (response : Response) :
    sent request response = response := by
  rw [sent, List.mem_singleton.mp h]
  rfl

theorem run_handle_reset (h : Asks request .reset) (c : σ) :
    (s.handle d rt request).run c =
      (answerTo (fun () ↦ ResetReply.toJson ⟨true⟩) (rt.resetAll.runFrom c).1,
        (rt.resetAll.runFrom c).2) := by
  rw [run_handle_asks h, sent_of_post h.2, perform]
  exact run_answer_map rt.resetAll (fun () ↦ ResetReply.toJson ⟨true⟩) c

theorem run_handle_compile (h : Asks request .compile) {r : CompileRequest}
    (read : readCompileRequest request = .ok r) (c : σ) :
    (s.handle d rt request).run c =
      (answerTo (fun o ↦ CompileReply.toJson ⟨o.compiled.length,
        o.failed.map fun (path, error) ↦ ⟨path, error⟩⟩)
          ((s.watch.compileAll d rt r.force).runFrom c).1,
        ((s.watch.compileAll d rt r.force).runFrom c).2) := by
  rw [run_handle_asks h, sent_of_post h.2, perform, read]
  exact run_answer_map (s.watch.compileAll d rt r.force) (fun o ↦ o.reply.toJson) c

theorem run_handle_rejected (h : Asks request .compile) {rejection : Response}
    (read : readCompileRequest request = .error rejection) (c : σ) :
    (s.handle d rt request).run c = (rejection, c) := by
  rw [run_handle_asks h, sent_of_post h.2, perform, read]
  rfl

/-! ## Errors and statuses -/

/-- How an operation failed can be told from its calls. -/
structure Judged (calls : List Call) (result : Except EngineError α) : Prop where
  missing : result = .error .notLoaded ↔ .loaded false ∈ calls
  disabled : result = .error .disabled ↔ .enabled false ∈ calls
  refused : result = .error .resetRefused ↔ .reset false ∈ calls
  compiled : ∀ p reason, result ≠ .error (.compileFailed p reason)

section Judged

variable {β : Type} {calls : List Call} {e : EngineError}

theorem Judged.ok {a : α} (loaded : .loaded false ∉ calls) (enabled : .enabled false ∉ calls)
    (reset : .reset false ∉ calls) : Judged calls (.ok a : Except EngineError α) := by
  constructor <;> simp [loaded, enabled, reset]

theorem Judged.map {result : Except EngineError α} (h : Judged calls result) (f : α → β) :
    Judged calls (result.map f) := by
  have same (e : EngineError) : result.map f = .error e ↔ result = .error e := by
    cases result <;> simp [Except.map]
  constructor
  · rw [same, h.missing]
  · rw [same, h.disabled]
  · rw [same, h.refused]
  · intro p reason failed
    exact h.compiled p reason ((same _).mp failed)

theorem judged_of_checks (h : Checks calls (.error e)) :
    Judged calls (.error e : Except EngineError α) := by
  cases h <;> constructor <;> simp

theorem Judged.append {result : Except EngineError α} (h : Judged calls result)
    {b : List Call} (loaded : .loaded false ∉ b) (enabled : .enabled false ∉ b)
    (reset : .reset false ∉ b) : Judged (b ++ calls) result := by
  obtain ⟨missing, disabled, refused, compiled⟩ := h
  constructor <;> simpa [loaded, enabled, reset]

theorem judged_of_batch {paths : List Path} {result : Except EngineError Outcome}
    (h : Batch paths calls result) : Judged calls result := by
  induction h with
  | nil => exact .ok (by simp) (by simp) (by simp)
  | inactive checks => exact judged_of_checks checks
  | @cons p paths verdict calls result _ ih =>
    exact (ih.map _).append (b := [.loaded true, .enabled true, .compile p verdict])
      (by simp) (by simp) (by simp)

theorem judged_of_drop {result : Except EngineError Unit} (h : Drop calls result) :
    Judged calls result := by
  cases h with
  | inactive checks => exact judged_of_checks checks
  | refused => constructor <;> simp
  | done => exact .ok (by simp) (by simp) (by simp)

end Judged

theorem judged_status (c : σ) :
    Judged (rt.traced.status.runFrom (c, [])).2.2 (rt.traced.status.runFrom (c, [])).1 := by
  rcases rt.emits_status.alone c with ⟨e, checks, eq⟩ | ⟨r, calls, eq⟩
  · rw [eq]
    exact judged_of_checks checks
  · rw [calls, eq]
    exact .ok (by simp) (by simp) (by simp)

theorem judged_compileAll (w : LocalWatch) (force : Bool) (c : σ) :
    Judged ((w.compileAll d rt.traced force).runFrom (c, [])).2.2
      ((w.compileAll d rt.traced force).runFrom (c, [])).1 := by
  have emits := rt.emits_status_bind fun scripts ↦
    rt.emits_compileMany ((w.entries d).filterMap (LocalWatch.wants scripts force))
  rcases EngineM.Emits.alone (x := w.compileAll d rt.traced force) emits c with
    ⟨e, checks, eq⟩ | ⟨own, new, calls, batch⟩
  · rw [eq]
    exact judged_of_checks checks
  · rw [calls]
    exact (judged_of_batch batch).append (by simp) (by simp) (by simp)

theorem judged_resetAll (c : σ) :
    Judged (rt.traced.resetAll.runFrom (c, [])).2.2 (rt.traced.resetAll.runFrom (c, [])).1 :=
  judged_of_drop (rt.emits_resetAll.alone c)

theorem Judged.answerTo {calls : List Call} {result : Except EngineError α}
    (h : Judged calls result) (f : α → Json) :
    ((answerTo f result).status = 503 ↔ .loaded false ∈ calls ∨ .enabled false ∈ calls) ∧
      ((answerTo f result).status = 500 ↔ .reset false ∈ calls) := by
  rw [← h.missing, ← h.disabled, ← h.refused]
  rcases result with (_ | _ | ⟨p, reason⟩ | _) | a
  case error.compileFailed => exact (h.compiled p reason rfl).elim
  all_goals simp [Service.answerTo, refusal, Response.json]

/-- A cache that is only switched off has a state that can be shown. -/
theorem Judged.shown {calls : List Call} {result : Except EngineError Registry}
    (h : Judged calls result) :
    ((Service.answerTo StatusReply.toJson (s.shown result)).status = 503 ↔ .loaded false ∈ calls) ∧
      ((Service.answerTo StatusReply.toJson (s.shown result)).status = 500 ↔
        .reset false ∈ calls) := by
  rw [← h.missing, ← h.refused]
  rcases result with (_ | _ | ⟨p, reason⟩ | _) | a
  case error.compileFailed => exact (h.compiled p reason rfl).elim
  all_goals simp [Service.shown, Service.answerTo, refusal, Response.json]

theorem status_of_rejected {rejection : Response}
    (h : readCompileRequest request = .error rejection) :
    rejection.status ∈ [400, 413, 415, 422] := by
  unfold readCompileRequest at h
  split at h
  · cases h
  split at h
  · split at h
    · cases h
      decide
    split at h
    all_goals cases h
    all_goals simp [complaint]
  · cases h
    decide

theorem status_sent (response : Response) : (sent request response).status = response.status := by
  unfold sent
  split <;> rfl

/-! ## Traced and real caches -/

theorem runFrom_status_untraced (c : σ) :
    rt.status.runFrom c =
      ((rt.traced.status.runFrom (c, [])).1, (rt.traced.status.runFrom (c, [])).2.1) :=
  EngineM.runFrom_untraced (fun kept ↦ kept.alike.status) c

/-- The calls that were noted for a request make no difference to it. -/
theorem run_handle_eq (d : Disk) (request : Request) (c : σ) :
    (s.handle d rt request).run c =
      ((served s rt d request c).1, (served s rt d request c).2.1) := by
  rw [served]
  cases purpose request with
  | unknown known => rw [run_handle_unknown known, run_handle_unknown known]
  | method known other => rw [run_handle_method known other, run_handle_method known other]
  | health asks => rw [run_handle_health asks, run_handle_health asks]
  | status asks => rw [run_handle_status asks, run_handle_status asks, runFrom_status_untraced]
  | registry asks =>
    rw [run_handle_registry asks, run_handle_registry asks, runFrom_status_untraced]
  | reset asks =>
    rw [run_handle_reset asks, run_handle_reset asks,
      EngineM.runFrom_untraced (fun kept ↦ kept.alike.resetAll)]
  | rejected asks read => rw [run_handle_rejected asks read, run_handle_rejected asks read]
  | compile asks read =>
    rw [run_handle_compile asks read, run_handle_compile asks read,
      EngineM.runFrom_untraced (fun kept ↦ kept.alike.compileAll s.watch d _)]

variable (s rt d request c) in
/-- A cache that was found missing or switched off is answered with 503, and a refused reset, the
only other failure, with 500. -/
theorem status_served :
    ((served s rt d request c).1.status = 503 ↔
      .loaded false ∈ (served s rt d request c).2.2 ∨
        .enabled false ∈ (served s rt d request c).2.2 ∧ ¬Asks request .status) ∧
    ((served s rt d request c).1.status = 500 ↔ .reset false ∈ (served s rt d request c).2.2) := by
  have other {route : Route} (asks : Asks request route) (ne : route ≠ .status) :
      ¬Asks request .status := by
    intro asks'
    exact ne (Option.some.inj (asks.1.symm.trans asks'.1))
  rw [served]
  cases purpose request with
  | unknown known =>
    rw [run_handle_unknown known]
    simp
  | method known method =>
    rw [run_handle_method known method]
    simp
  | health asks =>
    rw [run_handle_health asks]
    simp [status_sent]
  | status asks =>
    rw [run_handle_status asks]
    simpa [status_sent, asks] using (judged_status c).shown
  | registry asks =>
    rw [run_handle_registry asks]
    simpa [status_sent, other asks] using (judged_status c).answerTo Registry.toJson
  | reset asks =>
    rw [run_handle_reset asks]
    simpa [other asks] using (judged_resetAll c).answerTo fun () ↦ ResetReply.toJson ⟨true⟩
  | rejected asks read =>
    rw [run_handle_rejected asks read]
    have known := status_of_rejected read
    simp only [List.mem_cons, List.not_mem_nil, or_false] at known
    simp only [List.not_mem_nil, false_and, or_false, iff_false]
    omega
  | compile asks read =>
    rw [run_handle_compile asks read]
    simpa [other asks] using (judged_compileAll s.watch _ c).answerTo _

/-! ## Requests one after the other -/

variable (s rt) in
/-- The answers to requests, the cache behind them, and the calls that were made for them. Each
request finds the disk as it is then. -/
def serving : List (Disk × Request) → σ → List Response × σ × List Call
  | [], c => ([], c, [])
  | (d, request) :: later, c =>
    let (response, c, calls) := served s rt d request c
    let (responses, c, more) := serving later c
    (response :: responses, c, calls ++ more)

/-- The tasks that requests start. -/
def tasksOf (requests : List (Disk × Request)) : List Task :=
  requests.filterMap fun (d, request) ↦ (jobOf? request).map (⟨·, d⟩)

variable (s rt) in
/-- The cache behind tasks that have it to themselves, one after the other, and its changes. -/
def works : List Task → σ → σ × List Mutation
  | [], c => (c, [])
  | t :: tasks, c =>
    let (_, c, calls) := Jobs.alone s rt t c
    let (c, later) := works tasks c
    (c, Call.mutations calls ++ later)

theorem run_mapM_handle (requests : List (Disk × Request)) (c : σ) :
    (requests.mapM fun (d, request) ↦ s.handle d rt request).run c =
      ((serving s rt requests c).1, (serving s rt requests c).2.1) := by
  induction requests generalizing c with
  | nil => rfl
  | cons first later ih =>
    obtain ⟨d, request⟩ := first
    have onward := ih (served s rt d request c).2.1
    rw [List.mapM_cons]
    simp only [StateT.run_bind, run_handle_eq, serving, StateT.run_pure] at onward ⊢
    exact congrArg (fun ended ↦ ((served s rt d request c).1 :: ended.1, ended.2)) onward

theorem Runtime.Quiet.status (quiet : rt.Quiet) (c : σ) : (rt.status.runFrom c).2 = c := by
  have loaded := quiet.loaded c
  have enabled := quiet.enabled c
  rw [Runtime.status, EngineM.runFrom_bind, Runtime.runFrom_requireActive]
  generalize rt.loaded.run c = asked at loaded
  obtain ⟨_ | _, c'⟩ := asked
  · exact loaded
  obtain rfl : c' = c := loaded
  dsimp only
  generalize rt.enabled.run c' = asked at enabled
  obtain ⟨_ | _, c''⟩ := asked
  · exact enabled
  obtain rfl : c'' = c' := enabled
  exact quiet.scripts c''

theorem jobOf?_of_reading (asks : Asks request route) (reading : route.isReading) :
    jobOf? request = none := by
  rw [jobOf?, asks.1]
  cases route <;> first | rfl | cases reading

theorem jobOf?_reset (asks : Asks request .reset) : jobOf? request = some .reset := by
  rw [jobOf?, asks.1]
  exact if_pos (List.mem_singleton.mp asks.2)

theorem jobOf?_compile (asks : Asks request .compile) :
    jobOf? request = (readCompileRequest request).toOption.map fun r ↦ .compile r.force := by
  rw [jobOf?, asks.1]
  exact if_pos (List.mem_singleton.mp asks.2)

theorem jobOf?_method (known : routeOf request = some route)
    (other : request.method ∉ route.methods) : jobOf? request = none := by
  rw [jobOf?, known]
  cases route with
  | health | status | registry => rfl
  | reset | compile => exact if_neg (by simpa [Route.methods, Route.isReading] using other)

/-- Asking for the scripts changes nothing. -/
theorem idle_status (c : σ) :
    Call.mutations (rt.traced.status.runFrom (c, [])).2.2 = [] ∧
      (rt.Quiet → (rt.traced.status.runFrom (c, [])).2.1 = c) := by
  constructor
  · rcases rt.emits_status.alone c with ⟨e, checks, -⟩ | ⟨r, calls, -⟩
    · exact checks.mutations
    · rw [calls]
      rfl
  · intro quiet
    have same := Runtime.Quiet.status quiet c
    rwa [runFrom_status_untraced] at same

variable (s rt d c) in
/-- What starts no job only asks questions. -/
theorem idle_of_jobOf? (idle : jobOf? request = none) :
    Call.mutations (served s rt d request c).2.2 = [] ∧
      (rt.Quiet → (served s rt d request c).2.1 = c) := by
  rw [served]
  cases purpose request with
  | unknown known =>
    rw [run_handle_unknown known]
    exact ⟨rfl, fun _ ↦ rfl⟩
  | method known other =>
    rw [run_handle_method known other]
    exact ⟨rfl, fun _ ↦ rfl⟩
  | health asks =>
    rw [run_handle_health asks]
    exact ⟨rfl, fun _ ↦ rfl⟩
  | status asks =>
    rw [run_handle_status asks]
    exact idle_status c
  | registry asks =>
    rw [run_handle_registry asks]
    exact idle_status c
  | reset asks =>
    rw [jobOf?_reset asks] at idle
    cases idle
  | rejected asks read =>
    rw [run_handle_rejected asks read]
    exact ⟨rfl, fun _ ↦ rfl⟩
  | compile asks read =>
    rw [jobOf?_compile asks, read] at idle
    cases idle

variable (s rt d c) in
theorem served_of_jobOf? {job : Job} (starts : jobOf? request = some job) :
    (served s rt d request c).2 = (Jobs.alone s rt ⟨job, d⟩ c).2 := by
  rw [served]
  cases purpose request with
  | unknown known =>
    rw [jobOf?, known] at starts
    cases starts
  | method known other =>
    rw [jobOf?_method known other] at starts
    cases starts
  | health asks | status asks | registry asks =>
    rw [jobOf?_of_reading asks rfl] at starts
    cases starts
  | reset asks =>
    rw [jobOf?_reset asks] at starts
    cases starts
    rw [run_handle_reset asks]
    rfl
  | rejected asks read =>
    rw [jobOf?_compile asks, read] at starts
    cases starts
  | compile asks read =>
    rw [jobOf?_compile asks, read] at starts
    cases starts
    rw [run_handle_compile asks read]
    exact congrArg Prod.snd (EngineM.runFrom_map _ (s.watch.compileAll d rt.traced _) (c, [])).symm

theorem mutations_append (calls more : List Call) :
    Call.mutations (calls ++ more) = Call.mutations calls ++ Call.mutations more :=
  List.filterMap_append

theorem works_cons (t : Task) (tasks : List Task) (c : σ) :
    works s rt (t :: tasks) c =
      ((works s rt tasks (Jobs.alone s rt t c).2.1).1,
        Call.mutations (Jobs.alone s rt t c).2.2 ++
          (works s rt tasks (Jobs.alone s rt t c).2.1).2) :=
  rfl

/-- Requests change a cache as their jobs do, one after the other. -/
theorem serving_works (quiet : rt.Quiet) (requests : List (Disk × Request)) (c : σ) :
    ((serving s rt requests c).2.1, Call.mutations (serving s rt requests c).2.2) =
      works s rt (tasksOf requests) c := by
  induction requests generalizing c with
  | nil => rfl
  | cons first later ih =>
    obtain ⟨d, request⟩ := first
    rw [serving]
    dsimp only
    rw [mutations_append]
    cases job : jobOf? request with
    | none =>
      obtain ⟨unchanged, same⟩ := idle_of_jobOf? s rt d c job
      have tasks : tasksOf ((d, request) :: later) = tasksOf later := by simp [tasksOf, job]
      rw [unchanged, same quiet, tasks, List.nil_append, ih]
    | some own =>
      have tasks : tasksOf ((d, request) :: later) = ⟨own, d⟩ :: tasksOf later := by
        simp [tasksOf, job]
      obtain ⟨cache, calls⟩ := Prod.ext_iff.mp (served_of_jobOf? s rt d c job)
      rw [tasks, works_cons, ← ih, cache, calls]

/-! ## The service and the engine -/

/-- Each kind of request, by what it does on every disk and in every state of the cache. -/
structure Refines (s : Service) (rt : Runtime σ) : Prop where
  unknown : ∀ d request c, routeOf request = none →
    (s.handle d rt request).run c = ({ status := 404 }, c)
  method : ∀ d request c route, routeOf request = some route → request.method ∉ route.methods →
    (s.handle d rt request).run c = ({ status := 405, allow := ",".intercalate route.methods }, c)
  health : ∀ d request c, Asks request .health → (s.handle d rt request).run c =
    (sent request { status := 200, contentType := Http.textType, body := Utf8.encode "ok" }, c)
  status : ∀ d request c, Asks request .status →
    let (result, c') := rt.status.runFrom c
    (s.handle d rt request).run c =
      (sent request (answerTo StatusReply.toJson (s.shown result)), c')
  registry : ∀ d request c, Asks request .registry →
    let (result, c') := rt.status.runFrom c
    (s.handle d rt request).run c = (sent request (answerTo Registry.toJson result), c')
  reset : ∀ d request c, Asks request .reset →
    let (result, c') := rt.resetAll.runFrom c
    (s.handle d rt request).run c = (answerTo (fun () ↦ ResetReply.toJson ⟨true⟩) result, c')
  rejected : ∀ d request c rejection, Asks request .compile →
    readCompileRequest request = .error rejection →
      (s.handle d rt request).run c = (rejection, c) ∧ rejection.status ∈ [400, 413, 415, 422]
  compile : ∀ d request c r, Asks request .compile → readCompileRequest request = .ok r →
    let (result, c') := (s.watch.compileAll d rt r.force).runFrom c
    (s.handle d rt request).run c =
      (answerTo (fun o ↦ CompileReply.toJson ⟨o.compiled.length,
        o.failed.map fun (path, error) ↦ ⟨path, error⟩⟩) result, c')
  bodiless : ∀ request, request.contentType = none →
    readCompileRequest request = .ok { force := false }
  /-- Noting the calls makes no difference. -/
  traced : ∀ d request c, (s.handle d rt request).run c =
    ((served s rt d request c).1, (served s rt d request c).2.1)
  /-- What starts no job only asks questions. -/
  idle : ∀ d request c, jobOf? request = none →
    Call.mutations (served s rt d request c).2.2 = [] ∧
      (rt.Quiet → (served s rt d request c).2.1 = c)
  /-- This status tells that the cache was found missing or, but for its state, switched off. -/
  unavailable : ∀ d request c, (served s rt d request c).1.status = 503 ↔
    .loaded false ∈ (served s rt d request c).2.2 ∨
      .enabled false ∈ (served s rt d request c).2.2 ∧ ¬Asks request .status
  /-- This status tells that the cache did not let itself be reset. -/
  failed : ∀ d request c,
    (served s rt d request c).1.status = 500 ↔ .reset false ∈ (served s rt d request c).2.2

variable (s rt) in
theorem refines : Refines s rt where
  unknown d request c known := run_handle_unknown known c
  method d request c route known other := run_handle_method known other c
  health d request c asks := run_handle_health asks c
  status d request c asks := run_handle_status asks c
  registry d request c asks := run_handle_registry asks c
  reset d request c asks := run_handle_reset asks c
  rejected d request c rejection asks read :=
    ⟨run_handle_rejected asks read c, status_of_rejected read⟩
  compile d request c r asks read := run_handle_compile asks read c
  bodiless request untyped := by rw [readCompileRequest, untyped]
  traced d request c := run_handle_eq d request c
  idle d request c none := idle_of_jobOf? s rt d c none
  unavailable d request c := (status_served s rt d request c).1
  failed d request c := (status_served s rt d request c).2

theorem runFrom_status_active (quiet : rt.Quiet) (loaded : (rt.loaded.run c).1 = true)
    (enabled : (rt.enabled.run c).1 = true) :
    rt.status.runFrom c = (.ok (rt.scripts.run c).1, c) := by
  have there : rt.loaded.run c = (true, c) := Prod.ext loaded (quiet.loaded c)
  have on : rt.enabled.run c = (true, c) := Prod.ext enabled (quiet.enabled c)
  have active : rt.requireActive.runFrom c = (.ok (), c) := by
    rw [Runtime.runFrom_requireActive, there]
    simp only [on]
  rw [Runtime.status, EngineM.runFrom_bind_ok active, EngineM.runFrom_lift, quiet.scripts]

end Service

end ScriptCache
