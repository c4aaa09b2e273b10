import ScriptCache.Control
import ScriptCache.Engine.Memory
import ScriptCache.Proofs.Json.Decode
import ScriptCache.Proofs.Service.Requests
import ScriptCache.Proofs.Watch.Fleet

/-!
# A registry on its way to other programs

What a service shows of its cache is read back as the registry that the cache has, by a peer that
polls the service, by the service itself, and from what the control program prints.
-/

namespace ScriptCache

open Http (Request Response)

/-- The times in the registry have 64 bits. -/
def Registry.Fits (r : Registry) : Prop :=
  ∀ e ∈ r.entries, Int64.minValue.toInt ≤ e.2 ∧ e.2 ≤ Int64.maxValue.toInt

/-! ## The text of a registry -/

namespace Json

variable {entries : List (Path × Int)} {r : Registry}

theorem fitsMembers_times
    (fits : ∀ e ∈ entries, Int64.minValue.toInt ≤ e.2 ∧ e.2 ≤ Int64.maxValue.toInt) :
    FitsMembers (entries.map fun (path, mtime) ↦ (path, .int mtime)) := by
  induction entries with
  | nil => exact trivial
  | cons e entries ih =>
    obtain ⟨⟨low, high⟩, others⟩ := List.forall_mem_cons.mp fits
    have unsigned : Int64.maxValue.toInt < UInt64.size := by decide
    refine ⟨?_, ih others⟩
    have word : Int64.minValue.toInt ≤ e.2 ∧ e.2 < UInt64.size := ⟨low, by omega⟩
    simpa [Fits, Token.fitsWord] using word

theorem mapM_times
    (fits : ∀ e ∈ entries, Int64.minValue.toInt ≤ e.2 ∧ e.2 ≤ Int64.maxValue.toInt) :
    Tree.readMap Tree.readInt64
      (.object (memberTrees (entries.map fun (path, mtime) ↦ (path, .int mtime)))) =
        .ok entries := by
  induction entries with
  | nil => rfl
  | cons e entries ih =>
    obtain ⟨first, others⟩ := List.forall_mem_cons.mp fits
    have time : Tree.readInt64 (.number (.int e.2)) = .ok e.2 := if_pos first
    have later := ih others
    rw [Tree.readMap] at later
    rw [List.map_cons, memberTrees, Tree.readMap, List.mapM_cons]
    dsimp only
    rw [toTree, time, later]
    rfl

end Json

namespace Registry

variable {r : Registry}

theorem fits_toJson (fits : r.Fits) : r.toJson.Fits := Json.fitsMembers_times fits

theorem readJson_toTree (fits : r.Fits) : readJson r.toJson.toTree = .ok r := by
  have times : Json.Tree.readMap Json.Tree.readInt64 r.toJson.toTree = .ok r.entries :=
    Json.mapM_times fits
  rw [readJson, Json.readRegistry, times]
  exact congrArg Except.ok (ofList_entries r)

theorem decodeBytes_compact (fits : r.Fits) :
    Json.decodeBytes readJson (Utf8.encode r.toJson.compact) = .ok r := by
  rw [Json.decodeBytes_compact (fits_toJson fits), readJson_toTree fits]

theorem decode_pretty (fits : r.Fits) :
    Json.decode readJson (r.toJson.pretty ++ "\n") = .ok r := by
  rw [Json.decode_pretty (fits_toJson fits), readJson_toTree fits]

theorem staleAgainst_self (r : Registry) : staleAgainst r r = [] := by
  apply List.eq_nil_iff_forall_not_mem.mpr
  intro p stale
  obtain ⟨m, k, there, here, older⟩ := mem_staleAgainst.mp stale
  rw [there] at here
  cases here
  exact Int.lt_irrefl _ older

end Registry

variable {σ : Type}

/-! ## A question that is answered -/

namespace Service

variable {s : Service} {d : Disk} {rt : Runtime σ} {c c' : σ} {r : Registry} {request : Request}

/-- A network on which every host is the service. -/
def network (s : Service) (d : Disk) (rt : Runtime σ) : Http.Network σ :=
  fun _ request ↦ .ok <$> s.handle d rt request

/-- The service answers with the registry of an active cache. -/
theorem run_handle_shown (asks : Asks request .registry) (get : request.method = "GET")
    (shown : rt.status.runFrom c = (.ok r, c')) :
    (s.handle d rt request).run c = (.json 200 r.toJson, c') := by
  rw [run_handle_registry asks, shown, sent, get]
  rfl

theorem asks_registry {target : String} (path : pathOf target = registryPath) :
    Asks { method := "GET", target } .registry := by
  constructor
  · rw [routeOf, path]
    decide
  · change "GET" ∈ Route.registry.methods
    decide

theorem run_send (asks : Asks request .registry) (get : request.method = "GET")
    (shown : rt.status.runFrom c = (.ok r, c')) {url : Url} (fetchable : Http.isFetchable url) :
    (Http.send (s.network d rt) url request).run c = (.ok (.json 200 r.toJson), c') := by
  have answered := run_handle_shown (s := s) (d := d) asks get shown
  rw [Http.send, if_pos fetchable, network, StateT.run_map, answered]
  rfl

end Service

/-! ## Polling -/

namespace FleetWatch

variable {w : FleetWatch} {url : Url} {s : Service} {d : Disk} {peer rt : Runtime σ}
  {c c' c'' : σ} {r own : Registry}

/-- The watch asks for the registry of a service, at this URL. -/
structure Targets (w : FleetWatch) (url : Url) : Prop where
  address : w.address? = some url
  fetchable : Http.isFetchable url
  path : Service.pathOf (Http.targetOf url) = registryPath

theorem readAnswer_registry (fits : r.Fits) :
    readAnswer url (.ok (.json 200 r.toJson)) = .ok r := by
  have success : (Response.json 200 r.toJson).isSuccess := rfl
  have decoded : Json.decodeBytes Registry.readJson (Response.json 200 r.toJson).body = .ok r :=
    Registry.decodeBytes_compact fits
  rw [readAnswer, if_pos success, decoded]
  rfl

/-- A poll has the same effect as the registry of the peer itself. -/
theorem runFrom_cycle_shown (targets : w.Targets url) (fits : r.Fits)
    (shown : peer.status.runFrom c = (.ok r, c'))
    (own_shown : rt.status.runFrom c' = (.ok own, c'')) :
    (w.cycle (s.network d peer) rt).runFrom c =
      (.reconciled <$>
        (Plan.of (staleAgainst r own) [] w.resetThreshold).apply rt).runFrom c'' := by
  have sent := Service.run_send (s := s) (d := d) (Service.asks_registry targets.path) rfl shown
    targets.fetchable
  rw [runFrom_cycle rt targets.address sent, readAnswer_registry fits]
  dsimp only
  rw [EngineM.runFrom_map, EngineM.runFrom_map, runFrom_reconcile_shown own_shown]

/-- No registry is stale against itself. -/
theorem runFrom_apply_clean (r : Registry) (threshold : Nat) (rt : Runtime σ) (c : σ) :
    ((Plan.of (staleAgainst r r) [] threshold).apply rt).runFrom c =
      (.ok ⟨.clean, 0, 0, []⟩, c) := by
  rw [Registry.staleAgainst_self]
  rfl

end FleetWatch

namespace Runtime

variable {rt : Runtime σ} {c c' : σ} {r : Registry}

/-- A cache that shows its scripts is there and switched on. -/
theorem active_of_status (shown : rt.status.runFrom c = (.ok r, c')) (quiet : rt.Quiet) :
    rt.loaded.run c = (true, c) ∧ rt.enabled.run c = (true, c) ∧ rt.scripts.run c = (r, c) := by
  have loaded := quiet.loaded c
  have enabled := quiet.enabled c
  have scripts := quiet.scripts c
  rw [status, EngineM.runFrom_bind, runFrom_requireActive] at shown
  generalize rt.loaded.run c = asked at *
  obtain ⟨_ | _, c₁⟩ := asked
  · cases shown
  obtain rfl : c₁ = c := loaded
  dsimp only at shown
  generalize rt.enabled.run c₁ = asked at *
  obtain ⟨_ | _, c₂⟩ := asked
  · cases shown
  obtain rfl : c₂ = c₁ := enabled
  dsimp only at shown
  rw [EngineM.runFrom_lift] at shown
  generalize rt.scripts.run c₂ = asked at *
  obtain ⟨own, c₃⟩ := asked
  cases shown
  obtain rfl : _ = c₂ := scripts
  exact ⟨rfl, rfl, rfl⟩

/-- The calls by which an active cache is asked for its scripts. -/
def questions (r : Registry) : List Call := [.loaded true, .enabled true, .scripts r]

theorem runFrom_status_traced (shown : rt.status.runFrom c = (.ok r, c')) (quiet : rt.Quiet)
    (calls : List Call) :
    rt.traced.status.runFrom (c, calls) = (.ok r, c, calls ++ questions r) := by
  obtain ⟨loaded, enabled, scripts⟩ := active_of_status shown quiet
  have note {α : Type} {x : StateM σ α} {a : α} (call : α → Call) (calls : List Call)
      (h : x.run c = (a, c)) : (noting x call).run (c, calls) = (a, c, calls ++ [call a]) := by
    have noted : (noting x call).run (c, calls) =
        ((x.run c).1, (x.run c).2, calls ++ [call (x.run c).1]) := rfl
    rw [noted, h]
  have active : rt.traced.requireActive.runFrom (c, calls) =
      (.ok (), c, calls ++ [.loaded true] ++ [.enabled true]) := by
    rw [runFrom_requireActive, traced, note .loaded calls loaded]
    dsimp only
    rw [note .enabled _ enabled]
  rw [status, EngineM.runFrom_bind_ok active, EngineM.runFrom_lift, traced,
    note .scripts _ scripts]
  simp [questions]

end Runtime

namespace FleetWatch

variable {w : FleetWatch} {url : Url} {s : Service} {d : Disk} {rt : Runtime σ} {c c' : σ}
  {r : Registry}

/-- A service that polls itself asks its cache twice, and that is all it does. -/
theorem runFrom_cycle_self (targets : w.Targets url) (fits : r.Fits)
    (shown : rt.status.runFrom c = (.ok r, c')) (quiet : rt.Quiet) :
    (w.cycle (s.network d rt.traced) rt.traced).runFrom (c, []) =
      (.ok (.reconciled ⟨.clean, 0, 0, []⟩), c, Runtime.questions r ++ Runtime.questions r) := by
  have traced := Runtime.runFrom_status_traced shown quiet
  rw [runFrom_cycle_shown targets fits (traced []) (traced _), EngineM.runFrom_map,
    runFrom_apply_clean]
  rfl

end FleetWatch

/-! ## The control program -/

namespace Control

variable {s : Service} {d : Disk} {rt : Runtime σ} {c c' : σ} {r : Registry}

theorem readAnswer_registry {url : Url} (fits : r.Fits) :
    readAnswer url Registry.readJson (.ok (.json 200 r.toJson)) = .ok r := by
  have success : (Response.json 200 r.toJson).isSuccess := rfl
  have decoded : Json.decodeBytes Registry.readJson (Response.json 200 r.toJson).body = .ok r :=
    Registry.decodeBytes_compact fits
  rw [readAnswer, if_pos success, decoded]

/-- The command line asks a daemon at a URL for its registry. -/
structure Shows (disk : Disk) (words : List String) (a : Arguments) (settings : Settings)
    (url : Url) : Prop where
  parsed : Arguments.parse words = .ok a
  command : a.command = .registry
  loaded : disk.projectSettings (a.settingsFile disk) (a.root disk) = .ok settings
  address : daemonUrl a settings registryPath = .ok url
  fetchable : Http.isFetchable url

theorem run_shown {disk : Disk} {words : List String} {a : Arguments} {settings : Settings}
    {url : Url} (shows : Shows disk words a settings url) (fits : r.Fits)
    (shown : rt.status.runFrom c = (.ok r, c')) :
    (run (s.network d rt) disk words).run c =
      ((disk, { stdout := r.toJson.pretty ++ "\n" }), c') := by
  have path : Service.pathOf registryPath = registryPath := by decide
  have sent := Service.run_send (s := s) (d := d) (Service.asks_registry path) rfl shown
    shows.fetchable
  have asked : (ask (s.network d rt) a settings
      ⟨"GET", registryPath, none, Registry.readJson, Registry.toJson⟩).run c =
        (.ok { stdout := r.toJson.pretty ++ "\n" }, c') := by
    have request : Question.request
        ⟨"GET", registryPath, none, Registry.readJson, Registry.toJson⟩ =
          { method := "GET", target := registryPath } := rfl
    rw [ask]
    simp only [shows.address, request]
    rw [StateT.run_bind, sent]
    dsimp only [pure, bind]
    rw [readAnswer_registry fits]
    rfl
  have performed : (perform (s.network d rt) disk a).run c =
      ((disk, .ok { stdout := r.toJson.pretty ++ "\n" }), c') := by
    rw [perform]
    simp only [shows.command, shows.loaded, question?]
    rw [StateT.run_bind, asked]
    rfl
  rw [run, shows.parsed]
  dsimp only
  rw [StateT.run_bind, performed]
  rfl

end Control

/-! ## Everyone who asks -/

namespace Service

/-- Whoever asks a service for the registry of its cache gets it as it is: from the body of the
answer, by polling the service, or from what the control program prints. A service that polls
itself finds nothing to do, whatever its threshold, and only asks its cache questions. -/
theorem registry_reaches_clients (s : Service) (d : Disk) (rt : Runtime σ) {c c' : σ}
    {r : Registry} (fits : r.Fits) (shown : rt.status.runFrom c = (.ok r, c')) :
    (∀ request, Asks request .registry → request.method = "GET" →
      ∃ answer, (s.handle d rt request).run c = (answer, c') ∧ answer.status = 200 ∧
        Json.decodeBytes Registry.readJson answer.body = .ok r) ∧
    (∀ (w : FleetWatch) (url : Url), w.Targets url →
      (∀ (own : Runtime σ) (k : Registry) (c'' : σ), own.status.runFrom c' = (.ok k, c'') →
        (w.cycle (s.network d rt) own).runFrom c =
          (.reconciled <$> (Plan.of (staleAgainst r k) [] w.resetThreshold).apply own).runFrom
            c'') ∧
      (rt.Quiet →
        (w.cycle (s.network d rt) rt).runFrom c = (.ok (.reconciled ⟨.clean, 0, 0, []⟩), c) ∧
        ∃ calls, Call.mutations calls = [] ∧
          (w.cycle (s.network d rt.traced) rt.traced).runFrom (c, []) =
            (.ok (.reconciled ⟨.clean, 0, 0, []⟩), c, calls))) ∧
    (∀ disk words a settings url, Control.Shows disk words a settings url →
      ∃ printed, (Control.run (s.network d rt) disk words).run c =
          ((disk, { stdout := printed }), c') ∧
        Json.decode Registry.readJson printed = .ok r) := by
  refine ⟨fun request asks get ↦ ?_, fun w url targets ↦ ⟨?_, fun quiet ↦ ⟨?_, ?_⟩⟩, ?_⟩
  · exact ⟨_, run_handle_shown asks get shown, rfl, Registry.decodeBytes_compact fits⟩
  · intro own k c'' own_shown
    exact FleetWatch.runFrom_cycle_shown targets fits shown own_shown
  · have stays : c' = c := by simpa [shown] using Runtime.Quiet.status quiet c
    subst stays
    rw [FleetWatch.runFrom_cycle_shown targets fits shown shown, EngineM.runFrom_map,
      FleetWatch.runFrom_apply_clean]
    rfl
  · exact ⟨_, rfl, FleetWatch.runFrom_cycle_self targets fits shown quiet⟩
  · intro disk words a settings url shows
    exact ⟨_, Control.run_shown shows fits shown, Registry.decode_pretty fits⟩

namespace Sample

open Control (Arguments)

def disk : Disk := ⟨.dir [] ⟨0, 0⟩, [], ⟨0, 0⟩⟩

/-- Names that have to be escaped, and the earliest time. -/
def scripts : Registry :=
  ⟨[("/w/\"a\"\\\n.php", -1), ("/w/ü\x01.php", Int64.minValue.toInt)], by decide⟩

def service : Service where
  instanceId := "a"
  watch := .ofSettings disk {}
  fleet := ⟨⟨none⟩, "http://p/v1/registry", false, 0⟩

def url : Url := ⟨"http", some ⟨"", none, some (.domain "p"), none⟩, "/v1/registry", none, none⟩

def arguments : Arguments := { settingsPath := "/c", daemon := "http://p", command := .registry }

theorem fits : scripts.Fits := by
  unfold Registry.Fits
  decide

theorem targets : service.fleet.Targets url := ⟨by cbv, by decide, by decide⟩

theorem address : Control.daemonUrl arguments (Settings.rooted {} "/") registryPath = .ok url := by
  have base : Url.parse? "http://p" = some { url with path := "/" } := by cbv
  have path : Url.withPath? { url with path := "/" } registryPath = some url := by cbv
  have resolved : Resolver.resolve ⟨(Settings.rooted {} "/").server.canonicalUrl⟩
      (arguments.daemon.getD (Settings.rooted {} "/").server.ownUrl) arguments.canonical =
        some { url with path := "/" } := by
    change Resolver.resolve ⟨none⟩ "http://p" false = _
    rw [Resolver.resolve, base]
    rfl
  rw [Control.daemonUrl, resolved]
  dsimp only
  rw [path]

theorem shows : Control.Shows disk ["--config", "/c", "registry", "--daemon", "http://p"] arguments
    (Settings.rooted {} "/") url where
  parsed := by cbv
  command := rfl
  loaded := by
    have root : arguments.root disk = "/" := by cbv
    have missing : disk.exists? "/c" = false := by cbv
    have file : arguments.settingsFile disk = "/c" := rfl
    rw [file, root, Disk.projectSettings, Disk.loadSettingsOrDefault, missing]
    rfl
  address := address
  fetchable := by decide

end Sample

open Sample in
theorem registry_reaches_clients_sample :
    (service.fleet.cycle (service.network disk (Memory.runtime disk)) (Memory.runtime disk)).runFrom
        { scripts } = (.ok (.reconciled ⟨.clean, 0, 0, []⟩), { scripts }) ∧
      ∃ printed, (Control.run (service.network disk (Memory.runtime disk)) disk
          ["--config", "/c", "registry", "--daemon", "http://p"]).run { scripts } =
          ((disk, { stdout := printed }), { scripts }) ∧
        Json.decode Registry.readJson printed = .ok scripts := by
  have shown : (Memory.runtime disk).status.runFrom { scripts } = (.ok scripts, { scripts }) := rfl
  have quiet : (Memory.runtime disk).Quiet := ⟨fun _ ↦ rfl, fun _ ↦ rfl, fun _ ↦ rfl⟩
  obtain ⟨-, polled, asked⟩ :=
    registry_reaches_clients service disk (Memory.runtime disk) fits shown
  exact ⟨((polled _ _ targets).2 quiet).1, asked _ _ _ _ _ shows⟩

end Service

end ScriptCache
