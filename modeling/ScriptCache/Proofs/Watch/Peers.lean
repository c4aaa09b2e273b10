import ScriptCache.Proofs.Engine.Provenance
import ScriptCache.Proofs.Watch.Fleet
import ScriptCache.Proofs.Watch.Local

/-!
# Two peers that poll each other

Two caches on one disk that does not change, each kept by a watch that polls the other. Whoever
polls has caught up with the other then, and a script that it had to compile has the time of its
file. So when the first one polls again it takes over just that time, and the two agree about every
script that both of them hold. From then on no poll finds anything to do.
-/

namespace ScriptCache

open Memory (Known isRefused batch)

inductive Side where
  | left
  | right
  deriving DecidableEq, Repr

namespace Side

def other : Side → Side
  | left => right
  | right => left

@[simp] theorem other_other (side : Side) : side.other.other = side := by
  cases side <;> rfl

theorem other_ne (side : Side) : side.other ≠ side := by
  cases side <;> decide

theorem eq_or_eq_other (a b : Side) : a = b ∨ a = b.other := by
  cases a <;> cases b <;> decide

end Side

/-- The path is the canonical one of a script that is at least as new. -/
def Disk.HoldsCurrent (d : Disk) (p : Path) (m : Int) : Prop :=
  d.canonicalize p = .ok p ∧ ∃ t, d.HoldsScript p t ∧ m ≤ t

theorem Disk.sourceFile_of_holdsScript {d : Disk} {p : Path} {t : Int}
    (canonical : d.canonicalize p = .ok p) (holds : d.HoldsScript p t) :
    d.sourceFile p = .ok ⟨p, t⟩ := by
  obtain ⟨content, stamp, statements, stat, -, time⟩ := holds
  exact sourceFile_eq_ok_iff.mpr ⟨canonical, _, stat, time⟩

theorem Memory.not_isRefused_of_holdsScript {d : Disk} {p : Path} {t : Int}
    (canonical : d.canonicalize p = .ok p) (holds : d.HoldsScript p t) :
    isRefused d p = false := by
  have looked := Disk.sourceFile_of_holdsScript canonical holds
  obtain ⟨content, stamp, statements, stat, parsed, -⟩ := holds
  have read : d.read p = .ok content := Disk.read_eq_ok_iff_stat.mpr ⟨stamp, stat⟩
  rcases check_cases d p with ⟨rejected, -⟩ | ⟨k, m, -, -, passed⟩
  · exfalso
    cases rejected with
    | missing looked' => cases looked.symm.trans looked'
    | unreadable looked' read' =>
      cases looked.symm.trans looked'
      cases read.symm.trans read'
    | malformed looked' read' parsed' =>
      cases looked.symm.trans looked'
      cases read.symm.trans read'
      cases parsed.symm.trans parsed'
  · simp [isRefused, passed]

namespace FleetWatch

variable {d : Disk} {w : FleetWatch} {c : Memory} {remote own : Registry} {p : Path} {m k : Int}

/-! ## One poll -/

/-- All scripts of a registry can be compiled, and it has no times of the future. -/
def Dated (d : Disk) (r : Registry) : Prop := ∀ p m, r.get? p = some m → d.HoldsCurrent p m

/-- For every script in both registries, the own time is at least the other one. -/
def CaughtUp (own remote : Registry) : Prop :=
  ∀ p m k, own.get? p = some m → remote.get? p = some k → k ≤ m

/-- A cache after it was shown the registry of a peer. -/
def polled (w : FleetWatch) (d : Disk) (c : Memory) (remote : Registry) : Memory :=
  let plan := Plan.of (staleAgainst remote c.scripts) [] w.resetThreshold
  match plan.strategy with
  | .clean => c
  | .reset => { c with scripts := .empty }
  | .compile => batch d c plan.stale

theorem caughtUp_iff : CaughtUp own remote ↔ staleAgainst remote own = [] := by
  rw [List.eq_nil_iff_forall_not_mem]
  constructor
  · intro caughtUp p stale
    obtain ⟨k, m, newer, recorded, lt⟩ := mem_staleAgainst.mp stale
    exact absurd (caughtUp p m k recorded newer) (not_le.mpr lt)
  · intro none p m k recorded newer
    by_contra lt
    exact none p (mem_staleAgainst.mpr ⟨k, m, newer, recorded, not_le.mp lt⟩)

theorem polled_of_caughtUp (caughtUp : CaughtUp c.scripts remote) : w.polled d c remote = c := by
  rw [polled, caughtUp_iff.mp caughtUp]
  rfl

/-- What a poll does to an active cache, which it always ends with a report. -/
theorem runFrom_reconcile (active : c.Active) (remote : Registry) :
    ∃ report, (w.reconcile (Memory.runtime d) remote).runFrom c =
        (.ok report, w.polled d c remote) ∧
      (CaughtUp c.scripts remote → report = ⟨.clean, 0, 0, []⟩) := by
  have shown := Memory.runFrom_status (d := d) active
  by_cases caughtUp : CaughtUp c.scripts remote
  · refine ⟨⟨.clean, 0, 0, []⟩, ?_, fun _ ↦ rfl⟩
    rw [runFrom_reconcile_shown shown, polled_of_caughtUp caughtUp, caughtUp_iff.mp caughtUp]
    exact LocalWatch.runFrom_apply_clean rfl
  · suffices done : ∃ report, (w.reconcile (Memory.runtime d) remote).runFrom c =
        (.ok report, w.polled d c remote) by
      obtain ⟨report, ran⟩ := done
      exact ⟨report, ran, fun h ↦ absurd h caughtUp⟩
    rw [runFrom_reconcile_shown shown, polled]
    generalize Plan.of (staleAgainst remote c.scripts) [] w.resetThreshold = plan
    cases strategy : plan.strategy with
    | clean => exact ⟨_, LocalWatch.runFrom_apply_clean strategy⟩
    | reset => exact ⟨_, LocalWatch.runFrom_apply_reset strategy active⟩
    | compile => exact ⟨_, LocalWatch.runFrom_apply_compile strategy active⟩

theorem polled_active (active : c.Active) : (w.polled d c remote).Active := by
  unfold polled
  dsimp only
  split
  · exact active
  · exact active
  · exact Memory.batch_active active _

/-- An entry behind a poll is an old one that the peer does not have newer, or the peer had the
script newer and it was compiled. -/
theorem get?_polled (dated : Dated d c.scripts)
    (entry : (w.polled d c remote).scripts.get? p = some m) :
    (c.scripts.get? p = some m ∧ ∀ k, remote.get? p = some k → k ≤ m) ∨
      (d.HoldsScript p m ∧
        ∃ old k, c.scripts.get? p = some old ∧ remote.get? p = some k ∧ old < k) := by
  have kept (entry : c.scripts.get? p = some m) (fresh : p ∉ staleAgainst remote c.scripts) :
      ∀ k, remote.get? p = some k → k ≤ m := by
    intro k newer
    by_contra lt
    exact fresh (mem_staleAgainst.mpr ⟨k, m, newer, entry, not_le.mp lt⟩)
  have current {q : Path} (stale : q ∈ staleAgainst remote c.scripts) :
      isRefused d q = false ∧ ∃ t, d.HoldsScript q t ∧ d.sourceFile q = .ok ⟨q, t⟩ := by
    obtain ⟨_, old, -, recorded, -⟩ := mem_staleAgainst.mp stale
    obtain ⟨canonical, t, holds, -⟩ := dated q old recorded
    exact ⟨Memory.not_isRefused_of_holdsScript canonical holds, t, holds,
      Disk.sourceFile_of_holdsScript canonical holds⟩
  unfold polled at entry
  dsimp only at entry
  split at entry
  · rename_i strategy
    have none := (Plan.of_clean strategy).1
    exact .inl ⟨entry, kept entry (by simp [none])⟩
  · cases entry
  · have known : ∀ q ∈ staleAgainst remote c.scripts, Known d q := by
      intro q stale
      obtain ⟨-, t, -, looked⟩ := current stale
      exact ⟨t, looked⟩
    rcases Memory.get?_batch c known p with ⟨-, stale, t, looked, recorded⟩ | ⟨untouched, same⟩
    · obtain ⟨k, old, newer, before, lt⟩ := mem_staleAgainst.mp stale
      obtain ⟨-, t', holds, looked'⟩ := current stale
      cases looked.symm.trans looked'
      cases recorded.symm.trans entry
      exact .inr ⟨holds, old, k, before, newer, lt⟩
    · have before : c.scripts.get? p = some m := same.symm.trans entry
      refine .inl ⟨before, kept before ?_⟩
      intro stale
      rcases untouched with refused | absent
      · rw [(current stale).1] at refused
        cases refused
      · exact absent stale

/-! ## The ways to rest -/

/-- The peer is ahead of the own cache, if at all, with the very time of the file. -/
structure Level (d : Disk) (own remote : Registry) : Prop where
  caughtUp : CaughtUp own remote
  exact : ∀ p m k, own.get? p = some m → remote.get? p = some k → m = k ∨ d.HoldsScript p m

def Agree (own remote : Registry) : Prop :=
  ∀ p m k, own.get? p = some m → remote.get? p = some k → m = k

theorem Agree.caughtUp (h : Agree own remote) : CaughtUp own remote := by
  intro p m k recorded shown
  exact (h p m k recorded shown).ge

theorem Agree.symm (h : Agree own remote) : Agree remote own := by
  intro p m k recorded shown
  exact (h p k m shown recorded).symm

section

variable (dated : Dated d c.scripts)
include dated

theorem dated_polled : Dated d (w.polled d c remote).scripts := by
  intro p m entry
  rcases get?_polled dated entry with ⟨before, -⟩ | ⟨holds, old, _, before, -⟩
  · exact dated p m before
  · exact ⟨(dated p old before).1, m, holds, le_rfl⟩

theorem caughtUp_polled (remote_dated : Dated d remote) :
    CaughtUp (w.polled d c remote).scripts remote := by
  intro p m k entry shown
  rcases get?_polled dated entry with ⟨-, newest⟩ | ⟨holds, -⟩
  · exact newest k shown
  · obtain ⟨-, t, holds', le⟩ := remote_dated p k shown
    exact holds.unique holds' ▸ le

theorem level_polled (remote_dated : Dated d remote) (ahead : CaughtUp remote c.scripts) :
    Level d (w.polled d c remote).scripts remote := by
  refine ⟨caughtUp_polled dated remote_dated, ?_⟩
  intro p m k entry shown
  rcases get?_polled dated entry with ⟨before, newest⟩ | ⟨holds, -⟩
  · exact .inl (le_antisymm (ahead p k m shown before) (newest k shown))
  · exact .inr holds

theorem agree_polled (level : Level d remote c.scripts) :
    Agree (w.polled d c remote).scripts remote := by
  intro p m k entry shown
  rcases get?_polled dated entry with ⟨before, newest⟩ | ⟨holds, old, k', before, shown', lt⟩
  · exact le_antisymm (level.caughtUp p k m shown before) (newest k shown)
  · cases shown.symm.trans shown'
    rcases level.exact p k old shown before with rfl | holds'
    · exact absurd lt (lt_irrefl _)
    · exact holds.unique holds'

end

/-! ## Runs -/

/-- One of two peers polls: it asks a network, is told the registry that the other has now, and acts
on it. -/
inductive Polls (d : Disk) (w : Side → FleetWatch) :
    (Side → Memory) → Side × Except EngineError FleetCycle → (Side → Memory) → Prop where
  | poll {s : Side → Memory} {side : Side} {net : Http.Network Memory} {url : Url}
      {answer : Except Http.NetworkError Http.Response} {result : Except EngineError FleetCycle}
      {c : Memory} (address : (w side).address? = some url)
      (sent : (Http.send net url { method := "GET", target := Http.targetOf url }).run (s side) =
        (answer, s side))
      (told : readAnswer url answer = .ok (s side.other).scripts)
      (ran : ((w side).cycle net (Memory.runtime d)).runFrom (s side) = (result, c)) :
      Polls d w s (side, result) (Function.update s side c)

/-- Polls of either side, one after the other, each with its result. -/
inductive PollRun (d : Disk) (w : Side → FleetWatch) :
    (Side → Memory) → List (Side × Except EngineError FleetCycle) → (Side → Memory) → Prop where
  | nil {s : Side → Memory} : PollRun d w s [] s
  | cons {s s' s'' : Side → Memory} {poll : Side × Except EngineError FleetCycle}
      {polls : List (Side × Except EngineError FleetCycle)} (first : Polls d w s poll s')
      (rest : PollRun d w s' polls s'') : PollRun d w s (poll :: polls) s''

/-- Both caches are in use, and their scripts can be compiled. -/
structure InUse (d : Disk) (s : Side → Memory) : Prop where
  active : ∀ side, (s side).Active
  dated : ∀ side, Dated d (s side).scripts

variable {ws : Side → FleetWatch} {s s' : Side → Memory} {side : Side}
  {result : Except EngineError FleetCycle} {polls : List (Side × Except EngineError FleetCycle)}

def isClean (result : Except EngineError FleetCycle) : Prop :=
  result = .ok (.reconciled ⟨.clean, 0, 0, []⟩)

theorem Polls.polled (h : Polls d ws s (side, result) s') (active : (s side).Active) :
    s' = Function.update s side ((ws side).polled d (s side) (s side.other).scripts) ∧
      (∃ report, result = .ok (.reconciled report)) ∧
      (CaughtUp (s side).scripts (s side.other).scripts → isClean result) := by
  obtain @⟨_, net, url, answer, _, c, address, sent, told, ran⟩ := h
  obtain ⟨report, reconciled, clean⟩ :=
    runFrom_reconcile (w := ws side) (d := d) active (s side.other).scripts
  have ran' : ((ws side).cycle net (Memory.runtime d)).runFrom (s side) =
      (.ok (.reconciled report), (ws side).polled d (s side) (s side.other).scripts) := by
    rw [runFrom_cycle (Memory.runtime d) address sent, told]
    dsimp only
    rw [EngineM.runFrom_map, reconciled]
    rfl
  cases ran.symm.trans ran'
  refine ⟨rfl, ⟨report, rfl⟩, ?_⟩
  intro caughtUp
  rw [clean caughtUp, isClean]

theorem Polls.inUse (h : Polls d ws s (side, result) s') (inUse : InUse d s) : InUse d s' := by
  obtain ⟨rfl, -⟩ := h.polled (inUse.active _)
  constructor
  · intro a
    by_cases same : a = side
    · subst same
      rw [Function.update_self]
      exact polled_active (inUse.active a)
    · rw [Function.update_of_ne same]
      exact inUse.active a
  · intro a
    by_cases same : a = side
    · subst same
      rw [Function.update_self]
      exact dated_polled (inUse.dated a)
    · rw [Function.update_of_ne same]
      exact inUse.dated a

theorem Polls.of_caughtUp (h : Polls d ws s (side, result) s') (inUse : InUse d s)
    (caughtUp : CaughtUp (s side).scripts (s side.other).scripts) :
    s' = s ∧ isClean result := by
  obtain ⟨rfl, -, clean⟩ := h.polled (inUse.active _)
  refine ⟨?_, clean caughtUp⟩
  rw [polled_of_caughtUp caughtUp, Function.update_eq_self]

/-- Agreed peers never find anything to do again. -/
theorem PollRun.of_agree (h : PollRun d ws s polls s') (inUse : InUse d s) {first : Side}
    (agree : Agree (s first).scripts (s first.other).scripts) :
    s' = s ∧ ∀ poll ∈ polls, isClean poll.2 := by
  induction h with
  | nil => exact ⟨rfl, by simp⟩
  | @cons s s₁ s' poll polls poll_first _ ih =>
    obtain ⟨side, result⟩ := poll
    have caughtUp : CaughtUp (s side).scripts (s side.other).scripts := by
      rcases Side.eq_or_eq_other side first with rfl | rfl
      · exact agree.caughtUp
      · rw [Side.other_other]
        exact agree.symm.caughtUp
    obtain ⟨rfl, clean⟩ := poll_first.of_caughtUp inUse caughtUp
    obtain ⟨same, others⟩ := ih inUse agree
    exact ⟨same, List.forall_mem_cons.mpr ⟨clean, others⟩⟩

theorem PollRun.agree_of_level (h : PollRun d ws s polls s') (inUse : InUse d s) {first : Side}
    (level : Level d (s first.other).scripts (s first).scripts)
    (polled : [first].Sublist (polls.map (·.1))) :
    Agree (s' first).scripts (s' first.other).scripts := by
  induction h with
  | nil => cases polled
  | @cons s s₁ s' poll polls poll_first rest ih =>
    obtain ⟨side, result⟩ := poll
    rcases Side.eq_or_eq_other side first with rfl | rfl
    · have agree : Agree (s₁ side).scripts (s₁ side.other).scripts := by
        obtain ⟨rfl, -⟩ := poll_first.polled (inUse.active _)
        rw [Function.update_self, Function.update_of_ne (Side.other_ne side)]
        exact agree_polled (inUse.dated side) level
      obtain ⟨rfl, -⟩ := rest.of_agree (poll_first.inUse inUse) agree
      exact agree
    · obtain ⟨rfl, -⟩ := poll_first.of_caughtUp inUse (by simpa using level.caughtUp)
      refine ih inUse level ?_
      rw [List.map_cons, List.cons_sublist_cons'] at polled
      rcases polled with polled | ⟨same, -⟩
      · exact polled
      · exact absurd same.symm (Side.other_ne first)

theorem PollRun.agree_of_caughtUp (h : PollRun d ws s polls s') (inUse : InUse d s) {first : Side}
    (caughtUp : CaughtUp (s first).scripts (s first.other).scripts)
    (polled : [first.other, first].Sublist (polls.map (·.1))) :
    Agree (s' first).scripts (s' first.other).scripts := by
  induction h with
  | nil => cases polled
  | @cons s s₁ s' poll polls poll_first rest ih =>
    obtain ⟨side, result⟩ := poll
    rcases Side.eq_or_eq_other side first with rfl | rfl
    · obtain ⟨rfl, -⟩ := poll_first.of_caughtUp inUse caughtUp
      refine ih inUse caughtUp ?_
      rw [List.map_cons, List.cons_sublist_cons'] at polled
      rcases polled with polled | ⟨same, -⟩
      · exact polled
      · exact absurd same (Side.other_ne side)
    · refine rest.agree_of_level (poll_first.inUse inUse) ?_ ?_
      · obtain ⟨rfl, -⟩ := poll_first.polled (inUse.active _)
        rw [Function.update_self, Function.update_of_ne (Side.other_ne first).symm, Side.other_other]
        exact level_polled (inUse.dated first.other) (inUse.dated first) caughtUp
      · rw [List.map_cons, List.cons_sublist_cons'] at polled
        rcases polled with polled | ⟨-, polled⟩
        · exact (List.sublist_cons_self ..).trans polled
        · exact polled

/-- Three polls by alternating sides make two peers agree. -/
theorem PollRun.agree (h : PollRun d ws s polls s') (inUse : InUse d s) {first : Side}
    (polled : [first, first.other, first].Sublist (polls.map (·.1))) :
    Agree (s' first).scripts (s' first.other).scripts := by
  induction h with
  | nil => cases polled
  | @cons s s₁ s' poll polls poll_first rest ih =>
    obtain ⟨side, result⟩ := poll
    have kept := poll_first.inUse inUse
    rw [List.map_cons, List.cons_sublist_cons'] at polled
    rcases polled with polled | ⟨rfl, polled⟩
    · exact ih kept polled
    · refine rest.agree_of_caughtUp kept ?_ polled
      obtain ⟨rfl, -⟩ := poll_first.polled (inUse.active _)
      rw [Function.update_self, Function.update_of_ne (Side.other_ne _)]
      exact caughtUp_polled (inUse.dated _) (inUse.dated _)

theorem PollRun.reports (h : PollRun d ws s polls s') (inUse : InUse d s) :
    InUse d s' ∧ ∀ poll ∈ polls, ∃ report, poll.2 = .ok (.reconciled report) := by
  induction h with
  | nil => exact ⟨inUse, by simp⟩
  | @cons s s₁ s' poll polls poll_first rest ih =>
    obtain ⟨side, result⟩ := poll
    obtain ⟨-, reported, -⟩ := poll_first.polled (inUse.active _)
    obtain ⟨kept, others⟩ := ih (poll_first.inUse inUse)
    exact ⟨kept, List.forall_mem_cons.mpr ⟨reported, others⟩⟩

/-- Two peers with caches in use, on a disk that does not change, poll each other. Every poll ends
with a report. Once three of them were by alternating sides, whatever came in between, all further
polls of either side find nothing to do and change nothing. -/
theorem polls_come_to_rest (w : Side → FleetWatch) (active : ∀ side, (s side).Active)
    (current : ∀ side p m, (s side).scripts.get? p = some m → d.HoldsCurrent p m)
    (run : PollRun d w s polls s') :
    (∀ poll ∈ polls, ∃ report, poll.2 = .ok (.reconciled report)) ∧
      ∀ first : Side, [first, first.other, first].Sublist (polls.map (·.1)) →
        ∀ further s'', PollRun d w s' further s'' →
          s'' = s' ∧ ∀ poll ∈ further, poll.2 = .ok (.reconciled ⟨.clean, 0, 0, []⟩) := by
  have inUse : InUse d s := ⟨active, current⟩
  obtain ⟨inUse', reports⟩ := run.reports inUse
  refine ⟨reports, ?_⟩
  intro first alternating further s'' more
  exact more.of_agree inUse' (run.agree inUse alternating)

/-- A side that can be told the registry of the other one polls it. -/
theorem exists_polls {url : Url} {answer : Http.Response} (active : (s side).Active)
    (address : (ws side).address? = some url) (fetchable : Http.isFetchable url)
    (told : readAnswer url (.ok answer) = .ok (s side.other).scripts) :
    ∃ result, Polls d ws s (side, result)
      (Function.update s side ((ws side).polled d (s side) (s side.other).scripts)) := by
  let net : Http.Network Memory := fun _ _ ↦ pure (.ok answer)
  have sent : (Http.send net url { method := "GET", target := Http.targetOf url }).run (s side) =
      (.ok answer, s side) := by
    rw [Http.send, if_pos fetchable]
    rfl
  have poll : Polls d ws s (side, _) _ := .poll address sent told rfl
  obtain ⟨after, -⟩ := poll.polled active
  rw [after] at poll
  exact ⟨_, poll⟩

namespace Sample

open LocalWatch.Sample (disk)

def watch : FleetWatch := ⟨⟨none⟩, "http://p/v1/registry", false, 1⟩

def url : Url := ⟨"http", some ⟨"", none, some (.domain "p"), none⟩, "/v1/registry", none, none⟩

theorem address_watch : watch.address? = some url := by cbv

def cache (m : Int) : Memory := { scripts := ⟨[("/a.php", m)], .cons (by simp) .nil⟩ }

/-- The caches of two peers that hold the same script. -/
def caches (m k : Int) : Side → Memory
  | .left => cache m
  | .right => cache k

theorem staleAgainst_cache {m k : Int} (newer : m < k) :
    staleAgainst (cache k).scripts (cache m).scripts = ["/a.php"] := by
  have entries (n : Int) : (cache n).scripts.entries = [("/a.php", n)] := rfl
  simp [staleAgainst, Registry.get?, entries, newer]

theorem caughtUp_cache {m k : Int} (newest : k ≤ m) :
    CaughtUp (cache m).scripts (cache k).scripts := by
  have entries (n : Int) : (cache n).scripts.entries = [("/a.php", n)] := rfl
  rw [caughtUp_iff]
  simp [staleAgainst, Registry.get?, entries, newest]

theorem polled_cache {m k : Int} (newer : m < k) :
    watch.polled disk (cache m) (cache k).scripts = cache 10 := by
  rw [polled, staleAgainst_cache newer]
  change batch disk (cache m) ["/a.php"] = cache 10
  rw [batch, List.foldl_cons, List.foldl_nil, Memory.attempted, LocalWatch.Sample.check_a]
  simp [Memory.record, Registry.record, cache, Sorted.place]

theorem told_cache (n : Int) (short : n = 5 ∨ n = 7 ∨ n = 10) :
    readAnswer url (.ok (.json 200 (cache n).scripts.toJson)) = .ok (cache n).scripts := by
  rcases short with rfl | rfl | rfl <;> cbv

theorem holdsCurrent_disk {m : Int} (early : m ≤ 10) : disk.HoldsCurrent "/a.php" m := by
  have stat : disk.stat "/a.php" = .ok (.file [] (.of 10 0)) := by cbv
  refine ⟨by cbv, 10, ⟨[], .of 10 0, [], stat, LocalWatch.Sample.ofSource_nil, by decide⟩, early⟩

theorem dated_cache {m : Int} (early : m ≤ 10) : Dated disk (cache m).scripts := by
  intro p k recorded
  have mem : (p, k) ∈ [("/a.php", m)] := Registry.get?_eq_some_iff.mp recorded
  cases List.mem_singleton.mp mem
  exact holdsCurrent_disk early

end Sample

open Sample LocalWatch.Sample in
/-- The first poll finds nothing to do, but the second one compiles a script, and so does the third
one after it. -/
theorem polls_come_to_rest_sample :
    ∃ polls s', PollRun disk (fun _ ↦ watch) (caches 7 5) polls s' ∧
      polls.map (·.1) = [.left, .right, .left] ∧ s' = caches 10 10 ∧
      ∀ further s'', PollRun disk (fun _ ↦ watch) s' further s'' →
        s'' = s' ∧ ∀ poll ∈ further, poll.2 = .ok (.reconciled ⟨.clean, 0, 0, []⟩) := by
  have active (m k : Int) (side : Side) : (caches m k side).Active := by
    cases side <;> exact ⟨rfl, rfl⟩
  have current : ∀ side, Dated disk (caches 7 5 side).scripts := by
    rintro (_ | _)
    · exact dated_cache (by decide)
    · exact dated_cache (by decide)
  have poll {m k : Int} (side : Side)
      (told : readAnswer url (.ok (.json 200 (caches m k side.other).scripts.toJson)) =
        .ok (caches m k side.other).scripts) :=
    @exists_polls disk (fun _ ↦ watch) _ _ _ _ (active m k side) address_watch (by decide) told
  obtain ⟨r₁, first⟩ := @poll 7 5 .left (told_cache 5 (by decide))
  obtain ⟨r₂, second⟩ := @poll 7 5 .right (told_cache 7 (by decide))
  obtain ⟨r₃, third⟩ := @poll 7 10 .left (told_cache 10 (by decide))
  have first_state : Function.update (caches 7 5) .left
      (watch.polled disk (caches 7 5 .left) (caches 7 5 Side.left.other).scripts) = caches 7 5 := by
    have ahead : CaughtUp (caches 7 5 .left).scripts (caches 7 5 Side.left.other).scripts :=
      caughtUp_cache (m := 7) (k := 5) (by decide)
    rw [polled_of_caughtUp ahead, Function.update_eq_self]
  have second_state : Function.update (caches 7 5) .right
      (watch.polled disk (caches 7 5 .right) (caches 7 5 Side.right.other).scripts) =
        caches 7 10 := by
    funext side
    cases side
    · rfl
    · exact polled_cache (m := 5) (k := 7) (by decide)
  have third_state : Function.update (caches 7 10) .left
      (watch.polled disk (caches 7 10 .left) (caches 7 10 Side.left.other).scripts) =
        caches 10 10 := by
    funext side
    cases side
    · exact polled_cache (m := 7) (k := 10) (by decide)
    · rfl
  rw [first_state] at first
  rw [second_state] at second
  rw [third_state] at third
  have run := PollRun.cons first (.cons second (.cons third .nil))
  refine ⟨_, _, run, rfl, rfl, ?_⟩
  exact (polls_come_to_rest (fun _ ↦ watch) (active 7 5) current run).2 .left (List.Sublist.refl _)

end FleetWatch

end ScriptCache
