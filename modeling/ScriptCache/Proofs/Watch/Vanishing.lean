import ScriptCache.Proofs.Disk.Thin
import ScriptCache.Proofs.Watch.Scanned

/-!
# Files that vanish during a cycle

A cycle takes its time: it walks the roots, looks at one file after the other, asks for the cached
scripts, compares, and compiles one stale file after the other. Between any two of these steps files
may be removed. A cached file that is missing when it is looked at makes the cycle end in a reset.
One that vanishes later than that fails to be compiled, and stays in the cache.
-/

namespace ScriptCache

open Memory (attempted batch check)
open Relation (ReflTransGen)

/-- The report of a cycle that compiled stale files one by one. -/
def Report.ofVerdicts (stale : Nat) (verdicts : List (Path × Except String Unit)) : Report where
  strategy := .compile
  stale
  compiled := (Outcome.ofVerdicts verdicts).compiled.length
  failed := (Outcome.ofVerdicts verdicts).failed

namespace LocalWatch

/-- How far a cycle has come. -/
inductive Stage where
  /-- The walked files that are still to be looked at, and the entries of the others. -/
  | probing (todo : List Path) (entries : List DiskEntry)
  | comparing (entries : List DiskEntry) (own : Registry)
  | acting (plan : Plan)
  /-- The number of stale files, those still to be compiled, and what became of the others. -/
  | compiling (stale : Nat) (todo : List Path) (verdicts : List (Path × Except String Unit))
  | ended (result : Except EngineError Report)

/-- A cycle on its way, with the disk and the cache as they are by now. -/
structure Pass where
  disk : Disk
  cache : Memory
  stage : Stage

/-- Goes on behind a use of the cache, unless this refused. -/
def Pass.after {α : Type} (s : Pass) (run : Except EngineError α × Memory) (next : α → Stage) :
    Pass where
  disk := s.disk
  cache := run.2
  stage :=
    match run.1 with
    | .ok a => next a
    | .error e => .ended (.error e)

/-- A cycle that has just walked the roots. -/
def started (w : LocalWatch) (d : Disk) (c : Memory) : Pass where
  disk := d
  cache := c
  stage := .probing ((d.walkAll w.filter w.roots).filterMap Except.toOption) []

/-- The next step of a cycle. -/
def advance (w : LocalWatch) (s : Pass) : Pass :=
  let rt := Memory.runtime s.disk
  match s.stage with
  | .probing (p :: todo) entries =>
    { s with stage := .probing todo (entries ++ [s.disk.probe p]) }
  | .probing [] entries => s.after (rt.status.runFrom s.cache) (.comparing entries)
  | .comparing entries own =>
    let plan :=
      Plan.of (staleOnDisk entries own) (unresolvedOnDisk entries own) w.resetThreshold
    { s with stage := .acting plan }
  | .acting plan =>
    match plan.strategy with
    | .clean | .reset => s.after ((plan.apply rt).runFrom s.cache) fun report ↦ .ended (.ok report)
    | .compile => { s with stage := .compiling plan.stale.length plan.stale [] }
  | .compiling stale (p :: todo) verdicts =>
    s.after ((rt.attempt p).runFrom s.cache) fun verdict ↦
      .compiling stale todo (verdicts ++ [(p, verdict)])
  | .compiling stale [] verdicts => { s with stage := .ended (.ok (.ofVerdicts stale verdicts)) }
  | .ended _ => s

/-- What can happen next: the cycle goes on, or a file is removed. -/
inductive Step (w : LocalWatch) : Pass → Pass → Prop where
  | advance (s : Pass) : Step w s (w.advance s)
  | remove {s : Pass} {q : Path} {content : List UInt8} {t : Timestamp} {e : Disk}
      (file : s.disk.get false q = .ok (.file content t)) (removed : s.disk.removeFile q = .ok e) :
      Step w s { s with disk := e }

/-- Whatever happens from here on, the cycle can end, and whenever it does, it ends like this. -/
def Ends (w : LocalWatch) (s : Pass) (P : Except EngineError Report → Memory → Prop) : Prop :=
  (∃ s' result, ReflTransGen (Step w) s s' ∧ s'.stage = .ended result) ∧
    ∀ s' result, ReflTransGen (Step w) s s' → s'.stage = .ended result → P result s'.cache

section Alone

variable (w : LocalWatch) {d : Disk} {c : Memory}

/-- Steps of a cycle while nothing is removed. -/
abbrev Advances (w : LocalWatch) : Pass → Pass → Prop :=
  ReflTransGen fun s s' ↦ w.advance s = s'

theorem advance_attempt (active : c.Active) (stale : Nat) (p : Path) (todo : List Path)
    (verdicts : List (Path × Except String Unit)) :
    w.advance ⟨d, c, .compiling stale (p :: todo) verdicts⟩ =
      ⟨d, attempted d c p,
        .compiling stale todo (verdicts ++ [(p, (check d p).map fun _ ↦ ())])⟩ := by
  rw [advance]
  dsimp only
  rw [Memory.runFrom_attempt active]
  rfl

theorem advance_status (active : c.Active) (entries : List DiskEntry) :
    w.advance ⟨d, c, .probing [] entries⟩ = ⟨d, c, .comparing entries c.scripts⟩ := by
  rw [advance]
  dsimp only
  rw [Memory.runFrom_status active]
  rfl

theorem advances_compiling (active : c.Active) (stale : Nat) (todo : List Path)
    (verdicts : List (Path × Except String Unit)) :
    w.Advances ⟨d, c, .compiling stale todo verdicts⟩ ⟨d, batch d c todo, .ended (.ok
      (.ofVerdicts stale (verdicts ++ todo.map fun p ↦ (p, (check d p).map fun _ ↦ ()))))⟩ := by
  induction todo generalizing c verdicts with
  | nil =>
    rw [List.map_nil, List.append_nil]
    exact .single rfl
  | cons p todo ih =>
    have rest := ih (Memory.attempted_active (d := d) (p := p) active)
      (verdicts ++ [(p, (check d p).map fun _ ↦ ())])
    rw [List.append_assoc] at rest
    exact .head (w.advance_attempt active stale p todo verdicts) rest

/-- A plan is carried out at once, or its stale files are compiled one by one. -/
theorem advance_acting (active : c.Active) (plan : Plan) :
    w.advance ⟨d, c, .acting plan⟩ =
      match plan.strategy with
      | .clean => ⟨d, c, .ended (.ok ⟨.clean, plan.stale.length, 0, []⟩)⟩
      | .reset => ⟨d, { c with scripts := .empty }, .ended (.ok ⟨.reset, plan.stale.length, 0, []⟩)⟩
      | .compile => ⟨d, c, .compiling plan.stale.length plan.stale []⟩ := by
  cases strategy : plan.strategy with
  | clean => simp only [advance, strategy, runFrom_apply_clean strategy, Pass.after]
  | reset => simp only [advance, strategy, runFrom_apply_reset strategy active, Pass.after]
  | compile => simp only [advance, strategy]

theorem advances_acting (active : c.Active) (plan : Plan) :
    let run := (plan.apply (Memory.runtime d)).runFrom c
    w.Advances ⟨d, c, .acting plan⟩ ⟨d, run.2, .ended run.1⟩ := by
  intro run
  have step := w.advance_acting (d := d) active plan
  cases strategy : plan.strategy with
  | clean =>
    rw [strategy] at step
    have ran : run = _ := runFrom_apply_clean strategy
    rw [ran]
    exact .single step
  | reset =>
    rw [strategy] at step
    have ran : run = _ := runFrom_apply_reset strategy active
    rw [ran]
    exact .single step
  | compile =>
    rw [strategy] at step
    have ran : run = _ := runFrom_apply_compile strategy active
    have rest := w.advances_compiling (d := d) active plan.stale.length plan.stale []
    rw [List.nil_append, Report.ofVerdicts, ← Memory.outcome_eq_ofVerdicts] at rest
    rw [ran]
    exact .head step rest

theorem advances_probing (active : c.Active) (todo : List Path) (entries : List DiskEntry) :
    let found := entries ++ todo.map d.probe
    let run := ((Plan.of (staleOnDisk found c.scripts) (unresolvedOnDisk found c.scripts)
      w.resetThreshold).apply (Memory.runtime d)).runFrom c
    w.Advances ⟨d, c, .probing todo entries⟩ ⟨d, run.2, .ended run.1⟩ := by
  induction todo generalizing entries with
  | nil =>
    rw [List.map_nil, List.append_nil]
    exact .head (w.advance_status active entries) (.head rfl (w.advances_acting active _))
  | cons p todo ih =>
    have rest := ih (entries ++ [d.probe p])
    rw [List.append_assoc] at rest
    exact .head rfl rest

/-- Where nothing is removed on the way, these are the steps of a cycle. -/
theorem advances_started (active : c.Active) :
    let run := (w.cycle d (Memory.runtime d)).runFrom c
    w.Advances (w.started d c) ⟨d, run.2, .ended run.1⟩ := by
  have entries : w.entries d =
      [] ++ ((d.walkAll w.filter w.roots).filterMap Except.toOption).map d.probe := by
    rw [LocalWatch.entries, List.nil_append, List.map_filterMap]
  have run := w.advances_probing (d := d) active
    ((d.walkAll w.filter w.roots).filterMap Except.toOption) []
  rw [← entries] at run
  rw [runFrom_cycle active]
  exact run

/-- A cycle can end at every time. -/
theorem exists_ended {s : Pass} (active : s.cache.Active) :
    ∃ s' result, w.Advances s s' ∧ s'.stage = .ended result := by
  obtain ⟨d, c, stage⟩ := s
  cases stage with
  | probing todo entries => exact ⟨_, _, w.advances_probing active todo entries, rfl⟩
  | comparing entries own => exact ⟨_, _, .head rfl (w.advances_acting active _), rfl⟩
  | acting plan => exact ⟨_, _, w.advances_acting active plan, rfl⟩
  | compiling stale todo verdicts =>
    exact ⟨_, _, w.advances_compiling active stale todo verdicts, rfl⟩
  | ended result => exact ⟨_, result, .refl, rfl⟩

end Alone

/-- What a step can be while the cache is active. -/
inductive Moves (w : LocalWatch) : Pass → Pass → Prop where
  | probe {d : Disk} {c : Memory} {p : Path} {todo : List Path} {entries : List DiskEntry} :
      Moves w ⟨d, c, .probing (p :: todo) entries⟩ ⟨d, c, .probing todo (entries ++ [d.probe p])⟩
  | ask {d : Disk} {c : Memory} {entries : List DiskEntry} :
      Moves w ⟨d, c, .probing [] entries⟩ ⟨d, c, .comparing entries c.scripts⟩
  | compare {d : Disk} {c : Memory} {entries : List DiskEntry} {own : Registry} :
      Moves w ⟨d, c, .comparing entries own⟩ ⟨d, c, .acting
        (.of (staleOnDisk entries own) (unresolvedOnDisk entries own) w.resetThreshold)⟩
  | clean {d : Disk} {c : Memory} {plan : Plan} (strategy : plan.strategy = .clean) :
      Moves w ⟨d, c, .acting plan⟩ ⟨d, c, .ended (.ok ⟨.clean, plan.stale.length, 0, []⟩)⟩
  | reset {d : Disk} {c : Memory} {plan : Plan} (strategy : plan.strategy = .reset) :
      Moves w ⟨d, c, .acting plan⟩
        ⟨d, { c with scripts := .empty }, .ended (.ok ⟨.reset, plan.stale.length, 0, []⟩)⟩
  | compile {d : Disk} {c : Memory} {plan : Plan} (strategy : plan.strategy = .compile) :
      Moves w ⟨d, c, .acting plan⟩ ⟨d, c, .compiling plan.stale.length plan.stale []⟩
  | attempt {d : Disk} {c : Memory} {stale : Nat} {p : Path} {todo : List Path}
      {verdicts : List (Path × Except String Unit)} :
      Moves w ⟨d, c, .compiling stale (p :: todo) verdicts⟩
        ⟨d, attempted d c p, .compiling stale todo (verdicts ++ [(p, (check d p).map fun _ ↦ ())])⟩
  | finish {d : Disk} {c : Memory} {stale : Nat} {verdicts : List (Path × Except String Unit)} :
      Moves w ⟨d, c, .compiling stale [] verdicts⟩
        ⟨d, c, .ended (.ok (.ofVerdicts stale verdicts))⟩
  | idle {d : Disk} {c : Memory} {result : Except EngineError Report} :
      Moves w ⟨d, c, .ended result⟩ ⟨d, c, .ended result⟩
  | remove {d e : Disk} {c : Memory} {stage : Stage} (thinned : Disk.Thinned d e) :
      Moves w ⟨d, c, stage⟩ ⟨e, c, stage⟩

section Interleaved

variable {w : LocalWatch} {d : Disk} {c : Memory} {p k : Path} {t : Int} {s s' : Pass}

theorem Step.moves (active : s.cache.Active) (step : Step w s s') : Moves w s s' := by
  cases step with
  | remove file removed => exact .remove (Disk.thinned_removeFile file removed)
  | advance =>
    obtain ⟨d, c, stage⟩ := s
    cases stage with
    | probing todo entries =>
      cases todo with
      | nil =>
        rw [w.advance_status active]
        exact .ask
      | cons p todo => exact .probe
    | comparing entries own => exact .compare
    | acting plan =>
      rw [w.advance_acting active]
      cases strategy : plan.strategy with
      | clean => exact .clean strategy
      | reset => exact .reset strategy
      | compile => exact .compile strategy
    | compiling stale todo verdicts =>
      cases todo with
      | nil => exact .finish
      | cons p todo =>
        rw [w.advance_attempt active]
        exact .attempt
    | ended result => exact .idle

namespace Moves

theorem active (h : Moves w s s') (active : s.cache.Active) : s'.cache.Active := by
  cases h with
  | attempt => exact Memory.attempted_active active
  | _ => exact active

theorem thinned (h : Moves w s s') : Disk.Thinned s.disk s'.disk := by
  cases h with
  | remove thinned => exact thinned
  | _ => exact .refl _

end Moves

/-- What every move keeps holds at every later time. -/
theorem invariant_of_steps {I : Pass → Prop} (kept : ∀ s s', I s → Moves w s s' → I s')
    (active : s.cache.Active) (steps : ReflTransGen (Step w) s s') (h : I s) :
    s'.cache.Active ∧ I s' := by
  induction steps with
  | refl => exact ⟨active, h⟩
  | tail _ step ih =>
    have moves := step.moves ih.1
    exact ⟨moves.active ih.1, kept _ _ ih.2 moves⟩

theorem toSteps (h : w.Advances s s') : ReflTransGen (Step w) s s' :=
  ReflTransGen.mono (fun s _ (same : w.advance s = _) ↦ same ▸ Step.advance s) _ _ h

theorem ends_of_invariant {I : Pass → Prop} {P : Except EngineError Report → Memory → Prop}
    (kept : ∀ s s', I s → Moves w s s' → I s') (active : s.cache.Active) (h : I s)
    (ended : ∀ e c result, I ⟨e, c, .ended result⟩ → P result c) : w.Ends s P := by
  constructor
  · obtain ⟨s', result, advances, stage⟩ := w.exists_ended active
    exact ⟨s', result, toSteps advances, stage⟩
  · rintro ⟨e, c, stage⟩ result steps rfl
    exact ended e c result (invariant_of_steps kept active steps h).2

/-- A cached file was missing when it was looked at, or it is the next to be looked at and is
missing by now. -/
inductive Doomed (c : Memory) (p k : Path) : Pass → Prop where
  | next {d : Disk} {todo : List Path} {entries : List DiskEntry}
      (missing : ∀ e, Disk.Thinned d e → e.probe p = .missing k) :
      Doomed c p k ⟨d, c, .probing (p :: todo) entries⟩
  | probing {d : Disk} {todo : List Path} {entries : List DiskEntry}
      (mem : .missing k ∈ entries) : Doomed c p k ⟨d, c, .probing todo entries⟩
  | comparing {d : Disk} {entries : List DiskEntry} (mem : .missing k ∈ entries) :
      Doomed c p k ⟨d, c, .comparing entries c.scripts⟩
  | acting {d : Disk} {plan : Plan} (strategy : plan.strategy = .reset) :
      Doomed c p k ⟨d, c, .acting plan⟩
  | ended {d : Disk} {c' : Memory} {report : Report} (strategy : report.strategy = .reset)
      (empty : c'.scripts = .empty) : Doomed c p k ⟨d, c', .ended (.ok report)⟩

theorem strategy_of_missing {entries : List DiskEntry} {stale : List Path} {r : Registry}
    {threshold : Nat} (mem : .missing k ∈ entries) (held : r.contains k) :
    (Plan.of stale (unresolvedOnDisk entries r) threshold).strategy = .reset := by
  have unresolved : k ∈ unresolvedOnDisk entries r :=
    List.mem_map.mpr ⟨.missing k, List.mem_filter.mpr ⟨mem, held⟩, rfl⟩
  exact Plan.strategy_of_unresolved unresolved

theorem Doomed.moves (held : c.scripts.contains k) (h : Doomed c p k s) (moves : Moves w s s') :
    Doomed c p k s' := by
  cases moves with
  | probe =>
    cases h with
    | next missing => exact .probing (by simp [missing _ (.refl _)])
    | probing mem => exact .probing (List.mem_append_left _ mem)
  | ask =>
    cases h with
    | probing mem => exact .comparing mem
  | compare =>
    cases h with
    | comparing mem => exact .acting (strategy_of_missing mem held)
  | clean strategy =>
    cases h with
    | acting reset => cases strategy.symm.trans reset
  | reset strategy => exact .ended rfl rfl
  | compile strategy =>
    cases h with
    | acting reset => cases strategy.symm.trans reset
  | attempt => cases h
  | finish => cases h
  | idle => exact h
  | remove thinned =>
    cases h with
    | next missing => exact .next fun e more ↦ missing e (thinned.trans more)
    | probing mem => exact .probing mem
    | comparing mem => exact .comparing mem
    | acting strategy => exact .acting strategy
    | ended strategy empty => exact .ended strategy empty

theorem exists_check_error (gone : d.Gone p) : ∃ reason, check d p = .error reason := by
  obtain ⟨error, missing⟩ := gone
  refine ⟨error.message, ?_⟩
  simp [check, Disk.sourceFile, missing, Except.mapError, bind, Except.bind]

/-- Nothing is recorded for a file that is missing. -/
theorem get?_attempted_of_gone (settled : d.Settled) (gone : d.Gone p) (q : Path) :
    (attempted d c q).scripts.get? p = c.scripts.get? p := by
  cases passed : check d q with
  | error reason => simp [attempted, passed]
  | ok file =>
    have other : p ≠ file.path := by
      rintro rfl
      obtain ⟨error, missing⟩ := gone
      have found := Disk.sourceFile_path settled (Memory.sourceFile_of_check passed)
      cases missing.symm.trans (Disk.sourceFile_eq_ok_iff.mp found).1
    rw [Memory.scripts_attempted passed, Registry.get?_record_of_ne other]

/-- A cached stale file failed to be compiled, or it is the next one to be compiled and is missing
by now. -/
inductive Failing (p : Path) (t : Int) : Pass → Prop where
  | next {d : Disk} {c : Memory} {stale : Nat} {todo : List Path}
      {verdicts : List (Path × Except String Unit)} (settled : d.Settled) (gone : d.Gone p)
      (held : c.scripts.get? p = some t) : Failing p t ⟨d, c, .compiling stale (p :: todo) verdicts⟩
  | failed {d : Disk} {c : Memory} {stale : Nat} {todo : List Path}
      {verdicts : List (Path × Except String Unit)} (settled : d.Settled) (gone : d.Gone p)
      (held : c.scripts.get? p = some t) (refused : ∃ reason, (p, .error reason) ∈ verdicts) :
      Failing p t ⟨d, c, .compiling stale todo verdicts⟩
  | ended {d : Disk} {c : Memory} {report : Report} (strategy : report.strategy = .compile)
      (mem : p ∈ report.failed.map (·.1)) (held : c.scripts.get? p = some t) :
      Failing p t ⟨d, c, .ended (.ok report)⟩

theorem Failing.moves (h : Failing p t s) (moves : Moves w s s') : Failing p t s' := by
  cases moves with
  | probe | ask | compare | clean | reset | compile => cases h
  | attempt =>
    cases h with
    | next settled gone held =>
      obtain ⟨reason, check⟩ := exists_check_error gone
      exact .failed settled gone ((get?_attempted_of_gone settled gone _).trans held)
        ⟨reason, by simp [check, Except.map]⟩
    | failed settled gone held refused =>
      exact .failed settled gone ((get?_attempted_of_gone settled gone _).trans held)
        (refused.imp fun _ mem ↦ List.mem_append_left _ mem)
  | finish =>
    cases h with
    | failed settled gone held refused =>
      obtain ⟨reason, mem⟩ := refused
      exact .ended rfl (List.mem_map.mpr ⟨_, List.mem_filterMap.mpr ⟨_, mem, rfl⟩, rfl⟩) held
  | idle => exact h
  | remove thinned =>
    cases h with
    | next settled gone held => exact .next (thinned.settled settled) (thinned.gone gone) held
    | failed settled gone held refused =>
      exact .failed (thinned.settled settled) (thinned.gone gone) held refused
    | ended strategy mem held => exact .ended strategy mem held

/-- What is known at every stage of a cycle that walked the disk `d` and found the cache `c`. -/
inductive Underway (w : LocalWatch) (d : Disk) (c : Memory) : Pass → Prop where
  | probing {e : Disk} {todo : List Path} {entries : List DiskEntry}
      (walked : ∀ p ∈ todo, .ok p ∈ d.walkAll w.filter w.roots) :
      Underway w d c ⟨e, c, .probing todo entries⟩
  | comparing {e : Disk} {entries : List DiskEntry} :
      Underway w d c ⟨e, c, .comparing entries c.scripts⟩
  | acting {e : Disk} {plan : Plan} (held : ∀ p ∈ plan.stale, c.scripts.contains p) :
      Underway w d c ⟨e, c, .acting plan⟩
  | compiling {e : Disk} {c' : Memory} {stale : Nat} {todo : List Path}
      {verdicts : List (Path × Except String Unit)} (held : ∀ p ∈ todo, c'.scripts.contains p) :
      Underway w d c ⟨e, c', .compiling stale todo verdicts⟩
  | ended {e : Disk} {c' : Memory} {result : Except EngineError Report} :
      Underway w d c ⟨e, c', .ended result⟩

theorem contains_attempted (held : c.scripts.contains p) (q : Path) :
    (attempted d c q).scripts.contains p := by
  cases passed : check d q with
  | error reason => simpa [attempted, passed] using held
  | ok file =>
    rw [Memory.scripts_attempted passed, Registry.contains]
    by_cases same : p = file.path
    · simp [same]
    · rwa [Registry.get?_record_of_ne same]

theorem Underway.moves (h : Underway w d c s) (moves : Moves w s s') : Underway w d c s' := by
  cases moves with
  | probe =>
    cases h with
    | probing walked => exact .probing (List.forall_mem_cons.mp walked).2
  | ask =>
    cases h with
    | probing => exact .comparing
  | compare =>
    cases h with
    | comparing => exact .acting fun p stale ↦ contains_of_mem_staleOnDisk stale
  | clean | reset => exact .ended
  | compile =>
    cases h with
    | acting held => exact .compiling held
  | attempt =>
    cases h with
    | compiling held =>
      exact .compiling fun p mem ↦
        contains_attempted ((List.forall_mem_cons.mp held).2 p mem) _
  | finish => exact .ended
  | idle => exact h
  | remove =>
    cases h with
    | probing walked => exact .probing walked
    | comparing => exact .comparing
    | acting held => exact .acting held
    | compiling held => exact .compiling held
    | ended => exact .ended

theorem underway_started (w : LocalWatch) (d : Disk) (c : Memory) :
    Underway w d c (w.started d c) := by
  refine .probing fun p mem ↦ ?_
  obtain ⟨item, walked, found⟩ := List.mem_filterMap.mp mem
  cases item with
  | error => cases found
  | ok q =>
    cases found
    exact walked

/-- What is known of everything that can happen in a cycle. -/
theorem of_steps_started (active : c.Active) (steps : ReflTransGen (Step w) (w.started d c) s) :
    s.cache.Active ∧ Disk.Thinned d s.disk ∧ Underway w d c s :=
  invariant_of_steps (I := fun s ↦ Disk.Thinned d s.disk ∧ Underway w d c s)
    (fun _ _ known moves ↦ ⟨known.1.trans moves.thinned, known.2.moves moves⟩) active steps
    ⟨.refl d, underway_started w d c⟩

end Interleaved

namespace Sample

/-- One script. -/
def lone : Disk where
  root := single
  workingDir := []
  now := .of 20 0

/-- The script was removed. -/
def bare : Disk where
  root := .dir [] (.of 1 0)
  workingDir := []
  now := .of 20 0

/-- The script, from an earlier time. -/
def older : Memory := { scripts := .ofList [("/a.php", 5)] }

theorem remove_lone (c : Memory) (stage : Stage) :
    Step watch ⟨lone, c, stage⟩ ⟨bare, c, stage⟩ := by
  have file : lone.get false "/a.php" = .ok (.file [] (.of 10 0)) := by cbv
  have removed : lone.removeFile "/a.php" = .ok bare := by cbv
  exact .remove (s := ⟨lone, c, stage⟩) file removed

theorem gone_bare : bare.canonicalize "/a.php" = .error .notFound := by cbv

theorem started_lone :
    watch.started lone older = ⟨lone, older, .probing ["/a.php"] []⟩ := by
  have walked : lone.walkAll .scripts ["/"] = [.ok "/a.php"] := by cbv
  rw [started, watch, walked]
  rfl

theorem check_bare : check bare "/a.php" = .error "No such file or directory (os error 2)" := by
  simp [check, Disk.sourceFile, gone_bare, Except.mapError, IoError.message, bind, Except.bind]

end Sample

open Sample

end LocalWatch

end ScriptCache
