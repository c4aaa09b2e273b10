import ScriptCache.Proofs.Engine.Alike
import ScriptCache.Proofs.Engine.Memory

/-!
# Where the entries of a cache come from

A history lists the uses of a cache in memory, each with the disk that it saw. The cache starts
empty, and whatever is done to it and to the disk from then on, an entry stands for the latest
successful compilation of its file since the last successful reset.
-/

namespace ScriptCache

/-- A use of a cache, with the disk at that time. -/
structure Event where
  disk : Disk
  call : Call

namespace Event

/-- The event is a successful compilation of the file with this canonical path. -/
def Compiles (e : Event) (k : Path) : Prop :=
  ∃ p, e.call = .compile p (.ok ()) ∧ e.disk.canonicalize p = .ok k

/-- The event is a successful reset. -/
def Resets (e : Event) : Prop := e.call = .reset true

end Event

/-- At the path stands a file that can be parsed, with this modification time in seconds. -/
def Disk.HoldsScript (d : Disk) (k : Path) (m : Int) : Prop :=
  ∃ content t statements, d.stat k = .ok (.file content t) ∧
    Source.Statement.ofSource content = .ok statements ∧ t.recorded = m

/-- The event is the latest successful compilation of the file since the last successful reset. -/
def Latest (history : List Event) (k : Path) (e : Event) : Prop :=
  ∃ before after, history = before ++ e :: after ∧ e.Compiles k ∧
    ∀ later ∈ after, ¬later.Compiles k ∧ ¬later.Resets

section History

variable {history : List Event} {d : Disk} {e e' : Event} {k k' p : Path} {m : Int}

theorem Event.Compiles.unique (h : e.Compiles k) (h' : e.Compiles k') : k = k' := by
  obtain ⟨p, call, canonical⟩ := h
  obtain ⟨p', call', canonical'⟩ := h'
  rw [call] at call'
  cases call'
  exact Except.ok.inj (canonical.symm.trans canonical')

theorem not_latest_nil : ¬Latest [] k e := by
  rintro ⟨before, after, split, -⟩
  simp at split

/-- What is the latest compilation after one more event. -/
theorem latest_concat :
    Latest (history ++ [e']) k e ↔
      (e'.Compiles k ∧ e = e') ∨ (¬e'.Compiles k ∧ ¬e'.Resets ∧ Latest history k e) := by
  constructor
  · rintro ⟨before, after, split, compiles, others⟩
    rcases List.eq_nil_or_concat' after with rfl | ⟨after, last, rfl⟩
    · obtain ⟨-, same⟩ := List.append_inj' split rfl
      cases same
      exact .inl ⟨compiles, rfl⟩
    · rw [← List.cons_append, ← List.append_assoc] at split
      obtain ⟨rfl, same⟩ := List.append_inj' split rfl
      cases same
      have last := others e' (List.mem_append_right _ List.mem_cons_self)
      exact .inr ⟨last.1, last.2, before, after, rfl, compiles, fun later mem ↦
        others later (List.mem_append_left _ mem)⟩
  · rintro (⟨compiles, rfl⟩ | ⟨other, kept, before, after, rfl, compiles, others⟩)
    · exact ⟨history, [], rfl, compiles, by simp⟩
    · refine ⟨before, after ++ [e'], by simp, compiles, ?_⟩
      intro later mem
      rcases List.mem_append.mp mem with mem | mem
      · exact others later mem
      · cases List.mem_singleton.mp mem
        exact ⟨other, kept⟩

end History

/-- The entries of the cache are those that the history accounts for. -/
def Accounts (history : List Event) (c : Memory) : Prop :=
  ∀ k m, c.scripts.get? k = some m ↔ ∃ e, Latest history k e ∧ e.disk.HoldsScript k m

theorem Disk.HoldsScript.unique {d : Disk} {k : Path} {m m' : Int} (h : d.HoldsScript k m)
    (h' : d.HoldsScript k m') : m = m' := by
  obtain ⟨content, t, statements, stat, -, rfl⟩ := h
  obtain ⟨content', t', statements', stat', -, rfl⟩ := h'
  cases stat.symm.trans stat'
  rfl

namespace Accounts

variable {history : List Event} {d : Disk} {c : Memory} {p k : Path} {m : Int} {e : Event}

theorem empty (loaded enabled : Bool) : Accounts [] { loaded, enabled } := by
  intro k m
  constructor
  · intro entry
    cases entry
  · rintro ⟨e, latest, -⟩
    exact absurd latest not_latest_nil

/-- Events of other kinds do not count. -/
theorem concat_other (h : Accounts history c) (other : ∀ k, ¬e.Compiles k) (kept : ¬e.Resets) :
    Accounts (history ++ [e]) c := by
  intro k m
  rw [h k m]
  simp only [latest_concat, other k, kept, not_false_eq_true, true_and, false_and, false_or]

theorem concat_reset (reset : e.Resets) : Accounts (history ++ [e]) { c with scripts := .empty } := by
  intro k m
  have other : ¬e.Compiles k := by
    rintro ⟨p, call, -⟩
    rw [Event.Resets, call] at reset
    cases reset
  simp [latest_concat, other, reset]

theorem concat_compile (h : Accounts history c) (compiles : e.Compiles k)
    (holds : e.disk.HoldsScript k m) : Accounts (history ++ [e]) (c.record k m) := by
  intro q n
  have kept : ¬e.Resets := by
    obtain ⟨p, call, -⟩ := compiles
    rw [Event.Resets, call]
    simp
  by_cases same : q = k
  · subst same
    rw [Memory.record, Registry.get?_record_self]
    constructor
    · intro entry
      cases entry
      exact ⟨e, latest_concat.mpr (.inl ⟨compiles, rfl⟩), holds⟩
    · rintro ⟨e', latest, holds'⟩
      rcases latest_concat.mp latest with ⟨-, rfl⟩ | ⟨other, -⟩
      · rw [holds.unique holds']
      · exact absurd compiles other
  · have other : ¬e.Compiles q := fun compiles' ↦ same (compiles'.unique compiles)
    rw [Memory.record, Registry.get?_record_of_ne same, h q n]
    simp only [latest_concat, other, kept, not_false_eq_true, true_and, false_and, false_or]

end Accounts

namespace Memory

variable {d : Disk} {c : Memory} {p : Path} {history : List Event} {calls : List Call}

/-- The ways in which a file fails the check. -/
inductive Rejected (d : Disk) (p : Path) : Prop where
  | missing {e : IoError} (looked : d.sourceFile p = .error e)
  | unreadable {file : SourceFile} {e : IoError} (looked : d.sourceFile p = .ok file)
      (read : d.read file.path = .error e)
  | malformed {file : SourceFile} {content : List UInt8} {e : Source.ParseError}
      (looked : d.sourceFile p = .ok file) (read : d.read file.path = .ok content)
      (parsed : Source.Statement.ofSource content = .error e)

/-- A file passes the check with its canonical path and its time, if there is a script. -/
theorem check_cases (d : Disk) (p : Path) :
    (Rejected d p ∧ ∃ reason, check d p = .error reason) ∨
      ∃ k m, d.canonicalize p = .ok k ∧ d.HoldsScript k m ∧ check d p = .ok ⟨k, m⟩ := by
  unfold check
  cases looked : d.sourceFile p with
  | error e => exact .inl ⟨.missing looked, _, rfl⟩
  | ok file =>
    cases read : d.read file.path with
    | error e => exact .inl ⟨.unreadable looked read, e.message, by
        simp [Except.mapError, read, bind, Except.bind]⟩
    | ok content =>
      cases parsed : Source.Statement.ofSource content with
      | error e =>
        exact .inl ⟨.malformed looked read parsed, "syntax error, " ++ e.message, by
          simp [Except.mapError, read, parsed, bind, Except.bind]⟩
      | ok statements =>
        obtain ⟨canonical, node, stat, time⟩ := Disk.sourceFile_eq_ok_iff.mp looked
        obtain ⟨t, stat'⟩ := Disk.read_eq_ok_iff_stat.mp read
        cases stat.symm.trans stat'
        exact .inr ⟨file.path, file.mtime, canonical, ⟨content, t, statements, stat, parsed, time⟩,
          by simp [Except.mapError, read, parsed, bind, Except.bind, pure, Except.pure]⟩

/-- No use of the cache brings the history and the entries apart. -/
theorem keeps_accounts (history : List Event) (d : Disk) :
    (runtime d).Keeps fun c calls ↦ Accounts (history ++ calls.map (Event.mk d)) c := by
  have other {calls : List Call} {c : Memory} {call : Call}
      (h : Accounts (history ++ calls.map (Event.mk d)) c)
      (plain : ∀ p verdict, call ≠ .compile p verdict) (kept : call ≠ .reset true) :
      Accounts (history ++ (calls ++ [call]).map (Event.mk d)) c := by
    rw [List.map_append, ← List.append_assoc]
    exact h.concat_other (fun k ⟨p, same, _⟩ ↦ plain p _ same) kept
  constructor
  case loaded => exact fun c calls h ↦ other h (by simp) (by simp)
  case enabled => exact fun c calls h ↦ other h (by simp) (by simp)
  case scripts => exact fun c calls h ↦ other h (by simp) (by simp)
  case reset =>
    intro c calls h
    rw [List.map_append, ← List.append_assoc]
    exact Accounts.concat_reset rfl
  case compile =>
    intro p c calls h
    change Accounts _ ((compile d p).run c).2
    rw [List.map_append, ← List.append_assoc]
    change Accounts (history ++ calls.map (Event.mk d) ++ [⟨d, .compile p ((compile d p).run c).1⟩]) _
    rw [run_compile]
    rcases check_cases d p with ⟨-, reason, failed⟩ | ⟨k, m, canonical, holds, passed⟩
    · rw [attempted, failed]
      exact h.concat_other (by simp [Event.Compiles, Except.map]) (by simp [Event.Resets])
    · rw [attempted, passed]
      exact h.concat_compile ⟨p, rfl, canonical⟩ holds

end Memory

/-- A way to use a cache whose scripts are on a disk. -/
inductive Use where
  | compile (p : Path)
  | compileMany (paths : List Path)
  | reset
  /-- A cycle of a watch on local files. -/
  | watch (w : LocalWatch)
  /-- A cycle of a watch on a peer that answers so. -/
  | poll (w : FleetWatch) (answer : Except Http.NetworkError Http.Response)
  | compileAll (w : LocalWatch) (force : Bool)

namespace Use

variable {σ τ : Type} {R : σ → τ → Prop} {rt : Runtime σ} {rt' : Runtime τ}

def act (d : Disk) (rt : Runtime σ) : Use → EngineM σ Unit
  | .compile p => rt.compileOne p
  | .compileMany paths => do let _ ← rt.compileMany paths
  | .reset => rt.resetAll
  | .watch w => do let _ ← w.cycle d rt
  | .poll w answer => do let _ ← w.cycle (fun _ _ ↦ pure answer) rt
  | .compileAll w force => do let _ ← w.compileAll d rt force

theorem alike (h : Runtime.Alike R rt rt') (d : Disk) (u : Use) :
    EngineM.Alike R (u.act d rt) (u.act d rt') := by
  cases u with
  | compile p => exact h.compileOne p
  | compileMany paths => exact .bind (h.compileMany paths) fun _ ↦ .pure ()
  | reset => exact h.resetAll
  | watch w => exact .bind (h.cycle w d) fun _ ↦ .pure ()
  | poll w answer =>
    refine .bind (h.poll w fun url request ↦ ?_) fun _ ↦ .pure ()
    intro s t related
    exact ⟨rfl, related⟩
  | compileAll w force => exact .bind (h.compileAll w d force) fun _ ↦ .pure ()

end Use

/-- What can happen to a cache and to the disk that it is for. -/
inductive Occurrence where
  | use (u : Use)
  | switch (on : Bool)
  | change (d : Disk)

/-- A cache in memory and a disk, with the history of the cache. -/
structure World where
  disk : Disk
  cache : Memory
  history : List Event

namespace World

/-- A new cache. -/
def new (d : Disk) (loaded enabled : Bool) : World := ⟨d, { loaded, enabled }, []⟩

def step (s : World) : Occurrence → World
  | .use u =>
    let calls := ((u.act s.disk (Memory.runtime s.disk).traced).runFrom (s.cache, [])).2.2
    { s with
      cache := ((u.act s.disk (Memory.runtime s.disk)).runFrom s.cache).2
      history := s.history ++ calls.map (Event.mk s.disk) }
  | .switch on => { s with cache := { s.cache with enabled := on } }
  | .change d => { s with disk := d }

def run (s : World) (occurrences : List Occurrence) : World := occurrences.foldl step s

theorem accounts_step {s : World} (h : Accounts s.history s.cache) (o : Occurrence) :
    Accounts (s.step o).history (s.step o).cache := by
  cases o with
  | switch on => exact h
  | change d => exact h
  | use u =>
    have alike := u.alike (Memory.keeps_accounts s.history s.disk).alike s.disk
    have start : Accounts (s.history ++ [].map (Event.mk s.disk)) s.cache := by simpa using h
    obtain ⟨-, same, holds⟩ := alike (s.cache, []) s.cache ⟨rfl, start⟩
    rw [same] at holds
    exact holds

theorem accounts_run {s : World} (h : Accounts s.history s.cache) (occurrences : List Occurrence) :
    Accounts (s.run occurrences).history (s.run occurrences).cache := by
  induction occurrences generalizing s with
  | nil => exact h
  | cons o occurrences ih => exact ih (accounts_step h o)

end World

namespace Memory

/-- A file is compiled and recorded, or nothing changes. -/
theorem compileOne_cases (d : Disk) (c : Memory) (p : Path) :
    let run := ((runtime d).compileOne p).runFrom c
    ((c.loaded = false ∨ c.enabled = false ∨ Rejected d p) ∧ ∃ e, run = (.error e, c)) ∨
      ∃ k m, c.Active ∧ d.canonicalize p = .ok k ∧ d.HoldsScript k m ∧
        run = (.ok (), c.record k m) := by
  intro run
  by_cases active : c.Active
  · have attempt := runFrom_attempt (d := d) active p
    rcases check_cases d p with ⟨rejected, reason, failed⟩ | ⟨k, m, canonical, holds, passed⟩
    · left
      refine ⟨.inr (.inr rejected), .compileFailed p reason, ?_⟩
      simp only [run, Runtime.compileOne, EngineM.runFrom_bind_ok attempt, failed, attempted]
      rfl
    · right
      refine ⟨k, m, active, canonical, holds, ?_⟩
      simp only [run, Runtime.compileOne, EngineM.runFrom_bind_ok attempt, passed, attempted]
      rfl
  · left
    obtain ⟨e, refused⟩ := exists_error_of_not_active (d := d) active
    constructor
    · obtain ⟨_ | _, _ | _, scripts⟩ := c
      · exact .inl rfl
      · exact .inl rfl
      · exact .inr (.inl rfl)
      · exact absurd ⟨rfl, rfl⟩ active
    · have attempt : ((runtime d).attempt p).runFrom c = (.error e, c) :=
        EngineM.runFrom_bind_error refused _
      exact ⟨e, EngineM.runFrom_bind_error attempt _⟩

end Memory

end ScriptCache
