import ScriptCache.Engine.Memory
import ScriptCache.Proofs.Disk.Canonical
import ScriptCache.Proofs.Engine.Run
import ScriptCache.Proofs.Registry

/-!
# What a cache in memory does with a batch

Compiling files that are known by their canonical paths records the times of those that pass the
check, and leaves every other script of the cache as it was.
-/

namespace ScriptCache

namespace Memory

variable {d : Disk} {c : Memory} {p q : Path} {paths : List Path}

/-- The cache is there and switched on. -/
def Active (c : Memory) : Prop := c.loaded ∧ c.enabled

/-- The cache after the attempt to compile a file. -/
def attempted (d : Disk) (c : Memory) (p : Path) : Memory :=
  match check d p with
  | .ok file => c.record file.path file.mtime
  | .error _ => c

/-- The cache after a batch. -/
def batch (d : Disk) (c : Memory) (paths : List Path) : Memory := paths.foldl (attempted d) c

/-- What becomes of files that are compiled one after the other. -/
def outcome (d : Disk) (paths : List Path) : Outcome :=
  paths.foldr (fun p o ↦ o.cons p ((check d p).map fun _ ↦ ())) {}

theorem attempted_active (active : c.Active) : (attempted d c p).Active := by
  unfold attempted
  split <;> exact active

theorem batch_active (active : c.Active) (paths : List Path) : (batch d c paths).Active := by
  induction paths generalizing c with
  | nil => exact active
  | cons p paths ih => exact ih (attempted_active active)

theorem runFrom_requireActive (active : c.Active) :
    (runtime d).requireActive.runFrom c = (.ok (), c) := by
  obtain ⟨loaded, enabled, scripts⟩ := c
  obtain ⟨rfl, rfl⟩ := active
  rfl

/-- An inactive cache refuses. -/
theorem exists_error_of_not_active (inactive : ¬c.Active) :
    ∃ e, (runtime d).requireActive.runFrom c = (.error e, c) := by
  obtain ⟨_ | _, enabled, scripts⟩ := c
  · exact ⟨.notLoaded, rfl⟩
  · cases enabled with
    | false => exact ⟨.disabled, rfl⟩
    | true => exact absurd ⟨rfl, rfl⟩ inactive

theorem active_of_runFrom_status {α : Type} {f : Registry → EngineM Memory α} {a : α}
    {c₁ : Memory} (h : ((runtime d).status >>= f).runFrom c = (.ok a, c₁)) : c.Active := by
  by_cases active : c.Active
  · exact active
  · obtain ⟨e, refused⟩ := exists_error_of_not_active (d := d) active
    have failed : (runtime d).status.runFrom c = (.error e, c) :=
      EngineM.runFrom_bind_error refused _
    rw [EngineM.runFrom_bind_error failed] at h
    cases h

theorem runFrom_status (active : c.Active) :
    (runtime d).status.runFrom c = (.ok c.scripts, c) := by
  rw [Runtime.status, EngineM.runFrom_bind_ok (runFrom_requireActive active)]
  rfl

theorem run_compile (d : Disk) (p : Path) (c : Memory) :
    (compile d p).run c = ((check d p).map fun _ ↦ (), attempted d c p) := by
  unfold compile attempted
  cases check d p <;> rfl

theorem runFrom_attempt (active : c.Active) (p : Path) :
    ((runtime d).attempt p).runFrom c =
      (.ok ((check d p).map fun _ ↦ ()), attempted d c p) := by
  rw [Runtime.attempt, EngineM.runFrom_bind_ok (runFrom_requireActive active),
    EngineM.runFrom_lift]
  exact congrArg (fun r ↦ (Except.ok r.1, r.2)) (run_compile d p c)

theorem runFrom_compileMany (active : c.Active) (paths : List Path) :
    ((runtime d).compileMany paths).runFrom c =
      (.ok (outcome d paths), batch d c paths) := by
  induction paths generalizing c with
  | nil => rfl
  | cons p paths ih =>
    rw [Runtime.compileMany, EngineM.runFrom_bind_ok (runFrom_attempt active p),
      EngineM.runFrom_bind_ok (ih (attempted_active active))]
    rfl

theorem runFrom_resetAll (active : c.Active) :
    (runtime d).resetAll.runFrom c = (.ok (), { c with scripts := .empty }) := by
  rw [Runtime.resetAll, EngineM.runFrom_bind_ok (runFrom_requireActive active)]
  rfl

/-- Whether a file does not pass the check. -/
def isRefused (d : Disk) (p : Path) : Bool :=
  match check d p with
  | .ok _ => false
  | .error _ => true

theorem outcome_cons (p : Path) (paths : List Path) :
    outcome d (p :: paths) = (outcome d paths).cons p ((check d p).map fun _ ↦ ()) := rfl

theorem failed_outcome (d : Disk) (paths : List Path) :
    (outcome d paths).failed.map (·.1) = paths.filter (isRefused d) := by
  induction paths with
  | nil => rfl
  | cons p paths ih =>
    rw [outcome_cons, List.filter_cons, ← ih]
    cases check : check d p <;> simp [Outcome.cons, isRefused, check, Except.map]

theorem compiled_outcome (paths : List Path) :
    (outcome d paths).compiled = paths.filter fun p ↦ !isRefused d p := by
  induction paths with
  | nil => rfl
  | cons p paths ih =>
    rw [outcome_cons, List.filter_cons, ← ih]
    cases check : check d p <;> simp [Outcome.cons, isRefused, check, Except.map]

theorem length_compiled_outcome (d : Disk) (paths : List Path) :
    (outcome d paths).compiled.length = paths.length - (outcome d paths).failed.length := by
  have failed := congrArg List.length (failed_outcome d paths)
  have parts := List.length_eq_length_filter_add (l := paths) (isRefused d)
  rw [List.length_map] at failed
  rw [compiled_outcome, failed]
  omega

/-- What is left out of a batch, if none of it fails, does not change the failures. -/
theorem failed_outcome_filter {keep : Path → Bool} (failing : ∀ p ∈ paths, isRefused d p → keep p) :
    (outcome d (paths.filter keep)).failed = (outcome d paths).failed := by
  induction paths with
  | nil => rfl
  | cons p paths ih =>
    obtain ⟨first, others⟩ := List.forall_mem_cons.mp failing
    rw [List.filter_cons]
    cases verdict : check d p with
    | error reason =>
      have kept : keep p := first (by simp [isRefused, verdict])
      rw [if_pos kept, outcome_cons, outcome_cons, verdict]
      exact congrArg ((p, reason) :: ·) (ih others)
    | ok file =>
      have skipped : (outcome d (p :: paths)).failed = (outcome d paths).failed := by
        rw [outcome_cons, verdict]
        rfl
      rw [skipped, ← ih others]
      split
      · rw [outcome_cons, verdict]
        rfl
      · rfl

/-- Compiling files that failed before fails with the same reasons. -/
theorem failed_filter_isRefused (paths : List Path) :
    (outcome d (paths.filter (isRefused d))).failed = (outcome d paths).failed :=
  failed_outcome_filter fun _ _ refused ↦ refused

theorem batch_of_refused (refused : ∀ p ∈ paths, isRefused d p) : batch d c paths = c := by
  induction paths generalizing c with
  | nil => rfl
  | cons p paths ih =>
    have same : attempted d c p = c := by
      have first := refused p List.mem_cons_self
      unfold attempted isRefused at *
      split <;> simp_all
    rw [batch, List.foldl_cons, same]
    exact ih fun q hq ↦ refused q (List.mem_cons_of_mem _ hq)

/-- The path is the one by which the cache knows a file. -/
def Known (d : Disk) (p : Path) : Prop := ∃ m, d.sourceFile p = .ok ⟨p, m⟩

theorem eq_of_check {file found : SourceFile} (h : d.sourceFile p = .ok file)
    (passed : check d p = .ok found) : found = file := by
  simp only [check, h, Except.mapError] at passed
  cases read : d.read file.path with
  | error e => simp [read, bind, Except.bind] at passed
  | ok content =>
    cases parsed : Source.Statement.ofSource content with
    | error e => simp [read, parsed, bind, Except.bind] at passed
    | ok statements =>
      simp [read, parsed, bind, Except.bind, pure, Except.pure] at passed
      exact passed.symm

theorem sourceFile_of_check {file : SourceFile} (passed : check d p = .ok file) :
    d.sourceFile p = .ok file := by
  cases looked : d.sourceFile p with
  | ok found => rw [eq_of_check looked passed]
  | error e => simp [check, looked, Except.mapError, bind, Except.bind] at passed

theorem scripts_attempted {file : SourceFile} (passed : check d p = .ok file) :
    (attempted d c p).scripts = c.scripts.record file.path file.mtime := by
  simp [attempted, passed, record]

/-- A file that passes the check is recorded with its time, and nothing else changes. -/
theorem get?_attempted (c : Memory) (known : Known d p) (q : Path) :
    (isRefused d p = false ∧ q = p ∧
        ∃ m, d.sourceFile p = .ok ⟨p, m⟩ ∧ (attempted d c p).scripts.get? q = some m) ∨
      ((isRefused d p ∨ q ≠ p) ∧ (attempted d c p).scripts.get? q = c.scripts.get? q) := by
  obtain ⟨m, known⟩ := known
  cases passed : check d p with
  | error e => exact .inr ⟨.inl (by simp [isRefused, passed]), by simp [attempted, passed]⟩
  | ok file =>
    cases eq_of_check known passed
    have accepted : isRefused d p = false := by simp [isRefused, passed]
    rw [scripts_attempted passed]
    by_cases same : q = p
    · subst same
      exact .inl ⟨accepted, rfl, m, known, Registry.get?_record_self⟩
    · exact .inr ⟨.inr same, Registry.get?_record_of_ne same⟩

/-- After a batch, the files of it that pass the check are recorded with their times. -/
theorem get?_batch (c : Memory) (known : ∀ p ∈ paths, Known d p) (q : Path) :
    (isRefused d q = false ∧ q ∈ paths ∧
        ∃ m, d.sourceFile q = .ok ⟨q, m⟩ ∧
          (batch d c paths).scripts.get? q = some m) ∨
      ((isRefused d q ∨ q ∉ paths) ∧
        (batch d c paths).scripts.get? q = c.scripts.get? q) := by
  induction paths generalizing c with
  | nil => exact .inr ⟨.inr List.not_mem_nil, rfl⟩
  | cons p paths ih =>
    have first := get?_attempted c (known p List.mem_cons_self) q
    have others := ih (attempted d c p) fun p hp ↦ known p (List.mem_cons_of_mem _ hp)
    rw [batch, List.foldl_cons, ← batch]
    rcases others with ⟨accepted, mem, m, file, recorded⟩ | ⟨refused, kept⟩
    · exact .inl ⟨accepted, List.mem_cons_of_mem _ mem, m, file, recorded⟩
    · rw [kept]
      rcases first with ⟨accepted, rfl, m, file, recorded⟩ | ⟨refused', kept'⟩
      · exact .inl ⟨accepted, List.mem_cons_self, m, file, recorded⟩
      · refine .inr ⟨?_, kept'⟩
        by_cases q_refused : isRefused d q
        · exact .inl q_refused
        · refine .inr fun mem ↦ ?_
          rcases List.mem_cons.mp mem with rfl | mem
          · exact refused'.elim q_refused (· rfl)
          · exact refused.elim q_refused (· mem)

end Memory

end ScriptCache
