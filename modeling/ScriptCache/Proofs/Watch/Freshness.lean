import ScriptCache.Proofs.Reconcile.Batches
import ScriptCache.Proofs.Watch.Local

/-!
# Fresh and stale files

Compiling what a cache does not hold fresh and watching for what is stale are two readings of one
comparison. Files that are compiled are fresh from then on, so that the same files are left over
however often this is repeated, and to compile the fresh ones as well makes no difference but for
files that the cache believes to be newer than they are.
-/

namespace ScriptCache

open Memory (Known isRefused outcome batch)

/-- The path of a file that was found. -/
def DiskEntry.found? : DiskEntry → Option Path
  | .found p _ => some p
  | .missing _ => none

section Wanted

variable {d : Disk} {entries : List DiskEntry} {r : Registry} {p : Path} {m : Int} {force : Bool}

/-- The files that are to be compiled for their entries. -/
def wantedOnDisk (entries : List DiskEntry) (r : Registry) (force : Bool) : List Path :=
  entries.filterMap (LocalWatch.wants r force)

theorem wantedOnDisk_forced (entries : List DiskEntry) (r : Registry) :
    wantedOnDisk entries r true = entries.filterMap DiskEntry.found? := by
  refine List.filterMap_congr ?_
  rintro (_ | _) - <;> rfl

theorem DiskEntry.IsKnown.unique {m' : Int} (h : (found p m).IsKnown d)
    (h' : (found p m').IsKnown d) : m = m' := by
  have same : Except.ok (SourceFile.mk p m) = Except.ok (SourceFile.mk p m') :=
    Eq.trans (Eq.symm h) h'
  cases same
  rfl

theorem mem_staleOnDisk (known : ∀ e ∈ entries, e.IsKnown d) (mem : .found p m ∈ entries) :
    p ∈ staleOnDisk entries r ↔ (r.get? p).any (· < m) := by
  rw [mem_staleOnDisk_iff]
  constructor
  · rintro ⟨m', k, mem', recorded, lt⟩
    cases (known _ mem).unique (known _ mem')
    simp [recorded, lt]
  · intro old
    obtain ⟨k, recorded, lt⟩ := (Option.any_eq_true _ _).mp old
    exact ⟨m, k, mem, recorded, of_decide_eq_true lt⟩

/-- A file is wanted if the cache does not hold it, or holds it stale. -/
theorem wanted_iff (r : Registry) (p : Path) (m : Int) :
    (!(r.get? p).any (m ≤ ·)) = (!r.contains p || (r.get? p).any (· < m)) := by
  rw [Registry.contains]
  cases r.get? p with
  | none => rfl
  | some k =>
    rw [Bool.eq_iff_iff]
    simp

theorem wantedOnDisk_eq (known : ∀ e ∈ entries, e.IsKnown d) :
    wantedOnDisk entries r false = (entries.filterMap DiskEntry.found?).filter fun p ↦
      !r.contains p || (staleOnDisk entries r).contains p := by
  rw [wantedOnDisk, List.filter_filterMap]
  refine List.filterMap_congr fun e mem ↦ ?_
  cases e with
  | missing => rfl
  | found p m =>
    have stale : (staleOnDisk entries r).contains p = (r.get? p).any (· < m) := by
      rw [Bool.eq_iff_iff, List.contains_iff_mem]
      exact mem_staleOnDisk known mem
    rw [LocalWatch.wants, Bool.false_or, wanted_iff, DiskEntry.found?, Option.filter_some, stale]

/-- What is wanted and cached is stale. -/
theorem filter_wantedOnDisk (entries : List DiskEntry) (r : Registry) :
    (wantedOnDisk entries r false).filter r.contains = staleOnDisk entries r := by
  rw [wantedOnDisk, List.filter_filterMap, staleOnDisk, ← List.filterMap_eq_map,
    List.filterMap_filter]
  refine List.filterMap_congr fun e _ ↦ ?_
  cases e with
  | missing => rfl
  | found p m =>
    rw [LocalWatch.wants, Bool.false_or, wanted_iff, DiskEntry.isStale]
    cases cached : r.get? p with
    | none => simp [Registry.contains, cached, Option.filter_some]
    | some k =>
      have held : r.contains p = true := by simp [Registry.contains, cached]
      by_cases old : k < m <;> simp [held, old, DiskEntry.path, Option.filter_some]

theorem wants_found_eq_some_iff {q : Path} :
    LocalWatch.wants r force (.found p m) = some q ↔
      p = q ∧ (force ∨ ∀ k, r.get? p = some k → k < m) := by
  cases force <;> cases cached : r.get? p <;> simp [LocalWatch.wants, cached]
  exact and_comm

theorem exists_found_of_wanted (wanted : p ∈ wantedOnDisk entries r force) :
    ∃ m, .found p m ∈ entries := by
  obtain ⟨e, mem, wants⟩ := List.mem_filterMap.mp wanted
  cases e with
  | missing => cases wants
  | found q m =>
    obtain ⟨rfl, -⟩ := wants_found_eq_some_iff.mp wants
    exact ⟨m, mem⟩

theorem known_wantedOnDisk (known : ∀ e ∈ entries, e.IsKnown d) :
    ∀ p ∈ wantedOnDisk entries r force, Known d p := by
  intro p wanted
  obtain ⟨m, mem⟩ := exists_found_of_wanted wanted
  exact ⟨m, known _ mem⟩

theorem mem_wantedOnDisk (known : ∀ e ∈ entries, e.IsKnown d) (mem : .found p m ∈ entries) :
    p ∈ wantedOnDisk entries r force ↔ force ∨ ∀ k, r.get? p = some k → k < m := by
  rw [wantedOnDisk, List.mem_filterMap]
  constructor
  · rintro ⟨e, mem', wanted⟩
    cases e with
    | missing => cases wanted
    | found q m' =>
      obtain ⟨rfl, old⟩ := wants_found_eq_some_iff.mp wanted
      cases (known _ mem).unique (known _ mem')
      exact old
  · intro wanted
    exact ⟨_, mem, wants_found_eq_some_iff.mpr ⟨rfl, wanted⟩⟩

theorem exists_get?_of_not_wanted (known : ∀ e ∈ entries, e.IsKnown d)
    (mem : .found p m ∈ entries) (fresh : p ∉ wantedOnDisk entries r force) :
    ∃ k, r.get? p = some k ∧ m ≤ k := by
  rw [mem_wantedOnDisk known mem] at fresh
  push Not at fresh
  exact fresh.2

end Wanted

section Batch

variable {d : Disk} {entries : List DiskEntry} {force : Bool} {p : Path} {m : Int}

/-- A batch of wanted files leaves all other files of the cache as they are. -/
theorem get?_batch_of_not_found (c : Memory) (known : ∀ e ∈ entries, e.IsKnown d)
    (other : ∀ m, .found p m ∉ entries) :
    (batch d c (wantedOnDisk entries c.scripts force)).scripts.get? p = c.scripts.get? p := by
  rcases Memory.get?_batch c (known_wantedOnDisk known) p with ⟨-, wanted, -⟩ | ⟨-, kept⟩
  · obtain ⟨m, mem⟩ := exists_found_of_wanted wanted
    exact absurd mem (other m)
  · exact kept

/-- A batch of wanted files records those that can be compiled with their times. -/
theorem get?_batch_of_found (c : Memory) (known : ∀ e ∈ entries, e.IsKnown d)
    (mem : .found p m ∈ entries) :
    let wanted := wantedOnDisk entries c.scripts force
    (batch d c wanted).scripts.get? p =
      if p ∈ wanted ∧ isRefused d p = false then some m else c.scripts.get? p := by
  intro wanted
  rcases Memory.get?_batch c (known_wantedOnDisk known) p with
    ⟨accepted, listed, m', file, recorded⟩ | ⟨refused, kept⟩
  · cases (known _ mem).unique file
    rw [if_pos ⟨listed, accepted⟩]
    exact recorded
  · rw [if_neg]
    · exact kept
    · rintro ⟨listed, accepted⟩
      rcases refused with refused | unlisted
      · rw [accepted] at refused
        cases refused
      · exact unlisted listed

/-- After a batch of the wanted files those are wanted that could not be compiled. -/
theorem wantedOnDisk_batch (c : Memory) (known : ∀ e ∈ entries, e.IsKnown d) :
    let wanted := wantedOnDisk entries c.scripts false
    wantedOnDisk entries (batch d c wanted).scripts false = wanted.filter (isRefused d) := by
  intro wanted
  calc wantedOnDisk entries (batch d c wanted).scripts false
      = entries.filterMap fun e ↦ (LocalWatch.wants c.scripts false e).filter (isRefused d) := by
        refine List.filterMap_congr fun e mem ↦ ?_
        cases e with
        | missing => rfl
        | found p m =>
          have now : (batch d c wanted).scripts.get? p = _ := get?_batch_of_found c known mem
          by_cases listed : p ∈ wantedOnDisk entries c.scripts false
          · have old := (mem_wantedOnDisk known mem).mp listed
            rw [wants_found_eq_some_iff.mpr ⟨rfl, old⟩, Option.filter_some]
            cases refused : isRefused d p with
            | true =>
              rw [if_neg fun both ↦ by simp [refused] at both] at now
              exact wants_found_eq_some_iff.mpr ⟨rfl, now ▸ old⟩
            | false =>
              rw [if_pos ⟨listed, refused⟩] at now
              simp [LocalWatch.wants, now]
          · obtain ⟨k, cached, late⟩ := exists_get?_of_not_wanted known mem listed
            rw [if_neg fun both ↦ listed both.1] at now
            simp [LocalWatch.wants, now, cached, late]
    _ = wanted.filter (isRefused d) := List.filter_filterMap.symm

/-- After a batch of the wanted files every file is fresh, or it could not be compiled. -/
theorem fresh_batch (c : Memory) (known : ∀ e ∈ entries, e.IsKnown d)
    (mem : .found p m ∈ entries) :
    let wanted := wantedOnDisk entries c.scripts false
    (∃ k, (batch d c wanted).scripts.get? p = some k ∧ m ≤ k) ∨
      p ∈ (outcome d wanted).failed.map (·.1) := by
  intro wanted
  rw [Memory.failed_outcome, List.mem_filter, get?_batch_of_found c known mem]
  by_cases wants : p ∈ wanted
  · cases refused : isRefused d p with
    | true => exact .inr ⟨wants, rfl⟩
    | false => exact .inl ⟨m, if_pos ⟨wants, rfl⟩, le_rfl⟩
  · left
    rw [if_neg fun both ↦ wants both.1]
    exact exists_get?_of_not_wanted known mem wants

/-- To compile the fresh files as well makes no difference, but for those that the cache had with a
later time. -/
theorem get?_batch_forced (c : Memory) (known : ∀ e ∈ entries, e.IsKnown d) (p : Path) :
    (batch d c (wantedOnDisk entries c.scripts true)).scripts.get? p =
        (batch d c (wantedOnDisk entries c.scripts false)).scripts.get? p ∨
      ∃ m k, .found p m ∈ entries ∧ c.scripts.get? p = some k ∧ m < k := by
  by_cases found : ∃ m, .found p m ∈ entries
  · obtain ⟨m, mem⟩ := found
    have forced : p ∈ wantedOnDisk entries c.scripts true :=
      (mem_wantedOnDisk known mem).mpr (.inl rfl)
    rw [get?_batch_of_found c known mem, get?_batch_of_found c known mem]
    cases refused : isRefused d p with
    | true => simp
    | false =>
      by_cases wants : p ∈ wantedOnDisk entries c.scripts false
      · simp [forced, wants]
      · obtain ⟨k, cached, late⟩ := exists_get?_of_not_wanted known mem wants
        rcases late.eq_or_lt with rfl | later
        · simp [forced, wants, cached]
        · exact .inr ⟨m, k, mem, cached, later⟩
  · have other (m : Int) : .found p m ∉ entries := fun mem ↦ found ⟨m, mem⟩
    rw [get?_batch_of_not_found c known other, get?_batch_of_not_found c known other]
    exact .inl rfl

end Batch

/-- What failed in a batch fails again, and nothing else is compiled with it. -/
theorem Memory.outcome_filter_isRefused (d : Disk) (paths : List Path) :
    outcome d (paths.filter (isRefused d)) =
      { compiled := [], failed := (outcome d paths).failed } := by
  have none_compiled : (outcome d (paths.filter (isRefused d))).compiled = [] := by
    rw [compiled_outcome, List.filter_filter, List.filter_eq_nil_iff]
    simp
  rw [← none_compiled, ← failed_filter_isRefused]

theorem Memory.runFrom_status_traced {d : Disk} {c : Memory} (active : c.Active)
    (calls : List Call) :
    (runtime d).traced.status.runFrom (c, calls) =
      (.ok c.scripts, c, calls ++ [.loaded true, .enabled true, .scripts c.scripts]) := by
  obtain ⟨loaded, enabled, scripts⟩ := c
  obtain ⟨rfl, rfl⟩ := active
  have kept : calls ++ [.loaded true, .enabled true, .scripts scripts] =
      ((calls ++ [.loaded true]) ++ [.enabled true]) ++ [Call.scripts scripts] := by simp
  rw [kept]
  rfl

/-- What an active cache is asked after it has shown its scripts. -/
theorem Memory.exists_runFrom_status_bind {α : Type} {d : Disk} {c : Memory} (active : c.Active)
    {f : Registry → EngineM (Memory × List Call) α} {P : List Call → Except EngineError α → Prop}
    (emits : (f c.scripts).Emits P) :
    ∃ result c₁ calls, ((runtime d).traced.status >>= f).runFrom (c, []) =
      (result, c₁, [.loaded true, .enabled true, .scripts c.scripts] ++ calls) ∧ P calls result := by
  obtain ⟨result, c₁, calls, ran, holds⟩ :=
    emits c [.loaded true, .enabled true, .scripts c.scripts]
  exact ⟨result, c₁, calls, (EngineM.runFrom_bind_ok (runFrom_status_traced active []) f).trans ran,
    holds⟩

namespace LocalWatch

variable {w : LocalWatch} {d : Disk} {c : Memory} {force : Bool}

theorem runFrom_compileAll (active : c.Active) :
    let wanted := wantedOnDisk (w.entries d) c.scripts force
    (w.compileAll d (Memory.runtime d) force).runFrom c =
      (.ok (outcome d wanted), batch d c wanted) := by
  intro wanted
  rw [compileAll, EngineM.runFrom_bind_ok (Memory.runFrom_status active)]
  exact Memory.runFrom_compileMany active wanted

/-- An active cache is asked to compile all that is wanted. -/
theorem mutations_compileAll (active : c.Active) :
    Call.mutations ((w.compileAll d (Memory.runtime d).traced force).runFrom (c, [])).2.2 =
      (wantedOnDisk (w.entries d) c.scripts force).map .compile := by
  have asked : ∃ result c₁ calls, (w.compileAll d (Memory.runtime d).traced force).runFrom (c, []) =
      (result, c₁, [.loaded true, .enabled true, .scripts c.scripts] ++ calls) ∧
        Batch (wantedOnDisk (w.entries d) c.scripts force) calls result :=
    Memory.exists_runFrom_status_bind active ((Memory.runtime d).emits_compileMany _)
  obtain ⟨result, c₁, calls, traced, made⟩ := asked
  have untraced : (w.compileAll d (Memory.runtime d) force).runFrom c = _ :=
    EngineM.runFrom_untraced (fun kept ↦ kept.alike.compileAll w d force) c
  rw [runFrom_compileAll active, traced] at untraced
  have complete : Call.Active calls := made.exact.isOk_iff.mp ⟨_, (congrArg Prod.fst untraced).symm⟩
  rw [traced, ← (made.complete complete).1]
  rfl

end LocalWatch

end ScriptCache
