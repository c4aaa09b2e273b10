import ScriptCache.Proofs.Engine.Provenance
import ScriptCache.Proofs.Watch.Local

/-!
# Batches in any order

Several paths may lead to one script, and each of them has it recorded with the same time. So the
cache after a batch does not depend on the order of the batch, nor on what is listed in it twice.
-/

namespace ScriptCache

/-- Registries that answer alike are equal. -/
theorem Registry.eq_of_get? {r s : Registry} (same : ∀ p, r.get? p = s.get? p) : r = s := by
  have irrefl : Std.Irrefl fun e e' : Path × Int ↦ e.1 < e'.1 := ⟨fun e ↦ String.lt_irrefl e.1⟩
  have antisymm : Std.Antisymm fun e e' : Path × Int ↦ e.1 < e'.1 := by
    constructor
    intro e e' lt gt
    exact absurd (String.lt_trans lt gt) (String.lt_irrefl e.1)
  apply eq_of_entries
  apply r.sorted.eq_of_mem_iff s.sorted
  rintro ⟨p, m⟩
  rw [← get?_eq_some_iff, ← get?_eq_some_iff, same]

/-- The path leads to a script with this canonical path and this time. -/
def Disk.LeadsToScript (d : Disk) (p k : Path) (m : Int) : Prop :=
  d.canonicalize p = .ok k ∧ d.HoldsScript k m

namespace Memory

variable {d : Disk} {c : Memory} {p k : Path} {m : Int} {paths others : List Path}

theorem check_eq_ok_iff : check d p = .ok ⟨k, m⟩ ↔ d.LeadsToScript p k m := by
  constructor
  · intro passed
    rcases check_cases d p with ⟨-, reason, failed⟩ | ⟨k', m', canonical, holds, passed'⟩
    · cases passed.symm.trans failed
    · cases passed.symm.trans passed'
      exact ⟨canonical, holds⟩
  · rintro ⟨canonical, content, t, statements, stat, parsed, time⟩
    have looked : d.sourceFile p = .ok ⟨k, m⟩ :=
      Disk.sourceFile_eq_ok_iff.mpr ⟨canonical, _, stat, time⟩
    have read : d.read k = .ok content := Disk.read_eq_ok_iff_stat.mpr ⟨t, stat⟩
    simp [check, looked, read, parsed, Except.mapError, bind, Except.bind, pure, Except.pure]

theorem isRefused_eq_true_iff : isRefused d p ↔ ∀ k m, ¬d.LeadsToScript p k m := by
  simp only [← check_eq_ok_iff]
  unfold isRefused
  cases check d p with
  | error reason => simp
  | ok file => simpa using ⟨file.path, file.mtime, rfl⟩

theorem get?_attempted_eq_some_iff :
    (attempted d c p).scripts.get? k = some m ↔
      d.LeadsToScript p k m ∨ c.scripts.get? k = some m ∧ ∀ t, ¬d.LeadsToScript p k t := by
  simp only [← check_eq_ok_iff]
  cases passed : check d p with
  | error reason => simp [attempted, passed]
  | ok file =>
    obtain ⟨k', m'⟩ := file
    rw [scripts_attempted passed]
    by_cases same : k = k'
    · subst same
      constructor
      · intro recorded
        cases Registry.get?_record_self.symm.trans recorded
        exact .inl rfl
      · rintro (led | ⟨-, none⟩)
        · cases led
          exact Registry.get?_record_self
        · exact absurd rfl (none m')
    · rw [Registry.get?_record_of_ne same]
      constructor
      · intro kept
        refine .inr ⟨kept, ?_⟩
        intro t led
        cases led
        exact same rfl
      · rintro (led | ⟨kept, -⟩)
        · cases led
          exact absurd rfl same
        · exact kept

/-- The entries after a batch are those of the scripts in it, and the old ones of all others. -/
theorem get?_batch_eq_some_iff :
    (batch d c paths).scripts.get? k = some m ↔
      (∃ p ∈ paths, d.LeadsToScript p k m) ∨
        c.scripts.get? k = some m ∧ ∀ p ∈ paths, ∀ t, ¬d.LeadsToScript p k t := by
  induction paths generalizing c with
  | nil => simp [batch]
  | cons p paths ih =>
    rw [batch, List.foldl_cons, ← batch, ih, get?_attempted_eq_some_iff]
    constructor
    · rintro (⟨q, mem, leads⟩ | ⟨leads | ⟨kept, first⟩, others⟩)
      · exact .inl ⟨q, List.mem_cons_of_mem _ mem, leads⟩
      · exact .inl ⟨p, List.mem_cons_self, leads⟩
      · exact .inr ⟨kept, List.forall_mem_cons.mpr ⟨first, others⟩⟩
    · rintro (⟨q, mem, leads⟩ | ⟨kept, none⟩)
      · by_cases later : ∃ q ∈ paths, ∃ t, d.LeadsToScript q k t
        · -- both record the script, but with the same time
          obtain ⟨q', mem', t, leads'⟩ := later
          cases leads.2.unique leads'.2
          exact .inl ⟨q', mem', leads'⟩
        · push Not at later
          rcases List.mem_cons.mp mem with rfl | mem
          · exact .inr ⟨.inl leads, later⟩
          · exact absurd leads (later q mem m)
      · obtain ⟨first, others⟩ := List.forall_mem_cons.mp none
        exact .inr ⟨.inr ⟨kept, first⟩, others⟩

theorem batch_eq (c : Memory) (paths : List Path) :
    batch d c paths = { c with scripts := (batch d c paths).scripts } := by
  induction paths generalizing c with
  | nil => rfl
  | cons p paths ih =>
    have first : attempted d c p = { c with scripts := (attempted d c p).scripts } := by
      unfold attempted
      split <;> rfl
    rw [batch, List.foldl_cons, ← batch, ih, first]

/-- A batch does not depend on the order or on repetitions. -/
theorem batch_eq_of_mem_iff (same : ∀ p, p ∈ others ↔ p ∈ paths) :
    batch d c others = batch d c paths := by
  have scripts : (batch d c others).scripts = (batch d c paths).scripts := by
    apply Registry.eq_of_get?
    intro k
    apply Option.ext
    intro m
    simp only [get?_batch_eq_some_iff, same]
  rw [batch_eq, scripts, ← batch_eq]

/-- Compiling some files of a batch again changes nothing. -/
theorem batch_batch_of_subset (c : Memory) (subset : others ⊆ paths) :
    batch d (batch d c paths) others = batch d c paths := by
  have append : batch d (batch d c paths) others = batch d c (paths ++ others) :=
    List.foldl_append.symm
  rw [append]
  apply batch_eq_of_mem_iff
  intro p
  rw [List.mem_append]
  exact or_iff_left_of_imp fun mem ↦ subset mem

theorem mem_failed_outcome {reason : String} :
    (p, reason) ∈ (outcome d paths).failed ↔ p ∈ paths ∧ check d p = .error reason := by
  induction paths with
  | nil => simp [outcome]
  | cons q paths ih =>
    rw [outcome_cons, List.mem_cons, or_and_right, ← ih]
    cases verdict : check d q with
    | ok file =>
      have other : ¬(p = q ∧ check d p = .error reason) := by
        rintro ⟨rfl, failed⟩
        cases verdict.symm.trans failed
      simp [Except.map, Outcome.cons, other]
    | error reason' =>
      have first : (p, reason) = (q, reason') ↔ p = q ∧ check d p = .error reason := by
        constructor
        · intro same
          cases same
          exact ⟨rfl, verdict⟩
        · rintro ⟨rfl, failed⟩
          cases verdict.symm.trans failed
          rfl
      simp only [Except.map, Outcome.cons, List.mem_cons, first]

namespace Sample

/-- An empty script, a link to it, and a file that cannot be parsed. -/
def aliased : Disk where
  root := .dir [("a.php", .file [] (.of 10 0)), ("b.php", .link "a.php"),
    ("c.php", .file [0x3C, 0x3F, 0x70, 0x68, 0x70, 0x20, 0x7D] (.of 10 0))] (.of 1 0)
  workingDir := []
  now := .of 20 0

/-- The script from an earlier time, and one that is gone. -/
def dated : Memory := { scripts := .ofList [("/a.php", 5), ("/z.php", 7)] }

theorem leadsToScript_link : aliased.LeadsToScript "b.php" "/a.php" 10 := by
  have canonical : aliased.canonicalize "b.php" = .ok "/a.php" := by cbv
  have stat : aliased.stat "/a.php" = .ok (.file [] (.of 10 0)) := by cbv
  exact ⟨canonical, [], _, [], stat, LocalWatch.Sample.ofSource_nil, by decide⟩

theorem not_leadsToScript_faulty (k : Path) (m : Int) : ¬aliased.LeadsToScript "/c.php" k m := by
  have file : aliased.sourceFile "/c.php" = .ok ⟨"/c.php", 10⟩ := by cbv
  have content : aliased.read "/c.php" = .ok [0x3C, 0x3F, 0x70, 0x68, 0x70, 0x20, 0x7D] := by cbv
  rw [← check_eq_ok_iff]
  simp [check, file, content, Source.Lexer.ofSource_brace, bind, Except.bind, Except.mapError]

end Sample

end Memory

end ScriptCache
