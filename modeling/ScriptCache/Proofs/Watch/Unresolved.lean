import ScriptCache.Proofs.Watch.Roots
import ScriptCache.Proofs.Watch.Vanishing

/-!
# Cached files that were removed

A file that was removed is known by the directory that its path names and by its name there. This is
the canonical path that it had, unless the path names no directory.
-/

namespace ScriptCache

theorem Disk.isAbsolute_of_sourceFile {d : Disk} {p : Path} {file : SourceFile}
    (looked : d.sourceFile p = .ok file) : file.path.isAbsolute := by
  obtain ⟨canonical, -⟩ := sourceFile_eq_ok_iff.mp looked
  obtain ⟨names, -, same⟩ := canonicalize_eq_ok_iff.mp canonical
  rw [← same]
  exact isAbsolute_absolute names

theorem Plan.of_unknown {p : Path} {r : Registry} (absent : ¬r.contains p) (threshold : Nat) :
    Plan.of (staleOnDisk [.missing p] r) (unresolvedOnDisk [.missing p] r) threshold =
      ⟨[], [], .clean⟩ := by
  simp [staleOnDisk, unresolvedOnDisk, DiskEntry.isStale, DiskEntry.isUnresolved, absent, Plan.of]

namespace LocalWatch

open Sample

end LocalWatch

end ScriptCache
