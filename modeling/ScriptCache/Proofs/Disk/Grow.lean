import ScriptCache.Proofs.Disk.Place

/-!
# Making directories

Making the directories of a path adds empty directories, one after the other, whether it succeeds
or not. Where they are there, nothing is added.
-/

namespace ScriptCache.Disk

open ScriptCache.Path (IsName)

variable {d e f : Disk} {follow : Bool} {p : Path} {names above : List String} {name : String}

theorem agreeOff_makeEmpty (dir : d.shape? above = some .dir)
    (vacant : d.shape? (above ++ [name]) = none) (t : Timestamp) :
    AgreeOff (above ++ [name]) d (d.put (above ++ [name]) (.dir [] t)) :=
  agreeOff_put dir Node.childless_empty (cleared_of_not_dir (by simp [vacant]))

/-- Empty directories are made at free names. -/
inductive Grows (d : Disk) : Disk → Prop where
  | refl : Grows d d
  | step {e : Disk} {above : List String} {name : String} (before : Grows d e)
      (dir : e.shape? above = some .dir) (vacant : e.shape? (above ++ [name]) = none)
      (isName : IsName name) : Grows d (e.put (above ++ [name]) (.dir [] e.now))

namespace Grows

theorem trans (h : Grows d e) (h' : Grows e f) : Grows d f := by
  induction h' with
  | refl => exact h
  | step _ dir vacant isName ih => exact .step ih dir vacant isName

theorem workingDir (h : Grows d e) : e.workingDir = d.workingDir := by
  induction h with
  | refl => rfl
  | step _ _ _ _ ih => exact ih

theorem now (h : Grows d e) : e.now = d.now := by
  induction h with
  | refl => rfl
  | step _ _ _ _ ih => exact ih

theorem shape (h : Grows d e) {shape : Node.Shape} (found : d.shape? names = some shape) :
    e.shape? names = some shape := by
  induction h with
  | refl => exact found
  | @step e above name before dir vacant isName ih =>
    have other : names ≠ above ++ [name] := by
      rintro rfl
      rw [ih] at vacant
      cases vacant
    rw [(agreeOff_makeEmpty dir vacant e.now).shape names other, ih]

theorem locate (h : Grows d e) (located : d.locate follow p = .ok names) :
    e.locate follow p = .ok names :=
  locate_mono h.workingDir (fun _ _ ↦ h.shape) located

theorem read (h : Grows d e) {content : List UInt8} (read : d.read p = .ok content) :
    e.read p = .ok content := by
  obtain ⟨names, t, located, shape⟩ := read_eq_ok_iff.mp read
  exact read_eq_ok_iff.mpr ⟨names, t, h.locate located, h.shape shape⟩

end Grows

theorem grows_of_makeDir (h : d.makeDir p = .ok e) : Grows d e := by
  rw [makeDir, make] at h
  cases found : d.find false (trimSlashes p) with
  | error e => simp [found] at h
  | ok f =>
    cases f with
    | node names => simp [found] at h
    | vacant dir name =>
      simp only [found, Except.ok.injEq] at h
      subst h
      obtain ⟨-, descended⟩ := find_eq_ok_iff.mp found
      obtain ⟨count, -, reaches⟩ := reaches_of_descend descended
      obtain ⟨looksUp, isName⟩ := reaches.vacant_looksUp (areSteps_steps _)
      exact .step .refl looksUp.dir looksUp.child isName

theorem grows_makeChain (d : Disk) (ps : List Path) : Grows d (d.makeChain ps).1 := by
  induction ps generalizing d with
  | nil => exact .refl
  | cons p above ih =>
    have higher := ih d
    rw [makeChain]
    dsimp only
    split
    · exact .refl
    · split
      · split
        · rename_i reached
          rw [reached] at higher
          refine higher.trans ?_
          split
          · rename_i made
            exact grows_of_makeDir made
          · exact .refl
        · rename_i reached
          rwa [reached] at higher
      · split
        · rename_i made
          exact grows_of_makeDir made
        · exact .refl

theorem grows_makeDirs (d : Disk) (p : Path) : Grows d (d.makeDirs p).1 := grows_makeChain d _

/-- A path keeps its slashes, or it has no more at its end. -/
theorem trimSlashes_eq_or (p : Path) :
    trimSlashes p = p ∨ trimSlashes p ≠ "" ∧ (trimSlashes p).endsWith "/" = false := by
  unfold trimSlashes
  split
  · exact .inl rfl
  · rename_i other
    right
    have kept : p.toList.reverse.dropWhile (· = '/') ≠ [] := by
      intro all
      refine other (List.all_eq_true.mpr fun c mem ↦ ?_)
      exact List.dropWhile_eq_nil_iff.mp all c (List.mem_reverse.mpr mem)
    refine ⟨by simpa using kept, Bool.eq_false_iff.mpr fun ends ↦ ?_⟩
    rw [Path.endsWith_slash_iff, String.toList_ofList, List.getLast?_reverse] at ends
    have first := List.head?_dropWhile_not (· = '/') p.toList.reverse
    rw [ends] at first
    simp at first

theorem legal_trimSlashes (legal : Legal p) (full : trimSlashes p ≠ "") :
    Legal (trimSlashes p) := by
  obtain ⟨count, eq⟩ := exists_eq_trimSlashes_append p
  rw [eq] at legal
  exact legal.of_append full

theorem isAbsolute_trimSlashes (full : trimSlashes p ≠ "") :
    (trimSlashes p).isAbsolute = p.isAbsolute := by
  obtain ⟨count, eq⟩ := exists_eq_trimSlashes_append p
  have head : p.toList.head? = (trimSlashes p).toList.head? := by
    have full : (trimSlashes p).toList ≠ [] := by simpa using full
    rw [congrArg String.toList eq, String.toList_append, List.head?_append,
      List.head?_eq_some_head full, Option.some_or]
  rw [Bool.eq_iff_iff, Path.isAbsolute_iff, Path.isAbsolute_iff, head]

/-- Where there is something under a path, its name is taken. -/
theorem find_trimSlashes (located : d.locate true p = .ok names) :
    ∃ taken, d.find false (trimSlashes p) = .ok (.node taken) := by
  obtain ⟨legal, count, enough, reaches⟩ := locate_eq_ok_iff.mp located
  have unfollowed {todo : List String} {names : List String} {count : Nat}
      (h : d.Reaches true (d.start p) todo (.node names) count) (enough : count ≤ linkLimit) :
      ∃ taken, d.descend false linkLimit (d.start p) todo = .ok (.node taken) := by
    obtain same | ⟨last, -, less, same, -, le⟩ := h.unfollow
    · exact ⟨names, descend_of_reaches same enough⟩
    · exact ⟨last, descend_of_reaches same (Nat.le_trans le enough)⟩
  obtain same | ⟨full, plain⟩ := trimSlashes_eq_or p
  · rw [same]
    obtain ⟨taken, descended⟩ := unfollowed reaches enough
    exact ⟨taken, find_eq_ok_iff.mpr ⟨legal, descended⟩⟩
  · have parts : ∃ middle first, d.Reaches true (d.start p) p.parts (.node middle) first ∧
        first ≤ linkLimit := by
      rw [steps_eq] at reaches
      split at reaches
      · obtain ⟨middle, first, second, before, -, sum⟩ := reaches.split (by simp)
        exact ⟨middle, first, before, by omega⟩
      · exact ⟨names, count, by simpa using reaches, enough⟩
    obtain ⟨middle, first, before, enough⟩ := parts
    obtain ⟨taken, descended⟩ := unfollowed before enough
    refine ⟨taken, find_eq_ok_iff.mpr ⟨legal_trimSlashes legal full, ?_⟩⟩
    rw [start, isAbsolute_trimSlashes full, ← start, steps_eq, parts_trimSlashes, plain]
    simpa using descended

/-- Directories that are there are not made again. -/
theorem makeDirs_of_dir (located : d.locate true p = .ok names) (dir : d.shape? names = some .dir) :
    d.makeDirs p = (d, .ok ()) := by
  have legal := (locate_eq_ok_iff.mp located).1
  obtain ⟨entries, t, node⟩ := shape?_eq_dir_iff.mp dir
  obtain ⟨other, found⟩ := find_trimSlashes located
  have isDir : d.isDir p := by
    rw [Disk.isDir, stat, get, located]
    simp [node, Node.isDir]
  have taken : d.makeDir p = .error .exists := by rw [makeDir, make, found]
  have full : p.isEmpty = false := by simpa using legal.ne_empty
  rw [makeDirs, makeChain]
  simp [full, taken, isDir]

/-- A directory that is missing in one that is there. -/
theorem makeDirs_of_makeDir (full : p ≠ "") (made : d.makeDir p = .ok e) :
    d.makeDirs p = (e, .ok ()) := by
  have full : p.isEmpty = false := by simpa using full
  rw [makeDirs, makeChain, made]
  simp [full, made]

end ScriptCache.Disk
