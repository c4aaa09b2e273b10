import ScriptCache.Proofs.Disk.Overwrite
import ScriptCache.Proofs.Preload.Run

/-!
# Writing the artifact

The target is replaced by the whole text, or it stays as it is, whatever lies at the target and on
the way to it. Three disks show what is not promised: a target may be found only when directories on
its way are made, a target that is reached through itself is lost when a file takes its place, and a
draft that is a link is written through.
-/

namespace ScriptCache.Disk

open ScriptCache.Path (IsName)

variable {d e : Disk} {follow : Bool} {p target : Path} {names place above dir : List String}
  {draft name : String} {content : List UInt8}

/-! ## Reading sees shapes -/

theorem descend_congr (shape : ∀ names, e.shape? names = d.shape? names) (follow : Bool)
    (links : Nat) (here todo : List String) :
    e.descend follow links here todo = d.descend follow links here todo := by
  have dir {here : List String} {entries : Node.Entries} {t : Timestamp}
      (node : d.node? here = some (.dir entries t)) : e.shape? here = some .dir := by
    rw [shape, shape?_eq_dir_iff.mpr ⟨entries, t, node⟩]
  have looksUp {here : List String} {step : String} {child : Option Node.Shape}
      (l : d.LooksUp here step child) : e.LooksUp here step child :=
    ⟨by rw [shape, l.dir], l.ne_dot, l.ne_dots, l.short, by rw [shape, l.child]⟩
  fun_induction descend d follow links here todo with
  | case1 => rw [descend]
  | case2 links here step todo missing =>
    have missing : e.node? here = none := by
      have same := shape here
      rw [shape?, shape?, missing] at same
      exact Option.map_eq_none_iff.mp same
    rw [descend, missing]
  | case3 links here todo entries t node ih => rw [descend_stay (dir node), ih]
  | case4 links here todo entries t node _ ih => rw [descend_up (dir node), ih]
  | case5 links here step todo entries t node ne_dot ne_dots long =>
    obtain ⟨entries', t', node'⟩ := shape?_eq_dir_iff.mp (dir node)
    rw [descend, node']
    simp [ne_dot, ne_dots, long]
  | case6 links here step todo entries t node ne_dot ne_dots short lookup last
  | case7 links here step todo entries t node ne_dot ne_dots short lookup last
  | case8 links here step todo entries t node ne_dot ne_dots short target lookup last =>
    rw [descend_lookup (looksUp (Disk.looksUp node ne_dot ne_dots short)), lookup]
    simp [Node.shape, last]
  | case9 here step todo entries t node ne_dot ne_dots short target lookup on =>
    rw [descend_lookup (looksUp (Disk.looksUp node ne_dot ne_dots short)), lookup]
    exact if_neg on
  | case10 here step todo entries t node ne_dot ne_dots short target lookup on links start ih =>
    rw [descend_lookup (looksUp (Disk.looksUp node ne_dot ne_dots short)), lookup]
    exact (if_neg on).trans ih
  | case11 links here step todo entries t node ne_dot ne_dots short child other lookup ih =>
    rw [descend_lookup (looksUp (Disk.looksUp node ne_dot ne_dots short)), lookup, ← ih]
    cases child with
    | link target => exact absurd rfl (other target)
    | file | dir => rfl
  | case12 links here step todo node not_dir found =>
    have same := shape here
    rw [shape?, shape?, found, Option.map_some, Option.map_eq_some_iff] at same
    obtain ⟨node', found', same⟩ := same
    rw [descend, found']
    cases node with
    | dir entries t => exact absurd rfl (not_dir entries t)
    | file | link => cases node' <;> first | rfl | cases same

/-- Nothing but the shapes of nodes is seen when a path is read. -/
theorem read_congr (workingDir : e.workingDir = d.workingDir)
    (shape : ∀ names, e.shape? names = d.shape? names) (p : Path) : e.read p = d.read p := by
  have located : e.locate true p = d.locate true p := by
    simp only [locate, find, descend_congr shape, workingDir]
  rw [read, read, stat, stat, get, get, located]
  cases d.locate true p with
  | error cause => rfl
  | ok names =>
    have same := shape names
    rw [shape?, shape?] at same
    rcases before : d.node? names with - | ⟨_ | _ | _⟩ <;>
      rcases after : e.node? names with - | ⟨_ | _ | _⟩ <;>
      simp_all [Node.shape]

/-- What can be read is a file with a place, or what a link at the place leads to. -/
theorem exists_places_of_read (read : d.read p = .ok content) :
    ∃ init dir name, EndsIn p init name ∧ d.Places p dir name ∧
      d.shape? (dir ++ [name]) ≠ some .dir := by
  obtain ⟨names, t, located, file⟩ := read_eq_ok_iff.mp read
  obtain ⟨init, name, ends⟩ := exists_endsIn_of_file located file
  obtain ⟨dir, places, ⟨found, -⟩ | ⟨found, -⟩ | ⟨-, q, link⟩⟩ :=
    exists_places (find_of_locate located) ends
  · cases found
  · exact ⟨init, dir, name, ends, places, by rw [← Found.node.inj found, file]; simp⟩
  · exact ⟨init, dir, name, ends, places, by simp [link]⟩

/-! ## When the target is not replaced -/

/-- Taking away what was just written leaves nothing. -/
theorem removeFile_put (h : d.Places p above draft) (isOpen : d.Open (above ++ [draft]))
    (content : List UInt8) (t : Timestamp) :
    (d.put (above ++ [draft]) (.file content t)).removeFile p =
      .ok (d.erase (above ++ [draft])) := by
  have agree := agreeOff_put h.isDir (Node.childless_file (t := t) content)
    (cleared_of_not_dir isOpen.1)
  have placed := h.of_agreeOff agree (deadEnd_of_not_link isOpen.1 isOpen.2)
  have shape := @shape?_put_self d above draft h.isDir (.file content t)
  rw [removeFile, placed.locate_solid ⟨_, shape, id⟩]
  dsimp only
  rw [node?_put_self h.isDir, erase, put, erase, Node.erase_put]

/-- The target is not replaced: nothing is done but making directories, or the draft is taken away
again. In the second case the target is nothing that can be read. -/
theorem replaceFile_error {cause : IoError}
    (no_link : ∀ q, (d.prepared target).get false (draftPath target) ≠ .ok (.link q))
    (failed : (d.replaceFile target content).2 = .error cause) :
    (d.replaceFile target content).1 = d.prepared target ∨
      ∃ above draft, (d.prepared target).Places (draftPath target) above draft ∧
        (d.prepared target).Open (above ++ [draft]) ∧
        (d.replaceFile target content).1 = (d.prepared target).erase (above ++ [draft]) ∧
        ∀ old, (d.prepared target).read target ≠ .ok old := by
  have whole := failed
  have prepared_eq : d.prepared target = (d.makeDirs (artifactDir target)).1 := rfl
  rw [replaceFile] at failed ⊢
  rcases made : d.makeDirs (artifactDir target) with ⟨d₁, cause₁ | ⟨⟩⟩
  · left
    simp only [prepared_eq, made]
  · simp only [prepared_eq, made] at no_link failed ⊢
    cases written : d₁.write (draftPath target) content with
    | error cause₂ => exact .inl rfl
    | ok d₂ =>
      right
      obtain ⟨above, draft, drafted, isOpen, rfl⟩ := exists_drafted written no_link
      refine ⟨above, draft, drafted, isOpen, ?_, fun old read ↦ ?_⟩
      · rw [written] at failed
        dsimp only at failed ⊢
        split at failed
        · cases failed
        · rw [removeFile_put drafted isOpen]
      · obtain ⟨init, dir, name, ends, placed, not_dir⟩ := exists_places_of_read read
        have writable := writable_of_drafted made drafted isOpen ends placed not_dir
        rw [writable.replaceFile] at whole
        cases whole

/-- The target is what it was, on the disk with the directories on its way, and so is everything
else but the draft. -/
structure Kept (d e : Disk) (target : Path) : Prop where
  /-- What could be read can be read still. -/
  read : ∀ old, d.read target = .ok old → e.read target = .ok old
  /-- Nothing else can be read than what making directories leads to. -/
  read_iff : ∀ old, e.read target = .ok old ↔ (d.prepared target).read target = .ok old
  /-- Where nothing lay at the draft, reading fails for the same cause. -/
  read_eq : (∀ node, (d.prepared target).get false (draftPath target) ≠ .ok node) →
    e.read target = (d.prepared target).read target
  others : ∀ names shape, d.shape? names = some shape →
    (d.prepared target).locate false (draftPath target) ≠ .ok names →
    e.shape? names = some shape

theorem kept_prepared (d : Disk) (target : Path) : d.Kept (d.prepared target) target where
  read _ := (grows_prepared d target).read
  read_iff _ := Iff.rfl
  read_eq _ := rfl
  others _ _ found _ := (grows_prepared d target).shape found

/-- Without the draft nothing can be read that could not be read with it. -/
theorem not_read_of_erase (h : d.Places p above draft) (isOpen : d.Open (above ++ [draft]))
    (unread : ∀ old, d.read target ≠ .ok old) (old : List UInt8) :
    (d.erase (above ++ [draft])).read target ≠ .ok old := by
  intro read
  have agree := agreeOff_erase h.isDir (cleared_of_not_dir isOpen.1)
  have gone := @shape?_erase_self d above draft h.isDir
  have deadEnd : (d.erase (above ++ [draft])).DeadEnd (above ++ [draft]) :=
    deadEnd_of_not_link (by simp [gone]) (by simp [gone])
  refine unread old (agree.symm.read deadEnd ?_ read)
  intro names located
  obtain ⟨found, t, located', file⟩ := read_eq_ok_iff.mp read
  cases located.symm.trans located'
  constructor
  · rintro rfl
    rw [gone] at file
    cases file
  · rintro ⟨_, _, q, _, -, link, -⟩
    rw [gone] at link
    cases link

theorem kept_erase (drafted : (d.prepared target).Places (draftPath target) above draft)
    (isOpen : (d.prepared target).Open (above ++ [draft]))
    (unread : ∀ old, (d.prepared target).read target ≠ .ok old) :
    d.Kept ((d.prepared target).erase (above ++ [draft])) target where
  read old read := absurd ((grows_prepared d target).read read) (unread old)
  read_iff old := iff_of_false (not_read_of_erase drafted isOpen unread old) (unread old)
  read_eq no_draft := by
    have agree := agreeOff_erase drafted.isDir (cleared_of_not_dir isOpen.1)
    refine read_congr agree.workingDir (fun names ↦ ?_) target
    by_cases same : names = above ++ [draft]
    · rw [same, shape?_erase_self drafted.isDir, drafted.vacant_of_get no_draft]
    · exact agree.shape names same
  others names shape found away := by
    have agree := agreeOff_erase drafted.isDir (cleared_of_not_dir isOpen.1)
    have found := (grows_prepared d target).shape found
    rw [agree.shape names, found]
    rintro rfl
    refine away ?_
    rw [locate, drafted.find_present (by simp [found])]

namespace Artifact

/-- A disk with these entries in its working directory. -/
def stage (entries : Node.Entries) : Disk where
  root := .dir [("w", .dir entries default)] default
  workingDir := ["w"]
  now := default

/-- A target, and another file. -/
def plain : Disk := stage [("o", .file [120] default), ("t", .file [120] default)]

/-- A directory lies where the draft of the target is written. -/
def blocked : Disk := stage [(".t.tmp", .dir [] default), ("t", .file [120] default)]

/-- The target is a link to a directory beside it. -/
def circling : Disk := stage [("s", .dir [] default), ("t", .link "s")]

/-- The draft of the target is a link to another file. -/
def astray : Disk := stage [(".t.tmp", .link "o"), ("o", .file [120] default)]

theorem draftPath_eq : draftPath "t" = "./.t.tmp" := by cbv

theorem makeDirs_eq {d : Disk} (located : d.locate true "." = .ok ["w"])
    (isDir : d.shape? ["w"] = some .dir) : d.makeDirs (artifactDir "t") = (d, .ok ()) := by
  have same : artifactDir "t" = "." := by cbv
  rw [same, makeDirs_of_dir located isDir]

theorem drafted {d : Disk} (located : d.locate true "." = .ok ["w"])
    (isDir : d.shape? ["w"] = some .dir) (start : d.workingDir = ["w"]) :
    d.Places (draftPath "t") ["w"] ".t.tmp" := by
  rw [draftPath_eq]
  refine .of_locate located isDir ⟨by cbv, by decide, by cbv⟩ (by decide) (by cbv) ?_ (by cbv)
  rw [Disk.start, Disk.start, start]
  cbv

theorem placed {d : Disk} (isDir : d.shape? ["w"] = some .dir) (start : d.workingDir = ["w"]) :
    d.Places "t" ["w"] "t" := by
  have here : d.start "t" = ["w"] := by
    rw [Disk.start, start]
    cbv
  have steps : steps "t" = ["t"] := by cbv
  refine ⟨⟨by cbv, by decide, by cbv⟩, ⟨[], ⟨steps, by decide⟩, 0, by decide, ?_⟩, by cbv, isDir⟩
  rw [here]
  exact .here _

theorem writable_plain : plain.Writable "t" ["w"] ".t.tmp" ["w"] "t" := by
  have located : plain.locate true "." = .ok ["w"] := by cbv
  have isDir : plain.shape? ["w"] = some .dir := by cbv
  have missing : plain.shape? ["w", ".t.tmp"] = none := by cbv
  have old : plain.shape? ["w", "t"] = some (.file [120] default) := by cbv
  refine writable_of_drafted (makeDirs_eq located isDir) (drafted located isDir rfl) ?_
    (placed isDir rfl).ends.choose_spec.1 (placed isDir rfl) ?_
  · rw [Open, List.singleton_append, missing]
    simp
  · rw [List.singleton_append, old]
    simp

/-- Where a directory lies at the draft, nothing is written. -/
theorem writeArtifact_blocked :
    blocked.writeArtifact "t" "y" = (blocked, .error (.writeArtifact "t" .isDirectory)) := by
  have located : blocked.locate true "." = .ok ["w"] := by cbv
  have written : blocked.write "./.t.tmp" [121] = .error .isDirectory := by cbv
  have text : Utf8.encode "y" = [121] := by cbv
  rw [writeArtifact, replaceFile, makeDirs_eq located (by cbv)]
  simp only [text, draftPath_eq, written]
  rfl

end Artifact

namespace Artifact

/-- The directory on the way to the other target is made. -/
def opened : Disk :=
  stage [(".t.tmp", .dir [] default), ("b", .dir [] default), ("t", .file [120] default)]

theorem makeDirs_opened : blocked.makeDirs (artifactDir "b/../t") = (opened, .ok ()) := by
  have same : artifactDir "b/../t" = "b/.." := by cbv
  have ancestors : Path.ancestors "b/.." = ["b", ""] := by cbv
  have missing : blocked.makeDir "b/.." = .error .notFound := by cbv
  have chain : blocked.makeChain ["b", ""] = (opened, .ok ()) := by
    have made : blocked.makeDir "b" = .ok opened := by cbv
    rw [makeChain, made]
    simp only [made]
    rfl
  have taken : opened.makeDir "b/.." = .error .exists := by cbv
  have isDir : opened.isDir "b/.." := by cbv
  rw [same, makeDirs, ancestors, makeChain, missing, chain]
  simp only [taken, isDir]
  rfl

theorem writeArtifact_opened :
    blocked.writeArtifact "b/../t" "y" =
      (opened, .error (.writeArtifact "b/../t" .isDirectory)) := by
  have draft : draftPath "b/../t" = "b/../.t.tmp" := by cbv
  have written : opened.write "b/../.t.tmp" [121] = .error .isDirectory := by cbv
  have text : Utf8.encode "y" = [121] := by cbv
  rw [writeArtifact, replaceFile, makeDirs_opened]
  simp only [text, draft, written]
  rfl

theorem writeArtifact_astray :
    astray.writeArtifact "t" "y" =
      (stage [("o", .file [121] default), ("t", .link "o")], .ok ()) := by
  have written : astray.write "./.t.tmp" [121] =
      .ok (stage [(".t.tmp", .link "o"), ("o", .file [121] default)]) := by cbv
  have text : Utf8.encode "y" = [121] := by cbv
  have missing : (stage [(".t.tmp", .link "o"), ("o", .file [121] default)]).shape?
      (["w"] ++ ["t"]) = none := by cbv
  have located : (stage [(".t.tmp", .link "o"), ("o", .file [121] default)]).locate false
      "./.t.tmp" = .ok ["w", ".t.tmp"] := by cbv
  have moved := moveFile_of_places located (by cbv : _ = some (.link "o")) (placed (by cbv) rfl)
    (by rw [missing]; simp)
  rw [writeArtifact, replaceFile, makeDirs_eq (by cbv) (by cbv)]
  simp only [text, draftPath_eq, written, moved]
  rfl

theorem writable_circling : circling.Writable "t/../t" ["w"] ".t.tmp" ["w"] "t" := by
  have dir : artifactDir "t/../t" = "t/.." := by cbv
  have draft : draftPath "t/../t" = "t/../.t.tmp" := by cbv
  have located : circling.locate true "t/.." = .ok ["w"] := by cbv
  have isDir : circling.shape? ["w"] = some .dir := by cbv
  have missing : circling.shape? ["w", ".t.tmp"] = none := by cbv
  have old : circling.shape? ["w", "t"] = some (.link "s") := by cbv
  have ends : EndsIn "t/../t" ["t", ".."] "t" := ⟨by cbv, by decide⟩
  have made := makeDirs_of_dir located isDir
  rw [← dir] at made
  refine writable_of_drafted made ?_ ?_ ends ?_ ?_
  · rw [draft]
    have legal : Legal "t/../.t.tmp" := ⟨by cbv, by decide, by cbv⟩
    exact .of_locate located isDir legal (by decide) (by cbv) (by cbv) (by cbv)
  · rw [Open, List.singleton_append, missing]
    simp
  · have legal : Legal "t/../t" := ⟨by cbv, by decide, by cbv⟩
    exact .of_locate located isDir legal (by decide) (by cbv) (by cbv) (by cbv)
  · rw [List.singleton_append, old]
    simp

theorem writeArtifact_circling :
    circling.writeArtifact "t/../t" "y" =
      (stage [("s", .dir [] default), ("t", .file [121] default)], .ok ()) := by
  have dir : artifactDir "t/../t" = "t/.." := by cbv
  have made := makeDirs_of_dir (by cbv : circling.locate true "t/.." = .ok ["w"]) (by cbv)
  have text : Utf8.encode "y" = [121] := by cbv
  rw [writeArtifact, writable_circling.replaceFile, prepared, dir, made, text]
  rfl

end Artifact

end ScriptCache.Disk
