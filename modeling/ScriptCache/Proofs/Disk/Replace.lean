import ScriptCache.Preload
import ScriptCache.Proofs.Disk.Grow

/-!
# Replacing a file

A file is replaced through a draft beside it. Both have their places once the directories of the
target are made, and these are different places.
-/

namespace ScriptCache.Disk

open ScriptCache.Path (IsName)

variable {d e : Disk} {source target : Path} {names dir above : List String} {name draft : String}

theorem moveFile_of_places {node : Node} (located : d.locate false source = .ok names)
    (moved : d.node? names = some node) (h : d.Places target dir name)
    (not_dir : d.shape? (dir ++ [name]) ≠ some .dir) :
    d.moveFile source target = .ok ((d.erase names).put (dir ++ [name]) node) := by
  obtain ⟨init, ends, -⟩ := h.ends
  have plain := ends.endsWith_slash
  have below : (target == "/") = false := by
    refine beq_false_of_ne ?_
    rintro rfl
    exact absurd plain (by decide +kernel)
  rw [moveFile, located, trimSlashes_of_endsWith plain]
  by_cases vacant : d.shape? (dir ++ [name]) = none
  · simp [h.find_vacant vacant, moved, ends.endsInDots_eq, below, plain]
  · simp only [h.find_present vacant, moved, ends.endsInDots_eq, below, plain]
    cases old : d.node? (dir ++ [name]) with
    | none => rfl
    | some node =>
      cases node with
      | dir entries t => exact absurd (shape?_eq_dir_iff.mpr ⟨_, _, old⟩) not_dir
      | file | link => rfl

theorem exists_places_of_moveFile (h : d.moveFile source target = .ok e) :
    ∃ init dir name, EndsIn target init name ∧ d.Places target dir name ∧
      d.shape? (dir ++ [name]) ≠ some .dir := by
  rw [moveFile] at h
  split at h
  · cases h
  · cases h
  · rename_i names found located reached
    split at h
    · cases h
    · split at h
      · cases h
      · rename_i dots
        split at h
        · cases h
        · rename_i plain
          have plain : target.endsWith "/" = false := by simpa using plain
          rw [trimSlashes_of_endsWith plain] at reached dots
          simp only [Bool.or_eq_true, not_or, Bool.not_eq_true] at dots
          have full := (find_eq_ok_iff.mp reached).1.ne_empty
          obtain ⟨init, name, ends⟩ := exists_endsIn full plain dots.1
          obtain ⟨dir, places, ⟨rfl, vacant⟩ | ⟨rfl, -⟩ | ⟨nofollow, -⟩⟩ :=
            exists_places reached ends
          · exact ⟨init, dir, name, ends, places, by simp [vacant]⟩
          · refine ⟨init, dir, name, ends, places, fun isDir ↦ ?_⟩
            obtain ⟨entries, t, node⟩ := shape?_eq_dir_iff.mp isDir
            simp [node] at h
          · cases nofollow

theorem artifactDir_ne_empty (target : Path) : artifactDir target ≠ "" := by
  unfold artifactDir
  split
  · split
    · decide
    · rename_i full
      simpa using full
  · decide

/-- The directory of a relative path of two names. -/
theorem artifactDir_of_segments {first : String} (anchor : target.anchor = "")
    (segments : target.segments = [first, name]) (first_name : IsName first) (isName : IsName name) :
    artifactDir target = first := by
  have plain {s : String} (h : IsName s) : Path.isTrivial s = false := by
    simp [Path.isTrivial, h.ne_empty, h.ne_dot]
  have whole : String.ofList (target.toList.drop "".length) = target := by simp
  have full : first.isEmpty = false := by simpa using first_name.ne_empty
  rw [artifactDir, Path.parent?, Path.ancestors]
  simp only [anchor]
  rw [whole, segments, Path.ancestorsOf_eq]
  simp [plain first_name, plain isName, full]

theorem isName_draft (no_slash : '/' ∉ name.toList) : IsName ("." ++ name ++ ".tmp") := by
  have long : ("." ++ name ++ ".tmp").toList.length = name.toList.length + 5 := by simp
  refine ⟨?_, ?_, ?_, by simpa using no_slash⟩ <;>
  · intro same
    rw [same] at long
    revert long
    simp

theorem draft_ne (name : String) : "." ++ name ++ ".tmp" ≠ name := by
  intro same
  have long : ("." ++ name ++ ".tmp").toList.length = name.toList.length + 5 := by simp
  rw [same] at long
  omega

theorem endsIn_draftPath {init : List String} (h : EndsIn target init name) :
    EndsIn (draftPath target) (artifactDir target).parts ("." ++ name ++ ".tmp") := by
  have isName := isName_draft h.2.no_slash
  refine ⟨?_, isName⟩
  rw [draftPath, h.fileName?_eq]
  exact steps_join (artifactDir_ne_empty target) isName

theorem legal_artifactDir {init : List String} (ends : EndsIn target init name)
    (legal : Legal (draftPath target)) : Legal (artifactDir target) := by
  have joined : draftPath target = (artifactDir target).join ("." ++ name ++ ".tmp") := by
    rw [draftPath, ends.fileName?_eq]
    rfl
  rw [Path.join_eq (artifactDir_ne_empty target) (isName_draft ends.2.no_slash)] at joined
  obtain ⟨rest, eq⟩ : ∃ rest : String, draftPath target = artifactDir target ++ rest := by
    split at joined
    · exact ⟨_, joined⟩
    · exact ⟨_, joined.trans (String.append_assoc ..)⟩
  rw [eq] at legal
  exact legal.of_append (artifactDir_ne_empty target)

/-- The draft lies in the directory that is made for the target. -/
theorem locate_artifactDir (drafted : d.Places (draftPath target) above draft)
    (placed : d.Places target dir name) :
    d.locate true (artifactDir target) = .ok above := by
  obtain ⟨init, ends, count, enough, reaches⟩ := drafted.ends
  obtain ⟨init', ends', -⟩ := placed.ends
  have same := ends.1.symm.trans (endsIn_draftPath ends').1
  cases List.append_inj_left' same rfl
  have start : d.start (draftPath target) = d.start (artifactDir target) := by
    rw [Disk.start, draftPath, ends'.fileName?_eq]
    exact congrArg (fun absolute ↦ if absolute then [] else d.workingDir)
      (Path.isAbsolute_join (artifactDir_ne_empty target) (isName_draft ends'.2.no_slash))
  rw [start] at reaches
  refine locate_eq_ok_iff.mpr ⟨legal_artifactDir ends' drafted.legal, count, enough, ?_⟩
  rw [steps_eq]
  split
  · exact reaches.append (.stay drafted.isDir (.here _)) (by simp)
  · rwa [List.append_nil]

/-- The disk with the directories that the target is written in. -/
def prepared (d : Disk) (target : Path) : Disk := (d.makeDirs (artifactDir target)).1

theorem grows_prepared (d : Disk) (target : Path) : Grows d (d.prepared target) :=
  grows_makeDirs d _

/-- The target and its draft have their places, and both can be written there. -/
structure Writable (d : Disk) (target : Path) (above : List String) (draft : String)
    (dir : List String) (name : String) : Prop where
  made : d.makeDirs (artifactDir target) = (d.prepared target, .ok ())
  drafted : (d.prepared target).Places (draftPath target) above draft
  isOpen : (d.prepared target).Open (above ++ [draft])
  placed : (d.prepared target).Places target dir name
  not_dir : (d.prepared target).shape? (dir ++ [name]) ≠ some .dir
  other : above ++ [draft] ≠ dir ++ [name]

/-- A target that is new in its directory. -/
theorem writable_of_missing (made : d.makeDirs (artifactDir target) = (e, .ok ()))
    (drafted : e.Places (draftPath target) dir draft) (placed : e.Places target dir name)
    (no_draft : e.shape? (dir ++ [draft]) = none) (missing : e.shape? (dir ++ [name]) = none)
    (other : draft ≠ name) : d.Writable target dir draft dir name := by
  have prepared_eq : d.prepared target = e := by rw [prepared, made]
  have apart : dir ++ [draft] ≠ dir ++ [name] := by simpa using other
  refine ⟨by rw [prepared_eq, made], ?_, ?_, ?_, ?_, apart⟩ <;> rw [prepared_eq]
  · exact drafted
  · rw [Open, no_draft]
    simp
  · exact placed
  · rw [missing]
    simp

theorem Places.draft_ne {init : List String} (drafted : d.Places (draftPath target) above draft)
    (ends : EndsIn target init name) : above ++ [draft] ≠ dir ++ [name] := by
  obtain ⟨_, ends', -⟩ := drafted.ends
  cases List.append_inj_right' (ends'.1.symm.trans (endsIn_draftPath ends).1) rfl
  intro same
  exact Disk.draft_ne name (List.singleton_inj.mp (List.append_inj_right' same rfl))

/-- A target whose draft can be written. -/
theorem writable_of_drafted {init : List String}
    (made : d.makeDirs (artifactDir target) = (e, .ok ()))
    (drafted : e.Places (draftPath target) above draft) (isOpen : e.Open (above ++ [draft]))
    (ends : EndsIn target init name) (placed : e.Places target dir name)
    (not_dir : e.shape? (dir ++ [name]) ≠ some .dir) : d.Writable target above draft dir name := by
  have prepared_eq : d.prepared target = e := by rw [prepared, made]
  refine ⟨by rw [prepared_eq, made], ?_, ?_, ?_, ?_, drafted.draft_ne ends⟩ <;> rw [prepared_eq]
  · exact drafted
  · exact isOpen
  · exact placed
  · exact not_dir

theorem exists_endsIn_draftPath (target : Path) :
    ∃ name, EndsIn (draftPath target) (artifactDir target).parts name := by
  have no_slash : '/' ∉ (target.fileName?.getD "preload.php").toList := by
    cases named : target.fileName? with
    | none => decide
    | some name => exact Path.no_slash_of_fileName? named
  have isName := isName_draft no_slash
  exact ⟨_, steps_join (artifactDir_ne_empty target) isName, isName⟩

/-- A draft that can be written lies at its place, if it is no link. -/
theorem exists_drafted {content : List UInt8} (written : d.write (draftPath target) content = .ok e)
    (no_link : ∀ q, d.get false (draftPath target) ≠ .ok (.link q)) :
    ∃ above draft, d.Places (draftPath target) above draft ∧ d.Open (above ++ [draft]) ∧
      e = d.put (above ++ [draft]) (.file content d.now) := by
  obtain ⟨draft, ends⟩ := exists_endsIn_draftPath target
  obtain ⟨above, drafted, not_dir⟩ := exists_places_of_write written ends
  have isOpen : d.Open (above ++ [draft]) :=
    ⟨not_dir, fun q link ↦ no_link q (drafted.get_link.mpr link)⟩
  refine ⟨above, draft, drafted, isOpen, ?_⟩
  exact Except.ok.inj (written.symm.trans (write_of_places drafted isOpen content))

/-- Whatever can be written shows that the target is writable, if the draft is no link. -/
theorem exists_writable {content : List UInt8} (h : (d.replaceFile target content).2 = .ok ())
    (no_link : ∀ q, (d.prepared target).get false (draftPath target) ≠ .ok (.link q)) :
    ∃ above draft dir name, d.Writable target above draft dir name := by
  rw [replaceFile] at h
  split at h
  · cases h
  · rename_i d₁ made
    have prepared_eq : d.prepared target = d₁ := by rw [prepared, made]
    rw [prepared_eq] at no_link
    dsimp only at h
    split at h
    · cases h
    · rename_i d₂ written
      split at h
      · rename_i d₃ moved
        obtain ⟨init, dir, name, ends, places, not_dir⟩ := exists_places_of_moveFile moved
        obtain ⟨above, draft, drafted, isOpen, rfl⟩ := exists_drafted written no_link
        have agree := (agreeOff_put drafted.isDir (Node.childless_file (t := d₁.now) content)
          (cleared_of_not_dir isOpen.1)).symm
        have shape := @shape?_put_self d₁ above draft drafted.isDir (.file content d₁.now)
        have placed : d₁.Places target dir name :=
          places.of_agreeOff agree (deadEnd_of_not_link (by simp [shape, Node.shape])
            (by simp [shape, Node.shape]))
        refine ⟨above, draft, dir, name, writable_of_drafted made drafted isOpen ends placed ?_⟩
        rwa [agree.shape _ (drafted.draft_ne ends).symm]
      · split at h <;> cases h

theorem prepared_now (d : Disk) (target : Path) : (d.prepared target).now = d.now :=
  (grows_prepared d target).now

/-- The content lies at the place of the target, nothing is left of the draft, and everything else
is what it was. -/
structure Replaced (d e : Disk) (target : Path) (content : List UInt8) (dir : List String)
    (name : String) : Prop where
  placed : (d.prepared target).Places target dir name
  artifact : e.node? (dir ++ [name]) = some (.file content d.now)
  /-- The target is read, unless its path is a way to its place only through what lay there. -/
  read : ((d.prepared target).erase (dir ++ [name])).Places target dir name →
    e.read target = .ok content
  /-- That takes a link there. -/
  read_of_no_link : (∀ q, (d.prepared target).get false target ≠ .ok (.link q)) →
    e.read target = .ok content
  no_draft : ∀ node, e.get false (draftPath target) ≠ .ok node
  others : ∀ names shape, d.shape? names = some shape → names ≠ dir ++ [name] →
    (d.prepared target).locate false (draftPath target) ≠ .ok names → e.shape? names = some shape

namespace Writable

variable (h : d.Writable target above draft dir name)
include h

theorem deadEnd_draft : (d.prepared target).DeadEnd (above ++ [draft]) :=
  deadEnd_of_not_link h.isOpen.1 h.isOpen.2

theorem agreeOff_erase_draft :
    AgreeOff (above ++ [draft]) (d.prepared target)
      ((d.prepared target).erase (above ++ [draft])) :=
  agreeOff_erase h.drafted.isDir (cleared_of_not_dir h.isOpen.1)

/-- The target still has its place when the draft is away. -/
theorem placed_erase : ((d.prepared target).erase (above ++ [draft])).Places target dir name :=
  h.placed.of_agreeOff h.agreeOff_erase_draft h.deadEnd_draft

/-- The draft leaves no trace, and the file lies at the place of the target. -/
theorem replaceFile (content : List UInt8) :
    d.replaceFile target content =
      (((d.prepared target).erase (above ++ [draft])).put (dir ++ [name])
        (.file content (d.prepared target).now), .ok ()) := by
  have agree := agreeOff_put h.drafted.isDir
    (Node.childless_file (t := (d.prepared target).now) content) (cleared_of_not_dir h.isOpen.1)
  have shape : ((d.prepared target).put _ (.file content (d.prepared target).now)).shape?
      (above ++ [draft]) = some (.file content (d.prepared target).now) :=
    shape?_put_self h.drafted.isDir _
  have drafted := h.drafted.of_agreeOff agree h.deadEnd_draft
  have not_dir := h.not_dir
  rw [← agree.shape _ h.other.symm] at not_dir
  have moved := moveFile_of_places
    (drafted.locate_solid ⟨_, shape, id⟩)
    (node?_put_self h.drafted.isDir _)
    (h.placed.of_agreeOff agree h.deadEnd_draft) not_dir
  rw [Disk.replaceFile, h.made]
  dsimp only
  rw [write_of_places h.drafted h.isOpen]
  dsimp only
  rw [moved]
  simp only [erase, put, Node.erase_put]

theorem cleared_erase_draft :
    ((d.prepared target).erase (above ++ [draft])).Cleared (dir ++ [name]) := by
  refine cleared_of_not_dir ?_
  rw [h.agreeOff_erase_draft.shape _ h.other.symm]
  exact h.not_dir

/-- A way to the place of the target that does not lead through what lay there is one still. -/
theorem placed_put (content : List UInt8) (t : Timestamp)
    (placed : ((d.prepared target).erase (dir ++ [name])).Places target dir name) :
    (((d.prepared target).erase (above ++ [draft])).put (dir ++ [name])
      (.file content t)).Places target dir name := by
  have isDir := h.placed_erase.isDir
  -- without what lies at the target, the draft is of no account
  have bare := agreeOff_erase h.placed.isDir (cleared_of_not_dir h.not_dir)
  have bare' := agreeOff_erase isDir h.cleared_erase_draft
  have gone := @shape?_erase_self _ dir name h.placed.isDir
  have gone' := @shape?_erase_self _ dir name isDir
  have drafted := bare.shape _ h.other
  have placed' := placed.of_agreeOff
    (h.agreeOff_erase_draft.beside bare bare' (gone'.trans gone.symm))
    (deadEnd_of_not_link (drafted ▸ h.isOpen.1) (drafted ▸ h.isOpen.2))
  have put := agreeOff_put isDir (Node.childless_file (t := t) content) h.cleared_erase_draft
  exact placed'.of_agreeOff (bare'.symm.trans put)
    (deadEnd_of_not_link (by simp [gone']) (by simp [gone']))

theorem no_draft_put (content : List UInt8) (t : Timestamp) (node : Node) :
    (((d.prepared target).erase (above ++ [draft])).put (dir ++ [name])
      (.file content t)).get false (draftPath target) ≠ .ok node := by
  intro got
  obtain ⟨names, located, found⟩ := get_eq_ok_iff.mp got
  have isDir := h.placed_erase.isDir
  have put := agreeOff_put isDir (Node.childless_file (t := t) content) h.cleared_erase_draft
  have filled := @shape?_put_self _ dir name isDir (.file content t)
  have drafted := h.drafted.of_agreeOff h.agreeOff_erase_draft h.deadEnd_draft
  obtain ⟨init, ends, -⟩ := h.drafted.ends
  obtain ⟨above', places, ⟨vacant, -⟩ | ⟨eq, present⟩ | ⟨nofollow, -⟩⟩ :=
    exists_places (find_of_locate located) ends
  · cases vacant
  · have places := places.of_agreeOff put.symm
      (deadEnd_of_not_link (by simp [filled, Node.shape]) (by simp [filled, Node.shape]))
    obtain ⟨rfl, -⟩ := drafted.unique places
    rw [put.shape _ h.other, shape?_erase_self h.drafted.isDir] at present
    exact present rfl
  · cases nofollow

/-- A target that can be written is replaced. -/
theorem replaced (content : List UInt8) :
    d.Replaced (d.replaceFile target content).1 target content dir name := by
  have isDir := h.placed_erase.isDir
  have read {e : Disk} (placed : e.Places target dir name)
      (filled : e.node? (dir ++ [name]) = some (.file content d.now)) :
      e.read target = .ok content := by
    have shape := shape?_eq_file_iff.mpr filled
    exact read_eq_ok_iff.mpr ⟨_, _, placed.locate_solid ⟨_, shape, id⟩, shape⟩
  have artifact := @node?_put_self _ dir name isDir (.file content d.now)
  rw [h.replaceFile, prepared_now]
  refine ⟨h.placed, artifact, fun placed ↦ read (h.placed_put content d.now placed) artifact,
    fun no_link ↦ read (h.placed_put content d.now ?_) artifact, h.no_draft_put content d.now,
    fun names shape found other away ↦ ?_⟩
  · exact h.placed.of_agreeOff (agreeOff_erase h.placed.isDir (cleared_of_not_dir h.not_dir))
      (deadEnd_of_not_link h.not_dir fun q link ↦ no_link q (h.placed.get_link.mpr link))
  · have found := (grows_prepared d target).shape found
    have put := agreeOff_put isDir (Node.childless_file (t := d.now) content) h.cleared_erase_draft
    have off_draft : names ≠ above ++ [draft] := by
      rintro rfl
      exact away (by rw [locate, h.drafted.find_present (by simp [found])])
    rw [put.shape names other, h.agreeOff_erase_draft.shape names off_draft, found]

theorem no_link (q : Path) : (d.prepared target).get false (draftPath target) ≠ .ok (.link q) :=
  fun got ↦ h.isOpen.2 q (h.drafted.get_link.mp got)

/-- A target that can be written can be written again, where nothing but the target changes. -/
theorem of_agreeOff (agree : AgreeOff (dir ++ [name]) (d.prepared target) e)
    (deadEnd : (d.prepared target).DeadEnd (dir ++ [name]))
    (not_dir : e.shape? (dir ++ [name]) ≠ some .dir) : e.Writable target above draft dir name := by
  have drafted := h.drafted.of_agreeOff agree deadEnd
  have placed := h.placed.of_agreeOff agree deadEnd
  have made := makeDirs_of_dir (locate_artifactDir drafted placed) drafted.isDir
  have prepared_eq : e.prepared target = e := by rw [prepared, made]
  have isOpen := h.isOpen
  rw [Open, ← agree.shape _ h.other] at isOpen
  refine ⟨by rw [prepared_eq, made], ?_, ?_, ?_, ?_, h.other⟩ <;> rw [prepared_eq]
  · exact drafted
  · exact isOpen
  · exact placed
  · exact not_dir

/-- A target that was written as a file can be written again. -/
theorem of_put (isOpen : (d.prepared target).Open (dir ++ [name])) (content : List UInt8)
    (t : Timestamp) : ((d.prepared target).put (dir ++ [name]) (.file content t)).Writable target
      above draft dir name :=
  h.of_agreeOff (agreeOff_put h.placed.isDir (Node.childless_file content)
      (cleared_of_not_dir h.not_dir))
    (deadEnd_of_not_link isOpen.1 isOpen.2) (by simp [shape?_put_self h.placed.isDir, Node.shape])

end Writable

end ScriptCache.Disk
