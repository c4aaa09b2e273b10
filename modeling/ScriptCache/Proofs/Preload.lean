import ScriptCache.Proofs.Preload.Run

/-!
# What the preloader writes

The main statement about a run: which script it writes, which files have no part in it, which names
are left out, and that running again gives the same script. Two disks show what the conditions are
for: a root that a run makes lead to something, and a draft that is written through a link.
-/

namespace ScriptCache.Disk

open Ascii (byte)
open ScriptCache.Path (IsName)
open Source (DeclarationTokens DeclaredType Items Statement)
open Source.Lexer (Reads)

variable {d e : Disk} {s : Settings} {target : Path} {above dir : List String}
  {draft name : String} {exclusions : Exclusions}

/-! ## Running again -/

/-- The run leaves the next one nothing new to find. -/
structure Repeatable (d : Disk) (s : Settings) (target : Path) : Prop where
  /-- Nothing lies where the draft is written. -/
  no_draft : ∀ node, (d.prepared target).get false (draftPath target) ≠ .ok node
  /-- Making the directories of the target does not make a root lead to something old. -/
  roots : ∀ root ∈ s.scan.roots, Grows.RootStays d (d.prepared target) root
  /-- The target is missing, a file that declares no types, or a link to no directory. -/
  declares_nothing : ∀ dir name, (d.prepared target).Places target dir name →
    ∀ content t, (d.prepared target).node? (dir ++ [name]) = some (.file content t) →
      contentTypes content = []
  no_dir_link : ∀ dir name, (d.prepared target).Places target dir name →
    ∀ names, (d.prepared target).Leads (dir ++ [name]) (.node names) →
      (d.prepared target).shape? names ≠ some .dir
  /-- The exclusion file is not the target, nor what a link there leads to. -/
  no_exclusions : ∀ dir name, (d.prepared target).Places target dir name →
    ∀ p, s.preload.excludeFile = some p → ∀ names, d.locate true p = .ok names →
      names ≠ dir ++ [name] ∧ ¬(d.prepared target).Leads (dir ++ [name]) (.node names)

/-- Where the draft was missing, the target is all that changes. -/
theorem Writable.preload_eq_put (h : d.Writable target above draft dir name)
    (wf : d.root.WellFormed)
    (vacant : (d.prepared target).shape? (above ++ [draft]) = none)
    (excluded : s.preload.exclusions d = .ok exclusions) :
    (d.preload s target).1 = (d.prepared target).put (dir ++ [name])
      (.file (Utf8.encode ((d.manifest s exclusions).script s.preload.autoload)) d.now) := by
  have wf := (grows_prepared d target).wellFormed wf
  have nothing := wf.erase_of_none (Option.map_eq_none_iff.mp vacant)
  have same : (d.prepared target).erase (above ++ [draft]) = d.prepared target := by
    rw [erase, nothing]
  rw [preload_eq h excluded, same]

namespace Repeatable

variable (again : d.Repeatable s target) (h : d.Writable target above draft dir name)
include again h

theorem deadEnd : (d.prepared target).DeadEnd (dir ++ [name]) :=
  ⟨h.not_dir, again.no_dir_link dir name h.placed⟩

theorem silent {node : Node} (found : (d.prepared target).node? (dir ++ [name]) = some node) :
    s.scan.filter.Silent (dir ++ [name]) node := by
  cases node with
  | file content t =>
    exact SourceFilter.silent_file (again.declares_nothing dir name h.placed content t found)
  | link q => exact SourceFilter.silent_link q
  | dir entries t => exact absurd (shape?_eq_dir_iff.mpr ⟨entries, t, found⟩) h.not_dir

/-- A file that declares nothing is not missed in a scan, and another one neither. -/
theorem retains_put {content : List UInt8} (wf : d.root.WellFormed)
    (silent : contentTypes content = []) (t : Timestamp) :
    Retains s.scan.filter (dir ++ [name]) (d.prepared target)
      ((d.prepared target).put (dir ++ [name]) (.file content t)) :=
  Disk.retains_put ((grows_prepared d target).wellFormed wf) h.placed.isDir
    (Node.childless_file content) (cleared_of_not_dir h.not_dir)
    (fun _ found ↦ again.silent h found) (SourceFilter.silent_file silent)

theorem exclusions_eq (agree : AgreeOff (dir ++ [name]) (d.prepared target) e)
    (excluded : s.preload.exclusions d = .ok exclusions) :
    s.preload.exclusions e = .ok exclusions := by
  have grows := grows_prepared d target
  refine exclusions_congr excluded fun p file content read ↦
    agree.read (again.deadEnd h) (fun names located ↦ ?_) (grows.read read)
  obtain ⟨other, t, located', -⟩ := read_eq_ok_iff.mp read
  cases (grows.locate located').symm.trans located
  exact again.no_exclusions dir name h.placed p file _ located'

/-- A run writes the same where only the target changed, and declares nothing there. -/
theorem writes_same {content : List UInt8} {t : Timestamp} (wf : d.root.WellFormed)
    (settled : d.Settled) (excluded : s.preload.exclusions d = .ok exclusions)
    (retains : Retains s.scan.filter (dir ++ [name]) (d.prepared target) e)
    (wf' : e.root.WellFormed) (found : e.node? (dir ++ [name]) = some (.file content t))
    (silent : contentTypes content = []) : e.Writes s target (d.manifest s exclusions) := by
  have grows := grows_prepared d target
  have settled₁ : (d.prepared target).Settled := by rwa [Settled, grows.workingDir]
  have shape : e.shape? (dir ++ [name]) = some (.file content t) := by rw [shape?, found]; rfl
  have deadEnd : e.DeadEnd (dir ++ [name]) :=
    deadEnd_of_not_link (by simp [shape]) (by simp [shape])
  have after (node : Node) (found' : e.node? (dir ++ [name]) = some node) :
      s.scan.filter.Silent (dir ++ [name]) node := by
    cases found.symm.trans found'
    exact SourceFilter.silent_file silent
  have same : e.manifest s exclusions = d.manifest s exclusions := by
    refine manifest_congr fun root mem ↦ ?_
    calc e.typesUnder s.scan.filter root
      _ = (d.prepared target).typesUnder s.scan.filter root :=
        retains.typesUnder_eq (grows.wellFormed wf) wf' settled₁ (again.deadEnd h) deadEnd
          (fun _ before ↦ again.silent h before) after root
      _ = d.typesUnder s.scan.filter root :=
        grows.typesUnder_eq wf settled (again.roots root mem)
  have writable : e.Writable target above draft dir name :=
    h.of_agreeOff retains.agree (again.deadEnd h) (by simp [shape])
  rw [← same]
  exact writable.writes (again.exclusions_eq h retains.agree excluded)

end Repeatable

/-- A target that is new in a directory that is there. -/
theorem Writable.repeatable (h : d.Writable target above draft dir name)
    (made : d.prepared target = d) (no_draft : d.shape? (above ++ [draft]) = none)
    (missing : d.shape? (dir ++ [name]) = none) (no_file : s.preload.excludeFile = none) :
    d.Repeatable s target := by
  have drafted := h.drafted
  have placed := h.placed
  rw [made] at drafted placed
  refine ⟨?_, ?_, ?_, ?_, ?_⟩ <;> rw [made]
  · intro node got
    rw [drafted.get_eq, Option.map_eq_none_iff.mp no_draft] at got
    cases got
  · exact fun root _ names located _ ↦ located
  · intro dir' name' placed' content t found
    obtain ⟨rfl, rfl⟩ := placed.unique placed'
    simp [shape?, found] at missing
  · rintro dir' name' placed' names ⟨_, _, _, _, -, link, -⟩
    obtain ⟨rfl, rfl⟩ := placed.unique placed'
    rw [missing] at link
    cases link
  · intro dir' name' _ p file
    rw [no_file] at file
    cases file

/-- The script of a run does not change the script of the next one. -/
theorem Ready.writes_again (ready : d.Ready s target) (again : d.Repeatable s target)
    (excluded : s.preload.exclusions d = .ok exclusions) (t : Timestamp) :
    { (d.preload s target).1 with now := t }.Writes s target (d.manifest s exclusions) := by
  obtain ⟨content, written⟩ := ready.writable
  obtain ⟨above, draft, dir, name, h⟩ := exists_writable written ready.no_link
  rw [h.preload_eq_put ready.wellFormed (h.drafted.vacant_of_get again.no_draft) excluded]
  have silent := Manifest.contentTypes_script (d.manifest s exclusions) s.preload.autoload
  have wf := (grows_prepared d target).wellFormed ready.wellFormed
  have put := again.retains_put h ready.wellFormed silent d.now
  exact again.writes_same h ready.wellFormed ready.settled excluded (put.with_now t)
    (wf.put (.file _ d.now) h.placed.isName dir) (node?_put_self h.placed.isDir _) silent

/-! ## What a run writes -/

namespace Sample

def classSource : List UInt8 :=
  Ascii.ofString "<?php" ++ byte ' ' :: byte 'c' :: (Ascii.ofString "lass" ++
    byte ' ' :: byte 'A' :: ([] ++ byte ' ' :: [byte '{', byte '}']))

theorem contentTypes_classSource : contentTypes classSource = [⟨.classType, "A"⟩] := by
  have body : Reads [byte '{', byte '}']
      [(.opening .brace, [byte '{']), (.closing .brace, [byte '}'])] :=
    (Reads.nil.sign (by decide)).sign (by decide)
  have named : Reads (byte 'A' :: ([] ++ byte ' ' :: [byte '{', byte '}']))
      [(.name "A", [byte 'A']), (.opening .brace, [byte '{']), (.closing .brace, [byte '}'])] :=
    body.word (by decide) (by decide) (by decide) (by decide) (by decide) (by cbv) (by cbv)
  have declared : Reads (byte 'c' :: (Ascii.ofString "lass" ++
      byte ' ' :: byte 'A' :: ([] ++ byte ' ' :: [byte '{', byte '}'])))
      [(.name "class", Ascii.ofString "class"), (.name "A", [byte 'A']),
        (.opening .brace, [byte '{']), (.closing .brace, [byte '}'])] :=
    named.word (by decide) (by decide) (by decide) (by decide) (by decide) (by cbv) (by cbv)
  obtain ⟨s, tokens, kinds⟩ := (declared.blank (b := byte ' ') (by decide)).kinds _
    (Source.Lexer.rest_skipInlineText _)
  obtain ⟨keyword, rest, eq, keyword_kind, kinds⟩ := List.map_eq_cons_iff.mp kinds
  obtain ⟨name, rest, rfl, name_kind, kinds⟩ := List.map_eq_cons_iff.mp kinds
  obtain ⟨opener, rest, rfl, opens, kinds⟩ := List.map_eq_cons_iff.mp kinds
  obtain ⟨closer, rest, rfl, closes, kinds⟩ := List.map_eq_cons_iff.mp kinds
  cases List.map_eq_nil_iff.mp kinds
  have own := @DeclarationTokens.mk [] [] [] _ keyword name _ _ .classType (by simp) (by simp)
    keyword_kind (by cbv) name_kind (by decide) .nil (.mk opens .nil closes)
  have items : Items s.tokens [.statement (.declaration .classType "A" keyword.line)] := by
    rw [eq]
    exact .declaration own .nil
  have read : Statement.ofSource classSource = Statement.ofTokens s := by
    rw [Statement.ofSource, Source.TokenStream.ofSource, classSource, tokens]
    rfl
  rw [contentTypes, read, Statement.ofTokens_eq items]
  rfl

/-- A class, and a closing brace alone. -/
def sources : Node.Entries :=
  [("a.php", .file classSource default),
    ("b.php", .file [0x3C, 0x3F, 0x70, 0x68, 0x70, 0x20, 0x7D] default)]

/-- A working directory with one directory, which holds these files. -/
def disk (files : Node.Entries) : Disk where
  root := .dir [("w", .dir [("s", .dir files default)] default)] default
  workingDir := ["w"]
  now := default

def settings (root : Path) : Settings := { scan := { roots := [root] } }

variable {d : Disk} {files : Node.Entries} {root : Path}

theorem excluded (d : Disk) (root : Path) :
    (settings root).preload.exclusions d = .ok (.ofNames []) := rfl

theorem settled (h : d.workingDir = ["w"]) : d.Settled := by
  intro name mem
  rw [h] at mem
  cases List.mem_singleton.mp mem
  decide

theorem wellFormed : (disk sources).root.WellFormed := by
  have lone (name : String) (isName : IsName name) {node : Node} (h : node.WellFormed) :
      (Node.dir [(name, node)] default).WellFormed :=
    .dir _ (List.pairwise_singleton _ _) (by simpa using isName) (by simpa using h)
  have sorted : sources.Pairwise (·.1 < ·.1) := by
    refine .cons (fun e mem ↦ ?_) (List.pairwise_singleton _ _)
    cases List.mem_singleton.mp mem
    decide
  have names : ∀ e ∈ sources, IsName e.1 := by
    simp only [sources, List.forall_mem_cons]
    exact ⟨by decide, by decide, by simp⟩
  have nodes : ∀ e ∈ sources, e.2.WellFormed := by
    simp only [sources, List.forall_mem_cons]
    exact ⟨.file .., .file .., by simp⟩
  exact lone "w" (by decide) (lone "s" (by decide) (.dir _ sorted names nodes))

theorem typesUnder_eq {p : Path} (wf : d.root.WellFormed) (settled : d.Settled)
    (located : d.locate true root = .ok ["w", "s"])
    (found : d.node? ["w", "s"] = some (.dir sources default)) (joined : root.join "a.php" = p)
    (accepted : (settings root).scan.filter.accepts p)
    (readable : Readable p ["w", "s", "a.php"]) :
    d.typesUnder (settings root).scan.filter root = [⟨.classType, "A"⟩] := by
  have refused : contentTypes [0x3C, 0x3F, 0x70, 0x68, 0x70, 0x20, 0x7D] = [] := by
    rw [contentTypes, Source.Lexer.ofSource_brace]
  rw [typesUnder_of_enters wf settled ⟨located, .inl (by rw [shape?, found]; rfl)⟩ found]
  simp [SourceFilter.typesAt, SourceFilter.typesIn, sources, Node.isDir, joined, accepted, readable,
    contentTypes_classSource, refused]

theorem names_manifest {types : List DeclaredType}
    (h : d.typesUnder (settings root).scan.filter root = types) :
    (d.manifest (settings root) (.ofNames [])).names =
      (types.map fun type ↦ normalName type.name).eraseDups := by
  have kept (name : String) : (Exclusions.ofNames []).contains name = false := by
    rw [Bool.eq_false_iff, ne_eq, Exclusions.contains_iff, Exclusions.mem_ofNames]
    simp
  rw [manifest, Manifest.names_ofNames, scannedTypes_scan, flatMap_walkAll,
    show (settings root).scan.roots = [root] from rfl, List.flatMap_singleton, h, List.map_map]
  simp only [kept, Bool.not_false, List.filter_true]
  rfl

theorem artifactDir_eq : artifactDir "s/x.php" = "s" :=
  artifactDir_of_segments (by cbv) (by cbv : _ = ["s", "x.php"]) (by decide) (by decide)

theorem draftPath_eq : draftPath "s/x.php" = "s/.x.php.tmp" := by
  rw [draftPath, artifactDir_eq]
  cbv

theorem makeDirs_eq : (disk files).makeDirs (artifactDir "s/x.php") = (disk files, .ok ()) := by
  have located : (disk files).locate true "s" = .ok ["w", "s"] := by cbv
  rw [artifactDir_eq]
  exact makeDirs_of_dir located (by cbv)

theorem writable (no_draft : files.lookup ".x.php.tmp" = none)
    (missing : files.lookup "x.php" = none) :
    (disk files).Writable "s/x.php" ["w", "s"] ".x.php.tmp" ["w", "s"] "x.php" := by
  have found : (disk files).node? ["w", "s"] = some (.dir files default) := by cbv
  have located : (disk files).locate true "s" = .ok ["w", "s"] := by cbv
  have isDir : (disk files).shape? ["w", "s"] = some .dir := by rw [shape?, found]; rfl
  refine writable_of_missing makeDirs_eq ?_ ?_ ?_ ?_ (by decide)
  · rw [draftPath_eq]
    exact .of_locate located isDir ⟨by cbv, by decide, by cbv⟩ (by decide) (by cbv) (by cbv) (by cbv)
  · exact .of_locate located isDir ⟨by cbv, by decide, by cbv⟩ (by decide) (by cbv) (by cbv) (by cbv)
  · rw [shape?, node?_child found, no_draft]
    rfl
  · rw [shape?, node?_child found, missing]
    rfl

end Sample

namespace Sample

/-- The disk with the directory of another target. -/
def grown : Disk := (disk sources).put ["w", "o"] (.dir [] default)

/-- Settings with a root that leads to the sources once that directory is there. -/
def detour : Settings := settings "o/../s"

theorem artifactDir_detour : artifactDir "o/x.php" = "o" :=
  artifactDir_of_segments (by cbv) (by cbv : _ = ["o", "x.php"]) (by decide) (by decide)

theorem draftPath_detour : draftPath "o/x.php" = "o/.x.php.tmp" := by
  rw [draftPath, artifactDir_detour]
  cbv

theorem makeDirs_detour : (disk sources).makeDirs (artifactDir "o/x.php") = (grown, .ok ()) := by
  rw [artifactDir_detour]
  exact makeDirs_of_makeDir (by decide) (by cbv)

theorem prepared_detour : (disk sources).prepared "o/x.php" = grown := by
  rw [prepared, makeDirs_detour]

theorem writable_detour :
    (disk sources).Writable "o/x.php" ["w", "o"] ".x.php.tmp" ["w", "o"] "x.php" := by
  have located : grown.locate true "o" = .ok ["w", "o"] := by cbv
  have isDir : grown.shape? ["w", "o"] = some .dir := by cbv
  refine writable_of_missing makeDirs_detour ?_ ?_ (by cbv) (by cbv) (by decide)
  · rw [draftPath_detour]
    exact .of_locate located isDir ⟨by cbv, by decide, by cbv⟩ (by decide) (by cbv) (by cbv) (by cbv)
  · exact .of_locate located isDir ⟨by cbv, by decide, by cbv⟩ (by decide) (by cbv) (by cbv) (by cbv)

/-- The script of a run lies in the new directory. -/
theorem preload_detour : ∃ script, ((disk sources).preload detour "o/x.php").1 =
    grown.put ["w", "o", "x.php"] (.file script default) := by
  have no_draft : ((disk sources).prepared "o/x.php").shape? ["w", "o", ".x.php.tmp"] = none := by
    rw [prepared_detour]
    cbv
  have after := writable_detour.preload_eq_put wellFormed no_draft (excluded _ "o/../s")
  rw [prepared_detour] at after
  exact ⟨_, after⟩

theorem writable_again (script : List UInt8) :
    (grown.put ["w", "o", "x.php"] (.file script default)).Writable "o/x.php" ["w", "o"]
      ".x.php.tmp" ["w", "o"] "x.php" := by
  have missing : grown.shape? ["w", "o", "x.php"] = none := by cbv
  have isOpen : grown.Open ["w", "o", "x.php"] := by
    rw [Open, missing]
    simp
  rw [← prepared_detour] at isOpen ⊢
  exact writable_detour.of_put isOpen script default

theorem typesUnder_detour (script : List UInt8) :
    (grown.put ["w", "o", "x.php"] (.file script default)).typesUnder detour.scan.filter "o/../s" =
      [⟨.classType, "A"⟩] := by
  have wf : grown.root.WellFormed :=
    wellFormed.put (.dir default .nil (by simp) (by simp)) (by decide) ["w"]
  have joined : Path.join "o/../s" "a.php" = "o/../s/a.php" := by cbv
  exact typesUnder_eq (wf.put (.file script default) (by decide) ["w", "o"]) (settled rfl) (by cbv)
    (by cbv) joined (by cbv) ⟨⟨by cbv, by decide, by cbv⟩, ⟨by cbv, by decide, by cbv⟩, by decide⟩

theorem script_ne {m m' : Manifest} (names : m.names = []) (names' : m'.names = ["A"])
    (autoload : Path) : m.script autoload ≠ m'.script autoload := by
  intro same
  rw [Manifest.script, Manifest.script, names, names'] at same
  have line : (Manifest.scriptLine "A").length = 0 := by simpa using congrArg String.length same
  revert line
  decide

/-- The files with a link at the draft of the target, which leads to the target. -/
def linked : Node.Entries := (".x.php.tmp", .link "x.php") :: sources

/-- What writing the draft through the link gives. -/
def misled (content : List UInt8) : Disk := disk (linked ++ [("x.php", .file content default)])

/-- What moving the link to where it leads gives. -/
def lost : Disk := disk (sources ++ [("x.php", .link "x.php")])

theorem moveFile_misled (content : List UInt8) :
    (misled content).moveFile "s/.x.php.tmp" "s/x.php" = .ok lost := by
  have located : (misled content).locate true "s" = .ok ["w", "s"] := by cbv
  have isDir : (misled content).shape? ["w", "s"] = some .dir := by cbv
  have placed : (misled content).Places "s/x.php" ["w", "s"] "x.php" :=
    .of_locate located isDir ⟨by cbv, by decide, by cbv⟩ (by decide) (by cbv) (by cbv) (by cbv)
  have source : (misled content).locate false "s/.x.php.tmp" = .ok ["w", "s", ".x.php.tmp"] := by
    cbv
  have link : (misled content).node? ["w", "s", ".x.php.tmp"] = some (.link "x.php") := by cbv
  have shape : (misled content).shape? ["w", "s", "x.php"] = some (.file content default) := by cbv
  have after : ((misled content).erase ["w", "s", ".x.php.tmp"]).put ["w", "s", "x.php"]
      (.link "x.php") = lost := by cbv
  exact (moveFile_of_places source link placed (by simp [shape])).trans (congrArg _ after)

theorem replaceFile_linked (content : List UInt8) :
    (disk linked).replaceFile "s/x.php" content = (lost, .ok ()) := by
  have written : (disk linked).write "s/.x.php.tmp" content = .ok (misled content) := by cbv
  rw [replaceFile, makeDirs_eq]
  dsimp only
  rw [draftPath_eq, written]
  dsimp only
  rw [moveFile_misled]

end Sample

end ScriptCache.Disk
