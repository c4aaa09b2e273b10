import ScriptCache.Proofs.Disk.Agree

/-!
# The places of files

A path that ends with a name has a place: this name in the directory that the rest of the path
leads to. What lies at the place, if anything, decides what becomes of the path.
-/

namespace ScriptCache.Disk

open ScriptCache.Path (IsName)

variable {d e : Disk} {follow : Bool} {p : Path} {dir place : List String} {name : String}

/-- The path is a way to this name in this directory. -/
structure Places (d : Disk) (p : Path) (dir : List String) (name : String) : Prop where
  legal : Legal p
  ends : ∃ init, EndsIn p init name ∧
    ∃ count ≤ linkLimit, d.Reaches true (d.start p) init (.node dir) count
  short : name.utf8ByteSize ≤ nameLimit
  isDir : d.shape? dir = some .dir

namespace Places

theorem isName (h : d.Places p dir name) : IsName name :=
  have ⟨_, ends, _⟩ := h.ends
  ends.2

/-- A path is a way to a name in the directory that it leads to without the name. -/
theorem of_locate {q : Path} (located : d.locate true q = .ok dir) (isDir : d.shape? dir = some .dir)
    (legal : Legal p) (isName : IsName name) (short : name.utf8ByteSize ≤ nameLimit)
    (start : d.start p = d.start q) (steps : steps p = steps q ++ [name]) : d.Places p dir name := by
  obtain ⟨-, count, enough, reaches⟩ := locate_eq_ok_iff.mp located
  rw [← start] at reaches
  exact ⟨legal, ⟨_, ⟨steps, isName⟩, count, enough, reaches⟩, short, isDir⟩

theorem looksUp (h : d.Places p dir name) : d.LooksUp dir name (d.shape? (dir ++ [name])) :=
  ⟨h.isDir, h.isName.ne_dot, h.isName.ne_dots, h.short, rfl⟩

theorem find (h : d.Places p dir name) {found : Found}
    (last : d.Reaches follow dir [name] found 0) : d.find follow p = .ok found := by
  obtain ⟨init, ends, count, enough, reaches⟩ := h.ends
  rw [find_eq_ok_iff, ends.1]
  exact ⟨h.legal, descend_of_reaches (reaches.append last (by simp)) enough⟩

theorem find_vacant (h : d.Places p dir name) (vacant : d.shape? (dir ++ [name]) = none) :
    d.find follow p = .ok (.vacant dir name) :=
  h.find (.vacant (vacant ▸ h.looksUp))

theorem find_solid (h : d.Places p dir name) (solid : d.Solid (dir ++ [name])) :
    d.find follow p = .ok (.node (dir ++ [name])) := by
  obtain ⟨shape, found, notLink⟩ := solid
  exact h.find (.enter (found ▸ h.looksUp) notLink (.here _))

theorem find_link (h : d.Places p dir name) {target : Path}
    (link : d.shape? (dir ++ [name]) = some (.link target)) :
    d.find false p = .ok (.node (dir ++ [name])) :=
  h.find (.link (link ▸ h.looksUp) (by simp))

theorem find_present (h : d.Places p dir name) (present : d.shape? (dir ++ [name]) ≠ none) :
    d.find false p = .ok (.node (dir ++ [name])) := by
  cases shape : d.shape? (dir ++ [name]) with
  | none => contradiction
  | some found =>
    cases found with
    | link q => exact h.find_link shape
    | file | dir => exact h.find_solid ⟨_, shape, id⟩

theorem get_eq (h : d.Places p dir name) :
    d.get false p = (d.node? (dir ++ [name])).elim (.error .notFound) .ok := by
  by_cases vacant : d.shape? (dir ++ [name]) = none
  · rw [get, locate, h.find_vacant vacant, Option.map_eq_none_iff.mp vacant]
    rfl
  · rw [get, locate, h.find_present vacant]

theorem get_link (h : d.Places p dir name) {target : Path} :
    d.get false p = .ok (.link target) ↔ d.shape? (dir ++ [name]) = some (.link target) := by
  rw [h.get_eq, shape?]
  cases d.node? (dir ++ [name]) with
  | none => simp
  | some node => cases node <;> simp [Node.shape]

theorem vacant_of_get (h : d.Places p dir name) (nothing : ∀ node, d.get false p ≠ .ok node) :
    d.shape? (dir ++ [name]) = none := by
  rw [shape?, Option.map_eq_none_iff, Option.eq_none_iff_forall_ne_some]
  intro node found
  exact nothing node (by rw [h.get_eq, found]; rfl)

theorem locate_solid (h : d.Places p dir name) (solid : d.Solid (dir ++ [name])) :
    d.locate follow p = .ok (dir ++ [name]) := by
  rw [locate, h.find_solid solid]

/-- A path has its place still where no path goes on from the place that changes. -/
theorem of_agreeOff (h : d.Places p dir name) (agree : AgreeOff place d e)
    (deadEnd : d.DeadEnd place) : e.Places p dir name := by
  obtain ⟨init, ends, count, enough, reaches⟩ := h.ends
  have other : dir ≠ place := by
    rintro rfl
    exact deadEnd.not_dir h.isDir
  have start : e.start p = d.start p := by rw [Disk.start, Disk.start, agree.workingDir]
  refine ⟨h.legal, ⟨init, ends, count, enough, ?_⟩, h.short, by rw [agree.shape dir other, h.isDir]⟩
  rw [start]
  rcases reaches.of_agreeOff agree deadEnd with same | same | ⟨-, leads⟩
  · exact same
  · exact absurd same other
  · exact absurd h.isDir (deadEnd.leads dir leads)

end Places

/-- A path that ends with a name and leads anywhere, or could be made, has a place. Unless it ends
with a link that is followed, that is where it leads. -/
theorem exists_places {init : List String} {found : Found} (h : d.find follow p = .ok found)
    (ends : EndsIn p init name) :
    ∃ dir, d.Places p dir name ∧
      ((found = .vacant dir name ∧ d.shape? (dir ++ [name]) = none) ∨
        (found = .node (dir ++ [name]) ∧ d.shape? (dir ++ [name]) ≠ none) ∨
        (follow ∧ ∃ target, d.shape? (dir ++ [name]) = some (.link target))) := by
  obtain ⟨legal, descended⟩ := find_eq_ok_iff.mp h
  obtain ⟨count, enough, reaches⟩ := reaches_of_descend descended
  rw [ends.1] at reaches
  obtain ⟨dir, first, second, before, after, sum⟩ := reaches.split (by simp)
  have places {child : Option Node.Shape} (l : d.LooksUp dir name child) : d.Places p dir name :=
    ⟨legal, ⟨init, ends, first, by omega, before⟩, l.short, l.dir⟩
  refine ⟨dir, ?_⟩
  generalize last : [name] = todo at after
  cases after with
  | here => cases last
  | stay => exact absurd (List.cons.inj last).1 ends.2.ne_dot
  | up => exact absurd (List.cons.inj last).1 ends.2.ne_dots
  | enter looksUp notLink rest =>
    cases last
    cases rest
    exact ⟨places looksUp, .inr (.inl ⟨rfl, by simp [looksUp.child]⟩)⟩
  | through looksUp on =>
    cases last
    exact ⟨places looksUp, .inr (.inr ⟨on.resolve_left (by simp), _, looksUp.child⟩)⟩
  | link looksUp =>
    cases last
    exact ⟨places looksUp, .inr (.inl ⟨rfl, by simp [looksUp.child]⟩)⟩
  | vacant looksUp =>
    cases last
    exact ⟨places looksUp, .inl ⟨rfl, looksUp.child⟩⟩

/-- A path that leads to a file ends with a name. -/
theorem exists_endsIn_of_file {names : List String} {content : List UInt8} {t : Timestamp}
    (located : d.locate follow p = .ok names) (file : d.shape? names = some (.file content t)) :
    ∃ init name, EndsIn p init name := by
  obtain ⟨legal, count, enough, reaches⟩ := locate_eq_ok_iff.mp located
  rcases List.eq_nil_or_concat' (steps p) with none | ⟨init, last, steps⟩
  · exact absurd none (steps_ne_nil legal.ne_empty)
  · have isName : last ≠ "." → last ≠ ".." → IsName last := isName_of_step (by rw [steps]; simp)
    have not_dir : d.shape? names ≠ some .dir := by simp [file]
    rw [steps] at reaches
    obtain ⟨above, first, second, -, after, -⟩ := reaches.split (by simp)
    have ends {child : Option Node.Shape} (l : d.LooksUp above last child) : EndsIn p init last :=
      ⟨steps, isName l.ne_dot l.ne_dots⟩
    generalize one : [last] = todo at after
    cases after with
    | here => cases one
    | stay dir rest =>
      cases one
      cases rest
      exact absurd dir not_dir
    | up dir rest =>
      cases one
      cases rest
      exact absurd (dir_dropLast dir) not_dir
    | enter looksUp | through looksUp | link looksUp =>
      cases one
      exact ⟨init, last, ends looksUp⟩

/-- A path that leads to a file ends with the name of the file, unless it ends with a link. -/
theorem exists_places_of_file {names : List String} {content : List UInt8} {t : Timestamp}
    (located : d.locate false p = .ok names) (file : d.shape? names = some (.file content t)) :
    ∃ above name, d.Places p above name ∧ names = above ++ [name] := by
  obtain ⟨init, name, ends⟩ := exists_endsIn_of_file located file
  obtain ⟨above, places, ⟨vacant, -⟩ | ⟨found, -⟩ | ⟨nofollow, -⟩⟩ :=
    exists_places (find_of_locate located) ends
  · cases vacant
  · exact ⟨above, name, places, Found.node.inj found⟩
  · cases nofollow

theorem Places.unique {dir' : List String} {name' : String} (h : d.Places p dir name)
    (h' : d.Places p dir' name') : dir = dir' ∧ name = name' := by
  obtain ⟨init, ends, count, -, reaches⟩ := h.ends
  obtain ⟨init', ends', count', -, reaches'⟩ := h'.ends
  have steps := ends.1.symm.trans ends'.1
  cases List.append_inj_right' steps rfl
  cases List.append_inj_left' steps rfl
  cases reaches.unique reaches'
  exact ⟨rfl, rfl⟩

/-- What lies at the place can be written over, or there is nothing. -/
def Open (d : Disk) (place : List String) : Prop :=
  d.shape? place ≠ some .dir ∧ ∀ target, d.shape? place ≠ some (.link target)

theorem write_of_places (h : d.Places p dir name) (free : d.Open (dir ++ [name]))
    (content : List UInt8) :
    d.write p content = .ok (d.put (dir ++ [name]) (.file content d.now)) := by
  obtain ⟨init, ends, -⟩ := h.ends
  rw [write, ends.endsWith_slash]
  cases shape : d.shape? (dir ++ [name]) with
  | none => simp [h.find_vacant shape]
  | some found =>
    cases found with
    | link target => exact absurd shape (free.2 target)
    | dir => exact absurd shape free.1
    | file old t =>
      obtain ⟨node, found, eq⟩ := Option.map_eq_some_iff.mp shape
      cases node with
      | link | dir => cases eq
      | file => simp [h.find_solid ⟨_, shape, id⟩, found]

theorem exists_places_of_write {init : List String} {content : List UInt8}
    (h : d.write p content = .ok e) (ends : EndsIn p init name) :
    ∃ dir, d.Places p dir name ∧ d.shape? (dir ++ [name]) ≠ some .dir := by
  rw [write, ends.endsWith_slash] at h
  cases found : d.find true p with
  | error e => simp [found] at h
  | ok f =>
    obtain ⟨dir, places, ⟨rfl, vacant⟩ | ⟨rfl, -⟩ | ⟨-, target, link⟩⟩ := exists_places found ends
    · exact ⟨dir, places, by simp [vacant]⟩
    · refine ⟨dir, places, fun isDir ↦ ?_⟩
      obtain ⟨entries, t, node⟩ := shape?_eq_dir_iff.mp isDir
      simp [found, node] at h
    · exact ⟨dir, places, by simp [link]⟩

end ScriptCache.Disk
