import ScriptCache.Proofs.Disk.Steps

/-!
# Where paths lead

Following a path sees no more of the nodes on its way than their shapes. `Reaches` is the relation
whose results the file system computes: it counts the links on the way, and `descend` is this
relation as far as the links suffice.
-/

namespace ScriptCache

/-- A node without what is below it. -/
inductive Node.Shape where
  | file (content : List UInt8) (mtime : Timestamp)
  | link (target : Path)
  | dir
  deriving DecidableEq

namespace Node

def shape : Node → Shape
  | .file content t => .file content t
  | .link target => .link target
  | .dir _ _ => .dir

def Shape.IsLink : Shape → Prop
  | .link _ => True
  | _ => False

@[simp] theorem at?_nil (node : Node) : node.at? [] = some node := by
  cases node <;> rfl

theorem at?_append (node : Node) (xs ys : List String) :
    node.at? (xs ++ ys) = (node.at? xs).bind (·.at? ys) := by
  induction xs generalizing node with
  | nil => simp
  | cons name xs ih =>
    cases node with
    | dir entries t =>
      simp only [List.cons_append, at?]
      cases entries.lookup name with
      | none => rfl
      | some child => exact ih child
    | file | link => rfl

end Node

namespace Disk

variable {d : Disk} {follow : Bool} {here todo names : List String} {step : String} {links : Nat}

/-- The shape of the node at the end of names. -/
def shape? (d : Disk) (names : List String) : Option Node.Shape := (d.node? names).map Node.shape

theorem node?_child {entries : Node.Entries} {t : Timestamp}
    (h : d.node? here = some (.dir entries t)) (step : String) :
    d.node? (here ++ [step]) = entries.lookup step := by
  rw [node?, Node.at?_append, ← node?, h]
  simp only [Option.bind_some, Node.at?]
  cases entries.lookup step <;> simp

theorem shape?_eq_dir_iff :
    d.shape? names = some .dir ↔ ∃ entries t, d.node? names = some (.dir entries t) := by
  unfold shape?
  rcases d.node? names with - | ⟨_ | _ | _⟩ <;> simp [Node.shape]

theorem shape?_eq_file_iff {content : List UInt8} {t : Timestamp} :
    d.shape? names = some (.file content t) ↔ d.node? names = some (.file content t) := by
  unfold shape?
  rcases d.node? names with - | ⟨_ | _ | _⟩ <;> simp [Node.shape]

/-- Above a node there are directories. -/
theorem shape?_of_append {above below : List String} (h : d.shape? (above ++ below) ≠ none)
    (full : below ≠ []) : d.shape? above = some .dir := by
  rw [shape?, node?, Node.at?_append, ← node?] at h
  rw [shape?_eq_dir_iff]
  obtain ⟨name, below, rfl⟩ := List.exists_cons_of_ne_nil full
  rcases node : d.node? above with - | ⟨_ | _ | ⟨entries, t⟩⟩
  · simp [node] at h
  · simp [node, Node.at?] at h
  · simp [node, Node.at?] at h
  · exact ⟨entries, t, rfl⟩

/-- A name is looked up in a directory, and this is what it belongs to. -/
structure LooksUp (d : Disk) (here : List String) (step : String) (child : Option Node.Shape) :
    Prop where
  dir : d.shape? here = some .dir
  ne_dot : step ≠ "."
  ne_dots : step ≠ ".."
  short : step.utf8ByteSize ≤ nameLimit
  child : d.shape? (here ++ [step]) = child

theorem looksUp {entries : Node.Entries} {t : Timestamp}
    (node : d.node? here = some (.dir entries t)) (ne_dot : step ≠ ".") (ne_dots : step ≠ "..")
    (short : ¬nameLimit < step.utf8ByteSize) :
    d.LooksUp here step ((entries.lookup step).map Node.shape) :=
  ⟨shape?_eq_dir_iff.mpr ⟨_, _, node⟩, ne_dot, ne_dots, Nat.not_lt.mp short,
    by rw [shape?, node?_child node]⟩

/-- Following steps from a directory leads to what is found, through so many links. -/
inductive Reaches (d : Disk) (follow : Bool) : List String → List String → Found → Nat → Prop where
  | here (names : List String) : Reaches d follow names [] (.node names) 0
  | stay {here todo : List String} {found : Found} {count : Nat}
      (dir : d.shape? here = some .dir) (rest : Reaches d follow here todo found count) :
      Reaches d follow here ("." :: todo) found count
  | up {here todo : List String} {found : Found} {count : Nat}
      (dir : d.shape? here = some .dir) (rest : Reaches d follow here.dropLast todo found count) :
      Reaches d follow here (".." :: todo) found count
  | enter {here todo : List String} {step : String} {shape : Node.Shape} {found : Found}
      {count : Nat} (looksUp : d.LooksUp here step (some shape)) (notLink : ¬shape.IsLink)
      (rest : Reaches d follow (here ++ [step]) todo found count) :
      Reaches d follow here (step :: todo) found count
  | through {here todo : List String} {step : String} {target : Path} {found : Found}
      {count : Nat} (looksUp : d.LooksUp here step (some (.link target)))
      (on : todo ≠ [] ∨ follow)
      (rest : Reaches d follow (if target.isAbsolute then [] else here) (steps target ++ todo)
        found count) :
      Reaches d follow here (step :: todo) found (count + 1)
  | link {here : List String} {step : String} {target : Path}
      (looksUp : d.LooksUp here step (some (.link target))) (last : ¬follow) :
      Reaches d follow here [step] (.node (here ++ [step])) 0
  | vacant {here : List String} {step : String} (looksUp : d.LooksUp here step none) :
      Reaches d follow here [step] (.vacant here step) 0

theorem descend_stay (dir : d.shape? here = some .dir) :
    d.descend follow links here ("." :: todo) = d.descend follow links here todo := by
  obtain ⟨entries, t, node⟩ := shape?_eq_dir_iff.mp dir
  rw [descend, node]
  simp

theorem descend_up (dir : d.shape? here = some .dir) :
    d.descend follow links here (".." :: todo) = d.descend follow links here.dropLast todo := by
  obtain ⟨entries, t, node⟩ := shape?_eq_dir_iff.mp dir
  rw [descend, node]
  simp

theorem descend_lookup {child : Option Node.Shape} : d.LooksUp here step child →
    d.descend follow links here (step :: todo) =
      match child with
      | none => if todo.isEmpty then .ok (.vacant here step) else .error .notFound
      | some (.link target) =>
        if todo.isEmpty ∧ ¬follow then .ok (.node (here ++ [step]))
        else
          match links with
          | 0 => .error .tooManyLinks
          | links + 1 =>
            d.descend follow links (if target.isAbsolute then [] else here) (steps target ++ todo)
      | some _ => d.descend follow links (here ++ [step]) todo := by
  rintro ⟨dir, ne_dot, ne_dots, short, rfl⟩
  obtain ⟨entries, t, node⟩ := shape?_eq_dir_iff.mp dir
  rw [shape?, node?_child node, descend, node]
  simp only [if_neg ne_dot, if_neg ne_dots, if_neg (Nat.not_lt.mpr short)]
  rcases entries.lookup step with - | ⟨_ | _ | _⟩ <;> rfl

theorem descend_of_reaches {found : Found} {count : Nat}
    (h : d.Reaches follow here todo found count) (enough : count ≤ links) :
    d.descend follow links here todo = .ok found := by
  induction h generalizing links with
  | here names => rw [descend]
  | stay dir _ ih => rw [descend_stay dir, ih enough]
  | up dir _ ih => rw [descend_up dir, ih enough]
  | @enter here todo step shape found count looksUp notLink _ ih =>
    rw [descend_lookup looksUp]
    cases shape with
    | link => exact absurd trivial notLink
    | file | dir => exact ih enough
  | through looksUp on _ ih =>
    obtain ⟨links, rfl⟩ := Nat.exists_eq_succ_of_ne_zero (Nat.ne_zero_of_lt enough)
    rw [descend_lookup looksUp]
    dsimp only
    rw [if_neg, ih (Nat.le_of_succ_le_succ enough)]
    rintro ⟨empty, last⟩
    exact on.elim (· (List.isEmpty_iff.mp empty)) last
  | link looksUp last =>
    rw [descend_lookup looksUp]
    exact if_pos ⟨rfl, last⟩
  | vacant looksUp =>
    rw [descend_lookup looksUp]
    rfl

theorem reaches_of_descend {found : Found} (h : d.descend follow links here todo = .ok found) :
    ∃ count ≤ links, d.Reaches follow here todo found count := by
  fun_induction descend d follow links here todo with
  | case1 links here =>
    cases h
    exact ⟨0, links.zero_le, .here here⟩
  | case2 | case5 | case7 | case9 | case12 => cases h
  | case3 links here todo entries t node ih =>
    obtain ⟨count, enough, reaches⟩ := ih h
    exact ⟨count, enough, .stay (shape?_eq_dir_iff.mpr ⟨_, _, node⟩) reaches⟩
  | case4 links here todo entries t node _ ih =>
    obtain ⟨count, enough, reaches⟩ := ih h
    exact ⟨count, enough, .up (shape?_eq_dir_iff.mpr ⟨_, _, node⟩) reaches⟩
  | case6 links here step todo entries t node ne_dot ne_dots short lookup empty =>
    cases h
    cases List.isEmpty_iff.mp empty
    have found := looksUp node ne_dot ne_dots short
    rw [lookup] at found
    exact ⟨0, links.zero_le, .vacant found⟩
  | case8 links here step todo entries t node ne_dot ne_dots short target lookup last =>
    cases h
    cases List.isEmpty_iff.mp last.1
    have found := looksUp node ne_dot ne_dots short
    rw [lookup] at found
    exact ⟨0, links.zero_le, .link found last.2⟩
  | case10 here step todo entries t node ne_dot ne_dots short target lookup on links start ih =>
    obtain ⟨count, enough, reaches⟩ := ih h
    have found := looksUp node ne_dot ne_dots short
    rw [lookup] at found
    refine ⟨count + 1, Nat.succ_le_succ enough, .through found ?_ reaches⟩
    by_cases empty : todo = []
    · subst empty
      exact .inr (by simpa using on)
    · exact .inl empty
  | case11 links here step todo entries t node ne_dot ne_dots short child other lookup ih =>
    obtain ⟨count, enough, reaches⟩ := ih h
    have found := looksUp node ne_dot ne_dots short
    rw [lookup] at found
    refine ⟨count, enough, .enter found ?_ reaches⟩
    cases child with
    | link target => exact absurd rfl (other target)
    | file | dir => exact id

theorem descend_eq_ok_iff {found : Found} :
    d.descend follow links here todo = .ok found ↔
      ∃ count ≤ links, d.Reaches follow here todo found count :=
  ⟨reaches_of_descend, fun ⟨_, enough, reaches⟩ ↦ descend_of_reaches reaches enough⟩

namespace Reaches

variable {found other : Found} {count count' : Nat}

/-- Steps are taken in directories only. -/
theorem dir (h : d.Reaches follow here todo found count) (full : todo ≠ []) :
    d.shape? here = some .dir := by
  cases h with
  | here => contradiction
  | stay dir | up dir => exact dir
  | enter l | through l | link l | vacant l => exact l.dir

/-- Steps to a directory are followed by steps from there. -/
theorem append {dir xs ys : List String} (h : d.Reaches true here xs (.node dir) count)
    (h' : d.Reaches follow dir ys found count') (full : ys ≠ []) :
    d.Reaches follow here (xs ++ ys) found (count + count') := by
  generalize found_eq : Found.node dir = middle at h
  induction h with
  | here =>
    cases found_eq
    simpa using h'
  | stay dir _ ih => exact .stay dir (ih found_eq)
  | up dir _ ih => exact .up dir (ih found_eq)
  | enter looksUp notLink _ ih => exact .enter looksUp notLink (ih found_eq)
  | @through here todo _ _ _ count looksUp _ _ ih =>
    have rest := ih found_eq
    rw [List.append_assoc] at rest
    rw [List.cons_append, Nat.add_right_comm]
    exact .through looksUp (.inl (by simp [full])) rest
  | link _ last => exact absurd rfl last
  | vacant => cases found_eq

/-- Before the last steps of a path there are others, and these are followed to the end. -/
theorem split {xs ys : List String} (h : d.Reaches follow here (xs ++ ys) found count)
    (full : ys ≠ []) :
    ∃ dir first second, d.Reaches true here xs (.node dir) first ∧
      d.Reaches follow dir ys found second ∧ first + second = count := by
  generalize todo_eq : xs ++ ys = todo at h
  induction h generalizing xs with
  | here =>
    simp [full] at todo_eq
  | @stay here todo found count dir rest ih =>
    cases xs with
    | nil => exact ⟨_, 0, _, .here _, by subst todo_eq; exact .stay dir rest, Nat.zero_add _⟩
    | cons x xs =>
      cases todo_eq
      obtain ⟨middle, first, second, before, after, sum⟩ := ih rfl
      exact ⟨middle, first, second, .stay dir before, after, sum⟩
  | @up here todo found count dir rest ih =>
    cases xs with
    | nil => exact ⟨_, 0, _, .here _, by subst todo_eq; exact .up dir rest, Nat.zero_add _⟩
    | cons x xs =>
      cases todo_eq
      obtain ⟨middle, first, second, before, after, sum⟩ := ih rfl
      exact ⟨middle, first, second, .up dir before, after, sum⟩
  | enter looksUp notLink rest ih =>
    cases xs with
    | nil =>
      exact ⟨_, 0, _, .here _, by subst todo_eq; exact .enter looksUp notLink rest, Nat.zero_add _⟩
    | cons x xs =>
      cases todo_eq
      obtain ⟨middle, first, second, before, after, sum⟩ := ih rfl
      exact ⟨middle, first, second, .enter looksUp notLink before, after, sum⟩
  | through looksUp on rest ih =>
    cases xs with
    | nil =>
      exact ⟨_, 0, _, .here _, by subst todo_eq; exact .through looksUp on rest, Nat.zero_add _⟩
    | cons x xs =>
      cases todo_eq
      obtain ⟨middle, first, second, before, after, sum⟩ := ih (List.append_assoc ..)
      exact ⟨middle, first + 1, second, .through looksUp (.inr rfl) before, after, by omega⟩
  | link looksUp last =>
    cases xs with
    | nil => exact ⟨_, 0, _, .here _, by subst todo_eq; exact .link looksUp last, Nat.zero_add _⟩
    | cons x xs =>
      cases List.append_eq_nil_iff.mp (List.cons.inj todo_eq).2 |>.2
      contradiction
  | vacant looksUp =>
    cases xs with
    | nil => exact ⟨_, 0, _, .here _, by subst todo_eq; exact .vacant looksUp, Nat.zero_add _⟩
    | cons x xs =>
      cases List.append_eq_nil_iff.mp (List.cons.inj todo_eq).2 |>.2
      contradiction

/-- Without following a link at its end, a path leads where it led, or to a link. -/
theorem unfollow (h : d.Reaches true here todo (.node names) count) :
    d.Reaches false here todo (.node names) count ∨
      ∃ last target count', d.Reaches false here todo (.node last) count' ∧
        d.shape? last = some (.link target) ∧ count' ≤ count := by
  generalize found_eq : Found.node names = found at h
  induction h with
  | here =>
    cases found_eq
    exact .inl (.here _)
  | stay dir _ ih =>
    obtain rest | ⟨last, target, count', rest, link, le⟩ := ih found_eq
    · exact .inl (.stay dir rest)
    · exact .inr ⟨last, target, count', .stay dir rest, link, le⟩
  | up dir _ ih =>
    obtain rest | ⟨last, target, count', rest, link, le⟩ := ih found_eq
    · exact .inl (.up dir rest)
    · exact .inr ⟨last, target, count', .up dir rest, link, le⟩
  | enter looksUp notLink _ ih =>
    obtain rest | ⟨last, target, count', rest, link, le⟩ := ih found_eq
    · exact .inl (.enter looksUp notLink rest)
    · exact .inr ⟨last, target, count', .enter looksUp notLink rest, link, le⟩
  | @through here todo step target found count looksUp _ _ ih =>
    by_cases empty : todo = []
    · subst empty
      exact .inr ⟨_, target, 0, .link looksUp (by simp), looksUp.child, Nat.zero_le _⟩
    · obtain rest | ⟨last, target, count', rest, link, le⟩ := ih found_eq
      · exact .inl (.through looksUp (.inl empty) rest)
      · exact .inr ⟨last, target, count' + 1, .through looksUp (.inl empty) rest, link,
          Nat.succ_le_succ le⟩
  | link _ last => exact absurd rfl last
  | vacant => cases found_eq

/-- A path that does not end at a link leads to the same place when links are followed. -/
theorem followed (h : d.Reaches false here todo (.node names) count)
    (notLink : ∀ target, d.shape? names ≠ some (.link target)) :
    d.Reaches true here todo (.node names) count := by
  generalize found_eq : Found.node names = found at h
  induction h with
  | here =>
    cases found_eq
    exact .here _
  | stay dir _ ih => exact .stay dir (ih found_eq)
  | up dir _ ih => exact .up dir (ih found_eq)
  | enter looksUp notLink _ ih => exact .enter looksUp notLink (ih found_eq)
  | through looksUp _ _ ih => exact .through looksUp (.inr rfl) (ih found_eq)
  | link looksUp =>
    cases found_eq
    exact absurd looksUp.child (notLink _)
  | vacant => cases found_eq

/-- What a path leads to is found also where there is more than before. -/
theorem mono {e : Disk}
    (more : ∀ names shape, d.shape? names = some shape → e.shape? names = some shape)
    (h : d.Reaches follow here todo (.node names) count) :
    e.Reaches follow here todo (.node names) count := by
  generalize found_eq : Found.node names = found at h
  have looksUp {here : List String} {step : String} {shape : Node.Shape}
      (l : d.LooksUp here step (some shape)) : e.LooksUp here step (some shape) :=
    ⟨more _ _ l.dir, l.ne_dot, l.ne_dots, l.short, more _ _ l.child⟩
  induction h with
  | here => exact .here _
  | stay dir _ ih => exact .stay (more _ _ dir) (ih found_eq)
  | up dir _ ih => exact .up (more _ _ dir) (ih found_eq)
  | enter l notLink _ ih => exact .enter (looksUp l) notLink (ih found_eq)
  | through l on _ ih => exact .through (looksUp l) on (ih found_eq)
  | link l last => exact .link (looksUp l) last
  | vacant => cases found_eq

theorem unique (h : d.Reaches follow here todo found count)
    (h' : d.Reaches follow here todo other count') : found = other := by
  have one := descend_of_reaches h (Nat.le_max_left count count')
  have two := descend_of_reaches h' (Nat.le_max_right count count')
  rw [one] at two
  exact Except.ok.inj two

theorem of_stay (h : d.Reaches follow here ("." :: todo) found count) :
    d.Reaches follow here todo found count := by
  generalize dot : "." = step at h
  cases h with
  | stay _ rest => exact rest
  | up => exact absurd dot (by decide)
  | enter looksUp => exact absurd dot.symm looksUp.ne_dot
  | through looksUp => exact absurd dot.symm looksUp.ne_dot
  | link looksUp => exact absurd dot.symm looksUp.ne_dot
  | vacant looksUp => exact absurd dot.symm looksUp.ne_dot

end Reaches

/-- There is a node at the end of names, and it is no link. -/
def Solid (d : Disk) (names : List String) : Prop :=
  ∃ shape, d.shape? names = some shape ∧ ¬shape.IsLink

theorem solid_iff_of_node {node : Node} (found : d.node? names = some node) :
    d.Solid names ↔ ¬node.shape.IsLink := by
  simp [Solid, shape?, found]

theorem solid_of_dir (dir : d.shape? names = some .dir) : d.Solid names := ⟨.dir, dir, id⟩

theorem dir_root (dir : d.shape? here = some .dir) : d.shape? [] = some .dir := by
  by_cases empty : here = []
  · rwa [empty] at dir
  · exact shape?_of_append (by rw [List.nil_append, dir]; simp) empty

theorem dir_dropLast (dir : d.shape? here = some .dir) : d.shape? here.dropLast = some .dir := by
  by_cases empty : here = []
  · rwa [empty] at dir ⊢
  · have present : d.shape? (here.dropLast ++ [here.getLast empty]) ≠ none := by
      rw [List.dropLast_concat_getLast, dir]
      simp
    exact shape?_of_append present (by simp)

theorem Solid.above {below : List String} (solid : d.Solid (names ++ below)) : d.Solid names := by
  by_cases empty : below = []
  · rwa [empty, List.append_nil] at solid
  · obtain ⟨shape, eq, -⟩ := solid
    exact solid_of_dir (shape?_of_append (by rw [eq]; simp) empty)

theorem LooksUp.not_solid {target : Path} (h : d.LooksUp here step (some (.link target))) :
    ¬d.Solid (here ++ [step]) := by
  rintro ⟨shape, eq, notLink⟩
  rw [h.child] at eq
  cases eq
  exact notLink trivial

/-- A path that is followed to its end does not end at a link. -/
theorem Reaches.solid {count : Nat} (h : d.Reaches true here todo (.node names) count)
    (here_solid : todo = [] → d.Solid here) : d.Solid names := by
  generalize found_eq : Found.node names = found at h
  induction h with
  | here =>
    cases found_eq
    exact here_solid rfl
  | stay dir _ ih => exact ih (fun _ ↦ solid_of_dir dir) found_eq
  | up dir _ ih => exact ih (fun _ ↦ solid_of_dir (dir_dropLast dir)) found_eq
  | enter looksUp notLink _ ih => exact ih (fun _ ↦ ⟨_, looksUp.child, notLink⟩) found_eq
  | through looksUp _ _ ih =>
    refine ih (fun _ ↦ ?_) found_eq
    split
    · exact solid_of_dir (dir_root looksUp.dir)
    · exact solid_of_dir looksUp.dir
  | link _ last => exact absurd rfl last
  | vacant => cases found_eq

section Names

open ScriptCache.Path (IsName)

theorem isName_of_step {p : Path} (h : step ∈ steps p) (ne_dot : step ≠ ".") (ne_dots : step ≠ "..") :
    IsName step :=
  ⟨(of_mem_steps h).1, ne_dot, ne_dots, (of_mem_steps h).2⟩

/-- Steps that are names, or have a meaning of their own. -/
def AreSteps (todo : List String) : Prop :=
  ∀ step ∈ todo, step ≠ "." → step ≠ ".." → IsName step

theorem areSteps_steps (p : Path) : AreSteps (steps p) := fun _ h ↦ isName_of_step h

/-- Where there are proper names at the start of a path, there are such at its end. -/
theorem Reaches.isName {count : Nat} (h : d.Reaches follow here todo (.node names) count)
    (todo_steps : AreSteps todo) (here_names : ∀ name ∈ here, IsName name) :
    ∀ name ∈ names, IsName name := by
  generalize found_eq : Found.node names = found at h
  have entered {here : List String} {step : String} {child : Option Node.Shape}
      (looksUp : d.LooksUp here step child) (step_isName : step ≠ "." → step ≠ ".." → IsName step)
      (h : ∀ name ∈ here, IsName name) : ∀ name ∈ here ++ [step], IsName name := by
    intro name mem
    rcases List.mem_append.mp mem with mem | mem
    · exact h name mem
    · cases List.mem_singleton.mp mem
      exact step_isName looksUp.ne_dot looksUp.ne_dots
  induction h with
  | here =>
    cases found_eq
    exact here_names
  | stay _ _ ih => exact ih (fun s hs ↦ todo_steps s (List.mem_cons_of_mem _ hs)) here_names found_eq
  | up _ _ ih =>
    exact ih (fun s hs ↦ todo_steps s (List.mem_cons_of_mem _ hs))
      (fun n hn ↦ here_names n (List.dropLast_subset _ hn)) found_eq
  | enter looksUp _ _ ih =>
    exact ih (fun s hs ↦ todo_steps s (List.mem_cons_of_mem _ hs))
      (entered looksUp (todo_steps _ List.mem_cons_self) here_names) found_eq
  | @through _ _ _ target _ _ looksUp _ _ ih =>
    refine ih (fun s hs ↦ ?_) ?_ found_eq
    · rcases List.mem_append.mp hs with hs | hs
      · exact areSteps_steps target s hs
      · exact todo_steps s (List.mem_cons_of_mem _ hs)
    · split
      · simp
      · exact here_names
  | link looksUp =>
    cases found_eq
    exact entered looksUp (todo_steps _ List.mem_cons_self) here_names
  | vacant => cases found_eq

/-- A free name is a proper one, and free in a directory. -/
theorem Reaches.vacant_looksUp {dir : List String} {name : String} {count : Nat}
    (h : d.Reaches follow here todo (.vacant dir name) count) (todo_steps : AreSteps todo) :
    d.LooksUp dir name none ∧ IsName name := by
  generalize found_eq : Found.vacant dir name = found at h
  induction h with
  | here => cases found_eq
  | stay _ _ ih | up _ _ ih | enter _ _ _ ih =>
    exact ih (fun s hs ↦ todo_steps s (List.mem_cons_of_mem _ hs)) found_eq
  | @through _ _ _ target _ _ _ _ _ ih =>
    refine ih (fun s hs ↦ ?_) found_eq
    rcases List.mem_append.mp hs with hs | hs
    · exact areSteps_steps target s hs
    · exact todo_steps s (List.mem_cons_of_mem _ hs)
  | link => cases found_eq
  | vacant looksUp =>
    cases found_eq
    exact ⟨looksUp, todo_steps _ List.mem_cons_self looksUp.ne_dot looksUp.ne_dots⟩

/-- Names lead to the node at their end, when they lead anywhere. -/
theorem Reaches.eq_append {found : Found} {count : Nat} (h : d.Reaches true here names found count)
    (names_names : ∀ name ∈ names, IsName name) (solid : d.Solid (here ++ names)) :
    found = .node (here ++ names) := by
  induction names generalizing here count with
  | nil =>
    cases h
    simp
  | cons name names ih =>
    have name_name := names_names name List.mem_cons_self
    have on : here ++ name :: names = (here ++ [name]) ++ names := by simp
    rw [on] at solid ⊢
    cases h with
    | stay => exact absurd rfl name_name.ne_dot
    | up => exact absurd rfl name_name.ne_dots
    | enter _ _ rest => exact ih rest (fun n hn ↦ names_names n (List.mem_cons_of_mem _ hn)) solid
    | through looksUp => exact absurd solid.above looksUp.not_solid
    | link _ last => exact absurd rfl last
    | vacant looksUp =>
      obtain ⟨shape, eq, -⟩ := solid
      rw [List.append_nil, looksUp.child] at eq
      cases eq

/-- Names that are not too long lead to the node at their end. -/
theorem reaches_names (names_names : ∀ name ∈ names, IsName name)
    (short : ∀ name ∈ names, name.utf8ByteSize ≤ nameLimit) (solid : d.Solid (here ++ names)) :
    d.Reaches follow here names (.node (here ++ names)) 0 := by
  induction names generalizing here with
  | nil => simpa using Reaches.here here
  | cons name names ih =>
    have on : here ++ name :: names = (here ++ [name]) ++ names := by simp
    rw [on] at solid ⊢
    obtain ⟨-, ne_dot, ne_dots, -⟩ := names_names name List.mem_cons_self
    obtain ⟨shape, child, notLink⟩ := solid.above
    have dir : d.shape? here = some .dir := shape?_of_append (by rw [child]; simp) (by simp)
    exact .enter ⟨dir, ne_dot, ne_dots, short name List.mem_cons_self, child⟩ notLink
      (ih (fun n hn ↦ names_names n (List.mem_cons_of_mem _ hn))
        (fun n hn ↦ short n (List.mem_cons_of_mem _ hn)) solid)

end Names

end Disk

end ScriptCache
