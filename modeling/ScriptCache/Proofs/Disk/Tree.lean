import ScriptCache.Disk.Change
import ScriptCache.Proofs.Disk.Reaches
import ScriptCache.Proofs.Registry

/-!
# Changes of a tree

Putting a node into a tree and taking one away change the shape at one place only, as long as there
is nothing below this place.
-/

namespace ScriptCache

namespace Sorted

variable {α : Type} {name other : String} {value : α} {entries : List (String × α)}

theorem lookup_cons (e : String × α) (entries : List (String × α)) (name : String) :
    (e :: entries).lookup name = if name = e.1 then some e.2 else entries.lookup name := by
  rw [List.lookup_cons]
  by_cases eq : name = e.1
  · simp [eq]
  · rw [if_neg eq, beq_false_of_ne eq]

theorem lookup_filter_self : (entries.filter (·.1 ≠ name)).lookup name = none := by
  rw [List.lookup_eq_none_iff]
  intro e mem
  have ne : e.1 ≠ name := by simpa using (List.mem_filter.mp mem).2
  exact bne_iff_ne.mpr ne.symm

theorem lookup_filter_of_ne (h : other ≠ name) :
    (entries.filter (·.1 ≠ name)).lookup other = entries.lookup other := by
  induction entries with
  | nil => rfl
  | cons e entries ih =>
    rw [List.filter_cons, lookup_cons, ← ih]
    split
    · rw [lookup_cons]
    · rename_i eq
      have eq : e.1 = name := by simpa using eq
      rw [eq, if_neg h]

theorem lookup_map_self (f : α → α) :
    (entries.map fun e ↦ if e.1 = name then (e.1, f e.2) else e).lookup name =
      (entries.lookup name).map f := by
  induction entries with
  | nil => rfl
  | cons e entries ih =>
    rw [List.map_cons, lookup_cons e]
    by_cases eq : e.1 = name
    · simp [eq]
    · rw [if_neg eq, lookup_cons, ih, if_neg (Ne.symm eq), if_neg (Ne.symm eq)]

theorem lookup_map_of_ne (h : other ≠ name) (f : α → α) :
    (entries.map fun e ↦ if e.1 = name then (e.1, f e.2) else e).lookup other =
      entries.lookup other := by
  induction entries with
  | nil => rfl
  | cons e entries ih =>
    rw [List.map_cons, lookup_cons, lookup_cons e, ← ih]
    by_cases eq : e.1 = name
    · rw [if_pos eq, eq, if_neg h, if_neg h]
    · rw [if_neg eq]

theorem filter_place : (place name value entries).filter (·.1 ≠ name) =
    entries.filter (·.1 ≠ name) := by
  induction entries with
  | nil => simp [place]
  | cons e entries ih =>
    rw [place]
    split
    · rw [List.filter_cons_of_neg (by simp)]
    · split
      · rename_i eq
        rw [List.filter_cons_of_neg (by simp), List.filter_cons_of_neg (by simp [eq])]
      · rw [List.filter_cons, List.filter_cons, ih]

theorem filter_eq_self (h : entries.lookup name = none) :
    entries.filter (·.1 ≠ name) = entries := by
  rw [List.filter_eq_self]
  intro e mem
  have ne : name ≠ e.1 := bne_iff_ne.mp (List.lookup_eq_none_iff.mp h e mem)
  exact decide_eq_true ne.symm

end Sorted

namespace Node

variable {node new : Node} {entries : Entries} {t : Timestamp} {name : String}
  {names above : List String}

/-- There is nothing below the node. -/
def Childless (node : Node) : Prop := node.entries = []

theorem childless_file (content : List UInt8) : (file content t).Childless := rfl

theorem childless_empty : (dir [] t).Childless := rfl

theorem at?_of_childless (h : node.Childless) (name : String) (names : List String) :
    node.at? (name :: names) = none := by
  cases node with
  | file | link => rfl
  | dir entries t =>
    cases h
    rfl

@[simp] theorem at?_cons :
    (dir entries t).at? (name :: names) = (entries.lookup name).bind (·.at? names) := rfl

/-- Changes the entries of the directory at the end of names. -/
def alter (f : Entries → Entries) : Node → List String → Node
  | .dir entries t, [] => .dir (f entries) t
  | .dir entries t, name :: names =>
    .dir (entries.map fun e ↦ if e.1 = name then (e.1, alter f e.2 names) else e) t
  | node, _ => node

theorem put_eq_alter (node : Node) (above : List String) (name : String) :
    put new node (above ++ [name]) = alter (Sorted.place name new) node above := by
  induction above generalizing node with
  | nil => cases node <;> rfl
  | cons step above ih =>
    cases node with
    | file | link => simp [put, alter]
    | dir entries t =>
      have full : above ++ [name] ≠ [] := by simp
      rw [List.cons_append, put, alter]
      · simp only [ih]
      · exact full

theorem erase_eq_alter (node : Node) (above : List String) (name : String) :
    erase node (above ++ [name]) = alter (·.filter (·.1 ≠ name)) node above := by
  induction above generalizing node with
  | nil => cases node <;> rfl
  | cons step above ih =>
    cases node with
    | file | link => simp [erase, alter]
    | dir entries t =>
      have full : above ++ [name] ≠ [] := by simp
      rw [List.cons_append, erase, alter]
      · simp only [ih]
      · exact full

section Alter

variable {f : Entries → Entries}

@[simp] theorem shape_alter (node : Node) (names : List String) :
    (alter f node names).shape = node.shape := by
  cases node <;> cases names <;> rfl

theorem at?_alter_append (node : Node) (names below : List String) :
    (alter f node (names ++ below)).at? names = (node.at? names).map (alter f · below) := by
  induction names generalizing node with
  | nil => simp
  | cons name names ih =>
    cases node with
    | file | link => rfl
    | dir entries t =>
      rw [List.cons_append, alter, at?_cons, at?_cons,
        Sorted.lookup_map_self (alter f · (names ++ below))]
      cases entries.lookup name with
      | none => rfl
      | some child => exact ih child

theorem at?_alter_below (node : Node) (above names : List String) :
    (alter f node above).at? (above ++ names) =
      (node.at? above).bind fun found ↦ (alter f found []).at? names := by
  have here := at?_alter_append (f := f) node above []
  rw [List.append_nil] at here
  rw [at?_append, here]
  cases node.at? above <;> rfl

theorem at?_alter_beside (node : Node) (above : List String) {step other : String}
    (ne : other ≠ step) (names below : List String) :
    (alter f node (above ++ step :: below)).at? (above ++ other :: names) =
      node.at? (above ++ other :: names) := by
  rw [at?_append, at?_alter_append, at?_append]
  rcases node.at? above with _ | ⟨_ | _ | _⟩
  · rfl
  · rfl
  · rfl
  · rw [Option.map_some, Option.bind_some, alter, at?_cons, Option.bind_some, at?_cons,
      Sorted.lookup_map_of_ne ne (alter f · below)]

/-- Names go on from others, are gone on from, or part from them. -/
theorem append_or_append_or_beside (xs ys : List String) :
    (∃ below, ys = xs ++ below) ∨ (∃ step rest, xs = ys ++ step :: rest) ∨
      ∃ above step other us vs, step ≠ other ∧ xs = above ++ step :: us ∧
        ys = above ++ other :: vs := by
  induction xs generalizing ys with
  | nil => exact .inl ⟨ys, rfl⟩
  | cons x xs ih =>
    cases ys with
    | nil => exact .inr (.inl ⟨x, xs, rfl⟩)
    | cons y ys =>
      by_cases same : x = y
      · subst same
        obtain ⟨below, rfl⟩ | ⟨step, rest, rfl⟩ | ⟨above, step, other, us, vs, ne, rfl, rfl⟩ :=
          ih ys
        · exact .inl ⟨below, rfl⟩
        · exact .inr (.inl ⟨step, rest, rfl⟩)
        · exact .inr (.inr ⟨x :: above, step, other, us, vs, ne, rfl, rfl⟩)
      · exact .inr (.inr ⟨[], x, y, xs, ys, same, rfl, rfl⟩)

/-- One name only is looked up differently, and there is nothing below it before and after. -/
structure AltersOnly (f : Entries → Entries) (entries : Entries) (name : String) : Prop where
  same : ∀ other ≠ name, (f entries).lookup other = entries.lookup other
  before : ∀ node, entries.lookup name = some node → node.Childless
  after : ∀ node, (f entries).lookup name = some node → node.Childless

/-- Nothing but the one place changes. -/
theorem shape_at?_alter (h : node.at? above = some (.dir entries t))
    (only : AltersOnly f entries name) (other : names ≠ above ++ [name]) :
    ((alter f node above).at? names).map shape = (node.at? names).map shape := by
  obtain ⟨below, rfl⟩ | ⟨step, rest, rfl⟩ | ⟨up, step, next, us, vs, ne, rfl, rfl⟩ :=
    append_or_append_or_beside names above
  · rw [at?_alter_append]
    cases node.at? names with
    | none => rfl
    | some found => exact congrArg some (shape_alter found below)
  · rw [at?_alter_below, at?_append, h, Option.bind_some, Option.bind_some, alter, at?_cons, at?_cons]
    by_cases same : step = name
    · subst same
      obtain ⟨next, rest, rfl⟩ := List.exists_cons_of_ne_nil (l := rest) (by
        rintro rfl
        exact other rfl)
      have gone {entries : Entries}
          (bare : ∀ node, entries.lookup step = some node → node.Childless) :
          (entries.lookup step).bind (·.at? (next :: rest)) = none := by
        rw [Option.bind_eq_none_iff]
        exact fun node looked ↦ at?_of_childless (bare node looked) next rest
      rw [gone only.before, gone only.after]
    · rw [only.same step same]
  · rw [at?_alter_beside node up ne]

/-- A node elsewhere stays, or it is changed below. -/
theorem at?_alter_of_some (h : node.at? above = some (.dir entries t))
    (only : AltersOnly f entries name) (other : names ≠ above ++ [name]) {found : Node}
    (found_at : node.at? names = some found) :
    (alter f node above).at? names = some found ∨
      ∃ below, above = names ++ below ∧
        (alter f node above).at? names = some (alter f found below) := by
  obtain ⟨below, rfl⟩ | ⟨step, rest, rfl⟩ | ⟨up, step, next, us, vs, ne, rfl, rfl⟩ :=
    append_or_append_or_beside names above
  · exact .inr ⟨below, rfl, by rw [at?_alter_append, found_at, Option.map_some]⟩
  · rw [at?_append, h, Option.bind_some, at?_cons] at found_at
    obtain ⟨child, looked, child_at⟩ := Option.bind_eq_some_iff.mp found_at
    left
    rw [at?_alter_below, h, Option.bind_some, alter, at?_cons]
    by_cases same : step = name
    · subst same
      obtain ⟨next, rest, rfl⟩ := List.exists_cons_of_ne_nil (l := rest) (by
        rintro rfl
        exact other rfl)
      rw [at?_of_childless (only.before child looked)] at child_at
      cases child_at
    · rw [only.same step same, looked, Option.bind_some, child_at]
  · exact .inl (by rw [at?_alter_beside node up ne, found_at])

theorem alter_alter (g : Entries → Entries) (node : Node) (above : List String) :
    alter g (alter f node above) above = alter (g ∘ f) node above := by
  induction above generalizing node with
  | nil => cases node <;> rfl
  | cons step above ih =>
    cases node with
    | file | link => rfl
    | dir entries t =>
      simp only [alter, List.map_map]
      congr 1
      refine List.map_congr_left fun e _ ↦ ?_
      by_cases same : e.1 = step <;> simp [same, ih]

end Alter

theorem altersOnly_place (bare : new.Childless)
    (before : ∀ node, entries.lookup name = some node → node.Childless) :
    AltersOnly (Sorted.place name new) entries name where
  same _ ne := Sorted.lookup_place_of_ne ne
  before := before
  after node looked := by
    rw [Sorted.lookup_place_self] at looked
    exact Option.some.inj looked ▸ bare

theorem altersOnly_filter (before : ∀ node, entries.lookup name = some node → node.Childless) :
    AltersOnly (·.filter (·.1 ≠ name)) entries name where
  same _ ne := Sorted.lookup_filter_of_ne ne
  before := before
  after node looked := by
    rw [Sorted.lookup_filter_self] at looked
    cases looked

theorem lookup_of_at? (h : node.at? above = some (.dir entries t)) (name : String) :
    node.at? (above ++ [name]) = entries.lookup name := by
  rw [at?_append, h, Option.bind_some, at?_cons]
  simp

theorem at?_put_self (h : node.at? above = some (.dir entries t)) (name : String) :
    (put new node (above ++ [name])).at? (above ++ [name]) = some new := by
  rw [put_eq_alter, at?_alter_below, h, Option.bind_some, alter, at?_cons, Sorted.lookup_place_self]
  simp

theorem at?_erase_self (h : node.at? above = some (.dir entries t)) (name : String) :
    (erase node (above ++ [name])).at? (above ++ [name]) = none := by
  rw [erase_eq_alter, at?_alter_below, h, Option.bind_some, alter, at?_cons,
    Sorted.lookup_filter_self]
  rfl

/-- Putting a node in and taking it away leaves no more than taking away. -/
theorem erase_put (node : Node) (above : List String) (name : String) :
    erase (put new node (above ++ [name])) (above ++ [name]) = erase node (above ++ [name]) := by
  rw [put_eq_alter, erase_eq_alter, erase_eq_alter, alter_alter]
  congr 1
  exact funext fun entries ↦ Sorted.filter_place

/-- In every directory there are proper names in order. -/
inductive WellFormed : Node → Prop where
  | file (content : List UInt8) (t : Timestamp) : WellFormed (.file content t)
  | link (target : Path) : WellFormed (.link target)
  | dir {entries : Entries} (t : Timestamp) (sorted : entries.Pairwise (·.1 < ·.1))
      (names : ∀ e ∈ entries, Path.IsName e.1) (nodes : ∀ e ∈ entries, WellFormed e.2) :
      WellFormed (.dir entries t)

namespace WellFormed

theorem child (h : (Node.dir entries t).WellFormed) (looked : entries.lookup name = some node) :
    Path.IsName name ∧ node.WellFormed := by
  obtain - | - | ⟨-, -, names, nodes⟩ := h
  have mem := Sorted.mem_of_lookup looked
  exact ⟨names _ mem, nodes _ mem⟩

theorem at? (h : node.WellFormed) {found : Node} (found_at : node.at? names = some found) :
    found.WellFormed := by
  induction names generalizing node with
  | nil =>
    cases (at?_nil node).symm.trans found_at
    exact h
  | cons name names ih =>
    cases node with
    | file | link => cases found_at
    | dir entries t =>
      obtain ⟨child, looked, found_at⟩ := Option.bind_eq_some_iff.mp found_at
      exact ih (h.child looked).2 found_at

theorem isName (h : node.WellFormed) {found : Node} (found_at : node.at? names = some found) :
    ∀ name ∈ names, Path.IsName name := by
  induction names generalizing node with
  | nil => simp
  | cons name names ih =>
    cases node with
    | file | link => cases found_at
    | dir entries t =>
      obtain ⟨child, looked, found_at⟩ := Option.bind_eq_some_iff.mp found_at
      obtain ⟨first, child_wf⟩ := h.child looked
      exact List.forall_mem_cons.mpr ⟨first, ih child_wf found_at⟩

theorem map {f : Node → Node} (h : (Node.dir entries t).WellFormed)
    (f_wf : ∀ node : Node, node.WellFormed → (f node).WellFormed) :
    (Node.dir (entries.map fun e ↦ if e.1 = name then (e.1, f e.2) else e) t).WellFormed := by
  obtain - | - | ⟨-, sorted, names, nodes⟩ := h
  have key (e : String × Node) : (if e.1 = name then (e.1, f e.2) else e).1 = e.1 := by
    split <;> rfl
  refine .dir t ?_ ?_ ?_
  · rw [List.pairwise_map]
    exact sorted.imp fun {a b} lt ↦ by rwa [key, key]
  · intro e mem
    obtain ⟨old, old_mem, rfl⟩ := List.mem_map.mp mem
    rw [key]
    exact names old old_mem
  · intro e mem
    obtain ⟨old, old_mem, rfl⟩ := List.mem_map.mp mem
    split
    · exact f_wf _ (nodes old old_mem)
    · exact nodes old old_mem

theorem alter {f : Entries → Entries} (h : node.WellFormed)
    (f_wf : ∀ {entries : Entries} {t : Timestamp}, (Node.dir entries t).WellFormed →
      (Node.dir (f entries) t).WellFormed) (above : List String) :
    (node.alter f above).WellFormed := by
  induction above generalizing node with
  | nil =>
    cases node with
    | file | link => exact h
    | dir entries t => exact f_wf h
  | cons step above ih =>
    cases node with
    | file | link => exact h
    | dir entries t => exact h.map fun _ ↦ ih

theorem put (h : node.WellFormed) (new_wf : new.WellFormed) (name_name : Path.IsName name)
    (above : List String) : (put new node (above ++ [name])).WellFormed := by
  rw [put_eq_alter]
  refine h.alter (fun wf ↦ ?_) above
  obtain - | - | ⟨_, sorted, names, nodes⟩ := wf
  refine .dir _ (Sorted.pairwise_place _ _ sorted) (fun e mem ↦ ?_) fun e mem ↦ ?_
  · rcases Sorted.mem_place mem with rfl | mem
    · exact name_name
    · exact names e mem
  · rcases Sorted.mem_place mem with rfl | mem
    · exact new_wf
    · exact nodes e mem

theorem erase (h : node.WellFormed) (name : String) (above : List String) :
    (erase node (above ++ [name])).WellFormed := by
  rw [erase_eq_alter]
  refine h.alter (fun wf ↦ ?_) above
  obtain - | - | ⟨_, sorted, names, nodes⟩ := wf
  exact .dir _ (sorted.filter _) (fun e mem ↦ names e (List.mem_filter.mp mem).1)
    fun e mem ↦ nodes e (List.mem_filter.mp mem).1

/-- Entries that stay as they are change nothing. -/
theorem alter_eq_self {f : Entries → Entries} (h : node.WellFormed)
    (same : ∀ entries t, node.at? above = some (.dir entries t) → f entries = entries) :
    node.alter f above = node := by
  induction above generalizing node with
  | nil =>
    cases node with
    | file | link => rfl
    | dir entries t => rw [Node.alter, same entries t (at?_nil _)]
  | cons step above ih =>
    cases node with
    | file | link => rfl
    | dir entries t =>
      obtain - | - | ⟨_, sorted, -, nodes⟩ := h
      rw [Node.alter]
      congr 1
      refine (List.map_congr_left fun e mem ↦ ?_).trans (List.map_id _)
      split
      · rename_i named
        rw [ih (nodes e mem) fun entries t found ↦ same entries t (by
          rw [at?_cons, ← named, Sorted.lookup_of_mem sorted mem, Option.bind_some, found])]
        rfl
      · rfl

/-- Where there is nothing, there is nothing to take away. -/
theorem erase_of_none (h : node.WellFormed) (vacant : node.at? (above ++ [name]) = none) :
    Node.erase node (above ++ [name]) = node := by
  rw [erase_eq_alter]
  refine h.alter_eq_self fun entries t found ↦ Sorted.filter_eq_self ?_
  rwa [lookup_of_at? found] at vacant

end WellFormed

end Node

end ScriptCache
