import ScriptCache.Registry

/-!
# Looking up entries

What is found under a name after an entry was put in, for lists in the order of their names and
for registries.
-/

namespace ScriptCache

namespace Sorted

variable {α : Type} {name other : String} {value : α} {entries : List (String × α)}

@[simp] theorem lookup_place_self : (place name value entries).lookup name = some value := by
  induction entries with
  | nil => simp [place]
  | cons e entries ih =>
    rw [place]
    split
    · exact List.lookup_cons_self
    · split
      · exact List.lookup_cons_self
      · rename_i ne
        rw [List.lookup_cons, beq_false_of_ne ne, ih]

theorem lookup_place_of_ne (h : other ≠ name) :
    (place name value entries).lookup other = entries.lookup other := by
  induction entries with
  | nil => simp [place, List.lookup_cons, beq_false_of_ne h]
  | cons e entries ih =>
    rw [place]
    split
    · rw [List.lookup_cons, beq_false_of_ne h]
    · split
      · rename_i eq
        rw [List.lookup_cons, List.lookup_cons, beq_false_of_ne h, ← eq, beq_false_of_ne h]
      · rw [List.lookup_cons, List.lookup_cons, ih]

/-- An entry that comes last is put behind all others. -/
theorem place_behind (h : ∀ e ∈ entries, e.1 < name) :
    place name value entries = entries ++ [(name, value)] := by
  induction entries with
  | nil => rfl
  | cons e entries ih =>
    obtain ⟨first, rest⟩ := List.forall_mem_cons.mp h
    have later : ¬name < e.1 := fun earlier ↦ String.lt_irrefl _ (String.lt_trans first earlier)
    rw [place, if_neg later, if_neg (String.ne_of_lt first).symm, ih rest, List.cons_append]

theorem mem_of_lookup (h : entries.lookup name = some value) : (name, value) ∈ entries := by
  induction entries with
  | nil => simp at h
  | cons e entries ih =>
    rw [List.lookup_cons] at h
    split at h
    · rename_i eq
      cases eq_of_beq eq
      cases h
      exact List.mem_cons_self
    · exact List.mem_cons_of_mem _ (ih h)

theorem lookup_of_mem (sorted : entries.Pairwise (·.1 < ·.1)) (h : (name, value) ∈ entries) :
    entries.lookup name = some value := by
  induction entries with
  | nil => simp at h
  | cons e entries ih =>
    have ⟨first, rest⟩ := List.pairwise_cons.mp sorted
    rcases List.mem_cons.mp h with rfl | h
    · exact List.lookup_cons_self
    · rw [List.lookup_cons, beq_false_of_ne (String.ne_of_lt (first _ h)).symm, ih rest h]

theorem lookup_eq_some_iff (sorted : entries.Pairwise (·.1 < ·.1)) :
    entries.lookup name = some value ↔ (name, value) ∈ entries :=
  ⟨mem_of_lookup, lookup_of_mem sorted⟩

end Sorted

namespace Registry

variable {r : Registry} {p q : Path} {m : Int}

theorem eq_of_entries {r s : Registry} (h : r.entries = s.entries) : r = s := by
  cases r
  cases h
  rfl

theorem get?_eq_some_iff : r.get? p = some m ↔ (p, m) ∈ r.entries :=
  Sorted.lookup_eq_some_iff r.sorted

@[simp] theorem get?_record_self : (r.record p m).get? p = some m := Sorted.lookup_place_self

theorem get?_record_of_ne (h : q ≠ p) : (r.record p m).get? q = r.get? q :=
  Sorted.lookup_place_of_ne h

@[simp] theorem get?_empty : empty.get? p = none := rfl

theorem entries_foldl_record (entries : List (Path × Int))
    (sorted : (r.entries ++ entries).Pairwise (·.1 < ·.1)) :
    (entries.foldl (fun r (p, m) ↦ r.record p m) r).entries = r.entries ++ entries := by
  induction entries generalizing r with
  | nil => exact (List.append_nil _).symm
  | cons e entries ih =>
    have behind : ∀ d ∈ r.entries, d.1 < e.1 := by
      intro d mem
      exact (List.pairwise_append.mp sorted).2.2 d mem e List.mem_cons_self
    have recorded : (r.record e.1 e.2).entries = r.entries ++ [e] := Sorted.place_behind behind
    rw [List.foldl_cons, ih, recorded, List.append_assoc, List.singleton_append]
    rwa [recorded, List.append_assoc, List.singleton_append]

/-- A registry is that of its own entries. -/
theorem ofList_entries (r : Registry) : ofList r.entries = r := by
  exact eq_of_entries (entries_foldl_record r.entries r.sorted)

end Registry

end ScriptCache
