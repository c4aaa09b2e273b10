/-!
# Entries in the order of their names

Lists of names with values, in which names strictly increase. Putting in an entry keeps them so.
-/

namespace ScriptCache.Sorted

variable {α : Type}

/-- Puts an entry into its place, over an entry of the same name. -/
def place (name : String) (value : α) : List (String × α) → List (String × α)
  | [] => [(name, value)]
  | e :: entries =>
    if name < e.1 then (name, value) :: e :: entries
    else if name = e.1 then (name, value) :: entries
    else e :: place name value entries

theorem mem_place {name : String} {value : α} {entries : List (String × α)} {e : String × α}
    (h : e ∈ place name value entries) : e = (name, value) ∨ e ∈ entries := by
  induction entries with
  | nil => simpa [place] using h
  | cons d entries ih =>
    rw [place] at h
    split at h
    · simpa using h
    · split at h <;> rcases List.mem_cons.mp h with rfl | h
      · exact .inl rfl
      · exact .inr (List.mem_cons_of_mem _ h)
      · exact .inr List.mem_cons_self
      · exact (ih h).imp_right (List.mem_cons_of_mem _)

theorem lt_of_not_lt_of_ne {a b : String} (h : ¬a < b) (hne : a ≠ b) : b < a := by
  apply Decidable.byContradiction
  intro h'
  exact hne (String.le_antisymm h' h)

theorem pairwise_place (name : String) (value : α) {entries : List (String × α)}
    (h : entries.Pairwise (·.1 < ·.1)) : (place name value entries).Pairwise (·.1 < ·.1) := by
  induction entries with
  | nil => exact List.pairwise_singleton ..
  | cons e entries ih =>
    have ⟨first, rest⟩ := List.pairwise_cons.mp h
    rw [place]
    split
    · rename_i lt
      refine List.pairwise_cons.mpr ⟨fun d hd ↦ ?_, h⟩
      rcases List.mem_cons.mp hd with rfl | hd
      · exact lt
      · exact String.lt_trans lt (first d hd)
    · split
      · rename_i eq
        exact List.pairwise_cons.mpr ⟨fun d hd ↦ eq ▸ first d hd, rest⟩
      · rename_i ge ne
        refine List.pairwise_cons.mpr ⟨fun d hd ↦ ?_, ih rest⟩
        rcases mem_place hd with rfl | hd
        · exact lt_of_not_lt_of_ne ge ne
        · exact first d hd

end ScriptCache.Sorted
