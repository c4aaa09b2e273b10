import ScriptCache.Proofs.Disk.Tree
import ScriptCache.Proofs.Settings.Text

/-!
# Settings from a document that leaves some out

A document gives the settings that it has, whatever else it has, and leaves the others at their
defaults. So the document of settings gives them all back.
-/

namespace ScriptCache.Settings

open Toml (Entries)

/-! ## Records that are read part by part -/

section Parts

universe u

variable {F : Type u} {S : Type} {V : F → Type} (get : (f : F) → S → V f)
  (set : (f : F) → S → V f → S)

/-- Each of two parts stays as it is when the other is set. -/
def Apart (f g : F) : Prop :=
  (∀ x v, get f (set g x v) = get f x) ∧ ∀ x v, get g (set f x v) = get g x

variable {get set} {entries : Entries}

/-- Reading the parts for which there is an entry sets them, and no others. -/
theorem exists_foldlM (key : F → String) (parse : (f : F) → Toml → Option (V f)) {parts : List F}
    (lawful : ∀ f ∈ parts, ∀ x v, get f (set f x v) = v)
    (apart : parts.Pairwise (Apart get set))
    (parses : ∀ f ∈ parts, ∀ v, entries.lookup (key f) = some v → (parse f v).isSome) (x : S) :
    ∃ y, (parts.foldlM (fun x f ↦
        match entries.lookup (key f) with
        | some v => (parse f v).map (set f x)
        | none => some x) x) = some y ∧
      (∀ f ∈ parts, (entries.lookup (key f) = none → get f y = get f x) ∧
        ∀ v, entries.lookup (key f) = some v → parse f v = some (get f y)) ∧
      ∀ g, (∀ f ∈ parts, ∀ x v, get g (set f x v) = get g x) → get g y = get g x := by
  induction parts generalizing x with
  | nil => exact ⟨x, rfl, by simp, fun _ _ ↦ rfl⟩
  | cons f parts ih =>
    obtain ⟨lawful_f, lawful⟩ := List.forall_mem_cons.mp lawful
    obtain ⟨apart_f, apart⟩ := List.pairwise_cons.mp apart
    obtain ⟨parses_f, parses⟩ := List.forall_mem_cons.mp parses
    cases found : entries.lookup (key f) with
    | none =>
      obtain ⟨y, read, known, frame⟩ := ih lawful apart parses x
      refine ⟨y, ?_, List.forall_mem_cons.mpr ⟨⟨fun _ ↦ ?_, ?_⟩, known⟩, ?_⟩
      · rw [List.foldlM_cons, found]
        exact read
      · exact frame f fun g mem ↦ (apart_f g mem).1
      · intro v some
        rw [found] at some
        cases some
      · exact fun g other ↦ frame g fun f mem ↦ other f (List.mem_cons_of_mem _ mem)
    | some v =>
      obtain ⟨w, parsed⟩ := Option.isSome_iff_exists.mp (parses_f v found)
      obtain ⟨y, read, known, frame⟩ := ih lawful apart parses (set f x w)
      -- `f` keeps its value under the later parts, and they find theirs as they were before `f`
      refine ⟨y, ?_, List.forall_mem_cons.mpr ⟨⟨?_, ?_⟩, ?_⟩, ?_⟩
      · rw [List.foldlM_cons, found]
        dsimp only
        rw [parsed]
        exact read
      · intro none
        rw [found] at none
        cases none
      · intro v' some
        cases found.symm.trans some
        rw [parsed, frame f fun g mem ↦ (apart_f g mem).1, lawful_f]
      · intro g mem
        refine ⟨fun none ↦ ?_, (known g mem).2⟩
        rw [(known g mem).1 none, (apart_f g mem).2]
      · intro g other
        rw [frame g fun f mem ↦ other f (List.mem_cons_of_mem _ mem),
          other f List.mem_cons_self]

end Parts

/-! ## The parts of settings -/

theorem lawful_columns : ∀ sec ∈ sections, ∀ c ∈ sec.columns, ∀ row v, c.get (c.set row v) = v := by
  simp [sections, scanColumns, preloadColumns, watchColumns, fleetColumns, serverColumns]

theorem apart_columns : ∀ sec ∈ sections,
    sec.columns.Pairwise (Apart Column.get Column.set) := by
  simp [sections, scanColumns, preloadColumns, watchColumns, fleetColumns, serverColumns, Apart]

theorem lawful_sections : ∀ sec ∈ sections, ∀ s row, sec.get (sec.set s row) = row := by
  simp [sections]

theorem apart_sections : sections.Pairwise (Apart Section.get Section.set) := by
  simp [sections, Apart]

theorem get_default : ∀ sec ∈ sections, sec.get {} = sec.initial := by
  simp [sections]

/-- Settings that agree in every column are equal. -/
theorem ext_of_columns {s t : Settings}
    (same : ∀ sec ∈ sections, ∀ c ∈ sec.columns, c.get (sec.get s) = c.get (sec.get t)) :
    s = t := by
  obtain ⟨⟨_, _, _⟩, ⟨_, _, _, _⟩, ⟨_, _, _, _⟩, ⟨_, _, _, _, _, _⟩, ⟨_, _, _⟩⟩ := s
  obtain ⟨⟨_, _, _⟩, ⟨_, _, _, _⟩, ⟨_, _, _, _⟩, ⟨_, _, _, _, _, _⟩, ⟨_, _, _⟩⟩ := t
  simpa [sections, scanColumns, preloadColumns, watchColumns, fleetColumns, serverColumns,
    and_assoc] using same

/-- A setting that may be left out is one that is left out by default. -/
theorem initial_of_unset : ∀ sec ∈ sections, ∀ c ∈ sec.columns, ∀ row,
    c.kind.saved (c.get row) = none → c.get row = c.get sec.initial := by
  simp [sections, scanColumns, preloadColumns, watchColumns, fleetColumns, serverColumns,
    Kind.saved]

/-! ## Documents with some of the settings -/

/-- The value that a document has for a setting. -/
def settingOf? (document : Entries) (sec key : String) : Option Toml :=
  match document.lookup sec with
  | some (.table _ entries) => entries.lookup key
  | _ => none

/-- A document in which sections and settings may be left out, and that may have other keys. The
settings that it has are as they are saved. -/
structure Partial (s : Settings) (document : Entries) : Prop where
  tables : ∀ sec ∈ sections, ∀ v, document.lookup sec.key = some v →
    ∃ origin entries, v = .table origin entries
  settings : ∀ sec ∈ sections, ∀ c ∈ sec.columns, ∀ v,
    settingOf? document sec.key c.key = some v → settingOf? s.document sec.key c.key = some v

/-- Changes the entries of a table. -/
def onTable (f : Entries → Entries) : Toml → Toml
  | .table origin entries => .table origin (f entries)
  | v => v

/-- Documents that are made from one by leaving keys out, and by adding keys that no section and
no setting has. -/
inductive Edited (saved : Entries) : Entries → Prop where
  | saved : Edited saved saved
  | drop {document : Entries} (before : Edited saved document) (key : String) :
      Edited saved (document.filter (·.1 ≠ key))
  | add {front back : Entries} (before : Edited saved (front ++ back)) {key : String}
      (unknown : ∀ sec ∈ sections, sec.key ≠ key) (v : Toml) :
      Edited saved (front ++ (key, v) :: back)
  | dropInside {document : Entries} (before : Edited saved document) (sec key : String) :
      Edited saved (document.map fun e ↦
        if e.1 = sec then (e.1, onTable (·.filter (·.1 ≠ key)) e.2) else e)
  | addInside {document : Entries} (before : Edited saved document) {sec : Section}
      (mem : sec ∈ sections) {key : String} (unknown : ∀ c ∈ sec.columns, c.key ≠ key)
      (i : Nat) (v : Toml) :
      Edited saved (document.map fun e ↦
        if e.1 = sec.key then (e.1, onTable (·.insertIdx i (key, v)) e.2) else e)

section Document

variable {s : Settings} {sec : Section} {document entries : Entries}

theorem lookup_document (mem : sec ∈ sections) (s : Settings) :
    s.document.lookup sec.key = some (.table .header (sec.entries s)) := by
  apply Toml.lookup_of_mem
  · rw [Settings.document, List.map_map]
    exact nodup_sections
  · exact List.mem_map.mpr ⟨sec, mem, rfl⟩

theorem lookup_entries (mem : sec ∈ sections) {c : Column sec.Row} (column : c ∈ sec.columns)
    (s : Settings) : (sec.entries s).lookup c.key = c.kind.saved (c.get (sec.get s)) := by
  have distinct := nodup_columns sec mem
  cases saved : c.kind.saved (c.get (sec.get s)) with
  | some v =>
    apply Toml.lookup_of_mem (Section.nodup_entries distinct s)
    exact List.mem_filterMap.mpr ⟨c, column, by rw [Column.toEntry, saved]; rfl⟩
  | none =>
    apply Toml.lookup_of_absent
    intro key
    obtain ⟨e, entry, key⟩ := List.mem_map.mp key
    obtain ⟨d, other, written⟩ := List.mem_filterMap.mp entry
    obtain ⟨v, value, rfl⟩ := Option.map_eq_some_iff.mp written
    obtain rfl := List.inj_on_of_nodup_map distinct other column key
    rw [saved] at value
    cases value

theorem settingOf?_document (mem : sec ∈ sections) {c : Column sec.Row} (column : c ∈ sec.columns)
    (s : Settings) :
    settingOf? s.document sec.key c.key = c.kind.saved (c.get (sec.get s)) := by
  rw [settingOf?, lookup_document mem]
  exact lookup_entries mem column s

theorem partial_document (s : Settings) : s.Partial s.document where
  tables sec mem v found := by
    rw [lookup_document mem] at found
    cases found
    exact ⟨_, _, rfl⟩
  settings _ _ _ _ _ found := found

theorem lookup_insert {other key : String} (ne : other ≠ key) (front back : Entries) (v : Toml) :
    (front ++ (key, v) :: back).lookup other = (front ++ back).lookup other := by
  rw [List.lookup_append, List.lookup_append, Sorted.lookup_cons, if_neg ne]

theorem lookup_insertIdx {other key : String} (ne : other ≠ key) (i : Nat) (v : Toml) :
    (entries.insertIdx i (key, v)).lookup other = entries.lookup other := by
  induction i generalizing entries with
  | zero => rw [List.insertIdx_zero, Sorted.lookup_cons, if_neg ne]
  | succ i ih =>
    cases entries with
    | nil => rfl
    | cons e entries => rw [List.insertIdx_succ_cons, Sorted.lookup_cons, Sorted.lookup_cons, ih]

theorem settingOf?_eq_some_iff {name key : String} {v : Toml} :
    settingOf? document name key = some v ↔ ∃ origin entries,
      document.lookup name = some (.table origin entries) ∧ entries.lookup key = some v := by
  unfold settingOf?
  split
  · rename_i found
    simp [found]
  · rename_i other
    constructor
    · intro none
      cases none
    · rintro ⟨origin, entries, found, -⟩
      exact (other _ _ found).elim

namespace Partial

variable (before : s.Partial document)
include before

/-- A document that has no tables of sections but those that another has. -/
theorem mono {other : Entries} (fewer : ∀ sec ∈ sections, ∀ v,
    other.lookup sec.key = some v → document.lookup sec.key = some v) : s.Partial other where
  tables sec mem v found := before.tables sec mem v (fewer sec mem v found)
  settings sec mem c column v found := by
    obtain ⟨origin, entries, table, entry⟩ := settingOf?_eq_some_iff.mp found
    exact before.settings sec mem c column v
      (settingOf?_eq_some_iff.mpr ⟨origin, entries, fewer sec mem _ table, entry⟩)

/-- An entry of a section is as it is saved. -/
theorem entry (mem : sec ∈ sections) {origin : Toml.Origin}
    (found : document.lookup sec.key = some (.table origin entries)) :
    ∀ c ∈ sec.columns, ∀ v, entries.lookup c.key = some v →
      c.kind.saved (c.get (sec.get s)) = some v := by
  intro c column v entry
  rw [← settingOf?_document mem column]
  exact before.settings sec mem c column v
    (settingOf?_eq_some_iff.mpr ⟨origin, entries, found, entry⟩)

/-- A change inside a section that adds no setting. -/
theorem inside (name : String) {f : Entries → Entries}
    (fewer : ∀ sec ∈ sections, sec.key = name → ∀ c ∈ sec.columns, ∀ entries v,
      (f entries).lookup c.key = some v → entries.lookup c.key = some v) :
    s.Partial (document.map fun e ↦ if e.1 = name then (e.1, onTable f e.2) else e) := by
  have looked {sec : Section} (mem : sec ∈ sections) {v : Toml}
      (found : (document.map fun e ↦ if e.1 = name then (e.1, onTable f e.2) else e).lookup
        sec.key = some v) :
      document.lookup sec.key = some v ∨ sec.key = name ∧ ∃ origin entries,
        document.lookup sec.key = some (.table origin entries) ∧ v = .table origin (f entries) := by
    by_cases same : sec.key = name
    · rw [same, Sorted.lookup_map_self, ← same] at found
      obtain ⟨w, table, rfl⟩ := Option.map_eq_some_iff.mp found
      obtain ⟨origin, entries, rfl⟩ := before.tables sec mem w table
      exact .inr ⟨same, origin, entries, table, rfl⟩
    · rw [Sorted.lookup_map_of_ne same] at found
      exact .inl found
  constructor
  · intro sec mem v found
    rcases looked mem found with found | ⟨-, origin, entries, -, rfl⟩
    · exact before.tables sec mem v found
    · exact ⟨_, _, rfl⟩
  · intro sec mem c column v found
    apply before.settings sec mem c column v
    obtain ⟨origin, entries, table, entry⟩ := settingOf?_eq_some_iff.mp found
    rcases looked mem table with kept | ⟨same, origin', entries', changed, eq⟩
    · exact settingOf?_eq_some_iff.mpr ⟨origin, entries, kept, entry⟩
    · cases eq
      exact settingOf?_eq_some_iff.mpr
        ⟨_, _, changed, fewer sec mem same c column entries' v entry⟩

end Partial

theorem lookup_of_filter {other key : String} {v : Toml}
    (found : (entries.filter (·.1 ≠ key)).lookup other = some v) :
    entries.lookup other = some v := by
  by_cases same : other = key
  · rw [same, Sorted.lookup_filter_self] at found
    cases found
  · rwa [Sorted.lookup_filter_of_ne same] at found

/-- Leaving keys out and adding unknown ones makes a document with some of the settings. -/
theorem Edited.partial (edited : Edited s.document document) : s.Partial document := by
  induction edited with
  | saved => exact partial_document s
  | drop _ key ih => exact ih.mono fun _ _ _ ↦ lookup_of_filter
  | @add front back _ key unknown v ih =>
    apply ih.mono
    intro sec mem w found
    rwa [lookup_insert (unknown sec mem)] at found
  | dropInside _ sec key ih => exact ih.inside sec fun _ _ _ _ _ _ _ ↦ lookup_of_filter
  | addInside _ mem unknown i v ih =>
    apply ih.inside
    intro sec mem' same c column entries w found
    obtain rfl := List.inj_on_of_nodup_map nodup_sections mem' mem same
    rwa [lookup_insertIdx (unknown c column)] at found

/-- What a section is read as. -/
def Section.row? (sec : Section) : Toml → Option sec.Row
  | .table _ entries => readEntries sec.columns sec.initial entries
  | .array items => readItems sec.columns sec.initial items
  | .tables items => readItems sec.columns sec.initial (items.map (.table .header))
  | .datetime => some sec.initial
  | _ => none

/-- A section is read as it was saved, but for the settings that are left out. -/
theorem exists_row (mem : sec ∈ sections) (saved : ∀ c ∈ sec.columns, ∀ v,
      entries.lookup c.key = some v → c.kind.saved (c.get (sec.get s)) = some v) :
    ∃ row, readEntries sec.columns sec.initial entries = some row ∧ ∀ c ∈ sec.columns,
      (entries.lookup c.key = none → c.get row = c.get sec.initial) ∧
      ∀ v, entries.lookup c.key = some v → c.get row = c.get (sec.get s) := by
  have parses : ∀ c ∈ sec.columns, ∀ v, entries.lookup c.key = some v →
      c.kind.readToml v = some (c.get (sec.get s)) :=
    fun c column v found ↦ Kind.readToml_saved (saved c column v found)
  obtain ⟨row, read, known, -⟩ := exists_foldlM Column.key
    (fun c : Column sec.Row ↦ c.kind.readToml) (lawful_columns sec mem) (apart_columns sec mem)
    (fun c column v found ↦ by simp [parses c column v found]) sec.initial
  refine ⟨row, read, fun c column ↦ ⟨(known c column).1, fun v found ↦ ?_⟩⟩
  have value := (known c column).2 v found
  rw [parses c column v found] at value
  exact (Option.some.inj value).symm

/-- A section that the document has is read from there, and the others stay at their defaults. -/
theorem exists_sections {text : String} (read : Toml.document? text = some document)
    (some_of : s.Partial document) :
    ∃ t, ofToml? text = some t ∧ ∀ sec ∈ sections,
      (document.lookup sec.key = none → sec.get t = sec.get {}) ∧
      ∀ v, document.lookup sec.key = some v → sec.row? v = some (sec.get t) := by
  have step (sec : Section) (settings : Settings) (v : Toml) :
      sec.readToml settings v = (sec.row? v).map (sec.set settings) := by
    cases v <;> rfl
  have parses : ∀ sec ∈ sections, ∀ v, document.lookup sec.key = some v →
      (sec.row? v).isSome := by
    intro sec mem v found
    obtain ⟨origin, entries, rfl⟩ := some_of.tables sec mem v found
    obtain ⟨row, read, -⟩ := exists_row mem (some_of.entry mem found)
    exact Option.isSome_iff_exists.mpr ⟨row, read⟩
  obtain ⟨t, folded, known, -⟩ :=
    exists_foldlM Section.key Section.row? lawful_sections apart_sections parses {}
  refine ⟨t, ?_, known⟩
  rw [ofToml?, read]
  simp only [step]
  exact folded

/-- A document gives the settings that it has, and leaves the others at their defaults. -/
theorem exists_ofToml? {text : String} (read : Toml.document? text = some document)
    (some_of : s.Partial document) :
    ∃ t, ofToml? text = some t ∧ ∀ sec ∈ sections, ∀ c ∈ sec.columns,
      (settingOf? document sec.key c.key = none → c.get (sec.get t) = c.get (sec.get {})) ∧
      (settingOf? document sec.key c.key = settingOf? s.document sec.key c.key →
        c.get (sec.get t) = c.get (sec.get s)) := by
  obtain ⟨t, loaded, known⟩ := exists_sections read some_of
  refine ⟨t, loaded, fun sec mem c column ↦ ?_⟩
  obtain ⟨absent, present⟩ := known sec mem
  have setting : (settingOf? document sec.key c.key = none →
        c.get (sec.get t) = c.get (sec.get {})) ∧
      ∀ v, settingOf? document sec.key c.key = some v → c.get (sec.get t) = c.get (sec.get s) := by
    rw [settingOf?]
    cases found : document.lookup sec.key with
    | none =>
      refine ⟨fun _ ↦ by rw [absent found], fun v some ↦ ?_⟩
      cases some
    | some v =>
      obtain ⟨origin, entries, rfl⟩ := some_of.tables sec mem v found
      obtain ⟨row, read, columns⟩ := exists_row mem (some_of.entry mem found)
      obtain rfl : row = sec.get t := Option.some.inj (read.symm.trans (present _ found))
      obtain ⟨unset, set⟩ := columns c column
      refine ⟨fun none ↦ ?_, set⟩
      rw [unset none, get_default sec mem]
  refine ⟨setting.1, fun kept ↦ ?_⟩
  rw [settingOf?_document mem column] at kept
  cases saved : c.kind.saved (c.get (sec.get s)) with
  | some v => exact setting.2 v (kept.trans saved)
  | none =>
    rw [setting.1 (kept.trans saved), get_default sec mem]
    exact (initial_of_unset sec mem c column _ saved).symm

end Document

/-- Settings are got back from their text. -/
theorem ofToml?_of_toToml? {s : Settings} {text : String} (written : s.toToml? = some text) :
    ofToml? text = some s := by
  obtain ⟨t, read, known⟩ := exists_ofToml? (document?_of_toToml? written) (partial_document s)
  rw [read]
  exact congrArg some (ext_of_columns fun sec mem c column ↦ (known sec mem c column).2 rfl)

end ScriptCache.Settings
