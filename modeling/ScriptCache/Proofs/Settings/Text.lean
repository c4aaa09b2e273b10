import ScriptCache.Proofs.Text.Split
import ScriptCache.Proofs.Toml.Documents
import ScriptCache.Proofs.Toml.Values

/-!
# The document of settings

The text of settings is read as a document with one table for each section, and in it one entry for
each setting that is set.
-/

namespace ScriptCache.Settings

open Toml (Bare Denotes Entries Line Spells linesOf)
open Toml.Reader (isBare)

/-- The value that a setting has in a document; none for one that is not set. -/
def Kind.saved : (k : Kind) → k.Value → Option Toml
  | .flag, b => some (.boolean b)
  | .count, n => some (.integer n)
  | .text, s => some (.string s)
  | .optionalText, s => s.map .string
  | .texts, items => some (.array (items.map .string))

/-- The entry of a column. -/
def Column.toEntry {S : Type} (c : Column S) (row : S) : Option (String × Toml) :=
  (c.kind.saved (c.get row)).map (c.key, ·)

/-- The entries of a section. -/
def Section.entries (sec : Section) (s : Settings) : Entries :=
  sec.columns.filterMap (·.toEntry (sec.get s))

/-- The document of settings. -/
def document (s : Settings) : Entries :=
  sections.map fun sec ↦ (sec.key, .table .header (sec.entries s))

/-! ## Values -/

section Kinds

variable {k : Kind} {v : k.Value} {t : Toml}

/-- A value is got back from a document. -/
theorem Kind.readToml_saved (saved : k.saved v = some t) : k.readToml t = some v := by
  cases k with
  | flag => cases saved; rfl
  | count =>
    cases saved
    rw [readToml, if_pos (Int.natCast_nonneg v), Int.toNat_natCast]
  | text => cases saved; rfl
  | optionalText =>
    obtain ⟨s, rfl, rfl⟩ := Option.map_eq_some_iff.mp saved
    rfl
  | texts =>
    cases saved
    exact Text.mapM_map_eq_some fun _ _ ↦ rfl

/-- A setting is written where it has a value. -/
theorem Kind.toToml_eq_none_iff : k.toToml v = none ↔ k.saved v = none := by
  cases k with
  | optionalText => cases v <;> simp [toToml, saved]
  | _ => simp [toToml, saved]

/-- The text of a value stands for it. -/
theorem Kind.denotes_toToml {text : List Char} (writable : k.isWritable v)
    (saved : k.saved v = some t) (written : k.toToml v = some text) : Denotes text t := by
  cases k with
  | flag =>
    cases saved
    cases written
    exact Toml.denotes_boolean v
  | count =>
    cases saved
    cases written
    exact Toml.denotes_integer (by simpa [isWritable] using writable)
  | text =>
    cases saved
    cases written
    exact Toml.denotes_string v
  | optionalText =>
    obtain ⟨s, rfl, rfl⟩ := Option.map_eq_some_iff.mp saved
    cases written
    exact Toml.denotes_string s
  | texts =>
    cases saved
    cases written
    exact Toml.denotes_texts v

end Kinds

/-! ## Lines -/

section Columns

variable {S : Type} {c : Column S} {row : S}

/-- The lines of a column: one, or none if the setting is not set. -/
def Column.rows (c : Column S) (row : S) : List (List Char × Option Line) :=
  ((c.toEntry row).map fun e ↦ (c.line row, some (.entry [] e.1 e.2))).toList

theorem Column.flatMap_rows (c : Column S) (row : S) : (c.rows row).flatMap (·.1) = c.line row := by
  rw [rows, toEntry]
  cases saved : c.kind.saved (c.get row) with
  | none =>
    rw [line, Kind.toToml_eq_none_iff.mpr saved]
    rfl
  | some t => simp

theorem Column.filterMap_rows (c : Column S) (row : S) :
    (c.rows row).filterMap (·.2) = (c.toEntry row).toList.map fun e ↦ .entry [] e.1 e.2 := by
  rw [rows]
  cases c.toEntry row <;> rfl

theorem Column.spells_rows (bare : Bare c.key) (writable : c.kind.isWritable (c.get row)) :
    ∀ line ∈ c.rows row, Spells line.1 line.2 := by
  intro l mem
  rw [rows, toEntry] at mem
  cases saved : c.kind.saved (c.get row) with
  | none => simp [saved] at mem
  | some t =>
    obtain rfl : l = (c.line row, some (.entry [] c.key t)) := by simpa [saved] using mem
    cases written : c.kind.toToml (c.get row) with
    | none => simp [Kind.toToml_eq_none_iff.mp written] at saved
    | some text =>
      have line : c.line row = c.key.toList ++ (" = ".toList ++ (text ++ ['\n'])) := by
        simp only [Column.line, written, newline, List.append_assoc]
      rw [line]
      exact Toml.spells_entry bare (Kind.denotes_toToml writable saved written)

end Columns

section Sections

variable {sec : Section} {s : Settings}

/-- The lines of a section. -/
def Section.rows (sec : Section) (s : Settings) : List (List Char × Option Line) :=
  ('[' :: (sec.key.toList ++ [']', '\n']), some (.table [] sec.key)) ::
    sec.columns.flatMap (·.rows (sec.get s))

theorem Section.flatMap_rows (sec : Section) (s : Settings) :
    (sec.rows s).flatMap (·.1) = sec.paragraph s := by
  rw [rows, List.flatMap_cons, List.flatMap_assoc, paragraph]
  simp only [Column.flatMap_rows]
  rfl

theorem Section.filterMap_rows (sec : Section) (s : Settings) :
    (sec.rows s).filterMap (·.2) = linesOf (sec.key, sec.entries s) := by
  have entries : (sec.columns.flatMap (·.rows (sec.get s))).filterMap (·.2) =
      (sec.entries s).map fun e ↦ .entry [] e.1 e.2 := by
    rw [Section.entries]
    induction sec.columns with
    | nil => rfl
    | cons c columns ih =>
      rw [List.flatMap_cons, List.filterMap_append, Column.filterMap_rows, ih, List.filterMap_cons]
      cases c.toEntry (sec.get s) <;> rfl
  rw [rows, List.filterMap_cons, entries]
  rfl

/-- The keys of the section and its columns are written without quotes. -/
structure Section.AllBare (sec : Section) : Prop where
  key : Bare sec.key
  columns : ∀ c ∈ sec.columns, Bare c.key

theorem Section.spells_rows (bare : sec.AllBare) (writable : sec.isWritable s) :
    ∀ line ∈ sec.rows s, Spells line.1 line.2 := by
  have columns : ∀ c ∈ sec.columns, c.kind.isWritable (c.get (sec.get s)) :=
    List.all_eq_true.mp writable
  intro line mem
  rcases List.mem_cons.mp mem with rfl | mem
  · exact Toml.spells_header bare.key
  · obtain ⟨c, column, mem⟩ := List.mem_flatMap.mp mem
    exact Column.spells_rows (bare.columns c column) (columns c column) line mem

/-- The lines of sections, with a blank line between any two. -/
def rowsOf (s : Settings) : List Section → List (List Char × Option Line)
  | [] => []
  | [sec] => sec.rows s
  | sec :: more => sec.rows s ++ (newline, none) :: rowsOf s more

theorem flatMap_rowsOf (s : Settings) (secs : List Section) :
    (rowsOf s secs).flatMap (·.1) = newline.intercalate (secs.map (·.paragraph s)) := by
  fun_induction rowsOf s secs with
  | case1 => rfl
  | case2 sec => simp [Section.flatMap_rows, List.intercalate]
  | case3 sec more several ih =>
    rw [List.flatMap_append, List.flatMap_cons, ih, Section.flatMap_rows]
    cases more with
    | nil => exact (several rfl).elim
    | cons _ _ => simp [List.intercalate]

theorem filterMap_rowsOf (s : Settings) (secs : List Section) :
    (rowsOf s secs).filterMap (·.2) = (secs.map fun sec ↦ (sec.key, sec.entries s)).flatMap
      linesOf := by
  fun_induction rowsOf s secs with
  | case1 => rfl
  | case2 sec => simp [Section.filterMap_rows]
  | case3 sec more several ih =>
    rw [List.filterMap_append, Section.filterMap_rows, List.filterMap_cons, ih]
    rfl

theorem spells_rowsOf {secs : List Section} (bare : ∀ sec ∈ secs, sec.AllBare)
    (writable : ∀ sec ∈ secs, sec.isWritable s) :
    ∀ line ∈ rowsOf s secs, Spells line.1 line.2 := by
  fun_induction rowsOf s secs with
  | case1 => simp
  | case2 sec =>
    exact Section.spells_rows (bare sec List.mem_cons_self) (writable sec List.mem_cons_self)
  | case3 sec more several ih =>
    obtain ⟨bare, bare_more⟩ := List.forall_mem_cons.mp bare
    obtain ⟨writable, writable_more⟩ := List.forall_mem_cons.mp writable
    rw [List.forall_mem_append, List.forall_mem_cons]
    exact ⟨Section.spells_rows bare writable, Toml.spells_blank, ih bare_more writable_more⟩

/-- The text of sections is read as a table for each of them. -/
theorem document?_paragraphs {secs : List Section} (bare : ∀ sec ∈ secs, sec.AllBare)
    (writable : ∀ sec ∈ secs, sec.isWritable s) (outer : (secs.map (·.key)).Nodup)
    (inner : ∀ sec ∈ secs, ((sec.entries s).map (·.1)).Nodup) :
    Toml.document? (String.ofList (newline.intercalate (secs.map (·.paragraph s)))) =
      some (secs.map fun sec ↦ (sec.key, .table .header (sec.entries s))) := by
  have unmarked : '\ufeff' ∉ ((rowsOf s secs).flatMap (·.1)).head? := by
    match secs with
    | [] => simp [rowsOf]
    | [sec] => simp [rowsOf, Section.rows]
    | sec :: next :: more => simp [rowsOf, Section.rows]
  have read := Toml.document?_of_spells (spells_rowsOf bare writable) unmarked
    (filterMap_rowsOf s secs) (by rwa [List.map_map]) (List.forall_mem_map.mpr inner)
  rw [flatMap_rowsOf, List.map_map] at read
  exact read

end Sections

/-! ## The sections of settings -/

theorem bare_iff (key : String) :
    Bare key ↔ key.toList ≠ [] ∧ key.toList.all isBare :=
  ⟨fun bare ↦ ⟨bare.some_char, List.all_eq_true.mpr bare.chars⟩,
    fun ⟨some_char, chars⟩ ↦ ⟨some_char, List.all_eq_true.mp chars⟩⟩

theorem allBare_sections : ∀ sec ∈ sections, sec.AllBare := by
  have keys : ∀ sec ∈ sections, (sec.key.toList ≠ [] ∧ sec.key.toList.all isBare) ∧
      ∀ c ∈ sec.columns, c.key.toList ≠ [] ∧ c.key.toList.all isBare := by decide
  intro sec mem
  obtain ⟨key, columns⟩ := keys sec mem
  exact ⟨(bare_iff _).mpr key, fun c column ↦ (bare_iff _).mpr (columns c column)⟩

theorem nodup_sections : (sections.map (·.key)).Nodup := by decide

theorem nodup_columns : ∀ sec ∈ sections, (sec.columns.map (·.key)).Nodup := by decide

/-- No entry of a section comes twice. -/
theorem Section.nodup_entries {sec : Section} (distinct : (sec.columns.map (·.key)).Nodup)
    (s : Settings) : ((sec.entries s).map (·.1)).Nodup := by
  refine distinct.sublist ?_
  rw [Section.entries]
  induction sec.columns with
  | nil => exact List.Sublist.slnil
  | cons c columns ih =>
    rw [List.filterMap_cons, Column.toEntry]
    cases c.kind.saved (c.get (sec.get s)) with
    | none => exact ih.cons _
    | some t => exact ih.cons_cons _

/-- The text of settings denotes their document. -/
theorem document?_of_toToml? {s : Settings} {text : String} (written : s.toToml? = some text) :
    Toml.document? text = some s.document := by
  rw [toToml?] at written
  split at written
  · rename_i writable
    cases written
    exact document?_paragraphs allBare_sections (List.all_eq_true.mp writable) nodup_sections
      fun sec mem ↦ Section.nodup_entries (nodup_columns sec mem) s
  · cases written

end ScriptCache.Settings
