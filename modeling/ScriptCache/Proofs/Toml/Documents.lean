import ScriptCache.Proofs.Toml.Reads

/-!
# Documents of tables

A text whose lines are headers, entries with a single key and blank lines is read line by line. Its
lines make a document of one table for each header, with the entries below it in their order.
-/

namespace ScriptCache.Toml

open Reader

variable {key : String} {s text spaces rest : List Char} {c : Char} {v : Toml}

/-- A key that is written without quotes. -/
structure Bare (key : String) : Prop where
  some_char : key.toList ≠ []
  chars : ∀ c ∈ key.toList, isBare c

/-! ## Keys -/

theorem not_isBare (indent : isIndent c) : isBare c = false := by
  simp only [isIndent, Bool.or_eq_true, decide_eq_true_eq] at indent
  rcases indent with rfl | rfl <;> decide

theorem not_isIndent (bare : isBare c) : isIndent c = false := by
  cases indent : isIndent c with
  | false => rfl
  | true => rw [not_isBare indent] at bare; cases bare

theorem Bare.stops_isIndent (bare : Bare key) (rest : List Char) :
    Stops isIndent (key.toList ++ rest) :=
  fun _ mem ↦ not_isIndent (head_append bare.some_char bare.chars mem)

theorem Bare.refuses_other (bare : Bare key) (other : isBare c = false) (t rest : List Char) :
    Refuses (Reader.text (c :: t)) (key.toList ++ rest) := by
  apply refuses_text_of_head
  intro mem
  rw [head_append bare.some_char bare.chars mem] at other
  cases other

theorem Bare.reads_keyPart (bare : Bare key) (blank : ∀ c ∈ spaces, isIndent c)
    (indent : isIndent c = false) (other : isBare c = false) (rest : List Char) :
    Reads keyPart (key.toList ++ (spaces ++ c :: rest)) key (c :: rest) := by
  have stops : Stops isBare (spaces ++ c :: rest) := by
    cases spaces with
    | nil => exact stops_cons other rest
    | cons d spaces => exact stops_cons (not_isBare (blank d List.mem_cons_self)) _
  have taken : Reads bareKey (key.toList ++ (spaces ++ c :: rest)) key (spaces ++ c :: rest) := by
    refine (reads_takeWhile bare.chars stops).bind ?_
    rw [if_neg (by simpa using bare.some_char), String.ofList_toList]
    exact .pure _ _
  exact (reads_blanks_nil (bare.stops_isIndent _)).bind ((taken.orElse _).bind
    ((reads_blanks blank (stops_cons indent rest)).bind (.pure key _)))

theorem Bare.reads_key (bare : Bare key) (blank : ∀ c ∈ spaces, isIndent c)
    (indent : isIndent c = false) (other : isBare c = false) (point : c ≠ '.') (rest : List Char) :
    Reads Reader.key (key.toList ++ (spaces ++ c :: rest)) ([], key) (c :: rest) := by
  have no_more : Refuses (do Reader.text ['.']; keyPart) (c :: rest) :=
    (refuses_text point.symm ..).bind _
  refine (bare.reads_keyPart blank indent other rest).bind (no_more.many.bind ?_)
  exact .pure ([], key) _

/-- No key begins at the end of a line, and none at the end of the text. -/
theorem refuses_key (head : ∀ c ∈ s.head?, c = '\n') : Refuses Reader.key s := by
  have stops {p : Char → Bool} (h : p '\n' = false) : Stops p s := by
    intro c mem
    rw [head c mem, h]
  have unquoted {d : Char} (ne : d ≠ '\n') : Refuses (Reader.text [d]) s :=
    refuses_text_of_head (fun mem ↦ ne (head d mem)) []
  have bare : Refuses bareKey s := (reads_takeWhile_nil (stops (by decide))).refuses_bind rfl
  have part : Refuses (bareKey <|> basicString <|> literalString) s :=
    bare.and (((unquoted (by decide)).bind _).and ((unquoted (by decide)).bind _))
  exact ((reads_blanks_nil (stops (by decide))).refuses_bind (part.bind _)).bind _

/-! ## Lines -/

/-- At the end of a line the text stands for this value. -/
structure Denotes (text : List Char) (v : Toml) : Prop where
  shown : ∀ rest, Stops isIndent (text ++ '\n' :: rest)
  reads : ∀ rest, Reads (value (depthLimit - 1)) (text ++ '\n' :: rest) v ('\n' :: rest)

/-- The text is a line, with its end, that stands for this. -/
structure Spells (text : List Char) (l : Option Line) : Prop where
  some_char : text ≠ []
  reads : ∀ rest, Reads line (text ++ rest) l rest

theorem spells_header (bare : Bare key) :
    Spells ('[' :: (key.toList ++ [']', '\n'])) (some (.table [] key)) where
  some_char := List.cons_ne_nil _ _
  reads rest := by
    have chars : '[' :: (key.toList ++ [']', '\n']) ++ rest =
        '[' :: (key.toList ++ ([] ++ ']' :: '\n' :: rest)) := by simp
    have read := bare.reads_key (List.forall_mem_nil _) (by decide : isIndent ']' = false)
      (by decide) (by decide) ('\n' :: rest)
    have element : Refuses (Reader.text ['[', '[']) ('[' :: (key.toList ++
        ([] ++ ']' :: '\n' :: rest))) := (bare.refuses_other (by decide) [] _).text_cons '['
    rw [chars]
    refine (reads_blanks_nil (stops_cons (by decide) _)).bind ((element.bind _).orElse ?_)
    refine Reads.orElse ((reads_text ['['] _).bind (read.bind ?_)) _
    exact (reads_text [']'] ('\n' :: rest)).bind ((reads_lineEnd rest).bind (.pure _ rest))

theorem spells_entry (bare : Bare key) (denotes : Denotes text v) :
    Spells (key.toList ++ (" = ".toList ++ (text ++ ['\n']))) (some (.entry [] key v)) where
  some_char := by simp
  reads rest := by
    have chars : key.toList ++ (" = ".toList ++ (text ++ ['\n'])) ++ rest =
        key.toList ++ ([' '] ++ '=' :: ([' '] ++ (text ++ '\n' :: rest))) := by
      have sign : " = ".toList = [' ', '=', ' '] := rfl
      simp only [sign, List.append_assoc, List.cons_append, List.nil_append]
    have blank : ∀ c ∈ [' '], isIndent c := List.forall_mem_singleton.mpr (by decide)
    have read := bare.reads_key blank (by decide : isIndent '=' = false) (by decide) (by decide)
      ([' '] ++ (text ++ '\n' :: rest))
    have no_header (t : List Char) : Refuses (Reader.text ('[' :: t))
        (key.toList ++ ([' '] ++ '=' :: ([' '] ++ (text ++ '\n' :: rest)))) :=
      bare.refuses_other (by decide) t _
    rw [chars]
    refine (reads_blanks_nil (bare.stops_isIndent _)).bind (((no_header _).bind _).orElse
      (((no_header _).bind _).orElse (Reads.orElse ?_ _)))
    refine read.bind ((reads_text ['='] _).bind ?_)
    exact (reads_blanks blank (denotes.shown rest)).bind
      ((denotes.reads rest).bind ((reads_lineEnd rest).bind (.pure _ rest)))

/-- What ends no line but is at its end says nothing. -/
theorem reads_line_none (head : ∀ c ∈ s.head?, c = '\n') (ends : Reads lineEnd s () rest) :
    Reads line s none rest := by
  have other {d : Char} (ne : d ≠ '\n') (t : List Char) : Refuses (Reader.text (d :: t)) s :=
    refuses_text_of_head (fun mem ↦ ne (head d mem)) t
  have stops : Stops isIndent s := by
    intro c mem
    rw [head c mem]
    decide
  refine (reads_blanks_nil stops).bind (((other (by decide) _).bind _).orElse
    (((other (by decide) _).bind _).orElse (((refuses_key head).bind _).orElse ?_)))
  exact ends.bind (.pure none rest)

theorem spells_blank : Spells ['\n'] none where
  some_char := List.cons_ne_nil _ _
  reads rest := reads_line_none (by simp) (reads_lineEnd rest)

/-- A text that is made of lines is read as them. -/
theorem run_lines {rows : List (List Char × Option Line)}
    (spells : ∀ row ∈ rows, Spells row.1 row.2)
    (unmarked : '\ufeff' ∉ (rows.flatMap (·.1)).head?) :
    Reads lines (rows.flatMap (·.1)) (rows.filterMap (·.2)) [] := by
  have read : Reads (many line) (rows.flatMap (·.1)) (rows.map (·.2) ++ [none]) [] := by
    clear unmarked
    induction rows with
    | nil =>
      -- behind the last line there is one more, which takes nothing and says nothing
      exact (reads_line_none (by simp) reads_lineEnd_nil).many_once
    | cons row rows ih =>
      obtain ⟨first, others⟩ := List.forall_mem_cons.mp spells
      have some_char := List.length_pos_iff.mpr first.some_char
      rw [List.flatMap_cons]
      refine (first.reads _).many ?_ (ih others)
      rw [List.length_append]
      omega
  have mark : Refuses (Reader.text ['\ufeff']) (rows.flatMap (·.1)) :=
    refuses_text_of_head unmarked []
  have said : (rows.map Prod.snd ++ [none]).filterMap id = rows.filterMap (·.2) := by
    rw [List.filterMap_append, List.filterMap_map]
    exact List.append_nil _
  rw [← said]
  exact mark.optional.bind (read.bind (Reads.bind (a := ()) rfl (.pure _ _)))

/-! ## Tables -/

variable {current : List String} {before inner : Entries}

theorem replace_last (absent : key ∉ before.map (·.1)) (v w : Toml) :
    replace key v (before ++ [(key, w)]) = before ++ [(key, v)] := by
  have same : before.map (fun e ↦ if e.1 = key then (key, v) else e) = before := by
    refine (List.map_congr_left fun e mem ↦ ?_).trans (List.map_id' before)
    have other : e.1 ≠ key := fun eq ↦ absent (eq ▸ List.mem_map_of_mem mem)
    rw [if_neg other]
  rw [replace, List.map_append, same]
  simp

theorem lookup_of_absent (absent : key ∉ before.map (·.1)) : before.lookup key = none := by
  apply List.lookup_eq_none_iff.mpr
  intro e mem
  have other : key ≠ e.1 := fun eq ↦ absent (eq ▸ List.mem_map_of_mem mem)
  simpa using other

theorem lookup_of_mem {entries : Entries} (distinct : (entries.map (·.1)).Nodup)
    (mem : (key, v) ∈ entries) : entries.lookup key = some v := by
  obtain ⟨before, after, rfl⟩ := List.append_of_mem mem
  have absent : key ∉ before.map (·.1) := by
    rw [List.map_append] at distinct
    exact fun mem ↦ List.disjoint_of_nodup_append distinct mem List.mem_cons_self
  rw [List.lookup_append, lookup_of_absent absent, Option.none_or, List.lookup_cons_self]

theorem lookup_last (absent : key ∉ before.map (·.1)) (v : Toml) :
    (before ++ [(key, v)]).lookup key = some v := by
  rw [List.lookup_append, lookup_of_absent absent]
  simp

theorem openTable_absent (absent : key ∉ before.map (·.1)) :
    openTable [] key before = some (before ++ [(key, .table .header [])]) := by
  simp [openTable, within, lookup_of_absent absent]

theorem insert_absent {k : String} (outer : key ∉ before.map (·.1))
    (absent : k ∉ inner.map (·.1)) (v : Toml) :
    within false (insert [] k v) .header [key] (before ++ [(key, .table .header inner)]) =
      some (before ++ [(key, .table .header (inner ++ [(k, v)]))]) := by
  have inserted : insert [] k v .header inner = some (inner ++ [(k, v)]) := by
    simp [insert, within, lookup_of_absent absent]
  simp [within, lookup_last outer, inserted, replace_last outer]

/-- Entries with different keys come behind those that the table has. -/
theorem addLines_entries {entries : Entries} (outer : key ∉ before.map (·.1))
    (distinct : ((inner ++ entries).map (·.1)).Nodup) (lines : List Line) :
    addLines [key] (before ++ [(key, .table .header inner)])
        (entries.map (fun e ↦ .entry [] e.1 e.2) ++ lines) =
      addLines [key] (before ++ [(key, .table .header (inner ++ entries))]) lines := by
  induction entries generalizing inner with
  | nil => rw [List.map_nil, List.nil_append, List.append_nil]
  | cons e entries ih =>
    have absent : e.1 ∉ inner.map (·.1) := by
      rw [List.map_append, List.map_cons] at distinct
      intro mem
      exact List.disjoint_of_nodup_append distinct mem List.mem_cons_self
    have split : inner ++ e :: entries = inner ++ [(e.1, e.2)] ++ entries := by simp
    rw [List.map_cons, List.cons_append, addLines, insert_absent outer absent, split]
    rw [split] at distinct
    exact ih distinct

/-- A table is written as its header and its entries. -/
def linesOf (table : String × Entries) : List Line :=
  .table [] table.1 :: table.2.map fun e ↦ .entry [] e.1 e.2

theorem addLines_tables {tables : List (String × Entries)}
    (outer : (before.map (·.1) ++ tables.map (·.1)).Nodup)
    (distinct : ∀ table ∈ tables, (table.2.map (·.1)).Nodup) :
    addLines current before (tables.flatMap linesOf) =
      some (before ++ tables.map fun table ↦ (table.1, .table .header table.2)) := by
  induction tables generalizing current before with
  | nil => rw [List.flatMap_nil, addLines, List.map_nil, List.append_nil]
  | cons table tables ih =>
    obtain ⟨first, others⟩ := List.forall_mem_cons.mp distinct
    have absent : table.1 ∉ before.map (·.1) := fun mem ↦
      List.disjoint_of_nodup_append outer mem List.mem_cons_self
    have keys : (before ++ [(table.1, Toml.table .header table.2)]).map (·.1) ++ tables.map (·.1) =
        before.map (·.1) ++ (table :: tables).map (·.1) := by simp
    rw [List.flatMap_cons, linesOf, List.cons_append, addLines, openTable_absent absent]
    have fresh : ((([] : Entries) ++ table.2).map (·.1)).Nodup := first
    refine (addLines_entries absent fresh _).trans ?_
    rw [ih (keys ▸ outer) others, List.map_cons, List.append_assoc]
    rfl

/-- The document of a text whose lines are those of tables. -/
theorem document?_of_spells {rows : List (List Char × Option Line)}
    {tables : List (String × Entries)} (spells : ∀ row ∈ rows, Spells row.1 row.2)
    (unmarked : '\ufeff' ∉ (rows.flatMap (·.1)).head?)
    (lines : rows.filterMap (·.2) = tables.flatMap linesOf) (outer : (tables.map (·.1)).Nodup)
    (distinct : ∀ table ∈ tables, (table.2.map (·.1)).Nodup) :
    document? (String.ofList (rows.flatMap (·.1))) =
      some (tables.map fun table ↦ (table.1, .table .header table.2)) := by
  have read := run_lines spells unmarked
  rw [document?, String.toList_ofList]
  change (Reader.lines.run (rows.flatMap (·.1))).bind _ = _
  rw [read, Option.bind_some, lines]
  exact addLines_tables outer distinct

end ScriptCache.Toml
