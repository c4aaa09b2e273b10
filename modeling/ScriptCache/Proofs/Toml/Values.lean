import ScriptCache.Proofs.Text.Digits
import ScriptCache.Proofs.Toml.Documents
import ScriptCache.Proofs.Toml.Strings
import ScriptCache.Settings.Toml

/-!
# Values read back

Strings, truth values, numbers and lists of strings are read back from the text in which settings
have them.
-/

namespace ScriptCache.Toml

open Reader

variable {text rest : List Char} {v : Toml} {c : Char} {n : Nat}

/-! ## Strings, truth values and numbers -/

theorem reads_value_string (depth : Nat) (s : String) (unquoted : Unquoted rest) :
    Reads (value depth) (Quoted.encode s.toList ++ rest) (.string s) rest := by
  have read : Reads (do pure (Toml.string (← Reader.string))) (Quoted.encode s.toList ++ rest)
      (.string s) rest := by
    refine (reads_encode s.toList unquoted).bind ?_
    rw [String.ofList_toList]
    exact .pure _ rest
  cases depth with
  | zero => exact read.orElse _
  | succ depth => exact read.orElse _

/-- A string begins with a quote. -/
theorem exists_quote (s : List Char) :
    ∃ quote more, Quoted.encode s = quote :: more ∧ (quote = '"' ∨ quote = apostrophe) := by
  have quote : (Quoted.Form.of s).quote = '"' ∨ (Quoted.Form.of s).quote = apostrophe := by
    unfold Quoted.Form.of
    dsimp only
    split
    · exact .inl rfl
    split
    · exact .inr rfl
    split
    · exact .inl rfl
    split
    · exact .inr rfl
    · exact .inl rfl
  unfold Quoted.encode
  dsimp only
  split
  · exact ⟨_, _, rfl, quote⟩
  · exact ⟨_, _, rfl, quote⟩

theorem isMark_of_quote (quote : c = '"' ∨ c = apostrophe) : isMark c ∧ isIndent c = false := by
  rcases quote with rfl | rfl <;> decide

theorem unquoted_cons (quote : c ≠ '"') (single : c ≠ apostrophe) (rest : List Char) :
    Unquoted (c :: rest) := by
  rintro _ ⟨⟩
  exact ⟨quote, single⟩

theorem denotes_string (s : String) : Denotes (Quoted.encode s.toList) (.string s) where
  shown rest := by
    obtain ⟨quote, more, head, is_quote⟩ := exists_quote s.toList
    rw [head]
    exact stops_cons (isMark_of_quote is_quote).2 _
  reads rest := reads_value_string _ s (unquoted_cons (by decide) (by decide) rest)

theorem refuses_string (unquoted : Unquoted text) : Refuses Reader.string text := by
  have double (t : List Char) : Refuses (Reader.text ('"' :: t)) text :=
    refuses_text_of_head (fun mem ↦ (unquoted _ mem).1 rfl) t
  have single (t : List Char) : Refuses (Reader.text (apostrophe :: t)) text :=
    refuses_text_of_head (fun mem ↦ (unquoted _ mem).2 rfl) t
  exact ((double _).bind _).and (((double _).bind _).and
    (((single _).bind _).and ((single _).bind _)))

/-- Something that begins neither with a quote nor with a bracket. -/
theorem value_plain (depth : Nat) (unquoted : Unquoted text)
    (unbracketed : ∀ c ∈ text.head?, c ≠ '[' ∧ c ≠ '{') :
    (value depth).run text = plainValue.run text := by
  have string : Refuses (do pure (Toml.string (← Reader.string))) text :=
    (refuses_string unquoted).bind _
  have square : Refuses (Reader.text ['[']) text :=
    refuses_text_of_head (fun mem ↦ (unbracketed _ mem).1 rfl) []
  have curly : Refuses (Reader.text ['{']) text :=
    refuses_text_of_head (fun mem ↦ (unbracketed _ mem).2 rfl) []
  cases depth with
  | zero =>
    rw [value, run_orElse, string]
    rfl
  | succ depth =>
    have array : Refuses (Reader.array (value depth)) text := square.bind _
    have table : Refuses (inlineTable (value depth)) text := curly.bind _
    rw [value, run_orElse, string, run_orElse, array, run_orElse, table]
    rfl

theorem reads_plainValue (chars : ∀ c ∈ text, isPlainValueChar c) (date : isDate text = false)
    (denotes : plainValue? text = some v) (stops : Stops isPlainValueChar rest) :
    Reads plainValue (text ++ rest) v rest := by
  refine (reads_takeWhile chars stops).bind ?_
  rw [if_neg (by simp [date])]
  refine (Reads.pure text rest).bind ?_
  dsimp only
  rw [denotes]
  exact .pure v rest

theorem denotes_word (word : List Char) (some_char : word ≠ []) (chars : word.all isPlainValueChar)
    (date : isDate word = false) (denotes : plainValue? word = some v) : Denotes word v := by
  have chars := List.all_eq_true.mp chars
  have other {rest : List Char} (mark : Char) (no_char : isPlainValueChar mark = false) {c : Char}
      (mem : c ∈ (word ++ '\n' :: rest).head?) : c ≠ mark := by
    rintro rfl
    rw [head_append some_char chars mem] at no_char
    cases no_char
  constructor
  · intro rest c mem
    simp only [isIndent, Bool.or_eq_false_iff, decide_eq_false_iff_not]
    exact ⟨other ' ' (by decide) mem, other '\t' (by decide) mem⟩
  · intro rest
    have unquoted : Unquoted (word ++ '\n' :: rest) := fun c mem ↦
      ⟨other '"' (by decide) mem, other apostrophe (by decide) mem⟩
    have unbracketed : ∀ c ∈ (word ++ '\n' :: rest).head?, c ≠ '[' ∧ c ≠ '{' := fun c mem ↦
      ⟨other '[' (by decide) mem, other '{' (by decide) mem⟩
    exact (value_plain _ unquoted unbracketed).trans
      (reads_plainValue chars date denotes (stops_cons (by decide) rest))

theorem denotes_boolean (b : Bool) :
    Denotes (if b then "true" else "false").toList (.boolean b) := by
  cases b with
  | true => exact denotes_word ['t', 'r', 'u', 'e'] (by simp) (by rfl) (by rfl) (by rfl)
  | false => exact denotes_word ['f', 'a', 'l', 's', 'e'] (by simp) (by rfl) (by rfl) (by rfl)

section Digits

variable {digits : List Char} (all : ∀ c ∈ digits, Text.isDigit c)
include all

theorem ungroup_digits (some_digit : digits ≠ []) :
    ungroup Text.isDigit digits = some digits := by
  fun_induction ungroup Text.isDigit digits with
  | case1 => exact (some_digit rfl).elim
  | case2 => rfl
  | case3 c digit => exact absurd (all c List.mem_cons_self) digit
  | case4 c rest => exact absurd (all '_' (by simp)) (by decide)
  | case5 c rest => exact absurd (all '_' (by simp)) (by decide)
  | case6 c rest single _ digit ih =>
    rw [ih (fun d mem ↦ all d (List.mem_cons_of_mem c mem)) (fun eq ↦ single eq)]
    rfl
  | case7 c rest _ _ digit => exact absurd (all c List.mem_cons_self) digit

theorem isDate_digits : isDate digits = false := by
  unfold isDate
  split
  · exact absurd (all '-' (by simp)) (by decide)
  · rfl

end Digits

theorem wholeDigits_toString (n : Nat) :
    wholeDigits (toString n).toList = some (toString n).toList := by
  have leading : ¬((toString n).toList.length > 1 ∧ (toString n).toList.head? = some '0') :=
    fun ⟨many, zero⟩ ↦ Text.head_toString many zero
  rw [wholeDigits, ungroup_digits (fun _ ↦ Text.isDigit_of_mem_toString) (Text.toString_ne_nil n)]
  exact if_neg leading

theorem integer?_toString (fits : (n : Int) ≤ Int64.maxValue.toInt) :
    integer? (toString n).toList = some (n : Int) := by
  have digit {c : Char} (mem : c ∈ (toString n).toList) : Text.isDigit c :=
    Text.isDigit_of_mem_toString mem
  have whole := wholeDigits_toString n
  have value := Text.decimal_toString n
  have word : inInt64 n := by
    have low : Int64.minValue.toInt ≤ 0 := by decide
    simp only [inInt64, Bool.and_eq_true, decide_eq_true_eq]
    omega
  generalize (toString n).toList = digits at *
  have unsigned : splitSign digits = (false, digits) := by
    unfold splitSign
    split
    · exact absurd (digit (c := '-') (by simp)) (by decide)
    · exact absurd (digit (c := '+') (by simp)) (by decide)
    · rfl
  unfold integer?
  split
  · exact absurd (digit (c := 'x') (by simp)) (by decide)
  · exact absurd (digit (c := 'o') (by simp)) (by decide)
  · exact absurd (digit (c := 'b') (by simp)) (by decide)
  · simp [unsigned, whole, value, word]

theorem plainValue?_toString (fits : (n : Int) ≤ Int64.maxValue.toInt) :
    plainValue? (toString n).toList = some (.integer n) := by
  have other {word : List Char} (c : Char) (mem : c ∈ word) (letter : ¬Text.isDigit c) :
      (toString n).toList ≠ word := by
    rintro rfl
    exact letter (Text.isDigit_of_mem_toString mem)
  rw [plainValue?, if_neg (other 't' (by simp) (by decide)),
    if_neg (other 'f' (by simp) (by decide)), integer?_toString fits]

theorem denotes_integer (fits : (n : Int) ≤ Int64.maxValue.toInt) :
    Denotes (toString n).toList (.integer n) := by
  have digit {c : Char} (mem : c ∈ (toString n).toList) : Text.isDigit c :=
    Text.isDigit_of_mem_toString mem
  apply denotes_word _ (Text.toString_ne_nil n) _ (isDate_digits fun _ ↦ digit)
    (plainValue?_toString fits)
  rw [List.all_eq_true]
  intro c mem
  have alphanum : c.isDigit := Text.isDigit_iff.mp (digit mem)
  simp [isPlainValueChar, Char.isAlphanum, alphanum]

/-! ## Lists of strings -/

/-- No value begins with a closing bracket. -/
theorem refuses_value (depth : Nat) (rest : List Char) : Refuses (value depth) (']' :: rest) := by
  have word : Reads (takeWhile isPlainValueChar) (']' :: rest) [] (']' :: rest) :=
    reads_takeWhile_nil (stops_cons (by decide) rest)
  have plain : Refuses plainValue (']' :: rest) := by
    refine word.refuses_bind ?_
    rw [if_neg (by decide)]
    exact (Reads.pure _ _).refuses_bind rfl
  exact (value_plain depth (by simp [Unquoted, apostrophe]) (by simp)).trans plain

section Items

variable (depth : Nat)

/-- One more item, with the blanks around it. -/
theorem reads_item {blanks : List Char} (blank : ∀ c ∈ blanks, isIndent c ∨ c = '\n')
    (s : String) (mark : isMark c) (unquoted : Unquoted (c :: rest)) :
    Reads (do spacing; let v ← value depth; spacing; pure v)
      (blanks ++ (Quoted.encode s.toList ++ c :: rest)) (.string s) (c :: rest) := by
  obtain ⟨quote, more, text, is_quote⟩ := exists_quote s.toList
  have item := reads_value_string depth s unquoted
  have front : Reads spacing (blanks ++ (Quoted.encode s.toList ++ c :: rest)) ()
      (Quoted.encode s.toList ++ c :: rest) := by
    rw [text]
    exact reads_spacing blank (isMark_of_quote is_quote).1 _
  exact front.bind (item.bind ((reads_spacing (List.forall_mem_nil _) mark rest).bind (.pure _ _)))

/-- The blanks in front of an item on a line of its own. -/
def indent : List Char := ['\n', ' ', ' ', ' ', ' ']

theorem isBlank_indent : ∀ c ∈ indent, isIndent c ∨ c = '\n' := by simp [indent, isIndent]

/-- The text of the items behind the first, each on a line of its own. -/
def laterItems (items : List String) : List Char :=
  items.flatMap fun s ↦ ',' :: (indent ++ Quoted.encode s.toList)

/-- A comma follows every item. -/
theorem exists_comma (items : List String) (rest : List Char) :
    ∃ more, laterItems items ++ ',' :: rest = ',' :: more := by
  cases items with
  | nil => exact ⟨_, rfl⟩
  | cons _ _ => exact ⟨_, rfl⟩

theorem reads_laterItems (items : List String) (rest : List Char) :
    Reads (many (do Reader.text [',']; spacing; let v ← value depth; spacing; pure v))
      (laterItems items ++ ',' :: '\n' :: ']' :: rest) (items.map .string)
      (',' :: '\n' :: ']' :: rest) := by
  induction items with
  | nil =>
    have blank : ∀ c ∈ ['\n'], isIndent c ∨ c = '\n' := by simp
    have last : Refuses (do spacing; let v ← value depth; spacing; pure v) ('\n' :: ']' :: rest) :=
      (reads_spacing blank (by decide : isMark ']') rest).refuses_bind
        ((refuses_value depth rest).bind _)
    exact ((reads_text [','] _).refuses_bind last).many
  | cons s items ih =>
    obtain ⟨more, comma⟩ := exists_comma items ('\n' :: ']' :: rest)
    have text : laterItems (s :: items) ++ ',' :: '\n' :: ']' :: rest =
        ',' :: (indent ++ (Quoted.encode s.toList ++ ',' :: more)) := by
      rw [← comma]
      simp [laterItems]
    rw [text]
    rw [comma] at ih
    have item := reads_item depth isBlank_indent s (by decide : isMark ',')
      (unquoted_cons (by decide) (by decide) more)
    refine Reads.many ((reads_text [','] _).bind item) ?_ ih
    simp only [List.length_cons, List.length_append]
    omega

/-- The items between brackets. -/
def items : Reader (List Toml) :=
  (do
    let first ← value depth
    spacing
    let others ← many (do Reader.text [',']; spacing; let v ← value depth; spacing; pure v)
    optional (do Reader.text [',']; spacing)
    pure (first :: others)) <|> pure []

theorem reads_array {text inner : List Char} {read : List Toml}
    (front : Reads spacing (text ++ ']' :: rest) () inner)
    (taken : Reads (items depth) inner read (']' :: rest)) :
    Reads (value (depth + 1)) ('[' :: (text ++ ']' :: rest)) (.array read) rest := by
  have string : Refuses (do pure (Toml.string (← Reader.string))) ('[' :: (text ++ ']' :: rest)) :=
    (refuses_string (unquoted_cons (by decide) (by decide) _)).bind _
  have array : Reads (Reader.array (value depth)) ('[' :: (text ++ ']' :: rest)) (.array read)
      rest :=
    (reads_text ['['] _).bind (front.bind (taken.bind
      ((reads_text [']'] rest).bind (.pure _ rest))))
  exact string.orElse (array.orElse _)

theorem reads_items_nil (rest : List Char) :
    Reads (items depth) (']' :: rest) [] (']' :: rest) :=
  ((refuses_value depth rest).bind _).orElse (.pure [] _)

theorem reads_items_one (s : String) (rest : List Char) :
    Reads (items depth) (Quoted.encode s.toList ++ ']' :: rest) [.string s] (']' :: rest) := by
  have item := reads_value_string depth s (unquoted_cons (by decide : ']' ≠ '"') (by decide) rest)
  have none := reads_spacing (List.forall_mem_nil _) (by decide : isMark ']') rest
  have comma : Refuses (Reader.text [',']) (']' :: rest) := refuses_text (by decide) ..
  refine Reads.orElse (item.bind (none.bind ((comma.bind _).many.bind ?_))) _
  exact Reads.bind (comma.bind _).optional (.pure [Toml.string s] _)

theorem reads_items_many (s : String) (more : List String) (rest : List Char) :
    Reads (items depth)
      (Quoted.encode s.toList ++ (laterItems more ++ ',' :: '\n' :: ']' :: rest))
      ((s :: more).map .string) (']' :: rest) := by
  have others := reads_laterItems depth more rest
  obtain ⟨behind, comma⟩ := exists_comma more ('\n' :: ']' :: rest)
  rw [comma] at others ⊢
  have item := reads_value_string depth s
    (unquoted_cons (by decide : ',' ≠ '"') (by decide) behind)
  have none := reads_spacing (List.forall_mem_nil _) (by decide : isMark ',') behind
  have blank : ∀ c ∈ ['\n'], isIndent c ∨ c = '\n' := by simp
  have last := reads_spacing blank (by decide : isMark ']') rest
  refine Reads.orElse (item.bind (none.bind (others.bind ?_))) _
  exact Reads.bind ((reads_text [','] _).bind last).optional (.pure _ _)

end Items

/-- Items that are each followed by a comma, with the comma in front of all but the first. -/
theorem flatMap_comma (s : String) (more : List String) :
    ((s :: more).flatMap fun s ↦ "\n    ".toList ++ Quoted.encode s.toList ++ [',']) =
      indent ++ (Quoted.encode s.toList ++ (laterItems more ++ [','])) := by
  have blanks : "\n    ".toList = indent := rfl
  rw [blanks]
  induction more generalizing s with
  | nil => simp [laterItems]
  | cons t more ih =>
    rw [List.flatMap_cons, ih]
    simp [laterItems]

/-- A list of strings is read back from its text, on one line or several. -/
theorem reads_texts (depth : Nat) (items : List String) (rest : List Char) :
    Reads (value (depth + 1)) (Settings.textsToml items ++ rest) (.array (items.map .string))
      rest := by
  match items with
  | [] =>
    have none : Reads spacing ([] ++ ']' :: rest) () (']' :: rest) :=
      reads_spacing (List.forall_mem_nil _) (by decide) rest
    exact reads_array depth none (reads_items_nil depth rest)
  | [s] =>
    have text : Settings.textsToml [s] ++ rest =
        '[' :: (Quoted.encode s.toList ++ ']' :: rest) := by simp [Settings.textsToml]
    obtain ⟨quote, more, head, is_quote⟩ := exists_quote s.toList
    have none : Reads spacing (Quoted.encode s.toList ++ ']' :: rest) ()
        (Quoted.encode s.toList ++ ']' :: rest) := by
      rw [head]
      exact reads_spacing (List.forall_mem_nil _) (isMark_of_quote is_quote).1 _
    rw [text]
    exact reads_array depth none (reads_items_one depth s rest)
  | s :: t :: items =>
    have text : Settings.textsToml (s :: t :: items) ++ rest =
        '[' :: (indent ++ (Quoted.encode s.toList ++ (laterItems (t :: items) ++ [',', '\n'])) ++
          ']' :: rest) := by
      rw [Settings.textsToml, flatMap_comma]
      all_goals simp
    obtain ⟨quote, more, head, is_quote⟩ := exists_quote s.toList
    have front : Reads spacing (indent ++ (Quoted.encode s.toList ++
        (laterItems (t :: items) ++ [',', '\n'])) ++ ']' :: rest) ()
        (Quoted.encode s.toList ++ (laterItems (t :: items) ++ ',' :: '\n' :: ']' :: rest)) := by
      rw [head]
      simpa using reads_spacing isBlank_indent (isMark_of_quote is_quote).1
        (more ++ (laterItems (t :: items) ++ ',' :: '\n' :: ']' :: rest))
    rw [text]
    exact reads_array depth front (reads_items_many depth s (t :: items) rest)

theorem denotes_texts (items : List String) :
    Denotes (Settings.textsToml items) (.array (items.map .string)) where
  shown rest := by
    rcases items with _ | ⟨s, _ | ⟨t, items⟩⟩
    · exact stops_cons (by decide) _
    · exact stops_cons (by decide) _
    · exact stops_cons (by decide) _
  reads rest := reads_texts _ items ('\n' :: rest)

end ScriptCache.Toml
