import ScriptCache.Json
import ScriptCache.Json.Token
import ScriptCache.Proofs.Text.Digits

/-!
# Values read off their text

The text of a value, with or without blanks between its parts, is read as the tokens of the value,
whatever stands behind it that no number goes on with.
-/

namespace ScriptCache.Json

open Text (isDigit hexValue? decimal)

namespace Token

variable {c : Char} {rest after : List Char} {parts : List StringPart}

/-! ## Strings -/

theorem readString_short {e : Char} (short : unescape? e = some c) (plain : e ≠ 'u')
    (h : readString rest = some (parts, after)) :
    readString ('\\' :: e :: rest) = some (.char c :: parts, after) := by
  rw [readString]
  · simp [short, h]
  · intro _ _ _ _ _ unit
    exact (plain unit).elim

theorem readString_unit {a b d e : Char} {v w x y : Nat} (ha : hexValue? a = some v)
    (hb : hexValue? b = some w) (hd : hexValue? d = some x) (he : hexValue? e = some y)
    (h : readString rest = some (parts, after)) :
    readString ('\\' :: 'u' :: a :: b :: d :: e :: rest) =
      some (.unit (((v * 16 + w) * 16 + x) * 16 + y) :: parts, after) := by
  rw [readString]
  simp [ha, hb, hd, he, h]

theorem readString_char (quote : c ≠ '"') (backslash : c ≠ '\\') (shown : ¬c.toNat < 0x20)
    (h : readString rest = some (parts, after)) :
    readString (c :: rest) = some (.char c :: parts, after) := by
  rw [readString.eq_def]
  split <;> simp_all

theorem join_unit {n : Nat} (small : n < 0xD800) (parts : List StringPart) :
    StringPart.join (.unit n :: parts) = (StringPart.join parts).map (Char.ofNat n :: ·) := by
  rw [StringPart.join.eq_def]
  exact if_pos (.inl small)

/-- The part of a string literal that a character is written as. -/
theorem exists_part (c : Char) (h : readString rest = some (parts, after)) :
    ∃ part, readString (escape c ++ rest) = some (part :: parts, after) ∧
      StringPart.join (part :: parts) = (StringPart.join parts).map (c :: ·) := by
  unfold escape
  split
  · subst c
    exact ⟨_, readString_short (by rfl) (by decide) h, rfl⟩
  split
  · subst c
    exact ⟨_, readString_short (by rfl) (by decide) h, rfl⟩
  split
  · subst c
    exact ⟨_, readString_short (by rfl) (by decide) h, rfl⟩
  split
  · subst c
    exact ⟨_, readString_short (by rfl) (by decide) h, rfl⟩
  split
  · subst c
    exact ⟨_, readString_short (by rfl) (by decide) h, rfl⟩
  split
  · rename_i code
    obtain rfl : c = Char.ofNat 0x08 := by rw [← code, Char.ofNat_toNat]
    exact ⟨_, readString_short (by rfl) (by decide) h, rfl⟩
  split
  · rename_i code
    obtain rfl : c = Char.ofNat 0x0C := by rw [← code, Char.ofNat_toNat]
    exact ⟨_, readString_short (by rfl) (by decide) h, rfl⟩
  split
  · rename_i control
    have digit : ∀ n < 16, hexValue? (Nat.digitChar n) = some n := by decide
    have high := digit (c.toNat / 16) (by omega)
    have low := digit (c.toNat % 16) (by omega)
    have value : ((0 * 16 + 0) * 16 + c.toNat / 16) * 16 + c.toNat % 16 = c.toNat := by omega
    have zero : hexValue? '0' = some 0 := by decide
    have read := readString_unit zero zero high low h
    rw [value] at read
    refine ⟨_, read, ?_⟩
    rw [join_unit (by omega), Char.ofNat_toNat]
  · exact ⟨_, readString_char ‹_› ‹_› ‹_› h, rfl⟩

theorem exists_parts (chars rest : List Char) :
    ∃ parts, readString (chars.flatMap escape ++ '"' :: rest) = some (parts, rest) ∧
      StringPart.join parts = some chars := by
  induction chars with
  | nil => exact ⟨[], by rw [List.flatMap_nil, List.nil_append, readString], rfl⟩
  | cons c chars ih =>
    obtain ⟨parts, read, joined⟩ := ih
    obtain ⟨part, read, whole⟩ := exists_part c read
    refine ⟨part :: parts, ?_, ?_⟩
    · rw [List.flatMap_cons, List.append_assoc, read]
    · rw [whole, joined, Option.map_some]

theorem ofChars_read (dark : isSpace c = false) (rest : List Char) :
    ofChars (c :: rest) = (read c rest).1 :: ofChars (read c rest).2 := by
  rw [ofChars, if_neg (by simp [dark])]

theorem ofChars_quoted (s : String) (rest : List Char) :
    ofChars (quoted s ++ rest) = .string (some s) :: ofChars rest := by
  obtain ⟨parts, read, joined⟩ := exists_parts s.toList rest
  have scalar : Token.read '"' (s.toList.flatMap escape ++ '"' :: rest) =
      (.string (some s), rest) := by
    simp [Token.read, punctuation?, readScalar, read, joined]
  have text : quoted s ++ rest = '"' :: (s.toList.flatMap escape ++ '"' :: rest) := by
    simp [quoted]
  rw [text, ofChars_read (by decide), scalar]

/-! ## Numbers -/

/-- No number goes on here. -/
def Ended (rest : List Char) : Prop :=
  ∀ c ∈ rest.head?, isDigit c = false ∧ c ≠ '.' ∧ c ≠ 'e' ∧ c ≠ 'E'

theorem readWhole_toString (n : Nat) (ended : Ended rest) :
    readWhole ((toString n).toList ++ rest) = some ((toString n).toList, rest) := by
  have digits : ∀ c ∈ (toString n).toList, isDigit c := fun _ ↦ Text.isDigit_of_mem_toString
  obtain ⟨taken, dropped⟩ := Text.takeWhile_run digits fun c next ↦ (ended c next).1
  have some_digit := Text.toString_ne_nil n
  have leading : ¬((toString n).toList.length > 1 ∧ (toString n).toList.head? = some '0') :=
    fun ⟨many, zero⟩ ↦ Text.head_toString many zero
  simp only [readWhole, taken, dropped, List.isEmpty_iff, some_digit, leading, false_or, if_false]

theorem readNumber_toString (negative : Bool) (n : Nat) (ended : Ended rest) :
    readNumber negative ((toString n).toList ++ rest) =
      some (denoted negative (toString n).toList [] none, rest) := by
  have fraction : readFraction rest = some ([], rest) := by
    cases rest with
    | nil => rfl
    | cons c rest =>
      obtain ⟨-, point, -⟩ := ended c rfl
      rw [readFraction]
      simpa using point
  have exponent : readExponent rest = some (none, rest) := by
    cases rest with
    | nil => rfl
    | cons c rest =>
      obtain ⟨-, -, lower, upper⟩ := ended c rfl
      rw [readExponent, if_neg (by simp [lower, upper])]
  rw [readNumber, readWhole_toString n ended]
  simp only [Option.bind_eq_bind, Option.bind_some, fraction, exponent]

theorem denoted_nat {n : Nat} (fits : fitsWord n) :
    denoted false (toString n).toList [] none = .int n := by
  simp only [denoted, Text.decimal_toString]
  simp [fits]

theorem denoted_negative {n : Nat} (pos : n ≠ 0) (fits : fitsWord (-n)) :
    denoted true (toString n).toList [] none = .int (-n) := by
  simp only [denoted, Text.decimal_toString]
  simp [fits, pos]

/-- A digit begins a number, and nothing else. -/
theorem of_isDigit (digit : isDigit c) :
    isSpace c = false ∧ punctuation? c = none ∧ c ≠ '"' ∧ c ≠ '-' := by
  have all : ∀ n < 0x80, isDigit (Char.ofNat n) → isSpace (Char.ofNat n) = false ∧
      punctuation? (Char.ofNat n) = none ∧ Char.ofNat n ≠ '"' ∧ Char.ofNat n ≠ '-' := by decide
  have ascii : c.toNat < 0x80 := by
    simp only [isDigit, Bool.and_eq_true, decide_eq_true_eq, Char.le_def,
      UInt32.le_iff_toNat_le] at digit
    exact Nat.lt_of_le_of_lt digit.2 (by decide)
  have known := all c.toNat ascii
  rw [Char.ofNat_toNat] at known
  exact known digit

theorem read_digit (digit : isDigit c) {n : Number}
    (h : readNumber false (c :: rest) = some (n, after)) :
    Token.read c rest = (.number n, after) := by
  obtain ⟨-, sign, quote, minus⟩ := of_isDigit digit
  simp only [Token.read, sign, readScalar, quote, minus, digit, h, if_false, if_true,
    Option.map_some, Option.getD_some]

theorem read_minus {n : Number} (h : readNumber true rest = some (n, after)) :
    Token.read '-' rest = (.number n, after) := by
  simp [Token.read, punctuation?, readScalar, h]

theorem ofChars_int {n : Int} (fits : fitsWord n) (ended : Ended rest) :
    ofChars ((toString n).toList ++ rest) = .number (.int n) :: ofChars rest := by
  cases n with
  | ofNat n =>
    have text : (toString (Int.ofNat n)).toList = (toString n).toList := rfl
    have read := readNumber_toString false n ended
    rw [denoted_nat fits] at read
    have digits : ∀ c ∈ (toString n).toList, isDigit c := fun _ ↦ Text.isDigit_of_mem_toString
    rw [text]
    cases chars : (toString n).toList with
    | nil => exact (Text.toString_ne_nil n chars).elim
    | cons c chars' =>
      rw [chars] at read digits
      have digit := digits c List.mem_cons_self
      rw [List.cons_append] at read ⊢
      rw [ofChars_read (of_isDigit digit).1, read_digit digit read]
      rfl
  | negSucc n =>
    have text : (toString (Int.negSucc n)).toList = '-' :: (toString (n + 1)).toList := by
      change ("-" ++ toString (n + 1)).toList = _
      rw [String.toList_append]
      rfl
    have read := readNumber_toString true (n + 1) ended
    rw [denoted_negative n.succ_ne_zero fits] at read
    rw [text, List.cons_append, ofChars_read (by decide), read_minus read]
    rfl

end Token

/-! ## Tokens of values -/

mutual

/-- The tokens that a value is written as. -/
def tokens : Json → List Token
  | .null => [.null]
  | .bool b => [.bool b]
  | .int n => [.number (.int n)]
  | .string s => [.string (some s)]
  | .array [] => [.openSquare, .closeSquare]
  | .array (item :: items) => .openSquare :: tokens item ++ itemTokens items ++ [.closeSquare]
  | .object [] => [.openCurly, .closeCurly]
  | .object (member :: members) =>
    .openCurly :: memberTokens member ++ memberListTokens members ++ [.closeCurly]

def itemTokens : List Json → List Token
  | [] => []
  | item :: items => .comma :: tokens item ++ itemTokens items

def memberTokens : String × Json → List Token
  | (key, value) => .string (some key) :: .colon :: tokens value

def memberListTokens : List (String × Json) → List Token
  | [] => []
  | member :: members => .comma :: memberTokens member ++ memberListTokens members

end

mutual

/-- The integers of the value have 64 bits, with a sign or without. -/
def Fits : Json → Prop
  | .int n => Token.fitsWord n
  | .array items => FitsAll items
  | .object members => FitsMembers members
  | _ => True

def FitsAll : List Json → Prop
  | [] => True
  | item :: items => Fits item ∧ FitsAll items

def FitsMembers : List (String × Json) → Prop
  | [] => True
  | (_, value) :: members => Fits value ∧ FitsMembers members

end

/-- Between its parts the layout has blanks. -/
structure Layout.Blank (layout : Layout) : Prop where
  lineBreak : ∀ depth, ∀ c ∈ layout.lineBreak depth, Token.isSpace c
  colon : ∃ blanks, layout.colon = ':' :: blanks ∧ ∀ c ∈ blanks, Token.isSpace c

theorem Layout.blank_compact : Layout.compact.Blank :=
  ⟨by simp [compact], [], rfl, by simp⟩

theorem Layout.blank_pretty : Layout.pretty.Blank := by
  refine ⟨?_, [' '], rfl, List.forall_mem_singleton.mpr (by decide)⟩
  intro depth c mem
  rcases List.mem_cons.mp mem with rfl | space
  · decide
  · rw [List.eq_of_mem_replicate space]
    decide

theorem ofChars_blanks {blanks : List Char} (h : ∀ c ∈ blanks, Token.isSpace c)
    (rest : List Char) : Token.ofChars (blanks ++ rest) = Token.ofChars rest := by
  induction blanks with
  | nil => rfl
  | cons c blanks ih =>
    obtain ⟨first, others⟩ := List.forall_mem_cons.mp h
    rw [List.cons_append, Token.ofChars, if_pos first, ih others]

theorem ended_cons {c : Char} (h : isDigit c = false ∧ c ≠ '.' ∧ c ≠ 'e' ∧ c ≠ 'E')
    (rest : List Char) : Token.Ended (c :: rest) := by
  rintro _ ⟨⟩
  exact h

theorem ended_blanks {blanks rest : List Char} (h : ∀ c ∈ blanks, Token.isSpace c)
    (ended : Token.Ended rest) : Token.Ended (blanks ++ rest) := by
  cases blanks with
  | nil => exact ended
  | cons c blanks =>
    apply ended_cons
    have space := h c List.mem_cons_self
    simp only [Token.isSpace, Bool.decide_or, Bool.or_eq_true, decide_eq_true_eq] at space
    rcases space with rfl | rfl | rfl | rfl <;> decide

theorem ofChars_sign {c : Char} {t : Token} (sign : Token.punctuation? c = some t)
    (dark : Token.isSpace c = false) (rest : List Char) :
    Token.ofChars (c :: rest) = t :: Token.ofChars rest := by
  rw [Token.ofChars_read dark, Token.read, sign]

theorem ofChars_null (rest : List Char) :
    Token.ofChars ("null".toList ++ rest) = .null :: Token.ofChars rest := by
  have read : Token.read 'n' ('u' :: 'l' :: 'l' :: rest) = (.null, rest) := by
    simp [Token.read, Token.punctuation?, Token.readScalar, Token.readWord, isDigit]
  change Token.ofChars ('n' :: 'u' :: 'l' :: 'l' :: rest) = _
  rw [Token.ofChars_read (by decide), read]

theorem ofChars_bool (b : Bool) (rest : List Char) :
    Token.ofChars ((if b then "true" else "false").toList ++ rest) =
      .bool b :: Token.ofChars rest := by
  cases b with
  | true =>
    have read : Token.read 't' ('r' :: 'u' :: 'e' :: rest) = (.bool true, rest) := by
      simp [Token.read, Token.punctuation?, Token.readScalar, Token.readWord, isDigit]
    change Token.ofChars ('t' :: 'r' :: 'u' :: 'e' :: rest) = _
    rw [Token.ofChars_read (by decide), read]
  | false =>
    have read : Token.read 'f' ('a' :: 'l' :: 's' :: 'e' :: rest) = (.bool false, rest) := by
      simp [Token.read, Token.punctuation?, Token.readScalar, Token.readWord, isDigit]
    change Token.ofChars ('f' :: 'a' :: 'l' :: 's' :: 'e' :: rest) = _
    rw [Token.ofChars_read (by decide), read]

section Layouts

variable {layout : Layout} {depth : Nat} {rest : List Char}

theorem ended_itemChars (items : List Json) (ended : Token.Ended rest) :
    Token.Ended (itemChars layout depth items ++ rest) := by
  cases items with
  | nil =>
    rw [itemChars]
    exact ended
  | cons item items =>
    rw [itemChars]
    exact ended_cons (by decide) _

theorem ended_memberListChars (members : List (String × Json)) (ended : Token.Ended rest) :
    Token.Ended (memberListChars layout depth members ++ rest) := by
  cases members with
  | nil =>
    rw [memberListChars]
    exact ended
  | cons member members =>
    rw [memberListChars]
    exact ended_cons (by decide) _

variable (blank : layout.Blank)
include blank

mutual

theorem ofChars_chars : (v : Json) → v.Fits → ∀ (depth : Nat) {rest : List Char},
    Token.Ended rest → Token.ofChars (v.chars layout depth ++ rest) = v.tokens ++ Token.ofChars rest
  | .null, _ => fun _ rest _ ↦ by
    rw [chars, tokens]
    exact ofChars_null rest
  | .bool b, _ => fun _ rest _ ↦ by
    rw [chars, tokens]
    exact ofChars_bool b rest
  | .int n, fits => fun _ _ ended ↦ by
    rw [chars, tokens]
    exact Token.ofChars_int fits ended
  | .string s, _ => fun _ rest _ ↦ by
    rw [chars, tokens]
    exact Token.ofChars_quoted s rest
  | .array [], _ => fun _ rest _ ↦ by
    rw [chars, tokens, List.cons_append, ofChars_sign (by rfl) (by decide), List.cons_append,
      ofChars_sign (by rfl) (by decide)]
    rfl
  | .array (item :: items), ⟨first, others⟩ => fun depth rest _ ↦ by
    have closing : Token.Ended (layout.lineBreak depth ++ ']' :: rest) :=
      ended_blanks (blank.lineBreak depth) (ended_cons (by decide) rest)
    rw [chars, tokens]
    simp only [List.append_assoc, List.cons_append, List.nil_append]
    rw [ofChars_sign (by rfl) (by decide), ofChars_blanks (blank.lineBreak _),
      ofChars_chars item first _ (ended_itemChars items closing),
      ofChars_itemChars items others _ closing, ofChars_blanks (blank.lineBreak _),
      ofChars_sign (by rfl) (by decide)]
  | .object [], _ => fun _ rest _ ↦ by
    rw [chars, tokens, List.cons_append, ofChars_sign (by rfl) (by decide), List.cons_append,
      ofChars_sign (by rfl) (by decide)]
    rfl
  | .object (member :: members), ⟨first, others⟩ => fun depth rest _ ↦ by
    have closing : Token.Ended (layout.lineBreak depth ++ '}' :: rest) :=
      ended_blanks (blank.lineBreak depth) (ended_cons (by decide) rest)
    rw [chars, tokens]
    simp only [List.append_assoc, List.cons_append, List.nil_append]
    rw [ofChars_sign (by rfl) (by decide), ofChars_blanks (blank.lineBreak _),
      ofChars_memberChars member first _ (ended_memberListChars members closing),
      ofChars_memberListChars members others _ closing, ofChars_blanks (blank.lineBreak _),
      ofChars_sign (by rfl) (by decide)]

theorem ofChars_itemChars : (items : List Json) → FitsAll items → ∀ (depth : Nat)
    {rest : List Char}, Token.Ended rest →
      Token.ofChars (itemChars layout depth items ++ rest) = itemTokens items ++ Token.ofChars rest
  | [], _ => fun _ _ _ ↦ by
    rw [itemChars, itemTokens]
    rfl
  | item :: items, ⟨first, others⟩ => fun depth rest ended ↦ by
    rw [itemChars, itemTokens]
    simp only [List.append_assoc, List.cons_append]
    rw [ofChars_sign (by rfl) (by decide), ofChars_blanks (blank.lineBreak _),
      ofChars_chars item first _ (ended_itemChars items ended),
      ofChars_itemChars items others _ ended]

theorem ofChars_memberChars : (member : String × Json) → member.2.Fits → ∀ (depth : Nat)
    {rest : List Char}, Token.Ended rest →
      Token.ofChars (memberChars layout depth member ++ rest) =
        memberTokens member ++ Token.ofChars rest
  | (key, value), fits => fun depth rest ended ↦ by
    obtain ⟨blanks, colon, blanks_blank⟩ := blank.colon
    rw [memberChars, memberTokens, colon]
    simp only [List.append_assoc, List.cons_append]
    rw [Token.ofChars_quoted, ofChars_sign (by rfl) (by decide), ofChars_blanks blanks_blank,
      ofChars_chars value fits depth ended]

theorem ofChars_memberListChars : (members : List (String × Json)) → FitsMembers members →
    ∀ (depth : Nat) {rest : List Char}, Token.Ended rest →
      Token.ofChars (memberListChars layout depth members ++ rest) =
        memberListTokens members ++ Token.ofChars rest
  | [], _ => fun _ _ _ ↦ by
    rw [memberListChars, memberListTokens]
    rfl
  | member :: members, ⟨first, others⟩ => fun depth rest ended ↦ by
    rw [memberListChars, memberListTokens]
    simp only [List.append_assoc, List.cons_append]
    rw [ofChars_sign (by rfl) (by decide), ofChars_blanks (blank.lineBreak _),
      ofChars_memberChars member first _ (ended_memberListChars members ended),
      ofChars_memberListChars members others _ ended]

end

end Layouts

end ScriptCache.Json
