import ScriptCache.Json.Decode
import ScriptCache.Proofs.Json.Text
import ScriptCache.Proofs.Text.Utf8

/-!
# Values decoded from their text

A value is read back, from its text or the bytes of its text, as the tree of the same shape, whole
and with nothing left over.
-/

namespace ScriptCache.Json

mutual

/-- The value as it is read. -/
def toTree : Json → Tree
  | .null => .null
  | .bool b => .bool b
  | .int n => .number (.int n)
  | .string s => .string (some s)
  | .array items => .array (itemTrees items)
  | .object members => .object (memberTrees members)

def itemTrees : List Json → List Tree
  | [] => []
  | item :: items => toTree item :: itemTrees items

def memberTrees : List (String × Json) → List (Option String × Tree)
  | [] => []
  | (key, value) :: members => (some key, toTree value) :: memberTrees members

end

namespace Tree

variable {frames : List Frame} {tokens : List Token}

theorem build_openSquare (h : tokens.head? ≠ some .closeSquare) :
    build .value frames (.openSquare :: tokens) = build .value (.array [] :: frames) tokens := by
  rw [build]
  rintro rest rfl
  exact h rfl

theorem build_openCurly (h : tokens.head? ≠ some .closeCurly) :
    build .value frames (.openCurly :: tokens) = build .key (.object [] :: frames) tokens := by
  rw [build]
  rintro rest rfl
  exact h rfl

theorem build_scalar {token : Token} {t : Tree} (h : ofScalar? token = some t) :
    build .value frames (token :: tokens) = build (.behind t) frames tokens := by
  cases token <;> simp_all [build, ofScalar?]

end Tree

/-- No value begins with a closing bracket. -/
theorem head_tokens (v : Json) (rest : List Token) :
    (v.tokens ++ rest).head? ≠ some .closeSquare ∧ (v.tokens ++ rest).head? ≠ some .closeCurly := by
  rcases v with _ | _ | _ | _ | ⟨_ | _⟩ | ⟨_ | _⟩ <;> simp [tokens]

open Json.Tree (build)

mutual

theorem build_tokens : (v : Json) → (frames : List Tree.Frame) → (rest : List Token) →
    build .value frames (v.tokens ++ rest) = build (.behind v.toTree) frames rest
  | .null, frames, rest => by
    rw [tokens, toTree]
    exact Tree.build_scalar rfl
  | .bool b, frames, rest => by
    rw [tokens, toTree]
    exact Tree.build_scalar rfl
  | .int n, frames, rest => by
    rw [tokens, toTree]
    exact Tree.build_scalar rfl
  | .string s, frames, rest => by
    rw [tokens, toTree]
    exact Tree.build_scalar rfl
  | .array [], frames, rest => by
    rw [tokens, toTree, itemTrees]
    simp [build]
  | .array (item :: items), frames, rest => by
    rw [tokens, toTree, itemTrees]
    simp only [List.append_assoc, List.cons_append, List.nil_append]
    rw [Tree.build_openSquare (head_tokens item _).1, build_tokens item, build_itemTokens items]
    rfl
  | .object [], frames, rest => by
    rw [tokens, toTree, memberTrees]
    simp [build]
  | .object ((key, value) :: members), frames, rest => by
    rw [tokens, toTree, memberTrees, memberTokens]
    simp only [List.append_assoc, List.cons_append, List.nil_append]
    rw [Tree.build_openCurly (by simp), build, build_tokens value, build_memberListTokens members]
    rfl

theorem build_itemTokens : (items : List Json) → (t : Tree) → (before : List Tree) →
    (frames : List Tree.Frame) → (rest : List Token) →
    build (.behind t) (.array before :: frames) (itemTokens items ++ .closeSquare :: rest) =
      build (.behind (.array ((t :: before).reverse ++ itemTrees items))) frames rest
  | [], t, before, frames, rest => by
    rw [itemTokens, itemTrees, List.append_nil, List.nil_append, build]
  | item :: items, t, before, frames, rest => by
    rw [itemTokens, itemTrees]
    simp only [List.append_assoc, List.cons_append]
    rw [build, build_tokens item, build_itemTokens items]
    simp

theorem build_memberListTokens : (members : List (String × Json)) → (t : Tree) →
    (before : List (Option String × Tree)) → (key : Option String) →
    (frames : List Tree.Frame) → (rest : List Token) →
    build (.behind t) (.member before key :: frames)
        (memberListTokens members ++ .closeCurly :: rest) =
      build (.behind (.object (((key, t) :: before).reverse ++ memberTrees members))) frames rest
  | [], t, before, key, frames, rest => by
    rw [memberListTokens, memberTrees, List.append_nil, List.nil_append, build]
  | (name, value) :: members, t, before, key, frames, rest => by
    rw [memberListTokens, memberTrees, memberTokens]
    simp only [List.append_assoc, List.cons_append]
    rw [build, build, build_tokens value, build_memberListTokens members]
    simp

end

variable {α : Type} {v : Json} {layout : Layout}

theorem decode_chars (blank : layout.Blank) (fits : v.Fits) (read : Decoder α) {blanks : List Char}
    (spaces : ∀ c ∈ blanks, Token.isSpace c) :
    decode read (String.ofList (v.chars layout 0 ++ blanks)) = read v.toTree := by
  have ended : Token.Ended blanks := by
    rw [← List.append_nil blanks]
    exact ended_blanks spaces (by simp [Token.Ended])
  have none : Token.ofChars blanks = [] := by
    rw [← List.append_nil blanks, ofChars_blanks spaces, Token.ofChars]
  have built : build .value [] (Token.ofChars (v.chars layout 0 ++ blanks)) = (v.toTree, []) := by
    rw [ofChars_chars blank v fits 0 ended, none, build_tokens, build]
  rw [decode, String.toList_ofList, built]
  dsimp only [List.isEmpty_nil]
  cases read v.toTree <;> rfl

theorem decode_compact (fits : v.Fits) (read : Decoder α) :
    decode read v.compact = read v.toTree := by
  have decoded := decode_chars Layout.blank_compact fits read (List.forall_mem_nil _)
  rwa [List.append_nil] at decoded

/-- The newline behind a printed value does no harm. -/
theorem decode_pretty (fits : v.Fits) (read : Decoder α) :
    decode read (v.pretty ++ "\n") = read v.toTree := by
  have newline : ∀ c ∈ ['\n'], Token.isSpace c := List.forall_mem_singleton.mpr (by decide)
  have decoded := decode_chars Layout.blank_pretty fits read newline
  rwa [String.ofList_append] at decoded

theorem decodeBytes_compact (fits : v.Fits) (read : Decoder α) :
    decodeBytes read (Utf8.encode v.compact) = read v.toTree := by
  rw [decodeBytes, Utf8.decode?_encode]
  exact decode_compact fits read

end ScriptCache.Json
