import ScriptCache.Proofs.Source.Accepted.Soundness

/-!
# The lines of what the parser refuses

The parser reports an error with the line of the token ahead, or of the end. Every reader goes on
with a suffix of the tokens it was given, so the line stays one of theirs.
-/

namespace ScriptCache.Source

namespace Parser

variable {α β : Type} {endLine : Nat} {t : Token} {tokens rest : List Token} {e : ParseError}

/-- An error is reported with the line of one of the tokens, or of the end. -/
def FailsOn (endLine : Nat) (tokens : List Token) (x : Except ParseError α) : Prop :=
  ∀ e, x = .error e → e.line ∈ tokens.map (·.line) ++ [endLine]

theorem FailsOn.ok (a : α) : FailsOn endLine tokens (.ok a : Except ParseError α) :=
  fun _ h ↦ nomatch h

theorem FailsOn.fail (tokens : List Token) (cause : Cause) :
    FailsOn endLine tokens (fail endLine tokens cause : Except ParseError α) := by
  rintro _ ⟨⟩
  cases tokens with
  | nil => exact List.mem_singleton_self endLine
  | cons t tokens => exact List.mem_cons_self

theorem FailsOn.suffix {x : Except ParseError α} (h : FailsOn endLine rest x)
    (suffix : rest <:+ tokens) : FailsOn endLine tokens x := by
  intro e failed
  have inside := suffix.sublist.map (·.line)
  exact (inside.append_right [endLine]).subset (h e failed)

theorem FailsOn.bind {x : Except ParseError α} {f : α → Except ParseError β}
    (h : FailsOn endLine tokens x) (h' : ∀ a, x = .ok a → FailsOn endLine tokens (f a)) :
    FailsOn endLine tokens (x.bind f) := by
  cases x with
  | error e =>
    rintro _ ⟨⟩
    exact h e rfl
  | ok a => exact h' a rfl

theorem FailsOn.map {x : Except ParseError α} (h : FailsOn endLine tokens x) (f : α → β) :
    FailsOn endLine tokens (x.map f) := by
  cases x with
  | error e =>
    rintro _ ⟨⟩
    exact h e rfl
  | ok a => exact .ok (f a)

theorem failsOn_skipGroup (brackets : List Bracket) (tokens : List Token) :
    FailsOn endLine tokens (skipGroup endLine brackets tokens) := by
  fun_induction skipGroup endLine brackets tokens with
  | case1 => exact .ok _
  | case2 | case5 => exact .fail _ _
  | _ => rename_i ih; exact ih.suffix (List.suffix_cons ..)

theorem suffix_of_skipGroup {brackets : List Bracket}
    (h : skipGroup endLine brackets tokens = .ok rest) : rest <:+ tokens := by
  fun_induction skipGroup endLine brackets tokens with
  | case1 => cases h; exact List.suffix_refl _
  | case2 | case5 => cases h
  | _ => rename_i ih; exact (ih h).trans (List.suffix_cons ..)

/-- A group that is skipped, and what is read behind it. -/
theorem FailsOn.group {brackets : List Bracket} {inner : List Token}
    {f : List Token → Except ParseError α} (inside : inner <:+ tokens)
    (h : ∀ after, after <:+ inner → FailsOn endLine after (f after)) :
    FailsOn endLine tokens ((skipGroup endLine brackets inner).bind f) := by
  refine ((failsOn_skipGroup brackets inner).suffix inside).bind fun after skipped ↦ ?_
  have behind := suffix_of_skipGroup skipped
  exact (h after behind).suffix (behind.trans inside)

theorem failsOn_skipExpression (depth : Nat) (tokens : List Token) :
    FailsOn endLine tokens (skipExpression endLine depth tokens) := by
  induction tokens using induction_behind generalizing depth with
  | nil =>
    rw [skipExpression]
    split
    · exact .ok _
    · exact .fail _ _
  | cons t tokens ih =>
    have later (depth : Nat) {after : List Token} (behind : after <:+ tokens) :
        FailsOn endLine after (skipExpression endLine depth after) := ih after behind.length_le depth
    have next (depth : Nat) : FailsOn endLine (t :: tokens) (skipExpression endLine depth tokens) :=
      (later depth (List.suffix_refl _)).suffix (List.suffix_cons ..)
    rw [skipExpression_cons]
    split
    · split
      · exact .ok _
      · exact next depth
    · refine .group (List.suffix_cons ..) fun after behind ↦ ?_
      split
      · exact .ok _
      · exact later depth behind
    · split
      · exact .ok _
      · exact .fail _ _
    · exact next (depth + 1)
    · split
      · exact .fail _ _
      · exact next (depth - 1)
    · exact next depth

theorem failsOn_skipTypeBody (name : String) (tokens : List Token) :
    FailsOn endLine tokens (skipTypeBody endLine name tokens) := by
  induction tokens using induction_behind with
  | nil =>
    rw [skipTypeBody]
    exact .fail _ _
  | cons t tokens ih =>
    have later {after : List Token} (behind : after <:+ tokens) :
        FailsOn endLine after (skipTypeBody endLine name after) := ih after behind.length_le
    rw [skipTypeBody_cons]
    split
    · exact (failsOn_skipGroup _ _).suffix (List.suffix_cons ..)
    · exact .group (List.suffix_cons ..) fun after ↦ later
    · exact .fail _ _
    · exact .fail _ _
    · exact (later (List.suffix_refl _)).suffix (List.suffix_cons ..)

theorem suffix_of_condition? {inner : List Token} (h : condition? tokens = some inner) :
    inner <:+ tokens := by
  obtain ⟨opener, rfl, -⟩ := exists_of_condition? h
  exact List.suffix_cons ..

theorem suffix_of_skipColon {after : List Token} (h : skipColon tokens = some after) :
    after <:+ tokens := by
  obtain ⟨colon, rfl, -⟩ := exists_of_skipColon h
  exact List.suffix_cons ..

theorem failsOn_skipControl (depth : Nat) (tokens : List Token) :
    FailsOn endLine tokens (skipControl endLine depth tokens) := by
  induction tokens using induction_behind generalizing depth with
  | nil =>
    rw [skipControl]
    exact .fail _ _
  | cons t tokens ih =>
    have later (depth : Nat) {after : List Token} (behind : after <:+ tokens) :
        FailsOn endLine after (skipControl endLine depth after) := ih after behind.length_le depth
    have next (depth : Nat) : FailsOn endLine (t :: tokens) (skipControl endLine depth tokens) :=
      (later depth (List.suffix_refl _)).suffix (List.suffix_cons ..)
    rw [skipControl_cons]
    split
    · split
      · split
        · exact .ok _
        · exact next _
      split
      · split
        · exact next depth
        · rename_i inner condition
          have inside := suffix_of_condition? condition
          refine .group (inside.trans (List.suffix_cons ..)) fun after behind ↦ ?_
          split
          · rename_i body colon
            have within := suffix_of_skipColon colon
            exact (later _ ((within.trans behind).trans inside)).suffix within
          · exact later depth (behind.trans inside)
      · exact next depth
    · exact .group (List.suffix_cons ..) fun after ↦ later depth
    · exact .fail _ _
    · exact next depth

theorem failsOn_skipStatement (t : Token) (tokens : List Token) :
    FailsOn endLine (t :: tokens) (skipStatement endLine t tokens) := by
  rw [skipStatement_eq]
  split
  · rename_i text inner kind condition
    split
    · have inside := suffix_of_condition? condition
      refine .group (inside.trans (List.suffix_cons ..)) fun after behind ↦ ?_
      split
      · rename_i body colon
        exact (failsOn_skipControl 0 body).suffix (suffix_of_skipColon colon)
      · exact failsOn_skipExpression 0 after
    · exact failsOn_skipExpression 0 _
  · exact failsOn_skipExpression 0 _

theorem failsOn_readNamespace (line : Nat) (tokens : List Token) :
    FailsOn endLine tokens (readNamespace endLine line tokens) := by
  unfold readNamespace
  split
  · dsimp only
    split
    · exact .ok _
    · exact .ok _
    · exact (FailsOn.fail _ _).suffix (List.suffix_cons ..)
  · exact .ok _
  · exact .fail _ _

theorem failsOn_readType (line : Nat) (kind : TypeKind) (tokens : List Token) :
    FailsOn endLine tokens (readType endLine line kind tokens) := by
  unfold readType
  split
  · split
    · exact .fail _ _
    · exact ((failsOn_skipTypeBody _ _).suffix (List.suffix_cons ..)).map _
  · exact .fail _ _

theorem failsOn_readPlain (t : Token) (tokens : List Token) :
    FailsOn endLine (t :: tokens) (readPlain endLine t tokens) := by
  have other : FailsOn endLine (t :: tokens) (readOther endLine t tokens) :=
    (failsOn_skipStatement t tokens).map _
  unfold readPlain
  split
  · split
    · exact (failsOn_readNamespace _ _).suffix (List.suffix_cons ..)
    split
    · exact .ok _
    split
    · exact other
    split
    · rename_i declared
      obtain ⟨modifiers, keyword, _, eq, -⟩ := exists_of_declared? declared
      rw [eq]
      refine (failsOn_readType _ _ _).suffix ?_
      exact (List.suffix_cons ..).trans (List.suffix_append ..)
    · exact other
  · exact other

theorem failsOn_readStatement (tokens : List Token) :
    FailsOn endLine tokens (readStatement endLine tokens) := by
  have suffix := List.dropWhile_suffix isAttribute (l := tokens)
  unfold readStatement
  split
  · exact .ok _
  · rename_i ahead
    rw [ahead] at suffix
    split
    · exact .ok _
    · exact (failsOn_readPlain _ _).suffix suffix

theorem failsOn_readItems (blocks : List OpenBlock) (items : List Item) (last : HaltsLast tokens) :
    FailsOn endLine tokens (readItems endLine blocks items tokens) := by
  induction tokens using induction_behind generalizing blocks items with
  | nil =>
    rw [readItems]
    split
    · exact .ok _
    · exact .fail _ _
  | cons t tokens ih =>
    have behind := List.suffix_cons t tokens
    rw [readItems_cons]
    split
    · cases blocks with
      | nil => exact .fail _ _
      | cons block outer =>
        exact (ih tokens le_rfl outer _ (last.suffix behind)).suffix behind
    · rename_i stays
      refine (failsOn_readStatement _).bind fun step read ↦ ?_
      have suffix := (takes_readStatement last read).suffix
      have shorter := Nat.le_of_lt_succ (length_readStatement_lt stays read)
      cases step with
      | item i after => exact (ih after shorter _ _ (last.suffix suffix)).suffix suffix
      | enter name line after => exact (ih after shorter _ _ (last.suffix suffix)).suffix suffix

end Parser

end ScriptCache.Source
