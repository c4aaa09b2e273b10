import ScriptCache.Proofs.Source.Guarded.Parser
import ScriptCache.Proofs.Source.Guarded.Tokens
import ScriptCache.Proofs.Source.Lines.Errors

/-!
# Groups and control blocks by position

A position stands for the tokens that are still ahead of it. What skips groups, expressions and
control blocks with guards does at a position what it does without them on the tokens ahead.
-/

namespace ScriptCache.Source.Guarded

open ScriptCache.Source.Parser (isModifier opensControl closesControl typeKeyword)

variable {α β γ σ : Type} {stream : TokenStream} {t : Token} {rest tokens : List Token}

/-- The position with these tokens ahead. -/
def place (stream : TokenStream) (rest : List Token) : Nat := stream.tokens.length - rest.length

section Positions

variable (inside : rest <:+ stream.tokens)
include inside

theorem tokenAt_place (n : Nat) : tokenAt stream (place stream rest) n = rest[n]? := by
  obtain ⟨before, eq⟩ := inside
  have length : stream.tokens.length = before.length + rest.length := by
    rw [← eq, List.length_append]
  have pos : place stream rest = before.length := by
    rw [place, length, Nat.add_sub_cancel]
  rw [tokenAt, pos, length]
  by_cases within : n ≤ rest.length
  · rw [Nat.min_eq_left (by omega), ← eq, List.getElem?_append_right (Nat.le_add_right ..),
      Nat.add_sub_cancel_left]
  · rw [Nat.min_eq_right (by omega), List.getElem?_eq_none (by omega),
      List.getElem?_eq_none (by omega)]

theorem kindAt_place (n : Nat) : kindAt stream (place stream rest) n = rest[n]?.map (·.kind) := by
  rw [kindAt, tokenAt_place inside]

theorem kindHere_place : kindHere stream (place stream rest) = rest.head?.map (·.kind) := by
  rw [kindHere, kindAt_place inside, List.head?_eq_getElem?]

theorem lineHere_place :
    lineHere stream (place stream rest) = Parser.lineAhead stream.endLine rest := by
  rw [lineHere, tokenAt_place inside]
  cases rest <;> rfl

theorem refuse_place (f : α → β) (cause : Cause) :
    refuse stream (place stream rest) cause = same f (Parser.fail stream.endLine rest cause) := by
  rw [refuse, lineHere_place inside]
  rfl

theorem place_further (within : tokens <:+ stream.tokens) (shorter : tokens.length < rest.length) :
    place stream rest < place stream tokens ∧ place stream tokens ≤ stream.tokens.length := by
  have length := inside.length_le
  have length' := within.length_le
  rw [place, place]
  omega

end Positions

section Ahead

variable (inside : t :: rest <:+ stream.tokens)
include inside

theorem kindHere_cons : kindHere stream (place stream (t :: rest)) = some t.kind :=
  kindHere_place inside

theorem inside_tail : rest <:+ stream.tokens := (List.suffix_cons t rest).trans inside

theorem pass_place : pass stream (place stream (t :: rest)) = place stream rest := by
  have length := inside.length_le
  rw [List.length_cons] at length
  rw [pass, place, place, List.length_cons, if_pos (by omega)]
  omega

theorem further_tail : place stream (t :: rest) < place stream rest ∧
    place stream rest ≤ stream.tokens.length :=
  place_further inside (inside_tail inside) (Nat.lt_succ_self _)

/-- A turn that passes the token ahead. -/
theorem walk_pass {turn : Nat × σ → Guarded (Turn (Nat × σ) α)} {kept kept' : σ}
    (h : turn (place stream (t :: rest), kept) =
      .ok (.again (pass stream (place stream (t :: rest)), kept'))) :
    walk stream turn (place stream (t :: rest), kept) =
      walk stream turn (place stream rest, kept') := by
  rw [pass_place inside] at h
  exact loop_again h (further_tail inside)

theorem loop_pass {turn : Nat → Guarded (Turn Nat α)}
    (h : turn (place stream (t :: rest)) = .ok (.again (pass stream (place stream (t :: rest))))) :
    loop stream.tokens.length (fun pos ↦ pos) turn (place stream (t :: rest)) =
      loop stream.tokens.length (fun pos ↦ pos) turn (place stream rest) := by
  rw [pass_place inside] at h
  exact loop_again h (further_tail inside)

end Ahead

/-! ## Groups and expressions -/

/-- One bracket on the stack for each that is open. -/
theorem closeBrackets_place (inside : rest <:+ stream.tokens) (bracket : Bracket)
    (brackets : List Bracket) :
    closeBrackets stream (place stream rest) (bracket :: brackets) =
      same (place stream) (Parser.skipGroup stream.endLine (bracket :: brackets) rest) := by
  induction rest generalizing bracket brackets with
  | nil =>
    have here := kindHere_place inside
    apply loop_error
    simp only [bracketsBehind, here, List.head?_nil, Option.map_none, lineHere_place inside, refuse]
    rfl
  | cons t rest ih =>
    have tail := inside_tail inside
    have here := kindHere_cons inside
    cases kind : t.kind with
    | opening b =>
      rw [Parser.skipGroup_opening kind]
      refine (walk_pass inside ?_).trans (ih tail b (bracket :: brackets))
      simp only [bracketsBehind, here, kind, ok_bind]
      rfl
    | closing b =>
      by_cases closes : b = bracket
      · cases closes
        rw [Parser.skipGroup_closing kind]
        cases brackets with
        | nil =>
          rw [Parser.skipGroup, same_ok]
          apply loop_leave
          simp only [bracketsBehind, here, kind, ok_bind, if_true, pass_place inside]
          rfl
        | cons outer brackets =>
          refine (walk_pass inside ?_).trans (ih tail outer brackets)
          simp only [bracketsBehind, here, kind, ok_bind, if_true]
          rfl
      · rw [Parser.skipGroup, kind]
        dsimp only
        rw [if_neg closes, ← refuse_place inside]
        apply loop_error
        simp only [bracketsBehind, here, kind, if_neg closes]
        rfl
    | _ =>
      rw [Parser.skipGroup_plain (by rw [kind]; rfl)]
      refine (walk_pass inside ?_).trans (ih tail bracket brackets)
      simp only [bracketsBehind, here, kind, ok_bind]
      rfl

/-- A group is skipped from the bracket that opens it. -/
theorem skipBrackets_place {b : Bracket} (inside : t :: rest <:+ stream.tokens)
    (opens : t.kind = .opening b) :
    skipBrackets stream (place stream (t :: rest)) =
      same (place stream) (Parser.skipGroup stream.endLine [b] rest) := by
  have here := kindHere_cons inside
  refine (walk_pass inside ?_).trans (closeBrackets_place (inside_tail inside) b [])
  simp only [bracketsBehind, here, opens, ok_bind]
  rfl

theorem same_bind_ok (f : α → β) (g : β → γ) (x : Except ParseError α) :
    (same f x >>= fun b ↦ .ok (g b)) = same (fun a ↦ g (f a)) x := by
  cases x <;> rfl

/-- A turn that reads something and goes on behind it. -/
theorem walk_behind {turn : Nat × σ → Guarded (Turn (Nat × σ) α)} {kept : σ}
    {x : Except ParseError β} {f : γ → α} {read : β → Except ParseError γ}
    (inside : tokens <:+ stream.tokens) (ahead : β → List Token) (kept' : β → σ)
    (h : turn (place stream tokens, kept) = same (fun b ↦ .again (place stream (ahead b), kept' b)) x)
    (further : ∀ b, x = .ok b → ahead b <:+ stream.tokens ∧ (ahead b).length < tokens.length)
    (later : ∀ b, x = .ok b →
      walk stream turn (place stream (ahead b), kept' b) = same f (read b)) :
    walk stream turn (place stream tokens, kept) = same f (x.bind read) := by
  cases x with
  | error e => exact loop_error h
  | ok b =>
    obtain ⟨within, shorter⟩ := further b rfl
    exact (loop_again h (place_further inside within shorter)).trans (later b rfl)

/-- A turn that skips a group and goes on behind it. -/
theorem walk_group {turn : Nat × σ → Guarded (Turn (Nat × σ) α)} {kept kept' : σ} {b : Bracket}
    {f : β → α} {read : List Token → Except ParseError β} (inside : t :: rest <:+ stream.tokens)
    (opens : t.kind = .opening b)
    (h : turn (place stream (t :: rest), kept) =
      (skipBrackets stream (place stream (t :: rest)) >>= fun behind ↦ .ok (.again (behind, kept'))))
    (later : ∀ after, after <:+ rest →
      walk stream turn (place stream after, kept') = same f (read after)) :
    walk stream turn (place stream (t :: rest), kept) =
      same f ((Parser.skipGroup stream.endLine [b] rest).bind read) := by
  rw [skipBrackets_place inside opens, same_bind_ok] at h
  refine walk_behind inside (fun after ↦ after) (fun _ ↦ kept') h (fun after skipped ↦ ?_)
    fun after skipped ↦ later after (Parser.suffix_of_skipGroup skipped)
  have behind := Parser.suffix_of_skipGroup skipped
  exact ⟨behind.trans (inside_tail inside), Nat.lt_succ_of_le behind.length_le⟩

theorem skipExpression_end (inside : [] <:+ stream.tokens) (depth : Nat) :
    skipExpression stream (place stream []) depth =
      same (place stream) (Parser.skipExpression stream.endLine depth []) := by
  have here := kindHere_place inside
  rw [Parser.skipExpression]
  by_cases outer : depth = 0
  · rw [if_pos outer]
    apply loop_leave
    simp only [here, List.head?_nil, Option.map_none, if_pos outer]
  · rw [if_neg outer, ← refuse_place inside]
    apply loop_error
    simp only [here, List.head?_nil, Option.map_none, if_neg outer]
    rfl

section Expression

variable (inside : t :: rest <:+ stream.tokens)
  (later : ∀ depth after, after <:+ rest → skipExpression stream (place stream after) depth =
    same (place stream) (Parser.skipExpression stream.endLine depth after))
  (depth : Nat)
include inside later

theorem skipExpression_semicolon (kind : t.kind = .semicolon) :
    skipExpression stream (place stream (t :: rest)) depth =
      same (place stream) (Parser.skipExpression stream.endLine depth (t :: rest)) := by
  have here := kindHere_cons inside
  rw [Parser.skipExpression_cons, kind]
  dsimp only
  by_cases outer : depth = 0
  · rw [if_pos outer]
    apply loop_leave
    simp only [here, kind, if_pos outer, pass_place inside]
  · rw [if_neg outer]
    refine (walk_pass inside ?_).trans (later depth rest (List.suffix_refl _))
    simp only [here, kind, if_neg outer]

/-- Braces are skipped as a group, other brackets are counted. -/
theorem skipExpression_opening {b : Bracket} (kind : t.kind = .opening b) :
    skipExpression stream (place stream (t :: rest)) depth =
      same (place stream) (Parser.skipExpression stream.endLine depth (t :: rest)) := by
  have here := kindHere_cons inside
  rw [Parser.skipExpression_cons, kind]
  cases b with
  | brace =>
    dsimp only
    by_cases outer : depth = 0
    · simp only [if_pos outer]
      apply loop_ends
      simp only [here, kind, if_pos outer]
      rw [skipBrackets_place inside kind]
      cases Parser.skipGroup stream.endLine [.brace] rest <;> rfl
    · simp only [if_neg outer]
      refine walk_group inside kind ?_ (later depth)
      simp only [here, kind, if_neg outer]
  | _ =>
    refine (walk_pass inside ?_).trans (later (depth + 1) rest (List.suffix_refl _))
    simp only [here, kind]

theorem skipExpression_closing {b : Bracket} (kind : t.kind = .closing b) :
    skipExpression stream (place stream (t :: rest)) depth =
      same (place stream) (Parser.skipExpression stream.endLine depth (t :: rest)) := by
  have here := kindHere_cons inside
  rw [Parser.skipExpression_cons, kind]
  cases b with
  | brace =>
    dsimp only
    by_cases outer : depth = 0
    · rw [if_pos outer]
      apply loop_leave
      simp only [here, kind, if_pos outer]
    · rw [if_neg outer, ← refuse_place inside]
      apply loop_error
      simp only [here, kind, if_neg outer]
      rfl
  | _ =>
    dsimp only
    by_cases outer : depth = 0
    · rw [if_pos outer, ← refuse_place inside]
      apply loop_error
      simp only [here, kind, if_pos outer]
      rfl
    · rw [if_neg outer]
      obtain ⟨depth, rfl⟩ := Nat.exists_eq_succ_of_ne_zero outer
      refine (walk_pass inside ?_).trans (later depth rest (List.suffix_refl _))
      simp only [here, kind, if_neg outer]
      rfl

end Expression

/-- The counter of brackets is only lowered where one is open. -/
theorem skipExpression_place (inside : tokens <:+ stream.tokens) (depth : Nat) :
    skipExpression stream (place stream tokens) depth =
      same (place stream) (Parser.skipExpression stream.endLine depth tokens) := by
  induction tokens using induction_behind generalizing depth with
  | nil => exact skipExpression_end inside depth
  | cons t rest ih =>
    have later (depth : Nat) (after : List Token) (behind : after <:+ rest) :=
      ih after behind.length_le (behind.trans (inside_tail inside)) depth
    cases kind : t.kind with
    | semicolon => exact skipExpression_semicolon inside later depth kind
    | opening b => exact skipExpression_opening inside later depth kind
    | closing b => exact skipExpression_closing inside later depth kind
    | _ =>
      have here := kindHere_cons inside
      rw [Parser.skipExpression_cons, kind]
      refine (walk_pass inside ?_).trans (later depth rest (List.suffix_refl _))
      simp only [here, kind]

/-! ## Control blocks -/

theorem condition?_isSome_iff (inside : t :: rest <:+ stream.tokens) :
    kindAt stream (place stream (t :: rest)) 1 = some (.opening .paren) ↔
      (Parser.condition? rest).isSome := by
  rw [kindAt_place inside, List.getElem?_cons_succ]
  cases rest with
  | nil => simp [Parser.condition?]
  | cons opener inner =>
    rw [Parser.condition?, List.getElem?_cons_zero, Option.map_some, Option.some_inj]
    by_cases round : opener.kind = .opening .paren <;> simp [round]

theorem skipColon_isSome_iff (inside : rest <:+ stream.tokens) :
    kindHere stream (place stream rest) = some .colon ↔ (Parser.skipColon rest).isSome := by
  rw [kindHere_place inside]
  cases rest with
  | nil => simp [Parser.skipColon]
  | cons t rest =>
    obtain ⟨kind, line, offset⟩ := t
    cases kind <;> simp [Parser.skipColon]

theorem skipCondition_place {inner : List Token} (inside : t :: rest <:+ stream.tokens)
    (condition : Parser.condition? rest = some inner) :
    skipCondition stream (place stream (t :: rest)) =
      same (fun after ↦ ((Parser.skipColon after).isSome,
          place stream ((Parser.skipColon after).getD after)))
        (Parser.skipGroup stream.endLine [.paren] inner) := by
  obtain ⟨opener, rfl, round⟩ := Parser.exists_of_condition? condition
  have tail := inside_tail inside
  rw [skipCondition, pass_place inside, skipBrackets_place tail round]
  cases skipped : Parser.skipGroup stream.endLine [.paren] inner with
  | error e => rfl
  | ok after =>
    have behind := (Parser.suffix_of_skipGroup skipped).trans (inside_tail tail)
    rw [same_ok, ok_bind]
    cases colon : Parser.skipColon after with
    | none =>
      have plain : ¬kindHere stream (place stream after) = some .colon := by
        rw [skipColon_isSome_iff behind, colon]
        simp
      rw [if_neg plain, same_ok, colon]
      rfl
    | some body =>
      have ahead : kindHere stream (place stream after) = some .colon := by
        rw [skipColon_isSome_iff behind, colon]
        rfl
      rw [if_pos ahead, same_ok, colon]
      obtain ⟨sign, rfl, -⟩ := Parser.exists_of_skipColon colon
      rw [pass_place behind]
      rfl

theorem suffix_skipColon (after : List Token) : (Parser.skipColon after).getD after <:+ after := by
  cases colon : Parser.skipColon after with
  | none => exact List.suffix_refl _
  | some body => exact Parser.suffix_of_skipColon colon

theorem passSemicolon_place (inside : rest <:+ stream.tokens) :
    (if kindHere stream (place stream rest) = some .semicolon then pass stream (place stream rest)
      else place stream rest) =
      place stream (if rest.head?.any (·.kind = .semicolon) then rest.tail else rest) := by
  rw [kindHere_place inside]
  cases rest with
  | nil => rfl
  | cons t rest =>
    rw [pass_place inside]
    by_cases semicolon : t.kind = .semicolon <;> simp [semicolon]

section Control

variable (inside : t :: rest <:+ stream.tokens)
  (later : ∀ depth after, after <:+ rest → skipControl stream (place stream after) (depth + 1) =
    same (place stream) (Parser.skipControl stream.endLine depth after))
  {text : String} (kind : t.kind = .name text) (depth : Nat)
include inside later kind

theorem skipControl_closes (closes : closesControl text) :
    skipControl stream (place stream (t :: rest)) (depth + 1) =
      same (place stream) (Parser.skipControl stream.endLine depth (t :: rest)) := by
  have here := kindHere_cons inside
  rw [Parser.skipControl_cons, kind]
  dsimp only
  rw [if_pos closes]
  cases depth with
  | zero =>
    apply loop_leave
    simp only [here, kind, if_pos closes, lower, ok_bind, pass_place inside, if_true,
      passSemicolon_place (inside_tail inside)]
  | succ depth =>
    refine (walk_pass inside ?_).trans (later depth rest (List.suffix_refl _))
    simp only [here, kind, if_pos closes, lower, ok_bind]
    rfl

/-- A colon behind the condition opens a block in the block. -/
theorem skipControl_opens {inner : List Token} (stays : ¬closesControl text)
    (opens : opensControl text) (condition : Parser.condition? rest = some inner) :
    skipControl stream (place stream (t :: rest)) (depth + 1) =
      same (place stream) (Parser.skipControl stream.endLine depth (t :: rest)) := by
  have tail := inside_tail inside
  have here := kindHere_cons inside
  have ahead := (condition?_isSome_iff inside).mpr (by rw [condition]; rfl)
  have within := Parser.suffix_of_condition? condition
  rw [Parser.skipControl_cons, kind]
  dsimp only
  rw [if_neg stays, if_pos opens, condition]
  refine walk_behind inside (fun after ↦ (Parser.skipColon after).getD after)
    (fun after ↦ if (Parser.skipColon after).isSome then depth + 1 + 1 else depth + 1) ?_
    (fun after skipped ↦ ?_) fun after skipped ↦ ?_
  · simp only [here, kind, if_neg stays, opens, ahead, and_true, if_true]
    rw [skipCondition_place inside condition]
    exact same_bind_ok ..
  · have behind := (Parser.suffix_of_skipGroup skipped).trans within
    have behind := (suffix_skipColon after).trans behind
    exact ⟨behind.trans tail, Nat.lt_succ_of_le behind.length_le⟩
  · have behind := (Parser.suffix_of_skipGroup skipped).trans within
    cases colon : Parser.skipColon after with
    | none => exact later depth after behind
    | some body => exact later (depth + 1) body ((Parser.suffix_of_skipColon colon).trans behind)

theorem skipControl_name :
    skipControl stream (place stream (t :: rest)) (depth + 1) =
      same (place stream) (Parser.skipControl stream.endLine depth (t :: rest)) := by
  have here := kindHere_cons inside
  have next := later depth rest (List.suffix_refl _)
  by_cases closes : closesControl text
  · exact skipControl_closes inside later kind depth closes
  by_cases opens : opensControl text
  · cases condition : Parser.condition? rest with
    | some inner => exact skipControl_opens inside later kind depth closes opens condition
    | none =>
      have plain := (condition?_isSome_iff inside).not.mpr (by simp [condition])
      rw [Parser.skipControl_cons, kind]
      dsimp only
      rw [if_neg closes, if_pos opens, condition]
      refine (walk_pass inside ?_).trans next
      simp only [here, kind, if_neg closes, plain, and_false, if_false]
  · rw [Parser.skipControl_cons, kind]
    dsimp only
    rw [if_neg closes, if_neg opens]
    refine (walk_pass inside ?_).trans next
    simp only [here, kind, if_neg closes, opens, Bool.false_eq_true, false_and, if_false]

end Control

/-- A counter of the open blocks, which is never lowered below one but by the last of them. -/
theorem skipControl_place (inside : tokens <:+ stream.tokens) (depth : Nat) :
    skipControl stream (place stream tokens) (depth + 1) =
      same (place stream) (Parser.skipControl stream.endLine depth tokens) := by
  induction tokens using induction_behind generalizing depth with
  | nil =>
    have here := kindHere_place inside
    rw [Parser.skipControl, ← refuse_place inside]
    apply loop_error
    simp only [here, List.head?_nil, Option.map_none]
    rfl
  | cons t rest ih =>
    have here := kindHere_cons inside
    have later (depth : Nat) (after : List Token) (behind : after <:+ rest) :=
      ih after behind.length_le (behind.trans (inside_tail inside)) depth
    cases kind : t.kind with
    | name text => exact skipControl_name inside later kind depth
    | opening b =>
      rw [Parser.skipControl_cons, kind]
      refine walk_group inside kind ?_ (later depth)
      simp only [here, kind]
    | closing b =>
      rw [Parser.skipControl_cons, kind, ← refuse_place inside]
      apply loop_error
      simp only [here, kind]
      rfl
    | _ =>
      rw [Parser.skipControl_cons, kind]
      refine (walk_pass inside ?_).trans (later depth rest (List.suffix_refl _))
      simp only [here, kind]

theorem skipStatement_place (inside : t :: rest <:+ stream.tokens) :
    skipStatement stream (place stream (t :: rest)) =
      same (place stream) (Parser.skipStatement stream.endLine t rest) := by
  have expression := skipExpression_place inside 0
  have here := kindHere_cons inside
  rw [skipStatement, Parser.skipStatement_eq, here]
  cases kind : t.kind with
  | name text =>
    dsimp only
    cases condition : Parser.condition? rest with
    | none =>
      have plain := (condition?_isSome_iff inside).not.mpr (by simp [condition])
      rw [if_neg (fun h ↦ plain h.2)]
      exact expression
    | some inner =>
      have ahead := (condition?_isSome_iff inside).mpr (by rw [condition]; rfl)
      dsimp only
      by_cases opens : opensControl text
      · rw [if_pos ⟨opens, ahead⟩, if_pos opens, skipCondition_place inside condition]
        cases skipped : Parser.skipGroup stream.endLine [.paren] inner with
        | error e => rfl
        | ok after =>
          have within := Parser.suffix_of_condition? condition
          have behind := ((Parser.suffix_of_skipGroup skipped).trans within).trans (inside_tail inside)
          rw [same_ok, ok_bind, Except.bind]
          cases colon : Parser.skipColon after with
          | none => exact skipExpression_place behind 0
          | some body => exact skipControl_place ((Parser.suffix_of_skipColon colon).trans behind) 0
      · rw [if_neg (fun h ↦ opens h.1), if_neg opens]
        exact expression
  | _ => exact expression

end ScriptCache.Source.Guarded
