import Mathlib
import ScriptCache.Proofs.Text.Digits
import ScriptCache.Toml.Reader

/-!
# What readers take

What a reader takes from the front of a text, and which texts it refuses, is put together from what
its parts take and refuse.
-/

namespace ScriptCache.Toml.Reader

variable {α β : Type} {x y : Reader α} {f : α → Reader β} {a : α} {as : List α} {b : β}
  {s t u rest : List Char} {c d : Char} {p : Char → Bool}

/-- The reader takes `a` from the front of the text and leaves the rest. -/
def Reads (x : Reader α) (s : List Char) (a : α) (rest : List Char) : Prop :=
  x.run s = some (a, rest)

/-- The text does not begin with anything for the reader. -/
def Refuses (x : Reader α) (s : List Char) : Prop := x.run s = none

/-- The text does not begin with such a character. -/
def Stops (p : Char → Bool) (s : List Char) : Prop := ∀ c ∈ s.head?, p c = false

theorem stops_cons (h : p c = false) (rest : List Char) : Stops p (c :: rest) := by
  rintro _ ⟨⟩
  exact h

theorem head_append (some_char : s ≠ []) (all : ∀ c ∈ s, p c) (mem : c ∈ (s ++ rest).head?) :
    p c := by
  rw [List.head?_append_of_ne_nil _ some_char] at mem
  exact all c (List.mem_of_mem_head? mem)

/-! ## Sequence and choice -/

theorem Reads.pure (a : α) (s : List Char) : Reads (pure a) s a s := rfl

theorem Reads.bind (h : Reads x s a t) (k : Reads (f a) t b u) : Reads (x >>= f) s b u := by
  rw [Reads, StateT.run_bind, h]
  exact k

theorem Refuses.bind (h : Refuses x s) (f : α → Reader β) : Refuses (x >>= f) s := by
  rw [Refuses, StateT.run_bind, h]
  rfl

theorem Reads.refuses_bind (h : Reads x s a t) (k : Refuses (f a) t) : Refuses (x >>= f) s := by
  rw [Refuses, StateT.run_bind, h]
  exact k

theorem run_orElse (x y : Reader α) (s : List Char) :
    (x <|> y).run s = (x.run s <|> y.run s) := rfl

theorem Reads.orElse (h : Reads x s a t) (y : Reader α) : Reads (x <|> y) s a t := by
  rw [Reads, run_orElse, h]
  rfl

theorem Refuses.orElse (h : Refuses x s) (k : Reads y s a t) : Reads (x <|> y) s a t := by
  rw [Reads, run_orElse, h]
  exact k

theorem Refuses.and (h : Refuses x s) (k : Refuses y s) : Refuses (x <|> y) s := by
  rw [Refuses, run_orElse, h]
  exact k

theorem Reads.optional {x : Reader Unit} (h : Reads x s () t) : Reads (optional x) s () t :=
  h.orElse _

theorem Refuses.optional {x : Reader Unit} (h : Refuses x s) : Reads (optional x) s () s :=
  Refuses.orElse h (.pure () s)

/-! ## Repetition -/

theorem Refuses.many (h : Refuses x s) : Reads (many x) s [] s := by
  have none : x s = none := h
  change some (repeated x s) = _
  rw [repeated, none]

theorem Reads.many (h : Reads x s a t) (less : t.length < s.length)
    (more : Reads (many x) t as u) : Reads (many x) s (a :: as) u := by
  have first : x s = some (a, t) := h
  have others : repeated x t = (as, u) := Option.some.inj more
  change some (repeated x s) = _
  rw [repeated, first]
  simp only [less, if_true, others]

/-- A reader that takes nothing is not repeated. -/
theorem Reads.many_once (h : Reads x s a s) : Reads (Reader.many x) s [a] s := by
  have first : x s = some (a, s) := h
  change some (repeated x s) = _
  rw [repeated, first]
  simp only [Nat.lt_irrefl, if_false]

/-! ## Characters -/

theorem reads_text (t rest : List Char) : Reads (text t) (t ++ rest) () rest := by
  change (if _ then _ else _) = _
  rw [if_pos (by simp), List.drop_left]

/-- The text begins with another character. -/
theorem refuses_text_of_head (h : c ∉ s.head?) (t : List Char) : Refuses (text (c :: t)) s := by
  cases s with
  | nil => rfl
  | cons d rest =>
    have other : c ≠ d := by
      rintro rfl
      exact h rfl
    apply if_neg
    simp [other]

theorem refuses_text (h : c ≠ d) (t rest : List Char) : Refuses (text (c :: t)) (d :: rest) :=
  refuses_text_of_head (by simpa using h.symm) t

theorem Refuses.text_cons (h : Refuses (text t) s) (c : Char) :
    Refuses (text (c :: t)) (c :: s) := by
  have other : ¬t <+: s := fun front ↦ by
    have taken : (text t).run s = some ((), s.drop t.length) := if_pos (by simpa using front)
    exact absurd (h.symm.trans taken) (by simp)
  apply if_neg
  simpa using other

theorem reads_satisfy (h : p c) (rest : List Char) : Reads (satisfy p) (c :: rest) c rest :=
  if_pos h

theorem refuses_satisfy (h : Stops p s) : Refuses (satisfy p) s := by
  cases s with
  | nil => rfl
  | cons c rest =>
    apply if_neg
    rw [h c rfl]
    exact Bool.false_ne_true

theorem reads_takeWhile (all : ∀ c ∈ s, p c) (stops : Stops p rest) :
    Reads (takeWhile p) (s ++ rest) s rest := by
  obtain ⟨taken, left⟩ := Text.takeWhile_run all stops
  change some (_, _) = _
  rw [taken, left]

theorem reads_takeWhile_nil (stops : Stops p rest) : Reads (takeWhile p) rest [] rest :=
  reads_takeWhile (List.forall_mem_nil _) stops

/-! ## Blanks and ends of lines -/

theorem reads_blanks (all : ∀ c ∈ s, isIndent c) (stops : Stops isIndent rest) :
    Reads blanks (s ++ rest) () rest :=
  (reads_takeWhile all stops).bind (.pure () rest)

theorem reads_blanks_nil (stops : Stops isIndent rest) : Reads blanks rest () rest :=
  reads_blanks (List.forall_mem_nil _) stops

theorem reads_newline (rest : List Char) : Reads newline ('\n' :: rest) () rest :=
  (reads_text ['\n'] rest).orElse _

theorem refuses_newline (h : ∀ c ∈ s.head?, c ≠ '\n' ∧ c ≠ '\r') : Refuses newline s :=
  (refuses_text_of_head (fun mem ↦ (h _ mem).1 rfl) _).and
    (refuses_text_of_head (fun mem ↦ (h _ mem).2 rfl) _)

theorem refuses_comment (h : c ≠ '#') (rest : List Char) : Refuses comment (c :: rest) :=
  (refuses_text h.symm ..).bind _

theorem reads_lineEnd (rest : List Char) : Reads lineEnd ('\n' :: rest) () rest := by
  have blanks := reads_blanks_nil (stops_cons (by decide : isIndent '\n' = false) rest)
  have comment := (refuses_comment (by decide : '\n' ≠ '#') rest).optional
  exact blanks.bind (comment.bind ((reads_newline rest).orElse _))

theorem reads_lineEnd_nil : Reads lineEnd [] () [] := rfl

/-- A character that is no blank, ends no line and begins no comment. -/
def isMark (c : Char) : Bool := !(isIndent c || c = '\n' || c = '\r' || c = '#')

/-- Blanks and line ends may stand in front of anything that is neither. -/
theorem reads_spacing (all : ∀ c ∈ s, isIndent c ∨ c = '\n') (mark : isMark c)
    (rest : List Char) : Reads spacing (s ++ c :: rest) () (c :: rest) := by
  suffices taken : ∃ as, Reads (many ((do let _ ← satisfy isIndent) <|> newline <|> comment))
      (s ++ c :: rest) as (c :: rest) by
    obtain ⟨as, taken⟩ := taken
    exact taken.bind (.pure () _)
  simp only [isMark, Bool.not_eq_true', Bool.or_eq_false_iff, decide_eq_false_iff_not] at mark
  obtain ⟨⟨⟨indent, line⟩, carriage⟩, hash⟩ := mark
  induction s with
  | nil =>
    refine ⟨[], Refuses.many (Refuses.and ?_ (Refuses.and ?_ ?_))⟩
    · exact (refuses_satisfy (stops_cons indent rest)).bind _
    · apply refuses_newline
      rintro _ ⟨⟩
      exact ⟨line, carriage⟩
    · exact refuses_comment hash rest
  | cons d s ih =>
    obtain ⟨first, others⟩ := List.forall_mem_cons.mp all
    obtain ⟨as, taken⟩ := ih others
    have one : Reads ((do let _ ← satisfy isIndent) <|> newline <|> comment)
        (d :: (s ++ c :: rest)) () (s ++ c :: rest) := by
      by_cases blank : isIndent d
      · exact Reads.orElse ((reads_satisfy blank _).bind (.pure () _)) _
      · obtain rfl := first.resolve_left blank
        have refused : Refuses (do let _ ← satisfy isIndent) ('\n' :: (s ++ c :: rest)) :=
          (refuses_satisfy (stops_cons (by decide) _)).bind _
        exact Refuses.orElse refused ((reads_newline _).orElse _)
    exact ⟨_, one.many (Nat.lt_succ_self _) taken⟩

end ScriptCache.Toml.Reader
