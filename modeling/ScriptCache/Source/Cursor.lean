import ScriptCache.Source.Token

/-!
# Positions in a source text

A cursor holds the bytes that are still to be read, how many were read, and the line it stands
on. Everything the lexer does to a cursor is to skip some number of bytes, which is what
`Cursor.Reaches` says; offset and line then follow from `Cursor.skip`.
-/

namespace ScriptCache.Source

structure Cursor where
  rest : List UInt8
  offset : Nat
  line : Nat
  deriving DecidableEq, Repr

namespace Cursor

def ofSource (source : List UInt8) : Cursor := ⟨source, 0, 1⟩

def newline : UInt8 := 0x0A

/-- The line after the byte `b` on line `line`. -/
def lineAfter (b : UInt8) (line : Nat) : Nat :=
  if b = newline then line + 1 else line

/-- Skips `n` bytes, or all that are left when there are fewer. -/
def skip : Nat → Cursor → Cursor
  | 0, c => c
  | n + 1, c =>
    match c with
    | ⟨[], _, _⟩ => c
    | ⟨b :: rest, offset, line⟩ => skip n ⟨rest, offset + 1, lineAfter b line⟩

/-- Skips bytes up to the first position where `stop` holds of the bytes ahead, or to the end. -/
def skipUntil (stop : List UInt8 → Bool) (c : Cursor) : Cursor :=
  go c.rest c.offset c.line
where
  go : List UInt8 → Nat → Nat → Cursor
    | [], offset, line => ⟨[], offset, line⟩
    | b :: rest, offset, line =>
      if stop (b :: rest) then ⟨b :: rest, offset, line⟩
      else go rest (offset + 1) (lineAfter b line)

/-- Skips the bytes that satisfy `p`. -/
def skipWhile (p : UInt8 → Bool) (c : Cursor) : Cursor :=
  c.skipUntil fun ahead ↦ !ahead.head?.any p

/-- The bytes between two positions of one source. -/
def bytesTo (c d : Cursor) : List UInt8 :=
  c.rest.take (d.offset - c.offset)

/-- The position `d` comes from `c` by skipping bytes. -/
def Reaches (c d : Cursor) : Prop := ∃ n, d = c.skip n

@[simp] theorem skip_zero (c : Cursor) : c.skip 0 = c := rfl

@[simp] theorem skip_succ_cons (n : Nat) (b : UInt8) (rest : List UInt8) (offset line : Nat) :
    skip (n + 1) ⟨b :: rest, offset, line⟩ = skip n ⟨rest, offset + 1, lineAfter b line⟩ := rfl

@[simp] theorem skip_nil (n offset line : Nat) :
    skip n ⟨[], offset, line⟩ = ⟨[], offset, line⟩ := by
  cases n <;> rfl

theorem skip_add (m n : Nat) (c : Cursor) : c.skip (m + n) = (c.skip m).skip n := by
  induction m generalizing c with
  | zero => simp
  | succ m ih =>
    obtain ⟨rest, offset, line⟩ := c
    cases rest with
    | nil => simp
    | cons b rest => rw [Nat.add_right_comm]; simp [ih]

theorem rest_skip (n : Nat) (c : Cursor) : (c.skip n).rest = c.rest.drop n := by
  induction n generalizing c with
  | zero => simp
  | succ n ih =>
    obtain ⟨rest, offset, line⟩ := c
    cases rest with
    | nil => simp
    | cons b rest => simp [ih]

namespace Reaches

theorem refl (c : Cursor) : c.Reaches c := ⟨0, rfl⟩

theorem skip (n : Nat) (c : Cursor) : c.Reaches (c.skip n) := ⟨n, rfl⟩

theorem trans {c d e : Cursor} (h : c.Reaches d) (h' : d.Reaches e) : c.Reaches e := by
  obtain ⟨m, rfl⟩ := h
  obtain ⟨n, rfl⟩ := h'
  exact ⟨m + n, (skip_add m n c).symm⟩

theorem cons {b : UInt8} {rest : List UInt8} {offset line : Nat} {d : Cursor}
    (h : Reaches ⟨rest, offset + 1, lineAfter b line⟩ d) :
    Reaches ⟨b :: rest, offset, line⟩ d := by
  obtain ⟨n, rfl⟩ := h
  exact ⟨n + 1, rfl⟩

theorem length_le {c d : Cursor} (h : c.Reaches d) : d.rest.length ≤ c.rest.length := by
  obtain ⟨n, rfl⟩ := h
  simp [rest_skip]

end Reaches

theorem reaches_skipUntil (stop : List UInt8 → Bool) (c : Cursor) :
    c.Reaches (c.skipUntil stop) := by
  obtain ⟨rest, offset, line⟩ := c
  unfold skipUntil
  induction rest generalizing offset line with
  | nil => exact .refl _
  | cons b rest ih =>
    simp only [skipUntil.go]
    split
    · exact .refl _
    · exact .cons (ih _ _)

theorem reaches_skipWhile (p : UInt8 → Bool) (c : Cursor) : c.Reaches (c.skipWhile p) :=
  reaches_skipUntil ..

theorem length_skipUntil_le (stop : List UInt8 → Bool) (c : Cursor) :
    (c.skipUntil stop).rest.length ≤ c.rest.length :=
  (reaches_skipUntil stop c).length_le

theorem length_skipWhile_le (p : UInt8 → Bool) (c : Cursor) :
    (c.skipWhile p).rest.length ≤ c.rest.length :=
  (reaches_skipWhile p c).length_le

theorem length_skip (n : Nat) (c : Cursor) : (c.skip n).rest.length = c.rest.length - n := by
  simp [rest_skip]

/-- Reading ends: what holds at a position once it holds at all with fewer bytes ahead, holds
everywhere. -/
theorem induction_ahead {motive : Cursor → Prop}
    (step : ∀ c, (∀ d : Cursor, d.rest.length < c.rest.length → motive d) → motive c)
    (c : Cursor) : motive c :=
  (measure fun c : Cursor ↦ c.rest.length).wf.induction c step

end Cursor

end ScriptCache.Source
