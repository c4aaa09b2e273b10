/-!
# Names in ASCII letters and digits

A name with other characters than ASCII is written as its ASCII characters, a hyphen, and a row
of numbers that say which characters go where. The numbers are written to the base 36 with the
low digits first; a digit below the threshold of its place ends a number. The thresholds adapt
to the numbers seen so far.
-/

namespace ScriptCache.Punycode

def base : Nat := 36

/-- The digits are `a` to `z`, then `0` to `9`. -/
def digit (n : Nat) : Char := if n < 26 then Char.ofNat (97 + n) else Char.ofNat (22 + n)

def digitValue? (c : Char) : Option Nat :=
  if 'a' ≤ c ∧ c ≤ 'z' then some (c.toNat - 97)
  else if 'A' ≤ c ∧ c ≤ 'Z' then some (c.toNat - 65)
  else if '0' ≤ c ∧ c ≤ '9' then some (c.toNat - 22)
  else none

/-- The threshold of the place that starts at `k`. -/
def threshold (bias k : Nat) : Nat :=
  if k ≤ bias + 1 then 1 else if bias + 26 ≤ k then 26 else k - bias

def shrink (delta k : Nat) : Nat :=
  if 455 < delta then shrink (delta / 35) (k + base) else k + 36 * delta / (delta + 38)
termination_by delta
decreasing_by omega

/-- The bias after a number. `points` counts the characters placed so far. -/
def adapt (delta points : Nat) (first : Bool) : Nat :=
  let delta := if first then delta / 700 else delta / 2
  shrink (delta + delta / points) 0

theorem threshold_le (bias k : Nat) : threshold bias k ≤ 26 := by
  unfold threshold; split
  · omega
  · split <;> omega

theorem one_le_threshold (bias k : Nat) : 1 ≤ threshold bias k := by
  unfold threshold; split
  · omega
  · split <;> omega

/-- The digits of a number from the place `k` on. -/
def digits (bias k n : Nat) : List Char :=
  let t := threshold bias k
  if n < t then [digit n]
  else digit (t + (n - t) % (base - t)) :: digits bias (k + base) ((n - t) / (base - t))
termination_by n
decreasing_by
  have h₁ := threshold_le bias k
  have h₂ := one_le_threshold bias k
  refine Nat.lt_of_le_of_lt (Nat.div_le_self ..) ?_
  omega

/-- Where encoding stands. -/
structure State where
  /-- The next code point that may be written. -/
  next : Nat := 128
  delta : Nat := 0
  bias : Nat := 72
  /-- Characters written so far. -/
  written : Nat
  first : Bool := true
  output : List Char := []

/-- Passes over one character while the code point `point` is written. -/
def State.pass (point : Nat) (s : State) (c : Char) : State :=
  if c.toNat < point then { s with delta := s.delta + 1 }
  else if c.toNat = point then
    { s with
      delta := 0
      bias := adapt s.delta (s.written + 1) s.first
      written := s.written + 1
      first := false
      output := s.output ++ digits s.bias base s.delta }
  else s

/-- Writes one code point at all its places. -/
def State.write (text : List Char) (s : State) (point : Nat) : State :=
  let s := { s with delta := s.delta + (point - s.next) * (s.written + 1) }
  let s := text.foldl (State.pass point) s
  { s with next := point + 1, delta := s.delta + 1 }

def encode (text : List Char) : List Char :=
  let ascii := text.filter (·.toNat < 128)
  let points := ((text.map Char.toNat).filter (128 ≤ ·)).mergeSort.eraseDups
  let head := if ascii.isEmpty then [] else ascii ++ ['-']
  head ++ (points.foldl (State.write text) { written := ascii.length }).output

/-- Reads one number from the place `k` on. `weight` is the weight of that place. -/
def readNumber (bias : Nat) : (k weight sum : Nat) → List Char → Option (Nat × List Char)
  | _, _, _, [] => none
  | k, weight, sum, c :: rest => do
    let d ← digitValue? c
    let sum := sum + d * weight
    let t := threshold bias k
    if d < t then some (sum, rest) else readNumber bias (k + base) (weight * (base - t)) sum rest

theorem length_readNumber_lt {bias k weight sum n : Nat} {s rest : List Char}
    (h : readNumber bias k weight sum s = some (n, rest)) : rest.length < s.length := by
  induction s generalizing k weight sum with
  | nil => cases h
  | cons c s ih =>
    simp only [readNumber, Option.bind_eq_bind, Option.bind_eq_some_iff] at h
    obtain ⟨_, _, h⟩ := h
    split at h
    · cases h; exact Nat.lt_succ_self _
    · exact Nat.lt_succ_of_lt (ih h)

/-- Places the characters that the numbers stand for among those of `output`. -/
def place (output : List Char) (point index bias : Nat) (first : Bool) (s : List Char) :
    Option (List Char) :=
  if s.isEmpty then some output
  else
    match _number : readNumber bias base 1 0 s with
    | none => none
    | some (n, rest) =>
      let size := output.length + 1
      let point := point + (index + n) / size
      let position := (index + n) % size
      if point.isValidChar then
        place (output.take position ++ Char.ofNat point :: output.drop position) point (position + 1)
          (adapt n size first) false rest
      else none
termination_by s.length
decreasing_by exact length_readNumber_lt _number

def decode? (s : List Char) : Option (List Char) :=
  let (tail, head) := s.reverse.span (· ≠ '-')
  let ascii := head.tail.reverse
  if ascii.all (·.toNat < 128) then place ascii 128 0 72 true tail.reverse else none

end ScriptCache.Punycode
