import Mathlib
import ScriptCache.Proofs.Text.Digits
import ScriptCache.Url.Punycode

/-!
# Names in ASCII letters and digits are read back

Decoding undoes encoding. The encoder counts the places that it passes over, and the decoder finds
from that count the character that comes next and the place where it stands.
-/

namespace ScriptCache.Punycode

variable {n k bias point index : Nat} {first : Bool} {rest output text : List Char}

/-! ## Numbers -/

theorem digitValue?_digit (small : n < 36) : digitValue? (digit n) = some n := by
  have all : ∀ n < 36, digitValue? (digit n) = some n := by decide
  exact all n small

theorem ne_hyphen_of_digitValue? {c : Char} (value : digitValue? c = some n) : c ≠ '-' := by
  rintro rfl
  cases value

/-- A number below the threshold is one digit. Another one has a digit that is not below, and what
is left of it behind. -/
theorem digits_cases (bias k n : Nat) :
    (n < threshold bias k ∧ digits bias k n = [digit n]) ∨
      ∃ d m, digits bias k n = digit d :: digits bias (k + base) m ∧ threshold bias k ≤ d ∧ d < 36 ∧
        m < n ∧ d + m * (base - threshold bias k) = n := by
  have low := one_le_threshold bias k
  have high := threshold_le bias k
  rw [digits]
  by_cases small : n < threshold bias k
  · rw [if_pos small]
    exact .inl ⟨small, rfl⟩
  · rw [if_neg small]
    refine .inr ⟨_, _, rfl, Nat.le_add_right _ _, ?_, ?_, ?_⟩
    · have place : 0 < base - threshold bias k := by
        rw [base]
        omega
      have behind := Nat.mod_lt (n - threshold bias k) place
      rw [base] at behind ⊢
      omega
    · have := Nat.div_le_self (n - threshold bias k) (base - threshold bias k)
      omega
    · rw [Nat.add_assoc, Nat.mod_add_div']
      omega

/-- The digits of a number are what it is read from, whatever stands behind them. -/
theorem readNumber_digits (bias k n weight sum : Nat) (rest : List Char) :
    readNumber bias k weight sum (digits bias k n ++ rest) = some (sum + n * weight, rest) := by
  induction n using Nat.strongRecOn generalizing k weight sum with
  | ind n ih =>
    rcases digits_cases bias k n with ⟨small, eq⟩ | ⟨d, m, eq, stays, value, less, whole⟩
    · have high := threshold_le bias k
      rw [eq]
      simp [readNumber, digitValue?_digit (n := n) (by omega), small]
    · have swap : m * (weight * (base - threshold bias k)) =
          m * (base - threshold bias k) * weight := by ring
      rw [eq, List.cons_append, readNumber, digitValue?_digit value, Option.bind_eq_bind,
        Option.bind_some, if_neg (Nat.not_lt.mpr stays), ih m less, swap, Nat.add_assoc,
        ← Nat.add_mul, whole]

theorem exists_value_of_mem_digits (bias k n : Nat) :
    ∀ c ∈ digits bias k n, ∃ d < 36, c = digit d := by
  induction n using Nat.strongRecOn generalizing k with
  | ind n ih =>
    intro c mem
    rcases digits_cases bias k n with ⟨small, eq⟩ | ⟨d, m, eq, -, value, less, -⟩
    · have high := threshold_le bias k
      rw [eq, List.mem_singleton] at mem
      exact ⟨n, by omega, mem⟩
    · rw [eq, List.mem_cons] at mem
      rcases mem with rfl | mem
      · exact ⟨d, value, rfl⟩
      · exact ih m less _ c mem

theorem digits_ne_nil (bias k n : Nat) : digits bias k n ≠ [] := by
  rw [digits]
  split <;> simp

/-! ## One character -/

@[simp] theorem place_nil : place output point index bias first [] = some output := by
  rw [place, List.isEmpty_nil, if_pos rfl]

/-- The decoder places the next character where the number leads it. -/
theorem place_digits {c : Char} {delta position : Nat} (inside : position ≤ output.length)
    (reached : point ≤ c.toNat)
    (ahead : index + delta = (c.toNat - point) * (output.length + 1) + position)
    (bias : Nat) (first : Bool) (rest : List Char) :
    place output point index bias first (digits bias base delta ++ rest) =
      place (output.take position ++ c :: output.drop position) c.toNat (position + 1)
        (adapt delta (output.length + 1) first) false rest := by
  have full : ¬(digits bias base delta ++ rest).isEmpty := by
    simp [digits_ne_nil]
  have number : readNumber bias base 1 0 (digits bias base delta ++ rest) = some (delta, rest) := by
    rw [readNumber_digits, Nat.zero_add, Nat.mul_one]
  have size : 0 < output.length + 1 := Nat.succ_pos _
  have row : (index + delta) / (output.length + 1) = c.toNat - point := by
    rw [ahead, Nat.add_comm, Nat.add_mul_div_right _ _ size, Nat.div_eq_of_lt (by omega),
      Nat.zero_add]
  have column : (index + delta) % (output.length + 1) = position := by
    rw [ahead, Nat.add_comm, Nat.add_mul_mod_self_right, Nat.mod_eq_of_lt (by omega)]
  rw [place, if_neg full]
  split
  · rename_i other
    rw [number] at other
    cases other
  · rename_i read
    rw [number] at read
    cases read
    have valid : c.toNat.isValidChar := c.valid
    dsimp only
    rw [row, column, Nat.add_sub_cancel' reached, if_pos valid, Char.ofNat_toNat]

/-- Decoding what was written so far gives `output`. The decoder then stands behind `index`
characters at the code point `point`, and the count of the encoder leads it from there behind
`position` characters at the code point `target`. -/
structure Beside (ascii output : List Char) (point index target position : Nat) (s : State) :
    Prop where
  placed : ∀ rest, place ascii 128 0 72 true (s.output ++ rest) =
    place output point index s.bias s.first rest
  written : s.written = output.length
  inside : position ≤ output.length
  reached : point ≤ target
  ahead : index + s.delta = (target - point) * (output.length + 1) + position

variable {ascii front : List Char} {target position : Nat} {s : State}

theorem exists_beside_pass {c : Char}
    (beside : Beside ascii (front ++ (c :: text).filter (·.toNat < target)) point index target
      front.length s) :
    ∃ point index, Beside ascii
      (front ++ [c].filter (·.toNat ≤ target) ++ text.filter (·.toNat < target)) point index target
      (front ++ [c].filter (·.toNat ≤ target)).length (s.pass target c) := by
  obtain ⟨placed, written, inside, reached, ahead⟩ := beside
  -- a character below is passed over, one with the code point is placed, one above comes later
  rcases Nat.lt_trichotomy c.toNat target with less | same | more
  · have passed : s.pass target c = { s with delta := s.delta + 1 } := if_pos less
    have begins : (c :: text).filter (·.toNat < target) = c :: text.filter (·.toNat < target) :=
      List.filter_cons_of_pos (by simpa using less)
    rw [begins, List.append_cons] at placed written inside ahead
    rw [List.filter_cons_of_pos (by simpa using less.le), passed, List.filter_nil]
    have longer : (front ++ [c]).length = front.length + 1 := by simp
    refine ⟨point, index, placed, written, ?_, reached, ?_⟩
    · rw [longer, List.length_append, longer]
      exact Nat.le_add_right _ _
    · dsimp only
      omega
  · subst same
    have passed : s.pass c.toNat c =
        { s with
          delta := 0
          bias := adapt s.delta (s.written + 1) s.first
          written := s.written + 1
          first := false
          output := s.output ++ digits s.bias base s.delta } := by
      rw [State.pass, if_neg (Nat.lt_irrefl _), if_pos rfl]
    rw [List.filter_cons_of_neg (by simp)] at placed written inside ahead
    rw [List.filter_cons_of_pos (by simp), passed, List.filter_nil]
    refine ⟨c.toNat, front.length + 1, ?_, ?_, ?_, Nat.le_refl _, ?_⟩
    · intro rest
      rw [List.append_assoc, placed, place_digits inside reached ahead, written,
        List.take_left, List.drop_left, List.append_assoc]
      rfl
    · simp only [List.length_append, List.length_cons, List.length_nil] at written ⊢
      omega
    · simp
    · simp
  · have passed : s.pass target c = s := by
      rw [State.pass, if_neg (by omega), if_neg (by omega)]
    rw [List.filter_cons_of_neg (by simpa using more.le)] at placed written inside ahead
    rw [List.filter_cons_of_neg (by simpa using more), passed, List.filter_nil, List.append_nil]
    exact ⟨point, index, placed, written, inside, reached, ahead⟩

/-- One pass over the text places all characters with the code point. -/
theorem exists_beside_passes
    (beside : Beside ascii (front ++ text.filter (·.toNat < target)) point index target
      front.length s) :
    ∃ point index, Beside ascii (front ++ text.filter (·.toNat ≤ target)) point index target
      (front ++ text.filter (·.toNat ≤ target)).length (text.foldl (State.pass target) s) := by
  induction text generalizing front point index s with
  | nil => exact ⟨point, index, by simpa using beside⟩
  | cons c text ih =>
    obtain ⟨point, index, beside⟩ := exists_beside_pass beside
    have behind : front ++ [c].filter (·.toNat ≤ target) ++ text.filter (·.toNat ≤ target) =
        front ++ (c :: text).filter (·.toNat ≤ target) := by
      rw [List.append_assoc, ← List.filter_append, List.singleton_append]
    rw [List.foldl_cons, ← behind]
    exact ih beside

/-! ## All characters -/

theorem exists_beside_write (fresh : s.next ≤ target)
    (beside : Beside ascii (text.filter (·.toNat < target)) point index s.next 0 s) :
    ∃ point index, Beside ascii (text.filter (·.toNat ≤ target)) point index (target + 1) 0
      (s.write text target) := by
  obtain ⟨placed, written, inside, reached, ahead⟩ := beside
  have start : Beside ascii ([] ++ text.filter (·.toNat < target)) point index target 0
      { s with delta := s.delta + (target - s.next) * (s.written + 1) } := by
    refine ⟨placed, written, Nat.zero_le _, reached.trans fresh, ?_⟩
    -- from one code point to the next the count goes once through all places
    have rows : target - point = (s.next - point) + (target - s.next) := by omega
    rw [List.nil_append, rows, Nat.add_mul, ← written] at *
    dsimp only
    omega
  obtain ⟨point, index, placed, written, inside, reached, ahead⟩ := exists_beside_passes start
  refine ⟨point, index, placed, written, Nat.zero_le _, Nat.le_succ_of_le reached, ?_⟩
  have rows : target + 1 - point = (target - point) + 1 := by omega
  rw [List.nil_append] at ahead
  rw [rows, Nat.add_mul]
  simp only [State.write]
  omega

theorem exists_beside_writes {points : List Nat} (ascending : points.Pairwise (· < ·))
    (fresh : ∀ p ∈ points, s.next ≤ p) (all : ∀ c ∈ text, s.next ≤ c.toNat → c.toNat ∈ points)
    (beside : Beside ascii (text.filter (·.toNat < s.next)) point index s.next 0 s) :
    ∃ point index target, Beside ascii text point index target 0
      (points.foldl (State.write text) s) := by
  induction points generalizing point index s with
  | nil =>
    have whole : text.filter (·.toNat < s.next) = text := by
      rw [List.filter_eq_self]
      intro c mem
      have := mt (all c mem) List.not_mem_nil
      simpa using this
    exact ⟨point, index, s.next, whole ▸ beside⟩
  | cons p points ih =>
    obtain ⟨least, ascending⟩ := List.pairwise_cons.mp ascending
    have fresh_p : s.next ≤ p := fresh p List.mem_cons_self
    -- no character of the text lies between the code points that are written
    have same : text.filter (·.toNat < p) = text.filter (·.toNat < s.next) := by
      refine List.filter_congr fun c mem ↦ ?_
      rw [decide_eq_decide]
      refine ⟨fun less ↦ ?_, fun less ↦ less.trans_le fresh_p⟩
      by_contra behind
      rcases List.mem_cons.mp (all c mem (by omega)) with eq | later
      · omega
      · have := least _ later
        omega
    have next : (s.write text p).next = p + 1 := rfl
    obtain ⟨point, index, written⟩ := exists_beside_write fresh_p (same.symm ▸ beside)
    simp only [← Nat.lt_succ_iff] at written
    rw [List.foldl_cons]
    refine ih ascending (fun q mem ↦ least q mem) ?_ written
    intro c mem behind
    rw [next] at behind
    rcases List.mem_cons.mp (all c mem (by omega)) with eq | later
    · omega
    · exact later

theorem pairwise_eraseDups {points : List Nat} (sorted : points.Pairwise (· ≤ ·)) :
    points.eraseDups.Pairwise (· < ·) := by
  induction size : points.length using Nat.strongRecOn generalizing points with
  | ind _ ih =>
    cases points with
    | nil => simp
    | cons p points =>
      obtain ⟨least, sorted⟩ := List.pairwise_cons.mp sorted
      have shorter : (points.filter fun q ↦ !q == p).length < (p :: points).length := by
        have := List.length_filter_le (fun q ↦ !q == p) points
        rw [List.length_cons]
        omega
      rw [List.eraseDups_cons, List.pairwise_cons]
      refine ⟨fun q mem ↦ ?_, ih _ (size ▸ shorter) (sorted.filter _) rfl⟩
      obtain ⟨mem, other⟩ := List.mem_filter.mp (List.mem_eraseDups.mp mem)
      have other : q ≠ p := by simpa using other
      exact lt_of_le_of_ne (least q mem) other.symm

/-- The code points beyond ASCII that a text has, in order. -/
def points (text : List Char) : List Nat :=
  ((text.map Char.toNat).filter (128 ≤ ·)).mergeSort.eraseDups

theorem ascending_points (text : List Char) : (points text).Pairwise (· < ·) :=
  pairwise_eraseDups (List.pairwise_mergeSort' (· ≤ ·) _)

theorem mem_points {p : Nat} : p ∈ points text ↔ 128 ≤ p ∧ ∃ c ∈ text, c.toNat = p := by
  rw [points, List.mem_eraseDups, List.mem_mergeSort, List.mem_filter, List.mem_map]
  simp [and_comm]

/-- What is written behind the hyphen. -/
def extension (text : List Char) : List Char :=
  ((points text).foldl (State.write text)
    { written := (text.filter (·.toNat < 128)).length : State }).output

theorem encode_eq (text : List Char) :
    encode text = (if (text.filter (·.toNat < 128)).isEmpty then []
      else text.filter (·.toNat < 128) ++ ['-']) ++ extension text :=
  rfl

theorem place_extension (text : List Char) :
    place (text.filter (·.toNat < 128)) 128 0 72 true (extension text) = some text := by
  have start : Beside (text.filter (·.toNat < 128)) (text.filter (·.toNat < 128)) 128 0 128 0
      { written := (text.filter (·.toNat < 128)).length : State } :=
    ⟨fun _ ↦ rfl, rfl, Nat.zero_le _, Nat.le_refl _, by simp⟩
  obtain ⟨point, index, target, placed, -⟩ := exists_beside_writes
    (s := { written := (text.filter (·.toNat < 128)).length : State }) (ascending_points text)
    (fun p mem ↦ (mem_points.mp mem).1) (fun c mem beyond ↦ mem_points.mpr ⟨beyond, c, mem, rfl⟩)
    start
  have whole := placed []
  rw [List.append_nil, place_nil] at whole
  exact whole

theorem State.digits_of_pass {c : Char} (written : ∀ c ∈ s.output, ∃ d < 36, c = digit d) :
    ∀ d ∈ (s.pass target c).output, ∃ e < 36, d = digit e := by
  rw [State.pass]
  split
  · exact written
  · split
    · intro d mem
      rcases List.mem_append.mp mem with before | number
      · exact written d before
      · exact exists_value_of_mem_digits _ _ _ d number
    · exact written

theorem exists_value_of_mem_extension :
    ∀ c ∈ extension text, ∃ d < 36, c = digit d := by
  refine List.foldlRecOn (motive := fun s : State ↦ ∀ c ∈ s.output, ∃ d < 36, c = digit d)
    (points text) _ nofun fun s written point _ ↦ ?_
  exact List.foldlRecOn (motive := fun s : State ↦ ∀ c ∈ s.output, ∃ d < 36, c = digit d)
    text _ written fun s written c _ ↦ s.digits_of_pass written

/-- Decoding undoes encoding. -/
theorem decode?_encode (text : List Char) : decode? (encode text) = some text := by
  have plain : ∀ c ∈ (extension text).reverse, decide (c ≠ '-') = true := by
    intro c mem
    obtain ⟨d, small, rfl⟩ := exists_value_of_mem_extension c (List.mem_reverse.mp mem)
    exact decide_eq_true (ne_hyphen_of_digitValue? (digitValue?_digit small))
  have small : (text.filter (·.toNat < 128)).all (·.toNat < 128) := by
    rw [List.all_eq_true]
    exact fun c mem ↦ (List.mem_filter.mp mem).2
  have decoded := place_extension text
  rw [decode?, List.span_eq_takeWhile_dropWhile, encode_eq, List.reverse_append]
  generalize text.filter (·.toNat < 128) = ascii at small decoded ⊢
  cases ascii with
  | nil =>
    obtain ⟨tail, head⟩ := Text.takeWhile_whole plain
    have front : (if ([] : List Char).isEmpty then [] else ['-']).reverse = ([] : List Char) := rfl
    rw [List.nil_append, front, List.append_nil, tail, head]
    simpa using decoded
  | cons c ascii =>
    have ends : ∀ d ∈ ('-' :: (c :: ascii).reverse).head?, decide (d ≠ '-') = false := by simp
    obtain ⟨tail, head⟩ := Text.takeWhile_run plain ends
    have front : (if (c :: ascii).isEmpty then [] else c :: ascii ++ ['-']).reverse =
        '-' :: (c :: ascii).reverse := by simp
    rw [front, tail, head]
    dsimp only
    rw [List.tail_cons, List.reverse_reverse, List.reverse_reverse, if_pos small, decoded]

end ScriptCache.Punycode
