import ScriptCache.Proofs.Text.Split
import ScriptCache.Proofs.Url.Percent
import ScriptCache.Url.PathText

/-!
# Paths that are read again

A path that was read has no dots among its segments and none of the characters that are encoded.
Reading it again gives the same path, but for a drive letter at the front of the path of a file.
-/

namespace ScriptCache.UrlPath

variable {kind : SchemeKind} {dirs more : List (List Char)} {last segment rest : List Char}
  {p : Progress}

/-- The text of directories, each with a slash behind it. -/
def within (dirs : List (List Char)) : List Char := dirs.flatMap (· ++ ['/'])

@[simp] theorem within_nil : within [] = [] := rfl

@[simp] theorem within_cons (segment : List Char) (dirs : List (List Char)) :
    within (segment :: dirs) = segment ++ '/' :: within dirs := by
  simp [within]

@[simp] theorem within_append (dirs more : List (List Char)) :
    within (dirs ++ more) = within dirs ++ within more :=
  List.flatMap_append

theorem splitOn_within (plain : ∀ d ∈ dirs, '/' ∉ d) (last_plain : '/' ∉ last) :
    (within dirs ++ last).splitOn '/' = dirs ++ [last] := by
  induction dirs with
  | nil => exact List.splitOn_eq_singleton last_plain
  | cons d dirs ih =>
    obtain ⟨first, others⟩ := List.forall_mem_cons.mp plain
    rw [within_cons, List.append_assoc, List.cons_append, List.splitOn_append_cons_self, ih others,
      List.splitOn_eq_singleton first]
    rfl

theorem intercalate_within (dirs : List (List Char)) (last : List Char) :
    ['/'].intercalate (dirs ++ [last]) = within dirs ++ last := by
  induction dirs with
  | nil => simp
  | cons d dirs ih =>
    rw [List.cons_append, List.intercalate_cons_of_ne_nil (by simp), ih]
    simp

theorem exists_within (text : List Char) :
    ∃ dirs last, text = within dirs ++ last ∧ text.splitOn '/' = dirs ++ [last] := by
  rcases List.eq_nil_or_concat' (text.splitOn '/') with none | ⟨dirs, last, split⟩
  · exact absurd none (List.splitOn_ne_nil '/' text)
  · refine ⟨dirs, last, ?_, split⟩
    rw [← intercalate_within, ← split, List.intercalate_splitOn]

/-! ## Leaving a directory -/

theorem directory_append (front : List Char) (plain : '/' ∉ last) :
    directory (front ++ '/' :: last) = front ++ ['/'] := by
  have passed : ∀ c ∈ last.reverse, decide (c ≠ '/') = true := by
    intro c mem
    rw [List.mem_reverse] at mem
    exact decide_eq_true fun slash ↦ plain (slash ▸ mem)
  simp only [directory, List.reverse_append, List.reverse_cons, List.append_assoc]
  rw [List.dropWhile_append_of_pos passed]
  simp

theorem lastSegment_append (front : List Char) (plain : '/' ∉ last) :
    lastSegment (front ++ '/' :: last) = last := by
  have passed : ∀ c ∈ last.reverse, decide (c ≠ '/') = true := by
    intro c mem
    rw [List.mem_reverse] at mem
    exact decide_eq_true fun slash ↦ plain (slash ▸ mem)
  simp only [lastSegment, List.reverse_append, List.reverse_cons, List.append_assoc]
  rw [List.takeWhile_append_of_pos passed]
  simp

theorem exists_within_eq (dirs : List (List Char)) :
    ∃ front, '/' :: within dirs = front ++ ['/'] := by
  rcases List.eq_nil_or_concat' dirs with rfl | ⟨init, d, rfl⟩
  · exact ⟨[], rfl⟩
  · exact ⟨'/' :: within init ++ d, by simp⟩

/-- The directories that are left when the last one is. A drive letter is not left. -/
def up (dirs : List (List Char)) : List (List Char) :=
  if dirs.getLast?.any fun d ↦ startsWithDrive ('/' :: d ++ ['/']) then dirs else dirs.dropLast

theorem startsWithDrive_of_normal {d : List Char} (drive : isNormalDriveLetter d) :
    startsWithDrive ('/' :: d ++ ['/']) := by
  match d with
  | [c, mark] =>
    simp only [isNormalDriveLetter, Bool.and_eq_true, decide_eq_true_eq] at drive
    simp [startsWithDrive, isDriveLetter, drive]

theorem leave_within (file : Bool) (plain : ∀ d ∈ dirs, '/' ∉ d) :
    leave file ('/' :: within dirs) = '/' :: within (up dirs) := by
  rcases List.eq_nil_or_concat' dirs with rfl | ⟨init, d, rfl⟩
  · cases file <;> rfl
  · obtain ⟨front, front_eq⟩ := exists_within_eq init
    have d_plain : '/' ∉ d := plain d (by simp)
    have path : '/' :: within (init ++ [d]) = front ++ '/' :: d ++ ['/'] := by
      rw [within_append, within_cons, within_nil, ← List.cons_append, front_eq]
      simp
    have closed : endsWithSlash (front ++ '/' :: d ++ ['/']) := by
      rw [endsWithSlash, List.getLast?_concat]
      rfl
    have behind : (front ++ '/' :: d ++ ['/']).drop ((front ++ ['/']).length - 1) =
        '/' :: d ++ ['/'] := by simp
    have root_full : (front ++ ['/']).isEmpty = false := by simp
    rw [path, up, List.getLast?_concat, Option.any_some, List.dropLast_concat]
    simp only [leave, closed, if_true, List.dropLast_concat, directory_append front d_plain, behind,
      root_full, Bool.false_or]
    by_cases drive : startsWithDrive ('/' :: d ++ ['/'])
    · have none : isNormalDriveLetter [] = false := rfl
      rw [if_pos drive, if_pos drive, path, lastSegment_append _ List.not_mem_nil, none,
        Bool.and_false, if_neg Bool.false_ne_true, directory_append _ List.not_mem_nil]
    · have other : isNormalDriveLetter d = false :=
        Bool.eq_false_iff.mpr fun normal ↦ drive (startsWithDrive_of_normal normal)
      rw [if_neg drive, if_neg drive, lastSegment_append front d_plain, other, Bool.and_false,
        if_neg Bool.false_ne_true, directory_append front d_plain, front_eq]

/-! ## What a path is made of -/

def NoDots (segment : List Char) : Prop :=
  isSingleDot segment = false ∧ isDoubleDot segment = false

theorem noDots_nil : NoDots [] := by
  constructor <;> rfl

/-- Nothing in the segment is encoded or ends it. -/
structure Fits (kind : SchemeKind) (segment : List Char) : Prop where
  no_slash : '/' ∉ segment
  no_backslash : kind.isSpecial → '\\' ∉ segment
  kept : ∀ c ∈ segment, Percent.path c = false

theorem fits_nil (kind : SchemeKind) : Fits kind [] :=
  ⟨List.not_mem_nil, fun _ ↦ List.not_mem_nil, by simp⟩

theorem Fits.of_subset (h : Fits kind segment) (sub : last ⊆ segment) : Fits kind last :=
  ⟨fun mem ↦ h.no_slash (sub mem), fun special mem ↦ h.no_backslash special (sub mem),
    fun c mem ↦ h.kept c (sub mem)⟩

/-- The path of a file begins with a drive letter. -/
def DriveFront (segments : List (List Char)) : Prop :=
  ∃ c more, segments = [c, ':'] :: more ∧ c.isAlpha

/-- The segments of a path that was read. Behind a drive letter there may be dots. -/
structure Sound (kind : SchemeKind) (segments : List (List Char)) : Prop where
  fits : ∀ s ∈ segments, Fits kind s
  noDots : (∀ s ∈ segments, NoDots s) ∨ kind = .file ∧ DriveFront segments

theorem sound_nil (kind : SchemeKind) : Sound kind [] := ⟨by simp, .inl (by simp)⟩

namespace Sound

theorem no_slash (h : Sound kind dirs) : ∀ d ∈ dirs, '/' ∉ d := fun d mem ↦ (h.fits d mem).no_slash

theorem concat (h : Sound kind dirs) (fits : Fits kind segment) (noDots : NoDots segment) :
    Sound kind (dirs ++ [segment]) := by
  constructor
  · intro s mem
    rcases List.mem_append.mp mem with mem | mem
    · exact h.fits s mem
    · exact List.mem_singleton.mp mem ▸ fits
  · rcases h.noDots with plain | ⟨file, c, more, rfl, letter⟩
    · left
      intro s mem
      rcases List.mem_append.mp mem with mem | mem
      · exact plain s mem
      · exact List.mem_singleton.mp mem ▸ noDots
    · exact .inr ⟨file, c, more ++ [segment], rfl, letter⟩

theorem of_concat_nil (h : Sound kind (dirs ++ [[]])) : Sound kind dirs := by
  constructor
  · exact fun s mem ↦ h.fits s (List.mem_append_left _ mem)
  · rcases h.noDots with plain | ⟨file, c, more, eq, letter⟩
    · exact .inl fun s mem ↦ plain s (List.mem_append_left _ mem)
    · right
      refine ⟨file, ?_⟩
      rcases List.append_eq_cons_iff.mp eq with ⟨-, last⟩ | ⟨more', rfl, -⟩
      · cases last
      · exact ⟨c, more', rfl, letter⟩

theorem up (h : Sound kind dirs) : Sound kind (up dirs) := by
  rw [UrlPath.up]
  split
  · exact h
  · rename_i on
    constructor
    · exact fun s mem ↦ h.fits s (List.dropLast_subset _ mem)
    · rcases h.noDots with plain | ⟨file, c, more, rfl, letter⟩
      · exact .inl fun s mem ↦ plain s (List.dropLast_subset _ mem)
      · right
        refine ⟨file, ?_⟩
        -- the drive letter is not the last directory, which would not be left
        rcases List.eq_nil_or_concat' more with rfl | ⟨init, d, rfl⟩
        · refine absurd ?_ on
          have normal : isNormalDriveLetter [c, ':'] := by simp [isNormalDriveLetter, letter]
          exact startsWithDrive_of_normal normal
        · exact ⟨c, init, by rw [← List.cons_append, List.dropLast_concat], letter⟩

/-- Drive letters and what stands behind them at the front of the path of a file. -/
theorem of_drive {c : Char} (fits : Fits .file [c, ':']) (last : Fits .file segment)
    (letter : c.isAlpha) : Sound .file ([[c, ':']] ++ [segment]) := by
  constructor
  · intro s mem
    rcases List.mem_append.mp mem with mem | mem
    · exact List.mem_singleton.mp mem ▸ fits
    · exact List.mem_singleton.mp mem ▸ last
  · exact .inr ⟨rfl, c, [segment], rfl, letter⟩

end Sound

/-! ## Adding a segment -/

theorem fits_encode (no_slash : '/' ∉ segment) (no_backslash : kind.isSpecial → '\\' ∉ segment) :
    Fits kind (Percent.encode Percent.path segment) := by
  have absent {c : Char} (out : c ∉ segment) (sign : c ∉ Percent.signs) :
      c ∉ Percent.encode Percent.path segment := by
    intro mem
    rcases Percent.mem_encode mem with ⟨mem, -⟩ | mem
    · exact out mem
    · exact sign mem
  rw [Percent.signs_eq] at absent
  refine ⟨absent no_slash (by decide), fun special ↦ absent (no_backslash special) (by decide), ?_⟩
  exact fun c ↦ Percent.not_set_of_mem_encode Percent.spares_path

theorem endsWithSlash_within (dirs : List (List Char)) :
    endsWithSlash ('/' :: within dirs) = true := by
  obtain ⟨front, eq⟩ := exists_within_eq dirs
  rw [eq, endsWithSlash, List.getLast?_concat]
  rfl

theorem exists_of_isDriveLetter (drive : isDriveLetter segment) :
    ∃ c mark, segment = [c, mark] ∧ c.isAlpha ∧ (mark = ':' ∨ mark = '|') := by
  match segment with
  | [c, mark] =>
    simp only [isDriveLetter, Bool.and_eq_true, Bool.or_eq_true, decide_eq_true_eq] at drive
    exact ⟨c, mark, rfl, drive⟩

theorem exists_of_isNormalDriveLetter (drive : isNormalDriveLetter segment) :
    ∃ c, segment = [c, ':'] ∧ c.isAlpha := by
  match segment with
  | [c, mark] =>
    simp only [isNormalDriveLetter, Bool.and_eq_true, decide_eq_true_eq] at drive
    exact ⟨c, by rw [drive.2], drive.1⟩

theorem fits_drive {c mark : Char} {rest : List Char} (fits : Fits kind (c :: mark :: rest)) :
    Fits kind [c, ':'] := by
  have letter : Fits kind [c] := fits.of_subset (by simp)
  have colon : Percent.path ':' = false := by
    simp [Percent.path, Percent.fragment, Percent.controls]
  refine ⟨?_, fun special ↦ ?_, ?_⟩
  · simpa using letter.no_slash
  · simpa using letter.no_backslash special
  · simpa [colon] using letter.kept

/-- A path that ends with a slash gets a segment, or loses one, and stays as it should be. -/
theorem exists_of_add (sound : Sound kind dirs) (path : p.path = '/' :: within dirs)
    (no_slash : '/' ∉ segment) (no_backslash : kind.isSpecial → '\\' ∉ segment) (closed : Bool) :
    ∃ dirs last, (p.add kind segment closed).path = '/' :: (within dirs ++ last) ∧
      Sound kind (dirs ++ [last]) ∧ (closed → last = []) := by
  have fits := fits_encode no_slash no_backslash
  have ends : endsWithSlash p.path = true := by rw [path, endsWithSlash_within]
  -- a segment that is added ends the path, or a slash ends it
  have added {dirs : List (List Char)} {segment : List Char}
      (sound : Sound kind (dirs ++ [segment])) :
      ∃ dirs' last, '/' :: within dirs ++ segment ++ (if closed then ['/'] else []) =
          '/' :: (within dirs' ++ last) ∧ Sound kind (dirs' ++ [last]) ∧ (closed → last = []) := by
    cases closed with
    | true =>
      have more := sound.concat (fits_nil kind) noDots_nil
      exact ⟨dirs ++ [segment], [], by simp, more, by simp⟩
    | false => exact ⟨dirs, segment, by simp, sound, by simp⟩
  rw [Progress.add]
  generalize Percent.encode Percent.path segment = encoded at fits
  dsimp only
  split
  · refine ⟨up dirs, [], ?_, sound.up.concat (fits_nil kind) noDots_nil, fun _ ↦ rfl⟩
    rw [path, leave_within _ sound.no_slash, endsWithSlash_within]
    simp
  · rename_i not_double
    split
    · refine ⟨dirs, [], ?_, sound.concat (fits_nil kind) noDots_nil, fun _ ↦ rfl⟩
      simp [path]
    · rename_i not_single
      split
      · rename_i drive
        simp only [Bool.and_eq_true, decide_eq_true_eq] at drive
        obtain ⟨⟨rfl, top⟩, drive⟩ := drive
        obtain ⟨c, mark, rfl, letter, -⟩ := exists_of_isDriveLetter drive
        have bare : Sound .file ([] ++ [[c, ':']]) := by
          refine ⟨?_, .inr ⟨rfl, c, [], rfl, letter⟩⟩
          intro s mem
          exact List.mem_singleton.mp mem ▸ fits_drive fits
        obtain ⟨dirs, last, eq, sound⟩ := added bare
        refine ⟨dirs, last, ?_, sound⟩
        rw [top, ← eq]
        simp
      · split
        · rename_i drive
          simp only [Bool.and_eq_true, decide_eq_true_eq] at drive
          obtain ⟨⟨rfl, top⟩, drive⟩ := drive
          obtain ⟨c, taken, letter⟩ := exists_of_isNormalDriveLetter drive
          have whole : encoded = c :: ':' :: encoded.drop 2 := by
            rw [← List.take_append_drop 2 encoded, taken]
            simp
          have front : Fits .file [c, ':'] := fits_drive (whole ▸ fits)
          have back := fits.of_subset (List.drop_subset 2 encoded)
          obtain ⟨dirs, last, eq, sound⟩ := added (.of_drive front back letter)
          refine ⟨dirs, last, ?_, sound⟩
          rw [top, taken, ← eq]
          simp
        · have noDots : NoDots encoded := ⟨by simpa using not_single, by simpa using not_double⟩
          obtain ⟨dirs, last, eq, sound⟩ := added (sound.concat fits noDots)
          refine ⟨dirs, last, ?_, sound⟩
          rw [path, ← eq]

theorem exists_of_addAll (sound : Sound kind dirs) (path : p.path = '/' :: within dirs)
    (segments : List (List Char)) (no_slash : ∀ s ∈ segments, '/' ∉ s)
    (no_backslash : kind.isSpecial → ∀ s ∈ segments, '\\' ∉ s) :
    ∃ dirs last, (p.addAll kind segments).path = '/' :: (within dirs ++ last) ∧
      Sound kind (dirs ++ [last]) := by
  induction segments generalizing p dirs with
  | nil =>
    refine ⟨dirs, [], ?_, sound.concat (fits_nil kind) noDots_nil⟩
    rw [Progress.addAll, path, List.append_nil]
  | cons segment segments ih =>
    obtain ⟨first, others⟩ := List.forall_mem_cons.mp no_slash
    have first' (special : kind.isSpecial) := (List.forall_mem_cons.mp (no_backslash special)).1
    have others' (special : kind.isSpecial) := (List.forall_mem_cons.mp (no_backslash special)).2
    cases segments with
    | nil =>
      obtain ⟨dirs, last, added, sound, -⟩ := exists_of_add sound path first first' false
      exact ⟨dirs, last, added, sound⟩
    | cons next segments =>
      obtain ⟨dirs, last, added, sound, closed⟩ := exists_of_add sound path first first' true
      cases closed rfl
      rw [List.append_nil] at added
      exact ih sound.of_concat_nil added others others'

/-- Slashes at the front are dropped with the empty directories that they end. -/
theorem dropWhile_within (plain : '/' ∉ last) (dirs_plain : ∀ d ∈ dirs, '/' ∉ d) :
    (within dirs ++ last).dropWhile (· = '/') = within (dirs.dropWhile (· = [])) ++ last := by
  induction dirs with
  | nil =>
    cases last with
    | nil => rfl
    | cons c last =>
      rw [List.mem_cons, not_or] at plain
      simp [Ne.symm plain.1]
  | cons d dirs ih =>
    obtain ⟨first, others⟩ := List.forall_mem_cons.mp dirs_plain
    cases d with
    | nil => simpa using ih others
    | cons c d =>
      rw [List.mem_cons, not_or] at first
      simp [Ne.symm first.1]

theorem Sound.dropWhile (sound : Sound kind (dirs ++ [last])) :
    Sound kind (dirs.dropWhile (· = []) ++ [last]) := by
  have sub : dirs.dropWhile (· = []) ++ [last] ⊆ dirs ++ [last] := by
    intro s mem
    rcases List.mem_append.mp mem with mem | mem
    · exact List.mem_append_left _ ((List.dropWhile_suffix _).subset mem)
    · exact List.mem_append_right _ mem
  constructor
  · exact fun s mem ↦ sound.fits s (sub mem)
  · rcases sound.noDots with plain | ⟨file, c, more, eq, letter⟩
    · exact .inl fun s mem ↦ plain s (sub mem)
    · refine .inr ⟨file, c, more, ?_, letter⟩
      rcases List.append_eq_cons_iff.mp eq with ⟨rfl, last⟩ | ⟨more', rfl, rest⟩
      · exact eq
      · exact eq

theorem not_mem_of_mem_segments {s : List Char} (mem : segment ∈ segments kind s) :
    '/' ∉ segment ∧ (kind.isSpecial → '\\' ∉ segment) := by
  constructor
  · intro slash
    simpa using (Text.of_mem_splitOnP mem slash).2
  · intro special backslash
    simpa [special] using (Text.of_mem_splitOnP mem backslash).2

theorem segments_eq_splitOn {s : List Char} (no_backslash : kind.isSpecial → '\\' ∉ s) :
    segments kind s = s.splitOn '/' := by
  rw [segments, List.splitOn_eq_splitOnP]
  refine Text.splitOnP_congr fun c mem ↦ ?_
  by_cases special : kind.isSpecial
  · have other : c ≠ '\\' := fun eq ↦ no_backslash special (eq ▸ mem)
    simp [other, beq_eq_decide]
  · simp [special, beq_eq_decide]

/-- What is read begins with a slash, and has segments as they should be. -/
theorem exists_of_read (kind : SchemeKind) (s : List Char) :
    ∃ dirs last, (read kind ['/'] s).path = '/' :: (within dirs ++ last) ∧
      Sound kind (dirs ++ [last]) ∧ (kind = .file → dirs.head? ≠ some []) := by
  obtain ⟨dirs, last, added, sound⟩ := exists_of_addAll (p := ⟨['/'], false⟩) (sound_nil kind) rfl
    (segments kind s) (fun _ mem ↦ (not_mem_of_mem_segments mem).1)
    fun special _ mem ↦ (not_mem_of_mem_segments mem).2 special
  by_cases file : kind = .file
  · have plain := sound.no_slash
    have last_plain : '/' ∉ last := plain last (by simp)
    refine ⟨dirs.dropWhile (· = []), last, ?_, sound.dropWhile, fun _ first ↦ ?_⟩
    · simp only [read, if_pos file]
      rw [added, List.dropWhile_cons_of_pos (by simp)]
      refine congrArg _ (dropWhile_within last_plain fun d mem ↦ ?_)
      exact plain d (List.mem_append_left _ mem)
    · have := List.head?_dropWhile_not (· = []) dirs
      rw [first] at this
      simp at this
  · refine ⟨dirs, last, ?_, sound, fun h ↦ absurd h file⟩
    simp only [read, if_neg file]
    exact added

/-! ## Reading again -/

/-- The text does not begin with a drive letter. -/
def Driveless (text : List Char) : Prop := isDriveLetter (text.take 2) = false

instance (text : List Char) : Decidable (Driveless text) :=
  inferInstanceAs (Decidable (isDriveLetter (text.take 2) = false))

theorem Driveless.not_normal (h : Driveless segment) :
    isDriveLetter segment = false ∧ isNormalDriveLetter (segment.take 2) = false := by
  constructor
  · by_contra drive
    rw [Bool.not_eq_false] at drive
    obtain ⟨c, mark, rfl, -⟩ := exists_of_isDriveLetter drive
    exact Bool.eq_false_iff.mp h drive
  · by_contra drive
    rw [Bool.not_eq_false] at drive
    obtain ⟨c, taken, letter⟩ := exists_of_isNormalDriveLetter drive
    refine Bool.eq_false_iff.mp h ?_
    rw [taken]
    simp [isDriveLetter, letter]

theorem Driveless.of_prefix (h : Driveless (segment ++ rest)) : Driveless segment := by
  by_contra drive
  rw [Driveless, Bool.not_eq_false] at drive
  obtain ⟨c, mark, taken, -⟩ := exists_of_isDriveLetter drive
  have long : 2 ≤ segment.length := by
    have lengths := congrArg List.length taken
    simp only [List.length_take, List.length_cons, List.length_nil] at lengths
    omega
  rw [Driveless, List.take_append_of_le_length long, drive] at h
  cases h

theorem add_plain (kept : ∀ c ∈ segment, Percent.path c = false) (noDots : NoDots segment)
    (plain : kind = .file → p.path = ['/'] → Driveless segment) (closed : Bool) :
    p.add kind segment closed = ⟨p.path ++ segment ++ (if closed then ['/'] else []), p.drive⟩ := by
  have same : Percent.encode Percent.path segment = segment := Percent.encode_of_not_set kept
  rw [Progress.add, same]
  simp only [noDots.1, noDots.2, Bool.false_eq_true, if_false]
  by_cases top : kind = .file ∧ p.path = ['/']
  · obtain ⟨drive, normal⟩ := (plain top.1 top.2).not_normal
    simp [drive, normal]
  · have off (drive : Bool) :
        (decide (kind = .file) && decide (p.path = ['/']) && drive) = false := by
      by_cases file : kind = .file
      · have other : p.path ≠ ['/'] := fun path ↦ top ⟨file, path⟩
        simp [other]
      · simp [file]
    simp only [off, Bool.false_eq_true, if_false]

theorem addAll_plain {segments : List (List Char)} (full : segments ≠ []) (path : p.path ≠ [])
    (kept : ∀ s ∈ segments, ∀ c ∈ s, Percent.path c = false) (noDots : ∀ s ∈ segments, NoDots s)
    (plain : kind = .file → p.path = ['/'] → ∀ s ∈ segments.head?, Driveless s) :
    p.addAll kind segments = ⟨p.path ++ ['/'].intercalate segments, p.drive⟩ := by
  induction segments generalizing p with
  | nil => contradiction
  | cons segment segments ih =>
    obtain ⟨first, others⟩ := List.forall_mem_cons.mp kept
    obtain ⟨first', others'⟩ := List.forall_mem_cons.mp noDots
    have added (closed : Bool) := add_plain first first'
      (fun file top ↦ plain file top segment rfl) closed
    cases segments with
    | nil =>
      rw [Progress.addAll, added]
      simp
    | cons next segments =>
      -- behind the first segment the path is longer than a slash
      have longer : p.path ++ segment ++ ['/'] ≠ ['/'] := by
        intro eq
        have lengths := congrArg List.length eq
        have := List.length_pos_iff.mpr path
        simp only [List.length_append, List.length_cons, List.length_nil] at lengths
        omega
      have step : p.addAll kind (segment :: next :: segments) =
          (p.add kind segment true).addAll kind (next :: segments) := rfl
      rw [step, added, if_pos rfl, ih (by simp) (by simp) others others'
        fun _ top ↦ absurd top longer]
      simp [List.intercalate_cons_cons]

theorem head_splitOn_prefix {text : List Char} (first : segment ∈ (text.splitOn '/').head?) :
    ∃ rest, text = segment ++ rest := by
  obtain ⟨dirs, last, rfl, split⟩ := exists_within text
  rw [split] at first
  cases dirs with
  | nil => exact ⟨[], by simpa using first⟩
  | cons d dirs =>
    cases Option.some.inj first
    exact ⟨'/' :: within dirs ++ last, by simp⟩

theorem read_plain (kept : ∀ c ∈ rest, Percent.path c = false)
    (noDots : ∀ s ∈ rest.splitOn '/', NoDots s) (no_backslash : kind.isSpecial → '\\' ∉ rest)
    (plain : kind = .file → Driveless rest ∧ rest.head? ≠ some '/') :
    read kind ['/'] rest = ⟨'/' :: rest, false⟩ := by
  have whole : ['/'].intercalate (rest.splitOn '/') = rest := List.intercalate_splitOn '/'
  have parts (s : List Char) (part : s ∈ rest.splitOn '/') (c : Char) (mem : c ∈ s) :
      Percent.path c = false := kept c (Text.of_mem_splitOn part mem).1
  have driveless (file : kind = .file) (s : List Char) (first : s ∈ (rest.splitOn '/').head?) :
      Driveless s := by
    obtain ⟨behind, eq⟩ := head_splitOn_prefix first
    exact Driveless.of_prefix (eq ▸ (plain file).1)
  have added : Progress.addAll kind ⟨['/'], false⟩ (rest.splitOn '/') = ⟨'/' :: rest, false⟩ := by
    rw [addAll_plain (List.splitOn_ne_nil '/' rest) (by simp) parts noDots
      fun file _ ↦ driveless file, whole]
    rfl
  rw [read, segments_eq_splitOn no_backslash, added]
  dsimp only
  split
  · rename_i file
    have first := (plain file).2
    rw [List.dropWhile_cons_of_pos (by simp)]
    cases rest with
    | nil => rfl
    | cons c rest =>
      have other : c ≠ '/' := by simpa using first
      rw [List.dropWhile_cons_of_neg (by simpa using other)]
  · rfl

/-! ## Behind a host -/

/-- What stands behind the first slash of a path that was read. -/
structure Settled (kind : SchemeKind) (rest : List Char) : Prop where
  kept : ∀ c ∈ rest, Percent.path c = false
  no_backslash : kind.isSpecial → '\\' ∉ rest
  one_slash : kind = .file → rest.head? ≠ some '/'
  noDots : (∀ s ∈ rest.splitOn '/', NoDots s) ∨ kind = .file ∧ ¬Driveless rest

theorem exists_settled_of_read (kind : SchemeKind) (s : List Char) :
    ∃ rest, (read kind ['/'] s).path = '/' :: rest ∧ Settled kind rest := by
  obtain ⟨dirs, last, path, sound, first⟩ := exists_of_read kind s
  have plain := sound.no_slash
  have last_plain : '/' ∉ last := plain last (by simp)
  have dirs_plain : ∀ d ∈ dirs, '/' ∉ d := fun d mem ↦ plain d (List.mem_append_left _ mem)
  have split := splitOn_within dirs_plain last_plain
  have part {c : Char} (mem : c ∈ within dirs ++ last) : c = '/' ∨ ∃ s ∈ dirs ++ [last], c ∈ s := by
    rw [← intercalate_within] at mem
    exact (Text.mem_of_mem_intercalate mem).imp_left List.mem_singleton.mp
  refine ⟨_, path, ?_, ?_, ?_, ?_⟩
  · intro c mem
    rcases part mem with rfl | ⟨s, s_mem, mem⟩
    · simp [Percent.path, Percent.fragment, Percent.controls]
    · exact (sound.fits s s_mem).kept c mem
  · intro special mem
    rcases part mem with slash | ⟨s, s_mem, mem⟩
    · cases slash
    · exact (sound.fits s s_mem).no_backslash special mem
  · intro file slash
    cases dirs with
    | nil => exact last_plain (List.mem_of_head? slash)
    | cons d dirs =>
      cases d with
      | nil => exact first file rfl
      | cons c d =>
        cases Option.some.inj slash
        exact dirs_plain _ List.mem_cons_self List.mem_cons_self
  · rw [split]
    rcases sound.noDots with plain | ⟨file, c, more, eq, letter⟩
    · exact .inl plain
    refine .inr ⟨file, fun driveless ↦ ?_⟩
    have taken : (within dirs ++ last).take 2 = [c, ':'] := by
      cases dirs with
      | nil =>
        cases (List.cons.inj eq).1
        rfl
      | cons d dirs =>
        cases (List.cons.inj eq).1
        rfl
    rw [Driveless, taken] at driveless
    simp [isDriveLetter, letter] at driveless

/-- The path of a URL that is no opaque one: slashes begin it, or it is empty. -/
inductive Rooted (kind : SchemeKind) : List Char → Prop where
  | empty (other : kind = .other) : Rooted kind []
  | slash {rest : List Char} (settled : Settled kind rest) : Rooted kind ('/' :: rest)

theorem rooted_of_read (kind : SchemeKind) (s : List Char) :
    Rooted kind (read kind ['/'] s).path := by
  obtain ⟨rest, path, settled⟩ := exists_settled_of_read kind s
  rw [path]
  exact .slash settled

/-- A slash at the front, or one that counts as such, is read first. -/
theorem read_slash {c : Char} (slash : c = '/' ∨ kind.isSpecial ∧ c = '\\') (s : List Char) :
    read kind [] (c :: s) = read kind ['/'] s := by
  have parts : segments kind (c :: s) = [] :: segments kind s := by
    rw [segments, List.splitOnP_cons_eq_if_modifyHead, if_pos (by simpa using slash)]
    rfl
  have first : Progress.addAll kind ⟨[], false⟩ ([] :: segments kind s) =
      Progress.addAll kind ⟨['/'], false⟩ (segments kind s) := by
    obtain ⟨next, others, split⟩ := List.exists_cons_of_ne_nil (List.splitOnP_ne_nil
      (fun c ↦ c = '/' || (kind.isSpecial && c = '\\')) s)
    rw [segments, split]
    have added : Progress.add kind ⟨[], false⟩ [] true = ⟨['/'], false⟩ := by
      cases kind <;> rfl
    exact congrArg (Progress.addAll kind · (next :: others)) added
  rw [read, read, parts, first]

theorem rooted_of_readBehindHost (kind : SchemeKind) (s : List Char) :
    Rooted kind (readBehindHost kind s).path := by
  cases s with
  | nil =>
    cases kind with
    | other => exact .empty rfl
    | special => exact rooted_of_read .special []
    | file => exact rooted_of_read .file []
  | cons c s =>
    cases kind with
    | other =>
      rw [readBehindHost]
      split
      · rename_i slash
        rw [read_slash (.inl slash)]
        exact rooted_of_read .other s
      · exact rooted_of_read .other _
    | special | file =>
      rw [readBehindHost]
      · split <;> exact rooted_of_read _ _
      · simp

/-- A path is kept behind a host of another scheme. -/
theorem readBehindHost_plain (kept : ∀ c ∈ rest, Percent.path c = false)
    (noDots : ∀ s ∈ rest.splitOn '/', NoDots s) (no_backslash : kind.isSpecial → '\\' ∉ rest)
    (plain : kind = .file → Driveless rest ∧ rest.head? ≠ some '/') :
    (readBehindHost kind ('/' :: rest)).path = '/' :: rest := by
  have same := congrArg Progress.path (read_plain kept noDots no_backslash plain)
  cases kind with
  | other =>
    rw [readBehindHost, if_pos rfl, read_slash (.inl rfl)]
    exact same
  | special | file =>
    rw [readBehindHost, if_pos (.inl rfl)]
    · exact same
    · simp

/-- A path that can stand behind a host of this kind as it is. -/
structure Fitting (kind : SchemeKind) (path : List Char) : Prop where
  noDots : ∀ s ∈ path.splitOn '/', NoDots s
  full : kind.isSpecial → path ≠ []
  no_backslash : kind.isSpecial → '\\' ∉ path
  one_slash : kind = .file → path.tail.head? ≠ some '/'

theorem noDots_slash_iff :
    (∀ s ∈ ('/' :: rest).splitOn '/', NoDots s) ↔ ∀ s ∈ rest.splitOn '/', NoDots s := by
  rw [List.splitOn_cons_eq_if_modifyHead, if_pos (by simp), List.forall_mem_cons]
  exact and_iff_right noDots_nil

theorem Settled.fitting (h : Settled kind rest) (driveless : kind = .file → Driveless rest) :
    Fitting kind ('/' :: rest) where
  noDots := noDots_slash_iff.mpr (h.noDots.resolve_right fun ⟨file, drive⟩ ↦ drive (driveless file))
  full _ := List.cons_ne_nil _ _
  no_backslash special mem := by
    rcases List.mem_cons.mp mem with slash | mem
    · cases slash
    · exact h.no_backslash special mem
  one_slash := h.one_slash

variable {source : SchemeKind} {path : List Char}

theorem Rooted.fitting (h : Rooted kind path) (driveless : kind = .file → Driveless path.tail) :
    Fitting kind path := by
  cases h with
  | empty other =>
    subst other
    exact ⟨by simpa using noDots_nil, nofun, nofun, nofun⟩
  | slash settled => exact settled.fitting driveless

theorem Rooted.kept (h : Rooted kind path) : ∀ c ∈ path, Percent.path c = false := by
  cases h with
  | empty => simp
  | slash settled =>
    intro c mem
    rcases List.mem_cons.mp mem with rfl | mem
    · simp [Percent.path, Percent.fragment, Percent.controls]
    · exact settled.kept c mem

theorem Rooted.eq_nil_or_head? (h : Rooted kind path) :
    path = [] ∧ kind = .other ∨ path.head? = some '/' := by
  cases h with
  | empty other => exact .inl ⟨rfl, other⟩
  | slash => exact .inr rfl

/-- The path of a file is read again without a drive letter. -/
theorem Rooted.read_file (h : Rooted .file path) (driveless : Driveless path.tail) :
    read .file [] path = ⟨path, false⟩ := by
  cases h with
  | empty other => cases other
  | slash settled =>
    have noDots := settled.noDots.resolve_right fun ⟨_, drive⟩ ↦ drive driveless
    rw [read_slash (.inl rfl)]
    exact read_plain settled.kept noDots settled.no_backslash fun file ↦
      ⟨driveless, settled.one_slash file⟩

/-- A path that was read under one scheme is kept under another exactly when it fits there. -/
theorem readBehindHost_eq_self_iff (rooted : Rooted source path)
    (driveless : kind = .file → Driveless path.tail) :
    (readBehindHost kind path).path = path ↔ Fitting kind path := by
  constructor
  · intro same
    have again := rooted_of_readBehindHost kind path
    rw [same] at again
    exact again.fitting driveless
  · intro fits
    cases rooted with
    | empty =>
      cases kind with
      | other => rfl
      | special | file => exact absurd rfl (fits.full rfl)
    | @slash rest settled =>
      refine readBehindHost_plain settled.kept (noDots_slash_iff.mp fits.noDots)
        (fun special mem ↦ fits.no_backslash special (List.mem_cons_of_mem _ mem)) fun file ↦ ?_
      exact ⟨driveless file, fits.one_slash file⟩

end ScriptCache.UrlPath
