import ScriptCache.Proofs.Url.Host

/-!
# Authorities are read back

An authority that was read, with a host, is read again from its text.
-/

namespace ScriptCache.Url

variable {scheme : String} {kind : SchemeKind} {s rest : List Char} {a : Authority} {host : Host}

/-- An authority with a host, as it is when it was read. -/
structure Seated (scheme : String) (kind : SchemeKind) (a : Authority) (host : Host) : Prop where
  seat : a.host = some host
  again : readHost kind host.text.toList = some (some host)
  text : IsHostText host.text.toList
  username : ∀ c ∈ a.username.toList, Percent.userinfo c = false
  password : ∀ p, a.password = some p → p ≠ "" ∧ ∀ c ∈ p.toList, Percent.userinfo c = false
  port : ∀ n, a.port = some n → n ≤ 65535 ∧ defaultPort? scheme ≠ some n

theorem exists_of_readPort {port : Option Nat} (h : readPort scheme s = some port) :
    ∀ n, port = some n → n ≤ 65535 ∧ defaultPort? scheme ≠ some n := by
  rw [readPort] at h
  dsimp only at h
  split at h
  · split at h
    · cases h
    · rename_i small
      split at h
      · cases h
        nofun
      · rename_i other
        cases h
        rintro n ⟨rfl⟩
        exact ⟨Nat.not_lt.mp small, (not_or.mp other).2⟩
  · cases h

variable {user hostText portText : List Char}

theorem authority?_eq (scheme : String) (kind : SchemeKind) (user hostText portText : List Char) :
    authority? scheme kind user hostText portText =
      (if portText.isEmpty then some none else readPort scheme portText.tail).bind fun number ↦
        (readHost kind hostText).bind fun host ↦
          joinAuthority? (readUser user) host number !portText.isEmpty := by
  rw [authority?]
  split <;> rfl

theorem seated_of_authority?
    (h : authority? scheme kind user hostText portText = some a) (some_host : a.host = some host) :
    Seated scheme kind a host := by
  simp only [authority?_eq, Option.bind_eq_some_iff] at h
  obtain ⟨number, port, found, read, joined⟩ := h
  rw [joinAuthority?] at joined
  split at joined
  · cases joined
  · cases joined
    cases some_host
    obtain ⟨again, text⟩ := readHost_text read
    refine ⟨rfl, again, text, ?_, ?_, ?_⟩
    · intro c mem
      rw [readUser, toList_encodeText] at mem
      exact Percent.not_set_of_mem_encode Percent.spares_userinfo mem
    · intro p password
      rw [readUser] at password
      dsimp only at password
      split at password
      · cases password
      · rename_i full
        cases password
        rw [toList_encodeText]
        refine ⟨fun none ↦ ?_, fun c ↦ Percent.not_set_of_mem_encode Percent.spares_userinfo⟩
        have written := Percent.encode_ne_nil Percent.userinfo (mt List.isEmpty_iff.mpr full)
        rw [← toList_encodeText, none] at written
        exact written rfl
    · split at port
      · cases port
        nofun
      · exact exists_of_readPort port

/-! ## The parts of the text -/

/-- The user name and the password, as they are written in front of the `@`. -/
def userChars (a : Authority) : List Char :=
  a.username.toList ++ a.password.elim [] (':' :: ·.toList)

def portChars (a : Authority) : List Char := a.port.elim [] fun n ↦ ':' :: (toString n).toList

theorem toList_text (some_host : a.host = some host) :
    a.text.toList = (if userChars a = [] then [] else userChars a ++ ['@']) ++
      (host.text.toList ++ portChars a) := by
  have user : a.userText.toList = if userChars a = [] then [] else userChars a ++ ['@'] := by
    rw [Authority.userText, userChars]
    cases a.password with
    | none =>
      by_cases empty : a.username = ""
      · simp [empty]
      · simp [empty]
    | some password => simp
  have port : (a.port.elim "" fun n ↦ ":" ++ toString n).toList = portChars a := by
    rw [portChars]
    cases a.port <;> simp
  rw [Authority.text, some_host, String.toList_append, String.toList_append, user, port,
    List.append_assoc]
  rfl

theorem isHostChar_of_userinfo {c : Char} (out : Percent.userinfo c = false) : IsHostChar c := by
  have path := Percent.path_of_userinfo out
  have controls := Percent.controls_of_fragment (Percent.fragment_of_path path)
  refine ⟨Percent.visible_of_controls controls (Percent.ne_of_path path).1, fun mem ↦ ?_⟩
  have encoded : ∀ d ∈ ['/', '\\', '?', '#', '@', '|'], Percent.userinfo d := by
    simp [Percent.userinfo, Percent.path]
  exact Bool.eq_false_iff.mp out (encoded c mem)

theorem isHostChar_of_portChars {c : Char} (mem : c ∈ portChars a) : IsHostChar c := by
  rw [portChars] at mem
  cases known : a.port with
  | none => simp [known] at mem
  | some n =>
    rw [known, Option.elim_some, List.mem_cons, Text.toList_toString] at mem
    rcases mem with rfl | mem
    · decide
    · have digit : ∀ k < 10, IsHostChar k.digitChar := by decide
      obtain ⟨k, small, rfl⟩ := Text.exists_digit_of_mem_toDigits (by decide) mem
      exact digit k small

namespace Seated

theorem readUser_userChars (h : Seated scheme kind a host) :
    readUser (userChars a) = (a.username, a.password) := by
  have no_colon : ∀ c ∈ a.username.toList, decide (c ≠ ':') = true := fun c mem ↦
    decide_eq_true (Percent.ne_of_userinfo (h.username c mem)).2.2.2
  have ends : ∀ c ∈ (a.password.elim [] (':' :: ·.toList)).head?, decide (c ≠ ':') = false := by
    cases a.password <;> simp
  obtain ⟨name, password⟩ := Text.takeWhile_run no_colon ends
  rw [readUser, List.span_eq_takeWhile_dropWhile, userChars, name, password]
  dsimp only
  rw [encodeText_of_not_set h.username]
  cases known : a.password with
  | none => rfl
  | some p =>
    obtain ⟨full, out⟩ := h.password p known
    have full : p.toList.isEmpty = false := by simpa using full
    simp [full, encodeText_of_not_set out]

theorem readPort_portChars (h : Seated scheme kind a host) :
    (if (portChars a).isEmpty then some none else readPort scheme (portChars a).tail) =
      some a.port := by
  rw [portChars]
  cases known : a.port with
  | none => rfl
  | some n =>
    obtain ⟨small, other⟩ := h.port n known
    obtain ⟨digits, behind⟩ := Text.takeWhile_whole (p := Text.isDigit)
      fun c ↦ Text.isDigit_of_mem_toString (n := n)
    have full : (toString n).toList.isEmpty = false := by simp
    simp only [Option.elim_some, List.isEmpty_cons, Bool.false_eq_true, if_false, List.tail_cons]
    rw [readPort, digits, behind]
    simp only [Text.decimal_toString, full, Bool.false_eq_true, false_or]
    rw [if_neg (by omega), if_neg other]

theorem authority?_eq (h : Seated scheme kind a host) :
    authority? scheme kind (userChars a) host.text.toList (portChars a) = some a := by
  rw [Url.authority?_eq, h.readPort_portChars, Option.bind_some, h.again, Option.bind_some,
    h.readUser_userChars, joinAuthority?, if_neg (by simp), ← h.seat]

theorem isHostChar_of_userChars (h : Seated scheme kind a host) :
    ∀ c ∈ userChars a, IsHostChar c := by
  intro c mem
  rcases List.mem_append.mp mem with mem | mem
  · exact isHostChar_of_userinfo (h.username c mem)
  · cases known : a.password with
    | none => simp [known] at mem
    | some p =>
      rw [known, Option.elim_some, List.mem_cons] at mem
      rcases mem with rfl | mem
      · decide
      · exact isHostChar_of_userinfo ((h.password p known).2 c mem)

theorem isHostChar_of_hostPort (h : Seated scheme kind a host) :
    ∀ c ∈ host.text.toList ++ portChars a, IsHostChar c := by
  intro c mem
  rcases List.mem_append.mp mem with mem | mem
  · exact h.text.chars c mem
  · exact isHostChar_of_portChars mem

/-- What stands before the last `@`, and behind it. -/
theorem splitUser_text (h : Seated scheme kind a host) :
    (splitUser a.text.toList).getD ([], a.text.toList) =
      (userChars a, host.text.toList ++ portChars a) := by
  -- the last `@` is the one behind the user, since no host or port has one
  have plain : ∀ c ∈ (host.text.toList ++ portChars a).reverse, decide (c ≠ '@') = true := by
    intro c mem
    refine decide_eq_true ?_
    rintro rfl
    exact absurd (h.isHostChar_of_hostPort _ (List.mem_reverse.mp mem)) (by decide)
  rw [toList_text h.seat, splitUser, List.span_eq_takeWhile_dropWhile]
  by_cases none : userChars a = []
  · obtain ⟨-, user⟩ := Text.takeWhile_whole plain
    rw [if_pos none, List.nil_append, user, none]
    rfl
  · have ends : ∀ c ∈ ('@' :: (userChars a).reverse).head?, decide (c ≠ '@') = false := by simp
    obtain ⟨hostPort, user⟩ := Text.takeWhile_run plain ends
    have turned : (userChars a ++ ['@'] ++ (host.text.toList ++ portChars a)).reverse =
        (host.text.toList ++ portChars a).reverse ++ '@' :: (userChars a).reverse := by simp
    rw [if_neg none, turned, hostPort, user]
    simp

theorem splitHost_text (h : Seated scheme kind a host) :
    splitHost false (host.text.toList ++ portChars a) = (host.text.toList, portChars a) := by
  refine h.text.whole _ ?_
  rw [portChars]
  cases a.port <;> simp

theorem text_chars (h : Seated scheme kind a host) :
    ∀ c ∈ a.text.toList, 0x20 < c.toNat ∧ c ∉ ['/', '\\', '?', '#'] := by
  have weaken {c : Char} (char : IsHostChar c) : 0x20 < c.toNat ∧ c ∉ ['/', '\\', '?', '#'] :=
    ⟨char.visible, char.no_mark⟩
  intro c mem
  rw [toList_text h.seat, List.mem_append] at mem
  rcases mem with mem | mem
  · split at mem
    · cases mem
    · rcases List.mem_append.mp mem with mem | mem
      · exact weaken (h.isHostChar_of_userChars c mem)
      · rw [List.mem_singleton.mp mem]
        decide
  · exact weaken (h.isHostChar_of_hostPort c mem)

theorem readAuthority_text (h : Seated scheme kind a host)
    (ends : ∀ c ∈ rest.head?, endsAuthority kind c) :
    readAuthority scheme kind (a.text.toList ++ rest) =
      some ⟨scheme, some a,
        String.ofList (UrlPath.readBehindHost kind (splitTail rest).1).path,
        (readTail kind (splitTail rest).2).1, (readTail kind (splitTail rest).2).2⟩ := by
  have inside : ∀ c ∈ a.text.toList, !endsAuthority kind c := by
    intro c mem
    rw [endsAuthority_eq_false kind (h.text_chars c mem).2]
    rfl
  have ended : ∀ c ∈ rest.head?, (!endsAuthority kind c) = false := by simpa using ends
  obtain ⟨front, behind⟩ := Text.takeWhile_run inside ended
  have full : ¬(host.text.toList ++ portChars a).isEmpty := by simp [h.text.full]
  have no_backslash : ∀ c ∈ portChars a, decide (c ≠ '\\') = true := by
    intro c mem
    refine decide_eq_true ?_
    rintro rfl
    exact absurd (isHostChar_of_portChars mem) (by decide)
  obtain ⟨port, behindPort⟩ := Text.takeWhile_whole no_backslash
  rw [readAuthority]
  simp only [List.span_eq_takeWhile_dropWhile, front, behind, h.splitUser_text, h.splitHost_text,
    port, behindPort, List.nil_append]
  rw [if_neg fun empty ↦ full empty.2.2.1, h.authority?_eq]
  rfl

end Seated

end ScriptCache.Url
