import ScriptCache.Proofs.Url.Address
import ScriptCache.Proofs.Url.Domain
import ScriptCache.Proofs.Url.Parts

/-!
# Hosts are read back

The text of a host that was read is read as this host, and has none of the characters that end a
host or the authority around it.
-/

namespace ScriptCache.Url

variable {s rest : List Char} {host : Host} {c : Char}

/-- The characters that may stand in the text of a host. Colons stand in brackets. -/
structure IsHostChar (c : Char) : Prop where
  visible : 0x20 < c.toNat
  no_end : c ∉ ['/', '\\', '?', '#', '@', '|']

/-- The characters outside of brackets. -/
structure IsNameChar (c : Char) : Prop extends IsHostChar c where
  no_colon : c ≠ ':'
  no_bracket : c ≠ '['

theorem IsNameChar.of_notMem (visible : 0x20 < c.toNat)
    (other : c ∉ ['/', '\\', '?', '#', '@', '|', ':', '[']) : IsNameChar c := by
  refine ⟨⟨visible, fun mem ↦ other (List.mem_append_left [':', '['] mem)⟩, ?_, ?_⟩
  · rintro rfl
    simp at other
  · rintro rfl
    simp at other

/-- The text of a host, up to which a host is read. -/
structure IsHostText (s : List Char) : Prop where
  full : s ≠ []
  chars : ∀ c ∈ s, IsHostChar c
  whole : ∀ rest, (∀ c ∈ rest.head?, c = ':') → splitHost false (s ++ rest) = (s, rest)

theorem splitHost_name (chars : ∀ c ∈ s, IsNameChar c) (ends : ∀ c ∈ rest.head?, c = ':') :
    splitHost false (s ++ rest) = (s, rest) := by
  induction s with
  | nil =>
    cases rest with
    | nil => rfl
    | cons c rest =>
      cases ends c rfl
      rfl
  | cons c s ih =>
    obtain ⟨first, chars⟩ := List.forall_mem_cons.mp chars
    have outside : (c = '[' || (false && c ≠ ']') : Bool) = false := by simp [first.no_bracket]
    rw [List.cons_append, splitHost, if_neg fun colon ↦ first.no_colon colon.1, outside, ih chars]

theorem splitHost_bracketed (plain : ']' ∉ s) (rest : List Char) :
    splitHost true (s ++ ']' :: rest) =
      (s ++ ']' :: (splitHost false rest).1, (splitHost false rest).2) := by
  induction s with
  | nil => rfl
  | cons c s ih =>
    rw [List.mem_cons, not_or] at plain
    have inside : (c = '[' || (true && c ≠ ']') : Bool) = true := by simp [Ne.symm plain.1]
    rw [List.cons_append, splitHost, if_neg (by simp), inside, ih plain.2]
    rfl

theorem isHostText_of_name (full : s ≠ []) (chars : ∀ c ∈ s, IsNameChar c) : IsHostText s :=
  ⟨full, fun c mem ↦ (chars c mem).toIsHostChar, fun _ ↦ splitHost_name chars⟩

theorem bracketed?_name (chars : ∀ c ∈ s, IsNameChar c) : bracketed? s = none := by
  rw [bracketed?.eq_def]
  split
  · exact absurd rfl (chars _ List.mem_cons_self).no_bracket
  · rfl

theorem endsAuthority_eq_false (kind : SchemeKind) (other : c ∉ ['/', '\\', '?', '#']) :
    endsAuthority kind c = false := by
  simp only [List.mem_cons, List.not_mem_nil, or_false, not_or] at other
  simp [endsAuthority, other]

theorem IsHostChar.no_mark (h : IsHostChar c) : c ∉ ['/', '\\', '?', '#'] :=
  fun mem ↦ h.no_end (List.mem_append_left ['@', '|'] mem)

instance (c : Char) : Decidable (IsHostChar c) :=
  decidable_of_iff (0x20 < c.toNat ∧ c ∉ ['/', '\\', '?', '#', '@', '|'])
    ⟨fun ⟨visible, no_end⟩ ↦ ⟨visible, no_end⟩, fun ⟨visible, no_end⟩ ↦ ⟨visible, no_end⟩⟩

/-- No host is taken for a drive letter. -/
theorem IsHostText.no_drive (h : IsHostText s) : ¬UrlPath.isDriveLetter s := by
  intro drive
  obtain ⟨c, mark, rfl, letter, rfl | rfl⟩ := UrlPath.exists_of_isDriveLetter drive
  · have no_colon : c ≠ ':' := by
      rintro rfl
      exact absurd letter (by decide)
    have no_bracket : c ≠ '[' := by
      rintro rfl
      exact absurd letter (by decide)
    have short := h.whole [] nofun
    simp [splitHost, no_colon, no_bracket] at short
  · exact (h.chars '|' (by simp)).no_end (by decide)

/-! ## Numeric hosts -/

theorem readIpv6_text {a : Ipv6} (address : Ipv6.IsAddress a) :
    readIpv6 (a.text ++ [']']) = some (.ipv6 a) := by
  rw [readIpv6, if_pos (List.getLast?_concat ..), List.dropLast_concat, Ipv6.ofText?_text address]
  rfl

theorem exists_address_of_readIpv6 (h : readIpv6 s = some host) :
    ∃ a, host = .ipv6 a ∧ Ipv6.IsAddress a := by
  rw [readIpv6] at h
  split at h
  · simp only [Option.bind_eq_bind, Option.bind_eq_some_iff] at h
    obtain ⟨a, read, h⟩ := h
    cases h
    exact ⟨a, rfl, Ipv6.isAddress_of_ofText? read⟩
  · cases h

theorem toList_text_ipv6 (a : Ipv6) : (Host.ipv6 a).text.toList = '[' :: (a.text ++ [']']) := by
  simp [Host.text]

theorem isHostText_ipv6 (a : Ipv6) : IsHostText (Host.ipv6 a).text.toList := by
  have inner (c : Char) (mem : c ∈ a.text) : IsHostChar c ∧ c ≠ ']' := by
    have digit : ∀ k < 16, IsHostChar k.digitChar ∧ k.digitChar ≠ ']' := by decide
    rcases Ipv6.mem_text mem with rfl | ⟨k, small, rfl⟩
    · decide
    · exact digit k small
  rw [toList_text_ipv6]
  refine ⟨List.cons_ne_nil _ _, ?_, fun rest ends ↦ ?_⟩
  · intro c mem
    rw [List.mem_cons, List.mem_append, List.mem_singleton] at mem
    rcases mem with rfl | mem | rfl
    · decide
    · exact (inner c mem).1
    · decide
  · have plain : ']' ∉ a.text := fun mem ↦ (inner _ mem).2 rfl
    have behind : splitHost false rest = ([], rest) := splitHost_name (s := []) (by simp) ends
    rw [List.cons_append, List.append_assoc, List.singleton_append, splitHost, if_neg (by simp)]
    simp only [decide_true, Bool.true_or, splitHost_bracketed plain, behind]

/-- The text of an address of 32 bits is its ASCII form. -/
theorem spelled_ipv4 (a : Ipv4) :
    Domain.Spelled (a.bytes.map fun b ↦ ⟨(toString b).toList, (toString b).toList⟩) a.text := by
  have digit {b : Nat} {c : Char} (mem : c ∈ (toString b).toList) : ∃ k < 10, c = k.digitChar := by
    rw [Text.toList_toString] at mem
    exact Text.exists_digit_of_mem_toDigits (by decide) mem
  have plain : ∀ k < 10, k.digitChar.toNat < 0x80 ∧ k.digitChar.toLower = k.digitChar ∧
      k.digitChar ≠ '.' := by decide
  constructor
  · rw [List.map_map]
    rfl
  · intro empty
    have parts := Ipv4.splitOn_text a
    rw [empty] at parts
    exact absurd (congrArg List.length parts) (by simp [Ipv4.bytes])
  · have permitted : ∀ k < 10, Domain.isForbidden k.digitChar = false := by decide
    intro c mem
    rcases Ipv4.mem_text mem with rfl | ⟨k, small, rfl⟩
    · rfl
    · exact permitted k small
  · have level : ∀ k < 10, (Domain.Direction.of k.digitChar).turns = false := by decide
    rw [Domain.directionsFit, Bool.or_eq_true, Bool.not_eq_true']
    left
    simp only [List.any_eq_false, List.mem_map]
    rintro l ⟨b, -, rfl⟩ turns
    obtain ⟨c, mem, turns⟩ := List.any_eq_true.mp turns
    obtain ⟨k, small, rfl⟩ := digit mem
    rw [level k small] at turns
    cases turns
  · intro l mem
    obtain ⟨b, -, rfl⟩ := List.mem_map.mp mem
    have unmarked : ¬Domain.punycodeMark.isPrefixOf (toString b).toList := by
      intro mark
      have mem := (List.isPrefixOf_iff_prefix.mp mark).subset List.mem_cons_self
      exact absurd (Text.isDigit_of_mem_toString mem) (by decide)
    have ascii : Domain.isAscii (toString b).toList := by
      refine Domain.isAscii_iff.mpr fun c mem ↦ ?_
      obtain ⟨k, small, rfl⟩ := digit mem
      exact (plain k small).1
    rw [Domain.Label.of?, if_neg unmarked, if_pos ascii]
  · intro l mem
    obtain ⟨b, -, rfl⟩ := List.mem_map.mp mem
    intro c mem
    obtain ⟨k, small, rfl⟩ := digit mem
    obtain ⟨ascii, lower, no_dot⟩ := plain k small
    exact ⟨ascii, lower, no_dot⟩

/-! ## Names -/

theorem isNameChar_of_isForbidden (out : Domain.isForbidden c = false) : IsNameChar c := by
  have forbidden : ∀ d ∈ ['/', '\\', '?', '#', '@', '|', ':', '['], Domain.isForbidden d := by
    simp [Domain.isForbidden]
  refine .of_notMem ?_ fun mem ↦ Bool.eq_false_iff.mp out (forbidden c mem)
  simp only [Domain.isForbidden, Bool.or_eq_false_iff, decide_eq_false_iff_not] at out
  omega

theorem isNameChar_of_isForbiddenOpaque (out : isForbiddenOpaque c = false)
    (kept : Percent.controls c = false) : IsNameChar c := by
  have forbidden : ∀ d ∈ ['/', '\\', '?', '#', '@', '|', ':', '['], isForbiddenOpaque d := by
    simp [isForbiddenOpaque]
  have no_blank : c ≠ ' ' := by
    rintro rfl
    cases out
  exact .of_notMem (Percent.visible_of_controls kept no_blank) fun mem ↦
    Bool.eq_false_iff.mp out (forbidden c mem)

/-- A name in its ASCII form is read as an address or as itself. -/
theorem readDomainHost_spelled {labels : List Domain.Label} {name : List Char}
    (spelled : Domain.Spelled labels name) :
    IsHostText name ∧ readDomainHost name =
      if Ipv4.isNumeric name then (Ipv4.ofName? name).map .ipv4
      else some (.domain (String.ofList name)) := by
  have chars (c : Char) (mem : c ∈ name) : IsNameChar c :=
    isNameChar_of_isForbidden (spelled.permitted c mem)
  refine ⟨isHostText_of_name spelled.full chars, ?_⟩
  rw [readDomainHost, bracketed?_name chars]
  simp only [spelled.ofBytes?_decode, Option.bind_eq_bind, Option.bind_some]
  split
  · cases Ipv4.ofName? name <;> rfl
  · rfl

theorem readDomainHost_text (h : readDomainHost s = some host) :
    readDomainHost host.text.toList = some host ∧ IsHostText host.text.toList := by
  rw [readDomainHost] at h
  split at h
  · obtain ⟨a, rfl, address⟩ := exists_address_of_readIpv6 h
    refine ⟨?_, isHostText_ipv6 a⟩
    rw [toList_text_ipv6]
    exact readIpv6_text address
  · simp only [Option.bind_eq_bind, Option.bind_eq_some_iff] at h
    obtain ⟨name, read, h⟩ := h
    split at h
    · simp only [Option.bind_eq_some_iff, Option.some.injEq] at h
      obtain ⟨a, -, rfl⟩ := h
      obtain ⟨text, again⟩ := readDomainHost_spelled (spelled_ipv4 a)
      have whole : (Host.ipv4 a).text.toList = a.text := String.toList_ofList
      rw [whole, again, if_pos (Ipv4.isNumeric_text a), Ipv4.ofName?_text]
      exact ⟨rfl, text⟩
    · rename_i other
      cases h
      obtain ⟨labels, spelled⟩ := Domain.exists_spelled_of_ofBytes? read
      obtain ⟨text, again⟩ := readDomainHost_spelled spelled
      have whole : (Host.domain (String.ofList name)).text.toList = name := String.toList_ofList
      rw [whole, again, if_neg other]
      exact ⟨rfl, text⟩

theorem not_forbidden_of_mem_encode (permitted : s.any isForbiddenOpaque = false)
    (mem : c ∈ Percent.encode Percent.controls s) :
    isForbiddenOpaque c = false ∧ Percent.controls c = false := by
  have signs : ∀ c ∈ Percent.signs, isForbiddenOpaque c = false := by
    simp [Percent.signs_eq, isForbiddenOpaque]
  rcases Percent.mem_encode mem with ⟨mem, out⟩ | sign
  · exact ⟨Bool.eq_false_iff.mpr (List.any_eq_false.mp permitted c mem), out⟩
  · exact ⟨signs c sign, Percent.spares_controls c sign⟩

/-- An opaque host is encoded, and read again as it is. -/
theorem readOpaqueHost_encode (permitted : s.any isForbiddenOpaque = false) (full : s ≠ []) :
    readOpaqueHost (Percent.encode Percent.controls s) =
        some (some (.domain (encodeText Percent.controls s))) ∧
      IsHostText (Percent.encode Percent.controls s) := by
  have chars (c : Char) (mem : c ∈ Percent.encode Percent.controls s) : IsNameChar c := by
    obtain ⟨out, kept⟩ := not_forbidden_of_mem_encode permitted mem
    exact isNameChar_of_isForbiddenOpaque out kept
  have full := Percent.encode_ne_nil Percent.controls full
  refine ⟨?_, isHostText_of_name full chars⟩
  have permitted : ¬(Percent.encode Percent.controls s).any isForbiddenOpaque := by
    rw [Bool.not_eq_true, List.any_eq_false]
    exact fun c mem ↦ Bool.eq_false_iff.mp (not_forbidden_of_mem_encode permitted mem).1
  rw [readOpaqueHost, bracketed?_name chars]
  dsimp only
  rw [if_neg permitted, if_neg (by simpa using full), encodeText,
    Percent.encode_encode Percent.spares_controls]
  rfl

theorem readOpaqueHost_text (h : readOpaqueHost s = some (some host)) :
    readOpaqueHost host.text.toList = some (some host) ∧ IsHostText host.text.toList := by
  rw [readOpaqueHost] at h
  split at h
  · obtain ⟨some_host, read, eq⟩ := Option.map_eq_some_iff.mp h
    cases eq
    obtain ⟨a, rfl, address⟩ := exists_address_of_readIpv6 read
    refine ⟨?_, isHostText_ipv6 a⟩
    rw [toList_text_ipv6, readOpaqueHost, bracketed?]
    dsimp only
    rw [readIpv6_text address]
    rfl
  · split at h
    · cases h
    · rename_i permitted
      split at h
      · cases h
      · rename_i full
        cases h
        have whole : (Host.domain (encodeText Percent.controls s)).text.toList =
            Percent.encode Percent.controls s := toList_encodeText _ s
        rw [whole]
        exact readOpaqueHost_encode (Bool.not_eq_true _ ▸ permitted) (mt List.isEmpty_iff.mpr full)

/-- A host that was read is read again from its text. -/
theorem readHost_text {kind : SchemeKind} (h : readHost kind s = some (some host)) :
    readHost kind host.text.toList = some (some host) ∧ IsHostText host.text.toList := by
  rw [readHost] at h
  split at h
  · rename_i special
    obtain ⟨_, read, eq⟩ := Option.map_eq_some_iff.mp h
    cases eq
    obtain ⟨again, text⟩ := readDomainHost_text read
    rw [readHost, if_pos special, again]
    exact ⟨rfl, text⟩
  · rename_i other
    rw [readHost, if_neg other]
    exact readOpaqueHost_text h

end ScriptCache.Url
