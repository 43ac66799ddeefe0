-- SUMMARY: How strings come back from the client, and when the encodings of a path agree.
import QtZooKeeper.Base.Utf8
import QtZooKeeper.Client.Codes
import Mathlib.Data.List.Basic

/-!
# Encoding and decoding of paths

Paths go to the client as Latin-1, in one place as UTF-8; names come back through
the constructor `QString(const char *)`, which decodes UTF-8. The two encodings
agree on ASCII and nowhere else.
-/

namespace QtZooKeeper

variable {p q : QString} {c : Char} {l : List Char}

/-- `QString(const char *)`, for the bytes from the pointer on. -/
def fromUtf8 (bs : Bytes) : QString := String.ofList (Utf8.decode bs.untilZero)

/-- The string does not contain U+0000. -/
def NoNul (p : QString) : Prop := '\x00' ∉ p.toList

instance (p : QString) : Decidable (NoNul p) := inferInstanceAs (Decidable ('\x00' ∉ p.toList))

/-- All characters are ASCII. -/
def IsAscii (p : QString) : Prop := ∀ c ∈ p.toList, c.toNat < 128

instance (p : QString) : Decidable (IsAscii p) :=
  List.decidableBAll (fun c : Char => c.toNat < 128) p.toList

/-! ## Single characters -/

/-- What `toLatin1` makes of one character. -/
def latin1Char (c : Char) : Bytes :=
  if c.toNat ≤ 0xFF then [c.toNat.toUInt8]
  else if c.toNat ≤ 0xFFFF then [63]
  else [63, 63]

theorem toLatin1_eq : toLatin1 p = p.toList.flatMap latin1Char := rfl

theorem toUtf8_eq : toUtf8 p = Utf8.encode p.toList := rfl

theorem toNat_eq_zero : c.toNat = 0 ↔ c = '\x00' := by
  rw [← Char.toNat_inj]
  rfl

theorem latin1Char_of_ascii (hc : c.toNat < 128) : latin1Char c = String.utf8EncodeChar c := by
  rw [latin1Char, if_pos (by omega), Utf8.encodeChar_of_ascii hc]

/-- Of every other character Latin-1 keeps fewer bytes than UTF-8. -/
theorem length_latin1Char_lt (hc : ¬ c.toNat < 128) :
    (latin1Char c).length < (String.utf8EncodeChar c).length := by
  have hlong := Utf8.one_lt_length_encodeChar hc
  by_cases hbmp : c.toNat ≤ 0xFFFF
  · have hone : (latin1Char c).length = 1 := by
      unfold latin1Char
      split
      · rfl
      · rfl
    omega
  · rw [latin1Char, if_neg (by omega), if_neg hbmp, String.length_utf8EncodeChar]
    have hsize : c.utf8Size = 4 := by
      rw [Char.utf8Size_eq_four_iff]
      change 0xFFFF < c.val.toNat
      exact not_le.mp hbmp
    simp [hsize]

/-- Of every other character Latin-1 has a byte that is not ASCII, or a question mark. -/
theorem mem_latin1Char (hc : ¬ c.toNat < 128) : ∃ b ∈ latin1Char c, 128 ≤ b.toNat ∨ b = 63 := by
  unfold latin1Char
  split
  · next hle =>
    refine ⟨_, List.mem_singleton_self _, .inl ?_⟩
    rw [Nat.toUInt8, UInt8.toNat_ofNat']
    omega
  · split
    · exact ⟨63, by simp, .inr rfl⟩
    · exact ⟨63, by simp, .inr rfl⟩

theorem zero_mem_latin1Char : 0 ∈ latin1Char c ↔ c.toNat = 0 := by
  by_cases hc : c.toNat < 128
  · rw [latin1Char_of_ascii hc, Utf8.zero_mem_encodeChar]
  · refine iff_of_false ?_ (by omega)
    unfold latin1Char
    split
    · next hle =>
      rw [List.mem_singleton, ← UInt8.toNat_inj, Nat.toUInt8, UInt8.toNat_ofNat']
      change ¬ 0 = c.toNat % 256
      omega
    · split <;> decide

/-- A byte other than the question mark is the character itself. -/
theorem toNat_of_mem_latin1Char {b : UInt8} (h : b ∈ latin1Char c) : b.toNat = c.toNat ∨ b = 63 := by
  unfold latin1Char at h
  split at h
  · next hle =>
    rw [List.mem_singleton] at h
    rw [h, Nat.toUInt8, UInt8.toNat_ofNat', Nat.mod_eq_of_lt (by omega)]
    exact .inl rfl
  · split at h <;> simp at h <;> exact .inr h

/-! ## Strings -/

theorem untilZero_of_not_mem {bs : Bytes} (h : 0 ∉ bs) : bs.untilZero = bs := by
  rw [Bytes.untilZero, List.takeWhile_eq_self_iff]
  intro b hb
  simpa using ne_of_mem_of_not_mem hb h

theorem zero_mem_toLatin1 : 0 ∈ toLatin1 p ↔ ¬ NoNul p := by
  simp only [toLatin1_eq, List.mem_flatMap, zero_mem_latin1Char, toNat_eq_zero, exists_eq_right,
    NoNul, not_not]

theorem zero_not_mem_constData {bs : Bytes} : 0 ∉ constData bs := by
  intro h
  simpa using List.mem_takeWhile_imp h

/-- A string without U+0000 reaches the client as a whole. -/
theorem constData_toLatin1 (hp : NoNul p) : constData (toLatin1 p) = toLatin1 p := by
  refine untilZero_of_not_mem ?_
  rw [zero_mem_toLatin1]
  exact not_not.mpr hp

theorem toLatin1_append : toLatin1 (p ++ q) = toLatin1 p ++ toLatin1 q := by
  simp only [toLatin1_eq, String.toList_append, List.flatMap_append]

theorem constData_toUtf8 (hp : NoNul p) : constData (toUtf8 p) = toUtf8 p := by
  refine untilZero_of_not_mem ?_
  rw [toUtf8_eq, Utf8.encode, List.mem_flatMap]
  rintro ⟨c, hc, hz⟩
  rw [Utf8.zero_mem_encodeChar, toNat_eq_zero] at hz
  exact hp (hz ▸ hc)

/-- Decoding undoes `toUtf8`. -/
theorem fromUtf8_toUtf8 (hp : NoNul p) : fromUtf8 (toUtf8 p) = p := by
  have hdata : (toUtf8 p).untilZero = toUtf8 p := constData_toUtf8 hp
  rw [fromUtf8, hdata, toUtf8_eq, Utf8.decode_encode, String.ofList_toList]

theorem toUtf8_injective (h : toUtf8 p = toUtf8 q) : p = q :=
  String.toList_injective (Utf8.encode_injective h)

/-- Lists of characters with the same bytes in both encodings are ASCII. -/
theorem length_latin1_le (l : List Char) : (l.flatMap latin1Char).length ≤ (Utf8.encode l).length ∧
    ((l.flatMap latin1Char).length = (Utf8.encode l).length → ∀ c ∈ l, c.toNat < 128) := by
  induction l with
  | nil => simp [Utf8.encode]
  | cons c l ih =>
    obtain ⟨hle, heq⟩ := ih
    rw [Utf8.encode] at hle heq ⊢
    simp only [List.flatMap_cons, List.length_append, List.forall_mem_cons]
    by_cases hc : c.toNat < 128
    · rw [latin1Char_of_ascii hc]
      refine ⟨by omega, fun h => ⟨hc, heq (by omega)⟩⟩
    · have hlt := length_latin1Char_lt hc
      refine ⟨by omega, fun h => ?_⟩
      omega

/-- The encodings agree on ASCII and nowhere else. -/
theorem toLatin1_eq_toUtf8_iff : toLatin1 p = toUtf8 p ↔ IsAscii p := by
  rw [toLatin1_eq, toUtf8_eq]
  constructor
  · intro h
    exact (length_latin1_le p.toList).2 (congrArg List.length h)
  · intro h
    exact List.flatMap_congr fun c hc => latin1Char_of_ascii (h c hc)

/-- A path whose Latin-1 bytes are ASCII without a question mark is ASCII. -/
theorem isAscii_of_bytes (h : ∀ b ∈ toLatin1 p, b.toNat < 128 ∧ b ≠ 63) : IsAscii p := by
  intro c hc
  by_contra hna
  obtain ⟨b, hb, hbyte⟩ := mem_latin1Char hna
  obtain ⟨hlt, hne⟩ := h b (by rw [toLatin1_eq]; exact List.mem_flatMap.mpr ⟨c, hc, hb⟩)
  rcases hbyte with hge | heq
  · omega
  · exact hne heq

/-- The bytes of an ASCII path are its characters. -/
theorem bytes_of_isAscii (hp : IsAscii p) :
    ∀ b ∈ toLatin1 p, b.toNat < 128 ∧ (b = 63 → '?' ∈ p.toList) := by
  intro b hb
  rw [toLatin1_eq, List.mem_flatMap] at hb
  obtain ⟨c, hc, hbc⟩ := hb
  have hlt := hp c hc
  rw [latin1Char_of_ascii hlt, Utf8.encodeChar_of_ascii hlt, List.mem_singleton] at hbc
  subst hbc
  rw [Utf8.toNat_byte_of_ascii hlt]
  refine ⟨hlt, fun h => ?_⟩
  have hnat := congrArg UInt8.toNat h
  rw [Utf8.toNat_byte_of_ascii hlt] at hnat
  have hq : c = '?' := Char.toNat_inj.mp hnat
  exact hq ▸ hc

/-- An ASCII path without question marks shares its Latin-1 bytes with no other path. -/
theorem toLatin1_inj (hp : IsAscii p) (hmark : '?' ∉ p.toList) : toLatin1 q = toLatin1 p ↔ q = p := by
  refine ⟨fun h => ?_, fun h => by rw [h]⟩
  have hq : IsAscii q := by
    refine isAscii_of_bytes ?_
    intro b hb
    rw [h] at hb
    obtain ⟨hlt, hquestion⟩ := bytes_of_isAscii hp b hb
    exact ⟨hlt, fun h => hmark (hquestion h)⟩
  rw [toLatin1_eq_toUtf8_iff.mpr hp, toLatin1_eq_toUtf8_iff.mpr hq] at h
  exact toUtf8_injective h

/-- `p` with another character that Latin-1 does not have in place of its question
marks. -/
def unquestioned (p : QString) : QString :=
  String.ofList (p.toList.map fun c => if c = '?' then '中' else c)

theorem toLatin1_unquestioned : toLatin1 (unquestioned p) = toLatin1 p := by
  rw [toLatin1_eq, toLatin1_eq, unquestioned, String.toList_ofList, List.flatMap_map]
  refine List.flatMap_congr ?_
  intro c _
  by_cases hc : c = '?'
  · rw [if_pos hc, hc]
    decide
  · rw [if_neg hc]

theorem noNul_unquestioned (hp : NoNul p) : NoNul (unquestioned p) := by
  rw [NoNul, unquestioned, String.toList_ofList, List.mem_map]
  rintro ⟨c, hc, heq⟩
  split at heq
  · exact absurd heq (by decide)
  · exact hp (heq ▸ hc)

theorem unquestioned_ne (hp : '?' ∈ p.toList) : unquestioned p ≠ p := by
  intro h
  rw [← h, unquestioned, String.toList_ofList, List.mem_map] at hp
  obtain ⟨c, -, heq⟩ := hp
  split at heq
  · exact absurd heq (by decide)
  · next hne => exact hne heq

/-! ## Back and forth -/

theorem fromUtf8_eq {bs : Bytes} (h : 0 ∉ bs) : fromUtf8 bs = String.ofList (Utf8.decode bs) := by
  rw [fromUtf8, untilZero_of_not_mem h]

theorem fromUtf8_inj {bs bs' : Bytes} (h : 0 ∉ bs) (h' : 0 ∉ bs') :
    fromUtf8 bs = fromUtf8 bs' ↔ Utf8.decode bs = Utf8.decode bs' := by
  rw [fromUtf8_eq h, fromUtf8_eq h', String.ofList_inj]

theorem fromUtf8_ne_empty {bs : Bytes} (h : 0 ∉ bs) (hne : bs ≠ []) : fromUtf8 bs ≠ "" := by
  rw [fromUtf8_eq h]
  intro hempty
  have hdecode : Utf8.decode bs = [] := String.ofList_eq_empty_iff.mp hempty
  exact hne (Utf8.decode_eq_nil.mp hdecode)

/-- Decoding makes no U+0000. -/
theorem noNul_fromUtf8 {bs : Bytes} (h : 0 ∉ bs) : NoNul (fromUtf8 bs) := by
  have hcount := Utf8.count_decode (c := '\x00') (by decide) bs
  have hzero : bs.count ('\x00').toNat.toUInt8 = 0 := List.count_eq_zero.mpr h
  rw [hzero, List.count_eq_zero] at hcount
  rw [NoNul, fromUtf8_eq h, String.toList_ofList]
  exact hcount

theorem latin1_decode_le (bs : Bytes) : ((Utf8.decode bs).flatMap latin1Char).length ≤ bs.length := by
  induction bs using Utf8.decode_induction with
  | nil => simp [Utf8.decode, Utf8.decodeFrom]
  | char c bs ih =>
    rw [Utf8.decode_encodeChar_append, List.flatMap_cons, List.length_append, List.length_append]
    have hle : (latin1Char c).length ≤ (String.utf8EncodeChar c).length := by
      by_cases hc : c.toNat < 128
      · rw [latin1Char_of_ascii hc]
      · exact (length_latin1Char_lt hc).le
    omega
  | invalid b bs hb ih =>
    rw [Utf8.decode_of_firstChar_none hb, List.flatMap_cons, List.length_append, List.length_cons]
    have hone : (latin1Char '\uFFFD').length = 1 := by decide
    omega

/-- Bytes survive decoding as UTF-8 and encoding as Latin-1 exactly if they are ASCII. -/
theorem latin1_decode_iff {bs : Bytes} :
    (Utf8.decode bs).flatMap latin1Char = bs ↔ ∀ b ∈ bs, b.toNat < 128 := by
  induction bs using Utf8.decode_induction with
  | nil => simp [Utf8.decode, Utf8.decodeFrom]
  | char c bs ih =>
    rw [Utf8.decode_encodeChar_append, List.flatMap_cons]
    by_cases hc : c.toNat < 128
    · have hbyte : (c.toNat.toUInt8).toNat < 128 := by rwa [Utf8.toNat_byte_of_ascii hc]
      rw [latin1Char_of_ascii hc, List.append_cancel_left_eq, ih, Utf8.encodeChar_of_ascii hc,
        List.singleton_append, List.forall_mem_cons]
      exact (and_iff_right hbyte).symm
    -- Latin-1 has too few bytes for the character
    · refine iff_of_false ?_ ?_
      · intro h
        have hlength := congrArg List.length h
        have hle := latin1_decode_le bs
        have hlt := length_latin1Char_lt hc
        rw [List.length_append, List.length_append] at hlength
        omega
      · intro h
        have hpos := c.utf8Size_pos
        rw [← String.length_utf8EncodeChar c] at hpos
        obtain ⟨b, hb⟩ := List.exists_mem_of_length_pos hpos
        have hge := Utf8.le_toNat_encodeChar hc b hb
        have hlt := h b (List.mem_append_left _ hb)
        omega
  | invalid b bs hb ih =>
    have hnot := Utf8.not_ascii_of_firstChar_none hb
    rw [Utf8.decode_of_firstChar_none hb, List.flatMap_cons]
    refine iff_of_false ?_ fun h => hnot (h b (by simp))
    intro h
    have hone : latin1Char '\uFFFD' = [63] := by decide
    rw [hone, List.singleton_append, List.cons.injEq] at h
    exact hnot (h.1 ▸ (by decide))

theorem toLatin1_fromUtf8_iff {bs : Bytes} (h : 0 ∉ bs) :
    toLatin1 (fromUtf8 bs) = bs ↔ ∀ b ∈ bs, b.toNat < 128 := by
  rw [fromUtf8_eq h, toLatin1_eq, String.toList_ofList, latin1_decode_iff]

end QtZooKeeper
