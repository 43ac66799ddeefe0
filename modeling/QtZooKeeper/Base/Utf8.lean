-- SUMMARY: Decoding UTF-8 with a replacement character for every byte that belongs to no character.
import QtZooKeeper.Base.CString

/-!
# Lossy UTF-8 decoding

A decoder that never fails: where no well-formed sequence begins, one byte is
replaced by U+FFFD and decoding goes on behind it. It undoes the encoding of every
string. What a well-formed sequence is, is taken from the core library.
-/

namespace Utf8

variable {bs : Bytes} {c : Char} {l : List Char}

/-- The encoding of a list of characters. -/
def encode (l : List Char) : Bytes := l.flatMap String.utf8EncodeChar

/-- The character whose encoding the bytes begin with. -/
def firstChar (bs : Bytes) : Option Char := bs.toByteArray.utf8DecodeChar? 0

/-- The characters of a byte string from behind its first `k` bytes, which belong
to a character already decoded. -/
def decodeFrom : Nat → Bytes → List Char
  | _, [] => []
  | k + 1, _ :: bs => decodeFrom k bs
  | 0, b :: bs =>
    match firstChar (b :: bs) with
    | some c => c :: decodeFrom (c.utf8Size - 1) bs
    | none => '\uFFFD' :: decodeFrom 0 bs

/-- The characters of a byte string. -/
def decode (bs : Bytes) : List Char := decodeFrom 0 bs

theorem decodeFrom_append {xs : Bytes} : decodeFrom xs.length (xs ++ bs) = decode bs := by
  induction xs with
  | nil => rfl
  | cons b xs ih => exact ih

theorem firstChar_encodeChar_append (c : Char) (bs : Bytes) :
    firstChar (String.utf8EncodeChar c ++ bs) = some c := by
  rw [firstChar, List.toByteArray_append]
  exact ByteArray.utf8DecodeChar?_utf8EncodeChar_append

/-- A character in front is decoded first. -/
theorem decode_encodeChar_append (c : Char) (bs : Bytes) :
    decode (String.utf8EncodeChar c ++ bs) = c :: decode bs := by
  have hfirst := firstChar_encodeChar_append c bs
  have hlength := String.length_utf8EncodeChar c
  cases hc : String.utf8EncodeChar c with
  | nil =>
    have hpos := c.utf8Size_pos
    simp [hc] at hlength
    omega
  | cons b xs =>
    rw [hc] at hfirst hlength
    have hrest : c.utf8Size - 1 = xs.length := by
      simp only [List.length_cons] at hlength
      omega
    rw [List.cons_append] at hfirst
    simp only [decode, List.cons_append, decodeFrom, hfirst, hrest]
    rw [decodeFrom_append, decode]

theorem decode_encode : decode (encode l) = l := by
  induction l with
  | nil => rfl
  | cons c l ih =>
    rw [encode, List.flatMap_cons, decode_encodeChar_append]
    exact congrArg (c :: ·) ih

theorem encode_injective : Function.Injective encode := fun l l' h => by
  rw [← decode_encode (l := l), h, decode_encode]

/-- Bytes that begin with a character begin with its encoding. -/
theorem exists_of_firstChar (h : firstChar bs = some c) :
    ∃ rest, bs = String.utf8EncodeChar c ++ rest := by
  obtain ⟨b, hb⟩ := ByteArray.exists_of_utf8DecodeChar?_eq_some h
  refine ⟨b.data.toList, ?_⟩
  have hlist := congrArg (fun b => b.data.toList) hb
  simpa using hlist

/-- Otherwise one byte is replaced. -/
theorem decode_of_firstChar_none {b : UInt8} (h : firstChar (b :: bs) = none) :
    decode (b :: bs) = '\uFFFD' :: decode bs := by
  simp only [decode, decodeFrom, h]

/-- Induction along the decoding: over a character in front, and over a byte that
begins none. -/
theorem decode_induction {P : Bytes → Prop} (nil : P [])
    (char : ∀ c bs, P bs → P (String.utf8EncodeChar c ++ bs))
    (invalid : ∀ b bs, firstChar (b :: bs) = none → P bs → P (b :: bs)) (bs : Bytes) : P bs := by
  induction hn : bs.length using Nat.strong_induction_on generalizing bs with
  | _ n ih =>
    cases bs with
    | nil => exact nil
    | cons b bs =>
      cases hfirst : firstChar (b :: bs) with
      | none =>
        refine invalid b bs hfirst (ih bs.length ?_ bs rfl)
        simp at hn
        omega
      | some c =>
        obtain ⟨rest, hrest⟩ := exists_of_firstChar hfirst
        rw [hrest] at hn ⊢
        refine char c rest (ih rest.length ?_ rest rfl)
        have hpos := c.utf8Size_pos
        rw [List.length_append, String.length_utf8EncodeChar] at hn
        omega

/-! ## ASCII -/

/-- The encoding of a character is one byte exactly for ASCII characters. -/
theorem encodeChar_of_ascii (hc : c.toNat < 128) :
    String.utf8EncodeChar c = [c.toNat.toUInt8] := by
  have hle : c.val.toNat ≤ 0x7f := by
    change c.toNat ≤ 127
    omega
  simp only [String.utf8EncodeChar, if_pos hle]
  rfl

theorem one_lt_length_encodeChar (hc : ¬ c.toNat < 128) :
    1 < (String.utf8EncodeChar c).length := by
  have hle : ¬ c.val.toNat ≤ 0x7f := by
    change ¬ c.toNat ≤ 127
    omega
  simp only [String.utf8EncodeChar, if_neg hle]
  split
  · simp
  · split <;> simp

theorem le_toNat_ofNat {m n : Nat} (hm : 128 ≤ m) (hlt : n + m < 256) :
    128 ≤ (UInt8.ofNat (n + m)).toNat := by
  rw [UInt8.toNat_ofNat']
  omega

/-- The bytes of all other characters have the highest bit set. -/
theorem le_toNat_encodeChar (hc : ¬ c.toNat < 128) :
    ∀ b ∈ String.utf8EncodeChar c, 128 ≤ b.toNat := by
  have hle : ¬ c.val.toNat ≤ 0x7f := by
    change ¬ c.toNat ≤ 127
    omega
  have hcont : ∀ n : Nat, 128 ≤ (UInt8.ofNat (n % 0x40 + 0x80)).toNat := fun n =>
    le_toNat_ofNat (by omega) (by omega)
  simp only [String.utf8EncodeChar, if_neg hle]
  split
  · simp only [List.forall_mem_cons, hcont, true_and]
    exact ⟨le_toNat_ofNat (by omega) (by omega), by simp⟩
  · split
    · simp only [List.forall_mem_cons, hcont, true_and]
      exact ⟨le_toNat_ofNat (by omega) (by omega), by simp⟩
    · simp only [List.forall_mem_cons, hcont, true_and]
      exact ⟨le_toNat_ofNat (by omega) (by omega), by simp⟩

theorem toNat_byte_of_ascii (hc : c.toNat < 128) : c.toNat.toUInt8.toNat = c.toNat := by
  rw [Nat.toUInt8, UInt8.toNat_ofNat']
  omega

/-- Only the zero character has a zero byte in its encoding. -/
theorem zero_mem_encodeChar : 0 ∈ String.utf8EncodeChar c ↔ c.toNat = 0 := by
  by_cases hc : c.toNat < 128
  · rw [encodeChar_of_ascii hc, List.mem_singleton, ← UInt8.toNat_inj, toNat_byte_of_ascii hc,
      eq_comm]
    rfl
  · refine iff_of_false ?_ (by omega)
    intro h
    have hle : 128 ≤ 0 := le_toNat_encodeChar hc 0 h
    omega

/-- An ASCII byte is decoded as the character it is. -/
theorem decode_ascii_cons (hc : c.toNat < 128) (bs : Bytes) :
    decode (c.toNat.toUInt8 :: bs) = c :: decode bs := by
  have hchar := decode_encodeChar_append c bs
  rwa [encodeChar_of_ascii hc] at hchar

/-- The character an ASCII byte stands for. -/
def asciiChar (b : UInt8) : Char := Char.ofNat b.toNat

theorem toNat_asciiChar {b : UInt8} (hb : b.toNat < 128) : (asciiChar b).toNat = b.toNat := by
  have hvalid : b.toNat.isValidChar := .inl (by omega)
  rw [asciiChar, Char.ofNat, dif_pos hvalid]
  rfl

theorem toUInt8_asciiChar {b : UInt8} (hb : b.toNat < 128) : (asciiChar b).toNat.toUInt8 = b := by
  rw [toNat_asciiChar hb, ← UInt8.toNat_inj, Nat.toUInt8, UInt8.toNat_ofNat']
  omega

/-- ASCII is decoded byte by byte. -/
theorem decode_of_ascii (h : ∀ b ∈ bs, b.toNat < 128) : decode bs = bs.map asciiChar := by
  induction bs with
  | nil => rfl
  | cons b bs ih =>
    obtain ⟨hb, hbs⟩ := List.forall_mem_cons.mp h
    have hlt : (asciiChar b).toNat < 128 := by rwa [toNat_asciiChar hb]
    have hcons := decode_ascii_cons hlt bs
    rw [toUInt8_asciiChar hb] at hcons
    rw [hcons, ih hbs, List.map_cons]

theorem byte_inj {c' : Char} (hc : c.toNat < 128) (hc' : c'.toNat < 128) :
    c.toNat.toUInt8 = c'.toNat.toUInt8 ↔ c = c' := by
  rw [← UInt8.toNat_inj, toNat_byte_of_ascii hc, toNat_byte_of_ascii hc', Char.toNat_inj]

/-- The encoding of a character has the byte of an ASCII character as often as it is
that character. -/
theorem count_encodeChar {c' : Char} (hc : c.toNat < 128) :
    (String.utf8EncodeChar c').count c.toNat.toUInt8 = if c' = c then 1 else 0 := by
  by_cases hc' : c'.toNat < 128
  · rw [encodeChar_of_ascii hc', List.count_singleton]
    simp only [beq_iff_eq, byte_inj hc' hc]
  · have hne : c' ≠ c := by
      rintro rfl
      exact hc' hc
    rw [if_neg hne, List.count_eq_zero]
    intro hmem
    have hle := le_toNat_encodeChar hc' _ hmem
    rw [toNat_byte_of_ascii hc] at hle
    omega

/-- A byte that begins no character is not ASCII. -/
theorem not_ascii_of_firstChar_none {b : UInt8} (h : firstChar (b :: bs) = none) :
    ¬ b.toNat < 128 := by
  intro hb
  have hlt : (asciiChar b).toNat < 128 := by rwa [toNat_asciiChar hb]
  have hfirst := firstChar_encodeChar_append (asciiChar b) bs
  rw [encodeChar_of_ascii hlt, toUInt8_asciiChar hb, List.singleton_append] at hfirst
  cases h.symm.trans hfirst

/-- Decoding neither loses nor makes ASCII characters. -/
theorem count_decode (hc : c.toNat < 128) (bs : Bytes) :
    (decode bs).count c = bs.count c.toNat.toUInt8 := by
  induction bs using decode_induction with
  | nil => rfl
  | char c' bs ih =>
    rw [decode_encodeChar_append, List.count_cons, List.count_append, ih, count_encodeChar hc,
      Nat.add_comm]
    simp only [beq_iff_eq]
  | invalid b bs hb ih =>
    have hreplaced : '\uFFFD' ≠ c := by
      rintro rfl
      exact absurd hc (by decide)
    have hbyte : b ≠ c.toNat.toUInt8 := by
      rintro rfl
      refine not_ascii_of_firstChar_none hb ?_
      rwa [toNat_byte_of_ascii hc]
    rw [decode_of_firstChar_none hb, List.count_cons_of_ne hreplaced, List.count_cons_of_ne hbyte,
      ih]

theorem decode_eq_nil : decode bs = [] ↔ bs = [] := by
  constructor
  · intro h
    induction bs using decode_induction with
    | nil => rfl
    | char c bs ih =>
      rw [decode_encodeChar_append] at h
      cases h
    | invalid b bs hb ih =>
      rw [decode_of_firstChar_none hb] at h
      cases h
  · rintro rfl
    rfl

end Utf8
