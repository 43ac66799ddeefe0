-- SUMMARY: The output archives of recordio: network-order primitives, the growing buffer, and the format it holds.
import QtZooKeeper.Base.ByteOrder
import QtZooKeeper.Base.Heap

/-!
# Output archives

Requests and answers travel as records. A record is a sequence of primitives: 32
and 64 bit integers in network order, one-byte booleans, and byte strings behind
their length. An output archive appends primitives to a buffer that doubles when
it is full.

There are two levels. `ArchiveOp.exec` does what `oa_serialize_*` do to
the buffer, with its lengths, its resizing and the faults of 32 bit arithmetic and
of `memcpy`. `ArchiveOp.wire` is the format itself. `appends_ops` connects them.
-/

namespace QtZooKeeper

/-- The machine the client runs on: its byte order, and what fresh memory holds. -/
class Host where
  byteOrder : ByteOrder
  garbage : Nat → UInt8

/-- A little-endian host. -/
abbrev littleHost : Host := ⟨.little, fun _ => 0xA5⟩

/-- A big-endian host. -/
abbrev bigHost : Host := ⟨.big, fun _ => 0x5A⟩

/-! ## Values -/

/-- A C string whose length fits an `int32_t`. -/
@[ext]
structure CStr where
  bytes : Bytes
  noZero : 0 ∉ bytes
  length_lt : bytes.length < 2 ^ 31
  deriving DecidableEq, Repr

/-- What the string functions see of `len` bytes with a zero byte behind them. -/
def CStr.ofBytes (bs : Bytes) (h : bs.length < 2 ^ 31) : CStr where
  bytes := bs.untilZero
  noZero h0 := by simpa using List.mem_takeWhile_imp h0
  length_lt := (List.takeWhile_sublist _).length_le.trans_lt h

/-- The bytes of a `struct buffer`, whose length is an `int32_t`. -/
structure CBytes where
  bytes : Bytes
  length_lt : bytes.length < 2 ^ 31
  deriving DecidableEq, Repr

/-- `char *` -/
abbrev CharPtr := Option CStr

/-- `struct buffer`: null data has the length -1. -/
abbrev Buffer := Option CBytes

theorem CStr.ofBytes_bytes (s : CStr) (h : s.bytes.length < 2 ^ 31) : CStr.ofBytes s.bytes h = s := by
  obtain ⟨bs, hz, hl⟩ := s
  have hall : ∀ b ∈ bs, (b != 0) = true := by
    intro b hb
    simpa using fun h : b = 0 => hz (h ▸ hb)
  simp only [CStr.ofBytes, Bytes.untilZero, CStr.mk.injEq]
  exact List.takeWhile_eq_self_iff.mpr (by simpa using hall)

/-! ## Network order -/

section NetworkOrder

variable [Host]

/-- An `int32_t` in memory. -/
def intBytes (v : UInt32) : Bytes := Host.byteOrder.bytes 4 v.toNat

/-- An `int64_t` in memory. -/
def longBytes (v : UInt64) : Bytes := Host.byteOrder.bytes 8 v.toNat

/-- The `int32_t` with these bytes in memory. -/
def intValue (bs : Bytes) : UInt32 := UInt32.ofNat (Host.byteOrder.value bs)

/-- The `int64_t` with these bytes in memory. -/
def longValue (bs : Bytes) : UInt64 := UInt64.ofNat (Host.byteOrder.value bs)

/-- `htonl`, and `ntohl`, which is the same swap. -/
def htonl (v : UInt32) : UInt32 := UInt32.ofNat (Host.byteOrder.swap 4 v.toNat)

/-- One iteration of the loop of `zoo_htonll`: the bytes `i` and `8 - i - 1` change
places. -/
def swapEnds (s : Bytes) (i : Nat) : Bytes :=
  let tmp := s.getD i 0
  (s.set i (s.getD (8 - i - 1) 0)).set (8 - i - 1) tmp

/-- `zoo_htonll` -/
def zooHtonll (v : UInt64) : UInt64 :=
  if htonl 1 = 1 then v
  else longValue ((List.range 4).foldl swapEnds (longBytes v))

end NetworkOrder

section NetworkOrderLaws

variable [Host] {bs : Bytes}

@[simp] theorem length_intBytes {v : UInt32} : (intBytes v).length = 4 := ByteOrder.length_bytes

@[simp] theorem length_longBytes {v : UInt64} : (longBytes v).length = 8 := ByteOrder.length_bytes

theorem intBytes_intValue (h : bs.length = 4) : intBytes (intValue bs) = bs := by
  have hlt : Host.byteOrder.value bs < 2 ^ 32 := by
    simpa [h] using ByteOrder.value_lt Host.byteOrder bs
  rw [intBytes, intValue, UInt32.toNat_ofNat_of_lt' hlt, ByteOrder.bytes_value h]

theorem longBytes_longValue (h : bs.length = 8) : longBytes (longValue bs) = bs := by
  have hlt : Host.byteOrder.value bs < 2 ^ 64 := by
    simpa [h] using ByteOrder.value_lt Host.byteOrder bs
  rw [longBytes, longValue, UInt64.toNat_ofNat_of_lt' hlt, ByteOrder.bytes_value h]

/-- On any host the bytes `htonl` leaves in memory are those in network order. -/
theorem intBytes_htonl {v : UInt32} : intBytes (htonl v) = networkBytes 4 v.toNat := by
  rw [htonl, ByteOrder.swap, ← intValue, intBytes_intValue length_networkBytes]

omit [Host] in
/-- The four exchanges reverse the eight bytes. -/
theorem foldl_swapEnds (h : bs.length = 8) : (List.range 4).foldl swapEnds bs = bs.reverse := by
  match bs, h with
  | [a, b, c, d, e, f, g, i], _ => rfl

/-- On any host the bytes `zoo_htonll` leaves in memory are those in network order. -/
theorem longBytes_zooHtonll {v : UInt64} : longBytes (zooHtonll v) = networkBytes 8 v.toNat := by
  unfold zooHtonll
  cases ho : Host.byteOrder with
  | big =>
    have h1 : htonl 1 = 1 := by
      rw [htonl, ho]
      decide
    rw [if_pos h1, longBytes, ho, ByteOrder.bytes]
  | little =>
    have h1 : htonl 1 ≠ 1 := by
      rw [htonl, ho]
      decide
    rw [if_neg h1, foldl_swapEnds length_longBytes, longBytes_longValue (by simp), longBytes, ho,
      ByteOrder.bytes, List.reverse_reverse]

end NetworkOrderLaws

/-! ## The output archive -/

/-- What goes wrong inside an output archive. -/
inductive ArchiveFault where
  /-- A length left the range of `int`. -/
  | overflow
  /-- Bytes were written behind the end of the buffer. -/
  | outOfBounds
  deriving DecidableEq, Repr

/-- `struct buff_struct` of an output archive. -/
structure BuffStruct where
  len : Int
  off : Int
  buffer : Bytes
  deriving DecidableEq, Repr

/-- `INT_MAX` -/
def intMax : Int := 2 ^ 31 - 1

namespace BuffStruct

/-- The loop of `resize_buffer`: double the length until it is large enough. From a
positive length it goes around 31 times at most before it leaves the `int`s. -/
def doubleUntil : Nat → Int → Int → Except ArchiveFault Int
  | 0, _, _ => .error .overflow
  | fuel + 1, len, newlen =>
    if len < newlen then
      if 2 * len ≤ intMax then doubleUntil fuel (2 * len) newlen else .error .overflow
    else .ok len

section

variable [Host]

/-- `realloc` to a larger size: the old bytes, and behind them whatever is there. -/
def realloc (buffer : Bytes) (len : Nat) : Bytes :=
  buffer ++ (List.range' buffer.length (len - buffer.length)).map Host.garbage

/-- `resize_buffer` -/
def resizeBuffer (s : BuffStruct) (newlen : Int) : Except ArchiveFault BuffStruct := do
  let len ← doubleUntil 32 s.len newlen
  return { s with len, buffer := realloc s.buffer len.toNat }

/-- `memcpy` to the offset, and the step of the offset behind it. -/
def memcpy (s : BuffStruct) (bs : Bytes) : Except ArchiveFault BuffStruct :=
  if 0 ≤ s.off ∧ s.off + bs.length ≤ s.buffer.length then
    .ok { s with
      off := s.off + bs.length
      buffer := s.buffer.take s.off.toNat ++ bs ++ s.buffer.drop (s.off.toNat + bs.length) }
  else .error .outOfBounds

/-- What all `oa_serialize_*` do: if the rest of the buffer is too short, resize it to
its length and what is to be written; then copy. -/
def append (s : BuffStruct) (short : Bool) (bs : Bytes) : Except ArchiveFault BuffStruct := do
  let s ← if short then
      if s.len + bs.length ≤ intMax then s.resizeBuffer (s.len + bs.length) else .error .overflow
    else pure s
  s.memcpy bs

/-- The comparison of an `int` with a `sizeof`, which is made without sign. -/
def ltSizeof (d : Int) (size : Nat) : Bool := decide (d % 2 ^ 64 < size)

/-- `oa_serialize_int` -/
def oaSerializeInt (s : BuffStruct) (d : Int32) : Except ArchiveFault BuffStruct :=
  s.append (ltSizeof (s.len - s.off) 4) (intBytes (htonl d.toUInt32))

/-- `oa_serialize_long` -/
def oaSerializeLong (s : BuffStruct) (d : Int64) : Except ArchiveFault BuffStruct :=
  s.append (ltSizeof (s.len - s.off) 8) (longBytes (zooHtonll d.toUInt64))

/-- `oa_serialize_bool` -/
def oaSerializeBool (s : BuffStruct) (i : Int32) : Except ArchiveFault BuffStruct :=
  s.append (decide (s.len - s.off < 1)) [if i = 0 then 0 else 1]

/-- `oa_serialize_buffer` -/
def oaSerializeBuffer (s : BuffStruct) (b : Buffer) : Except ArchiveFault BuffStruct :=
  match b with
  | none => s.oaSerializeInt (-1)
  | some b => do
    let s ← s.oaSerializeInt (.ofNat b.bytes.length)
    s.append (decide (s.len - s.off < b.bytes.length)) b.bytes

/-- `oa_serialize_string` -/
def oaSerializeString (s : BuffStruct) (str : CharPtr) : Except ArchiveFault BuffStruct :=
  match str with
  | none => s.oaSerializeInt (-1)
  | some str => do
    let s ← s.oaSerializeInt (.ofNat str.bytes.length)
    s.append (decide (s.len - s.off < str.bytes.length)) str.bytes

/-- `create_buffer_oarchive` -/
def createBufferOarchive : BuffStruct := ⟨128, 0, (List.range 128).map Host.garbage⟩

end

/-- What is queued for sending: `get_buffer_len` bytes of `get_buffer`. -/
def contents (s : BuffStruct) : Bytes := s.buffer.take s.off.toNat

end BuffStruct

/-! ## The format -/

/-- One call of an output archive. `start_vector` writes the count as an `int`; the
tags and the marks of records and vectors write nothing. -/
inductive ArchiveOp where
  | int (d : Int32)
  | long (d : Int64)
  | bool (i : Int32)
  | buffer (b : Buffer)
  | string (s : CharPtr)
  deriving DecidableEq, Repr

/-- The call on a buffer. -/
def ArchiveOp.exec [Host] (s : BuffStruct) : ArchiveOp → Except ArchiveFault BuffStruct
  | int d => s.oaSerializeInt d
  | long d => s.oaSerializeLong d
  | bool i => s.oaSerializeBool i
  | buffer b => s.oaSerializeBuffer b
  | string str => s.oaSerializeString str

/-- What `get_buffer` and `get_buffer_len` have after the calls on a new archive. -/
def archiveBytes [Host] (ops : List ArchiveOp) : Except ArchiveFault Bytes := do
  let s ← ops.foldlM ArchiveOp.exec .createBufferOarchive
  return s.contents

/-- The bytes of an `int32_t` on the wire. -/
def intWire (d : Int32) : Bytes := networkBytes 4 d.toUInt32.toNat

/-- The bytes of an `int64_t` on the wire. -/
def longWire (d : Int64) : Bytes := networkBytes 8 d.toUInt64.toNat

@[simp] theorem length_intWire {d : Int32} : (intWire d).length = 4 := length_networkBytes

@[simp] theorem length_longWire {d : Int64} : (longWire d).length = 8 := length_networkBytes

/-- The bytes of the call on the wire. -/
def ArchiveOp.wire : ArchiveOp → Bytes
  | int d => intWire d
  | long d => longWire d
  | bool i => [if i = 0 then 0 else 1]
  | buffer none | string none => intWire (-1)
  | buffer (some b) => intWire (.ofNat b.bytes.length) ++ b.bytes
  | string (some s) => intWire (.ofNat s.bytes.length) ++ s.bytes

/-- The bytes of a record. -/
def wire (ops : List ArchiveOp) : Bytes := ops.flatMap ArchiveOp.wire

@[simp] theorem wire_nil : wire [] = [] := rfl

@[simp] theorem wire_cons {op : ArchiveOp} {ops : List ArchiveOp} :
    wire (op :: ops) = op.wire ++ wire ops := rfl

@[simp] theorem wire_append {ops ops' : List ArchiveOp} : wire (ops ++ ops') = wire ops ++ wire ops' :=
  List.flatMap_append

/-! ## The buffer holds what was written -/

namespace BuffStruct

variable [Host] {s s' : BuffStruct} {bs : Bytes} {short : Bool}

/-- The buffer has the length it says, which is 128 doubled some times and an `int`,
and the offset lies in it. -/
structure Sound (s : BuffStruct) : Prop where
  length_eq : (s.buffer.length : Int) = s.len
  off_nonneg : 0 ≤ s.off
  off_le : s.off ≤ s.len
  doubled : ∃ k, s.len = 128 * 2 ^ k
  len_le : s.len ≤ intMax

omit [Host] in
/-- Doubling ends at the first double that is large enough, or past the `int`s when
that is needed. -/
theorem doubleUntil_spec {fuel : Nat} {len : Int} (newlen : Int) (hpos : 0 < len) (hlen : len ≤ intMax)
    (hfuel : intMax < len * 2 ^ fuel) :
    (doubleUntil fuel len newlen = .error .overflow ∧ 2 ^ 31 < 2 * newlen) ∨
      ∃ len', doubleUntil fuel len newlen = .ok len' ∧ newlen ≤ len' ∧ len ≤ len' ∧
        len' ≤ intMax ∧ ∃ j : Nat, len' = len * 2 ^ j := by
  induction fuel generalizing len with
  | zero => omega
  | succ fuel ih =>
    have hstep : ∀ k : Nat, len * 2 ^ (k + 1) = 2 * len * 2 ^ k := by
      intro k
      rw [Int.pow_succ]
      ac_rfl
    rw [doubleUntil]
    by_cases hlt : len < newlen
    · rw [if_pos hlt]
      by_cases hdouble : 2 * len ≤ intMax
      · rw [if_pos hdouble]
        obtain hov | ⟨len', hok, hge, hle, hint, j, hj⟩ := ih (by omega) hdouble (by rwa [← hstep])
        · exact .inl hov
        · exact .inr ⟨len', hok, hge, by omega, hint, j + 1, by rw [hstep, hj]⟩
      · rw [if_neg hdouble]
        unfold intMax at hdouble
        exact .inl ⟨rfl, by omega⟩
    · rw [if_neg hlt]
      exact .inr ⟨len, rfl, by omega, Int.le_refl len, hlen, 0, by simp⟩

omit [Host] in
/-- A copy that fits adds its bytes to the contents. -/
theorem memcpy_spec (bs : Bytes) (h0 : 0 ≤ s.off) (hfits : s.off + bs.length ≤ s.buffer.length) :
    ∃ buffer, s.memcpy bs = .ok { s with off := s.off + bs.length, buffer } ∧
      buffer.length = s.buffer.length ∧
      buffer.take (s.off + bs.length).toNat = s.contents ++ bs := by
  obtain ⟨off, hoff⟩ := Int.eq_ofNat_of_zero_le h0
  have htoNat : s.off.toNat = off := by omega
  have hadd : (s.off + bs.length).toNat = off + bs.length := by omega
  have hlen : (s.buffer.take off).length = off := List.length_take_of_le (by omega)
  refine ⟨_, by rw [memcpy, if_pos ⟨h0, hfits⟩], ?_, ?_⟩
  · simp only [htoNat, List.length_append, List.length_drop, hlen]
    omega
  · rw [htoNat, hadd, contents, htoNat, List.take_append_of_le_length (by simp [hlen])]
    exact List.take_of_length_le (by simp [hlen])

/-- `s` goes over to a sound buffer that holds `bs` besides what `s` held, unless a
length overflows, which takes more than half a gigabyte. -/
def Appends (s : BuffStruct) (r : Except ArchiveFault BuffStruct) (bs : Bytes) : Prop :=
  (r = .error .overflow ∧ 2 ^ 29 < s.off + bs.length) ∨
    ∃ s', r = .ok s' ∧ s'.Sound ∧ s'.off = s.off + bs.length ∧ s'.contents = s.contents ++ bs

/-- Resizing a sound buffer by what does not fit. -/
theorem resizeBuffer_spec {n : Nat} (hs : s.Sound) (hshort : s.len - s.off < n) :
    (s.resizeBuffer (s.len + n) = .error .overflow ∧ 2 ^ 29 < s.off + n) ∨
      ∃ s', s.resizeBuffer (s.len + n) = .ok s' ∧ s'.Sound ∧ s'.off = s.off ∧
        s.off + n ≤ s'.len ∧ s'.contents = s.contents := by
  obtain ⟨hlength, h0, hle, ⟨k, hk⟩, hmax⟩ := hs
  have hpos : 128 ≤ s.len := by
    have hpow : (0 : Int) < 2 ^ k := Int.pow_pos (by decide)
    omega
  have hfuel : intMax < s.len * 2 ^ 32 := by
    unfold intMax
    omega
  obtain ⟨hov, hbig⟩ | ⟨len', hok, hge, hgrow, hint, j, hj⟩ :=
    doubleUntil_spec (s.len + n) (by omega) hmax hfuel
  · exact .inl ⟨by rw [resizeBuffer, hov]; rfl, by omega⟩
  · have hrealloc : ((realloc s.buffer len'.toNat).length : Int) = len' := by
      simp only [realloc, List.length_append, List.length_map, List.length_range']
      omega
    have hsound : Sound { s with len := len', buffer := realloc s.buffer len'.toNat } :=
      { length_eq := hrealloc
        off_nonneg := h0
        off_le := Int.le_trans hle hgrow
        doubled := ⟨k + j, by rw [hj, hk, Int.pow_add]; ac_rfl⟩
        len_le := hint }
    have hroom : s.off + n ≤ len' := by omega
    have hoff : s.off.toNat ≤ s.buffer.length := by omega
    refine .inr ⟨_, by rw [resizeBuffer, hok]; rfl, hsound, rfl, hroom, ?_⟩
    exact List.take_append_of_le_length hoff

/-- One write to a sound buffer appends its bytes. -/
theorem appends_append (bs : Bytes) (hs : s.Sound) (hshort : short = decide (s.len - s.off < bs.length)) :
    s.Appends (s.append short bs) bs := by
  have h0 := hs.off_nonneg
  have hle := hs.off_le
  -- after the resizing, if there is one, the bytes fit
  have hreserve : (s.append short bs = .error .overflow ∧ 2 ^ 29 < s.off + bs.length) ∨
      ∃ s₁ : BuffStruct, s₁.Sound ∧ s₁.off = s.off ∧ s.off + bs.length ≤ s₁.len ∧
        s₁.contents = s.contents ∧ s.append short bs = s₁.memcpy bs := by
    by_cases hlt : s.len - s.off < bs.length
    · rw [append, hshort, decide_eq_true hlt, if_pos rfl]
      by_cases hint : s.len + bs.length ≤ intMax
      · rw [if_pos hint]
        obtain ⟨hov, hbig⟩ | ⟨s₁, hok, hs₁, hoff, hroom, hcontents⟩ := resizeBuffer_spec hs hlt
        · exact .inl ⟨by rw [hov]; rfl, hbig⟩
        · exact .inr ⟨s₁, hs₁, hoff, hroom, hcontents, by rw [hok]; rfl⟩
      · rw [if_neg hint]
        unfold intMax at hint
        exact .inl ⟨rfl, by omega⟩
    · refine .inr ⟨s, hs, rfl, by omega, rfl, ?_⟩
      rw [append, hshort, decide_eq_false hlt]
      rfl
  obtain hov | ⟨s₁, hs₁, hoff, hroom, hcontents, happend⟩ := hreserve
  · exact .inl hov
  · have hlength := hs₁.length_eq
    obtain ⟨buffer, hcopy, hbuffer, htake⟩ :=
      memcpy_spec bs hs₁.off_nonneg (by rw [hoff, hlength]; exact hroom)
    have hsound : Sound { s₁ with off := s₁.off + bs.length, buffer } :=
      { length_eq := by rw [← hlength, hbuffer]
        off_nonneg := by simp only [hoff]; omega
        off_le := by simpa only [hoff] using hroom
        doubled := hs₁.doubled
        len_le := hs₁.len_le }
    refine .inr ⟨_, happend.trans hcopy, hsound, by simp only [hoff], ?_⟩
    exact htake.trans (by rw [hcontents])

omit [Host] in
/-- Writes one after another. -/
theorem Appends.bind {r : Except ArchiveFault BuffStruct}
    {f : BuffStruct → Except ArchiveFault BuffStruct} {cs : Bytes} (hr : s.Appends r bs)
    (hf : ∀ s' : BuffStruct, s'.Sound → s'.Appends (f s') cs) : s.Appends (r >>= f) (bs ++ cs) := by
  rw [Appends, List.length_append]
  obtain ⟨rfl, hbig⟩ | ⟨s₁, rfl, hs₁, hoff₁, hcontents₁⟩ := hr
  · exact .inl ⟨rfl, by omega⟩
  · rw [Except.ok_bind]
    obtain ⟨hov, hbig⟩ | ⟨s₂, hok, hs₂, hoff₂, hcontents₂⟩ := hf s₁ hs₁
    · exact .inl ⟨hov, by omega⟩
    · refine .inr ⟨s₂, hok, hs₂, by omega, ?_⟩
      rw [hcontents₂, hcontents₁, List.append_assoc]

omit [Host] in
/-- The comparison without sign is the one with sign when the rest of the buffer is not
negative. -/
theorem ltSizeof_eq {n : Nat} (hs : s.Sound) :
    ltSizeof (s.len - s.off) n = decide (s.len - s.off < n) := by
  have h0 := hs.off_nonneg
  have hle := hs.off_le
  have hmax := hs.len_le
  have hmod : (s.len - s.off) % 2 ^ 64 = s.len - s.off := by
    unfold intMax at hmax
    exact Int.emod_eq_of_lt (by omega) (by omega)
  rw [ltSizeof, hmod]

theorem createBufferOarchive_sound : createBufferOarchive.Sound where
  length_eq := by simp [createBufferOarchive]
  off_nonneg := Int.le_refl 0
  off_le := by
    change (0 : Int) ≤ 128
    decide
  doubled := ⟨0, rfl⟩
  len_le := by
    change (128 : Int) ≤ intMax
    decide

end BuffStruct

section Refinement

variable [Host] {s : BuffStruct} {op : ArchiveOp} {ops : List ArchiveOp}

theorem appends_oaSerializeInt {d : Int32} (hs : s.Sound) :
    s.Appends (s.oaSerializeInt d) (intWire d) := by
  have h := BuffStruct.appends_append (intWire d) hs rfl
  rw [BuffStruct.oaSerializeInt, intBytes_htonl, ← intWire, BuffStruct.ltSizeof_eq hs]
  simpa using h

/-- Each call appends its bytes in the format. -/
theorem appends_exec (hs : s.Sound) : s.Appends (op.exec s) op.wire := by
  cases op with
  | int d => exact appends_oaSerializeInt hs
  | long d =>
    have h := BuffStruct.appends_append (longWire d) hs rfl
    rw [ArchiveOp.exec, BuffStruct.oaSerializeLong, longBytes_zooHtonll, ← longWire,
      BuffStruct.ltSizeof_eq hs]
    simpa [ArchiveOp.wire] using h
  | bool i => exact BuffStruct.appends_append [if i = 0 then 0 else 1] hs (by simp)
  | buffer b =>
    cases b with
    | none => exact appends_oaSerializeInt hs
    | some b =>
      exact (appends_oaSerializeInt hs).bind fun s' hs' => BuffStruct.appends_append _ hs' rfl
  | string str =>
    cases str with
    | none => exact appends_oaSerializeInt hs
    | some str =>
      exact (appends_oaSerializeInt hs).bind fun s' hs' => BuffStruct.appends_append _ hs' rfl

/-- So do calls one after another. -/
theorem appends_ops (ops : List ArchiveOp) (hs : s.Sound) : s.Appends (ops.foldlM ArchiveOp.exec s) (wire ops) := by
  induction ops generalizing s with
  | nil => exact .inr ⟨s, rfl, hs, by simp, by simp⟩
  | cons op ops ih =>
    rw [List.foldlM_cons, wire_cons]
    exact (appends_exec hs).bind fun s' hs' => ih hs'

/-- The calls on a new archive leave the bytes of the format, or these are too many. -/
theorem archiveBytes_spec (ops : List ArchiveOp) : archiveBytes ops = .ok (wire ops) ∨
    archiveBytes ops = .error .overflow ∧ 2 ^ 29 < (wire ops).length := by
  have hsound : BuffStruct.createBufferOarchive.Sound := BuffStruct.createBufferOarchive_sound
  have hoff : BuffStruct.createBufferOarchive.off = 0 := rfl
  obtain ⟨hov, hbig⟩ | ⟨s', hok, -, -, hcontents⟩ := appends_ops ops hsound
  · refine .inr ⟨by rw [archiveBytes, hov]; rfl, ?_⟩
    omega
  · have hempty : BuffStruct.createBufferOarchive.contents = [] := by
      rw [BuffStruct.contents, hoff]
      rfl
    refine .inl ?_
    rw [archiveBytes, hok, Except.ok_bind, hcontents, hempty, List.nil_append]
    rfl

/-- What an archive holds has the bytes of the format, and its length is an `int`. -/
theorem archiveBytes_eq_ok {bs : Bytes} (h : archiveBytes ops = .ok bs) :
    bs = wire ops ∧ bs.length < 2 ^ 31 := by
  have hsound : BuffStruct.createBufferOarchive.Sound := BuffStruct.createBufferOarchive_sound
  obtain ⟨hov, -⟩ | ⟨s', hok, hs', hoff, -⟩ := appends_ops ops hsound
  · rw [archiveBytes, hov] at h
    cases h
  · obtain hwire | ⟨hov, -⟩ := archiveBytes_spec ops
    · have hbs : bs = wire ops := by
        rw [hwire] at h
        exact (Except.ok.inj h).symm
      have hzero : BuffStruct.createBufferOarchive.off = 0 := rfl
      have hle := hs'.off_le
      have hmax := hs'.len_le
      unfold intMax at hmax
      rw [hbs]
      exact ⟨rfl, by omega⟩
    · rw [hov] at h
      cases h

theorem archiveBytes_of_le (h : (wire ops).length ≤ 2 ^ 29) : archiveBytes ops = .ok (wire ops) := by
  obtain hok | ⟨-, hbig⟩ := archiveBytes_spec ops
  · exact hok
  · omega

end Refinement

end QtZooKeeper
