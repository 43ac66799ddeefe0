-- SUMMARY: The input archives of recordio: reading primitives and vectors back, with every refusal.
import QtZooKeeper.Client.Archive
import QtZooKeeper.Base.Reader

/-!
# Input archives

An input archive takes primitives off the front of a packet. A primitive that is
not complete is refused, and so is a string without a length. The vectors of the
generated code are different: they drop the error of an element and hand over
what they have (`deserializeVector`).
-/

namespace QtZooKeeper

/-- Why a record is not read. -/
inductive ArchiveError where
  | e2big
  | einval
  | enomem
  /-- No error is reported, but a field the code goes on with was never set. -/
  | indeterminate
  deriving DecidableEq, Repr

abbrev IArchive := Reader ArchiveError

/-! ## Primitives -/

/-- `ia_deserialize_int` -/
def iaDeserializeInt [Host] : IArchive Int32 := do
  let count ← Reader.take 4 .e2big
  return (htonl (intValue count)).toInt32

/-- `ia_deserialize_long` -/
def iaDeserializeLong [Host] : IArchive Int64 := do
  let count ← Reader.take 8 .e2big
  return (zooHtonll (longValue count)).toInt64

/-- `ia_deserialize_bool`: the byte is a `char`, which has a sign. -/
def iaDeserializeBool : IArchive Int32 := do
  let v ← Reader.take 1 .e2big
  return (v.1.getD 0 0).toInt8.toInt32

/-- The bytes of a buffer behind its length. A negative length other than -1 is passed
to `malloc`, where it is larger than any memory. -/
def bufferBehind (len : Int32) : IArchive Buffer := do
  let left ← Reader.left
  if (left : Int) < len.toInt then Reader.fail .e2big
  else if len = -1 then return none
  else if len.toInt < 0 then Reader.fail .enomem
  else
    let buff ← Reader.take len.toInt.toNat .e2big
    return some ⟨buff.1, by have := buff.2; have := len.toInt_lt; omega⟩

/-- `ia_deserialize_buffer` -/
def iaDeserializeBuffer [Host] : IArchive Buffer := do
  let len ← iaDeserializeInt
  bufferBehind len

/-- The bytes of a string behind its length. -/
def stringBehind (len : Int32) : IArchive CharPtr := do
  let left ← Reader.left
  if (left : Int) < len.toInt then Reader.fail .e2big
  else if len.toInt < 0 then Reader.fail .einval
  else
    let s ← Reader.take len.toInt.toNat .e2big
    return some (CStr.ofBytes s.1 (by have := s.2; have := len.toInt_lt; omega))

/-- `ia_deserialize_string` -/
def iaDeserializeString [Host] : IArchive CharPtr := do
  let len ← iaDeserializeInt
  stringBehind len

/-! ## What the primitives read -/

section Laws

variable [Host] {n : Nat} {d : Int32} {bs : Bytes}

/-- `ntohl` of four bytes of a packet is the number they spell in network order. -/
theorem htonl_intValue (h : bs.length = 4) : htonl (intValue bs) = UInt32.ofNat (networkValue bs) := by
  have hlt : Host.byteOrder.value bs < 2 ^ 32 := by
    simpa [h] using ByteOrder.value_lt Host.byteOrder bs
  rw [htonl, intValue, UInt32.toNat_ofNat_of_lt' hlt, ByteOrder.swap_value h]

/-- So is `zoo_htonll` of eight. -/
theorem zooHtonll_longValue (h : bs.length = 8) :
    zooHtonll (longValue bs) = UInt64.ofNat (networkValue bs) := by
  have hinj : ∀ u v : UInt64, longBytes u = longBytes v → u = v := by
    intro u v huv
    have hval := congrArg Host.byteOrder.value huv
    simp only [longBytes, ByteOrder.value_bytes] at hval
    have hu := u.toNat_lt
    have hv := v.toNat_lt
    exact UInt64.toNat_inj.mp (by omega)
  have hnet : (UInt64.ofNat (networkValue bs)).toNat = networkValue bs :=
    UInt64.toNat_ofNat_of_lt' (by simpa [h] using networkValue_lt bs)
  apply hinj
  rw [longBytes_zooHtonll]
  cases ho : Host.byteOrder with
  | big =>
    have hlt : ByteOrder.big.value bs < 2 ^ 64 := by
      simpa [h] using ByteOrder.value_lt .big bs
    rw [longBytes, ho, ByteOrder.bytes, longValue, ho, UInt64.toNat_ofNat_of_lt' hlt, hnet,
      ByteOrder.value]
  | little =>
    have hlt : ByteOrder.little.value bs < 2 ^ 64 := by
      simpa [h] using ByteOrder.value_lt .little bs
    have hrev := networkBytes_networkValue bs.reverse
    have hbs := networkBytes_networkValue bs
    rw [List.length_reverse, h] at hrev
    rw [h] at hbs
    rw [longBytes, ho, ByteOrder.bytes, longValue, ho, UInt64.toNat_ofNat_of_lt' hlt, hnet,
      ByteOrder.value, hrev, hbs]

/-- The four bytes of an integer, swapped back. -/
theorem htonl_intWire : (htonl (intValue (intWire d))).toInt32 = d := by
  have hlt := d.toUInt32.toNat_lt
  rw [htonl_intValue length_intWire, intWire, networkValue_networkBytes, Nat.mod_eq_of_lt (by omega),
    UInt32.ofNat_toNat, Int32.toInt32_toUInt32]

theorem zooHtonll_longWire {d : Int64} : (zooHtonll (longValue (longWire d))).toInt64 = d := by
  have hlt := d.toUInt64.toNat_lt
  rw [zooHtonll_longValue length_longWire, longWire, networkValue_networkBytes,
    Nat.mod_eq_of_lt (by omega), UInt64.ofNat_toNat, Int64.toInt64_toUInt64]

theorem decodes_int : iaDeserializeInt.Decodes (intWire d) d := by
  have h := (Reader.decodes_take (e := ArchiveError.e2big) (length_intWire (d := d))).bind_pure
    (g := fun count => (htonl (intValue count.1)).toInt32)
  rw [htonl_intWire] at h
  exact h

theorem decodes_long {d : Int64} : iaDeserializeLong.Decodes (longWire d) d := by
  have h := (Reader.decodes_take (e := ArchiveError.e2big) (length_longWire (d := d))).bind_pure
    (g := fun count => (zooHtonll (longValue count.1)).toInt64)
  rw [zooHtonll_longWire] at h
  exact h

omit [Host] in
theorem decodes_bool {i : Int32} (hi : i = 0 ∨ i = 1) :
    iaDeserializeBool.Decodes [if i = 0 then 0 else 1] i := by
  have hone : ([if i = 0 then 0 else 1] : Bytes).length = 1 := rfl
  have h := (Reader.decodes_take (e := ArchiveError.e2big) hone).bind_pure
    (g := fun v => (v.1.getD 0 0).toInt8.toInt32)
  rcases hi with rfl | rfl <;> exact h

omit [Host] in
/-- With a length that is not negative, all the bytes are taken or none. -/
theorem bufferBehind_eq (hn : d.toInt = n) : bufferBehind d = (do
    let buff ← Reader.take n .e2big
    return some ⟨buff.1, by have := buff.2; have := d.toInt_lt; omega⟩) := by
  obtain rfl : n = d.toInt.toNat := by omega
  funext bs
  have hnull : d ≠ -1 := by
    rintro rfl
    cases hn
  rw [bufferBehind, Reader.bind_of_ok Reader.left_apply]
  by_cases hlt : (bs.length : Int) < d.toInt
  · rw [if_pos hlt, Reader.fail_apply, Reader.bind_of_error (Reader.take_of_lt (by omega))]
  · rw [if_neg hlt, if_neg hnull, if_neg (by omega)]

omit [Host] in
theorem stringBehind_eq (hn : d.toInt = n) : stringBehind d = (do
    let s ← Reader.take n .e2big
    return some (CStr.ofBytes s.1 (by have := s.2; have := d.toInt_lt; omega))) := by
  obtain rfl : n = d.toInt.toNat := by omega
  funext bs
  rw [stringBehind, Reader.bind_of_ok Reader.left_apply]
  by_cases hlt : (bs.length : Int) < d.toInt
  · rw [if_pos hlt, Reader.fail_apply, Reader.bind_of_error (Reader.take_of_lt (by omega))]
  · rw [if_neg hlt, if_neg (by omega)]

theorem decodes_buffer {b : Buffer} : iaDeserializeBuffer.Decodes (ArchiveOp.buffer b).wire b := by
  cases b with
  | none =>
    have hnull : (bufferBehind (-1)).Decodes [] none := by
      intro rest
      have hneg : ¬ (rest.length : Int) < (-1 : Int32).toInt := by
        change ¬ (rest.length : Int) < -1
        omega
      rw [bufferBehind, Reader.bind_of_ok Reader.left_apply, List.nil_append, if_neg hneg]
      rfl
    simpa [ArchiveOp.wire, iaDeserializeBuffer] using decodes_int.bind hnull
  | some b =>
    obtain ⟨bs, hlt⟩ := b
    refine decodes_int.bind ?_
    rw [bufferBehind_eq (Int32.toInt_ofNat_of_lt hlt)]
    exact (Reader.decodes_take rfl).bind_pure

theorem decodes_string {s : CStr} :
    iaDeserializeString.Decodes (ArchiveOp.string (some s)).wire (some s) := by
  have hlt : ∀ bs : {bs : Bytes // bs.length = s.bytes.length}, bs.1.length < 2 ^ 31 := fun bs =>
    bs.2.trans_lt s.length_lt
  have hlen : s.bytes.length = s.bytes.length := rfl
  have h := (Reader.decodes_take (e := ArchiveError.e2big) hlen).bind_pure
    (g := fun bs => some (CStr.ofBytes bs.1 (hlt bs)))
  rw [s.ofBytes_bytes] at h
  refine decodes_int.bind ?_
  rw [stringBehind_eq (Int32.toInt_ofNat_of_lt s.length_lt)]
  exact h

/-! ## More input -/

theorem stable_int : iaDeserializeInt.Stable := Reader.stable_take.bind fun _ => Reader.stable_pure

theorem stable_long : iaDeserializeLong.Stable := Reader.stable_take.bind fun _ => Reader.stable_pure

omit [Host] in
/-- A negative length is not compared with what is left. -/
theorem bufferBehind_neg (hneg : d.toInt < 0) :
    bufferBehind d = if d = -1 then pure none else Reader.fail .enomem := by
  funext bs
  rw [bufferBehind, Reader.bind_of_ok Reader.left_apply, if_neg (by omega)]
  by_cases hnull : d = -1
  · rw [if_pos hnull, if_pos hnull]
  · rw [if_neg hnull, if_neg hnull, if_pos hneg]

omit [Host] in
theorem stringBehind_neg (hneg : d.toInt < 0) : stringBehind d = Reader.fail .einval := by
  funext bs
  rw [stringBehind, Reader.bind_of_ok Reader.left_apply, if_neg (by omega), if_pos hneg]

theorem stable_buffer : iaDeserializeBuffer.Stable := by
  refine stable_int.bind fun d => ?_
  by_cases hneg : d.toInt < 0
  · rw [bufferBehind_neg hneg]
    split
    · exact Reader.stable_pure
    · exact Reader.stable_fail
  · rw [bufferBehind_eq (n := d.toInt.toNat) (by omega)]
    exact Reader.stable_take.bind fun _ => Reader.stable_pure

theorem stable_string : iaDeserializeString.Stable := by
  refine stable_int.bind fun d => ?_
  by_cases hneg : d.toInt < 0
  · rw [stringBehind_neg hneg]
    exact Reader.stable_fail
  · rw [stringBehind_eq (n := d.toInt.toNat) (by omega)]
    exact Reader.stable_take.bind fun _ => Reader.stable_pure

end Laws

end QtZooKeeper
