-- SUMMARY: Integers as bytes in memory, on hosts of either byte order, and the swap to network order.
import QtZooKeeper.Base.CString
import Mathlib.Data.List.Induction
import Mathlib.Algebra.Group.Nat.Defs
import Mathlib.Algebra.Group.Int.Defs

/-!
# Byte order

The bytes of an integer in memory depend on the byte order of the host. Network
order is the big-endian one. `ByteOrder.swap` is the conversion of `htonl` and its
kin: the integer whose bytes in memory are the network order of its argument.
-/

/-- The byte order of a host. -/
inductive ByteOrder where
  | little
  | big
  deriving DecidableEq, Repr

/-- The last `w` base-256 digits of `n`, the most significant first. -/
def networkBytes : Nat → Nat → Bytes
  | 0, _ => []
  | w + 1, n => networkBytes w (n / 256) ++ [UInt8.ofNat n]

/-- The number with the base-256 digits `bs`, the most significant first. -/
def networkValue (bs : Bytes) : Nat := bs.foldl (fun n b => n * 256 + b.toNat) 0

variable {w n : Nat} {bs : Bytes} {b : UInt8} {o : ByteOrder}

@[simp] theorem length_networkBytes : (networkBytes w n).length = w := by
  induction w generalizing n with
  | zero => rfl
  | succ w ih => simp [networkBytes, ih]

@[simp] theorem networkValue_nil : networkValue [] = 0 := rfl

@[simp] theorem networkValue_concat : networkValue (bs ++ [b]) = networkValue bs * 256 + b.toNat := by
  simp [networkValue]

/-- Reading the digits back gives the number modulo what `w` bytes can hold. -/
theorem networkValue_networkBytes : networkValue (networkBytes w n) = n % 256 ^ w := by
  induction w generalizing n with
  | zero => simp [networkBytes, Nat.mod_one]
  | succ w ih =>
    have hlast : (UInt8.ofNat n).toNat = n % 256 := UInt8.toNat_ofNat'
    rw [networkBytes, networkValue_concat, ih, hlast, Nat.pow_succ, Nat.mul_comm (256 ^ w),
      Nat.mod_mul]
    omega

theorem networkBytes_networkValue (bs : Bytes) : networkBytes bs.length (networkValue bs) = bs := by
  induction bs using List.reverseRecOn with
  | nil => rfl
  | append_singleton bs b ih =>
    have hlt : b.toNat < 256 := b.toNat_lt
    have hdiv : (networkValue bs * 256 + b.toNat) / 256 = networkValue bs := by omega
    have hlast : UInt8.ofNat (networkValue bs * 256 + b.toNat) = b := by
      apply UInt8.toNat_inj.mp
      rw [UInt8.toNat_ofNat']
      omega
    rw [List.length_append, List.length_singleton, networkBytes, networkValue_concat, hdiv, ih, hlast]

theorem networkValue_lt (bs : Bytes) : networkValue bs < 256 ^ bs.length := by
  have h := networkValue_networkBytes (w := bs.length) (n := networkValue bs)
  rw [networkBytes_networkValue] at h
  rw [h]
  exact Nat.mod_lt _ (Nat.pow_pos (by decide))

namespace ByteOrder

/-- The bytes an integer of `w` bytes has in memory. -/
def bytes (o : ByteOrder) (w n : Nat) : Bytes :=
  match o with
  | little => (networkBytes w n).reverse
  | big => networkBytes w n

/-- The integer that has the bytes `bs` in memory. -/
def value (o : ByteOrder) (bs : Bytes) : Nat :=
  match o with
  | little => networkValue bs.reverse
  | big => networkValue bs

/-- The integer of `w` bytes whose bytes in memory are those of `n` in network order. -/
def swap (o : ByteOrder) (w n : Nat) : Nat := o.value (networkBytes w n)

@[simp] theorem length_bytes : (o.bytes w n).length = w := by
  cases o <;> simp [bytes]

theorem value_bytes : o.value (o.bytes w n) = n % 256 ^ w := by
  cases o with
  | little => rw [value, bytes, List.reverse_reverse, networkValue_networkBytes]
  | big => rw [value, bytes, networkValue_networkBytes]

theorem bytes_value (h : bs.length = w) : o.bytes w (o.value bs) = bs := by
  subst h
  cases o with
  | little =>
    rw [value, bytes, ← List.length_reverse, networkBytes_networkValue, List.reverse_reverse]
  | big => rw [value, bytes, networkBytes_networkValue]

theorem value_lt (o : ByteOrder) (bs : Bytes) : o.value bs < 256 ^ bs.length := by
  cases o with
  | little => simpa [value] using networkValue_lt bs.reverse
  | big => exact networkValue_lt bs

/-- In memory the swapped integer has the bytes in network order, whatever the host. -/
@[simp] theorem bytes_swap : o.bytes w (o.swap w n) = networkBytes w n :=
  bytes_value length_networkBytes

/-- Swapping the integer that has the bytes `bs` in memory reads them in network order. -/
theorem swap_value (h : bs.length = w) : o.swap w (o.value bs) = networkValue bs := by
  cases o with
  | little =>
    subst h
    have hrev := networkBytes_networkValue bs.reverse
    rw [List.length_reverse] at hrev
    rw [swap, value, value, hrev, List.reverse_reverse]
  | big =>
    subst h
    rw [swap, value, value, networkBytes_networkValue]

end ByteOrder
