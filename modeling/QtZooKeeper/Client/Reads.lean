-- SUMMARY: How the C client hands the data of a znode to a reader: by pointer and length, or through a buffer.
import QtZooKeeper.Client.Codes
import Mathlib.Data.List.TakeDrop

/-!
# Reading the data of a znode

The server answers a read with a byte string or with null data, which travels
as the length -1. An asynchronous reader gets pointer and length. A synchronous
reader passes a buffer and its size; `process_sync_completion` copies at most
that many bytes and reports the length, but leaves the buffer as it is when the
data is null or the read failed.
-/

namespace QtZooKeeper

/-- `struct buffer` of the answer: `none` is null data, with the length -1. -/
abbrev ZnodeData := Option QByteArray

/-- `len` of a `struct buffer`. -/
def ZnodeData.len : ZnodeData → Int
  | none => -1
  | some v => v.length

/-- `buff_len` after `process_sync_completion` (`COMPLETION_DATA`) with `rc` zero, for a
buffer of `size` bytes. -/
def syncLen (size : Nat) (data : ZnodeData) : Int :=
  if data.len ≤ size then data.len else size

/-- What it copies to the buffer: nothing for null data, where only the pointer to the
buffer is overwritten. -/
def syncData (size : Nat) (data : ZnodeData) : ZnodeData :=
  if syncLen size data = -1 then none else some ((data.getD []).take (syncLen size data).toNat)

theorem syncLen_some {size : Nat} {v : QByteArray} :
    syncLen size (some v) = (v.take size).length := by
  rw [List.length_take]
  simp only [syncLen, ZnodeData.len, Int.ofNat_le]
  by_cases hle : v.length ≤ size
  · rw [if_pos hle, Nat.min_eq_right hle]
  · rw [if_neg hle, Nat.min_eq_left (Nat.le_of_not_le hle)]

theorem syncData_none {size : Nat} : syncData size none = none := by
  have hle : (-1 : Int) ≤ size := by omega
  rw [syncData, syncLen, ZnodeData.len, if_pos hle, if_pos rfl]

/-- As much of the data as fits. -/
theorem syncData_some {size : Nat} {v : QByteArray} : syncData size (some v) = some (v.take size) := by
  have hne : ¬ ((v.take size).length : Int) = -1 := by omega
  have htake : v.take (v.take size).length = v.take size := by
    rw [List.length_take, ← List.take_eq_take_min]
  rw [syncData, syncLen_some, if_neg hne, Int.toNat_natCast, Option.getD_some, htake]

/-- The `QByteArray(p, n)` constructor on a buffer of `size` bytes: exactly `n`
bytes, or for a negative `n` the bytes up to the first zero byte. `none` when it
reads past the buffer. -/
def qByteArray (p : Memory) (size : Nat) (n : Int) : Option QByteArray :=
  if n < 0 then p.cString size
  else if n ≤ size then some (p.take n.toNat)
  else none

/-- The arguments and the answer of one synchronous read: the previous contents
of the reader's stack buffer, the result code, and the data of the znode. -/
structure SyncRead where
  stack : Memory
  rc : Int
  data : ZnodeData

namespace SyncRead

/-- `int len = 65535; char buffer[65535];` of every synchronous reader. -/
def bufferSize : Nat := 65535

/-- `buff_len` after `process_sync_completion`. -/
def buffLen (r : SyncRead) : Int :=
  if r.rc = 0 then syncLen bufferSize r.data else bufferSize

/-- The buffer after `process_sync_completion`, which an error leaves as it is. -/
def buffer (r : SyncRead) : Memory :=
  if r.rc = 0 then
    match syncData bufferSize r.data with
    | none => r.stack
    | some v => r.stack.copy v
  else r.stack

/-- `QByteArray(buffer, len)` after the read. -/
def value (r : SyncRead) : Option QByteArray := qByteArray r.buffer bufferSize r.buffLen

/-- `QByteArray(buffer)` after the read. -/
def text (r : SyncRead) : Option QByteArray := r.buffer.cString bufferSize

/-- The error the reader sees. -/
def error (r : SyncRead) : ZooKeeperError := .ofInt r.rc

end SyncRead

/-- `QByteArray(value, value_len)` in a completion: null data gives an empty
array, and so does the null pointer of a failed read. -/
def completionValue (data : ZnodeData) : QByteArray := data.getD []

/-! ## What a synchronous read yields -/

namespace SyncRead

variable {stack : Memory} {data : ZnodeData} {v : QByteArray} {rc : Int} {r : SyncRead}

theorem buffLen_null : (SyncRead.mk stack 0 none).buffLen = -1 := by
  simp [buffLen, syncLen, ZnodeData.len, bufferSize]

theorem buffLen_data : (SyncRead.mk stack 0 (some v)).buffLen = (v.take bufferSize).length := by
  rw [buffLen, if_pos rfl, syncLen_some]

theorem buffer_null : (SyncRead.mk stack 0 none).buffer = stack := by
  rw [buffer, if_pos rfl, syncData_none]

theorem buffer_data : (SyncRead.mk stack 0 (some v)).buffer = stack.copy (v.take bufferSize) := by
  rw [buffer, if_pos rfl, syncData_some]

theorem buffer_failed (hrc : rc ≠ 0) : (SyncRead.mk stack rc data).buffer = stack := by
  simp [buffer, hrc]

/-- With the reported length the reader gets as much of the data as fits. -/
theorem value_data : (SyncRead.mk stack 0 (some v)).value = some (v.take bufferSize) := by
  have hneg : ¬ ((v.take bufferSize).length : Int) < 0 := by omega
  have hle : ((v.take bufferSize).length : Int) ≤ bufferSize := by
    rw [List.length_take]
    omega
  rw [value, buffer_data, buffLen_data, qByteArray, if_neg hneg, if_pos hle, Int.toNat_natCast,
    Memory.take_copy]

/-- Null data has the length -1, which makes the reader look for a zero byte in
the buffer nobody wrote to. -/
theorem value_null : (SyncRead.mk stack 0 none).value = stack.cString bufferSize := by
  rw [value, buffer_null, buffLen_null, qByteArray, if_pos (by decide)]

theorem value_eq_data_iff :
    (SyncRead.mk stack 0 (some v)).value = some v ↔ v.length ≤ bufferSize := by
  rw [value_data, Option.some.injEq]
  exact List.take_eq_self_iff v

/-- The data fits into the buffer; or it is null, and the buffer starts with a zero
byte. -/
def Fits (r : SyncRead) : Prop :=
  match r.data with
  | some v => v.length ≤ bufferSize
  | none => r.stack 0 = 0

instance : Decidable r.Fits := by
  unfold Fits
  split <;> infer_instance

/-- A successful read with the reported length yields the data, as the asynchronous
one does, exactly when it fits. -/
theorem value_eq_iff_fits (hrc : r.rc = 0) : r.value = some (completionValue r.data) ↔ r.Fits := by
  obtain ⟨stack, rc, data⟩ := r
  obtain rfl : rc = 0 := hrc
  cases data with
  | some v => exact value_eq_data_iff
  | none =>
    rw [value_null]
    exact Memory.cString_eq_nil (by decide)

/-- The callback gets the data exactly when it is shorter than the buffer, has no
zero byte, and the byte behind it in the buffer happens to be zero. -/
theorem text_eq_data_iff : (SyncRead.mk stack 0 (some v)).text = some v ↔
    v.length < bufferSize ∧ 0 ∉ v ∧ stack v.length = 0 := by
  rw [text, buffer_data]
  constructor
  · intro h
    have hlen := (Memory.cStringFrom_eq_some.mp h).1
    rw [List.take_of_length_le hlen.le] at h
    exact Memory.cString_copy_eq_self.mp h
  · intro h
    rw [List.take_of_length_le h.1.le]
    exact Memory.cString_copy_eq_self.mpr h

theorem text_unwritten (hb : (SyncRead.mk stack rc data).buffer = stack) :
    (SyncRead.mk stack rc data).text = some [] ↔ stack 0 = 0 := by
  rw [text, hb]
  exact Memory.cString_eq_nil (by decide)

end SyncRead

end QtZooKeeper
