-- SUMMARY: Bytes in memory and the byte strings read from them up to a terminating zero.
import Mathlib.Logic.Function.Basic
import Mathlib.Data.List.TakeWhile

/-!
# C strings in memory

A buffer is a stretch of memory whose bytes have some value before anything is
written there. Copying bytes into it changes a prefix; reading a C string from
it stops at the first zero byte and fails when the buffer holds none, where the
C program would run on into the memory behind it.
-/

/-- A byte string. -/
abbrev Bytes := List UInt8

/-- The bytes of a C string given the bytes from its start: those before the
first zero byte. -/
def Bytes.untilZero (bs : Bytes) : Bytes := bs.takeWhile (· ≠ 0)

/-- The bytes at the offsets of a buffer. -/
abbrev Memory := Nat → UInt8

namespace Memory

variable {m : Memory} {bs v : List UInt8} {n i : Nat}

/-- Copy `bs` to the start of the buffer. -/
def copy (m : Memory) (bs : Bytes) : Memory := fun i => (bs[i]?).getD (m i)

/-- The `n` bytes from offset `i` on. -/
def bytesFrom (m : Memory) : Nat → Nat → Bytes
  | _, 0 => []
  | i, n + 1 => m i :: m.bytesFrom (i + 1) n

/-- The C string at offset `i`, looking at `n` bytes at most: `none` when none
of them is zero. -/
def cStringFrom (m : Memory) : Nat → Nat → Option Bytes
  | _, 0 => none
  | i, n + 1 => if m i = 0 then some [] else (m.cStringFrom (i + 1) n).map (m i :: ·)

/-- The C string at the start of a buffer of `n` bytes. -/
def cString (m : Memory) (n : Nat) : Option Bytes := m.cStringFrom 0 n

/-- The first `n` bytes of the buffer. -/
def take (m : Memory) (n : Nat) : Bytes := m.bytesFrom 0 n

/-! ## Copying and reading back -/

theorem copy_of_lt (h : i < bs.length) : m.copy bs i = bs[i] := by simp [copy, h]

theorem copy_of_le (h : bs.length ≤ i) : m.copy bs i = m i := by
  simp [copy, List.getElem?_eq_none h]

@[simp] theorem copy_nil : m.copy [] = m := by
  funext i
  simp [copy]

@[simp] theorem length_bytesFrom : (m.bytesFrom i n).length = n := by
  induction n generalizing i with
  | zero => rfl
  | succ n ih => simp [bytesFrom, ih]

theorem getElem?_bytesFrom (k : Nat) (h : k < n) : (m.bytesFrom i n)[k]? = some (m (i + k)) := by
  induction n generalizing i k with
  | zero => omega
  | succ n ih =>
    cases k with
    | zero => simp [bytesFrom]
    | succ k =>
      simp only [bytesFrom, List.getElem?_cons_succ]
      rw [ih k (by omega)]
      congr 2
      omega

/-- Reading back as many bytes as were copied gives what was copied. -/
theorem take_copy : (m.copy bs).take bs.length = bs := by
  apply List.ext_getElem?
  intro k
  by_cases hk : k < bs.length
  · rw [take, getElem?_bytesFrom k hk, Nat.zero_add, copy_of_lt hk, List.getElem?_eq_getElem hk]
  · rw [List.getElem?_eq_none (by simpa [take] using hk), List.getElem?_eq_none (by omega)]

/-! ## Reading a C string -/

/-- The C string at `i` is `v`: its bytes are there, none of them is zero, the
byte behind them is, and all of this lies within the bytes looked at. -/
theorem cStringFrom_eq_some : m.cStringFrom i n = some v ↔
    v.length < n ∧ (∀ k, ∀ h : k < v.length, m (i + k) = v[k]) ∧ 0 ∉ v ∧ m (i + v.length) = 0 := by
  induction n generalizing i v with
  | zero => simp [cStringFrom]
  | succ n ih =>
    simp only [cStringFrom]
    cases v with
    | nil => by_cases hz : m i = 0 <;> simp [hz]
    | cons b v =>
      have hshift : ∀ k, m (i + 1 + k) = m (i + (k + 1)) := fun k => by congr 1; omega
      by_cases hz : m i = 0
      · simp only [hz, if_true, Option.some.injEq, reduceCtorEq, false_iff, not_and]
        intro _ hk hb
        exact absurd (by simpa [hz] using hk 0 (by simp)) (by simpa using fun h => hb (by simp [h]))
      · simp only [hz, if_false, Option.map_eq_some_iff, List.cons.injEq, ih, hshift]
        constructor
        · rintro ⟨w, ⟨hl, hk, hw, hend⟩, rfl, rfl⟩
          refine ⟨by simpa using hl, ?_, by simpa [eq_comm] using ⟨hz, hw⟩, by simpa using hend⟩
          intro k hk'
          cases k with
          | zero => rfl
          | succ k => simpa using hk k (by simpa using hk')
        · rintro ⟨hl, hk, hw, hend⟩
          have hb : m i = b := hk 0 (Nat.zero_lt_succ _)
          refine ⟨v, ⟨by simpa using hl, ?_, fun h => hw (List.mem_cons_of_mem _ h),
            by simpa using hend⟩, hb, rfl⟩
          intro k hk'
          exact hk (k + 1) (Nat.succ_lt_succ hk')

/-- The C string read back after copying `bs` is `bs` exactly when `bs` has no
zero byte, does not fill the buffer, and the byte behind it was zero before. -/
theorem cString_copy_eq_self :
    (m.copy bs).cString n = some bs ↔ bs.length < n ∧ 0 ∉ bs ∧ m bs.length = 0 := by
  rw [cString, cStringFrom_eq_some]
  simp only [Nat.zero_add, copy_of_le (Nat.le_refl _)]
  constructor
  · rintro ⟨hl, -, hz, hend⟩
    exact ⟨hl, hz, hend⟩
  · rintro ⟨hl, hz, hend⟩
    exact ⟨hl, fun k hk => copy_of_lt hk, hz, hend⟩

/-- The C string of a buffer is empty exactly when its first byte is zero. -/
theorem cString_eq_nil (hn : 0 < n) : m.cString n = some [] ↔ m 0 = 0 := by
  rw [cString, cStringFrom_eq_some]
  simp [hn]

end Memory
