-- SUMMARY: Heap objects with deferred deletion, and the faults of using a pointer to one.
import Mathlib.Logic.Function.Basic
import Mathlib.Control.Monad.Basic

/-!
# Heap objects with deferred deletion

A heap maps addresses to objects. Deleting is deferred: an object whose deletion
has been scheduled is still there, but using it any further is a fault, as is
using a null pointer or one that points nowhere. `Heap.deref` is the only way to
the contents of an object, so a function that goes through it records every such
use.
-/

universe u v w

/-! ## Sequencing in `Except` -/

theorem Except.bind_eq_ok {ε : Type u} {α β : Type v} {x : Except ε α} {f : α → Except ε β} {b : β} :
    (x >>= f) = .ok b ↔ ∃ a, x = .ok a ∧ f a = .ok b := by
  cases x <;> simp [bind, Except.bind]

@[simp] theorem Except.pure_eq_ok {ε : Type u} {α : Type v} {a b : α} :
    (pure a : Except ε α) = .ok b ↔ a = b := by
  simp [pure, Except.pure]

@[simp] theorem Except.ok_bind {ε : Type u} {α β : Type v} {a : α} {f : α → Except ε β} :
    ((.ok a : Except ε α) >>= f) = f a := rfl

@[simp] theorem Except.error_bind {ε : Type u} {α β : Type v} {e : ε} {f : α → Except ε β} :
    ((.error e : Except ε α) >>= f) = .error e := rfl

theorem Except.map_eq_ok {ε : Type u} {α β : Type v} {x : Except ε α} {f : α → β} {b : β} :
    (f <$> x) = .ok b ↔ ∃ a, x = .ok a ∧ f a = b := by
  cases x <;> simp

/-! ## Objects -/

/-- What goes wrong when a pointer is used. -/
inductive AccessFault where
  /-- The pointer is null. -/
  | null
  /-- No object was ever allocated there. -/
  | wild
  /-- The object is scheduled for deletion. -/
  | scheduled
  /-- The read runs past the end of the object. -/
  | pastEnd
  deriving DecidableEq, Repr

/-- The contents of an object and whether its deletion has been scheduled. -/
structure HeapObject (α : Type v) where
  data : α
  scheduled : Bool := false

/-- A heap: the object at each address, if one was allocated there. -/
abbrev Heap (ι : Type u) (α : Type v) : Type (max u v) := ι → Option (HeapObject α)

namespace Heap

variable {ι : Type u} {α : Type v} {h : Heap ι α} {i j : ι} {a b : α}

/-- The heap without objects. -/
def empty : Heap ι α := fun _ => none

/-- `h.Live i a`: at `i` lives an object with contents `a`, not scheduled for deletion. -/
def Live (h : Heap ι α) (i : ι) (a : α) : Prop := h i = some ⟨a, false⟩

/-- The deletion of the object at `i` has been scheduled. -/
def Scheduled (h : Heap ι α) (i : ι) : Prop := ∃ a, h i = some ⟨a, true⟩

/-- Nothing was ever allocated at `i`. -/
def Fresh (h : Heap ι α) (i : ι) : Prop := h i = none

instance [DecidableEq ι] : Decidable (h.Fresh i) :=
  match h' : h i with
  | none => .isTrue h'
  | some _ => .isFalse (by simp [Fresh, h'])

/-- Follow a pointer to a live object. -/
def deref (h : Heap ι α) : Option ι → Except AccessFault (ι × α)
  | none => .error .null
  | some i =>
    match h i with
    | none => .error .wild
    | some ⟨a, false⟩ => .ok (i, a)
    | some ⟨_, true⟩ => .error .scheduled

theorem deref_eq_ok {p : Option ι} : h.deref p = .ok (i, a) ↔ p = some i ∧ h.Live i a := by
  cases p with
  | none => simp [deref]
  | some k =>
    simp only [deref, Live, Option.some.injEq]
    split
    · next hk =>
      simp only [reduceCtorEq, false_iff, not_and]
      rintro rfl
      simp [hk]
    · next b hk =>
      simp only [Except.ok.injEq, Prod.mk.injEq]
      constructor
      · rintro ⟨rfl, rfl⟩
        exact ⟨rfl, hk⟩
      · rintro ⟨rfl, hi⟩
        rw [hk] at hi
        simpa using hi
    · next b hk =>
      simp only [reduceCtorEq, false_iff, not_and]
      rintro rfl
      simp [hk]

theorem Live.deref (hl : h.Live i a) : h.deref (some i) = .ok (i, a) := deref_eq_ok.mpr ⟨rfl, hl⟩

@[simp] theorem deref_null : h.deref none = .error .null := rfl

theorem Live.unique (h₁ : h.Live i a) (h₂ : h.Live i b) : a = b := by
  unfold Live at h₁ h₂
  rw [h₁] at h₂
  simpa using h₂

theorem Live.not_fresh (hl : h.Live i a) : ¬ h.Fresh i := by
  unfold Live at hl
  simp [Fresh, hl]

theorem Live.not_scheduled (hl : h.Live i a) : ¬ h.Scheduled i := by
  unfold Live at hl
  simp [Scheduled, hl]

theorem Fresh.not_scheduled (hf : h.Fresh i) : ¬ h.Scheduled i := by
  unfold Fresh at hf
  simp [Scheduled, hf]

/-- What was allocated is live or scheduled for deletion. -/
theorem scheduled_of_not_live (hf : ¬ h.Fresh i) (hl : ∀ a, ¬ h.Live i a) : h.Scheduled i := by
  unfold Fresh at hf
  cases hi : h i with
  | none => exact absurd hi hf
  | some o =>
    obtain ⟨a, scheduled⟩ := o
    cases scheduled with
    | false => exact absurd hi (hl a)
    | true => exact ⟨a, hi⟩

theorem Fresh.ne (hf : h.Fresh i) (hl : h.Live j a) : j ≠ i := by
  rintro rfl
  exact hl.not_fresh hf

section Update

variable [DecidableEq ι]

/-- Store `a` at `i`, as a live object. -/
def put (h : Heap ι α) (i : ι) (a : α) : Heap ι α := Function.update h i (some ⟨a, false⟩)

/-- Schedule the object at `i` for deletion. -/
def schedule (h : Heap ι α) (i : ι) : Heap ι α :=
  Function.update h i ((h i).map fun o => { o with scheduled := true })

@[simp] theorem put_self : (h.put i a) i = some ⟨a, false⟩ := by simp [put]

theorem put_of_ne (hj : j ≠ i) : (h.put i a) j = h j := by simp [put, hj]

theorem schedule_self : (h.schedule i) i = (h i).map fun o => { o with scheduled := true } := by
  simp [schedule]

theorem schedule_of_ne (hj : j ≠ i) : (h.schedule i) j = h j := by simp [schedule, hj]

theorem schedule_of_live (hl : h.Live i a) :
    h.schedule i = Function.update h i (some ⟨a, true⟩) := by
  unfold Live at hl
  simp [schedule, hl]

theorem live_put_self : (h.put i a).Live i a := by simp [Live]

theorem Live.put_of_ne (hl : h.Live j b) (hj : j ≠ i) : (h.put i a).Live j b := by
  simpa [Live, Heap.put_of_ne hj] using hl

/-- Storing keeps alive. -/
theorem Live.put (hl : h.Live j b) : ∃ c, (h.put i a).Live j c := by
  by_cases hj : j = i
  · subst hj
    exact ⟨a, live_put_self⟩
  · exact ⟨b, hl.put_of_ne hj⟩

theorem live_put : (h.put i a).Live j b ↔ (j = i ∧ b = a) ∨ (j ≠ i ∧ h.Live j b) := by
  by_cases hj : j = i
  · subst hj
    simp [Live, eq_comm]
  · simp [Live, Heap.put_of_ne hj, hj]

@[simp] theorem put_put : (h.put i a).put i b = h.put i b := by simp [put]

/-- Storing the contents an object has changes nothing. -/
theorem put_of_live (hl : h.Live i a) : h.put i a = h := by
  unfold Live at hl
  rw [put, ← hl, Function.update_eq_self]

/-- An object that is scheduled for deletion is not overwritten. -/
theorem Scheduled.put (hs : h.Scheduled j) (hi : ¬ h.Scheduled i) : (h.put i a).Scheduled j := by
  have hji : j ≠ i := by
    rintro rfl
    exact hi hs
  obtain ⟨c, hc⟩ := hs
  exact ⟨c, by rw [Heap.put_of_ne hji, hc]⟩

theorem fresh_put : (h.put i a).Fresh j ↔ j ≠ i ∧ h.Fresh j := by
  by_cases hj : j = i
  · subst hj
    simp [Fresh]
  · simp [Fresh, Heap.put_of_ne hj, hj]

@[simp] theorem fresh_schedule : (h.schedule i).Fresh j ↔ h.Fresh j := by
  by_cases hj : j = i
  · subst hj
    simp [Fresh, schedule_self]
  · simp [Fresh, Heap.schedule_of_ne hj]

theorem Scheduled.schedule (hs : h.Scheduled j) : (h.schedule i).Scheduled j := by
  obtain ⟨c, hc⟩ := hs
  by_cases hj : j = i
  · subst hj
    exact ⟨c, by simp [schedule_self, hc]⟩
  · exact ⟨c, by rw [Heap.schedule_of_ne hj, hc]⟩

theorem live_schedule : (h.schedule i).Live j b ↔ j ≠ i ∧ h.Live j b := by
  by_cases hj : j = i
  · subst hj
    simp only [Live, schedule_self, ne_eq, not_true_eq_false, false_and, iff_false]
    cases h j <;> simp
  · simp [Live, Heap.schedule_of_ne hj, hj]

end Update

end Heap
