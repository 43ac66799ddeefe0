-- SUMMARY: Traces of events on handles: opened, closed once, not used after the close, one open at a time.
import Mathlib.Data.List.Basic

/-!
# Typestate of handles

A trace lists events oldest first. What an event means for a handle is given by
four predicates: it opens the handle, starts to close it, ends the close, or
passes the handle to somebody. Closing may take a while, and until it has ended
the handle may still be passed on.
-/

universe u v

/-- What the events `ε` mean for the handles `η`. -/
structure Typestate (ε : Type u) (η : Type v) where
  opens : ε → η → Prop
  closes : ε → η → Prop
  ends : ε → η → Prop
  passes : ε → η → Prop

namespace Typestate

variable {ε : Type u} {η : Type v} (T : Typestate ε η) {t new : List ε} {h : η}

/-- The handle was opened. -/
def Opened (t : List ε) (h : η) : Prop := ∃ e ∈ t, T.opens e h

/-- The close of the handle was started. -/
def CloseStarted (t : List ε) (h : η) : Prop := ∃ e ∈ t, T.closes e h

/-- The close of the handle has ended. -/
def Ended (t : List ε) (h : η) : Prop := ∃ e ∈ t, T.ends e h

/-- The handle was opened and its close has not ended. -/
def IsOpen (t : List ε) (h : η) : Prop := T.Opened t h ∧ ¬ T.Ended t h

/-- No handle is closed twice. -/
def ClosedOnce (t : List ε) : Prop := t.Pairwise fun a b => ∀ h, T.closes a h → ¬ T.closes b h

/-- No handle is passed on after its close has ended. -/
def NotAfterEnd (t : List ε) : Prop := t.Pairwise fun a b => ∀ h, T.ends a h → ¬ T.passes b h

/-- Two handles are never open together. -/
def OneOpen (t : List ε) : Prop := ∀ h h', T.IsOpen t h → T.IsOpen t h' → h = h'

variable {T}

theorem opened_append : T.Opened (t ++ new) h ↔ T.Opened t h ∨ T.Opened new h := by
  simp only [Opened, List.mem_append, or_and_right, exists_or]

theorem closeStarted_append :
    T.CloseStarted (t ++ new) h ↔ T.CloseStarted t h ∨ T.CloseStarted new h := by
  simp only [CloseStarted, List.mem_append, or_and_right, exists_or]

theorem ended_append : T.Ended (t ++ new) h ↔ T.Ended t h ∨ T.Ended new h := by
  simp only [Ended, List.mem_append, or_and_right, exists_or]

theorem closedOnce_append : T.ClosedOnce (t ++ new) ↔
    T.ClosedOnce t ∧ T.ClosedOnce new ∧ ∀ b ∈ new, ∀ h, T.closes b h → ¬ T.CloseStarted t h := by
  simp only [ClosedOnce, List.pairwise_append]
  refine and_congr_right fun _ => and_congr_right fun _ => ?_
  constructor
  · intro hab b hb h hcb ⟨a, ha, hca⟩
    exact hab a ha b hb h hca hcb
  · intro hb a ha b hbn h hca hcb
    exact hb b hbn h hcb ⟨a, ha, hca⟩

theorem notAfterEnd_append : T.NotAfterEnd (t ++ new) ↔
    T.NotAfterEnd t ∧ T.NotAfterEnd new ∧ ∀ b ∈ new, ∀ h, T.passes b h → ¬ T.Ended t h := by
  simp only [NotAfterEnd, List.pairwise_append]
  refine and_congr_right fun _ => and_congr_right fun _ => ?_
  constructor
  · intro hab b hb h hpb ⟨a, ha, hea⟩
    exact hab a ha b hb h hea hpb
  · intro hb a ha b hbn h hea hpb
    exact hb b hbn h hpb ⟨a, ha, hea⟩

/-- Events that open nothing leave at most one handle open. -/
theorem OneOpen.append (ho : T.OneOpen t) (hn : ∀ h, ¬ T.Opened new h) : T.OneOpen (t ++ new) := by
  have hopen : ∀ h, T.IsOpen (t ++ new) h → T.IsOpen t h := by
    intro h ⟨hop, hend⟩
    rw [opened_append] at hop
    rw [ended_append, not_or] at hend
    exact ⟨hop.resolve_right (hn h), hend.1⟩
  intro h h' hh hh'
  exact ho h h' (hopen h hh) (hopen h' hh')

/-- Events that open a new handle leave at most one open exactly if none was open
before. -/
theorem oneOpen_append_iff {z : η} (hnew : ∀ h, T.Opened new h ↔ h = z)
    (hend : ∀ h, ¬ T.Ended new h) (hopened : ¬ T.Opened t z) (hended : ¬ T.Ended t z) :
    T.OneOpen (t ++ new) ↔ ∀ h, ¬ T.IsOpen t h := by
  have hopen : ∀ h, T.IsOpen (t ++ new) h ↔ h = z ∨ T.IsOpen t h := by
    intro h
    simp only [IsOpen, opened_append, ended_append, hnew, hend, or_false]
    constructor
    · intro ⟨hop, he⟩
      exact hop.elim (fun hop => .inr ⟨hop, he⟩) .inl
    · rintro (rfl | ⟨hop, he⟩)
      · exact ⟨.inr rfl, hended⟩
      · exact ⟨.inl hop, he⟩
  constructor
  · intro ho h hh
    have hhz := ho h z ((hopen h).mpr (.inr hh)) ((hopen z).mpr (.inl rfl))
    exact hopened (hhz ▸ hh.1)
  · intro hall h h' hh hh'
    have hz := ((hopen h).mp hh).resolve_right (hall h)
    have hz' := ((hopen h').mp hh').resolve_right (hall h')
    rw [hz, hz']

end Typestate
