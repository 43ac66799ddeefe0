-- SUMMARY: Labelled systems whose steps can fault: runs, invariants, and guards on the steps of a run.
import Mathlib.Data.List.Basic
import Mathlib.Data.List.Infix

/-!
# Runs of fallible systems

A fallible system takes labelled steps from one initial state; a step either
yields the next state or faults, and a fault ends the run. A run is recorded as
the list of states it left, each with the label of the step taken there.

Two induction rules are packaged here. `Run.invariant` carries a property
through every step. `Run.always_iff_each` characterises the runs that keep a
property at all times by a guard on the single steps. What depends on the past of
a run is stated with a history variable (`withHistory`).
-/

universe u v w

/-- A labelled transition system whose steps can fault with an `ε`. -/
structure FallibleSystem (σ : Type u) (ι : Type v) (ε : Type w) where
  init : σ
  enabled : ι → σ → Prop
  step : ι → σ → Except ε σ

namespace FallibleSystem

variable {σ : Type u} {ι : Type v} {ε : Type w}

/-- `S.Run tr s`: from the initial state the steps of `tr` lead to `s` without a
fault. Each entry of `tr` is a state and the label of the step taken in it. -/
inductive Run (S : FallibleSystem σ ι ε) : List (σ × ι) → σ → Prop where
  | nil : Run S [] S.init
  | snoc {tr : List (σ × ι)} {s s' : σ} {l : ι} :
      Run S tr s → S.enabled l s → S.step l s = .ok s' → Run S (tr ++ [(s, l)]) s'

/-- The states some run leads to. -/
def Reachable (S : FallibleSystem σ ι ε) (s : σ) : Prop := ∃ tr, S.Run tr s

/-- `P` holds in every state the run `tr` to `s` passes through. -/
def Always (P : σ → Prop) (tr : List (σ × ι)) (s : σ) : Prop := (∀ x ∈ tr, P x.1) ∧ P s

/-- Every step of `tr` is taken where the guard `G` allows it. -/
def Each (G : σ → ι → Prop) (tr : List (σ × ι)) : Prop := ∀ x ∈ tr, G x.1 x.2

variable {S : FallibleSystem σ ι ε} {P Q : σ → Prop} {G : σ → ι → Prop}
variable {tr : List (σ × ι)} {s s' : σ} {l : ι}

@[simp] theorem each_nil : Each G [] := by simp [Each]

@[simp] theorem each_snoc : Each G (tr ++ [(s, l)]) ↔ Each G tr ∧ G s l := by
  simp only [Each, List.mem_append, List.mem_singleton, or_imp, forall_and, forall_eq]

@[simp] theorem always_nil : Always P ([] : List (σ × ι)) s ↔ P s := by simp [Always]

@[simp] theorem always_snoc : Always P (tr ++ [(s, l)]) s' ↔ Always P tr s ∧ P s' := by
  simp only [Always, List.mem_append, List.mem_singleton, or_imp, forall_and, forall_eq]

theorem Each.mono {G' : σ → ι → Prop} (h : Each G tr) (hG : ∀ s l, G s l → G' s l) :
    Each G' tr := fun x hx => hG x.1 x.2 (h x hx)

theorem Always.mono {P' : σ → Prop} (h : Always P tr s) (hP : ∀ s, P s → P' s) : Always P' tr s :=
  ⟨fun x hx => hP x.1 (h.1 x hx), hP s h.2⟩

theorem Always.last (h : Always P tr s) : P s := h.2

/-! ## Reachability -/

theorem Reachable.step (h : S.Reachable s) (he : S.enabled l s) (hs : S.step l s = .ok s') :
    S.Reachable s' := by
  obtain ⟨tr, hr⟩ := h
  exact ⟨_, hr.snoc he hs⟩

/-- From `s` some steps lead to `s'`. -/
inductive Steps (S : FallibleSystem σ ι ε) (s : σ) : σ → Prop where
  | refl : Steps S s s
  | tail {s' s'' : σ} {l : ι} :
      Steps S s s' → S.enabled l s' → S.step l s' = .ok s'' → Steps S s s''

theorem Reachable.steps (h : S.Reachable s) (hs : S.Steps s s') : S.Reachable s' := by
  induction hs with
  | refl => exact h
  | tail _ he hstep ih => exact ih.step he hstep

/-! ## Invariants -/

/-- A property of the initial state that every step preserves holds at the end
of every run. -/
theorem Run.invariant (hinit : P S.init)
    (hstep : ∀ s l s', P s → S.enabled l s → S.step l s = .ok s' → P s')
    (h : S.Run tr s) : P s := by
  induction h with
  | nil => exact hinit
  | snoc _ he hs ih => exact hstep _ _ _ ih he hs

/-- The same for the reachable states. -/
theorem Reachable.invariant (hinit : P S.init)
    (hstep : ∀ s l s', P s → S.enabled l s → S.step l s = .ok s' → P s')
    (h : S.Reachable s) : P s := by
  obtain ⟨_, hr⟩ := h
  exact hr.invariant hinit hstep

/-- Every state a run leaves is reachable, and its step is enabled there. -/
theorem Run.reachable_of_mem (h : S.Run tr s) : ∀ x ∈ tr, S.Reachable x.1 ∧ S.enabled x.2 x.1 := by
  induction h with
  | nil => simp
  | snoc hr he _ ih =>
    intro x hx
    rcases List.mem_append.mp hx with hx | hx
    · exact ih x hx
    · rw [List.mem_singleton] at hx
      subst hx
      exact ⟨⟨_, hr⟩, he⟩

/-- What holds of all reachable states holds all along a run. -/
theorem Run.always (h : S.Run tr s) (hP : ∀ s, S.Reachable s → P s) : Always P tr s :=
  ⟨fun x hx => hP x.1 (h.reachable_of_mem x hx).1, hP s ⟨tr, h⟩⟩

/-- A guard all steps from reachable states meet is met by a run. -/
theorem Run.each (h : S.Run tr s) (hG : ∀ s l, S.Reachable s → S.enabled l s → G s l) :
    Each G tr := fun x hx => hG x.1 x.2 (h.reachable_of_mem x hx).1 (h.reachable_of_mem x hx).2

/-- Two guards that agree where a step can be taken hold of the same runs. -/
theorem Run.each_congr {G' : σ → ι → Prop} (h : S.Run tr s)
    (hG : ∀ s l, S.Reachable s → S.enabled l s → (G s l ↔ G' s l)) : Each G tr ↔ Each G' tr := by
  have hmem := h.reachable_of_mem
  constructor
  · intro hE x hx
    exact (hG x.1 x.2 (hmem x hx).1 (hmem x hx).2).mp (hE x hx)
  · intro hE x hx
    exact (hG x.1 x.2 (hmem x hx).1 (hmem x hx).2).mpr (hE x hx)

/-- What the steps preserve as long as `P` holds, holds at the end of a run that
keeps `P`. -/
theorem Run.invariant_of_always (hinit : Q S.init)
    (hstep : ∀ s l s', S.Reachable s → P s → Q s → S.enabled l s → S.step l s = .ok s' → Q s')
    (h : S.Run tr s) (hP : Always P tr s) : Q s := by
  induction h with
  | nil => exact hinit
  | snoc hr he hs ih =>
    rw [always_snoc] at hP
    exact hstep _ _ _ ⟨_, hr⟩ hP.1.last (ih hP.1) he hs

/-- If in the domain `D` the guard says exactly which steps keep the property, then
the runs in `D` that keep it all along are exactly those whose every step meets the
guard. The proviso `Q` is what a run that kept the property so far guarantees
besides. -/
theorem Run.always_iff_each_of {D : σ → ι → Prop} (hinit : P S.init)
    (hQ : ∀ tr s, S.Run tr s → Always P tr s → Q s)
    (hstep : ∀ s l s', Q s → P s → D s l → S.enabled l s → S.step l s = .ok s' → (P s' ↔ G s l))
    (h : S.Run tr s) (hD : Each D tr) : Always P tr s ↔ Each G tr := by
  induction h with
  | nil => simpa using hinit
  | @snoc tr s s' l hr he hs ih =>
    rw [each_snoc] at hD
    rw [always_snoc, each_snoc, ih hD.1]
    have hiff : Each G tr → (P s' ↔ G s l) := by
      intro hE
      have hP := (ih hD.1).mpr hE
      exact hstep s l s' (hQ tr s hr hP) hP.last hD.2 he hs
    constructor
    · intro ⟨hE, hP'⟩
      exact ⟨hE, (hiff hE).mp hP'⟩
    · intro ⟨hE, hg⟩
      exact ⟨hE, (hiff hE).mpr hg⟩

/-- The same for all runs. -/
theorem Run.always_iff_each (hinit : P S.init)
    (hQ : ∀ tr s, S.Run tr s → Always P tr s → Q s)
    (hstep : ∀ s l s', Q s → P s → S.enabled l s → S.step l s = .ok s' → (P s' ↔ G s l))
    (h : S.Run tr s) : Always P tr s ↔ Each G tr :=
  h.always_iff_each_of (D := fun _ _ => True) hinit hQ (fun s l s' hq hp _ => hstep s l s' hq hp)
    fun _ _ => trivial

/-- If every step of the run meets the guard, a property that guarded steps
preserve holds all along the run. -/
theorem Run.always_of_each (hinit : P S.init) (hQ : ∀ s, S.Reachable s → Q s)
    (hstep : ∀ s l s', Q s → P s → S.enabled l s → G s l → S.step l s = .ok s' → P s')
    (h : S.Run tr s) (hG : Each G tr) : Always P tr s := by
  induction h with
  | nil => simpa using hinit
  | snoc hr he hs ih =>
    rw [each_snoc] at hG
    have hP := ih hG.1
    rw [always_snoc]
    exact ⟨hP, hstep _ _ _ (hQ _ ⟨_, hr⟩) hP.last he hG.2 hs⟩

/-! ## Projections -/

section Projection

variable {τ : Type u} {κ : Type v} {T : FallibleSystem τ κ ε} {f : σ → τ} {g : σ → ι → κ}

/-- A trace seen through a map of the states and of the labels. -/
def mapTrace (f : σ → τ) (g : σ → ι → κ) (tr : List (σ × ι)) : List (τ × κ) :=
  tr.map fun x => (f x.1, g x.1 x.2)

/-- If every step of `S` is a step of `T` when seen through `f` and `g`, the runs
of `S` are runs of `T`. -/
theorem Run.map (hinit : f S.init = T.init)
    (hstep : ∀ s l s', S.enabled l s → S.step l s = .ok s' →
      T.enabled (g s l) (f s) ∧ T.step (g s l) (f s) = .ok (f s'))
    (h : S.Run tr s) : T.Run (mapTrace f g tr) (f s) := by
  induction h with
  | nil =>
    rw [hinit]
    exact .nil
  | @snoc tr s s' l hr he hs ih =>
    obtain ⟨he', hs'⟩ := hstep s l s' he hs
    simpa [mapTrace] using ih.snoc he' hs'

theorem Reachable.map (hinit : f S.init = T.init)
    (hstep : ∀ s l s', S.enabled l s → S.step l s = .ok s' →
      T.enabled (g s l) (f s) ∧ T.step (g s l) (f s) = .ok (f s'))
    (h : S.Reachable s) : T.Reachable (f s) := by
  obtain ⟨tr, hr⟩ := h
  exact ⟨_, hr.map hinit hstep⟩

theorem always_mapTrace {R : τ → Prop} :
    Always R (mapTrace f g tr) (f s) ↔ Always (fun s => R (f s)) tr s := by
  simp only [Always, mapTrace, List.forall_mem_map]

theorem each_mapTrace {H : τ → κ → Prop} :
    Each H (mapTrace f g tr) ↔ Each (fun s l => H (f s) (g s l)) tr := by
  simp only [Each, mapTrace, List.forall_mem_map]

end Projection

/-! ## History variables -/

section History

variable {γ : Type u} {h₀ : γ} {record : σ → ι → σ → γ → γ}

/-- `S` with a history beside its state: every step records something about the
states before and after it and about its label. -/
def withHistory (S : FallibleSystem σ ι ε) (h₀ : γ) (record : σ → ι → σ → γ → γ) :
    FallibleSystem (σ × γ) ι ε where
  init := (S.init, h₀)
  enabled l x := S.enabled l x.1
  step l x := (fun s' => (s', record x.1 l s' x.2)) <$> S.step l x.1

theorem withHistory_step {x y : σ × γ} : (S.withHistory h₀ record).step l x = .ok y ↔
    S.step l x.1 = .ok y.1 ∧ y.2 = record x.1 l y.1 x.2 := by
  obtain ⟨s', h'⟩ := y
  simp only [withHistory]
  cases hs : S.step l x.1 with
  | error e => exact iff_of_false nofun fun h => nomatch h.1
  | ok t =>
    simp only [Functor.map, Except.map, Except.ok.injEq, Prod.mk.injEq]
    constructor
    · rintro ⟨rfl, rfl⟩
      exact ⟨rfl, rfl⟩
    · rintro ⟨rfl, rfl⟩
      exact ⟨rfl, rfl⟩

/-- Without the history a run is a run of `S`. -/
theorem Run.forget {tr : List ((σ × γ) × ι)} {x : σ × γ} (h : (S.withHistory h₀ record).Run tr x) :
    S.Run (mapTrace Prod.fst (fun _ l => l) tr) x.1 :=
  h.map rfl fun _ _ _ he hs => ⟨he, (withHistory_step.mp hs).1⟩

theorem Reachable.forget {x : σ × γ} (h : (S.withHistory h₀ record).Reachable x) :
    S.Reachable x.1 := by
  obtain ⟨_, hr⟩ := h
  exact ⟨_, hr.forget⟩

/-- Every run of `S` has a history. -/
theorem Run.withHistory (h₀ : γ) (record : σ → ι → σ → γ → γ) (h : S.Run tr s) :
    ∃ tr' h', (S.withHistory h₀ record).Run tr' (s, h') ∧
      mapTrace Prod.fst (fun _ l => l) tr' = tr := by
  induction h with
  | nil => exact ⟨[], h₀, .nil, rfl⟩
  | @snoc tr s s' l hr he hs ih =>
    obtain ⟨tr', h', hr', htr⟩ := ih
    have hs' : (S.withHistory h₀ record).step l (s, h') = .ok (s', record s l s' h') :=
      withHistory_step.mpr ⟨hs, rfl⟩
    exact ⟨_, _, hr'.snoc he hs', by simpa [mapTrace] using htr⟩

instance [∀ l s, Decidable (S.enabled l s)] (l : ι) (x : σ × γ) :
    Decidable ((S.withHistory h₀ record).enabled l x) :=
  inferInstanceAs (Decidable (S.enabled l x.1))

end History

/-! ## Executing a list of labels -/

/-- Take the steps `ls` one after another, if each is enabled and none faults. -/
def execFrom (S : FallibleSystem σ ι ε) [∀ l s, Decidable (S.enabled l s)] :
    List (σ × ι) × σ → List ι → Option (List (σ × ι) × σ)
  | r, [] => some r
  | (tr, s), l :: ls =>
    if S.enabled l s then
      match S.step l s with
      | .ok s' => S.execFrom (tr ++ [(s, l)], s') ls
      | .error _ => none
    else none

/-- Execution from the initial state. -/
def exec (S : FallibleSystem σ ι ε) [∀ l s, Decidable (S.enabled l s)] (ls : List ι) :
    Option (List (σ × ι) × σ) := S.execFrom ([], S.init) ls

variable [∀ l s, Decidable (S.enabled l s)]

theorem run_of_execFrom {ls : List ι} {r : List (σ × ι) × σ} (h : S.Run tr s)
    (hx : S.execFrom (tr, s) ls = some r) : S.Run r.1 r.2 := by
  induction ls generalizing tr s with
  | nil =>
    simp only [execFrom, Option.some.injEq] at hx
    subst hx
    exact h
  | cons l ls ih =>
    simp only [execFrom] at hx
    split at hx
    · rename_i he
      split at hx
      · rename_i hs
        exact ih (h.snoc he hs) hx
      · cases hx
    · cases hx

/-- What executes is a run. -/
theorem run_of_exec {ls : List ι} {r : List (σ × ι) × σ} (hx : S.exec ls = some r) :
    S.Run r.1 r.2 := run_of_execFrom .nil hx

/-- The trace and the last state of an execution that goes through. -/
def execGet (S : FallibleSystem σ ι ε) [∀ l s, Decidable (S.enabled l s)] (ls : List ι)
    (h : (S.exec ls).isSome = true) : List (σ × ι) × σ := (S.exec ls).get h

theorem run_execGet (ls : List ι) (h : (S.exec ls).isSome = true) :
    S.Run (S.execGet ls h).1 (S.execGet ls h).2 :=
  run_of_exec (Option.some_get h).symm

theorem reachable_execGet (ls : List ι) (h : (S.exec ls).isSome = true) :
    S.Reachable (S.execGet ls h).2 :=
  ⟨_, run_execGet ls h⟩

end FallibleSystem
