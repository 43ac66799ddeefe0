-- SUMMARY: Tables of chains: where an element is, and what changing one chain does to the elements as a whole.
import Mathlib.Data.List.Perm.Basic

/-!
# Chains

A hash table with chaining is a list of chains, and each element has one place in it. A
change of one chain is seen on the elements of all chains together as a change of that
chain's part of them (`flatten_modify`), and putting elements into an empty table one by one
only reorders them (`flatten_redistribute`).
-/

universe u

namespace Chains

variable {α : Type u} {place : α → Nat} {t : List (List α)} {as : List α} {a : α} {i n : Nat}

/-- Every element is in the chain where it is looked for. -/
def Placed (place : α → Nat) (t : List (List α)) : Prop := ∀ i, ∀ a ∈ t.getD i [], place a = i

/-- Put an element in front of a chain. -/
def push (t : List (List α)) (i : Nat) (a : α) : List (List α) := t.modify i (a :: ·)

/-- Put elements into `n` chains, one after the other. -/
def redistribute (place : α → Nat) (n : Nat) (as : List α) : List (List α) :=
  as.foldl (fun t a => push t (place a) a) (List.replicate n [])

/-- The elements of all other chains stay. -/
theorem flatten_modify (hi : i < t.length) : ∃ others, t.flatten.Perm (t.getD i [] ++ others) ∧
    ∀ f : List α → List α, (t.modify i f).flatten.Perm (f (t.getD i []) ++ others) := by
  have hget : t.getD i [] = t[i] := by simp [hi]
  have hsplit : ∀ chain : List α,
      (t.take i ++ chain :: t.drop (i + 1)).flatten.Perm
        (chain ++ ((t.take i).flatten ++ (t.drop (i + 1)).flatten)) := fun chain => by
    rw [List.flatten_append, List.flatten_cons]
    exact List.perm_append_comm_assoc _ _ _
  refine ⟨(t.take i).flatten ++ (t.drop (i + 1)).flatten, ?_, fun f => ?_⟩
  · have h := hsplit t[i]
    rwa [← List.drop_eq_getElem_cons hi, List.take_append_drop, ← hget] at h
  · rw [List.modify_eq_take_cons_drop hi, hget]
    exact hsplit (f t[i])

theorem length_push : (push t i a).length = t.length := List.length_modify ..

theorem flatten_push (hi : i < t.length) : (push t i a).flatten.Perm (a :: t.flatten) := by
  obtain ⟨others, ht, hmodify⟩ := flatten_modify hi
  exact (hmodify (a :: ·)).trans (ht.symm.cons a)

theorem getD_modify {f : List α → List α} (hi : i < t.length) (j : Nat) :
    (t.modify i f).getD j [] = if j = i then f (t.getD i []) else t.getD j [] := by
  rw [List.getD_eq_getElem?_getD, List.getElem?_modify]
  by_cases hj : i = j
  · subst hj
    simp [hi]
  · simp [hj, Ne.symm hj, List.getD_eq_getElem?_getD]

theorem Placed.modify {f : List α → List α} (h : Placed place t) (hi : i < t.length)
    (hf : ∀ a ∈ f (t.getD i []), place a = i) : Placed place (t.modify i f) := by
  intro j a ha
  rw [getD_modify hi] at ha
  split at ha
  · next hj => rw [hf a ha, hj]
  · exact h j a ha

theorem Placed.push (h : Placed place t) (hi : place a < t.length) :
    Placed place (push t (place a) a) := by
  refine h.modify hi fun b hb => ?_
  obtain rfl | hb := List.mem_cons.mp hb
  · rfl
  · exact h _ b hb

/-- An element is in the table if it is in its chain. -/
theorem Placed.mem_flatten (h : Placed place t) : a ∈ t.flatten ↔ a ∈ t.getD (place a) [] := by
  rw [List.mem_flatten]
  constructor
  · rintro ⟨chain, hchain, ha⟩
    obtain ⟨i, hi, rfl⟩ := List.getElem_of_mem hchain
    have hget : t.getD i [] = t[i] := by simp [hi]
    rw [h i a (hget ▸ ha), hget]
    exact ha
  · intro ha
    by_cases hi : place a < t.length
    · have hget : t.getD (place a) [] = t[place a] := by simp [hi]
      exact ⟨_, List.getElem_mem hi, hget ▸ ha⟩
    · rw [List.getD_eq_getElem?_getD, List.getElem?_eq_none (by omega)] at ha
      cases ha

theorem placed_replicate : Placed place (List.replicate n []) := by
  intro i a ha
  have hnil : (List.replicate n ([] : List α)).getD i [] = [] := by
    rw [List.getD_eq_getElem?_getD, List.getElem?_replicate]
    split <;> rfl
  rw [hnil] at ha
  cases ha

section Redistribute

theorem foldl_push (h : Placed place t) (hlt : ∀ a ∈ as, place a < t.length) :
    let t' := as.foldl (fun t a => push t (place a) a) t
    t'.length = t.length ∧ Placed place t' ∧ t'.flatten.Perm (as ++ t.flatten) := by
  induction as generalizing t with
  | nil => exact ⟨rfl, h, .refl _⟩
  | cons a as ih =>
    have ha : place a < t.length := hlt a (by simp)
    obtain ⟨hlength, hplaced, hperm⟩ := ih (h.push ha) fun b hb => by
      rw [length_push]
      exact hlt b (by simp [hb])
    refine ⟨hlength.trans length_push, hplaced, ?_⟩
    exact (hperm.trans ((flatten_push ha).append_left as)).trans List.perm_middle

variable (hlt : ∀ a ∈ as, place a < n)
include hlt

theorem redistribute_spec : (redistribute place n as).length = n ∧
    Placed place (redistribute place n as) ∧ (redistribute place n as).flatten.Perm as := by
  have h := foldl_push placed_replicate (fun a ha => by rw [List.length_replicate]; exact hlt a ha)
  rw [List.length_replicate, List.flatten_replicate_nil, List.append_nil] at h
  exact h

end Redistribute

end Chains
