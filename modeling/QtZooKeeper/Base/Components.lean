-- SUMMARY: Systems made of independent components: restricting and reordering runs.
import QtZooKeeper.Base.Runs
import Mathlib.Data.List.Basic
import Mathlib.Data.List.Forall2
import Mathlib.Data.List.Nodup

/-!
# Independent components

A system may consist of components that have nothing to do with each other: every
label has a subject, a step depends on the component of its subject and changes no
other. What keeps the components apart is not quite the state alone, since new
objects take names from one supply; a label says which names it may use.

For such a system, the steps of a run that have one subject are a run of their own
with the same outcome for that component (`leads_about`), runs with the same steps
for every subject have the same outcome (`same_of_about_eq`), and the steps can be
taken in any other order that leaves those of each subject in theirs (`reorder`). A
name that a step might have used but did not may stand in the way of the other order;
it can be exchanged for another one (`Renames.reorder`).
-/

universe u v w

namespace FallibleSystem

variable {σ : Type u} {ι : Type v} {ε : Type w} {S : FallibleSystem σ ι ε}

/-! ## Runs from a state -/

/-- `S.Leads s ls s'`: from `s` the steps `ls` lead to `s'` without a fault. -/
inductive Leads (S : FallibleSystem σ ι ε) (s : σ) : List ι → σ → Prop where
  | nil : Leads S s [] s
  | snoc {ls : List ι} {s' s'' : σ} {l : ι} :
      Leads S s ls s' → S.enabled l s' → S.step l s' = .ok s'' → Leads S s (ls ++ [l]) s''

section Leads

variable {s s' s'' : σ} {ls ls' : List ι} {l : ι}

theorem leads_nil : S.Leads s [] s' ↔ s' = s := by
  constructor
  · intro h
    generalize hls : ([] : List ι) = ls at h
    cases h with
    | nil => rfl
    | snoc _ _ _ => simp at hls
  · rintro rfl
    exact .nil

theorem leads_snoc : S.Leads s (ls ++ [l]) s'' ↔
    ∃ s', S.Leads s ls s' ∧ S.enabled l s' ∧ S.step l s' = .ok s'' := by
  constructor
  · intro h
    generalize hls : ls ++ [l] = ks at h
    cases h with
    | nil => simp at hls
    | @snoc ks s' _ k h he hs =>
      obtain ⟨rfl, hl⟩ := List.append_inj' hls rfl
      cases hl
      exact ⟨s', h, he, hs⟩
  · rintro ⟨s', h, he, hs⟩
    exact h.snoc he hs

theorem Reachable.leads (h : S.Reachable s) (hl : S.Leads s ls s') : S.Reachable s' := by
  induction hl with
  | nil => exact h
  | snoc _ he hs ih => exact ih.step he hs

/-- Steps have one outcome. -/
theorem Leads.unique (h : S.Leads s ls s') (h' : S.Leads s ls s'') : s' = s'' := by
  induction h generalizing s'' with
  | nil => exact (leads_nil.mp h').symm
  | snoc _ _ hs ih =>
    obtain ⟨t, ht, -, hs'⟩ := leads_snoc.mp h'
    obtain rfl := ih ht
    exact Except.ok.inj (hs.symm.trans hs')

/-- The first steps lead somewhere. -/
theorem Leads.of_append (h : S.Leads s (ls ++ ls') s') : ∃ t, S.Leads s ls t := by
  induction ls' using List.reverseRecOn generalizing s' with
  | nil => exact ⟨s', by rwa [List.append_nil] at h⟩
  | append_singleton ls' l ih =>
    rw [← List.append_assoc] at h
    obtain ⟨t, ht, -, -⟩ := leads_snoc.mp h
    exact ih ht

theorem Leads.execFrom [∀ l s, Decidable (S.enabled l s)] {tr : List (σ × ι)}
    {r : List (σ × ι) × σ} (h : S.Leads s ls s') (hx : S.execFrom (tr, s') ls' = some r) :
    S.Leads s (ls ++ ls') r.2 := by
  induction ls' generalizing ls tr s' with
  | nil =>
    cases hx
    rwa [List.append_nil]
  | cons l ls' ih =>
    simp only [FallibleSystem.execFrom] at hx
    split at hx
    · next he =>
      split at hx
      · next hs =>
        have hrest := ih (h.snoc he hs) hx
        rwa [List.append_assoc] at hrest
      · cases hx
    · cases hx

/-- What executes from a state leads on from there. -/
theorem leads_of_execFrom [∀ l s, Decidable (S.enabled l s)] {tr : List (σ × ι)}
    {r : List (σ × ι) × σ} (hx : S.execFrom (tr, s) ls = some r) : S.Leads s ls r.2 :=
  Leads.execFrom .nil hx

end Leads

/-! ## Components -/

/-- A division of a system into components `κ`, for the labels that are `local_`.
`same k` relates states with the same component `k`; `used` are the names in use, and
`names l` those a step with the label `l` may bring into use. -/
structure Components (S : FallibleSystem σ ι ε) (κ : Type) (α : Type) where
  local_ : ι → Prop
  subject : ι → κ
  same : κ → σ → σ → Prop
  used : σ → α → Prop
  names : ι → List α
  equivalence : ∀ k, Equivalence (same k)
  room : ∀ {l s}, local_ l → S.enabled l s → ∀ a ∈ names l, ¬ used s a
  keeps : ∀ {l s s'}, S.Reachable s → local_ l → S.enabled l s → S.step l s = .ok s' →
    ∀ a, used s a → used s' a
  grows : ∀ {l s s'}, S.Reachable s → local_ l → S.enabled l s → S.step l s = .ok s' →
    ∀ a, used s' a → used s a ∨ a ∈ names l
  /-- A step does the same in states with the same component. -/
  step : ∀ {l s s' t}, S.Reachable s → S.Reachable t → local_ l → same (subject l) s t →
    S.enabled l s → S.step l s = .ok s' → (∀ a ∈ names l, ¬ used t a) →
    S.enabled l t ∧ ∃ t', S.step l t = .ok t' ∧ same (subject l) s' t' ∧
      ∀ a, used t' a → used t a ∨ used s' a
  /-- It leaves the other components alone. -/
  other : ∀ {l s s' k}, S.Reachable s → local_ l → S.enabled l s → S.step l s = .ok s' →
    k ≠ subject l → same k s s'

namespace Components

variable {κ α : Type} [DecidableEq κ] {C : Components S κ α}
variable {s s' t : σ} {ls ls' : List ι} {k : κ}

/-- The steps about one component. -/
def about (C : Components S κ α) (k : κ) (ls : List ι) : List ι :=
  ls.filter fun l => C.subject l = k

theorem about_append : C.about k (ls ++ ls') = C.about k ls ++ C.about k ls' :=
  List.filter_append ..

/-- The steps about one component are a run with the same outcome for it, and it
uses no further names. -/
theorem leads_about (hs : S.Reachable s) (h : S.Leads s ls s') (hl : ∀ l ∈ ls, C.local_ l) (k : κ) :
    ∃ t, S.Leads s (C.about k ls) t ∧ C.same k s' t ∧ ∀ a, C.used t a → C.used s' a := by
  induction h with
  | nil => exact ⟨s, .nil, (C.equivalence k).refl s, fun _ ha => ha⟩
  | @snoc ls s' s'' l h he hstep ih =>
    rw [List.forall_mem_append] at hl
    obtain ⟨hls, hlast⟩ := hl
    have hlocal : C.local_ l := hlast l (List.mem_singleton_self l)
    obtain ⟨t, ht, hsame, hused⟩ := ih hls
    have hs' := hs.leads h
    have hkeeps := C.keeps hs' hlocal he hstep
    rw [about_append]
    by_cases hk : C.subject l = k
    · subst hk
      have hroom : ∀ a ∈ C.names l, ¬ C.used t a := fun a ha hat =>
        C.room hlocal he a ha (hused a hat)
      obtain ⟨he', t', hstep', hsame', hused'⟩ :=
        C.step hs' (hs.leads ht) hlocal hsame he hstep hroom
      have habout : C.about (C.subject l) [l] = [l] := by simp [about]
      rw [habout]
      refine ⟨t', ht.snoc he' hstep', hsame', ?_⟩
      intro a ha
      rcases hused' a ha with hat | has
      · exact hkeeps a (hused a hat)
      · exact has
    · have habout : C.about k [l] = [] := by simp [about, hk]
      rw [habout, List.append_nil]
      have hother := C.other hs' hlocal he hstep (Ne.symm hk)
      refine ⟨t, ht, (C.equivalence k).trans ((C.equivalence k).symm hother) hsame, ?_⟩
      exact fun a ha => hkeeps a (hused a ha)

/-- Runs with the same steps about a component have the same outcome for it. -/
theorem same_of_about_eq (hs : S.Reachable s) (h : S.Leads s ls s') (h' : S.Leads s ls' t)
    (hl : ∀ l ∈ ls, C.local_ l) (hl' : ∀ l ∈ ls', C.local_ l) (hk : C.about k ls' = C.about k ls) :
    C.same k s' t := by
  obtain ⟨u, hu, hsame, -⟩ := leads_about hs h hl k
  obtain ⟨u', hu', hsame', -⟩ := leads_about hs h' hl' k
  rw [hk] at hu'
  obtain rfl := hu.unique hu'
  exact (C.equivalence k).trans hsame ((C.equivalence k).symm hsame')

/-- The names of the steps are distinct, and not in use at the start. -/
structure OwnNames (C : Components S κ α) (s : σ) (ls : List ι) : Prop where
  nodup : (ls.flatMap C.names).Nodup
  unused : ∀ a ∈ ls.flatMap C.names, ¬ C.used s a

omit [DecidableEq κ] in
/-- The names in use after some steps are old ones or theirs. -/
theorem used_of_leads (hs : S.Reachable s) (h : S.Leads s ls s') (hl : ∀ l ∈ ls, C.local_ l) :
    ∀ a, C.used s' a → C.used s a ∨ a ∈ ls.flatMap C.names := by
  induction h with
  | nil => exact fun a ha => .inl ha
  | @snoc ls s' s'' l h he hstep ih =>
    rw [List.forall_mem_append] at hl
    intro a ha
    rw [List.flatMap_append, List.mem_append]
    rcases C.grows (hs.leads h) (hl.2 l (List.mem_singleton_self l)) he hstep a ha with ha | ha
    · exact (ih hl.1 a ha).imp_right .inl
    · exact .inr (.inr (by simpa using ha))

omit [DecidableEq κ] in
/-- Names in use stay in use. -/
theorem used_mono (hs : S.Reachable s) (h : S.Leads s ls s') (hl : ∀ l ∈ ls, C.local_ l) {a : α}
    (ha : C.used s a) : C.used s' a := by
  induction h with
  | nil => exact ha
  | snoc h he hstep ih =>
    rw [List.forall_mem_append] at hl
    exact C.keeps (hs.leads h) (hl.2 _ (List.mem_singleton_self _)) he hstep a (ih hl.1)

/-- The same steps about every component are the same steps altogether. -/
theorem perm_of_about_eq (habout : ∀ k, C.about k ls' = C.about k ls) : ls'.Perm ls := by
  classical
  rw [List.perm_iff_count]
  intro l
  have hcount : ∀ ks, (C.about (C.subject l) ks).count l = ks.count l := fun ks =>
    List.count_filter (by simp)
  rw [← hcount, habout, hcount]

omit [DecidableEq κ] in
theorem OwnNames.perm (h : C.OwnNames s ls) (hp : ls'.Perm ls) : C.OwnNames s ls' := by
  have hnames := hp.flatMap_right C.names
  exact ⟨hnames.nodup_iff.mpr h.nodup, fun a ha => h.unused a (hnames.mem_iff.mp ha)⟩

/-- The steps of a run can be taken in any order that leaves the steps about each
component in theirs, with the same outcome for every component. -/
theorem reorder (hs : S.Reachable s) (h : S.Leads s ls s') (hl : ∀ l ∈ ls, C.local_ l)
    (hown : C.OwnNames s ls) (habout : ∀ k, C.about k ls' = C.about k ls) :
    ∃ t, S.Leads s ls' t ∧ ∀ k, C.same k s' t := by
  have hperm := perm_of_about_eq habout
  have hl' : ∀ l ∈ ls', C.local_ l := fun l hmem => hl l (hperm.mem_iff.mp hmem)
  have hnames := hown.perm hperm
  -- every prefix of the new order can be taken
  have hprefix : ∀ ks rest, ls' = ks ++ rest → ∃ u, S.Leads s ks u := by
    intro ks
    induction ks using List.reverseRecOn with
    | nil => exact fun _ _ => ⟨s, .nil⟩
    | append_singleton ks l ih =>
      intro rest hls'
      rw [List.append_assoc, List.singleton_append] at hls'
      obtain ⟨u, hu⟩ := ih (l :: rest) hls'
      have hks : ∀ m ∈ ks, C.local_ m := fun m hm => hl' m (by simp [hls', hm])
      have hlocal : C.local_ l := hl' l (by simp [hls'])
      have hroom : ∀ a ∈ C.names l, ¬ C.used u a := by
        intro a ha hused
        have hnodup := hnames.nodup
        have hunused := hnames.unused a
        rw [hls', List.flatMap_append, List.flatMap_cons] at hnodup hunused
        rcases used_of_leads hs hu hks a hused with hold | hearlier
        · exact hunused (by simp [ha]) hold
        · exact (List.nodup_append.mp hnodup).2.2 a hearlier a (by simp [ha]) rfl
      -- the component of `l` is as in the original order
      obtain ⟨v, hv, -, -⟩ := leads_about hs h hl (C.subject l)
      have hsplit : C.about (C.subject l) ls =
          C.about (C.subject l) ks ++ [l] ++ C.about (C.subject l) rest := by
        rw [← habout, hls', about_append, List.append_assoc]
        simp [about]
      rw [hsplit] at hv
      obtain ⟨v₂, hv₂⟩ := hv.of_append
      obtain ⟨v₁, hv₁, he, hstep⟩ := leads_snoc.mp hv₂
      obtain ⟨w, hw, hsame, -⟩ := leads_about hs hu hks (C.subject l)
      obtain rfl := hv₁.unique hw
      obtain ⟨he', t', hstep', -, -⟩ := C.step (hs.leads hv₁) (hs.leads hu) hlocal
        ((C.equivalence _).symm hsame) he hstep hroom
      exact ⟨t', hu.snoc he' hstep'⟩
  obtain ⟨t, ht⟩ := hprefix ls' [] (List.append_nil _).symm
  exact ⟨t, ht, fun k => same_of_about_eq hs h ht hl hl' (habout k)⟩

/-! ### Other names -/

/-- Labels related by `R` differ in names only, and a step can be taken with any other
names in place of those it does not bring into use. -/
structure Renames (C : Components S κ α) (R : ι → ι → Prop) : Prop where
  local_ : ∀ {l m}, R l m → C.local_ l → C.local_ m
  subject : ∀ {l m}, R l m → C.subject m = C.subject l
  other : ∀ {l s s'}, S.Reachable s → C.local_ l → S.enabled l s → S.step l s = .ok s' →
    ∀ avoid : List α, ∃ m, R l m ∧ S.enabled m s ∧ S.step m s = .ok s' ∧ (C.names m).Nodup ∧
      ∀ a ∈ C.names m, C.used s' a ∨ a ∉ avoid

section Renames

variable {R : ι → ι → Prop} {ms : List ι}

omit [DecidableEq κ] in
/-- A run can be taken with names of its own, through the same states. -/
theorem Renames.own (hR : C.Renames R) (hs : S.Reachable s) (h : S.Leads s ls s')
    (hl : ∀ l ∈ ls, C.local_ l) : ∃ ms, List.Forall₂ R ls ms ∧ S.Leads s ms s' ∧
      (∀ m ∈ ms, C.local_ m) ∧ C.OwnNames s ms := by
  -- the names the run may need later stay free
  have hstrong : ∀ avoid : List α, (∀ a ∈ ls.flatMap C.names, a ∈ avoid) →
      ∃ ms, List.Forall₂ R ls ms ∧ S.Leads s ms s' ∧ (∀ m ∈ ms, C.local_ m) ∧ C.OwnNames s ms ∧
        ∀ a ∈ ms.flatMap C.names, C.used s' a ∨ a ∉ avoid := by
    intro avoid
    induction h with
    | nil => exact fun _ => ⟨[], .nil, .nil, by simp, ⟨by simp, by simp⟩, by simp⟩
    | @snoc ls s' s'' l h he hstep ih =>
      intro havoid
      rw [List.forall_mem_append] at hl
      have hlocal : C.local_ l := hl.2 l (List.mem_singleton_self l)
      rw [List.flatMap_append, List.forall_mem_append, List.flatMap_singleton] at havoid
      obtain ⟨ms, hms, hlead, hmlocal, hown, hnames⟩ := ih hl.1 havoid.1
      have hs' := hs.leads h
      obtain ⟨m, hlm, hme, hmstep, hnodup, hm⟩ :=
        hR.other hs' hlocal he hstep (avoid ++ ms.flatMap C.names)
      have hm' := hR.local_ hlm hlocal
      have hunused := C.room hm' hme
      have hrel := List.rel_append hms (.cons hlm .nil)
      refine ⟨ms ++ [m], hrel, hlead.snoc hme hmstep, ?_, ⟨?_, ?_⟩, ?_⟩
      · rw [List.forall_mem_append]
        exact ⟨hmlocal, by simpa using hm'⟩
      · rw [List.flatMap_append, List.flatMap_singleton, List.nodup_append]
        refine ⟨hown.nodup, hnodup, ?_⟩
        rintro a ha b hb rfl
        rcases hm a hb with hused | hnew
        · rcases C.grows hs' hlocal he hstep a hused with hold | hla
          · exact hunused a hb hold
          · exact (hnames a ha).elim (hunused a hb) fun hn => hn (havoid.2 a hla)
        · exact hnew (by simp [ha])
      · rw [List.flatMap_append, List.flatMap_singleton, List.forall_mem_append]
        refine ⟨hown.unused, ?_⟩
        intro a ha hused
        exact hunused a ha (used_mono hs hlead hmlocal hused)
      · rw [List.flatMap_append, List.flatMap_singleton, List.forall_mem_append]
        constructor
        · intro a ha
          exact (hnames a ha).imp_left (C.keeps hs' hlocal he hstep a)
        · intro a ha
          exact (hm a ha).imp_right fun hnew hav => hnew (List.mem_append_left _ hav)
  obtain ⟨ms, hms, hlead, hmlocal, hown, -⟩ := hstrong _ fun _ ha => ha
  exact ⟨ms, hms, hlead, hmlocal, hown⟩

theorem Renames.about (hR : C.Renames R) (h : List.Forall₂ R ls ms) (k : κ) :
    List.Forall₂ R (C.about k ls) (C.about k ms) := by
  refine List.rel_filter ?_ h
  intro l m hlm
  simp [hR.subject hlm]

/-- Steps chosen for each component come together in the order of `ls`. -/
theorem Renames.weave (hR : C.Renames R) {Q : κ → List ι}
    (hQ : ∀ k, List.Forall₂ R (C.about k ls) (Q k)) :
    ∃ ms, List.Forall₂ R ls ms ∧ ∀ k, C.about k ms = Q k := by
  induction ls generalizing Q with
  | nil => exact ⟨[], .nil, fun k => (List.forall₂_nil_left_iff.mp (hQ k)).symm⟩
  | cons l ls ih =>
    have hself : C.about (C.subject l) (l :: ls) = l :: C.about (C.subject l) ls := by
      simp [Components.about]
    have hother : ∀ k, k ≠ C.subject l → C.about k (l :: ls) = C.about k ls := by
      intro k hk
      simp [Components.about, hk.symm]
    have hl := hQ (C.subject l)
    rw [hself, List.forall₂_cons_left_iff] at hl
    obtain ⟨m, rest, hlm, hrest, hq⟩ := hl
    -- the first step for this component comes now
    obtain ⟨ms, hms, habout⟩ := ih (Q := Function.update Q (C.subject l) rest) (by
      intro k
      by_cases hk : k = C.subject l
      · subst hk
        rwa [Function.update_self]
      · rw [Function.update_of_ne hk, ← hother k hk]
        exact hQ k)
    refine ⟨m :: ms, .cons hlm hms, ?_⟩
    intro k
    have hm := hR.subject hlm
    by_cases hk : k = C.subject l
    · subst hk
      have hcons : C.about (C.subject l) (m :: ms) = m :: C.about (C.subject l) ms := by
        simp [Components.about, hm]
      rw [hcons, habout, Function.update_self, hq]
    · have hskip : C.about k (m :: ms) = C.about k ms := by
        simp [Components.about, hm, Ne.symm hk]
      rw [hskip, habout, Function.update_of_ne hk]

/-- The steps of a run can be taken in any order that leaves the steps about each
component in theirs, up to the names they use. -/
theorem Renames.reorder (hR : C.Renames R) (hs : S.Reachable s) (h : S.Leads s ls s')
    (hl : ∀ l ∈ ls, C.local_ l) (habout : ∀ k, C.about k ls' = C.about k ls) :
    ∃ ms t, List.Forall₂ R ls' ms ∧ S.Leads s ms t ∧ ∀ k, C.same k s' t := by
  obtain ⟨ms, hms, hlead, hmlocal, hown⟩ := hR.own hs h hl
  have hQ : ∀ k, List.Forall₂ R (C.about k ls') (C.about k ms) := by
    intro k
    rw [habout]
    exact hR.about hms k
  obtain ⟨ms', hms', habout'⟩ := hR.weave hQ
  obtain ⟨t, ht, hsame⟩ := C.reorder hs hlead hmlocal hown habout'
  exact ⟨ms', t, hms', ht, hsame⟩

end Renames

end Components

end FallibleSystem
