-- SUMMARY: In which orders concurrent creates and their completions end with every caller holding the created node.
import QtZooKeeper.Manager.PooledNodes
import QtZooKeeper.Manager.SplitCreate
import QtZooKeeper.Manager.Steps

/-!
# Creates against their completions

A completion looks its node up under the requested path. It finds the right one
if the call has inserted it by then and nobody has taken the entry over. Both can
fail: the completion may run before the insertion, and since the pool is asked
before the request is made, two calls for one path can both go through.
-/

namespace QtZooKeeper

open FallibleSystem

variable {p p' : Pool} {x y : Creating} {l : CreateLabel} {tr : List (Creating × CreateLabel)}
variable {n m : NodeId} {d : ZooKeeperNode} {error : ZooKeeperError} {name : Option QString}

/-! ## What the callers rely on -/

/-- Once a call has returned the node `n` and its completion has been delivered:
the node is pooled under the reported name, exists and has said so once; or it is
not in the pool any more. -/
structure Outcome (p : Pool) (n : NodeId) (error : ZooKeeperError) (name : Option QString) :
    Prop where
  created : error = .noError → ∀ r, name = some r → ∃ d, p.pooled r = some (n, d) ∧ d.path = r ∧
    d.exists_ = true ∧ p.signals.count (.created n) = 1
  failed : error ≠ .noError → error ≠ .nodeExists → ∀ k, p.lookup k ≠ some (some n)

/-- Every call that has returned and has been completed has its outcome. -/
def CreatesSettled (x : Creating) : Prop :=
  ∀ e ∈ x.delivered, ∀ n, e.request.node = some n → (∀ c ∈ x.inserting, c.2 ≠ n) →
    Outcome x.manager.pool n e.error e.name

/-- The order of the steps: a call inserts its node where none is pooled; a
completion comes after the insertion of its own call, for a path that is not
empty, and renames its node only to a path that is not pooled. -/
def InOrder (x : Creating) : CreateLabel → Prop
  | .submit _ _ _ _ => True
  | .insert a _ => x.manager.pool.contains a.path = false
  | .deliver r _ name =>
    (∀ c ∈ x.inserting, r.node ≠ some c.2) ∧ r.path ≠ "" ∧
      ∀ k ∈ name, k ≠ "" ∧ (k = r.path ∨ x.manager.pool.contains k = false)

instance (x : Creating) : (l : CreateLabel) → Decidable (InOrder x l)
  | .submit _ _ _ _ => inferInstanceAs (Decidable True)
  | .insert a _ => inferInstanceAs (Decidable (x.manager.pool.contains a.path = false))
  | .deliver r _ name =>
    inferInstanceAs (Decidable ((∀ c ∈ x.inserting, r.node ≠ some c.2) ∧ r.path ≠ "" ∧
      ∀ k ∈ name, k ≠ "" ∧ (k = r.path ∨ x.manager.pool.contains k = false)))

/-- An outcome lasts as long as its node keeps its entry, gets no other one and is
not announced again. -/
theorem Outcome.frame (h : Outcome p n error name)
    (hkeep : ∀ k d, p.pooled k = some (n, d) → p'.pooled k = some (n, d))
    (hnew : ∀ k, p'.lookup k = some (some n) → ∃ k', p.lookup k' = some (some n))
    (hcount : p'.signals.count (.created n) = p.signals.count (.created n)) :
    Outcome p' n error name where
  created he r hr := by
    obtain ⟨d, hd, hpath, hexists, hone⟩ := h.created he r hr
    exact ⟨d, hkeep r d hd, hpath, hexists, hcount.trans hone⟩
  failed he he' k hk := by
    obtain ⟨k', hk'⟩ := hnew k hk
    exact h.failed he he' k' hk'

/-! ## The invariant -/

/-- The node `n` a request was made for: its call is about to insert it, or it is
in the pool under the requested path. -/
def Awaits (x : Creating) (r : Request) (n : NodeId) : Prop :=
  (∃ a, (a, n) ∈ x.inserting ∧ a.path = r.path) ∨ ∃ d, x.manager.pool.pooled r.path = some (n, d)

/-- What the steps in order keep. -/
structure Settling (x : Creating) : Prop where
  sound : x.manager.pool.Sound
  unborn : ∀ c ∈ x.inserting, x.manager.pool.nodes.Fresh c.2
  apart : (x.inserting.map (·.2)).Nodup
  silent : ∀ n, x.manager.pool.nodes.Fresh n → .created n ∉ x.manager.pool.signals
  pending : ∀ r ∈ x.manager.pending, ∃ n, r.node = some n ∧
    .created n ∉ x.manager.pool.signals ∧ Awaits x r n
  own : (x.manager.pending.map (·.node)).Nodup
  delivered : ∀ e ∈ x.delivered, ∃ n, e.request.node = some n ∧ ¬ x.manager.pool.nodes.Fresh n ∧
    Outcome x.manager.pool n e.error e.name

theorem Settling.createsSettled (h : Settling x) : CreatesSettled x := by
  intro e he n hn _
  obtain ⟨m, hm, -, hout⟩ := h.delivered e he
  obtain rfl : m = n := Option.some.inj (hm.symm.trans hn)
  exact hout

theorem settling_init : Settling createSystem.init where
  sound := Pool.sound_init
  unborn := by
    intro c hc
    cases hc
  apart := List.nodup_nil
  silent := by
    intro n _ hn
    cases hn
  pending := by
    intro r hr
    cases hr
  own := List.nodup_nil
  delivered := by
    intro e he
    cases he

/-- A request waits for a node that is inserted or live. -/
theorem Awaits.not_fresh_or_inserting {r : Request} (h : Awaits x r n) :
    (∃ c ∈ x.inserting, c.2 = n) ∨ ¬ x.manager.pool.nodes.Fresh n := by
  rcases h with ⟨a, ha, -⟩ | ⟨d, hd⟩
  · exact .inl ⟨_, ha, rfl⟩
  · exact .inr (Pool.pooled_eq_some.mp hd).2.not_fresh

/-! ## The steps -/

/-- Handing a request to the client. -/
theorem Settling.submit {a : Manager.CreateArgs} {ret : Int} {ctx : CtxId} (h : Settling x)
    (he : createSystem.enabled (.submit a ret ctx n) x)
    (hs : createSystem.step (.submit a ret ctx n) x = .ok y) : Settling y := by
  obtain ⟨hfresh, hother, -⟩ := he
  have hpending := Manager.submitCreate_pending x.manager a ret ctx n
  simp only [createSystem, CreateLabel.step] at hs
  split at hs
  · obtain rfl := Except.pure_eq_ok.mp hs
    exact h
  · split at hs
    · next hret =>
      obtain rfl := Except.pure_eq_ok.mp hs
      rw [if_pos (ZooKeeperError.ofInt_eq_noError.mp hret), Option.toList_some] at hpending
      -- no earlier request was made for the new node
      have hnew : ∀ r ∈ x.manager.pending, r.node ≠ some n := by
        intro r hr hrn
        obtain ⟨m, hm, -, haw⟩ := h.pending r hr
        obtain rfl : m = n := Option.some.inj (hm.symm.trans hrn)
        rcases haw.not_fresh_or_inserting with ⟨c, hc, hcn⟩ | hlive
        · exact hother c hc hcn
        · exact hlive hfresh
      exact {
        sound := h.sound
        unborn := by
          intro c hc
          rcases List.mem_append.mp hc with hc | hc
          · exact h.unborn c hc
          · rw [List.mem_singleton.mp hc]
            exact hfresh
        apart := by
          rw [List.map_append, List.map_singleton, List.nodup_append]
          refine ⟨h.apart, List.nodup_singleton _, ?_⟩
          intro m hm m' hm'
          obtain ⟨c, hc, rfl⟩ := List.mem_map.mp hm
          rw [List.mem_singleton.mp hm']
          exact hother c hc
        silent := h.silent
        pending := by
          intro r hr
          rw [hpending] at hr
          rcases List.mem_append.mp hr with hr | hr
          · obtain ⟨m, hm, hsil, haw⟩ := h.pending r hr
            refine ⟨m, hm, hsil, haw.imp ?_ id⟩
            rintro ⟨a', ha', hpath⟩
            exact ⟨a', List.mem_append_left _ ha', hpath⟩
          · rw [List.mem_singleton.mp hr]
            exact ⟨n, rfl, h.silent n hfresh,
              .inl ⟨a, List.mem_append_right _ List.mem_cons_self, rfl⟩⟩
        own := by
          rw [hpending, List.map_append, List.nodup_append]
          refine ⟨h.own, List.nodup_singleton _, ?_⟩
          intro m hm m' hm'
          obtain ⟨r, hr, rfl⟩ := List.mem_map.mp hm
          rw [List.mem_singleton.mp hm']
          exact hnew r hr
        delivered := h.delivered }
    · next hret =>
      obtain rfl := Except.pure_eq_ok.mp hs
      rw [if_neg fun h0 => hret (ZooKeeperError.ofInt_eq_noError.mpr h0), Option.toList_none,
        List.append_nil] at hpending
      exact {
        sound := h.sound
        unborn := h.unborn
        apart := h.apart
        silent := h.silent
        pending := by
          intro r hr
          rw [hpending] at hr
          exact h.pending r hr
        own := by
          rw [hpending]
          exact h.own
        delivered := h.delivered }

/-- What is pooled after a call has inserted its node. -/
theorem Settling.pooled_insert {a : Manager.CreateArgs} (h : Settling x)
    (hmem : (a, n) ∈ x.inserting) (k : QString) :
    (x.manager.poolCreated a n).pool.pooled k =
      if k = a.path then some (n, { path := a.path, value := a.value, type := some a.type })
      else x.manager.pool.pooled k := Pool.pooled_insert h.sound (h.unborn _ hmem)

/-- Inserting a node where none is pooled. -/
theorem Settling.insert {a : Manager.CreateArgs} (h : Settling x)
    (he : createSystem.enabled (.insert a n) x) (hg : InOrder x (.insert a n))
    (hs : createSystem.step (.insert a n) x = .ok y) : Settling y := by
  obtain rfl := Except.pure_eq_ok.mp hs
  have hfresh := h.unborn _ he
  have hmissing : x.manager.pool.lookup a.path = none :=
    Pool.not_contains_iff.mp (Bool.not_eq_true _ ▸ hg)
  have hpooled := h.pooled_insert he
  -- the entries of the other nodes are elsewhere
  have hkeep : ∀ m k d, x.manager.pool.pooled k = some (m, d) →
      (x.manager.poolCreated a n).pool.pooled k = some (m, d) := by
    intro m k d hk
    have hne : k ≠ a.path := by
      rintro rfl
      cases hmissing.symm.trans (Pool.pooled_eq_some.mp hk).1
    rw [hpooled, if_neg hne]
    exact hk
  have hfresh' : ∀ m, (x.manager.poolCreated a n).pool.nodes.Fresh m →
      m ≠ n ∧ x.manager.pool.nodes.Fresh m := fun m hm => Heap.fresh_put.mp hm
  -- no other call in progress is about to insert the node
  have hapart : ∀ c ∈ x.inserting, c ≠ (a, n) → c.2 ≠ n := fun c hc hne hcn =>
    hne (List.inj_on_of_nodup_map h.apart hc he hcn)
  exact {
    sound := h.sound.pool a.path hfresh rfl
    unborn := by
      intro c hc
      rw [(List.Nodup.of_map _ h.apart).mem_erase_iff] at hc
      exact Heap.fresh_put.mpr ⟨hapart c hc.2 hc.1, h.unborn c hc.2⟩
    apart := h.apart.sublist (List.erase_sublist.map _)
    silent := by
      intro m hm
      exact h.silent m (hfresh' m hm).2
    pending := by
      intro r hr
      obtain ⟨m, hm, hsil, haw⟩ := h.pending r hr
      refine ⟨m, hm, hsil, ?_⟩
      rcases haw with ⟨a', ha', hpath⟩ | ⟨d, hd⟩
      · by_cases hne : (a', m) = (a, n)
        · cases hne
          have hin := hpooled r.path
          rw [if_pos hpath.symm] at hin
          exact .inr ⟨_, hin⟩
        · refine .inl ⟨a', ?_, hpath⟩
          exact (List.Nodup.of_map _ h.apart).mem_erase_iff.mpr ⟨hne, ha'⟩
      · exact .inr ⟨d, hkeep _ _ _ hd⟩
    own := h.own
    delivered := by
      intro e he'
      obtain ⟨m, hm, hlive, hout⟩ := h.delivered e he'
      refine ⟨m, hm, fun hf => hlive (hfresh' m hf).2, hout.frame (hkeep m) ?_ rfl⟩
      intro k hk
      have hmn : m ≠ n := by
        rintro rfl
        exact hlive hfresh
      refine ⟨k, ?_⟩
      simp only [Manager.poolCreated, Pool.createNode, Pool.lookup_insert, Pool.lookup_write] at hk
      split at hk
      · exact absurd (Option.some.inj (Option.some.inj hk)).symm hmn
      · exact hk }

/-- A completion in order finds the node of its own call, and does not fault. -/
theorem Settling.completes {r : Request} {rc : Int} (h : Settling x)
    (he : createSystem.enabled (.deliver r rc name) x) (hg : InOrder x (.deliver r rc name)) :
    ∃ n d p', r.node = some n ∧ x.manager.pool.pooled r.path = some (n, d) ∧
      createSystem.step (.deliver r rc name) x = .ok
        { x with
          manager := ({ x.manager with pool := p' }.release r).notify .manager
            (.createNodeFinished (.ofInt rc) (Pool.reportedPath name r.path))
          delivered := x.delivered ++ [⟨r, .ofInt rc, name⟩] } ∧
      x.manager.pool.Completed p' n d (.ofInt rc) r.path (Pool.reportedPath name r.path) := by
  obtain ⟨hreturned, hne, -⟩ := hg
  obtain ⟨n, hn, -, haw⟩ := h.pending r he.1
  rcases haw with ⟨a, ha, -⟩ | ⟨d, hd⟩
  · exact absurd hn (hreturned _ ha)
  · obtain ⟨hlook, hlive⟩ := Pool.pooled_eq_some.mp hd
    have hpath := h.sound.path_eq hlook hlive
    obtain ⟨p', hp', hc⟩ := Pool.acreateCompletion_pooled (.ofInt rc) name hne hlook hlive hpath
    refine ⟨n, d, p', hn, hd, ?_, hc⟩
    simp only [createSystem, CreateLabel.step, Manager.acreateCompletion, hp', Except.ok_bind, ne_eq,
      hne, not_false_eq_true, if_true, pure, Except.pure]

/-- The outcome of a completion in order. -/
theorem outcome_of_completed {k path : QString} (hsound : p.Sound)
    (hk : p.lookup k = some (some n)) (hc : p.Completed p' n d error k path)
    (hsil : .created n ∉ p.signals) (hname : ∀ r, name = some r → r = path) :
    Outcome p' n error name where
  created he r hr := by
    subst he
    obtain rfl := hname r hr
    have hpooled := Pool.pooled_of_completed hc
    rw [if_pos (by rfl)] at hpooled
    refine ⟨_, hpooled, rfl, rfl, ?_⟩
    rw [hc.signals, List.count_append, List.count_eq_zero.mpr hsil]
    simp only [Pool.createSignals]
    split <;> simp
  failed he he' k' hk' := by
    have hkeep : error.keepsNode = false := by
      cases error <;> first | rfl | exact absurd rfl he | exact absurd rfl he'
    rw [hc.lookup, hkeep] at hk'
    split at hk'
    · cases hk'
    · split at hk'
      · cases hk'
      · next hne => exact hne (hsound.injective hk' hk)

/-- In order, the reported path is the requested one or is not pooled. -/
theorem InOrder.reportedPath {r : Request} {rc : Int} (hg : InOrder x (.deliver r rc name)) :
    Pool.reportedPath name r.path = r.path ∨
      x.manager.pool.contains (Pool.reportedPath name r.path) = false := by
  cases name with
  | none => exact .inl rfl
  | some k =>
    obtain ⟨hk, hpath⟩ := hg.2.2 k rfl
    have hreported : Pool.reportedPath (some k) r.path = k := if_neg hk
    rw [hreported]
    exact hpath

/-- The completion of a call that has returned. -/
theorem Settling.deliver {r : Request} {rc : Int} (h : Settling x)
    (he : createSystem.enabled (.deliver r rc name) x) (hg : InOrder x (.deliver r rc name))
    (hs : createSystem.step (.deliver r rc name) x = .ok y) : Settling y := by
  obtain ⟨n, d, p', hn, hd, hstep, hc⟩ := h.completes he hg
  obtain rfl := Except.ok.inj (hstep.symm.trans hs)
  obtain ⟨hlook, hlive⟩ := Pool.pooled_eq_some.mp hd
  have hsilent : .created n ∉ x.manager.pool.signals := by
    obtain ⟨m, hm, hsil, -⟩ := h.pending r he.1
    rwa [Option.some.inj (hm.symm.trans hn)] at hsil
  have hname : ∀ k, name = some k → k = Pool.reportedPath name r.path := by
    rintro k rfl
    exact (if_neg (hg.2.2 k rfl).1).symm
  -- the completion leaves the entries and the signals of the other nodes alone
  have hkeep : ∀ m, m ≠ n → ∀ k e, x.manager.pool.pooled k = some (m, e) →
      p'.pooled k = some (m, e) :=
    fun m hm k e hk => hc.pooled_of_other hd hg.reportedPath hk hm
  have hquiet : ∀ m, m ≠ n → .created m ∉ x.manager.pool.signals → .created m ∉ p'.signals := by
    intro m hm hsil
    rw [← List.count_eq_zero, hc.count_created hm, List.count_eq_zero]
    exact hsil
  have hnodup := List.Nodup.of_map _ h.own
  exact {
    sound := h.sound.completed hlook hc
    unborn := by
      intro c hc'
      have hf := h.unborn c hc'
      exact hc.fresh_iff.mpr ⟨hf.ne hlive |>.symm, hf⟩
    apart := h.apart
    silent := by
      intro m hm
      obtain ⟨hmn, hf⟩ := hc.fresh_iff.mp hm
      exact hquiet m hmn (h.silent m hf)
    pending := by
      intro q hq
      obtain ⟨hqr, hq⟩ := hnodup.mem_erase_iff.mp hq
      obtain ⟨m, hm, hsil, haw⟩ := h.pending q hq
      have hmn : m ≠ n := by
        rintro rfl
        exact hqr (List.inj_on_of_nodup_map h.own hq he.1 (hm.trans hn.symm))
      refine ⟨m, hm, hquiet m hmn hsil, haw.imp id ?_⟩
      intro ⟨e, he⟩
      exact ⟨e, hkeep m hmn _ _ he⟩
    own := h.own.sublist (List.erase_sublist.map _)
    delivered := by
      have hlive' : ∀ m, ¬ x.manager.pool.nodes.Fresh m → ¬ p'.nodes.Fresh m := fun m hm hf =>
        hm (hc.fresh_iff.mp hf).2
      intro e he'
      rcases List.mem_append.mp he' with he' | he'
      · obtain ⟨m, hm, hnf, hout⟩ := h.delivered e he'
        refine ⟨m, hm, hlive' m hnf, ?_⟩
        by_cases hmn : m = n
        · -- an outcome that says something is not that of a node in flight
          subst hmn
          exact {
            created := by
              intro hok k hk
              obtain ⟨_, -, -, -, hone⟩ := hout.created hok k hk
              rw [List.count_eq_zero.mpr hsilent] at hone
              cases hone
            failed := fun hne hne' => absurd hlook (hout.failed hne hne' r.path) }
        · exact hout.frame (hkeep m hmn) (fun k hk => ⟨k, hc.lookup_of_ne hk hmn⟩)
            (hc.count_created hmn)
      · rw [List.mem_singleton.mp he']
        exact ⟨n, hn, hlive' n hlive.not_fresh, outcome_of_completed h.sound hlook hc hsilent hname⟩ }

/-- Every step in order keeps the invariant. -/
theorem Settling.step (h : Settling x) (he : createSystem.enabled l x) (hg : InOrder x l)
    (hs : createSystem.step l x = .ok y) : Settling y := by
  cases l with
  | submit a ret ctx n => exact h.submit he hs
  | insert a n => exact h.insert he hg hs
  | deliver r rc name => exact h.deliver he hg hs

/-- No step in order faults. -/
theorem Settling.progress (h : Settling x) (he : createSystem.enabled l x) (hg : InOrder x l) :
    ∃ y, createSystem.step l x = .ok y := by
  cases l with
  | submit a ret ctx n =>
    simp only [createSystem, CreateLabel.step]
    split
    · exact ⟨_, rfl⟩
    · split <;> exact ⟨_, rfl⟩
  | insert a n => exact ⟨_, rfl⟩
  | deliver r rc name =>
    obtain ⟨_, _, _, -, -, hstep, -⟩ := h.completes he hg
    exact ⟨_, hstep⟩

/-- If the steps of a run come in order, every call that has returned and has been
completed has its outcome, in all states of the run, and no further step in order
faults. -/
theorem creates_settle (h : createSystem.Run tr x) (hg : Each InOrder tr) :
    Always (fun x => CreatesSettled x ∧
      ∀ l, createSystem.enabled l x → InOrder x l → ∃ y, createSystem.step l x = .ok y) tr x := by
  have hsettling : Always Settling tr x :=
    h.always_of_each (Q := fun _ => True) settling_init (fun _ _ => trivial)
      (fun _ _ _ _ hP he hg hs => hP.step he hg hs) hg
  exact hsettling.mono fun x hx => ⟨hx.createsSettled, fun l he hg => hx.progress he hg⟩

/-- A completion that comes before anything is pooled under the requested path
uses a null pointer. -/
theorem early_completion_faults {r : Request} {rc : Int} (hne : r.path ≠ "")
    (hk : x.manager.pool.lookup r.path = none) :
    createSystem.step (.deliver r rc name) x = .error .null := by
  have hmissing : x.manager.pool.acreateCompletion (.ofInt rc) name r.path = .error .null :=
    Pool.acreateCompletion_missing hne (by rw [hk]; rfl)
  simp only [createSystem, CreateLabel.step, Manager.acreateCompletion, hmissing,
    Except.error_bind]

/-- The creates of a sequential node under `/a-` and of the node `/b`. -/
def sequentialArgs : Manager.CreateArgs := { type := .sequenceNode, path := "/a-" }
def plainArgs : Manager.CreateArgs := { type := .persistentNode, path := "/b" }

/-- The request of such a call, with its context and the node of the call. -/
def createRequest (a : Manager.CreateArgs) (ctx : CtxId) (n : NodeId) : Request :=
  { ctx := ctx, op := .create, path := a.path, value := a.value, node := some n }

/-- Two calls at a time; each is completed after it has inserted its node. -/
def insertedFirst : List CreateLabel :=
  [.submit sequentialArgs 0 0 0, .submit plainArgs 0 1 1, .insert plainArgs 1, .insert sequentialArgs 0,
   .deliver (createRequest sequentialArgs 0 0) 0 (some "/a-0000000001"),
   .deliver (createRequest plainArgs 1 1) (-4) none]

/-- Two calls for one prefix; the first is completed before it has inserted its
node, when the second already has. -/
def completedFirst : List CreateLabel :=
  [.submit sequentialArgs 0 0 0, .submit sequentialArgs 0 1 1, .insert sequentialArgs 1,
   .deliver (createRequest sequentialArgs 0 0) 0 (some "/a-0000000001"), .insert sequentialArgs 0]

theorem insertedFirst_settles :
    Always (fun x => CreatesSettled x ∧
      ∀ l, createSystem.enabled l x → InOrder x l → ∃ y, createSystem.step l x = .ok y)
      (createSystem.execGet insertedFirst (by decide)).1
      (createSystem.execGet insertedFirst (by decide)).2 :=
  creates_settle (run_execGet insertedFirst (by decide)) (by unfold Each; decide)

/-- The completion has renamed the node of the other call. -/
theorem completedFirst_not_settled : ¬ ∀ x, createSystem.Reachable x → CreatesSettled x := by
  intro h
  have hsettled := h _ (reachable_execGet completedFirst (by decide))
  have hout := hsettled ⟨createRequest sequentialArgs 0 0, .noError, some "/a-0000000001"⟩
    (by decide) 0 rfl (by decide)
  obtain ⟨d, hd, -⟩ := hout.created rfl "/a-0000000001" rfl
  have hpooled : (createSystem.execGet completedFirst (by decide)).2.manager.pool.pooled
      "/a-0000000001" = some (1, ⟨true, "/a-0000000001", [], some .sequenceNode⟩) := by rfl
  cases hpooled.symm.trans hd

end QtZooKeeper
