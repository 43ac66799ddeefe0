-- SUMMARY: Which nodes the end of a session drops: after a terminal event all of them, after quit those being created.
import QtZooKeeper.Base.Components
import QtZooKeeper.Manager.PooledNodes
import QtZooKeeper.Manager.Steps
import QtZooKeeper.Verification.PoolSafety

/-!
# The end of a session

With its session a client loses the ephemeral znodes it has created. The loop of
`processDisconnected` is commented as clearing the ephemeral nodes of the pool,
but it does not look at the type of a node, and `quit` has no such loop. While
`quit` waits in `zookeeper_close`, though, the client completes requests that are in
flight with `ZCLOSING`, and a completion can take a node out of the pool.
-/

namespace QtZooKeeper

open FallibleSystem

variable {s s' s₁ s₂ s₃ : Manager} {p p' : Pool} {k : QString} {n : NodeId} {d : ZooKeeperNode}
variable {r : Request} {l : Label} {ls : List Label}

/-- The node was created with an ephemeral type. A node made by a read has none. -/
def ZooKeeperNode.isEphemeral (d : ZooKeeperNode) : Bool := d.type.any ZooKeeperNodeType.isEphemeral

namespace Pool

/-- `p'` has exactly the nodes of `p` that are not ephemeral, as they were, with no null
entry more or less, and exactly the ephemeral ones have been scheduled for deletion. -/
structure DropsEphemeral (p p' : Pool) : Prop where
  nulls : ∀ k, p'.lookup k = some none ↔ p.lookup k = some none
  entries : ∀ k n, p'.lookup k = some (some n) ↔ ∃ d, p.pooled k = some (n, d) ∧ d.isEphemeral = false
  fields : ∀ k n d, p.pooled k = some (n, d) → d.isEphemeral = false → p'.nodes.Live n d
  scheduled : ∀ n d, p.nodes.Live n d →
    (p'.nodes.Scheduled n ↔ d.isEphemeral = true ∧ ∃ k, p.lookup k = some (some n))

/-- Every entry is that of an ephemeral node. -/
def OnlyEphemeral (p : Pool) : Prop :=
  ∀ k node, p.lookup k = some node → ∃ x ∈ p.pooled k, x.2.isEphemeral = true

/-- No entry is that of an ephemeral node. -/
def NoEphemeral (p : Pool) : Prop :=
  ∀ k node, p.lookup k = some node → ∀ x ∈ p.pooled k, x.2.isEphemeral = false

instance (p : Pool) : Decidable p.OnlyEphemeral :=
  decidable_of_iff _ (KeyTable.forall_lookup_iff (t := p.nodePool)
    (P := fun k _ => ∃ x ∈ p.pooled k, x.2.isEphemeral = true)).symm

instance (p : Pool) : Decidable p.NoEphemeral :=
  decidable_of_iff _ (KeyTable.forall_lookup_iff (t := p.nodePool)
    (P := fun k _ => ∀ x ∈ p.pooled k, x.2.isEphemeral = false)).symm

theorem OnlyEphemeral.noNull (h : p.OnlyEphemeral) : p.NoNull := by
  intro k hk
  obtain ⟨x, hx, -⟩ := h k none hk
  cases (pooled_eq_some.mp hx).1.symm.trans hk

/-- Clearing the pool faults on a null entry. -/
theorem noNull_of_processDisconnected (h : p.processDisconnected = .ok p') : p.NoNull := by
  simp only [processDisconnected, Except.bind_eq_ok] at h
  obtain ⟨q, hq, -⟩ := h
  intro k hk
  exact none_not_mem_of_deleteAll hq (KeyTable.mem_values_iff.mpr ⟨k, hk⟩)

/-- A cleared pool has lost the ephemeral nodes and nothing else exactly if it had
nothing else. -/
theorem Disconnected.dropsEphemeral_iff (hp : p.Sound) (hn : p.NoNull) (h : p.Disconnected p') :
    p.DropsEphemeral p' ↔ p.OnlyEphemeral := by
  constructor
  · intro hd k node hk
    cases node with
    | none => exact absurd hk (hn k)
    | some n =>
      obtain ⟨d, hl, -⟩ := hp k n hk
      have hx : p.pooled k = some (n, d) := pooled_eq_some.mpr ⟨hk, hl⟩
      refine ⟨(n, d), hx, ?_⟩
      by_contra he
      have hentry := (hd.entries k n).mpr ⟨d, hx, by simpa using he⟩
      cases (h.lookup k).symm.trans hentry
  · intro hall
    have hnone : ∀ k n d, p.pooled k = some (n, d) → d.isEphemeral = true := by
      intro k n d hx
      obtain ⟨y, hy, he⟩ := hall k (some n) (pooled_eq_some.mp hx).1
      cases hx.symm.trans hy
      exact he
    refine ⟨?_, ?_, ?_, ?_⟩
    · intro k
      rw [h.lookup]
      exact iff_of_false (by simp) (hn k)
    · intro k n
      rw [h.lookup]
      refine iff_of_false (by simp) ?_
      rintro ⟨d, hx, he⟩
      rw [hnone k n d hx] at he
      cases he
    · intro k n d hx he
      rw [hnone k n d hx] at he
      cases he
    · intro n d hl
      constructor
      · rintro ⟨e, he⟩
        have hgone : ¬ p'.nodes.Live n d := fun hl' => hl'.not_scheduled ⟨e, he⟩
        rw [h.live] at hgone
        obtain ⟨k, hk⟩ : ∃ k, p.lookup k = some (some n) := by
          by_contra hno
          exact hgone ⟨hl, fun k hk => hno ⟨k, hk⟩⟩
        exact ⟨hnone k n d (pooled_eq_some.mpr ⟨hk, hl⟩), k, hk⟩
      · rintro ⟨-, k, hk⟩
        refine Heap.scheduled_of_not_live ?_ ?_
        · rw [h.fresh]
          exact hl.not_fresh
        · intro e hl'
          exact ((h.live n e).mp hl').2 k hk

/-- A pool that stays as it is has lost no ephemeral node exactly if it had none. -/
theorem dropsEphemeral_refl_iff (hp : p.Sound) : p.DropsEphemeral p ↔ p.NoEphemeral := by
  constructor
  · rintro hd k node - ⟨n, d⟩ hx
    obtain ⟨e, hy, he⟩ := (hd.entries k n).mp (pooled_eq_some.mp hx).1
    cases hx.symm.trans hy
    exact he
  · intro hall
    have hnone : ∀ k n d, p.pooled k = some (n, d) → d.isEphemeral = false := fun k n d hx =>
      hall k (some n) (pooled_eq_some.mp hx).1 (n, d) hx
    refine ⟨fun _ => Iff.rfl, ?_, ?_, ?_⟩
    · intro k n
      constructor
      · intro hk
        obtain ⟨d, hl, -⟩ := hp k n hk
        have hx : p.pooled k = some (n, d) := pooled_eq_some.mpr ⟨hk, hl⟩
        exact ⟨d, hx, hnone k n d hx⟩
      · rintro ⟨d, hx, -⟩
        exact (pooled_eq_some.mp hx).1
    · intro k n d hx _
      exact (pooled_eq_some.mp hx).2
    · intro n d hl
      refine iff_of_false hl.not_scheduled ?_
      rintro ⟨he, k, hk⟩
      rw [hnone k n d (pooled_eq_some.mpr ⟨hk, hl⟩)] at he
      cases he

end Pool

/-! ## The two ends of a session -/

/-- A terminal event drops exactly the ephemeral nodes if there are no others. -/
theorem terminal_dropsEphemeral_iff {zzh : HandleId} {type : ZooKeeperType} {state : Int}
    {path : QString} {client : Int} (hs : system.Reachable s)
    (hd : disconnects type (.ofInt state) = true) :
    (∃ s', system.step (.watcher zzh type state path client) s = .ok s' ∧
      s.pool.DropsEphemeral s'.pool) ↔ s.pool.OnlyEphemeral := by
  have hsound := sound_of_reachable hs
  have hcleared : ∀ s', system.step (.watcher zzh type state path client) s = .ok s' →
      s.pool.processDisconnected = .ok s'.pool := by
    intro s' hstep
    have hpool := step_pool (l := .watcher zzh type state path client) hstep
    simp only [Label.poolOp, if_pos hd] at hpool
    exact hpool
  constructor
  · rintro ⟨s', hstep, hdrops⟩
    have hpool := hcleared s' hstep
    have hnull := Pool.noNull_of_processDisconnected hpool
    exact ((Pool.processDisconnected_eq_ok hpool).dropsEphemeral_iff hsound hnull).mp hdrops
  · intro hall
    have hwf : s.pool.WellFormed := Pool.wellFormed_iff.mpr ⟨hsound, hall.noNull⟩
    obtain ⟨s', hstep⟩ := watcher_progress hwf zzh type state path client
    have hdis := Pool.processDisconnected_eq_ok (hcleared s' hstep)
    exact ⟨s', hstep, (hdis.dropsEphemeral_iff hsound hall.noNull).mpr hall⟩

/-! ### quit -/

/-- A completion the client makes up while it is being closed: the code is `ZCLOSING`. -/
def Label.madeUp : Label → Bool
  | deliver _ c => c.rc = -116
  | _ => false

/-- No request in flight is one whose failure touches the pool: a create of a path
that is pooled, or a read of one that is not. -/
def Manager.Quiet (s : Manager) : Prop :=
  ∀ r ∈ s.pending, (r.op = .create → r.path = "" ∨ ¬ s.pool.Holds r.path) ∧
    (r.op = .get → s.pool.contains r.path = true)

instance (s : Manager) : Decidable s.Quiet := by
  unfold Manager.Quiet
  infer_instance

/-- A made-up completion of such a request leaves the pool alone. -/
theorem pool_of_madeUp (hquiet : s.Quiet) (he : system.enabled l s) (hl : l.madeUp = true)
    (hs : system.step l s = .ok s') : s'.pool = s.pool ∧ ∀ r ∈ s'.pending, r ∈ s.pending := by
  cases l with
  | deliver r c =>
    obtain ⟨hmem, hanswers⟩ := he
    have hrc : c.rc = -116 := by simpa [Label.madeUp] using hl
    refine ⟨?_, ?_⟩
    · have hpool := step_pool (l := .deliver r c) hs
      cases c with
      | create rc name =>
        obtain rfl : rc = -116 := hrc
        have hop : r.op = .create := by
          simp only [Manager.Completion.Answers, Bool.and_eq_true, decide_eq_true_eq] at hanswers
          exact hanswers.1
        by_cases hempty : r.path = ""
        · simp only [Label.poolOp, PoolOp.apply, Pool.acreateCompletion, hempty] at hpool
          exact (Except.pure_eq_ok.mp hpool).symm
        · have hmissing : (s.pool.lookup r.path).join = none := by
            rw [Option.eq_none_iff_forall_ne_some]
            intro n hn
            exact ((hquiet r hmem).1 hop).resolve_left hempty ⟨n, Option.join_eq_some_iff.mp hn⟩
          -- such a completion faults
          simp only [Label.poolOp, PoolOp.apply, Pool.acreateCompletion_missing hempty hmissing] at hpool
          cases hpool
      | get rc value =>
        obtain rfl : rc = -116 := hrc
        have hop : r.op = .get := by
          simp only [Manager.Completion.Answers, Bool.and_eq_true, decide_eq_true_eq] at hanswers
          exact hanswers.1
        obtain ⟨node, hk⟩ := Pool.contains_iff.mp ((hquiet r hmem).2 hop)
        have hset : (ZooKeeperError.ofInt (-116)).settles = false := rfl
        simp only [Label.poolOp, PoolOp.apply, Pool.agetCompletion_of_not_settles hset,
          Except.ok.injEq] at hpool
        rw [← hpool, Pool.indexed, Pool.index_eq hk]
      | _ => exact (Except.pure_eq_ok.mp hpool).symm
    · intro q hq
      have hpending : s'.pending = s.pending.erase r ++ [] := step_pending (l := .deliver r c) hs
      rw [hpending, List.append_nil] at hq
      exact List.mem_of_mem_erase hq
  | _ => cases hl

/-- Neither do any number of them. -/
theorem pool_of_leads (hquiet : s.Quiet) (h : system.Leads s ls s')
    (hls : ∀ l ∈ ls, Label.madeUp l = true) : s'.pool = s.pool := by
  suffices hboth : s'.pool = s.pool ∧ ∀ r ∈ s'.pending, r ∈ s.pending from hboth.1
  induction h with
  | nil => exact ⟨rfl, fun _ => id⟩
  | @snoc ls t t' l _ he hs ih =>
    obtain ⟨hpool, hmem⟩ := ih fun l hl => hls l (List.mem_append_left _ hl)
    have ht : t.Quiet := by
      intro r hr
      rw [hpool]
      exact hquiet r (hmem r hr)
    obtain ⟨hpool', hmem'⟩ := pool_of_madeUp ht he (hls l (by simp)) hs
    exact ⟨hpool'.trans hpool, fun r hr => hmem r (hmem' r hr)⟩

/-- What `quit` does to the pool, with the completions delivered while it waits. -/
structure Manager.Quits (s : Manager) (ls : List Label) (s' : Manager) : Prop where
  madeUp : ∀ l ∈ ls, Label.madeUp l = true
  run : ∃ s₁ s₂, system.step (.call .quit) s = .ok s₁ ∧ system.Leads s₁ ls s₂ ∧
    system.step .closeReturns s₂ = .ok s'

/-- `quit` itself leaves the pool as it finds it. -/
theorem quit_pool (hquit : system.step (.call .quit) s = .ok s₁) :
    s₁.pool = s.pool ∧ s₁.pending = s.pending := by
  have hpending : s₁.pending = s.pending ++ [] := step_pending (l := .call .quit) hquit
  rw [List.append_nil] at hpending
  exact ⟨(Except.pure_eq_ok.mp (step_pool (l := .call .quit) hquit)).symm, hpending⟩

theorem closeReturns_pool (h : system.step .closeReturns s = .ok s') : s'.pool = s.pool :=
  (Except.pure_eq_ok.mp (step_pool (l := .closeReturns) h)).symm

/-- A completion that comes while `quit` waits. -/
theorem quits_of_apply {c : Manager.Completion} (hmem : r ∈ s.pending) (ha : c.Answers r = true)
    (hrc : c.rc = -116) (hp : ((Label.deliver r c).poolOp s).apply s.pool = .ok p) :
    ∃ s', s.Quits [.deliver r c] s' ∧ s'.pool = p := by
  have hquit : system.step (.call .quit) s = .ok { s with session := s.session.quit } := rfl
  obtain ⟨t, ht, rfl⟩ := exists_step_deliver (s := { s with session := s.session.quit })
    (r := r) (c := c) (p := p) (by cases c <;> exact hp)
  have hleads : system.Leads { s with session := s.session.quit } ([] ++ [.deliver r c]) t :=
    Leads.nil.snoc ⟨hmem, ha⟩ ht
  exact ⟨_, ⟨by simpa [Label.madeUp] using hrc, _, t, hquit, hleads, rfl⟩, rfl⟩

/-- Whatever the client completes meanwhile, `quit` drops exactly the ephemeral nodes if
there are none, and no request in flight is one whose failure touches the pool. -/
theorem quit_dropsEphemeral_iff (hs : system.Reachable s) :
    (∀ ls s', s.Quits ls s' → s.pool.DropsEphemeral s'.pool) ↔ s.pool.NoEphemeral ∧ s.Quiet := by
  have hsound := sound_of_reachable hs
  constructor
  · intro h
    have hnone : s.pool.NoEphemeral := by
      have hquits : s.Quits [] { s with session := s.session.quit.closeReturns } :=
        ⟨by simp, _, _, rfl, .nil, rfl⟩
      have hsame := h [] _ hquits
      exact (Pool.dropsEphemeral_refl_iff hsound).mp hsame
    refine ⟨hnone, ?_⟩
    intro r hmem
    refine ⟨?_, ?_⟩
    · intro hop
      by_contra hcon
      obtain ⟨hne, n, hk⟩ := (not_or.mp hcon).imp_right not_not.mp
      obtain ⟨d, hl, hd⟩ := hsound r.path n hk
      obtain ⟨p, hp, hc⟩ := Pool.acreateCompletion_pooled (.ofInt (-116)) none hne hk hl hd
      obtain ⟨s', hquits, rfl⟩ :=
        quits_of_apply (c := .create (-116) none) hmem (by simp [Manager.Completion.Answers, hop]) rfl hp
      -- the node is not ephemeral, and its entry is gone
      have hx : s.pool.pooled r.path = some (n, d) := Pool.pooled_eq_some.mpr ⟨hk, hl⟩
      have hentry := ((h _ _ hquits).entries r.path n).mpr ⟨d, hx, hnone _ _ hk _ hx⟩
      have hgone : s'.pool.lookup r.path = none := by
        have hpath : r.path = Pool.reportedPath none r.path := rfl
        rw [hc.lookup, if_pos hpath]
        rfl
      cases hgone.symm.trans hentry
    · intro hop
      by_contra hcon
      have hk := Pool.not_contains_iff.mp hcon
      have hset : (ZooKeeperError.ofInt (-116)).settles = false := rfl
      have hread : s.pool.agetCompletion (.ofInt (-116)) (completionValue none) r.path =
          .ok (s.pool.indexed r.path) := Pool.agetCompletion_of_not_settles hset
      obtain ⟨s', hquits, hpool⟩ := quits_of_apply (c := .get (-116) none) hmem
        (by simp [Manager.Completion.Answers, hop]) rfl hread
      have hnull : s'.pool.lookup r.path = some none := by
        rw [hpool]
        simp [Pool.lookup_indexed, hk]
      cases hk.symm.trans (((h _ _ hquits).nulls r.path).mp hnull)
  · rintro ⟨hnone, hquiet⟩ ls s' ⟨hls, s₁, s₂, hquit, hleads, hreturn⟩
    obtain ⟨hpool, hpending⟩ := quit_pool hquit
    have hquiet₁ : s₁.Quiet := by
      intro r hr
      rw [hpool]
      exact hquiet r (hpending ▸ hr)
    rw [closeReturns_pool hreturn, pool_of_leads hquiet₁ hleads hls, hpool]
    exact (Pool.dropsEphemeral_refl_iff hsound).mpr hnone

/-- A session with one node of the given type. -/
def oneNode (type : ZooKeeperNodeType) : List Label :=
  sessionOpen ++ [.call (.createNode { type := type, path := "/a" } 0 0 0)]

/-- A persistent node, and a read of it in flight. -/
def readOfOne : List Label :=
  oneNode .persistentNode ++
    [.deliver { ctx := 0, op := .create, path := "/a", node := some 0 } (.create 0 (some "/a")),
     .call (.getNodeValue "/a" false false 0 1 1)]

end QtZooKeeper
