-- SUMMARY: Which runs keep the node pool well formed, and in which runs no completion misuses a node.
import QtZooKeeper.Manager.Steps

/-!
# Safety of the node pool

A completion looks its node up by path, and by the time it runs the node may be
gone. Two things follow. `agetCompletion` uses the index operator, which puts a
null entry into the pool. And a completion that uses the node it found can be
handed a null pointer. A pooled node itself is never dangling
(`sound_of_reachable`), so both come down to the entry being there.
-/

namespace QtZooKeeper

open FallibleSystem

variable {s s' : Manager} {l : Label} {tr : List (Manager × Label)}

/-! ## Well-formed pools -/

namespace Pool

/-- Every entry points to a live node of that path. -/
def WellFormed (p : Pool) : Prop :=
  ∀ k node, p.lookup k = some node → ∃ n d, node = some n ∧ p.nodes.Live n d ∧ d.path = k

theorem wellFormed_iff {p : Pool} : p.WellFormed ↔ p.Sound ∧ p.NoNull := by
  constructor
  · intro h
    refine ⟨?_, ?_⟩
    · intro k n hk
      obtain ⟨m, d, hm, hl, hd⟩ := h k (some n) hk
      obtain rfl : n = m := by simpa using hm
      exact ⟨d, hl, hd⟩
    · intro k hk
      obtain ⟨m, d, hm, -⟩ := h k none hk
      cases hm
  · intro ⟨hs, hn⟩ k node hk
    cases node with
    | none => exact absurd hk (hn k)
    | some n =>
      obtain ⟨d, hl, hd⟩ := hs k n hk
      exact ⟨n, d, rfl, hl, hd⟩

/-- The loop over a well-formed pool only uses live nodes, each once. -/
theorem WellFormed.processDisconnected {p : Pool} (h : p.WellFormed) :
    ∃ p', p.processDisconnected = .ok p' := by
  obtain ⟨hsound, hnull⟩ := wellFormed_iff.mp h
  -- the loop schedules one node after the other, so no node may come twice
  have hlive : ∀ node ∈ p.nodePool.values, ∃ n d, node = some n ∧ p.nodes.Live n d := by
    intro node hmem
    obtain ⟨k, hk⟩ := KeyTable.mem_values_iff.mp hmem
    obtain ⟨n, d, hn, hl, -⟩ := h k node hk
    exact ⟨n, d, hn, hl⟩
  have hnodup : p.nodePool.values.Nodup := by
    refine KeyTable.nodup_values ?_
    intro k k' node hk hk'
    cases node with
    | none => exact absurd hk (hnull k)
    | some n => exact hsound.injective hk hk'
  obtain ⟨q, hq⟩ := deleteAll_live hlive hnodup
  exact ⟨_, Except.bind_eq_ok.mpr ⟨q, hq, rfl⟩⟩

/-- What `findNode` and the branches for a pooled path rely on. -/
def HitsAreReal (p : Pool) : Prop :=
  ∀ path, p.contains path = true → ∃ n d, p.value path = some n ∧ p.nodes.Live n d ∧ d.path = path

theorem WellFormed.hitsAreReal {p : Pool} (h : p.WellFormed) : p.HitsAreReal := by
  intro path hc
  obtain ⟨node, hk⟩ := contains_iff.mp hc
  obtain ⟨n, d, rfl, hl, hd⟩ := h path node hk
  exact ⟨n, d, value_eq hk, hl, hd⟩

end Pool

/-- While the pool is well formed no event of the session callback faults. -/
theorem watcher_progress (h : s.pool.WellFormed) (zzh : HandleId) (type : ZooKeeperType)
    (state : Int) (path : QString) (client : Int) :
    ∃ s', s.watcher zzh type state path client = .ok s' := by
  obtain ⟨pool, hpool⟩ := h.processDisconnected
  have hsession : ∃ t, s.sessionEvent zzh (.ofInt state) client = .ok t := by
    unfold Manager.sessionEvent
    split
    · exact ⟨_, rfl⟩
    · exact ⟨_, rfl⟩
    · exact ⟨_, Except.bind_eq_ok.mpr ⟨pool, hpool, rfl⟩⟩
  obtain ⟨t, ht⟩ := hsession
  by_cases htype : type = .sessionEvent
  · exact ⟨_, Except.bind_eq_ok.mpr ⟨t, by rw [if_pos htype, ht], rfl⟩⟩
  · exact ⟨_, Except.bind_eq_ok.mpr ⟨s, by rw [if_neg htype]; rfl, rfl⟩⟩

/-- The completion of a read with an answer other than `NoError` and `NoNode`
finds its path in the pool. -/
def completesPooledRead (s : Manager) : Label → Prop
  | .deliver r (.get rc _) =>
    (ZooKeeperError.ofInt rc).settles = true ∨ s.pool.contains r.path = true
  | _ => True

instance (s : Manager) : (l : Label) → Decidable (completesPooledRead s l)
  | .deliver r (.get rc _) =>
    inferInstanceAs (Decidable ((ZooKeeperError.ofInt rc).settles = true ∨
      s.pool.contains r.path = true))
  | .deliver _ (.create _ _) | .deliver _ (.delete _) | .deliver _ (.exists_ _) | .deliver _ (.set _)
  | .deliver _ (.getChildren _ _) | .call _ | .watcher .. | .watchEvent .. | .timer _
  | .closeReturns => inferInstanceAs (Decidable True)

theorem not_addsNull_iff : ¬ s.pool.AddsNull (l.poolOp s) ↔ completesPooledRead s l := by
  cases l with
  | deliver r c =>
    cases c with
    | get rc value =>
      simp only [Label.poolOp, Pool.AddsNull, completesPooledRead, not_and_or, Bool.not_eq_false,
        ← Pool.not_contains_iff, not_not]
    | _ => simp [Label.poolOp, Pool.AddsNull, completesPooledRead]
  | call c =>
    cases c with
    | createNode a ret ctx n =>
      rcases Call.poolOp_createNode s a ret ctx n with hop | ⟨-, -, hop⟩
      · rw [Label.poolOp, hop]
        exact iff_of_true id trivial
      · rw [Label.poolOp, hop]
        exact iff_of_true id trivial
    | createNodeSync a ret newPath n =>
      rcases Call.poolOp_createNodeSync s a ret newPath n with hop | ⟨-, -, hop⟩
      · rw [Label.poolOp, hop]
        exact iff_of_true id trivial
      · rw [Label.poolOp, hop]
        exact iff_of_true id trivial
    | _ => simp [Label.poolOp, Call.poolOp, Pool.AddsNull, completesPooledRead]
  | watcher zzh type state path client =>
    simp only [Label.poolOp, completesPooledRead, iff_true]
    split <;> exact id
  | _ => simp [Label.poolOp, Pool.AddsNull, completesPooledRead]

/-- A step keeps the pool well formed exactly if it does not complete a read
that found no node to use and no entry. -/
theorem step_wellFormed_iff (hs : system.Reachable s) (hs' : system.Reachable s')
    (h : s.pool.WellFormed) (hstep : system.step l s = .ok s') :
    s'.pool.WellFormed ↔ completesPooledRead s l := by
  have hnull := Pool.NoNull.apply_iff (sound_of_reachable hs) (Pool.wellFormed_iff.mp h).2
    (step_pool hstep)
  rw [Pool.wellFormed_iff, ← not_addsNull_iff, ← hnull]
  exact ⟨fun h => h.2, fun h => ⟨sound_of_reachable hs', h⟩⟩

theorem wellFormed_init : system.init.pool.WellFormed := by
  intro k node hk
  cases hk

/-- The runs whose pools are well formed all along, with the consequence for the
pool hits, are those in which no read is completed on a missing entry. -/
theorem pool_wellFormed_iff (h : system.Run tr s) :
    Always (fun s => s.pool.WellFormed ∧ s.pool.HitsAreReal) tr s ↔ Each completesPooledRead tr := by
  have hhits : ∀ s : Manager, (s.pool.WellFormed ∧ s.pool.HitsAreReal) ↔ s.pool.WellFormed :=
    fun s => ⟨fun h => h.1, fun h => ⟨h, h.hitsAreReal⟩⟩
  simp only [hhits]
  refine h.always_iff_each (Q := system.Reachable) wellFormed_init ?_ ?_
  · intro tr s hr _
    exact ⟨tr, hr⟩
  · intro s l s' hs hP he hstep
    exact step_wellFormed_iff hs (hs.step he hstep) hP hstep

/-- A read of `/a` that ends with `ConnectionLoss` after `/a` was deleted. -/
def readAfterDelete : List Label :=
  sessionOpen ++
    [.call (.getNodeValue "/a" false false 0 0 0), .call (.deleteNode "/a" 0 1),
     .deliver { ctx := 0, op := .get, path := "/a", node := some 0 } (.get (-4) none)]

/-- A read of `/a` that is answered while the node is pooled. -/
def plainRead : List Label :=
  sessionOpen ++
    [.call (.getNodeValue "/a" false false 0 0 0),
     .deliver { ctx := 0, op := .get, path := "/a", node := some 0 } (.get 0 (some [104, 105]))]

/-- The completion leaves a null entry under `/a`. -/
theorem readAfterDelete_not_wellFormed :
    ¬ ∀ s, system.Reachable s → s.pool.WellFormed := by
  intro h
  have hwf := h _ (reachable_execGet readAfterDelete (by decide))
  have hk : (system.execGet readAfterDelete (by decide)).2.pool.lookup "/a" = some none := by decide
  obtain ⟨n, d, hn, -⟩ := hwf "/a" none hk
  cases hn

theorem plainRead_wellFormed :
    Always (fun s => s.pool.WellFormed ∧ s.pool.HitsAreReal)
      (system.execGet plainRead (by decide)).1 (system.execGet plainRead (by decide)).2 :=
  (pool_wellFormed_iff (run_execGet plainRead (by decide))).mpr (by unfold Each; decide)

/-! ## Completions -/

/-- The requests whose completion uses a node. -/
def Request.needsNode (r : Request) : Bool :=
  r.op = .get || (r.op = .create && !(r.path = ""))

/-- No completion the client can deliver now uses a null or dangling node. -/
def CompletionsSafe (s : Manager) : Prop :=
  ∀ r c, system.enabled (.deliver r c) s → ∃ s', system.step (.deliver r c) s = .ok s'

/-- A step leaves the entry of a path alone as long as another create or get for
that path is in flight. -/
def sparesPending (s : Manager) (l : Label) : Prop :=
  ∀ r ∈ l.remaining s, r.needsNode = true → ¬ (l.poolOp s).Drops r.path

instance (s : Manager) (l : Label) : Decidable (sparesPending s l) := by
  unfold sparesPending
  infer_instance

/-- A completion goes through exactly where its operation on the pool does. -/
theorem deliver_ok_iff {r : Request} {c : Manager.Completion} :
    (∃ s', s.deliver r c = .ok s') ↔ ∃ p, ((Label.deliver r c).poolOp s).apply s.pool = .ok p := by
  constructor
  · rintro ⟨s', hs'⟩
    exact ⟨s'.pool, step_pool (l := .deliver r c) hs'⟩
  · rintro ⟨p, hp⟩
    obtain ⟨s', hs', -⟩ := exists_step_deliver hp
    exact ⟨s', hs'⟩

theorem deliver_create_ok_iff (hs : s.pool.Sound) {r : Request} {rc : Int} {name : Option QString} :
    (∃ s', s.acreateCompletion r rc name = .ok s') ↔ r.path = "" ∨ s.pool.Holds r.path := by
  have hpool : (∃ s', s.acreateCompletion r rc name = .ok s') ↔
      ∃ p, s.pool.acreateCompletion (.ofInt rc) name r.path = .ok p :=
    deliver_ok_iff (c := .create rc name)
  rw [hpool]
  by_cases hne : r.path = ""
  · simp [hne, Pool.acreateCompletion, pure, Except.pure]
  · constructor
    · rintro ⟨p, hp⟩
      cases hk : (s.pool.lookup r.path).join with
      | none =>
        rw [Pool.acreateCompletion_missing hne hk] at hp
        cases hp
      | some n => exact .inr ⟨n, Option.join_eq_some_iff.mp hk⟩
    · intro h
      obtain ⟨n, hk⟩ := h.resolve_left hne
      obtain ⟨d, hl, hd⟩ := hs r.path n hk
      obtain ⟨p, hp, -⟩ := Pool.acreateCompletion_pooled (.ofInt rc) name hne hk hl hd
      exact ⟨p, hp⟩

theorem deliver_get_ok_iff (hs : s.pool.Sound) {r : Request} {rc : Int} {value : ZnodeData} :
    (∃ s', s.agetCompletion r rc value = .ok s') ↔
      (ZooKeeperError.ofInt rc).settles = false ∨ s.pool.Holds r.path := by
  have hpool : (∃ s', s.agetCompletion r rc value = .ok s') ↔
      ∃ p, s.pool.agetCompletion (.ofInt rc) (completionValue value) r.path = .ok p :=
    deliver_ok_iff (c := .get rc value)
  rw [hpool]
  cases hset : (ZooKeeperError.ofInt rc).settles with
  | false =>
    rw [Pool.agetCompletion_of_not_settles hset]
    simp
  | true =>
    constructor
    · rintro ⟨p, hp⟩
      cases hk : (s.pool.lookup r.path).join with
      | none =>
        rw [Pool.agetCompletion_missing hset hk] at hp
        cases hp
      | some n => exact .inr ⟨n, Option.join_eq_some_iff.mp hk⟩
    · intro h
      obtain ⟨n, hk⟩ := h.resolve_left (by simp)
      obtain ⟨d, hl, -⟩ := hs r.path n hk
      obtain ⟨p, hp, -⟩ := Pool.agetCompletion_pooled (.ofInt rc) (completionValue value) hk hl
      exact ⟨p, hp⟩

/-- The completions are safe exactly when every create and get in flight has a
node in the pool. -/
theorem completionsSafe_iff (hs : s.pool.Sound) :
    CompletionsSafe s ↔ ∀ r ∈ s.pending, r.needsNode = true → s.pool.Holds r.path := by
  constructor
  · intro h r hr hneeds
    simp only [Request.needsNode, Bool.or_eq_true, decide_eq_true_eq, Bool.and_eq_true,
      Bool.not_eq_true', decide_eq_false_iff_not] at hneeds
    rcases hneeds with hop | ⟨hop, hne⟩
    · have hsafe := h r (.get 0 none) ⟨hr, by simp [Manager.Completion.Answers, hop]⟩
      exact ((deliver_get_ok_iff hs).mp hsafe).resolve_left (by decide)
    · have hsafe := h r (.create 0 none) ⟨hr, by simp [Manager.Completion.Answers, hop]⟩
      exact ((deliver_create_ok_iff hs).mp hsafe).resolve_left hne
  · intro h r c ⟨hr, hc⟩
    cases c with
    | create rc name =>
      refine (deliver_create_ok_iff hs).mpr ?_
      by_cases hne : r.path = ""
      · exact .inl hne
      · simp only [Manager.Completion.Answers, Bool.and_eq_true, decide_eq_true_eq] at hc
        exact .inr (h r hr (by simp [Request.needsNode, hc.1, hne]))
    | get rc value =>
      refine (deliver_get_ok_iff hs).mpr (.inr ?_)
      simp only [Manager.Completion.Answers, Bool.and_eq_true, decide_eq_true_eq] at hc
      exact h r hr (by simp [Request.needsNode, hc.1])
    | _ => exact ⟨_, rfl⟩

/-- The calls that bring a create or a get into flight. -/
theorem accepted_cases {r : Request} (hr : l.accepted s = some r) :
    (∃ a ctx n, l = .call (.createNode a 0 ctx n) ∧ ¬ s.pool.contains a.path = true ∧
      r.op = .create ∧ r.path = a.path) ∨
    (∃ path callback wantsError ctx n, l = .call (.getNodeValue path callback wantsError 0 ctx n) ∧
      r.op = .get ∧ r.path = path) ∨
    (r.op ≠ .create ∧ r.op ≠ .get) := by
  have hsome : ∀ {ret : Int} {q : Request}, (if ret = 0 then some q else none) = some r →
      ret = 0 ∧ q = r := by
    intro ret q h
    split at h
    · next hret => exact ⟨hret, Option.some.inj h⟩
    · cases h
  cases l with
  | call c =>
    cases c with
    | createNode a ret ctx n =>
      simp only [Label.accepted, Call.accepted] at hr
      split at hr
      · cases hr
      · next hc =>
        obtain ⟨rfl, rfl⟩ := hsome hr
        exact .inl ⟨a, ctx, n, rfl, hc, rfl, rfl⟩
    | getNodeValue path callback wantsError ret ctx n =>
      obtain ⟨rfl, rfl⟩ := hsome hr
      exact .inr (.inl ⟨path, callback, wantsError, ctx, n, rfl, rfl, rfl⟩)
    | deleteNode path ret ctx =>
      obtain ⟨rfl, rfl⟩ := hsome hr
      exact .inr (.inr ⟨by simp, by simp⟩)
    | existsNode path ret ctx =>
      obtain ⟨rfl, rfl⟩ := hsome hr
      exact .inr (.inr ⟨by simp, by simp⟩)
    | setNodeValue path value ret ctx =>
      obtain ⟨rfl, rfl⟩ := hsome hr
      exact .inr (.inr ⟨by simp, by simp⟩)
    | getChildrenNode path callback ret ctx =>
      obtain ⟨rfl, rfl⟩ := hsome hr
      exact .inr (.inr ⟨by simp, by simp⟩)
    | _ => cases hr
  | _ => cases hr

/-- A new create has its node in the pool. -/
theorem holds_accepted_create (hstep : l.step s = .ok s') {r : Request}
    (hr : l.accepted s = some r) (hop : r.op = .create) : s'.pool.Holds r.path := by
  have hpool := step_pool hstep
  rcases accepted_cases hr with ⟨a, ctx, n, rfl, hc, -, hpath⟩ | ⟨_, _, _, _, _, _, hget, -⟩ | ⟨hne, -⟩
  · have hzero : ZooKeeperError.ofInt 0 = .noError := rfl
    simp only [Label.poolOp, Call.poolOp, if_neg hc, if_pos hzero, PoolOp.apply,
      Except.pure_eq_ok] at hpool
    rw [← hpool, hpath]
    exact ⟨n, by simp [Pool.createNode]⟩
  · cases hop.symm.trans hget
  · exact absurd hop hne

/-- A new create or get has its node in the pool. -/
theorem holds_accepted (hn : s.pool.NoNull) (hstep : l.step s = .ok s') {r : Request}
    (hr : l.accepted s = some r) (hneeds : r.needsNode = true) : s'.pool.Holds r.path := by
  have hpool := step_pool hstep
  rcases accepted_cases hr with ⟨_, _, _, _, _, hop, -⟩ |
    ⟨path, callback, wantsError, ctx, n, rfl, -, hpath⟩ | ⟨hcreate, hget⟩
  · exact holds_accepted_create hstep hr hop
  · simp only [Label.poolOp, Call.poolOp, PoolOp.apply, Except.pure_eq_ok] at hpool
    rw [← hpool, hpath]
    rcases s.pool.readNode_cases path n with ⟨node, hk, hread⟩ | ⟨-, hread⟩
    · cases node with
      | none => exact absurd hk (hn path)
      | some m => exact ⟨m, by rw [hread, hk]⟩
    · exact ⟨n, by simp [hread]⟩
  · simp [Request.needsNode, hcreate, hget] at hneeds

/-- As long as the completions are safe no null entry comes about. -/
theorem noNull_of_safe (h : system.Run tr s) (hP : Always CompletionsSafe tr s) : s.pool.NoNull := by
  refine h.invariant_of_always (Q := fun s => s.pool.NoNull) Pool.noNull_init ?_ hP
  intro s l s' hs hsafe hn he hstep
  refine (Pool.NoNull.apply_iff (sound_of_reachable hs) hn (step_pool hstep)).mpr ?_
  rw [not_addsNull_iff]
  cases l with
  | deliver r c =>
    cases c with
    | get rc value =>
      have hop : r.op = .get := by
        have hc := he.2
        simp only [Manager.Completion.Answers, Bool.and_eq_true, decide_eq_true_eq] at hc
        exact hc.1
      obtain ⟨n, hk⟩ := (completionsSafe_iff (sound_of_reachable hs)).mp hsafe r he.1
        (by simp [Request.needsNode, hop])
      exact .inr (Pool.contains_iff.mpr ⟨_, hk⟩)
    | _ => trivial
  | _ => trivial

/-- Requests of a kind `K` that all have their node in the pool still do after a step
exactly if it spares the entries of the others in flight. -/
theorem holds_step_iff {K : Request → Bool} (hs : system.Reachable s)
    (h : ∀ r ∈ s.pending, K r = true → s.pool.Holds r.path) (he : system.enabled l s)
    (hstep : system.step l s = .ok s')
    (haccepted : ∀ r, l.accepted s = some r → K r = true → s'.pool.Holds r.path) :
    (∀ r ∈ s'.pending, K r = true → s'.pool.Holds r.path) ↔
      ∀ r ∈ l.remaining s, K r = true → ¬ (l.poolOp s).Drops r.path := by
  rw [step_pending hstep]
  -- the requests that were in flight before
  have hdrops : ∀ r ∈ l.remaining s, K r = true →
      (s'.pool.Holds r.path ↔ ¬ (l.poolOp s).Drops r.path) := by
    intro r hr hneeds
    have hmem : r ∈ s.pending := by
      cases l with
      | deliver q c => exact List.mem_of_mem_erase hr
      | _ => exact hr
    exact (h r hmem hneeds).apply_iff (sound_of_reachable hs) (enabled_pool he) (step_pool hstep)
  constructor
  · intro hb r hr hneeds
    exact (hdrops r hr hneeds).mp (hb r (List.mem_append_left _ hr) hneeds)
  · intro hspares r hr hneeds
    rcases List.mem_append.mp hr with hr | hr
    · exact (hdrops r hr hneeds).mpr (hspares r hr hneeds)
    -- a request that was just accepted finds what its call has pooled
    · exact haccepted r (Option.mem_toList.mp hr) hneeds

/-- From a state with safe completions, a step leads to another one exactly if
it spares the entries of the other requests. -/
theorem step_completionsSafe_iff (hs : system.Reachable s) (hn : s.pool.NoNull)
    (h : CompletionsSafe s) (he : system.enabled l s) (hstep : system.step l s = .ok s') :
    CompletionsSafe s' ↔ sparesPending s l := by
  rw [completionsSafe_iff (sound_of_reachable (hs.step he hstep))]
  rw [completionsSafe_iff (sound_of_reachable hs)] at h
  exact holds_step_iff hs h he hstep fun r hr hneeds => holds_accepted hn hstep hr hneeds

/-- The runs in which no completion ever meets a null or dangling node are those
in which no step takes the entry of another create or get in flight. -/
theorem completions_safe_iff (h : system.Run tr s) :
    Always CompletionsSafe tr s ↔ Each sparesPending tr := by
  refine h.always_iff_each (Q := fun s => system.Reachable s ∧ s.pool.NoNull) ?_ ?_ ?_
  · intro r c ⟨hr, _⟩
    cases hr
  · intro tr s hr hP
    exact ⟨⟨tr, hr⟩, noNull_of_safe hr hP⟩
  · intro s l s' hQ hP he hstep
    exact step_completionsSafe_iff hQ.1 hQ.2 hP he hstep

/-- A create of `/a` that is in flight while `/a` is deleted. -/
def deleteInFlight : List Label :=
  sessionOpen ++
    [.call (.createNode { type := .persistentNode, path := "/a" } 0 0 0),
     .call (.deleteNode "/a" 0 1)]

/-- A create of `/a` that is completed before `/a` is deleted. -/
def deleteCompleted : List Label :=
  sessionOpen ++
    [.call (.createNode { type := .persistentNode, path := "/a" } 0 0 0),
     .deliver { ctx := 0, op := .create, path := "/a", node := some 0 } (.create 0 (some "/a")),
     .call (.deleteNode "/a" 0 1)]

/-- Its completion, with `NoError`, uses a null pointer. -/
theorem deleteInFlight_not_safe : ¬ ∀ s, system.Reachable s → CompletionsSafe s := by
  intro h
  have hsafe := h _ (reachable_execGet deleteInFlight (by decide))
  have hfault : system.step
      (.deliver { ctx := 0, op := .create, path := "/a", node := some 0 } (.create 0 (some "/a")))
      (system.execGet deleteInFlight (by decide)).2 = .error .null := rfl
  obtain ⟨s', hs'⟩ := hsafe { ctx := 0, op := .create, path := "/a", node := some 0 }
    (.create 0 (some "/a")) (by decide)
  cases hfault.symm.trans hs'

theorem deleteCompleted_safe :
    Always CompletionsSafe (system.execGet deleteCompleted (by decide)).1
      (system.execGet deleteCompleted (by decide)).2 :=
  (completions_safe_iff (run_execGet deleteCompleted (by decide))).mpr (by unfold Each; decide)

end QtZooKeeper
