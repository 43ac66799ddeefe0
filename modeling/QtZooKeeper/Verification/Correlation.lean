-- SUMMARY: Which completions change no other node than the one their own call returned.
import QtZooKeeper.Manager.PooledNodes
import QtZooKeeper.Manager.Steps

/-!
# Requests and their nodes

A completion has only the path of its request to find a node with. After the
path was deleted and pooled again, or after another completion renamed the entry,
the node under that path belongs to somebody else.
-/

namespace QtZooKeeper

open FallibleSystem

variable {s s' : Manager} {l : Label} {tr : List (Manager × Label)}
variable {p p' : Pool} {m n : NodeId} {d : ZooKeeperNode} {own : NodePtr}

/-! ## Changes to one node -/

namespace Pool

/-- From `p` to `p'` no other node than `own` changes or emits a signal. -/
structure TouchesOnly (p p' : Pool) (own : NodePtr) : Prop where
  nodes : ∀ m, own ≠ some m → p'.nodes m = p.nodes m
  signals : ∃ new, p'.signals = p.signals ++ new ∧ ∀ x ∈ new, own = some x.node

theorem TouchesOnly.of_same (hn : p'.nodes = p.nodes) (hs : p'.signals = p.signals) :
    p.TouchesOnly p' own where
  nodes m _ := by rw [hn]
  signals := ⟨[], by simp [hs], by simp⟩

/-- The signals of a step are those of one node. -/
theorem touchesOnly_iff {new : List NodeSignal} (hs : p'.signals = p.signals ++ new)
    (hn : ∀ m, m ≠ n → p'.nodes m = p.nodes m) (hnew : ∀ x ∈ new, x.node = n) :
    p.TouchesOnly p' own ↔ own = some n ∨ (p'.nodes n = p.nodes n ∧ new = []) := by
  constructor
  · intro h
    by_cases ho : own = some n
    · exact .inl ho
    · refine .inr ⟨h.nodes n ho, ?_⟩
      obtain ⟨new', hs', hown⟩ := h.signals
      obtain rfl : new = new' := List.append_cancel_left (hs.symm.trans hs')
      rw [List.eq_nil_iff_forall_not_mem]
      intro x hx
      exact ho (hnew x hx ▸ hown x hx)
  · rintro (rfl | ⟨hnode, rfl⟩)
    · refine ⟨?_, new, hs, ?_⟩
      · intro m hm
        exact hn m fun hmn => hm (by rw [hmn])
      · intro x hx
        rw [hnew x hx]
    · refine .of_same ?_ (by simpa using hs)
      funext m
      by_cases hm : m = n
      · rw [hm, hnode]
      · exact hn m hm

end Pool

/-! ## What an answer changes -/

/-- The answer of a read says of a node what its fields say already. -/
def ZooKeeperNode.confirmedBy (d : ZooKeeperNode) (error : ZooKeeperError) (value : QByteArray) :
    Bool :=
  match error with
  | .noError => d.value = value && d.exists_
  | .noNode => !d.exists_
  | _ => true

theorem ZooKeeperNode.answered_eq_self_iff (n : NodeId) {error : ZooKeeperError}
    {value : QByteArray} :
    (d.answered error value = d ∧ Pool.answerSignals n d error value = []) ↔
      d.confirmedBy error value = true := by
  obtain ⟨e, path, v, type⟩ := d
  cases error with
  | noError =>
    by_cases hv : v = value
    · subst hv
      cases e <;> simp [answered, Pool.answerSignals, confirmedBy]
    · simp [answered, confirmedBy, hv, Ne.symm hv]
  | noNode => cases e <;> simp [answered, Pool.answerSignals, confirmedBy]
  | _ => simp [answered, Pool.answerSignals, confirmedBy]

/-- The answer of a create is `NodeExists`, which the node knows already. -/
def ZooKeeperNode.confirmedByCreate (d : ZooKeeperNode) (error : ZooKeeperError) : Bool :=
  error = .nodeExists && d.exists_

/-! ## The completions of a run -/

/-- The step completes no create or get, or it changes at most the node the call
returned. -/
def CompletesOwn (s : Manager) : Label → Prop
  | .deliver r (.create rc name) =>
    ∀ s', system.step (.deliver r (.create rc name)) s = .ok s' →
      s.pool.TouchesOnly s'.pool r.node
  | .deliver r (.get rc value) =>
    ∀ s', system.step (.deliver r (.get rc value)) s = .ok s' →
      s.pool.TouchesOnly s'.pool r.node
  | _ => True

/-- The node pooled under the path of the request is the one the call returned,
or the answer tells that node nothing new. -/
def findsOwn (s : Manager) : Label → Prop
  | .deliver r (.create rc _) =>
    r.path = "" ∨ ∀ x ∈ s.pool.pooled r.path,
      r.node = some x.1 ∨ x.2.confirmedByCreate (.ofInt rc) = true
  | .deliver r (.get rc value) =>
    ∀ x ∈ s.pool.pooled r.path,
      r.node = some x.1 ∨ x.2.confirmedBy (.ofInt rc) (completionValue value) = true
  | _ => True

instance (s : Manager) (l : Label) : Decidable (findsOwn s l) := by
  unfold findsOwn
  split <;> infer_instance

/-- A completed create changes nothing of the node it finds exactly if the answer is
`NodeExists` and the node exists already. -/
theorem Pool.Completed.unchanged_iff {pathOld path : QString} {error : ZooKeeperError}
    (hl : p.nodes.Live n d) (hc : p.Completed p' n d error pathOld path)
    (hpath : error = .nodeExists → d.path = path) :
    (p'.nodes n = p.nodes n ∧ Pool.createSignals n d error = []) ↔
      d.confirmedByCreate error = true := by
  have hlive : p.nodes n = some ⟨d, false⟩ := hl
  cases hkeep : error.keepsNode with
  | false =>
    have herr : error ≠ .nodeExists := by
      rintro rfl
      cases hkeep
    rw [hc.nodes, hlive, hkeep]
    simp [ZooKeeperNode.confirmedByCreate, herr, Heap.schedule_self]
  | true =>
    rcases ZooKeeperError.keepsNode_iff.mp hkeep with rfl | rfl
    · simp [Pool.createSignals, ZooKeeperNode.confirmedByCreate]
    · rw [hc.node_nodeExists_iff hl (hpath rfl)]
      simp [Pool.createSignals, ZooKeeperNode.confirmedByCreate]

/-- Where the operation on the pool goes through, the completion leaves that pool. -/
theorem touchesOnly_deliver_iff {r : Request} {c : Manager.Completion} {p : Pool}
    (hp : ((Label.deliver r c).poolOp s).apply s.pool = .ok p) :
    (∀ s', system.step (.deliver r c) s = .ok s' → s.pool.TouchesOnly s'.pool r.node) ↔
      s.pool.TouchesOnly p r.node := by
  constructor
  · intro h
    obtain ⟨s', hstep, rfl⟩ := exists_step_deliver hp
    exact h s' hstep
  · intro h s' hstep
    have hpool := step_pool (l := .deliver r c) hstep
    obtain rfl := Except.ok.inj (hp.symm.trans hpool)
    exact h

theorem completesOwn_create_iff (hs : s.pool.Sound) {r : Request} {rc : Int} {name : Option QString}
    (hc : (Manager.Completion.create rc name).Answers r = true) :
    CompletesOwn s (.deliver r (.create rc name)) ↔ findsOwn s (.deliver r (.create rc name)) := by
  have hpool : ∀ {s'}, system.step (.deliver r (.create rc name)) s = .ok s' →
      s.pool.acreateCompletion (.ofInt rc) name r.path = .ok s'.pool :=
    fun h => step_pool (l := .deliver r (.create rc name)) h
  by_cases hne : r.path = ""
  · refine iff_of_true ?_ (.inl hne)
    intro s' hstep
    rcases Pool.completed_of_acreateCompletion hs (hpool hstep) with ⟨-, hp⟩ | ⟨hne', -⟩
    · exact .of_same (by rw [hp]) (by rw [hp])
    · exact absurd hne hne'
  cases hk : (s.pool.lookup r.path).join with
  -- nothing to find: the step faults
  | none =>
    refine iff_of_true ?_ (.inr ?_)
    · intro s' hstep
      have hp := hpool hstep
      rw [Pool.acreateCompletion_missing hne hk] at hp
      cases hp
    · simp [hs.pooled_eq_none.mpr hk]
  | some n =>
    rw [Option.join_eq_some_iff] at hk
    obtain ⟨d, hl, hd⟩ := hs r.path n hk
    have hpooled := Pool.pooled_eq_some.mpr ⟨hk, hl⟩
    obtain ⟨p, hp, hcomp⟩ := Pool.acreateCompletion_pooled (.ofInt rc) name hne hk hl hd
    have htouch : s.pool.TouchesOnly p r.node ↔ _ :=
      Pool.touchesOnly_iff hcomp.signals (fun m hm => hcomp.nodes_of_ne hm) Pool.node_createSignals
    -- a failed create reports no name
    have hpath : ZooKeeperError.ofInt rc = .nodeExists → d.path = Pool.reportedPath name r.path := by
      intro he
      have hrc : rc ≠ 0 := by
        rintro rfl
        cases he
      have hname : name = none := by
        simp only [Manager.Completion.Answers, hrc, decide_false, Bool.false_or,
          Bool.and_eq_true, Option.isNone_iff_eq_none] at hc
        exact hc.2
      rw [hname, hd]
      rfl
    rw [CompletesOwn, touchesOnly_deliver_iff (c := .create rc name) hp, htouch,
      hcomp.unchanged_iff hl hpath]
    simp only [findsOwn, hpooled, hne, false_or, Option.mem_some_iff, forall_eq']

theorem completesOwn_get_iff (hs : s.pool.Sound) {r : Request} {rc : Int} {value : ZnodeData} :
    CompletesOwn s (.deliver r (.get rc value)) ↔ findsOwn s (.deliver r (.get rc value)) := by
  have hpool : ∀ {s'}, system.step (.deliver r (.get rc value)) s = .ok s' →
      s.pool.agetCompletion (.ofInt rc) (completionValue value) r.path = .ok s'.pool :=
    fun h => step_pool (l := .deliver r (.get rc value)) h
  cases hk : (s.pool.lookup r.path).join with
  | none =>
    refine iff_of_true ?_ ?_
    · intro s' hstep
      have hp := hpool hstep
      cases hset : (ZooKeeperError.ofInt rc).settles with
      | true =>
        rw [Pool.agetCompletion_missing hset hk] at hp
        cases hp
      | false =>
        rw [Pool.agetCompletion_of_not_settles hset, Except.ok.injEq] at hp
        exact .of_same (by rw [← hp, Pool.nodes_indexed]) (by rw [← hp, Pool.signals_indexed])
    · simp [findsOwn, hs.pooled_eq_none.mpr hk]
  | some n =>
    rw [Option.join_eq_some_iff] at hk
    obtain ⟨d, hl, -⟩ := hs r.path n hk
    have hpooled := Pool.pooled_eq_some.mpr ⟨hk, hl⟩
    obtain ⟨p, hp, -, hnodes, hsignals⟩ :=
      Pool.agetCompletion_pooled (.ofInt rc) (completionValue value) hk hl
    have hothers : ∀ m, m ≠ n → p.nodes m = s.pool.nodes m := by
      intro m hm
      rw [hnodes]
      exact Heap.put_of_ne hm
    have htouch : s.pool.TouchesOnly p r.node ↔ _ :=
      Pool.touchesOnly_iff hsignals hothers Pool.node_answerSignals
    have hlive : s.pool.nodes n = some ⟨d, false⟩ := hl
    have hsame : (p.nodes n = s.pool.nodes n ∧
        Pool.answerSignals n d (.ofInt rc) (completionValue value) = []) ↔
        d.confirmedBy (.ofInt rc) (completionValue value) = true := by
      rw [← ZooKeeperNode.answered_eq_self_iff n, hnodes, hlive]
      simp
    rw [CompletesOwn, touchesOnly_deliver_iff (c := .get rc value) hp, htouch, hsame]
    simp only [findsOwn, hpooled, Option.mem_some_iff, forall_eq']

theorem completesOwn_iff (hs : system.Reachable s) (he : system.enabled l s) :
    CompletesOwn s l ↔ findsOwn s l := by
  cases l with
  | deliver r c =>
    cases c with
    | create rc name => exact completesOwn_create_iff (sound_of_reachable hs) he.2
    | get rc value => exact completesOwn_get_iff (sound_of_reachable hs)
    | _ => exact Iff.rfl
  | _ => exact Iff.rfl

/-- The runs in which every completion changes at most the node of its own call
are those in which each finds that node, or tells another one nothing new. -/
theorem completions_own_iff (h : system.Run tr s) : Each CompletesOwn tr ↔ Each findsOwn tr :=
  h.each_congr fun _ _ hs he => completesOwn_iff hs he

/-- `/a` is created, deleted and created again. -/
def recreated : List Label :=
  sessionOpen ++
    [.call (.createNode { type := .persistentNode, path := "/a" } 0 0 0),
     .call (.deleteNode "/a" 0 1),
     .call (.createNode { type := .persistentNode, path := "/a" } 0 2 1)]

/-- Two creates of different paths, completed in the other order. -/
def createdApart : List Label :=
  sessionOpen ++
    [.call (.createNode { type := .sequenceNode, path := "/a" } 0 0 0),
     .call (.createNode { type := .persistentNode, path := "/b" } 0 1 1),
     .deliver { ctx := 1, op := .create, path := "/b", node := some 1 } (.create 0 (some "/b")),
     .deliver { ctx := 0, op := .create, path := "/a", node := some 0 }
       (.create 0 (some "/a0000000001"))]

/-- The completion of the first create tells the second node that it exists. -/
theorem recreated_not_own :
    ¬ ∀ s l, system.Reachable s → system.enabled l s → CompletesOwn s l := by
  intro h
  have hs : system.Reachable (system.execGet recreated (by decide)).2 :=
    reachable_execGet recreated (by decide)
  have he : system.enabled (.deliver { ctx := 0, op := .create, path := "/a", node := some 0 }
      (.create 0 (some "/a"))) (system.execGet recreated (by decide)).2 := by decide
  have hfinds := (completesOwn_iff hs he).mp (h _ _ hs he)
  exact absurd hfinds (by decide)

theorem createdApart_own : Each CompletesOwn (system.execGet createdApart (by decide)).1 :=
  (completions_own_iff (run_execGet createdApart (by decide))).mpr (by unfold Each; decide)

end QtZooKeeper
