-- SUMMARY: When every live node stays pooled under its own path, and what ends the life of a node.
import QtZooKeeper.Manager.PooledNodes
import QtZooKeeper.Manager.Steps

/-!
# Displaced nodes

A node that is alive should be in the pool under its own path: then no two live
nodes share a path, and the loop of `processDisconnected` reaches all of them. The
completion of a create may move its node to a path that another node occupies.
That one drops out of the pool, still alive.
-/

namespace QtZooKeeper

open FallibleSystem

namespace Pool

variable {p p' : Pool} {k path : QString} {n m i : NodeId} {d e : ZooKeeperNode} {op : PoolOp}

/-- Every live node is pooled under its own path. -/
def InPlace (p : Pool) : Prop := ∀ n d, p.nodes.Live n d → p.lookup d.path = some (some n)

/-- No live node has been displaced from the pool. -/
structure NoneDisplaced (p : Pool) : Prop where
  pooled : ∀ n d, p.nodes.Live n d → p.lookup d.path = some (some n)
  distinct : ∀ n m d e, p.nodes.Live n d → p.nodes.Live m e → d.path = e.path → n = m
  /-- The loop over the entries comes to every live node. -/
  reached : ∀ n d, p.nodes.Live n d → some n ∈ p.nodePool.values

theorem noneDisplaced_iff : p.NoneDisplaced ↔ p.InPlace := by
  refine ⟨fun h => h.pooled, fun h => ⟨h, ?_, ?_⟩⟩
  · intro n m d e hn hm hpath
    have hk := h n d hn
    rw [hpath, h m e hm] at hk
    exact (Option.some.inj (Option.some.inj hk)).symm
  · intro n d hn
    exact KeyTable.mem_values_iff.mpr ⟨d.path, h n d hn⟩

/-! ## One step -/

/-- Where another path holds no node, no live node has that path. -/
theorem InPlace.path_ne (h : p.InPlace) (hl : p.nodes.Live n d) (hk : ¬ p.Holds k) : d.path ≠ k := by
  rintro rfl
  exact hk ⟨n, h n d hl⟩

/-- A new node under a path that holds none. -/
theorem InPlace.pool (h : p.InPlace) (hk : ¬ p.Holds path) (he : e.path = path) :
    ((p.write i e).insert path (some i)).InPlace := by
  intro n d hl
  rcases Heap.live_put.mp hl with ⟨rfl, rfl⟩ | ⟨-, hl⟩
  · simp [he]
  · simpa [h.path_ne hl hk] using h n d hl

/-- Writing a node without touching its path. -/
theorem InPlace.put (h : p.InPlace) (hi : p.nodes.Live i d) (he : e.path = d.path)
    (hn : p'.nodes = p.nodes.put i e) (hk : ∀ k, p'.lookup k = p.lookup k) : p'.InPlace := by
  intro n f hl
  rw [hn] at hl
  rw [hk]
  rcases Heap.live_put.mp hl with ⟨rfl, rfl⟩ | ⟨-, hl⟩
  · rw [he]
    exact h n d hi
  · exact h n f hl

theorem InPlace.readNode (h : p.InPlace) : (p.readNode path i).2.InPlace := by
  rcases p.readNode_cases path i with ⟨node, -, hr⟩ | ⟨hk, hr⟩
  · rw [hr]
    exact h
  · rw [hr]
    exact h.pool (not_holds_of_none hk) rfl

/-- The new node of `createNodeSync` keeps its entry unless it was created under
the requested path itself, and takes that of another node if there is one. -/
theorem InPlace.createNodeSync_iff {type : ZooKeeperNodeType} {value : QByteArray}
    {newPath : QString} (h : p.InPlace) (hp : p.Sound) (hk : p.lookup path = none)
    (hf : p.nodes.Fresh i) : (p.createNodeSync type path value newPath i).InPlace ↔
      newPath ≠ path ∧ ¬ p.Holds newPath := by
  constructor
  · intro h'
    constructor
    · rintro rfl
      have hentry := h' i _ live_createNodeSync
      rw [lookup_createNodeSync, if_pos rfl] at hentry
      cases hentry
    · rintro ⟨m, hm⟩
      obtain ⟨d, hl, hd⟩ := hp newPath m hm
      have hmi : m ≠ i := hf.ne hl
      have hentry := h' m d (hl.put_of_ne hmi)
      rw [hd, lookup_createNodeSync, if_pos rfl] at hentry
      split at hentry
      · cases hentry
      · exact hmi (Option.some.inj (Option.some.inj hentry)).symm
  · rintro ⟨hne, hnew⟩ n d hl
    rcases Heap.live_put.mp hl with ⟨rfl, rfl⟩ | ⟨-, hl⟩
    · rw [lookup_createNodeSync, if_neg hne, if_pos rfl]
    -- no other live node has the path that is removed, or the new one
    · have hd := h.path_ne hl (not_holds_of_none hk)
      rw [lookup_createNodeSync, if_neg hd, if_neg (h.path_ne hl hnew)]
      exact h n d hl

/-- The completion of a create displaces the node of the reported path, if that is
another path. -/
theorem InPlace.completed_iff {error : ZooKeeperError} {pathOld : QString} (h : p.InPlace)
    (hp : p.Sound) (hk : p.lookup pathOld = some (some i))
    (hc : p.Completed p' i d error pathOld path) :
    p'.InPlace ↔ path = pathOld ∨ ¬ p.Holds path := by
  constructor
  · intro h'
    by_contra hnot
    rw [not_or, not_not] at hnot
    obtain ⟨hne, m, hm⟩ := hnot
    obtain ⟨e, hl, hpath⟩ := hp path m hm
    have hmi : m ≠ i := by
      rintro rfl
      exact hne (hp.injective hm hk)
    have hl' : p'.nodes.Live m e := (hc.nodes_of_ne hmi).trans hl
    have hentry := h' m e hl'
    rw [hpath, hc.lookup, if_pos rfl] at hentry
    split at hentry
    · exact hmi (Option.some.inj (Option.some.inj hentry)).symm
    · cases hentry
  · intro hfree m e hl'
    have hnodes := hc.nodes
    by_cases hmi : m = i
    · subst hmi
      cases hkeep : error.keepsNode with
      | true =>
        rw [hkeep, if_pos rfl] at hnodes
        rw [hnodes] at hl'
        rw [hl'.unique Heap.live_put_self, hc.lookup, if_pos rfl, hkeep, if_pos rfl]
      | false =>
        rw [hkeep] at hnodes
        rw [hnodes] at hl'
        exact absurd rfl (Heap.live_schedule.mp hl').1
    · have hl : p.nodes.Live m e := (hc.nodes_of_ne hmi).symm.trans hl'
      have hentry := h m e hl
      have hold : e.path ≠ pathOld := by
        intro he
        rw [he, hk] at hentry
        exact hmi (Option.some.inj (Option.some.inj hentry)).symm
      have hpath : e.path ≠ path := by
        rcases hfree with rfl | hfree
        · exact hold
        · exact h.path_ne hl hfree
      rw [hc.lookup, if_neg hpath, if_neg hold]
      exact hentry

end Pool

/-- The operation takes an entry away from a live node: a create moves its node
onto another one, or `createNodeSync` does so or loses its own entry. -/
def PoolOp.Displaces (p : Pool) : PoolOp → Prop
  | createNodeSync _ path _ newPath _ => newPath = path ∨ p.Holds newPath
  | acreateCompletion _ name pathOld =>
    pathOld ≠ "" ∧ Pool.reportedPath name pathOld ≠ pathOld ∧
      p.Holds (Pool.reportedPath name pathOld)
  | _ => False

/-- The operation may schedule the node with the path `k` for deletion. -/
def PoolOp.Ends : PoolOp → QString → Prop
  | deleteNode path, k => k = path
  | acreateCompletion error _ pathOld, k => k = pathOld ∧ error.keepsNode = false
  | processDisconnected, _ => True
  | _, _ => False

namespace Pool

variable {p p' : Pool} {k path : QString} {n m i : NodeId} {d e : ZooKeeperNode} {op : PoolOp}

theorem InPlace.apply_iff (h : p.InPlace) (hp : p.Sound) (he : op.Enabled p)
    (hs : op.apply p = .ok p') : p'.InPlace ↔ ¬ op.Displaces p := by
  have hkeep : p'.InPlace → ¬ op.Displaces p → (p'.InPlace ↔ ¬ op.Displaces p) := fun hn hd =>
    ⟨fun _ => hd, fun _ => hn⟩
  cases hp.step hs with
  | keep => exact hkeep h id
  | createNode => exact hkeep (h.pool (not_holds_of_none he.1) rfl) id
  | createNodeSync =>
    rw [h.createNodeSync_iff hp he.1 he.2]
    simp only [PoolOp.Displaces, not_or, ne_eq]
  | deleteMissing hk => exact hkeep h id
  | @deletePooled path i d hk hl =>
    refine hkeep ?_ id
    intro n e hl'
    obtain ⟨hni, hln⟩ := Heap.live_schedule.mp hl'
    have hentry := h n e hln
    have hne : e.path ≠ path := by
      intro he
      rw [he, hk] at hentry
      exact hni (Option.some.inj (Option.some.inj hentry)).symm
    simpa [hne] using hentry
  | readNode => exact hkeep h.readNode id
  | readIgnored hset => exact hkeep h.readNode id
  | readAnswered hset hi hl ha =>
    exact hkeep (h.readNode.put hl (ZooKeeperNode.answered_path _ _ _) ha.nodes ha.lookup) id
  | @setExists n d b hl =>
    have hd : { d with exists_ := b }.path = d.path := rfl
    exact hkeep (h.put hl hd (nodes_storeExists hl) fun _ => lookup_storeExists) id
  | createUnnamed => exact hkeep h fun hd => hd.1 rfl
  | createCompleted hne hk hl hd hc =>
    rw [h.completed_iff hp hk hc]
    simp only [PoolOp.Displaces, ne_eq, hne, not_false_eq_true, true_and, not_and]
    exact or_iff_not_imp_left
  | @getUnpooled error value path hset hk =>
    refine hkeep ?_ id
    intro n d hl
    have hentry := h n d hl
    have hne : d.path ≠ path := by
      intro he
      rw [← he, hentry] at hk
      cases hk
    rw [lookup_indexed, if_neg hne]
    exact hentry
  | getAnswered hk hl ha =>
    exact hkeep (h.put hl (ZooKeeperNode.answered_path _ _ _) ha.nodes ha.lookup) id
  | disconnected hd =>
    refine hkeep ?_ id
    intro n d hl
    obtain ⟨hl, hno⟩ := (hd.live n d).mp hl
    exact absurd (h n d hl) (hno d.path)

/-- A node lives on unless the operation may end it. -/
theorem live_or_ends_of_apply (hp : p.Sound) (he : op.Enabled p) (hs : op.apply p = .ok p')
    (hl : p.nodes.Live n d) : (∃ e, p'.nodes.Live n e) ∨ op.Ends d.path := by
  cases hp.step hs with
  | keep => exact .inl ⟨d, hl⟩
  | createNode => exact .inl hl.put
  | createNodeSync => exact .inl hl.put
  | deleteMissing hk => exact .inl ⟨d, hl⟩
  | @deletePooled path i e hk hi =>
    by_cases hni : n = i
    · subst hni
      exact .inr (hp.path_eq hk hl)
    · exact .inl ⟨d, Heap.live_schedule.mpr ⟨hni, hl⟩⟩
  | readNode => exact .inl ⟨d, live_readNode he hl⟩
  | readIgnored hset => exact .inl ⟨d, live_readNode he hl⟩
  | readAnswered hset hi hlj ha =>
    rw [ha.nodes]
    exact .inl (live_readNode he hl).put
  | setExists hi =>
    rw [nodes_storeExists hi]
    exact .inl hl.put
  | createUnnamed => exact .inl ⟨d, hl⟩
  | @createCompleted error name pathOld i e p' hne hk hi hpath hc =>
    rw [hc.nodes]
    cases hkeep : error.keepsNode with
    | true =>
      rw [if_pos rfl]
      exact .inl hl.put
    | false =>
      by_cases hni : n = i
      · subst hni
        obtain rfl := hl.unique hi
        exact .inr ⟨hpath, hkeep⟩
      · exact .inl ⟨d, Heap.live_schedule.mpr ⟨hni, hl.put_of_ne hni⟩⟩
  | getUnpooled hset hk => exact .inl ⟨d, hl⟩
  | getAnswered hk hi ha =>
    rw [ha.nodes]
    exact .inl hl.put
  | disconnected hd => exact .inr trivial

end Pool

/-! ## Runs -/

variable {s s' : Manager} {l : Label} {tr : List (Manager × Label)}

/-- The step may schedule the node with the path `k` for deletion: it deletes that
path, completes a failed create of it, or ends the session. -/
def Label.Ends (k : QString) : Label → Prop
  | call (.deleteNode path _ _) | call (.deleteNodeSync path _) => k = path
  | deliver r (.create rc _) => k = r.path ∧ (ZooKeeperError.ofInt rc).keepsNode = false
  | watcher _ type state _ _ => disconnects type (.ofInt state) = true
  | _ => False

/-- Every node that was live stays so, unless the step may end it. -/
def OnlyEnds (s : Manager) (l : Label) : Prop :=
  ∀ s', system.step l s = .ok s' → ∀ n d, s.pool.nodes.Live n d →
    (∃ e, s'.pool.nodes.Live n e) ∨ l.Ends d.path

/-- A create completed under another name than requested finds no node there. The
synchronous create, which always moves its node, finds none there either, and is
answered with another name than requested. -/
def findsNameFree (s : Manager) : Label → Prop
  | .deliver r (.create _ name) => r.path ≠ "" → Pool.reportedPath name r.path ≠ r.path →
    ¬ s.pool.Holds (Pool.reportedPath name r.path)
  | .call (.createNodeSync a ret newPath _) => s.pool.contains a.path = false → ret = 0 →
    newPath ≠ a.path ∧ ¬ s.pool.Holds newPath
  | _ => True

instance (s : Manager) : (l : Label) → Decidable (findsNameFree s l)
  | .deliver r (.create _ name) => inferInstanceAs (Decidable (r.path ≠ "" →
      Pool.reportedPath name r.path ≠ r.path → ¬ s.pool.Holds (Pool.reportedPath name r.path)))
  | .deliver _ (.delete _) | .deliver _ (.exists_ _) | .deliver _ (.set _) | .deliver _ (.get _ _)
  | .deliver _ (.getChildren _ _) | .watcher .. | .watchEvent .. | .timer _ | .closeReturns =>
    inferInstanceAs (Decidable True)
  | .call c =>
    match c with
    | .createNodeSync a ret newPath _ =>
      inferInstanceAs (Decidable (s.pool.contains a.path = false → ret = 0 →
        newPath ≠ a.path ∧ ¬ s.pool.Holds newPath))
    | .initializeHandle .. | .addAuth .. | .quit | .destructor | .createNode .. | .deleteNode ..
    | .deleteNodeSync .. | .existsNode .. | .existsNodeSync .. | .setNodeValue ..
    | .setNodeValueSync .. | .getNodeValue .. | .getNodeValueSync .. | .wgetNodeValue ..
    | .getChildrenNode .. | .getChildrenNodeSync .. | .wgetChildrenNode .. | .setExists .. =>
      inferInstanceAs (Decidable True)

theorem not_displaces_iff : ¬ (l.poolOp s).Displaces s.pool ↔ findsNameFree s l := by
  have hkeep : l.poolOp s = .keep → findsNameFree s l →
      (¬ (l.poolOp s).Displaces s.pool ↔ findsNameFree s l) := by
    intro hop hfree
    rw [hop]
    exact iff_of_true id hfree
  cases l with
  | call c =>
    cases c with
    | createNodeSync a ret newPath n =>
      by_cases hc : s.pool.contains a.path = true
      · exact hkeep (by simp [Label.poolOp, Call.poolOp, hc]) (by simp [findsNameFree, hc])
      · by_cases hret : ret = 0
        · simp [Label.poolOp, Call.poolOp, findsNameFree, hc, hret, PoolOp.Displaces]
        · exact hkeep (by simp [Label.poolOp, Call.poolOp, hc, hret])
            (by simp [findsNameFree, hret])
    | createNode a ret ctx n =>
      rcases Call.poolOp_createNode s a ret ctx n with hop | ⟨-, -, hop⟩
      · rw [Label.poolOp, hop]
        exact iff_of_true id trivial
      · rw [Label.poolOp, hop]
        exact iff_of_true id trivial
    | _ => exact iff_of_true id trivial
  | deliver r c =>
    cases c with
    | create rc name => simp [Label.poolOp, findsNameFree, PoolOp.Displaces]
    | _ => exact iff_of_true id trivial
  | watcher zzh type state path client =>
    simp only [Label.poolOp, findsNameFree]
    split <;> exact iff_of_true id trivial
  | _ => exact iff_of_true id trivial

theorem ends_of_poolOp {k : QString} (h : (l.poolOp s).Ends k) : l.Ends k := by
  cases l with
  | call c =>
    cases c with
    | createNode a ret ctx n =>
      rcases Call.poolOp_createNode s a ret ctx n with hop | ⟨-, -, hop⟩
      · rw [Label.poolOp, hop] at h
        cases h
      · rw [Label.poolOp, hop] at h
        cases h
    | createNodeSync a ret newPath n =>
      rcases Call.poolOp_createNodeSync s a ret newPath n with hop | ⟨-, -, hop⟩
      · rw [Label.poolOp, hop] at h
        cases h
      · rw [Label.poolOp, hop] at h
        cases h
    | deleteNode path ret ctx => exact h
    | deleteNodeSync path ret => exact h
    | _ => cases h
  | deliver r c =>
    cases c with
    | create rc name => exact h
    | _ => cases h
  | watcher zzh type state path client =>
    simp only [Label.poolOp] at h
    split at h
    · next hd => exact hd
    · cases h
  | _ => cases h

theorem onlyEnds (hs : system.Reachable s) (he : system.enabled l s) : OnlyEnds s l := by
  intro s' hstep n d hl
  rcases Pool.live_or_ends_of_apply (sound_of_reachable hs) (enabled_pool he) (step_pool hstep) hl with
    hlive | hends
  · exact .inl hlive
  · exact .inr (ends_of_poolOp hends)

/-- The runs in which every live node stays pooled under its own path are those in
which no create moves its node onto another one. Whatever the run, a node dies only
by a deletion of its path, a failed create of it, or the end of the session. -/
theorem no_node_displaced_iff (h : system.Run tr s) :
    (Always (fun s => s.pool.NoneDisplaced) tr s ∧ Each OnlyEnds tr) ↔ Each findsNameFree tr := by
  have hplace : Always (fun s => s.pool.InPlace) tr s ↔ Each findsNameFree tr := by
    refine h.always_iff_each (Q := fun s => s.pool.Sound) ?_ ?_ ?_
    · intro n d hl
      cases hl
    · intro tr s hr _
      exact sound_of_reachable ⟨tr, hr⟩
    · intro s l s' hsound hin he hs
      rw [hin.apply_iff hsound (enabled_pool he) (step_pool hs)]
      exact not_displaces_iff
  have hends : Each OnlyEnds tr := h.each fun _ _ => onlyEnds
  simp only [Pool.noneDisplaced_iff, hplace, hends, and_true]

/-- A sequence create whose number a read has used already. -/
def sequenceOntoRead : List Label :=
  sessionOpen ++
    [.call (.createNode { type := .sequenceNode, path := "/a-" } 0 0 0),
     .call (.getNodeValue "/a-0000000000" false false 0 1 1),
     .deliver { ctx := 0, op := .create, path := "/a-", node := some 0 }
       (.create 0 (some "/a-0000000000"))]

/-- The same create completed before the read is made. -/
def sequenceThenRead : List Label :=
  sessionOpen ++
    [.call (.createNode { type := .sequenceNode, path := "/a-" } 0 0 0),
     .deliver { ctx := 0, op := .create, path := "/a-", node := some 0 }
       (.create 0 (some "/a-0000000000")),
     .call (.getNodeValue "/a-0000000000" false false 0 1 1)]

theorem sequenceThenRead_inPlace :
    Always (fun s => s.pool.NoneDisplaced) (system.execGet sequenceThenRead (by decide)).1
        (system.execGet sequenceThenRead (by decide)).2 ∧
      Each OnlyEnds (system.execGet sequenceThenRead (by decide)).1 :=
  (no_node_displaced_iff (run_execGet sequenceThenRead (by decide))).mpr (by unfold Each; decide)

/-- Both nodes are alive with the same path, and only the later one is pooled. -/
theorem sequenceOntoRead_displaced :
    ¬ ∀ s, system.Reachable s → s.pool.NoneDisplaced := by
  intro h
  have hplaced := (h _ (reachable_execGet sequenceOntoRead (by decide))).pooled
  have hl : (system.execGet sequenceOntoRead (by decide)).2.pool.nodes.Live 1
      { path := "/a-0000000000" } := by rfl
  cases hplaced 1 _ hl

end QtZooKeeper
