-- SUMMARY: The node pool as a machine of its own: its steps, the soundness of its entries, and how entries come and go.
import QtZooKeeper.Base.Runs
import QtZooKeeper.Manager.PoolLaws

/-!
# The pool machine

The operations of `Manager/Pool.lean` as the steps of a machine. The pool of the
manager is a run of this machine (`Manager/Steps.lean`), so what holds of the
machine holds of the manager's pool, whatever else happens to the session.

`Pool.Step` says once what an operation can do to a sound pool; every lemma about
the operations is a case analysis on it.
-/

namespace QtZooKeeper

/-- What one step of the manager does to the pool. -/
inductive PoolOp where
  | keep
  | createNode (type : ZooKeeperNodeType) (path : QString) (value : QByteArray) (n : NodeId)
  | createNodeSync (type : ZooKeeperNodeType) (path : QString) (value : QByteArray)
      (newPath : QString) (n : NodeId)
  | deleteNode (path : QString)
  | readNode (path : QString) (n : NodeId)
  | readNodeSync (path : QString) (n : NodeId) (error : ZooKeeperError) (value : QByteArray)
  | setExists (node : NodePtr) (exists_ : Bool)
  | acreateCompletion (error : ZooKeeperError) (name : Option QString) (pathOld : QString)
  | agetCompletion (error : ZooKeeperError) (nodeValue : QByteArray) (path : QString)
  | processDisconnected
  deriving DecidableEq, Repr

namespace PoolOp

/-- The creating operations run where the path is not pooled; a new node gets an
address of its own. -/
def Enabled : PoolOp → Pool → Prop
  | createNode _ path _ n, p => p.lookup path = none ∧ p.nodes.Fresh n
  | createNodeSync _ path _ _ n, p => p.lookup path = none ∧ p.nodes.Fresh n
  | readNode _ n, p => p.nodes.Fresh n
  | readNodeSync _ n _ _, p => p.nodes.Fresh n
  | _, _ => True

def apply : PoolOp → Pool → Except AccessFault Pool
  | keep, p => pure p
  | createNode type path value n, p => pure (p.createNode type path value n)
  | createNodeSync type path value newPath n, p =>
    pure (p.createNodeSync type path value newPath n)
  | deleteNode path, p => p.deleteNode path
  | readNode path n, p => pure (p.readNode path n).2
  | readNodeSync path n error value, p => (·.2) <$> p.readNodeSync path n error value
  | setExists node exists_, p => p.setExists node exists_
  | acreateCompletion error name pathOld, p => p.acreateCompletion error name pathOld
  | agetCompletion error nodeValue path, p => p.agetCompletion error nodeValue path
  | processDisconnected, p => p.processDisconnected

end PoolOp

/-- The pool machine. -/
def poolSystem : FallibleSystem Pool PoolOp AccessFault where
  init := {}
  enabled := PoolOp.Enabled
  step := PoolOp.apply

namespace Pool

variable {p p' : Pool} {k path : QString} {n m : NodeId} {d e : ZooKeeperNode} {op : PoolOp}

/-- Every node in the pool is a live one with the path it is pooled under. -/
def Sound (p : Pool) : Prop :=
  ∀ k n, p.lookup k = some (some n) → ∃ d, p.nodes.Live n d ∧ d.path = k

/-! ## What an operation can do -/

/-- The steps of a sound pool. -/
inductive Step (p : Pool) : PoolOp → Pool → Prop where
  | keep : Step p .keep p
  | createNode {type : ZooKeeperNodeType} {path : QString} {value : QByteArray} {n : NodeId} :
      Step p (.createNode type path value n) (p.createNode type path value n)
  | createNodeSync {type : ZooKeeperNodeType} {path : QString} {value : QByteArray}
      {newPath : QString} {n : NodeId} :
      Step p (.createNodeSync type path value newPath n) (p.createNodeSync type path value newPath n)
  | deleteMissing {path : QString} (hk : p.lookup path = none) : Step p (.deleteNode path) p
  | deletePooled {path : QString} {n : NodeId} {d : ZooKeeperNode}
      (hk : p.lookup path = some (some n)) (hl : p.nodes.Live n d) :
      Step p (.deleteNode path) ((p.schedule n).remove path)
  | readNode {path : QString} {n : NodeId} : Step p (.readNode path n) (p.readNode path n).2
  | readIgnored {path : QString} {n : NodeId} {error : ZooKeeperError} {value : QByteArray}
      (hset : error.settles = false) :
      Step p (.readNodeSync path n error value) (p.readNode path n).2
  | readAnswered {path : QString} {n i : NodeId} {error : ZooKeeperError} {value : QByteArray}
      {d : ZooKeeperNode} {p' : Pool} (hset : error.settles = true)
      (hi : (p.readNode path n).2.lookup path = some (some i))
      (hl : (p.readNode path n).2.nodes.Live i d)
      (ha : (p.readNode path n).2.Answered p' i d error value) :
      Step p (.readNodeSync path n error value) p'
  | setExists {n : NodeId} {d : ZooKeeperNode} {b : Bool} (hl : p.nodes.Live n d) :
      Step p (.setExists (some n) b) (p.storeExists n d b)
  | createUnnamed {error : ZooKeeperError} {name : Option QString} :
      Step p (.acreateCompletion error name "") p
  | createCompleted {error : ZooKeeperError} {name : Option QString} {pathOld : QString}
      {n : NodeId} {d : ZooKeeperNode} {p' : Pool} (hne : pathOld ≠ "")
      (hk : p.lookup pathOld = some (some n)) (hl : p.nodes.Live n d) (hd : d.path = pathOld)
      (hc : p.Completed p' n d error pathOld (reportedPath name pathOld)) :
      Step p (.acreateCompletion error name pathOld) p'
  | getUnpooled {error : ZooKeeperError} {value : QByteArray} {path : QString}
      (hset : error.settles = false) (hk : (p.lookup path).join = none) :
      Step p (.agetCompletion error value path) (p.indexed path)
  | getAnswered {error : ZooKeeperError} {value : QByteArray} {path : QString} {n : NodeId}
      {d : ZooKeeperNode} {p' : Pool} (hk : p.lookup path = some (some n)) (hl : p.nodes.Live n d)
      (ha : p.Answered p' n d error value) :
      Step p (.agetCompletion error value path) p'
  | disconnected {p' : Pool} (hd : p.Disconnected p') : Step p .processDisconnected p'

/-- The node a reader ends up with is pooled under its path. -/
theorem lookup_readNode {i : NodeId} (h : (p.readNode path n).1 = some i) :
    (p.readNode path n).2.lookup path = some (some i) := by
  rcases p.readNode_cases path n with ⟨node, hk, hr⟩ | ⟨-, hr⟩
  · rw [hr] at h ⊢
    exact hk.trans (congrArg some h)
  · rw [hr] at h ⊢
    simpa using h

/-- A synchronous read that settles nothing only brings in the node. -/
theorem readNodeSync_pool {error : ZooKeeperError} {value : QByteArray}
    (hset : error.settles = false)
    (hs : (PoolOp.readNodeSync path n error value).apply p = .ok p') :
    p' = (p.readNode path n).2 := by
  obtain ⟨r, hr, rfl⟩ := Except.map_eq_ok.mp hs
  obtain ⟨i, d, -, -, -, ha⟩ := readNodeSync_eq_ok hr
  simpa [hset] using ha

theorem Sound.step (hp : p.Sound) (hs : op.apply p = .ok p') : p.Step op p' := by
  cases op with
  | keep =>
    obtain rfl := Except.pure_eq_ok.mp hs
    exact .keep
  | createNode type path value n =>
    obtain rfl := Except.pure_eq_ok.mp hs
    exact .createNode
  | createNodeSync type path value newPath n =>
    obtain rfl := Except.pure_eq_ok.mp hs
    exact .createNodeSync
  | deleteNode path =>
    rcases deleteNode_eq_ok hs with ⟨hk, rfl⟩ | ⟨n, d, hk, hl, rfl⟩
    · exact .deleteMissing hk
    · exact .deletePooled hk hl
  | readNode path n =>
    obtain rfl := Except.pure_eq_ok.mp hs
    exact .readNode
  | readNodeSync path n error value =>
    cases hset : error.settles with
    | true =>
      obtain ⟨r, hr, rfl⟩ := Except.map_eq_ok.mp hs
      obtain ⟨i, d, -, hi, hl, ha⟩ := readNodeSync_eq_ok hr
      exact .readAnswered hset (lookup_readNode hi) hl (by simpa [hset] using ha)
    | false =>
      rw [readNodeSync_pool hset hs]
      exact .readIgnored hset
  | setExists node b =>
    obtain ⟨n, d, rfl, hl, rfl⟩ := setExists_eq_ok.mp hs
    exact .setExists hl
  | acreateCompletion error name pathOld =>
    simp only [PoolOp.apply] at hs
    by_cases hne : pathOld = ""
    · subst hne
      obtain rfl := Except.pure_eq_ok.mp hs
      exact .createUnnamed
    · cases hk : (p.lookup pathOld).join with
      -- no branch of the completion checks the pointer
      | none =>
        rw [acreateCompletion_missing hne hk] at hs
        cases hs
      | some n =>
        rw [Option.join_eq_some_iff] at hk
        obtain ⟨d, hl, hd⟩ := hp pathOld n hk
        obtain ⟨q, hq, hc⟩ := acreateCompletion_pooled error name hne hk hl hd
        obtain rfl := Except.ok.inj (hq.symm.trans hs)
        exact .createCompleted hne hk hl hd hc
  | agetCompletion error nodeValue path =>
    simp only [PoolOp.apply] at hs
    cases hk : (p.lookup path).join with
    | none =>
      -- only an answer that is ignored leaves the null pointer unused
      cases hset : error.settles with
      | true =>
        rw [agetCompletion_missing hset hk] at hs
        cases hs
      | false =>
        rw [agetCompletion_of_not_settles hset, Except.ok.injEq] at hs
        subst hs
        exact .getUnpooled hset hk
    | some n =>
      rw [Option.join_eq_some_iff] at hk
      obtain ⟨d, hl, -⟩ := hp path n hk
      obtain ⟨q, hq, ha⟩ := agetCompletion_pooled error nodeValue hk hl
      obtain rfl := Except.ok.inj (hq.symm.trans hs)
      exact .getAnswered hk hl ha
  | processDisconnected => exact .disconnected (processDisconnected_eq_ok hs)

/-! ## Soundness -/

theorem Sound.injective (h : p.Sound) {k k' : QString} (hk : p.lookup k = some (some n))
    (hk' : p.lookup k' = some (some n)) : k = k' := by
  obtain ⟨d, hl, hd⟩ := h k n hk
  obtain ⟨d', hl', hd'⟩ := h k' n hk'
  rw [← hd, ← hd', hl.unique hl']

theorem Sound.path_eq (h : p.Sound) (hk : p.lookup k = some (some n)) (hl : p.nodes.Live n d) :
    d.path = k := by
  obtain ⟨e, he, hpath⟩ := h k n hk
  rw [hl.unique he, hpath]

theorem Sound.fresh_ne (h : p.Sound) (hf : p.nodes.Fresh n) (hk : p.lookup k = some (some m)) :
    m ≠ n := by
  obtain ⟨d, hl, -⟩ := h k m hk
  exact hf.ne hl

/-- Pooling a new node. -/
theorem Sound.pool (h : p.Sound) (path : QString) (hf : p.nodes.Fresh n) (hd : d.path = path) :
    ((p.write n d).insert path (some n)).Sound := by
  intro k m hk
  rw [lookup_insert] at hk
  split at hk
  · next hkp =>
    obtain rfl : n = m := by simpa using hk
    exact ⟨d, Heap.live_put_self, hd.trans hkp.symm⟩
  · obtain ⟨e, hl, he⟩ := h k m hk
    exact ⟨e, hl.put_of_ne (h.fresh_ne hf hk), he⟩

/-- Losing entries. -/
theorem Sound.of_lookup (h : p.Sound) (hn : p'.nodes = p.nodes)
    (hk : ∀ k m, p'.lookup k = some (some m) → p.lookup k = some (some m)) : p'.Sound := by
  intro k m hm
  rw [hn]
  exact h k m (hk k m hm)

/-- Writing a live node without touching its path. -/
theorem Sound.put (h : p.Sound) (hl : p.nodes.Live n d) (hd : e.path = d.path)
    (hn : p'.nodes = p.nodes.put n e) (hk : ∀ k, p'.lookup k = p.lookup k) : p'.Sound := by
  intro k m hm
  rw [hk] at hm
  obtain ⟨f, hlf, hf⟩ := h k m hm
  rw [hn]
  by_cases hmn : m = n
  · subst hmn
    obtain rfl := hl.unique hlf
    exact ⟨e, Heap.live_put_self, hd.trans hf⟩
  · exact ⟨f, hlf.put_of_ne hmn, hf⟩

theorem Sound.readNode (h : p.Sound) (hf : p.nodes.Fresh n) : (p.readNode path n).2.Sound := by
  rcases p.readNode_cases path n with ⟨node, -, hr⟩ | ⟨-, hr⟩
  · rw [hr]
    exact h
  · rw [hr]
    exact h.pool path hf rfl

theorem Sound.completed {error : ZooKeeperError} {pathOld : QString} (h : p.Sound)
    (hk : p.lookup pathOld = some (some n)) (hc : p.Completed p' n d error pathOld path) :
    p'.Sound := by
  intro k m hm
  rw [hc.lookup] at hm
  split at hm
  · next hkp =>
    subst hkp
    split at hm
    · next hkeep =>
      obtain rfl : n = m := by simpa using hm
      rw [hc.nodes, if_pos hkeep]
      exact ⟨_, Heap.live_put_self, rfl⟩
    · cases hm
  · split at hm
    · cases hm
    · next hkp =>
      obtain ⟨e, hl, he⟩ := h k m hm
      -- the completed node is pooled under the requested path only
      have hmn : m ≠ n := by
        rintro rfl
        exact hkp (h.injective hm hk)
      refine ⟨e, ?_, he⟩
      rw [hc.nodes]
      split
      · exact hl.put_of_ne hmn
      · exact Heap.live_schedule.mpr ⟨hmn, hl.put_of_ne hmn⟩

/-- Every operation keeps the pool sound. -/
theorem Sound.apply (h : p.Sound) (he : op.Enabled p) (hs : op.apply p = .ok p') : p'.Sound := by
  cases h.step hs with
  | keep => exact h
  | createNode => exact h.pool _ he.2 rfl
  | @createNodeSync type path value newPath n =>
    refine (h.pool newPath he.2 rfl).of_lookup rfl ?_
    intro k m hm
    simp only [Pool.createNodeSync, lookup_emit, lookup_remove] at hm
    split at hm
    · cases hm
    · exact hm
  | deleteMissing hk => exact h
  | deletePooled hk hl =>
    intro k m hm
    simp only [lookup_remove, lookup_schedule] at hm
    split at hm
    · cases hm
    · next hkp =>
      obtain ⟨f, hlf, hf⟩ := h k m hm
      refine ⟨f, Heap.live_schedule.mpr ⟨?_, hlf⟩, hf⟩
      rintro rfl
      exact hkp (h.injective hm hk)
  | readNode => exact h.readNode he
  | readIgnored hset => exact h.readNode he
  | readAnswered hset hi hl ha =>
    exact (h.readNode he).put hl (ZooKeeperNode.answered_path _ _ _) ha.nodes ha.lookup
  | @setExists n d b hl =>
    have hd : { d with exists_ := b }.path = d.path := rfl
    exact h.put hl hd (nodes_storeExists hl) fun _ => lookup_storeExists
  | createUnnamed => exact h
  | createCompleted hne hk hl hd hc => exact h.completed hk hc
  | @getUnpooled error value path hset hk =>
    refine h.of_lookup nodes_indexed ?_
    intro k m hm
    rw [lookup_indexed, hk] at hm
    split at hm
    · simp at hm
    · exact hm
  | getAnswered hk hl ha =>
    exact h.put hl (ZooKeeperNode.answered_path _ _ _) ha.nodes ha.lookup
  | disconnected hd =>
    intro k m hm
    cases (hd.lookup k).symm.trans hm

theorem sound_init : ({} : Pool).Sound := by
  intro k n hk
  cases hk

/-- The pool is sound in every reachable state of the machine. -/
theorem sound_of_reachable (h : poolSystem.Reachable p) : p.Sound :=
  h.invariant sound_init fun _ _ _ hp he hs => hp.apply he hs

/-! ## Null entries -/

/-- No entry of the pool is null. -/
def NoNull (p : Pool) : Prop := ∀ k, p.lookup k ≠ some none

/-- The only operation that leaves a null entry: the completion of a read with an
answer that settles nothing, when the path is not pooled. -/
def AddsNull (p : Pool) : PoolOp → Prop
  | .agetCompletion error _ path => error.settles = false ∧ p.lookup path = none
  | _ => False

theorem NoNull.of_lookup (h : p.NoNull) (hk : ∀ k, p'.lookup k = some none → p.lookup k = some none) :
    p'.NoNull := fun k hk' => h k (hk k hk')

theorem NoNull.insert (h : p.NoNull) : (p.insert path (some n)).NoNull := by
  intro k hk
  rw [lookup_insert] at hk
  split at hk
  · simp at hk
  · exact h k hk

theorem NoNull.remove (h : p.NoNull) : (p.remove path).NoNull := by
  refine h.of_lookup ?_
  intro k hk
  rw [lookup_remove] at hk
  split at hk
  · cases hk
  · exact hk

theorem NoNull.readNode (h : p.NoNull) : (p.readNode path n).2.NoNull := by
  rcases p.readNode_cases path n with ⟨node, -, hr⟩ | ⟨-, hr⟩
  · rw [hr]
    exact h
  · rw [hr]
    exact NoNull.insert h

theorem NoNull.completed {error : ZooKeeperError} {pathOld : QString} (h : p.NoNull)
    (hc : p.Completed p' n d error pathOld path) : p'.NoNull := by
  refine h.of_lookup ?_
  intro k hk
  rw [hc.lookup] at hk
  split at hk
  · split at hk <;> simp at hk
  · split at hk
    · cases hk
    · exact hk

/-- An operation leaves the pool without null entries unless it adds one. -/
theorem NoNull.apply_iff (hp : p.Sound) (h : p.NoNull) (hs : op.apply p = .ok p') :
    p'.NoNull ↔ ¬ p.AddsNull op := by
  have hkeep : p'.NoNull → ¬ p.AddsNull op → (p'.NoNull ↔ ¬ p.AddsNull op) := fun hn ha =>
    ⟨fun _ => ha, fun _ => hn⟩
  cases hp.step hs with
  | keep => exact hkeep h id
  | createNode => exact hkeep (NoNull.insert h) id
  | createNodeSync => exact hkeep (NoNull.insert h).remove id
  | deleteMissing hk => exact hkeep h id
  | deletePooled hk hl => exact hkeep (NoNull.remove h) id
  | readNode => exact hkeep h.readNode id
  | readIgnored hset => exact hkeep h.readNode id
  | readAnswered hset hi hl ha =>
    exact hkeep (h.readNode.of_lookup fun k hk => (ha.lookup k).symm.trans hk) id
  | setExists hl => exact hkeep (h.of_lookup fun k hk => lookup_storeExists.symm.trans hk) id
  | createUnnamed => exact hkeep h id
  | createCompleted hne hk hl hd hc => exact hkeep (h.completed hc) id
  | @getUnpooled error value path hset hk =>
    simp only [AddsNull, hset, true_and]
    constructor
    · intro hn hnone
      exact hn path (by simp [lookup_indexed, hnone])
    · intro hentry
      refine h.of_lookup ?_
      intro k hk'
      rw [lookup_indexed] at hk'
      split at hk'
      · next hkp =>
        cases hlook : p.lookup path with
        | none => exact absurd hlook hentry
        | some node =>
          have hnode : node = none := by simpa [hlook] using hk'
          rw [hkp, hlook, hnode]
      · exact hk'
  | getAnswered hk hl ha =>
    refine hkeep (h.of_lookup fun k hk' => (ha.lookup k).symm.trans hk') ?_
    intro ⟨_, hnone⟩
    cases hnone.symm.trans hk
  | disconnected hd =>
    refine hkeep ?_ id
    intro k hk
    cases (hd.lookup k).symm.trans hk

theorem noNull_init : ({} : Pool).NoNull := by
  intro k hk
  cases hk

/-! ## Lost entries -/

/-- A node is pooled under `k`. -/
def Holds (p : Pool) (k : QString) : Prop := ∃ n, p.lookup k = some (some n)

instance (p : Pool) (k : QString) : Decidable (p.Holds k) :=
  decidable_of_iff ((p.lookup k).join.isSome = true) (by
    simp only [Option.isSome_iff_exists, Option.join_eq_some_iff, Holds])

theorem Holds.of_lookup (h : p.Holds k) (hk : p'.lookup k = p.lookup k) : p'.Holds k := by
  obtain ⟨n, hn⟩ := h
  exact ⟨n, hk.trans hn⟩

theorem Holds.insert (h : p.Holds k) : (p.insert path (some n)).Holds k := by
  by_cases hk : k = path
  · exact ⟨n, by simp [hk]⟩
  · exact h.of_lookup (by simp [hk])

theorem Holds.readNode (h : p.Holds k) : (p.readNode path n).2.Holds k := by
  rcases p.readNode_cases path n with ⟨node, -, hr⟩ | ⟨-, hr⟩
  · rw [hr]
    exact h
  · rw [hr]
    exact Holds.insert h

theorem not_holds_of_none (h : p.lookup k = none) : ¬ p.Holds k := by
  intro ⟨n, hn⟩
  cases h.symm.trans hn

end Pool

/-- The operation takes the node pooled under `k` out of the pool or pools it
under another name. -/
def PoolOp.Drops : PoolOp → QString → Prop
  | deleteNode path, k => k = path
  | acreateCompletion error name pathOld, k =>
    pathOld ≠ "" ∧
      if k = Pool.reportedPath name pathOld then error.keepsNode = false else k = pathOld
  | processDisconnected, _ => True
  | _, _ => False

instance (op : PoolOp) (k : QString) : Decidable (op.Drops k) := by
  unfold PoolOp.Drops
  split <;> infer_instance

namespace Pool

variable {p p' : Pool} {k path : QString} {n : NodeId} {d : ZooKeeperNode} {op : PoolOp}

/-- A path keeps its entry, or gets that of another node, unless the operation
drops it. -/
theorem Holds.apply_iff (hp : p.Sound) (he : op.Enabled p) (hs : op.apply p = .ok p')
    (h : p.Holds k) : p'.Holds k ↔ ¬ op.Drops k := by
  have hkeep : p'.Holds k → ¬ op.Drops k → (p'.Holds k ↔ ¬ op.Drops k) := fun hn hd =>
    ⟨fun _ => hd, fun _ => hn⟩
  cases hp.step hs with
  | keep => exact hkeep h id
  | createNode => exact hkeep (Holds.insert h) id
  | @createNodeSync type path value newPath n =>
    refine hkeep ?_ id
    -- the path that is removed was not pooled
    have hk : k ≠ path := by
      rintro rfl
      exact not_holds_of_none he.1 h
    have hins : (p.insert newPath (some n)).Holds k := h.insert
    exact hins.of_lookup (by simp [Pool.createNodeSync, hk])
  | deleteMissing hk =>
    refine hkeep h ?_
    rintro rfl
    exact not_holds_of_none hk h
  | @deletePooled path n d hk hl =>
    by_cases hkp : k = path
    · exact iff_of_false (not_holds_of_none (by simp [hkp])) (not_not.mpr hkp)
    · exact hkeep (h.of_lookup (by simp [hkp])) hkp
  | readNode => exact hkeep h.readNode id
  | readIgnored hset => exact hkeep h.readNode id
  | readAnswered hset hi hl ha => exact hkeep (h.readNode.of_lookup (ha.lookup k)) id
  | setExists hl => exact hkeep (h.of_lookup lookup_storeExists) id
  | createUnnamed => exact hkeep h fun hd => hd.1 rfl
  | @createCompleted error name pathOld n d _ hne hk hl hd hc =>
    have hlook := hc.lookup k
    simp only [PoolOp.Drops, ne_eq, hne, not_false_eq_true, true_and]
    by_cases hkp : k = reportedPath name pathOld
    · rw [if_pos hkp] at hlook ⊢
      cases hkeeps : error.keepsNode with
      | true => exact iff_of_true ⟨n, by simpa [hkeeps] using hlook⟩ (by simp)
      | false => exact iff_of_false (not_holds_of_none (by simpa [hkeeps] using hlook)) (by simp)
    · rw [if_neg hkp] at hlook ⊢
      by_cases hko : k = pathOld
      · rw [if_pos hko] at hlook
        exact iff_of_false (not_holds_of_none hlook) (not_not.mpr hko)
      · rw [if_neg hko] at hlook
        exact iff_of_true (h.of_lookup hlook) hko
  | @getUnpooled error value path hset hk =>
    refine hkeep ?_ id
    have hkp : k ≠ path := by
      rintro rfl
      obtain ⟨n, hn⟩ := h
      simp [hn] at hk
    exact h.of_lookup (by simp [lookup_indexed, hkp])
  | getAnswered hk hl ha => exact hkeep (h.of_lookup (ha.lookup k)) id
  | disconnected hd => exact iff_of_false (not_holds_of_none (hd.lookup k)) (not_not.mpr trivial)

end Pool

end QtZooKeeper
