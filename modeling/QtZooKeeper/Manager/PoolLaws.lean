-- SUMMARY: What each operation on the node pool does to the entries, the nodes and the signals, and when it faults.
import QtZooKeeper.Manager.Pool

/-!
# Laws of the node pool

One law per operation of `Manager/Pool.lean`. The partial operations have an
inversion law: from a result other than a fault it gives the live node that was
used and the new entries, nodes and signals. Nothing after this module unfolds
the operations again.
-/

namespace QtZooKeeper

namespace Pool

variable {p p' : Pool} {k path : QString} {node : NodePtr} {n m : NodeId} {d : ZooKeeperNode}
variable {value : QByteArray} {error : ZooKeeperError} {b : Bool} {s : NodeSignal}

/-! ## Elementary writes -/

@[simp] theorem nodes_insert : (p.insert path node).nodes = p.nodes := rfl
@[simp] theorem nodes_remove : (p.remove path).nodes = p.nodes := rfl
@[simp] theorem nodes_emit : (p.emit s).nodes = p.nodes := rfl
@[simp] theorem nodes_write : (p.write n d).nodes = p.nodes.put n d := rfl
@[simp] theorem nodes_schedule : (p.schedule n).nodes = p.nodes.schedule n := rfl

@[simp] theorem signals_insert : (p.insert path node).signals = p.signals := rfl
@[simp] theorem signals_remove : (p.remove path).signals = p.signals := rfl
@[simp] theorem signals_write : (p.write n d).signals = p.signals := rfl
@[simp] theorem signals_schedule : (p.schedule n).signals = p.signals := rfl
@[simp] theorem signals_emit : (p.emit s).signals = p.signals ++ [s] := rfl

@[simp] theorem lookup_write : (p.write n d).lookup k = p.lookup k := rfl
@[simp] theorem lookup_schedule : (p.schedule n).lookup k = p.lookup k := rfl
@[simp] theorem lookup_emit : (p.emit s).lookup k = p.lookup k := rfl

@[simp] theorem lookup_insert :
    (p.insert path node).lookup k = if k = path then some node else p.lookup k :=
  KeyTable.lookup_insert_eq

@[simp] theorem lookup_remove : (p.remove path).lookup k = if k = path then none else p.lookup k :=
  KeyTable.lookup_erase_eq

theorem contains_iff : p.contains path = true ↔ ∃ node, p.lookup path = some node :=
  KeyTable.contains_iff

theorem not_contains_iff : ¬ p.contains path = true ↔ p.lookup path = none := by
  rw [Bool.not_eq_true]
  exact KeyTable.contains_eq_false_iff

theorem value_eq (h : p.lookup path = some node) : p.value path = node := KeyTable.value_of_lookup h

theorem index_eq (h : p.lookup path = some node) : p.index path = (node, p) := by
  have h' : p.nodePool.index path = (node, p.nodePool) := KeyTable.index_of_lookup h
  simp [index, h']

/-- The index operator puts a null entry where there was none. -/
theorem index_missing (h : p.lookup path = none) : p.index path = (none, p.insert path none) := by
  have h' : p.nodePool.index path = (none, p.nodePool.insert path none) :=
    KeyTable.index_of_lookup_none h
  simp [index, h', insert]

/-! ## Functions of a node -/

section Node

@[simp] theorem lookup_storeExists : (p.storeExists n d b).lookup k = p.lookup k := by
  unfold storeExists
  split <;> simp

@[simp] theorem lookup_storeValue : (p.storeValue n d value).lookup k = p.lookup k := by
  unfold storeValue
  split <;> simp

theorem nodes_storeExists (hl : p.nodes.Live n d) :
    (p.storeExists n d b).nodes = p.nodes.put n { d with exists_ := b } := by
  unfold storeExists
  split
  · simp
  · next h =>
    have hd : { d with exists_ := b } = d := by rw [← not_not.mp h]
    rw [hd, Heap.put_of_live hl]

theorem nodes_storeValue (value : QByteArray) (hl : p.nodes.Live n d) :
    (p.storeValue n d value).nodes = p.nodes.put n { d with value := value } := by
  unfold storeValue
  split
  · simp
  · next h =>
    have hd : { d with value := value } = d := by rw [← not_not.mp h]
    rw [hd, Heap.put_of_live hl]

theorem signals_storeExists : (p.storeExists n d b).signals =
    p.signals ++ if d.exists_ ≠ b then [.existsChanged n b] else [] := by
  unfold storeExists
  split <;> simp

theorem signals_storeValue : (p.storeValue n d value).signals =
    p.signals ++ if d.value ≠ value then [.valueChanged n value] else [] := by
  unfold storeValue
  split <;> simp

theorem setExists_eq_ok : p.setExists node b = .ok p' ↔
    ∃ n d, node = some n ∧ p.nodes.Live n d ∧ p' = p.storeExists n d b := by
  simp only [setExists, Except.bind_eq_ok, Prod.exists, Heap.deref_eq_ok, Except.pure_eq_ok,
    and_assoc, @eq_comm _ p']

theorem setValue_eq_ok : p.setValue node value = .ok p' ↔
    ∃ n d, node = some n ∧ p.nodes.Live n d ∧ p' = p.storeValue n d value := by
  simp only [setValue, Except.bind_eq_ok, Prod.exists, Heap.deref_eq_ok, Except.pure_eq_ok,
    and_assoc, @eq_comm _ p']

theorem deleteLater_eq_ok : p.deleteLater node = .ok p' ↔
    ∃ n d, node = some n ∧ p.nodes.Live n d ∧ p' = p.schedule n := by
  simp only [deleteLater, Except.bind_eq_ok, Prod.exists, Heap.deref_eq_ok, Except.pure_eq_ok,
    and_assoc, @eq_comm _ p']

end Node

end Pool

/-! ## The answer of a read -/

/-- The answers that make a reader use its node. -/
def ZooKeeperError.settles : ZooKeeperError → Bool
  | .noError | .noNode => true
  | _ => false

theorem ZooKeeperError.settles_iff {e : ZooKeeperError} :
    e.settles = true ↔ e = .noError ∨ e = .noNode := by
  cases e <;> simp [settles]

/-- What the answer of a read settles about the existence of the znode. -/
def ZooKeeperError.settled : ZooKeeperError → Option Bool
  | .noError => some true
  | .noNode => some false
  | _ => none

theorem ZooKeeperError.settled_of_not_settles {e : ZooKeeperError} (h : e.settles = false) :
    e.settled = none := by
  cases e <;> first | rfl | cases h

/-- The answers to a create after which the created node stays. -/
def ZooKeeperError.keepsNode : ZooKeeperError → Bool
  | .noError | .nodeExists => true
  | _ => false

theorem ZooKeeperError.keepsNode_iff {e : ZooKeeperError} :
    e.keepsNode = true ↔ e = .noError ∨ e = .nodeExists := by
  cases e <;> simp [keepsNode]

/-- The fields of a node after the answer of a read. -/
def ZooKeeperNode.answered (d : ZooKeeperNode) (error : ZooKeeperError) (value : QByteArray) :
    ZooKeeperNode :=
  match error with
  | .noError => { d with value := value, exists_ := true }
  | .noNode => { d with exists_ := false }
  | _ => d

@[simp] theorem ZooKeeperNode.answered_path (d : ZooKeeperNode) (e : ZooKeeperError)
    (value : QByteArray) : (d.answered e value).path = d.path := by
  cases e <;> rfl

@[simp] theorem ZooKeeperNode.answered_type (d : ZooKeeperNode) (e : ZooKeeperError)
    (value : QByteArray) : (d.answered e value).type = d.type := by
  cases e <;> rfl

/-- An answer that settles nothing leaves the fields as they are. -/
theorem ZooKeeperNode.answered_of_not_settles {d : ZooKeeperNode} {e : ZooKeeperError}
    {value : QByteArray} (h : e.settles = false) : d.answered e value = d := by
  cases e <;> first | rfl | cases h

namespace Pool

variable {p p' : Pool} {k path : QString} {node : NodePtr} {n m : NodeId} {d : ZooKeeperNode}
variable {value : QByteArray} {error : ZooKeeperError} {b : Bool} {s : NodeSignal}

/-- The signals the answer of a read emits. -/
def answerSignals (n : NodeId) (d : ZooKeeperNode) (error : ZooKeeperError) (value : QByteArray) :
    List NodeSignal :=
  match error with
  | .noError => (if d.value ≠ value then [.valueChanged n value] else []) ++
      if d.exists_ ≠ true then [.existsChanged n true] else []
  | .noNode => if d.exists_ ≠ false then [.existsChanged n false] else []
  | _ => []

theorem answerSignals_of_not_settles (h : error.settles = false) :
    answerSignals n d error value = [] := by
  cases error <;> first | rfl | cases h

/-- A signal emitted on a condition is on its node. -/
theorem node_of_ite {c : Prop} [Decidable c] (hs : s.node = n) :
    ∀ x ∈ (if c then [s] else []), x.node = n := by
  intro x hx
  split at hx
  · rw [List.mem_singleton.mp hx, hs]
  · cases hx

theorem node_answerSignals {error : ZooKeeperError} {value : QByteArray} :
    ∀ x ∈ answerSignals n d error value, x.node = n := by
  unfold answerSignals
  split
  · exact List.forall_mem_append.mpr ⟨node_of_ite rfl, node_of_ite rfl⟩
  · exact node_of_ite rfl
  · exact List.forall_mem_nil _

/-- What taking the answer of a read on a live node leads to. -/
structure Answered (p p' : Pool) (n : NodeId) (d : ZooKeeperNode) (error : ZooKeeperError)
    (value : QByteArray) : Prop where
  lookup : ∀ k, p'.lookup k = p.lookup k
  nodes : p'.nodes = p.nodes.put n (d.answered error value)
  signals : p'.signals = p.signals ++ answerSignals n d error value

/-- An answer that settles nothing is ignored. -/
theorem takeAnswer_of_not_settles (h : error.settles = false) :
    p.takeAnswer node error value = .ok p := by
  cases error <;> first | rfl | simp [ZooKeeperError.settles] at h

/-- Any other answer is stored in the node, which must be live. -/
theorem takeAnswer_eq_ok (hs : error.settles = true) (h : p.takeAnswer node error value = .ok p') :
    ∃ n d, node = some n ∧ p.nodes.Live n d ∧ p.Answered p' n d error value := by
  rcases ZooKeeperError.settles_iff.mp hs with rfl | rfl
  · simp only [takeAnswer, Except.bind_eq_ok, setValue_eq_ok, setExists_eq_ok] at h
    obtain ⟨q, ⟨n, d, rfl, hl, rfl⟩, n', d', hn, hl', rfl⟩ := h
    obtain rfl : n = n' := by simpa using hn
    have hv := nodes_storeValue value hl
    obtain rfl : d' = { d with value := value } := by
      rw [hv] at hl'
      exact hl'.unique Heap.live_put_self
    refine ⟨n, d, rfl, hl, ?_, ?_, ?_⟩
    · intro k
      simp
    · rw [nodes_storeExists hl', hv]
      funext m
      by_cases hm : m = n
      · simp [hm, ZooKeeperNode.answered]
      · simp [Heap.put_of_ne hm]
    · rw [signals_storeExists, signals_storeValue, List.append_assoc]
      rfl
  · obtain ⟨n, d, rfl, hl, rfl⟩ := setExists_eq_ok.mp h
    refine ⟨n, d, rfl, hl, ?_, nodes_storeExists hl, signals_storeExists⟩
    intro k
    simp

/-- Ignoring an answer that settles nothing amounts to taking it. -/
theorem Answered.ignored (value : QByteArray) (hs : error.settles = false) (hl : p.nodes.Live n d) :
    p.Answered p n d error value where
  lookup _ := rfl
  nodes := by rw [ZooKeeperNode.answered_of_not_settles hs, Heap.put_of_live hl]
  signals := by rw [answerSignals_of_not_settles hs, List.append_nil]

/-- Taking an answer never faults on a live node. -/
theorem takeAnswer_live (error : ZooKeeperError) (value : QByteArray) (hl : p.nodes.Live n d) :
    ∃ p', p.takeAnswer (some n) error value = .ok p' := by
  have hexists : ∀ {q : Pool} {e : ZooKeeperNode} (b), q.nodes.Live n e →
      ∃ q', q.setExists (some n) b = .ok q' :=
    fun b he => ⟨_, setExists_eq_ok.mpr ⟨n, _, rfl, he, rfl⟩⟩
  cases error with
  | noError =>
    have hv : (p.storeValue n d value).nodes.Live n { d with value := value } := by
      rw [nodes_storeValue value hl]
      exact Heap.live_put_self
    obtain ⟨p', hp'⟩ := hexists true hv
    exact ⟨p', Except.bind_eq_ok.mpr ⟨_, setValue_eq_ok.mpr ⟨n, d, rfl, hl, rfl⟩, hp'⟩⟩
  | noNode => exact hexists false hl
  | _ => exact ⟨p, rfl⟩

/-! ## Deleting -/

/-- Without an entry nothing happens; otherwise the pooled node must be live, it
is scheduled for deletion and leaves the pool. -/
theorem deleteNode_eq_ok (h : p.deleteNode path = .ok p') :
    (p.lookup path = none ∧ p' = p) ∨
    ∃ n d, p.lookup path = some (some n) ∧ p.nodes.Live n d ∧ p' = (p.schedule n).remove path := by
  unfold deleteNode at h
  split at h
  · next hc =>
    obtain ⟨node, hk⟩ := contains_iff.mp hc
    simp only [Except.bind_eq_ok, deleteLater_eq_ok, value_eq hk, Except.pure_eq_ok] at h
    obtain ⟨q, ⟨n, d, rfl, hl, rfl⟩, rfl⟩ := h
    exact .inr ⟨n, d, hk, hl, rfl⟩
  · next hc =>
    rw [Except.pure_eq_ok] at h
    exact .inl ⟨not_contains_iff.mp hc, h.symm⟩

theorem deleteNode_missing (hk : p.lookup path = none) : p.deleteNode path = .ok p := by
  rw [deleteNode, if_neg (not_contains_iff.mpr hk)]
  rfl

theorem deleteNode_pooled (hk : p.lookup path = some (some n)) (hl : p.nodes.Live n d) :
    p.deleteNode path = .ok ((p.schedule n).remove path) := by
  have hdel : p.deleteLater (some n) = .ok (p.schedule n) :=
    deleteLater_eq_ok.mpr ⟨n, d, rfl, hl, rfl⟩
  rw [deleteNode, if_pos (contains_iff.mpr ⟨_, hk⟩), value_eq hk, hdel]
  rfl

/-! ## Reading -/

/-- A reader takes the pooled node of its path, or pools a new one. -/
theorem readNode_cases (p : Pool) (path : QString) (n : NodeId) :
    (∃ node, p.lookup path = some node ∧ p.readNode path n = (node, p)) ∨
    (p.lookup path = none ∧
      p.readNode path n = (some n, (p.write n { path := path }).insert path (some n))) := by
  unfold readNode
  by_cases hc : p.contains path = true
  · obtain ⟨node, hk⟩ := contains_iff.mp hc
    exact .inl ⟨node, hk, by simp [hc, value_eq hk]⟩
  · exact .inr ⟨not_contains_iff.mp hc, by simp [hc]⟩

/-- A reader writes no node but its new one. -/
theorem nodes_readNode_of_ne (hm : m ≠ n) : (p.readNode path n).2.nodes m = p.nodes m := by
  rcases p.readNode_cases path n with ⟨node, -, hr⟩ | ⟨-, hr⟩
  · rw [hr]
  · rw [hr]
    exact Heap.put_of_ne hm

theorem lookup_readNode_of_ne (hk : k ≠ path) : (p.readNode path n).2.lookup k = p.lookup k := by
  rcases p.readNode_cases path n with ⟨node, -, hr⟩ | ⟨-, hr⟩
  · rw [hr]
  · rw [hr]
    exact lookup_insert.trans (if_neg hk)

theorem live_readNode (hf : p.nodes.Fresh n) (hl : p.nodes.Live m d) :
    (p.readNode path n).2.nodes.Live m d :=
  (nodes_readNode_of_ne (hf.ne hl)).trans hl

theorem signals_readNode : (p.readNode path n).2.signals = p.signals := by
  rcases p.readNode_cases path n with ⟨node, -, hr⟩ | ⟨-, hr⟩
  · rw [hr]
  · rw [hr]
    rfl

/-- A synchronous reader ends with a live node, which has taken the answer. -/
theorem readNodeSync_eq_ok {r : NodePtr × Pool} (h : p.readNodeSync path n error value = .ok r) :
    ∃ i d, r.1 = some i ∧ (p.readNode path n).1 = some i ∧ (p.readNode path n).2.nodes.Live i d ∧
      if error.settles then (p.readNode path n).2.Answered r.2 i d error value
      else r.2 = (p.readNode path n).2 := by
  simp only [readNodeSync, Except.bind_eq_ok, Except.pure_eq_ok] at h
  obtain ⟨q, hq, ⟨i, d'⟩, hd, rfl⟩ := h
  obtain ⟨hi, hl'⟩ := Heap.deref_eq_ok.mp hd
  cases hs : error.settles with
  | true =>
    obtain ⟨j, d, hj, hl, ha⟩ := takeAnswer_eq_ok hs hq
    obtain rfl : i = j := by simpa using hi.symm.trans hj
    exact ⟨i, d, hi, hj, hl, by simpa using ha⟩
  | false =>
    rw [takeAnswer_of_not_settles hs, Except.ok.injEq] at hq
    subst hq
    exact ⟨i, d', hi, hi, hl', by simp⟩

/-- A synchronous reader never faults on a live node. -/
theorem readNodeSync_live {i : NodeId} (error : ZooKeeperError) (value : QByteArray)
    (hi : (p.readNode path n).1 = some i) (hl : (p.readNode path n).2.nodes.Live i d) :
    ∃ r, p.readNodeSync path n error value = .ok r := by
  obtain ⟨q, hq⟩ := takeAnswer_live error value hl
  have hlive : ∃ e, q.nodes.Live i e := by
    cases hs : error.settles with
    | true =>
      obtain ⟨j, e, hj, -, ha⟩ := takeAnswer_eq_ok hs hq
      obtain rfl := Option.some.inj hj
      rw [ha.nodes]
      exact ⟨_, Heap.live_put_self⟩
    | false =>
      rw [takeAnswer_of_not_settles hs, Except.ok.injEq] at hq
      exact ⟨d, hq ▸ hl⟩
  obtain ⟨e, he⟩ := hlive
  refine ⟨(some i, q), ?_⟩
  simp only [readNodeSync, hi, hq, Except.ok_bind, he.deref]
  rfl

/-! ## The completion of a create -/

/-- The signals the completion of a create emits. -/
def createSignals (n : NodeId) (d : ZooKeeperNode) (error : ZooKeeperError) : List NodeSignal :=
  match error with
  | .noError => (if d.exists_ ≠ true then [.existsChanged n true] else []) ++ [.created n]
  | .nodeExists => if d.exists_ ≠ true then [.existsChanged n true] else []
  | _ => []

theorem createSignals_of_not_keepsNode (h : error.keepsNode = false) :
    createSignals n d error = [] := by
  cases error <;> first | rfl | cases h

theorem node_createSignals {error : ZooKeeperError} :
    ∀ x ∈ createSignals n d error, x.node = n := by
  unfold createSignals
  split
  · exact List.forall_mem_append.mpr ⟨node_of_ite rfl, List.forall_mem_singleton.mpr rfl⟩
  · exact node_of_ite rfl
  · exact List.forall_mem_nil _

/-- What the completion of a create makes of the node `n` pooled under `pathOld`:
it moves to `path` and exists, or it leaves the pool and is scheduled for
deletion. -/
structure Completed (p p' : Pool) (n : NodeId) (d : ZooKeeperNode) (error : ZooKeeperError)
    (pathOld path : QString) : Prop where
  lookup : ∀ k, p'.lookup k =
    if k = path then (if error.keepsNode then some (some n) else none)
    else if k = pathOld then none else p.lookup k
  nodes : p'.nodes =
    if error.keepsNode then p.nodes.put n { d with path := path, exists_ := true }
    else (p.nodes.put n { d with path := path }).schedule n
  signals : p'.signals = p.signals ++ createSignals n d error

/-- The lookup finds the pooled node, which then has the reported path. -/
theorem completedNode_pooled {pathOld : QString} (path : QString) (h : p.lookup pathOld = some (some n))
    (hl : p.nodes.Live n d) (hd : d.path = pathOld) :
    ∃ q, p.completedNode pathOld path = .ok (some n, q) ∧
      (∀ k, q.lookup k =
        if k = path then some (some n) else if k = pathOld then none else p.lookup k) ∧
      q.nodes = p.nodes.put n { d with path := path } ∧ q.signals = p.signals := by
  have hc : p.contains pathOld = true := contains_iff.mpr ⟨_, h⟩
  by_cases hp : path = pathOld
  · subst hp
    refine ⟨p, by simp [completedNode, hc, value_eq h], ?_, ?_, rfl⟩
    · intro k
      by_cases hk : k = path
      · simp [hk, h]
      · simp [hk]
    · have hd' : { d with path := path } = d := by rw [← hd]
      rw [hd', Heap.put_of_live hl]
  · refine ⟨((p.write n { d with path := path }).insert path (some n)).remove pathOld, ?_, ?_, rfl, rfl⟩
    · simp [completedNode, hp, hc, value_eq h, rename, hl.deref, Except.ok_bind, pure, Except.pure]
    · intro k
      by_cases hk : k = pathOld
      · subst hk
        simp [Ne.symm hp]
      · simp [hk]

/-- Without a node under the requested path the lookup finds none, or faults. -/
theorem completedNode_missing {pathOld : QString} (path : QString) (h : (p.lookup pathOld).join = none) :
    p.completedNode pathOld path = .ok (none, p) ∨ p.completedNode pathOld path = .error .null := by
  by_cases hc : p.contains pathOld = true
  · obtain ⟨node, hk⟩ := contains_iff.mp hc
    obtain rfl : node = none := by simpa [hk] using h
    by_cases hp : path = pathOld
    · left
      subst hp
      simp [completedNode, hc, value_eq hk, pure, Except.pure]
    · right
      simp [completedNode, hp, hc, value_eq hk, rename]
  · left
    by_cases hp : path = pathOld
    · subst hp
      simp [completedNode, hc, pure, Except.pure]
    · simp [completedNode, hp, hc, pure, Except.pure]

/-- Every branch at the end of the completion of a create uses the node. -/
theorem finishCreate_null : p.finishCreate none error path = .error .null := by
  cases error <;> rfl

/-- A create whose node is still pooled is completed on that node. -/
theorem acreateCompletion_pooled {pathOld : QString} (error : ZooKeeperError)
    (name : Option QString) (hne : pathOld ≠ "")
    (h : p.lookup pathOld = some (some n)) (hl : p.nodes.Live n d) (hd : d.path = pathOld) :
    ∃ p', p.acreateCompletion error name pathOld = .ok p' ∧
      p.Completed p' n d error pathOld (reportedPath name pathOld) := by
  -- the argument is the same for every path the node is moved to
  generalize hp : reportedPath name pathOld = path
  obtain ⟨q, hq, hlookup, hnodes, hsignals⟩ := completedNode_pooled path h hl hd
  have hql : q.nodes.Live n { d with path := path } := by
    rw [hnodes]
    exact Heap.live_put_self
  have hstart : p.acreateCompletion error name pathOld = q.finishCreate (some n) error path := by
    simp only [acreateCompletion, ne_eq, hne, not_false_eq_true, if_true, hp, hq, Except.ok_bind]
  have hput : q.nodes.put n { d with path := path, exists_ := true } =
      p.nodes.put n { d with path := path, exists_ := true } := by
    rw [hnodes]
    exact Heap.put_put
  rw [hstart]
  cases hk : error.keepsNode with
  | true =>
    have hset : q.setExists (some n) true = .ok (q.storeExists n { d with path := path } true) :=
      setExists_eq_ok.mpr ⟨n, _, rfl, hql, rfl⟩
    have hset' := nodes_storeExists (b := true) hql
    rcases ZooKeeperError.keepsNode_iff.mp hk with rfl | rfl
    · have hlive : (q.storeExists n { d with path := path } true).nodes.Live n
          { d with path := path, exists_ := true } := by
        rw [hset']
        exact Heap.live_put_self
      refine ⟨(q.storeExists n { d with path := path } true).emit (.created n), ?_, ?_, ?_, ?_⟩
      · simp only [finishCreate, hset, Except.ok_bind, hlive.deref]
        rfl
      · intro k
        simp [hlookup, ZooKeeperError.keepsNode]
      · simp only [nodes_emit, hset', hput, hk, if_true]
      · simp [signals_storeExists, hsignals, createSignals]
    · refine ⟨_, hset, ?_, ?_, ?_⟩
      · intro k
        simp [hlookup, ZooKeeperError.keepsNode]
      · simp only [hset', hput, hk, if_true]
      · simp [signals_storeExists, hsignals, createSignals]
  | false =>
    refine ⟨(q.remove path).schedule n, ?_, ?_, ?_, ?_⟩
    · have hdel : (q.remove path).deleteLater (some n) = .ok ((q.remove path).schedule n) :=
        deleteLater_eq_ok.mpr ⟨n, _, rfl, hql, rfl⟩
      cases error <;> first | exact hdel | cases hk
    · intro k
      simp only [lookup_schedule, lookup_remove, hlookup, hk]
      by_cases hkp : k = path <;> simp [hkp]
    · simp [hnodes, hk]
    · simp [createSignals_of_not_keepsNode hk, hsignals]

/-- A create without a pooled node has a completion that faults. -/
theorem acreateCompletion_missing {pathOld : QString} {name : Option QString} (hne : pathOld ≠ "")
    (h : (p.lookup pathOld).join = none) :
    p.acreateCompletion error name pathOld = .error .null := by
  simp only [acreateCompletion, ne_eq, hne, not_false_eq_true, if_true]
  rcases completedNode_missing (reportedPath name pathOld) h with hc | hc
  · rw [hc, Except.ok_bind]
    exact finishCreate_null
  · rw [hc]
    rfl

/-! ## The completion of a read -/

/-- A read whose node is still pooled is completed on that node. -/
theorem agetCompletion_pooled (error : ZooKeeperError) (value : QByteArray)
    (h : p.lookup path = some (some n)) (hl : p.nodes.Live n d) :
    ∃ p', p.agetCompletion error value path = .ok p' ∧ p.Answered p' n d error value := by
  simp only [agetCompletion, index_eq h]
  obtain ⟨p', hp'⟩ := takeAnswer_live error value hl
  refine ⟨p', hp', ?_⟩
  cases hs : error.settles with
  | true =>
    obtain ⟨n', d', hn, hl', ha⟩ := takeAnswer_eq_ok hs hp'
    obtain rfl : n = n' := by simpa using hn
    obtain rfl : d = d' := hl.unique hl'
    exact ha
  | false =>
    rw [takeAnswer_of_not_settles hs, Except.ok.injEq] at hp'
    subst hp'
    exact .ignored value hs hl

/-- The index operator alone: it leaves a null entry where there was none. -/
def indexed (p : Pool) (path : QString) : Pool := (p.index path).2

theorem lookup_indexed : (p.indexed path).lookup k =
    if k = path then some (p.lookup path).join else p.lookup k := by
  cases h : p.lookup path with
  | none => simp [indexed, index_missing h]
  | some node =>
    by_cases hk : k = path
    · simp [indexed, index_eq h, hk, h]
    · simp [indexed, index_eq h, hk]

@[simp] theorem nodes_indexed : (p.indexed path).nodes = p.nodes := rfl
@[simp] theorem signals_indexed : (p.indexed path).signals = p.signals := rfl

/-- An answer that settles nothing leaves the nodes alone. -/
theorem agetCompletion_of_not_settles (h : error.settles = false) :
    p.agetCompletion error value path = .ok (p.indexed path) := takeAnswer_of_not_settles h

/-- Any other answer to a read without a pooled node faults. -/
theorem agetCompletion_missing (hs : error.settles = true) (h : (p.lookup path).join = none) :
    p.agetCompletion error value path = .error .null := by
  have hnode : (p.index path).1 = none := by
    cases hk : p.lookup path with
    | none => rw [index_missing hk]
    | some node =>
      rw [index_eq hk]
      simpa [hk] using h
  simp only [agetCompletion, hnode]
  rcases ZooKeeperError.settles_iff.mp hs with rfl | rfl <;> rfl

/-! ## The end of a session -/

/-- What `processDisconnected` leads to: no entries, and exactly the pooled nodes
newly scheduled for deletion. -/
structure Disconnected (p p' : Pool) : Prop where
  lookup : ∀ k, p'.lookup k = none
  live : ∀ m d, p'.nodes.Live m d ↔ p.nodes.Live m d ∧ ∀ k, p.lookup k ≠ some (some m)
  fresh : ∀ m, p'.nodes.Fresh m ↔ p.nodes.Fresh m
  signals : p'.signals = p.signals

theorem deleteAll_eq_ok {l : List NodePtr} (h : p.deleteAll l = .ok p') :
    p'.nodePool = p.nodePool ∧ p'.signals = p.signals ∧
      (∀ m, p'.nodes.Fresh m ↔ p.nodes.Fresh m) ∧
      ∀ m d, p'.nodes.Live m d ↔ p.nodes.Live m d ∧ some m ∉ l := by
  induction l generalizing p with
  | nil =>
    obtain rfl : p = p' := by simpa [deleteAll] using h
    simp
  | cons node rest ih =>
    simp only [deleteAll, Except.bind_eq_ok, deleteLater_eq_ok] at h
    obtain ⟨q, ⟨n, d, rfl, -, rfl⟩, hrest⟩ := h
    obtain ⟨hpool, hsignals, hfresh, hlive⟩ := ih hrest
    refine ⟨hpool, hsignals, ?_, ?_⟩
    · intro m
      rw [hfresh, nodes_schedule, Heap.fresh_schedule]
    · intro m d'
      rw [hlive, nodes_schedule, Heap.live_schedule]
      simp only [List.mem_cons, Option.some.injEq, not_or]
      constructor
      · rintro ⟨⟨hne, hl⟩, hm⟩
        exact ⟨hl, hne, hm⟩
      · rintro ⟨hl, hne, hm⟩
        exact ⟨⟨hne, hl⟩, hm⟩

/-- The loop does not fault on distinct live nodes. -/
theorem deleteAll_live {l : List NodePtr} (hl : ∀ node ∈ l, ∃ n d, node = some n ∧ p.nodes.Live n d)
    (hn : l.Nodup) : ∃ p', p.deleteAll l = .ok p' := by
  induction l generalizing p with
  | nil => exact ⟨p, rfl⟩
  | cons node rest ih =>
    obtain ⟨n, d, rfl, hn'⟩ := hl node List.mem_cons_self
    rw [List.nodup_cons] at hn
    have hrest : ∀ node ∈ rest, ∃ m d, node = some m ∧ (p.schedule n).nodes.Live m d := by
      intro node hmem
      obtain ⟨m, e, rfl, hm⟩ := hl node (List.mem_cons_of_mem _ hmem)
      have hne : m ≠ n := by
        rintro rfl
        exact hn.1 hmem
      exact ⟨m, e, rfl, Heap.live_schedule.mpr ⟨hne, hm⟩⟩
    obtain ⟨p', hp'⟩ := ih hrest hn.2
    exact ⟨p', Except.bind_eq_ok.mpr ⟨_, deleteLater_eq_ok.mpr ⟨n, d, rfl, hn', rfl⟩, hp'⟩⟩

/-- The loop uses every pointer it comes to. -/
theorem none_not_mem_of_deleteAll {l : List NodePtr} (h : p.deleteAll l = .ok p') : none ∉ l := by
  induction l generalizing p with
  | nil => exact List.not_mem_nil
  | cons node rest ih =>
    simp only [deleteAll, Except.bind_eq_ok, deleteLater_eq_ok] at h
    obtain ⟨q, ⟨n, d, rfl, -, -⟩, hrest⟩ := h
    simpa using ih hrest

theorem processDisconnected_eq_ok (h : p.processDisconnected = .ok p') : p.Disconnected p' := by
  simp only [processDisconnected, Except.bind_eq_ok, Except.pure_eq_ok] at h
  obtain ⟨q, hq, rfl⟩ := h
  obtain ⟨-, hsignals, hfresh, hlive⟩ := deleteAll_eq_ok hq
  refine ⟨fun k => rfl, ?_, hfresh, hsignals⟩
  intro m d
  rw [hlive, KeyTable.mem_values_iff]
  simp [Pool.lookup]

end Pool

end QtZooKeeper
