-- SUMMARY: The nodes the pool shows with their fields: where they, their values and their types come from, and what completions make of them.
import QtZooKeeper.Manager.PoolMachine

/-!
# Pooled nodes

`Pool.pooled` shows the node under a path together with its fields. An operation
brings a node in only as a new one, changes the value of a node only by storing a
read in it, and never changes its type.
-/

namespace QtZooKeeper

/-- The path and the value of a successful read the operation stores. -/
def PoolOp.reads : PoolOp → Option (QString × QByteArray)
  | readNodeSync path _ error value => if error = .noError then some (path, value) else none
  | agetCompletion error value path => if error = .noError then some (path, value) else none
  | _ => none

/-- The path under which the operation stores whether its znode exists, and what it
stores. -/
def PoolOp.storesExists : PoolOp → Option (QString × Bool)
  | createNodeSync _ _ _ newPath _ => some (newPath, true)
  | readNodeSync path _ error _ | agetCompletion error _ path => error.settled.map (path, ·)
  | acreateCompletion error name path =>
    if path ≠ "" ∧ error.keepsNode = true then some (Pool.reportedPath name path, true) else none
  | _ => none

/-- The node the operation creates, and its type. -/
def PoolOp.creates : PoolOp → Option (NodeId × ZooKeeperNodeType)
  | createNode type _ _ n | createNodeSync type _ _ _ n => some (n, type)
  | _ => none

/-- The operation sets the flag of a node by hand. -/
def PoolOp.setsExists : PoolOp → Bool
  | setExists _ _ => true
  | _ => false

namespace Pool

variable {p p' : Pool} {k path : QString} {n m i : NodeId} {d e : ZooKeeperNode} {op : PoolOp}

/-- The node pooled under a path, with its fields. -/
def pooled (p : Pool) (path : QString) : Option (NodeId × ZooKeeperNode) :=
  match (p.lookup path).join with
  | none => none
  | some n =>
    match p.nodes n with
    | some ⟨d, false⟩ => some (n, d)
    | _ => none

theorem pooled_eq_some : p.pooled path = some (n, d) ↔
    p.lookup path = some (some n) ∧ p.nodes.Live n d := by
  unfold pooled Heap.Live
  rw [← Option.join_eq_some_iff]
  cases (p.lookup path).join with
  | none => simp
  | some m =>
    simp only [Option.some.injEq]
    constructor
    · intro h
      split at h
      · next hm =>
        obtain ⟨rfl, rfl⟩ := Prod.mk.inj (Option.some.inj h)
        exact ⟨rfl, hm⟩
      · cases h
    · rintro ⟨rfl, hm⟩
      rw [hm]

theorem pooled_congr (hn : p'.nodes = p.nodes) (hk : p'.lookup k = p.lookup k) :
    p'.pooled k = p.pooled k := by
  simp only [pooled, hn, hk]

/-- In a sound pool only paths without a node have none to show. -/
theorem Sound.pooled_eq_none (h : p.Sound) : p.pooled path = none ↔ (p.lookup path).join = none := by
  constructor
  · intro hp
    cases hk : (p.lookup path).join with
    | none => rfl
    | some n =>
      rw [Option.join_eq_some_iff] at hk
      obtain ⟨d, hl, -⟩ := h path n hk
      cases hp.symm.trans (pooled_eq_some.mpr ⟨hk, hl⟩)
  · intro hk
    simp [pooled, hk]

/-! ## Completed creates -/

section Completed

variable {error : ZooKeeperError} {pathOld : QString}

/-- The completion of a create leaves the pool alone or completes the node pooled
under the requested path. -/
theorem completed_of_acreateCompletion {name : Option QString} (hp : p.Sound)
    (hs : (PoolOp.acreateCompletion error name path).apply p = .ok p') :
    (path = "" ∧ p' = p) ∨ (path ≠ "" ∧ ∃ n d, p.pooled path = some (n, d) ∧
      p.Completed p' n d error path (reportedPath name path)) := by
  cases hp.step hs with
  | createUnnamed => exact .inl ⟨rfl, rfl⟩
  | createCompleted hne hk hl hd hc => exact .inr ⟨hne, _, _, pooled_eq_some.mpr ⟨hk, hl⟩, hc⟩

/-- After its completion the created node is pooled under the reported path, if it
stays. -/
theorem pooled_of_completed (hc : p.Completed p' i e error pathOld path) : p'.pooled path =
    if error.keepsNode then some (i, { e with path := path, exists_ := true }) else none := by
  have hlook := hc.lookup path
  rw [if_pos rfl] at hlook
  cases hkeep : error.keepsNode with
  | true =>
    have hnodes := hc.nodes
    rw [hkeep, if_pos rfl] at hlook hnodes
    refine pooled_eq_some.mpr ⟨hlook, ?_⟩
    rw [hnodes]
    exact Heap.live_put_self
  | false =>
    rw [hkeep] at hlook
    simp [pooled, hlook]

/-- The completion of a create leaves the other nodes alone. -/
theorem Completed.nodes_of_ne (hc : p.Completed p' i e error pathOld path) (hn : n ≠ i) :
    p'.nodes n = p.nodes n := by
  rw [hc.nodes]
  split
  · exact Heap.put_of_ne hn
  · rw [Heap.schedule_of_ne hn, Heap.put_of_ne hn]

/-- Answered `NodeExists` without another name, it leaves even its own node alone if
that exists already. -/
theorem Completed.node_nodeExists_iff (hl : p.nodes.Live i e) (he : e.path = path)
    (hc : p.Completed p' i e .nodeExists pathOld path) :
    p'.nodes i = p.nodes i ↔ e.exists_ = true := by
  have hlive : p.nodes i = some ⟨e, false⟩ := hl
  have hnodes : p'.nodes = p.nodes.put i { e with path := path, exists_ := true } := by
    simpa [ZooKeeperError.keepsNode] using hc.nodes
  rw [hnodes, Heap.put_self, hlive, ← he]
  obtain ⟨exists_, path, value, type⟩ := e
  simp [eq_comm]

/-- It leaves the entries of the other nodes alone. -/
theorem Completed.pooled_of_ne (hc : p.Completed p' i e error pathOld path)
    (h : p.pooled k = some (n, d)) (hn : n ≠ i) (hk : k ≠ path) (hko : k ≠ pathOld) :
    p'.pooled k = some (n, d) := by
  obtain ⟨hlook, hlive⟩ := pooled_eq_some.mp h
  refine pooled_eq_some.mpr ⟨?_, ?_⟩
  · rw [hc.lookup, if_neg hk, if_neg hko]
    exact hlook
  · exact (hc.nodes_of_ne hn).trans hlive

/-- A node under another path stays there unless the completed one is renamed to
that path. -/
theorem Completed.pooled_of_other (hc : p.Completed p' i e error pathOld path)
    (hi : p.pooled pathOld = some (i, e)) (hpath : path = pathOld ∨ p.contains path = false)
    (h : p.pooled k = some (n, d)) (hn : n ≠ i) : p'.pooled k = some (n, d) := by
  have hko : k ≠ pathOld := by
    rintro rfl
    cases hi.symm.trans h
    exact hn rfl
  have hk : k ≠ path := by
    rintro rfl
    rcases hpath with hsame | hmissing
    · exact hko hsame
    · cases (not_contains_iff.mp (Bool.not_eq_true _ ▸ hmissing)).symm.trans (pooled_eq_some.mp h).1
  exact hc.pooled_of_ne h hn hk hko

/-- It announces no other node. -/
theorem Completed.count_created (hc : p.Completed p' i e error pathOld path) (hn : n ≠ i) :
    p'.signals.count (.created n) = p.signals.count (.created n) := by
  rw [hc.signals, List.count_append, Nat.add_eq_left, List.count_eq_zero]
  intro hmem
  exact hn (node_createSignals _ hmem)

theorem Completed.fresh_iff (hc : p.Completed p' i e error pathOld path) :
    p'.nodes.Fresh n ↔ n ≠ i ∧ p.nodes.Fresh n := by
  rw [hc.nodes]
  split
  · exact Heap.fresh_put
  · rw [Heap.fresh_schedule]
    exact Heap.fresh_put

/-- It pools no other node. -/
theorem Completed.lookup_of_ne (hc : p.Completed p' i e error pathOld path)
    (h : p'.lookup k = some (some n)) (hn : n ≠ i) : p.lookup k = some (some n) := by
  rw [hc.lookup] at h
  split at h
  · split at h
    · exact absurd (Option.some.inj (Option.some.inj h)).symm hn
    · cases h
  · split at h
    · cases h
    · exact h

/-- The completion of a create leaves the values of the nodes, and sets the flag of
the node it completes. -/
theorem pooled_completed (hp : p.Sound) (hk : p.lookup pathOld = some (some i))
    (hl : p.nodes.Live i e) (hc : p.Completed p' i e error pathOld path)
    (h : p'.pooled k = some (n, d)) : ∃ k₀ d₀, p.pooled k₀ = some (n, d₀) ∧ d.value = d₀.value ∧
      (d.exists_ = d₀.exists_ ∨ error.keepsNode = true ∧ k = path ∧ d.exists_ = true) := by
  obtain ⟨hlook, hlive⟩ := pooled_eq_some.mp h
  by_cases hni : n = i
  · subst hni
    refine ⟨pathOld, e, pooled_eq_some.mpr ⟨hk, hl⟩, ?_⟩
    rw [hc.nodes] at hlive
    split at hlive
    · next hkeep =>
      have hd := hlive.unique Heap.live_put_self
      refine ⟨by rw [hd], .inr ⟨hkeep, ?_, by rw [hd]⟩⟩
      by_contra hkp
      rw [hc.lookup, if_neg hkp] at hlook
      split at hlook
      · cases hlook
      · next hko => exact hko (hp.injective hlook hk)
    · have hd := (Heap.live_schedule.mp hlive).1
      exact absurd rfl hd
  · have hlive' : p.nodes.Live n d := (hc.nodes_of_ne hni).symm.trans hlive
    exact ⟨k, d, pooled_eq_some.mpr ⟨hc.lookup_of_ne hlook hni, hlive'⟩, rfl, .inl rfl⟩

end Completed

/-! ## Where the nodes and their values come from -/

/-- A node of the pool after one node was written is that one or the same as before. -/
theorem pooled_put (hk : p'.lookup k = p.lookup k) (hn : p'.nodes = p.nodes.put i e)
    (h : p'.pooled k = some (n, d)) :
    (n = i ∧ d = e ∧ p.lookup k = some (some i)) ∨ (n ≠ i ∧ p.pooled k = some (n, d)) := by
  obtain ⟨hlook, hlive⟩ := pooled_eq_some.mp h
  rw [hk] at hlook
  rw [hn, Heap.live_put] at hlive
  rcases hlive with ⟨rfl, rfl⟩ | ⟨hne, hlive⟩
  · exact .inl ⟨rfl, rfl, hlook⟩
  · exact .inr ⟨hne, pooled_eq_some.mpr ⟨hlook, hlive⟩⟩

/-- What is pooled after a new node came in. -/
theorem pooled_insert (hp : p.Sound) (hf : p.nodes.Fresh i) :
    ((p.write i e).insert path (some i)).pooled k = if k = path then some (i, e) else p.pooled k := by
  split
  · next hk => exact pooled_eq_some.mpr ⟨by simp [hk], Heap.live_put_self⟩
  · next hk =>
    have hlook : ((p.write i e).insert path (some i)).lookup k = p.lookup k := by simp [hk]
    cases hold : p.pooled k with
    | none =>
      rw [hp.pooled_eq_none] at hold
      simp only [pooled, hlook, hold]
    | some z =>
      obtain ⟨hz, hl⟩ := pooled_eq_some.mp hold
      exact pooled_eq_some.mpr ⟨hlook.trans hz, hl.put_of_ne (hp.fresh_ne hf hz)⟩

/-- A node of the pool after a new one came in is the new one or the same as before. -/
theorem new_or_pooled_of_insert (hp : p.Sound) (hf : p.nodes.Fresh i)
    (h : ((p.write i e).insert path (some i)).pooled k = some (n, d)) :
    (k = path ∧ n = i ∧ d = e) ∨ p.pooled k = some (n, d) := by
  rw [pooled_insert hp hf] at h
  split at h
  · next hk =>
    cases h
    exact .inl ⟨hk, rfl, rfl⟩
  · exact .inr h

theorem pooled_remove (h : (p.remove path).pooled k = some (n, d)) :
    k ≠ path ∧ p.pooled k = some (n, d) := by
  obtain ⟨hlook, hlive⟩ := pooled_eq_some.mp h
  rw [lookup_remove] at hlook
  split at hlook
  · cases hlook
  · next hkp => exact ⟨hkp, pooled_eq_some.mpr ⟨hlook, hlive⟩⟩

/-- The node a reader brings in does not exist as far as it knows. -/
theorem pooled_readNode (hp : p.Sound) (hf : p.nodes.Fresh m)
    (h : (p.readNode path m).2.pooled k = some (n, d)) :
    p.pooled k = some (n, d) ∨ p.nodes.Fresh n ∧ d.exists_ = false := by
  rcases p.readNode_cases path m with ⟨node, -, hr⟩ | ⟨-, hr⟩
  · rw [hr] at h
    exact .inl h
  · rw [hr] at h
    rcases new_or_pooled_of_insert hp hf h with ⟨-, rfl, rfl⟩ | h
    · exact .inr ⟨hf, rfl⟩
    · exact .inl h

/-- A node after the answer of a read is the one read, or the same as before. -/
theorem pooled_answered {error : ZooKeeperError} {value : QByteArray} (hl : p.nodes.Live i e)
    (ha : p.Answered p' i e error value) (h : p'.pooled k = some (n, d)) :
    p.pooled k = some (n, d) ∨ (p.lookup k = some (some i) ∧ p.pooled k = some (n, e) ∧
      d = e.answered error value) := by
  rcases pooled_put (ha.lookup k) ha.nodes h with ⟨rfl, rfl, hk⟩ | ⟨-, h⟩
  · exact .inr ⟨hk, pooled_eq_some.mpr ⟨hk, hl⟩, rfl⟩
  · exact .inl h

/-- Where the node `n` pooled under `k` and its fields `d` come from: the node was in
the pool before, with the fields `d₀`, or it is new, and each field is as it was
unless the operation stores in it. -/
structure Origin (p : Pool) (op : PoolOp) (k : QString) (n : NodeId) (d d₀ : ZooKeeperNode) :
    Prop where
  node : (∃ k₀, p.pooled k₀ = some (n, d₀)) ∨ (p.nodes.Fresh n ∧ d₀.exists_ = false)
  value : d.value = d₀.value ∨ ∃ v, op.reads = some (k, v)
  exists_ : d.exists_ = d₀.exists_ ∨ op.storesExists = some (k, d.exists_) ∨ op.setsExists = true

theorem Origin.same (h : p.pooled k = some (n, d)) : p.Origin op k n d d where
  node := .inl ⟨k, h⟩
  value := .inl rfl
  exists_ := .inl rfl

theorem Origin.new (hf : p.nodes.Fresh n) (hd : d.exists_ = false) : p.Origin op k n d d where
  node := .inr ⟨hf, hd⟩
  value := .inl rfl
  exists_ := .inl rfl

/-- The fields of a node after the answer of a read. -/
theorem Origin.answered {error : ZooKeeperError} {value : QByteArray} (hd : d = e.answered error value)
    (hnode : (∃ k₀, p.pooled k₀ = some (n, e)) ∨ (p.nodes.Fresh n ∧ e.exists_ = false))
    (hreads : op.reads = if error = .noError then some (k, value) else none)
    (hstores : op.storesExists = error.settled.map (k, ·)) : p.Origin op k n d e := by
  subst hd
  cases error with
  | noError => exact ⟨hnode, .inr ⟨value, hreads⟩, .inr (.inl hstores)⟩
  | noNode => exact ⟨hnode, .inl rfl, .inr (.inl hstores)⟩
  | _ => exact ⟨hnode, .inl rfl, .inl rfl⟩

theorem origin_of_apply (hp : p.Sound) (he : op.Enabled p) (hs : op.apply p = .ok p')
    (h : p'.pooled k = some (n, d)) : ∃ d₀, p.Origin op k n d d₀ := by
  cases hp.step hs with
  | keep => exact ⟨d, .same h⟩
  | createNode =>
    rcases new_or_pooled_of_insert hp he.2 h with ⟨-, rfl, rfl⟩ | h
    · exact ⟨_, .new he.2 rfl⟩
    · exact ⟨d, .same h⟩
  | @createNodeSync type path value newPath m =>
    rcases new_or_pooled_of_insert hp he.2 (pooled_remove h).2 with ⟨rfl, rfl, rfl⟩ | h
    · refine ⟨{ path := k, value := value, type := some type }, ?_⟩
      exact ⟨.inr ⟨he.2, rfl⟩, .inl rfl, .inr (.inl rfl)⟩
    · exact ⟨d, .same h⟩
  | deleteMissing hk => exact ⟨d, .same h⟩
  | deletePooled hk hl =>
    obtain ⟨hlook, hlive⟩ := pooled_eq_some.mp (pooled_remove h).2
    rw [nodes_schedule, Heap.live_schedule] at hlive
    exact ⟨d, .same (pooled_eq_some.mpr ⟨hlook, hlive.2⟩)⟩
  | readNode =>
    rcases pooled_readNode hp he h with h | ⟨hf, hd⟩
    · exact ⟨d, .same h⟩
    · exact ⟨d, .new hf hd⟩
  | readIgnored hset =>
    rcases pooled_readNode hp he h with h | ⟨hf, hd⟩
    · exact ⟨d, .same h⟩
    · exact ⟨d, .new hf hd⟩
  | readAnswered hset hi hl ha =>
    rcases pooled_answered hl ha h with h | ⟨hk, h, hd⟩
    · rcases pooled_readNode hp he h with h | ⟨hf, hd⟩
      · exact ⟨d, .same h⟩
      · exact ⟨d, .new hf hd⟩
    · obtain rfl := (hp.readNode he).injective hk hi
      refine ⟨_, .answered hd ?_ rfl rfl⟩
      exact (pooled_readNode hp he h).imp_left fun h => ⟨k, h⟩
  | setExists hl =>
    rcases pooled_put lookup_storeExists (nodes_storeExists hl) h with ⟨rfl, rfl, hk⟩ | ⟨-, h⟩
    · exact ⟨_, .inl ⟨k, pooled_eq_some.mpr ⟨hk, hl⟩⟩, .inl rfl, .inr (.inr rfl)⟩
    · exact ⟨d, .same h⟩
  | createUnnamed => exact ⟨d, .same h⟩
  | createCompleted hne hk hl hd hc =>
    obtain ⟨k₀, d₀, h₀, hvalue, hexists⟩ := pooled_completed hp hk hl hc h
    refine ⟨d₀, .inl ⟨k₀, h₀⟩, .inl hvalue, hexists.imp_right ?_⟩
    rintro ⟨hkeep, rfl, hd⟩
    simp only [PoolOp.storesExists, ne_eq, hne, not_false_eq_true, hkeep, and_self, if_true, hd,
      true_or]
  | @getUnpooled error value path hset hk =>
    obtain ⟨hlook, hlive⟩ := pooled_eq_some.mp h
    rw [lookup_indexed, hk] at hlook
    split at hlook
    · simp at hlook
    · exact ⟨d, .same (pooled_eq_some.mpr ⟨hlook, hlive⟩)⟩
  | getAnswered hk hl ha =>
    rcases pooled_answered hl ha h with h | ⟨hk', h, hd⟩
    · exact ⟨d, .same h⟩
    · obtain rfl := hp.injective hk' hk
      exact ⟨_, .answered hd (.inl ⟨k, h⟩) rfl rfl⟩
  | disconnected hd =>
    have hlook := (pooled_eq_some.mp h).1
    rw [hd.lookup] at hlook
    cases hlook

/-- The node a read stores its value in. -/
theorem pooled_of_reads {v : QByteArray} (hp : p.Sound) (hs : op.apply p = .ok p')
    (h : op.reads = some (k, v)) : ∃ n d, p'.pooled k = some (n, d) ∧ d.value = v := by
  have hstored : ∀ {q : Pool} {i : NodeId} {e : ZooKeeperNode}, q.lookup k = some (some i) →
      q.Answered p' i e .noError v → ∃ n d, p'.pooled k = some (n, d) ∧ d.value = v := by
    intro q i e hk ha
    refine ⟨i, { e with value := v, exists_ := true }, pooled_eq_some.mpr ⟨?_, ?_⟩, rfl⟩
    · exact (ha.lookup k).trans hk
    · rw [ha.nodes]
      exact Heap.live_put_self
  cases hp.step hs with
  | @readIgnored path n error value hset =>
    simp only [PoolOp.reads, Option.ite_none_right_eq_some] at h
    simp [h.1, ZooKeeperError.settles] at hset
  | @readAnswered path n i error value d p' hset hi hl ha =>
    simp only [PoolOp.reads, Option.ite_none_right_eq_some, Option.some.injEq, Prod.mk.injEq] at h
    obtain ⟨rfl, rfl, rfl⟩ := h
    exact hstored hi ha
  | @getUnpooled error value path hset hk =>
    simp only [PoolOp.reads, Option.ite_none_right_eq_some] at h
    simp [h.1, ZooKeeperError.settles] at hset
  | @getAnswered error value path n d p' hk hl ha =>
    simp only [PoolOp.reads, Option.ite_none_right_eq_some, Option.some.injEq, Prod.mk.injEq] at h
    obtain ⟨rfl, rfl, rfl⟩ := h
    exact hstored hk ha
  | _ => cases h

/-- The node an operation stores the flag in has it afterwards. -/
theorem exists_of_stores {b : Bool} (hp : p.Sound) (hs : op.apply p = .ok p')
    (h : op.storesExists = some (k, b)) (hn : p'.pooled k = some (n, d)) : d.exists_ = b := by
  have hanswered : ∀ {q : Pool} {i : NodeId} {e : ZooKeeperNode} {error : ZooKeeperError}
      {value : QByteArray}, q.lookup k = some (some i) → q.Answered p' i e error value →
      error.settled = some b → d.exists_ = b := by
    intro q i e error value hk ha hset
    obtain ⟨hlook, hlive⟩ := pooled_eq_some.mp hn
    rw [ha.lookup, hk] at hlook
    cases hlook
    rw [ha.nodes] at hlive
    rw [hlive.unique Heap.live_put_self]
    cases error <;> cases hset <;> rfl
  cases hp.step hs with
  | @createNodeSync type path value newPath m =>
    cases h
    obtain ⟨hlook, hlive⟩ := pooled_eq_some.mp (pooled_remove hn).2
    obtain rfl : m = n := by simpa using hlook
    rw [hlive.unique Heap.live_put_self]
  | readIgnored hset =>
    simp [PoolOp.storesExists, ZooKeeperError.settled_of_not_settles hset] at h
  | @readAnswered path m i error value e p' hset hi hl ha =>
    obtain ⟨b', hb, hkb⟩ := Option.map_eq_some_iff.mp h
    cases hkb
    exact hanswered hi ha hb
  | @createCompleted error name pathOld i e p' hne hk hl hd hc =>
    simp only [PoolOp.storesExists, ne_eq, hne, not_false_eq_true, true_and,
      Option.ite_none_right_eq_some, Option.some.injEq, Prod.mk.injEq] at h
    obtain ⟨hkeep, rfl, rfl⟩ := h
    have hpooled := pooled_of_completed hc
    rw [if_pos hkeep] at hpooled
    cases hpooled.symm.trans hn
    rfl
  | getUnpooled hset hk =>
    simp [PoolOp.storesExists, ZooKeeperError.settled_of_not_settles hset] at h
  | @getAnswered error value path i e p' hk hl ha =>
    obtain ⟨b', hb, hkb⟩ := Option.map_eq_some_iff.mp h
    cases hkb
    exact hanswered hk ha hb
  | _ => cases h

section CreateNodeSync

variable {type : ZooKeeperNodeType} {value : QByteArray} {newPath : QString}

theorem lookup_createNodeSync : (p.createNodeSync type path value newPath n).lookup k =
    if k = path then none else if k = newPath then some (some n) else p.lookup k := by
  simp [createNodeSync]

theorem live_createNodeSync : (p.createNodeSync type path value newPath n).nodes.Live n
    { exists_ := true, path := newPath, value := value, type := some type } :=
  Heap.live_put_self

/-- The node a synchronous create pools shows the value it was given. -/
theorem pooled_createNodeSync
    (h : (p.createNodeSync type path value newPath i).pooled newPath = some (n, d)) :
    d.value = value := by
  obtain ⟨hne, h⟩ := pooled_remove h
  obtain ⟨hlook, hlive⟩ := pooled_eq_some.mp h
  obtain rfl : i = n := by simpa using hlook
  have hd := hlive.unique Heap.live_put_self
  rw [hd]

end CreateNodeSync

theorem fresh_of_readNode (h : (p.readNode path m).2.nodes.Fresh n) : p.nodes.Fresh n := by
  rcases p.readNode_cases path m with ⟨node, -, hr⟩ | ⟨-, hr⟩
  · rw [hr] at h
    exact h
  · rw [hr] at h
    exact (Heap.fresh_put.mp h).2

/-- Addresses in use stay in use. -/
theorem fresh_of_apply (hp : p.Sound) (hs : op.apply p = .ok p') (h : p'.nodes.Fresh n) :
    p.nodes.Fresh n := by
  have hput : ∀ {i e}, (p.nodes.put i e).Fresh n → p.nodes.Fresh n := fun h =>
    (Heap.fresh_put.mp h).2
  cases hp.step hs with
  | keep => exact h
  | createNode => exact hput h
  | createNodeSync => exact hput h
  | deleteMissing hk => exact h
  | deletePooled hk hl => exact Heap.fresh_schedule.mp h
  | readNode => exact fresh_of_readNode h
  | readIgnored hset => exact fresh_of_readNode h
  | readAnswered hset hi hl ha =>
    rw [ha.nodes] at h
    exact fresh_of_readNode (Heap.fresh_put.mp h).2
  | setExists hl =>
    rw [nodes_storeExists hl] at h
    exact hput h
  | createUnnamed => exact h
  | createCompleted hne hk hl hd hc => exact (hc.fresh_iff.mp h).2
  | getUnpooled hset hk => exact h
  | getAnswered hk hl ha =>
    rw [ha.nodes] at h
    exact hput h
  | disconnected hd => exact (hd.fresh n).mp h

/-! ## Where the types of the nodes come from -/

theorem fresh_of_creates {type : ZooKeeperNodeType} (he : op.Enabled p)
    (h : op.creates = some (n, type)) : p.nodes.Fresh n := by
  cases op with
  | createNode => cases h; exact he.2
  | createNodeSync => cases h; exact he.2
  | _ => cases h

theorem not_fresh_of_creates {type : ZooKeeperNodeType} (hs : op.apply p = .ok p')
    (h : op.creates = some (n, type)) : ¬ p'.nodes.Fresh n := by
  cases op with
  | createNode =>
    cases h
    obtain rfl := Except.pure_eq_ok.mp hs
    exact fun hf => (Heap.fresh_put.mp hf).1 rfl
  | createNodeSync =>
    cases h
    obtain rfl := Except.pure_eq_ok.mp hs
    exact fun hf => (Heap.fresh_put.mp hf).1 rfl
  | _ => cases h

/-- A node a reader brings in has no type. -/
theorem live_of_readNode (hf : p.nodes.Fresh m) (h : (p.readNode path m).2.nodes.Live n d) :
    p.nodes.Live n d ∨ p.nodes.Fresh n ∧ d.type = none := by
  rcases p.readNode_cases path m with ⟨node, -, hr⟩ | ⟨-, hr⟩
  · rw [hr] at h
    exact .inl h
  · rw [hr] at h
    rcases Heap.live_put.mp h with ⟨rfl, rfl⟩ | ⟨-, h⟩
    · exact .inr ⟨hf, rfl⟩
    · exact .inl h

/-- A node has kept its type, or it is new and has the type it was created with, if
any. -/
theorem type_of_apply (hp : p.Sound) (he : op.Enabled p) (hs : op.apply p = .ok p')
    (h : p'.nodes.Live n d) : (∃ d₀, p.nodes.Live n d₀ ∧ d.type = d₀.type) ∨
      (p.nodes.Fresh n ∧ op.creates = d.type.map (n, ·)) := by
  have hkept : ∀ {i : NodeId} {e e' : ZooKeeperNode}, p.nodes.Live i e →
      (p.nodes.put i e').Live n d → e'.type = e.type → ∃ d₀, p.nodes.Live n d₀ ∧ d.type = d₀.type := by
    intro i e e' hl h htype
    rcases Heap.live_put.mp h with ⟨rfl, rfl⟩ | ⟨-, h⟩
    · exact ⟨e, hl, htype⟩
    · exact ⟨d, h, rfl⟩
  cases hp.step hs with
  | keep => exact .inl ⟨d, h, rfl⟩
  | createNode =>
    rcases Heap.live_put.mp h with ⟨rfl, rfl⟩ | ⟨-, h⟩
    · exact .inr ⟨he.2, rfl⟩
    · exact .inl ⟨d, h, rfl⟩
  | createNodeSync =>
    rcases Heap.live_put.mp h with ⟨rfl, rfl⟩ | ⟨-, h⟩
    · exact .inr ⟨he.2, rfl⟩
    · exact .inl ⟨d, h, rfl⟩
  | deleteMissing hk => exact .inl ⟨d, h, rfl⟩
  | deletePooled hk hl => exact .inl ⟨d, (Heap.live_schedule.mp h).2, rfl⟩
  | readNode =>
    rcases live_of_readNode he h with h | ⟨hf, hd⟩
    · exact .inl ⟨d, h, rfl⟩
    · exact .inr ⟨hf, by rw [hd]; rfl⟩
  | readIgnored hset =>
    rcases live_of_readNode he h with h | ⟨hf, hd⟩
    · exact .inl ⟨d, h, rfl⟩
    · exact .inr ⟨hf, by rw [hd]; rfl⟩
  | @readAnswered path m i error value e p' hset hi hl ha =>
    rw [ha.nodes] at h
    -- the answer is stored in the node the reader has found or brought in
    obtain ⟨d₀, hl₀, htype⟩ : ∃ d₀, (p.readNode path m).2.nodes.Live n d₀ ∧ d.type = d₀.type := by
      rcases Heap.live_put.mp h with ⟨rfl, rfl⟩ | ⟨-, h⟩
      · exact ⟨e, hl, ZooKeeperNode.answered_type _ _ _⟩
      · exact ⟨d, h, rfl⟩
    rcases live_of_readNode he hl₀ with h | ⟨hf, hd⟩
    · exact .inl ⟨d₀, h, htype⟩
    · exact .inr ⟨hf, by rw [htype, hd]; rfl⟩
  | setExists hl =>
    rw [nodes_storeExists hl] at h
    exact .inl (hkept hl h rfl)
  | createUnnamed => exact .inl ⟨d, h, rfl⟩
  | createCompleted hne hk hl hd hc =>
    rw [hc.nodes] at h
    split at h
    · exact .inl (hkept hl h rfl)
    · exact .inl (hkept hl (Heap.live_schedule.mp h).2 rfl)
  | getUnpooled hset hk => exact .inl ⟨d, h, rfl⟩
  | getAnswered hk hl ha =>
    rw [ha.nodes] at h
    exact .inl (hkept hl h (ZooKeeperNode.answered_type _ _ _))
  | disconnected hd => exact .inl ⟨d, ((hd.live n d).mp h).1, rfl⟩

end Pool

end QtZooKeeper
