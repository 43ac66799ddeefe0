-- SUMMARY: The pool as one small machine per path: what an operation does to the cell of its path, and to nothing else.
import QtZooKeeper.Manager.PooledNodes

/-!
# Cells

As long as no node is renamed, an operation on the pool has to do with one path
only. `PoolOp.on` is what it does there, in terms of the cell of that path, without
a table and without a heap; `changed_of_apply` and `apply_of_on` say that the pool
is these cells side by side: an operation changes what belongs to its path as
`PoolOp.on` says and leaves everything else, and it faults exactly where that is
undefined.
-/

namespace QtZooKeeper

/-- What the pool has under one path: no entry, a null entry, or a live node. -/
inductive Cell where
  | missing
  | null
  | node (n : NodeId) (d : ZooKeeperNode)

/-- The entry of a cell. -/
def Cell.entry : Cell → Option NodePtr
  | missing => none
  | null => some none
  | node n _ => some (some n)

/-- What becomes of a cell, of an object, and the new signals. -/
structure Change where
  cell : Cell
  object : Option (NodeId × HeapObject ZooKeeperNode) := none
  signals : List NodeSignal := []

namespace Change

/-- The node `n` is in the pool and has the fields `d` now. -/
def store (n : NodeId) (d : ZooKeeperNode) (signals : List NodeSignal) : Change where
  cell := .node n d
  object := some (n, ⟨d, false⟩)
  signals := signals

/-- The node `n` leaves the pool and is scheduled for deletion. -/
def drop (n : NodeId) (d : ZooKeeperNode) : Change where
  cell := .missing
  object := some (n, ⟨d, true⟩)

/-- The objects after the change. -/
def write (ch : Change) (h : Heap NodeId ZooKeeperNode) : Heap NodeId ZooKeeperNode :=
  match ch.object with
  | none => h
  | some (n, o) => Function.update h n (some o)

variable {ch : Change} {h : Heap NodeId ZooKeeperNode} {n : NodeId} {o : HeapObject ZooKeeperNode}

theorem write_self (hobj : ch.object = some (n, o)) : ch.write h n = some o := by
  simp [write, hobj]

theorem write_other (hobj : ∀ o, ch.object ≠ some (n, o)) : ch.write h n = h n := by
  cases hm : ch.object with
  | none => simp [write, hm]
  | some z =>
    have hne : n ≠ z.1 := by
      rintro rfl
      exact hobj z.2 hm
    simp [write, hm, hne]

end Change

namespace PoolOp

/-- The operation has to do with the path `k` and no other: a created path is
reported as requested, and nothing is done to a node given by its address. -/
def At (k : QString) : PoolOp → Prop
  | keep => True
  | createNode _ path _ _ | deleteNode path | readNode path _ | readNodeSync path _ _ _
  | agetCompletion _ _ path => path = k
  | createNodeSync _ path _ newPath _ => path = k ∧ newPath = k
  | acreateCompletion _ name path => path = k ∧ Pool.reportedPath name path = k
  | setExists _ _ | processDisconnected => False

/-- The answer of a read arrives at the node `n`. -/
def answer (n : NodeId) (d : ZooKeeperNode) (error : ZooKeeperError) (value : QByteArray) :
    Change :=
  .store n (d.answered error value) (Pool.answerSignals n d error value)

/-- What an operation does to the cell of its path; `none` is a fault. -/
def on : PoolOp → Cell → Option Change
  | keep, c => some ⟨c, none, []⟩
  | createNode type path value n, _ =>
    some (.store n { path := path, value := value, type := some type } [])
  -- the new node has lost its entry
  | createNodeSync type path value _ n, _ =>
    let d := { exists_ := true, path := path, value := value, type := some type }
    some { cell := .missing, object := some (n, ⟨d, false⟩), signals := [.created n] }
  | deleteNode _, .missing => some ⟨.missing, none, []⟩
  | deleteNode _, .null => none
  | deleteNode _, .node n d => some (.drop n d)
  | readNode path n, .missing => some (.store n { path := path } [])
  | readNode _ _, .null => some ⟨.null, none, []⟩
  | readNode _ _, .node n d => some ⟨.node n d, none, []⟩
  | readNodeSync path n error value, .missing => some (answer n { path := path } error value)
  | readNodeSync _ _ _ _, .null => none
  | readNodeSync _ _ error value, .node n d => some (answer n d error value)
  | acreateCompletion error _ path, .node n d =>
    if path = "" then some ⟨.node n d, none, []⟩
    else if error.keepsNode then
      some (.store n { d with exists_ := true } (Pool.createSignals n d error))
    else some (.drop n d)
  | acreateCompletion _ _ path, .missing => if path = "" then some ⟨.missing, none, []⟩ else none
  | acreateCompletion _ _ path, .null => if path = "" then some ⟨.null, none, []⟩ else none
  | agetCompletion error value _, .node n d => some (answer n d error value)
  -- the index operator adds the entry
  | agetCompletion error _ _, _ => if error.settles then none else some ⟨.null, none, []⟩
  | setExists _ _, _ | processDisconnected, _ => none

/-- The address of the node an operation may create. -/
def newNode : PoolOp → Option NodeId
  | createNode _ _ _ n | createNodeSync _ _ _ _ n | readNode _ n | readNodeSync _ n _ _ => some n
  | _ => none

end PoolOp

namespace Pool

variable {p p' q : Pool} {j k path : QString} {n m : NodeId} {d : ZooKeeperNode} {op : PoolOp}
variable {ch : Change} {o : HeapObject ZooKeeperNode}

/-- The cell of a path. -/
def cell (p : Pool) (k : QString) : Cell :=
  match p.pooled k with
  | some (n, d) => .node n d
  | none => if p.contains k then .null else .missing

theorem cell_node (hk : p.lookup k = some (some n)) (hl : p.nodes.Live n d) :
    p.cell k = .node n d := by
  rw [cell, pooled_eq_some.mpr ⟨hk, hl⟩]

theorem cell_missing (hk : p.lookup k = none) : p.cell k = .missing := by
  have hc : p.contains k = false := Bool.not_eq_true _ ▸ not_contains_iff.mpr hk
  simp [cell, pooled, hk, hc]

theorem cell_null (hk : p.lookup k = some none) : p.cell k = .null := by
  have hc : p.contains k = true := contains_iff.mpr ⟨_, hk⟩
  simp [cell, pooled, hk, hc]

/-- The cells of a sound pool. -/
theorem Sound.cell_cases (hp : p.Sound) (k : QString) :
    (p.lookup k = none ∧ p.cell k = .missing) ∨ (p.lookup k = some none ∧ p.cell k = .null) ∨
      ∃ n d, p.lookup k = some (some n) ∧ p.nodes.Live n d ∧ d.path = k ∧ p.cell k = .node n d := by
  cases hk : p.lookup k with
  | none => exact .inl ⟨rfl, cell_missing hk⟩
  | some node =>
    cases node with
    | none => exact .inr (.inl ⟨rfl, cell_null hk⟩)
    | some n =>
      obtain ⟨d, hl, hd⟩ := hp k n hk
      exact .inr (.inr ⟨n, d, rfl, hl, hd, cell_node hk hl⟩)

theorem Sound.entry_cell (hp : p.Sound) : (p.cell k).entry = p.lookup k := by
  rcases hp.cell_cases k with ⟨hk, hc⟩ | ⟨hk, hc⟩ | ⟨n, d, hk, -, -, hc⟩
  · rw [hc, hk, Cell.entry]
  · rw [hc, hk, Cell.entry]
  · rw [hc, hk, Cell.entry]

/-! ## The change an operation makes -/

/-- Between `p` and `p'` what belongs to the path `k` has changed as `ch` says, and
nothing else. -/
structure Changed (p p' : Pool) (k : QString) (ch : Change) : Prop where
  lookup : ∀ j, p'.lookup j = if j = k then ch.cell.entry else p.lookup j
  nodes : p'.nodes = ch.write p.nodes
  signals : p'.signals = p.signals ++ ch.signals
  /-- The object is a node of this path, and was none of another path. -/
  object : ∀ n o, ch.object = some (n, o) →
    o.data.path = k ∧ ∀ o₀, p.nodes n = some o₀ → o₀.data.path = k
  announces : ∀ x ∈ ch.signals, ∃ o, ch.object = some (x.node, o)

/-- Nothing but the entry has changed, if anything. -/
theorem Changed.entry {c : Cell} (hlook : ∀ j, p'.lookup j = if j = k then c.entry else p.lookup j)
    (hnodes : p'.nodes = p.nodes) (hsignals : p'.signals = p.signals) :
    p.Changed p' k ⟨c, none, []⟩ where
  lookup := hlook
  nodes := hnodes
  signals := hsignals.trans (List.append_nil _).symm
  object := by
    intro n o h
    cases h
  announces := by
    intro x hx
    cases hx

theorem Changed.refl (hp : p.Sound) : p.Changed p k ⟨p.cell k, none, []⟩ := by
  refine .entry ?_ rfl rfl
  intro j
  split
  · next hj => rw [hj, hp.entry_cell]
  · rfl

/-- A node of the path is stored. -/
theorem Changed.store {new : List NodeSignal}
    (hlook : ∀ j, p'.lookup j = if j = k then some (some n) else p.lookup j)
    (hnodes : p'.nodes = p.nodes.put n d) (hsignals : p'.signals = p.signals ++ new)
    (hd : d.path = k) (hn : ∀ o, p.nodes n = some o → o.data.path = k)
    (hnew : ∀ x ∈ new, x.node = n) : p.Changed p' k (.store n d new) where
  lookup := hlook
  nodes := hnodes
  signals := hsignals
  object := by
    intro m o h
    cases h
    exact ⟨hd, hn⟩
  announces := by
    intro x hx
    rw [hnew x hx]
    exact ⟨_, rfl⟩

/-- A live node of the path leaves the pool. -/
theorem Changed.drop (hlook : ∀ j, p'.lookup j = if j = k then none else p.lookup j)
    (hnodes : p'.nodes = Function.update p.nodes n (some ⟨d, true⟩))
    (hsignals : p'.signals = p.signals) (hl : p.nodes n = some o) (ho : o.data.path = k)
    (hd : d.path = k) : p.Changed p' k (.drop n d) where
  lookup := hlook
  nodes := hnodes
  signals := hsignals.trans (List.append_nil _).symm
  object := by
    intro m o' h
    cases h
    refine ⟨hd, ?_⟩
    intro o₀ h₀
    rw [hl] at h₀
    cases h₀
    exact ho
  announces := by
    intro x hx
    cases hx

/-- The answer of a read arrives at a node of the path. -/
theorem Changed.answered {error : ZooKeeperError} {value : QByteArray}
    (hlook : ∀ j, q.lookup j = if j = k then some (some n) else p.lookup j)
    (hnodes : q.nodes.put n (d.answered error value) = p.nodes.put n (d.answered error value))
    (hsignals : q.signals = p.signals) (hd : d.path = k)
    (hn : ∀ o, p.nodes n = some o → o.data.path = k) (ha : q.Answered p' n d error value) :
    p.Changed p' k (PoolOp.answer n d error value) := by
  refine .store ?_ (ha.nodes.trans hnodes) (by rw [ha.signals, hsignals]) ?_ hn node_answerSignals
  · intro j
    rw [ha.lookup, hlook]
  · rw [ZooKeeperNode.answered_path, hd]

theorem lookup_self (hk : p.lookup k = some (some n)) (j : QString) :
    p.lookup j = if j = k then some (some n) else p.lookup j := by
  split
  · next hj => rw [hj, hk]
  · rfl

/-- A node that is not there yet is none of another path. -/
theorem path_of_fresh (hf : p.nodes.Fresh n) : ∀ o, p.nodes n = some o → o.data.path = k := by
  intro o ho
  cases ho.symm.trans hf

theorem path_of_live (hl : p.nodes.Live n d) (hd : d.path = k) :
    ∀ o, p.nodes n = some o → o.data.path = k := by
  intro o ho
  cases ho.symm.trans hl
  exact hd

/-- A new node comes under the path of the operation. -/
theorem Changed.pooled (hf : p.nodes.Fresh n) (hd : d.path = k) :
    p.Changed ((p.write n d).insert k (some n)) k (.store n d []) :=
  .store (fun _ => lookup_insert) rfl (List.append_nil _).symm hd (path_of_fresh hf) (by simp)

section Reads

variable {error : ZooKeeperError} {value : QByteArray}

theorem changed_of_readNode (hp : p.Sound) (hf : p.nodes.Fresh n) :
    ∃ ch, (PoolOp.readNode k n).on (p.cell k) = some ch ∧ p.Changed (p.readNode k n).2 k ch := by
  rcases p.readNode_cases k n with ⟨node, hk, hr⟩ | ⟨hk, hr⟩
  · rw [hr]
    have hrefl := Changed.refl (k := k) hp
    rcases hp.cell_cases k with ⟨hmissing, -⟩ | ⟨-, hc⟩ | ⟨m, d, -, -, -, hc⟩
    · cases hk.symm.trans hmissing
    · rw [hc] at hrefl ⊢
      exact ⟨_, rfl, hrefl⟩
    · rw [hc] at hrefl ⊢
      exact ⟨_, rfl, hrefl⟩
  · rw [hr, cell_missing hk]
    exact ⟨_, rfl, .pooled hf rfl⟩

theorem changed_of_readNodeSync (hp : p.Sound) (hf : p.nodes.Fresh n)
    (hs : (PoolOp.readNodeSync k n error value).apply p = .ok p') :
    ∃ ch, (PoolOp.readNodeSync k n error value).on (p.cell k) = some ch ∧ p.Changed p' k ch := by
  obtain ⟨r, hr, rfl⟩ := Except.map_eq_ok.mp hs
  obtain ⟨i, d, -, hi, hl, hanswer⟩ := readNodeSync_eq_ok hr
  have ha : (p.readNode k n).2.Answered r.2 i d error value := by
    cases hset : error.settles with
    | true => simpa [hset] using hanswer
    | false =>
      rw [hset] at hanswer
      rw [hanswer]
      exact .ignored value hset hl
  rcases p.readNode_cases k n with ⟨node, hk, hread⟩ | ⟨hk, hread⟩
  · rw [hread] at hi hl ha
    obtain rfl : node = some i := hi
    have hd : d.path = k := hp.path_eq hk hl
    rw [cell_node hk hl]
    exact ⟨_, rfl, .answered (lookup_self hk) rfl rfl hd (path_of_live hl hd) ha⟩
  · rw [hread] at hi hl ha
    obtain rfl : n = i := Option.some.inj hi
    obtain rfl : d = { path := k } := hl.unique Heap.live_put_self
    rw [cell_missing hk]
    have hlook : ∀ j, ((p.write n { path := k }).insert k (some n)).lookup j =
        if j = k then some (some n) else p.lookup j := fun _ => lookup_insert
    exact ⟨_, rfl, .answered hlook Heap.put_put rfl rfl (path_of_fresh hf) ha⟩

end Reads

/-- The completion of a create that was reported as requested. -/
theorem Completed.changed {error : ZooKeeperError} {name : Option QString} (hp : p.Sound)
    (hne : k ≠ "") (hk : p.lookup k = some (some n)) (hl : p.nodes.Live n d)
    (hc : p.Completed p' n d error k k) :
    ∃ ch, (PoolOp.acreateCompletion error name k).on (p.cell k) = some ch ∧ p.Changed p' k ch := by
  have hd : d.path = k := hp.path_eq hk hl
  rw [cell_node hk hl]
  cases hkeep : error.keepsNode with
  | true =>
    refine ⟨_, by simp only [PoolOp.on, if_neg hne, hkeep, if_true]; rfl, ?_⟩
    refine .store ?_ ?_ hc.signals hd (path_of_live hl hd) node_createSignals
    · intro j
      rw [hc.lookup, hkeep, if_pos rfl]
      split <;> rfl
    · rw [hc.nodes, hkeep, if_pos rfl, ← hd]
  | false =>
    refine ⟨.drop n d, by simp only [PoolOp.on, if_neg hne, hkeep]; rfl, ?_⟩
    refine .drop ?_ ?_ ?_ hl hd hd
    · intro j
      rw [hc.lookup, hkeep]
      split <;> rfl
    · have hsame : { d with path := k } = d := by rw [← hd]
      rw [hc.nodes, hkeep, hsame, Heap.put_of_live hl]
      exact Heap.schedule_of_live hl
    · rw [hc.signals, createSignals_of_not_keepsNode hkeep, List.append_nil]

/-- An operation that has to do with one path changes what belongs to it as the cell
machine says. -/
theorem changed_of_apply (hp : p.Sound) (he : op.Enabled p) (hk : op.At k)
    (hs : op.apply p = .ok p') : ∃ ch, op.on (p.cell k) = some ch ∧ p.Changed p' k ch := by
  cases hp.step hs with
  | keep => exact ⟨_, rfl, .refl hp⟩
  | createNode =>
    obtain rfl := hk
    exact ⟨_, rfl, .pooled he.2 rfl⟩
  | @createNodeSync type path value newPath n =>
    obtain ⟨rfl, rfl⟩ := hk
    refine ⟨_, rfl, ?_, rfl, rfl, ?_, ?_⟩
    · intro j
      rw [lookup_createNodeSync]
      split <;> rfl
    · intro m o h
      cases h
      exact ⟨rfl, path_of_fresh he.2⟩
    · intro x hx
      obtain rfl := List.mem_singleton.mp hx
      exact ⟨_, rfl⟩
  | @deleteMissing path hmissing =>
    obtain rfl := hk
    have hrefl := Changed.refl (k := path) hp
    rw [cell_missing hmissing] at hrefl ⊢
    exact ⟨_, rfl, hrefl⟩
  | deletePooled hlook hl =>
    obtain rfl := hk
    have hd := hp.path_eq hlook hl
    rw [cell_node hlook hl]
    refine ⟨_, rfl, .drop ?_ (Heap.schedule_of_live hl) rfl hl hd hd⟩
    intro j
    rw [lookup_remove, lookup_schedule]
  | readNode =>
    obtain rfl := hk
    exact changed_of_readNode hp he
  | readIgnored =>
    obtain rfl := hk
    exact changed_of_readNodeSync hp he hs
  | readAnswered =>
    obtain rfl := hk
    exact changed_of_readNodeSync hp he hs
  | @createUnnamed error name =>
    obtain ⟨rfl, -⟩ := hk
    have hon : ∀ c, (PoolOp.acreateCompletion error name "").on c = some ⟨c, none, []⟩ := by
      intro c
      cases c <;> rfl
    exact ⟨_, hon _, .refl hp⟩
  | createCompleted hne hlook hl hd hc =>
    obtain ⟨rfl, hreported⟩ := hk
    rw [hreported] at hc
    exact hc.changed hp hne hlook hl
  | @getUnpooled error value path hset hnode =>
    obtain rfl := hk
    refine ⟨⟨.null, none, []⟩, ?_, .entry ?_ nodes_indexed signals_indexed⟩
    · rcases hp.cell_cases path with ⟨-, hc⟩ | ⟨-, hc⟩ | ⟨m, d, hlook, -, -, -⟩
      · simp [hc, PoolOp.on, hset]
      · simp [hc, PoolOp.on, hset]
      · simp [hlook] at hnode
    · intro j
      rw [lookup_indexed, hnode]
      rfl
  | getAnswered hlook hl ha =>
    obtain rfl := hk
    have hd := hp.path_eq hlook hl
    rw [cell_node hlook hl]
    exact ⟨_, rfl, .answered (lookup_self hlook) rfl rfl hd (path_of_live hl hd) ha⟩
  | setExists => cases hk
  | disconnected => cases hk

/-- Where the cell machine has a step, the operation does not fault. -/
theorem apply_of_on (hp : p.Sound) (hk : op.At k) (hon : op.on (p.cell k) = some ch) :
    ∃ p', op.apply p = .ok p' := by
  cases op with
  | keep | createNode | createNodeSync | readNode => exact ⟨_, rfl⟩
  | deleteNode path =>
    obtain rfl := hk
    rcases hp.cell_cases path with ⟨hlook, -⟩ | ⟨-, hc⟩ | ⟨n, d, hlook, hl, -, -⟩
    · exact ⟨_, deleteNode_missing hlook⟩
    · rw [hc] at hon
      cases hon
    · exact ⟨_, deleteNode_pooled hlook hl⟩
  | readNodeSync path n error value =>
    obtain rfl := hk
    have hread : ∀ {i e}, (p.readNode path n).1 = some i → (p.readNode path n).2.nodes.Live i e →
        ∃ p', (PoolOp.readNodeSync path n error value).apply p = .ok p' := by
      intro i e hi hl
      obtain ⟨r, hr⟩ := readNodeSync_live error value hi hl
      exact ⟨r.2, Except.map_eq_ok.mpr ⟨r, hr, rfl⟩⟩
    rcases p.readNode_cases path n with ⟨node, hlook, hr⟩ | ⟨-, hr⟩
    · rcases hp.cell_cases path with ⟨hmissing, -⟩ | ⟨-, hc⟩ | ⟨i, d, hpooled, hl, -, -⟩
      · cases hlook.symm.trans hmissing
      · rw [hc] at hon
        cases hon
      · obtain rfl : node = some i := Option.some.inj (hlook.symm.trans hpooled)
        exact hread (by rw [hr]) (by rw [hr]; exact hl)
    · exact hread (by rw [hr]) (by rw [hr]; exact Heap.live_put_self)
  | acreateCompletion error name path =>
    obtain ⟨rfl, -⟩ := hk
    by_cases hne : path = ""
    · subst hne
      exact ⟨p, rfl⟩
    · rcases hp.cell_cases path with ⟨-, hc⟩ | ⟨-, hc⟩ | ⟨n, d, hlook, hl, hd, -⟩
      · simp [hc, PoolOp.on, hne] at hon
      · simp [hc, PoolOp.on, hne] at hon
      · obtain ⟨p', hp', -⟩ := acreateCompletion_pooled error name hne hlook hl hd
        exact ⟨p', hp'⟩
  | agetCompletion error value path =>
    obtain rfl := hk
    rcases hp.cell_cases path with ⟨-, hc⟩ | ⟨-, hc⟩ | ⟨n, d, hlook, hl, -, -⟩
    · obtain ⟨hset, -⟩ : error.settles = false ∧ ⟨.null, none, []⟩ = ch := by
        simpa [hc, PoolOp.on] using hon
      exact ⟨_, agetCompletion_of_not_settles hset⟩
    · obtain ⟨hset, -⟩ : error.settles = false ∧ ⟨.null, none, []⟩ = ch := by
        simpa [hc, PoolOp.on] using hon
      exact ⟨_, agetCompletion_of_not_settles hset⟩
    · obtain ⟨p', hp', -⟩ := agetCompletion_pooled error value hlook hl
      exact ⟨p', hp'⟩
  | setExists => cases hk
  | processDisconnected => cases hk

/-- A node an operation brings in is one of its path. -/
theorem Changed.path_of_new (hc : p.Changed p' k ch) (hf : p.nodes.Fresh n)
    (ho : p'.nodes n = some o) : o.data.path = k := by
  by_cases hobj : ∃ o, ch.object = some (n, o)
  · obtain ⟨o', hobj⟩ := hobj
    rw [hc.nodes, Change.write_self hobj] at ho
    cases ho
    exact (hc.object n _ hobj).1
  · rw [hc.nodes, Change.write_other (not_exists.mp hobj)] at ho
    cases hf.symm.trans ho

/-- An operation that finds no entry under its path uses the address it was given. -/
theorem used_of_missing (hp : p.Sound) (he : op.Enabled p) (hk : op.At k)
    (hs : op.apply p = .ok p') (hmissing : p.lookup k = none) (hn : op.newNode = some n) :
    ¬ p'.nodes.Fresh n := by
  obtain ⟨ch, hon, hc⟩ := changed_of_apply hp he hk hs
  rw [cell_missing hmissing] at hon
  have hobj : ∃ o, ch.object = some (n, o) := by
    cases op with
    | createNode | createNodeSync | readNode | readNodeSync =>
      cases hn
      cases hon
      exact ⟨_, rfl⟩
    | _ => cases hn
  obtain ⟨o, hobj⟩ := hobj
  rw [Heap.Fresh, hc.nodes, Change.write_self hobj]
  simp

/-! ## New nodes and signals -/

/-- Addresses come into use, and signals are emitted, on new nodes and old ones only. -/
structure Grown (op : PoolOp) (p p' : Pool) : Prop where
  nodes : ∀ n, ¬ p'.nodes.Fresh n → ¬ p.nodes.Fresh n ∨ op.newNode = some n
  signals : ∃ new, p'.signals = p.signals ++ new ∧ ∀ x ∈ new, ¬ p'.nodes.Fresh x.node

theorem Grown.silent (hs : p'.signals = p.signals)
    (hn : ∀ n, ¬ p'.nodes.Fresh n → ¬ p.nodes.Fresh n ∨ op.newNode = some n) : Grown op p p' :=
  ⟨hn, [], hs.trans (List.append_nil _).symm, by simp⟩

theorem used_of_put_live {e : ZooKeeperNode} (hl : p.nodes.Live n d)
    (h : ¬ (p.nodes.put n e).Fresh m) : ¬ p.nodes.Fresh m := by
  rw [Heap.fresh_put] at h
  intro hf
  exact h ⟨(hf.ne hl).symm, hf⟩

/-- An old node is written, with signals on it. -/
theorem Grown.put {new : List NodeSignal} (hl : p.nodes.Live n d) {e : ZooKeeperNode}
    (hn : p'.nodes = p.nodes.put n e) (hs : p'.signals = p.signals ++ new)
    (hnew : ∀ x ∈ new, x.node = n) : Grown op p p' where
  nodes := by
    intro m hm
    exact .inl (used_of_put_live hl (hn ▸ hm))
  signals := by
    refine ⟨new, hs, ?_⟩
    intro x hx
    rw [hnew x hx, hn]
    exact Heap.live_put_self.not_fresh

theorem used_of_put {e : ZooKeeperNode} (h : ¬ (p.nodes.put n e).Fresh m) :
    ¬ p.nodes.Fresh m ∨ some n = some m := by
  rw [Heap.fresh_put, not_and_or] at h
  exact h.symm.imp_right fun hm => congrArg some (not_not.mp hm).symm

theorem used_of_readNode (h : ¬ (p.readNode path n).2.nodes.Fresh m) :
    ¬ p.nodes.Fresh m ∨ some n = some m := by
  by_cases hm : m = n
  · exact .inr (congrArg some hm.symm)
  · rw [Heap.Fresh, nodes_readNode_of_ne hm] at h
    exact .inl h

theorem grown_of_apply (hp : p.Sound) (hs : op.apply p = .ok p') : Grown op p p' := by
  cases hp.step hs with
  | keep => exact .silent rfl fun n => .inl
  | createNode => exact .silent rfl fun m hm => used_of_put hm
  | @createNodeSync type path value newPath n =>
    refine ⟨fun m hm => used_of_put hm, [.created n], rfl, ?_⟩
    intro x hx
    obtain rfl := List.mem_singleton.mp hx
    exact live_createNodeSync.not_fresh
  | deleteMissing hk => exact .silent rfl fun n => .inl
  | deletePooled hk hl =>
    refine .silent rfl ?_
    intro m hm
    exact .inl fun hf => hm (Heap.fresh_schedule.mpr hf)
  | readNode => exact .silent signals_readNode fun m hm => used_of_readNode hm
  | readIgnored hset => exact .silent signals_readNode fun m hm => used_of_readNode hm
  | readAnswered hset hi hl ha =>
    refine ⟨?_, _, by rw [ha.signals, signals_readNode], ?_⟩
    · intro m hm
      rw [ha.nodes] at hm
      exact used_of_readNode (used_of_put_live hl hm)
    · intro x hx
      rw [node_answerSignals x hx, ha.nodes]
      exact Heap.live_put_self.not_fresh
  | setExists hl =>
    exact .put hl (nodes_storeExists hl) signals_storeExists (node_of_ite rfl)
  | createUnnamed => exact .silent rfl fun n => .inl
  | @createCompleted error name path n d p' hne hk hl hd hc =>
    refine ⟨?_, _, hc.signals, ?_⟩
    · intro m hm
      refine .inl fun hf => hm (hc.fresh_iff.mpr ⟨(hf.ne hl).symm, hf⟩)
    · intro x hx
      rw [node_createSignals x hx, hc.fresh_iff]
      exact fun h => h.1 rfl
  | getUnpooled hset hk => exact .silent rfl fun n => .inl
  | getAnswered hk hl ha => exact .put hl ha.nodes ha.signals node_answerSignals
  | disconnected hd => exact .silent hd.signals fun m hm => .inl fun hf => hm ((hd.fresh m).mpr hf)

/-- Every signal was emitted on an object there is. -/
def Signalled (p : Pool) : Prop := ∀ x ∈ p.signals, ¬ p.nodes.Fresh x.node

theorem Signalled.apply (h : p.Signalled) (hp : p.Sound) (hs : op.apply p = .ok p') :
    p'.Signalled := by
  intro x hx
  obtain ⟨new, hnew, hnode⟩ := (grown_of_apply hp hs).signals
  rw [hnew, List.mem_append] at hx
  rcases hx with hx | hx
  · exact fun hf => h x hx (fresh_of_apply hp hs hf)
  · exact hnode x hx

theorem signalled_init : ({} : Pool).Signalled := by
  intro x hx
  cases hx

theorem signalled_of_reachable (h : poolSystem.Reachable p) : p.Signalled :=
  (h.invariant (P := fun p => p.Sound ∧ p.Signalled) ⟨sound_init, signalled_init⟩
    fun _ _ _ hp he hs => ⟨hp.1.apply he hs, hp.2.apply hp.1 hs⟩).2

/-- There are finitely many objects. -/
theorem finite_of_reachable (h : poolSystem.Reachable p) :
    ∃ used : List NodeId, ∀ n, ¬ p.nodes.Fresh n → n ∈ used := by
  have hinit : ∃ used : List NodeId, ∀ n, ¬ ({} : Pool).nodes.Fresh n → n ∈ used :=
    ⟨[], fun n hn => absurd rfl hn⟩
  refine (h.invariant (P := fun p => p.Sound ∧ ∃ used : List NodeId, ∀ n, ¬ p.nodes.Fresh n →
    n ∈ used) ⟨sound_init, hinit⟩ ?_).2
  rintro p op p' ⟨hp, used, hused⟩ he hs
  refine ⟨hp.apply he hs, op.newNode.toList ++ used, ?_⟩
  intro n hn
  rcases (grown_of_apply hp hs).nodes n hn with hold | hnew
  · simp [hused n hold]
  · simp [hnew]

end Pool

/-! ## What there is of one path -/

/-- What there is of one path: its entry, the nodes that have this path, in the pool or
not, with their fields, and the signals on these nodes in their order. -/
structure PathView where
  entry : Option NodePtr
  objects : Heap NodeId ZooKeeperNode
  signals : List NodeSignal

/-- A change at the path. -/
def PathView.changed (v : PathView) (ch : Change) : PathView where
  entry := ch.cell.entry
  objects := ch.write v.objects
  signals := v.signals ++ ch.signals

namespace Pool

variable {p p' q : Pool} {j k : QString} {n : NodeId} {d : ZooKeeperNode} {op : PoolOp}
variable {ch : Change} {o : HeapObject ZooKeeperNode}

/-- The node objects with the path `k`. -/
def nodesOf (p : Pool) (k : QString) : Heap NodeId ZooKeeperNode :=
  fun n => (p.nodes n).filter fun o => o.data.path = k

def view (p : Pool) (k : QString) : PathView where
  entry := p.lookup k
  objects := p.nodesOf k
  signals := p.signals.filter fun x => (p.nodesOf k x.node).isSome

theorem nodesOf_eq_some : p.nodesOf k n = some o ↔ p.nodes n = some o ∧ o.data.path = k := by
  simp [nodesOf, Option.filter_eq_some_iff]

theorem nodesOf_eq_none : p.nodesOf k n = none ↔ ∀ o, p.nodes n = some o → o.data.path ≠ k := by
  simp [nodesOf, Option.filter_eq_none_iff]

/-- The nodes of the path after a change there. -/
theorem Changed.nodesOf (hc : p.Changed p' k ch) : p'.nodesOf k = ch.write (p.nodesOf k) := by
  funext m
  by_cases hobj : ∃ o, ch.object = some (m, o)
  · obtain ⟨o, hobj⟩ := hobj
    rw [Change.write_self hobj, nodesOf_eq_some, hc.nodes, Change.write_self hobj]
    exact ⟨rfl, (hc.object m o hobj).1⟩
  · rw [not_exists] at hobj
    rw [Change.write_other hobj]
    simp only [Pool.nodesOf, hc.nodes, Change.write_other hobj]

/-- A change at one path leaves the nodes of the others. -/
theorem Changed.nodesOf_other (hc : p.Changed p' k ch) (hj : j ≠ k) :
    p'.nodesOf j = p.nodesOf j := by
  funext m
  by_cases hobj : ∃ o, ch.object = some (m, o)
  · obtain ⟨o, hobj⟩ := hobj
    obtain ⟨ho, hold⟩ := hc.object m o hobj
    have hafter : p'.nodesOf j m = none := by
      rw [nodesOf_eq_none, hc.nodes, Change.write_self hobj]
      rintro o' ⟨⟩
      rw [ho]
      exact hj.symm
    have hbefore : p.nodesOf j m = none := by
      rw [nodesOf_eq_none]
      intro o₀ h₀
      rw [hold o₀ h₀]
      exact hj.symm
    rw [hafter, hbefore]
  · rw [not_exists] at hobj
    simp only [Pool.nodesOf, hc.nodes, Change.write_other hobj]

theorem Changed.view (hs : p.Signalled) (hc : p.Changed p' k ch) :
    p'.view k = (p.view k).changed ch := by
  have hentry : p'.lookup k = ch.cell.entry := by rw [hc.lookup, if_pos rfl]
  have hnew : ch.signals.filter (fun x => (p'.nodesOf k x.node).isSome) = ch.signals := by
    rw [List.filter_eq_self]
    intro x hx
    obtain ⟨o, hobj⟩ := hc.announces x hx
    rw [hc.nodesOf, Change.write_self hobj]
    rfl
  have hold : p.signals.filter (fun x => (p'.nodesOf k x.node).isSome) =
      p.signals.filter fun x => (p.nodesOf k x.node).isSome := by
    refine List.filter_congr ?_
    intro x hx
    rw [hc.nodesOf]
    by_cases hobj : ∃ o, ch.object = some (x.node, o)
    · obtain ⟨o, hobj⟩ := hobj
      -- the object was there, as a node of this path
      obtain ⟨o₀, h₀⟩ := Option.ne_none_iff_exists'.mp (hs x hx)
      rw [Change.write_self hobj, nodesOf_eq_some.mpr ⟨h₀, (hc.object _ o hobj).2 o₀ h₀⟩]
      rfl
    · rw [Change.write_other (not_exists.mp hobj)]
  rw [Pool.view, PathView.changed, hentry, hc.signals, List.filter_append, hnew, hold, hc.nodesOf]
  rfl

/-- A change at one path leaves what there is of the others. -/
theorem Changed.view_other (hc : p.Changed p' k ch) (hj : j ≠ k) : p'.view j = p.view j := by
  have hentry : p'.lookup j = p.lookup j := by rw [hc.lookup, if_neg hj]
  have hnew : ch.signals.filter (fun x => (p.nodesOf j x.node).isSome) = [] := by
    rw [List.filter_eq_nil_iff]
    intro x hx
    obtain ⟨o, hobj⟩ := hc.announces x hx
    have hnone : p.nodesOf j x.node = none := by
      rw [nodesOf_eq_none]
      intro o₀ h₀
      rw [(hc.object _ o hobj).2 o₀ h₀]
      exact hj.symm
    simp [hnone]
  simp only [Pool.view, hentry, hc.nodesOf_other hj, hc.signals, List.filter_append, hnew,
    List.append_nil]

/-- The cell of a path is part of what there is of it. -/
theorem cell_eq_of_view (hp : p.Sound) (hv : p.view k = q.view k) : p.cell k = q.cell k := by
  have hlook : p.lookup k = q.lookup k := congrArg PathView.entry hv
  have hnodes : p.nodesOf k = q.nodesOf k := congrArg PathView.objects hv
  rcases hp.cell_cases k with ⟨hk, hc⟩ | ⟨hk, hc⟩ | ⟨n, d, hk, hl, hd, hc⟩
  · rw [hc, cell_missing (hlook ▸ hk)]
  · rw [hc, cell_null (hlook ▸ hk)]
  · have hq : q.nodesOf k n = some ⟨d, false⟩ := hnodes ▸ nodesOf_eq_some.mpr ⟨hl, hd⟩
    rw [hc, cell_node (hlook ▸ hk) (nodesOf_eq_some.mp hq).1]

/-- An operation at one path does the same there in pools that have the same of it. -/
theorem view_apply (hp : p.Sound) (hq : q.Sound) (hsp : p.Signalled) (hsq : q.Signalled)
    (he : op.Enabled p) (he' : op.Enabled q) (hk : op.At k) (hv : p.view k = q.view k)
    (hs : op.apply p = .ok p') : ∃ q', op.apply q = .ok q' ∧ p'.view k = q'.view k := by
  obtain ⟨ch, hon, hc⟩ := changed_of_apply hp he hk hs
  have hcell := cell_eq_of_view hp hv
  obtain ⟨q', hs'⟩ := apply_of_on hq hk (hcell ▸ hon)
  obtain ⟨ch', hon', hc'⟩ := changed_of_apply hq he' hk hs'
  rw [← hcell, hon] at hon'
  cases hon'
  exact ⟨q', hs', by rw [hc.view hsp, hc'.view hsq, hv]⟩

/-- It leaves what there is of the other paths. -/
theorem view_apply_other (hp : p.Sound) (he : op.Enabled p) (hk : op.At k)
    (hs : op.apply p = .ok p') (hj : j ≠ k) : p'.view j = p.view j := by
  obtain ⟨ch, -, hc⟩ := changed_of_apply hp he hk hs
  exact hc.view_other hj

end Pool

end QtZooKeeper
