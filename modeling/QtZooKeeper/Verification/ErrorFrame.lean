-- SUMMARY: When a refused or failed operation leaves the node pool as if the call had not been made.
import QtZooKeeper.Base.Components
import QtZooKeeper.Manager.Cells
import QtZooKeeper.Manager.Steps

/-!
# Failed operations

An operation can fail at once, when the client refuses the request or answers a
synchronous call with an error, or later, through its completion. Either way the
pool should be as if the call had not been made.

For a call that fails later two runs are compared that have the same steps after the
call: one with the call and its failed completion, one without them. For a create
they differ in one pooled node from the call to the completion, as long as no step
has to do with the entry of its path; after that the completion may take the entry
of another node away.
-/

namespace QtZooKeeper

open FallibleSystem

variable {s s' s₁ t t' u u' : Manager} {c : Call} {r : Request} {l : Label} {ls : List Label}
variable {p p' q q' : Pool} {j k path : QString} {i m n : NodeId} {d : ZooKeeperNode}
variable {error : ZooKeeperError} {op : PoolOp} {ch : Change}

/-! ## Pools that agree -/

namespace Pool

/-- The same keys, and the same pooled nodes with the same fields. -/
structure Same (p q : Pool) : Prop where
  lookup : ∀ k, q.lookup k = p.lookup k
  pooled : ∀ k, q.pooled k = p.pooled k

theorem Same.of_eq (h : q = p) : p.Same q := h ▸ ⟨fun _ => rfl, fun _ => rfl⟩

theorem same_deleteNode_iff (h : p.deleteNode path = .ok p') :
    p.Same p' ↔ p.contains path = false := by
  rw [← Bool.not_eq_true, not_contains_iff]
  rcases deleteNode_eq_ok h with ⟨hk, rfl⟩ | ⟨n, d, hk, -, rfl⟩
  · exact iff_of_true (.of_eq rfl) hk
  · refine iff_of_false ?_ (by simp [hk])
    intro hs
    have hentry := hs.lookup path
    rw [lookup_remove, if_pos rfl, hk] at hentry
    cases hentry

theorem same_readNode_iff : p.Same (p.readNode path n).2 ↔ p.contains path = true := by
  rcases p.readNode_cases path n with ⟨node, hk, hr⟩ | ⟨hk, hr⟩
  · exact iff_of_true (.of_eq (by rw [hr])) (contains_iff.mpr ⟨node, hk⟩)
  · refine iff_of_false ?_ (not_contains_iff.mpr hk)
    intro hs
    have hentry := hs.lookup path
    rw [hr, lookup_insert, if_pos rfl, hk] at hentry
    cases hentry

theorem readNode_of_contains (hc : p.contains path = true) : (p.readNode path n).2 = p := by
  rcases p.readNode_cases path n with ⟨node, -, hr⟩ | ⟨hk, -⟩
  · rw [hr]
  · exact absurd hc (not_contains_iff.mpr hk)

theorem indexed_of_contains (hc : p.contains path = true) : p.indexed path = p := by
  obtain ⟨node, hk⟩ := contains_iff.mp hc
  rw [indexed, index_eq hk]

/-! ## A pool with one node more -/

/-- The pool `p` has what `q` has, and under the path `k` the node `n`. -/
structure Extends (p q : Pool) (k : QString) (n : NodeId) : Prop where
  entry : p.lookup k = some (some n)
  missing : q.lookup k = none
  lookup : ∀ j, j ≠ k → p.lookup j = q.lookup j
  nodes : ∀ m, m ≠ n → p.nodes m = q.nodes m
  unused : q.nodes.Fresh n

/-- A new node under a path without an entry. -/
theorem Extends.new (hk : q.lookup k = none) (hf : q.nodes.Fresh n) :
    ((q.write n d).insert k (some n)).Extends q k n where
  entry := by simp
  missing := hk
  lookup j hj := by simp [hj]
  nodes m hm := Heap.put_of_ne hm
  unused := hf

/-- Under the other paths the pools show the same. -/
theorem Extends.pooled (h : p.Extends q k n) (hp : p.Sound) (hj : j ≠ k) : p.pooled j = q.pooled j := by
  have hlook := h.lookup j hj
  simp only [Pool.pooled, hlook]
  cases hnode : (q.lookup j).join with
  | none => rfl
  | some m =>
    rw [Option.join_eq_some_iff, ← hlook] at hnode
    have hmn : m ≠ n := by
      rintro rfl
      exact hj (hp.injective hnode h.entry)
    simp only [h.nodes m hmn]

theorem Extends.contains (h : p.Extends q k n) (hj : j ≠ k) : p.contains j = q.contains j := by
  rw [Bool.eq_iff_iff, contains_iff, contains_iff, h.lookup j hj]

theorem Extends.cell (h : p.Extends q k n) (hp : p.Sound) (hj : j ≠ k) : p.cell j = q.cell j := by
  simp only [Pool.cell, h.pooled hp hj, h.contains hj]

/-- The same object is written in both. -/
theorem Extends.nodes_update (h : p.Extends q k n) (o : Option (HeapObject ZooKeeperNode))
    (hm : m ≠ n) : Function.update p.nodes i o m = Function.update q.nodes i o m := by
  simp only [Function.update_apply, h.nodes m hm]

/-- Another path changes alike in both. -/
theorem Extends.changed (h : p.Extends q k n) (hp : p.Sound) (hj : j ≠ k)
    (hc : p.Changed p' j ch) (hc' : q.Changed q' j ch) : p'.Extends q' k n := by
  obtain ⟨e, hl, hpath⟩ := hp k n h.entry
  -- the new node has another path, so the change is none of it
  have hother : ∀ o, ch.object ≠ some (n, o) := by
    intro o ho
    have hnode := (hc.object n o ho).2 ⟨e, false⟩ hl
    exact hj (hnode.symm.trans hpath)
  refine ⟨?_, ?_, ?_, ?_, ?_⟩
  · rw [hc.lookup, if_neg (Ne.symm hj), h.entry]
  · rw [hc'.lookup, if_neg (Ne.symm hj), h.missing]
  · intro i hi
    rw [hc.lookup, hc'.lookup, h.lookup i hi]
  · intro m hm
    rw [hc.nodes, hc'.nodes]
    unfold Change.write
    cases ch.object with
    | none => exact h.nodes m hm
    | some z => exact h.nodes_update _ hm
  · rw [Heap.Fresh, hc'.nodes, Change.write_other hother]
    exact h.unused

end Pool

/-- The operation has nothing to do with the entry of the path `k`. -/
def PoolOp.Leaves (k : QString) : PoolOp → Prop
  | keep | setExists _ _ => True
  | createNode _ path _ _ | deleteNode path | readNode path _ | readNodeSync path _ _ _
  | agetCompletion _ _ path => path ≠ k
  | createNodeSync _ path _ newPath _ => path ≠ k ∧ newPath ≠ k
  | acreateCompletion _ name path => path ≠ "" → path ≠ k ∧ Pool.reportedPath name path ≠ k
  | processDisconnected => False

namespace Pool

/-- A completed create of another path is completed alike in both. -/
theorem Extends.completed {name : Option QString} (h : p.Extends q k n) (hp : p.Sound) (hq : q.Sound)
    (hl : (PoolOp.acreateCompletion error name path).Leaves k)
    (hs : (PoolOp.acreateCompletion error name path).apply p = .ok p')
    (hs' : (PoolOp.acreateCompletion error name path).apply q = .ok q') : p'.Extends q' k n := by
  rcases completed_of_acreateCompletion hp hs with ⟨rfl, rfl⟩ | ⟨hne, i, d, hi, hc⟩
  · obtain rfl := Except.pure_eq_ok.mp hs'
    exact h
  · obtain ⟨hpath, hreported⟩ := hl hne
    obtain ⟨i', d', hi', hc'⟩ := ((completed_of_acreateCompletion hq hs').resolve_left
      fun hempty => hne hempty.1).2
    cases (h.pooled hp hpath).symm.trans hi |>.symm.trans hi'
    have hni : n ≠ i := by
      rintro rfl
      exact hpath (hp.injective (pooled_eq_some.mp hi).1 h.entry)
    refine ⟨?_, ?_, ?_, ?_, ?_⟩
    · rw [hc.lookup, if_neg (Ne.symm hreported), if_neg (Ne.symm hpath), h.entry]
    · rw [hc'.lookup, if_neg (Ne.symm hreported), if_neg (Ne.symm hpath), h.missing]
    · intro j hj
      rw [hc.lookup, hc'.lookup, h.lookup j hj]
    · intro m hm
      by_cases hmi : m = i
      · subst hmi
        rw [hc.nodes, hc'.nodes]
        split
        · rw [Heap.put_self, Heap.put_self]
        · rw [Heap.schedule_self, Heap.schedule_self, Heap.put_self, Heap.put_self]
      · rw [hc.nodes_of_ne hmi, hc'.nodes_of_ne hmi]
        exact h.nodes m hm
    · rw [Heap.Fresh, hc'.nodes_of_ne hni]
      exact h.unused

/-- An operation that leaves the entry alone does the same in both pools. -/
theorem Extends.step (h : p.Extends q k n) (hp : p.Sound) (hq : q.Sound) (he : op.Enabled p)
    (he' : op.Enabled q) (hl : op.Leaves k) (hs : op.apply p = .ok p') (hs' : op.apply q = .ok q') :
    p'.Extends q' k n := by
  have hcell : ∀ {j}, op.At j → j ≠ k → p'.Extends q' k n := by
    intro j hat hj
    obtain ⟨ch, hon, hc⟩ := changed_of_apply hp he hat hs
    obtain ⟨ch', hon', hc'⟩ := changed_of_apply hq he' hat hs'
    rw [h.cell hp hj, hon'] at hon
    cases hon
    exact h.changed hp hj hc hc'
  cases op with
  | keep =>
    obtain rfl := Except.pure_eq_ok.mp hs
    obtain rfl := Except.pure_eq_ok.mp hs'
    exact h
  | createNode type path value m => exact hcell rfl hl
  | deleteNode path => exact hcell rfl hl
  | readNode path m => exact hcell rfl hl
  | readNodeSync path m error value => exact hcell rfl hl
  | agetCompletion error value path => exact hcell rfl hl
  | acreateCompletion error name path => exact h.completed hp hq hl hs hs'
  | createNodeSync type path value newPath m =>
    obtain ⟨hpath, hnew⟩ := hl
    obtain rfl := Except.pure_eq_ok.mp hs
    obtain rfl := Except.pure_eq_ok.mp hs'
    have hmn : n ≠ m := hp.fresh_ne he.2 h.entry
    refine ⟨?_, ?_, ?_, fun i hi => h.nodes_update _ hi, ?_⟩
    · rw [lookup_createNodeSync, if_neg (Ne.symm hpath), if_neg (Ne.symm hnew), h.entry]
    · rw [lookup_createNodeSync, if_neg (Ne.symm hpath), if_neg (Ne.symm hnew), h.missing]
    · intro j hj
      rw [lookup_createNodeSync, lookup_createNodeSync, h.lookup j hj]
    · exact Heap.fresh_put.mpr ⟨hmn, h.unused⟩
  | setExists node b =>
    obtain ⟨m, d, rfl, hm, rfl⟩ := setExists_eq_ok.mp hs
    obtain ⟨m', d', heq, hm', rfl⟩ := setExists_eq_ok.mp hs'
    cases heq
    have hmn : m ≠ n := h.unused.ne hm'
    obtain rfl : d = d' := by
      have hlive : q.nodes.Live m d := (h.nodes m hmn).symm.trans hm
      exact hlive.unique hm'
    refine ⟨?_, ?_, ?_, ?_, ?_⟩
    · rw [lookup_storeExists, h.entry]
    · rw [lookup_storeExists, h.missing]
    · intro j hj
      rw [lookup_storeExists, lookup_storeExists, h.lookup j hj]
    · intro i hi
      rw [nodes_storeExists hm, nodes_storeExists hm']
      exact h.nodes_update _ hi
    · rw [nodes_storeExists hm']
      exact Heap.fresh_put.mpr ⟨hmn.symm, h.unused⟩
  | processDisconnected => cases hl

/-- A create that fails takes the node away again. -/
theorem Extends.removed {name : Option QString} (h : p.Extends q path n) (hp : p.Sound)
    (hne : path ≠ "") (hname : reportedPath name path = path) (hkeep : error.keepsNode = false)
    (hs : (PoolOp.acreateCompletion error name path).apply p = .ok p') : q.Same p' := by
  obtain ⟨i, d, hi, hc⟩ := ((completed_of_acreateCompletion hp hs).resolve_left
    fun hempty => hne hempty.1).2
  rw [hname] at hc
  obtain ⟨hlook, hl⟩ := pooled_eq_some.mp hi
  cases hlook.symm.trans h.entry
  have hlookup : ∀ j, p'.lookup j = q.lookup j := by
    intro j
    rw [hc.lookup, hkeep]
    by_cases hj : j = path
    · subst hj
      rw [if_pos rfl, h.missing]
      rfl
    · rw [if_neg hj, if_neg hj, h.lookup j hj]
  refine ⟨hlookup, ?_⟩
  intro j
  by_cases hj : j = path
  · subst hj
    simp only [Pool.pooled, hlookup, h.missing]
    rfl
  · simp only [Pool.pooled, hlookup]
    cases hnode : (q.lookup j).join with
    | none => rfl
    | some m =>
      rw [Option.join_eq_some_iff, ← h.lookup j hj] at hnode
      have hmn : m ≠ n := by
        rintro rfl
        exact hj (hp.injective hnode h.entry)
      simp only [hc.nodes_of_ne hmn, h.nodes m hmn]

/-- The entry of a path an operation leaves alone stays as it is. -/
theorem lookup_of_leaves (hp : p.Sound) (hl : op.Leaves k) (hs : op.apply p = .ok p') :
    p'.lookup k = p.lookup k := by
  cases hp.step hs with
  | keep => rfl
  | createNode => exact lookup_insert.trans (if_neg (Ne.symm hl))
  | createNodeSync =>
    rw [lookup_createNodeSync, if_neg (Ne.symm hl.1), if_neg (Ne.symm hl.2)]
  | deleteMissing => rfl
  | deletePooled => exact lookup_remove.trans (if_neg (Ne.symm hl))
  | readNode => exact lookup_readNode_of_ne (Ne.symm hl)
  | readIgnored => exact lookup_readNode_of_ne (Ne.symm hl)
  | readAnswered hset hi hlive ha =>
    rw [ha.lookup]
    exact lookup_readNode_of_ne (Ne.symm hl)
  | setExists => exact lookup_storeExists
  | createUnnamed => rfl
  | createCompleted hne hk hlive hd hc =>
    obtain ⟨hpath, hreported⟩ := hl hne
    rw [hc.lookup, if_neg (Ne.symm hreported), if_neg (Ne.symm hpath)]
  | getUnpooled =>
    rw [lookup_indexed, if_neg (Ne.symm hl)]
  | getAnswered hk hlive ha => exact ha.lookup k
  | disconnected => cases hl

end Pool

/-! ## The steps between a call and its completion -/

/-- The step has nothing to do with the entry of the path `k` in the pool. -/
def Label.Leaves (k : QString) : Label → Prop
  | call (.createNode a _ _ _) => a.path ≠ k
  | call (.createNodeSync a _ newPath _) => a.path ≠ k ∧ newPath ≠ k
  | call (.deleteNode path _ _) | call (.deleteNodeSync path _) | call (.getNodeValue path _ _ _ _ _)
  | call (.getNodeValueSync path _ _ _) | call (.wgetNodeValue path _ _ _ _) => path ≠ k
  | deliver r (.create _ name) => r.path ≠ "" → r.path ≠ k ∧ Pool.reportedPath name r.path ≠ k
  | deliver r (.get _ _) => r.path ≠ k
  | watcher _ type state _ _ => disconnects type (.ofInt state) = false
  | _ => True

theorem Label.Leaves.poolOp (h : l.Leaves k) : (l.poolOp s).Leaves k := by
  cases l with
  | call c =>
    cases c with
    | createNode a ret ctx n =>
      rcases Call.poolOp_createNode s a ret ctx n with hop | ⟨-, -, hop⟩
      · rw [Label.poolOp, hop]
        trivial
      · rw [Label.poolOp, hop]
        exact h
    | createNodeSync a ret newPath n =>
      rcases Call.poolOp_createNodeSync s a ret newPath n with hop | ⟨-, -, hop⟩
      · rw [Label.poolOp, hop]
        trivial
      · rw [Label.poolOp, hop]
        exact h
    | deleteNode path ret ctx => exact h
    | deleteNodeSync path ret => exact h
    | getNodeValue path callback wantsError ret ctx n => exact h
    | getNodeValueSync path wantsError r n => exact h
    | wgetNodeValue path callback r ctx n => exact h
    | _ => trivial
  | deliver r c =>
    cases c with
    | create rc name => exact h
    | get rc value => exact h
    | _ => trivial
  | watcher zzh type state path client =>
    have hquiet : disconnects type (.ofInt state) = false := h
    simp only [Label.poolOp, hquiet]
    trivial
  | _ => trivial

/-- The operation of a step depends on what is in the pool only. -/
theorem poolOp_congr (h : s.pool = u.pool) : l.poolOp s = l.poolOp u := by
  cases l with
  | call c =>
    cases c with
    | createNode a ret ctx n => simp only [Label.poolOp, Call.poolOp, h]
    | createNodeSync a ret newPath n => simp only [Label.poolOp, Call.poolOp, h]
    | _ => rfl
  | deliver r c => cases c <;> rfl
  | _ => rfl

theorem Label.Leaves.poolOp_eq (h : l.Leaves k) (hx : s.pool.Extends u.pool k n) :
    l.poolOp s = l.poolOp u := by
  cases l with
  | call c =>
    cases c with
    | createNode a ret ctx n => simp only [Label.poolOp, Call.poolOp, hx.contains h]
    | createNodeSync a ret newPath n => simp only [Label.poolOp, Call.poolOp, hx.contains h.1]
    | _ => rfl
  | deliver r c => cases c <;> rfl
  | _ => rfl

/-- The same steps from equal pools lead to equal pools. -/
theorem pool_eq_of_leads (hrun : system.Leads s ls t) (hrun' : system.Leads s' ls u)
    (h : s.pool = s'.pool) : t.pool = u.pool := by
  induction hrun generalizing u with
  | nil =>
    rw [leads_nil.mp hrun']
    exact h
  | snoc hrun he hs ih =>
    obtain ⟨u₀, hrun₀, -, hs'⟩ := leads_snoc.mp hrun'
    have hpool := ih hrun₀
    have hstep := step_pool hs
    rw [poolOp_congr hpool, hpool, step_pool hs'] at hstep
    exact (Except.ok.inj hstep).symm

/-- A node more at the start is a node more at the end, if the steps have nothing to do
with its entry. -/
theorem extends_of_leads (hs₁ : system.Reachable s₁) (hs : system.Reachable s)
    (hrun : system.Leads s₁ ls t) (hrun' : system.Leads s ls u) (h : s₁.pool.Extends s.pool k n)
    (hl : ∀ l ∈ ls, l.Leaves k) : t.pool.Extends u.pool k n := by
  induction hrun generalizing u with
  | nil =>
    rw [leads_nil.mp hrun']
    exact h
  | snoc hrun he hstep ih =>
    obtain ⟨u₀, hrun₀, he', hstep'⟩ := leads_snoc.mp hrun'
    rw [List.forall_mem_append] at hl
    have hx := ih hrun₀ hl.1
    have hlast := hl.2 _ (List.mem_singleton_self _)
    have hop := hlast.poolOp_eq hx
    have hpool := step_pool hstep
    have henabled := enabled_pool he
    rw [hop] at hpool henabled
    exact hx.step (sound_of_reachable (hs₁.leads hrun)) (sound_of_reachable (hs.leads hrun₀))
      henabled (enabled_pool he') hlast.poolOp hpool (step_pool hstep')

theorem lookup_of_leads (hs : system.Reachable s) (hrun : system.Leads s ls t)
    (hl : ∀ l ∈ ls, l.Leaves k) : t.pool.lookup k = s.pool.lookup k := by
  induction hrun with
  | nil => rfl
  | snoc hrun he hstep ih =>
    rw [List.forall_mem_append] at hl
    rw [← ih hl.1]
    exact Pool.lookup_of_leaves (sound_of_reachable (hs.leads hrun))
      (hl.2 _ (List.mem_singleton_self _)).poolOp (step_pool hstep)

/-! ## Failed calls -/

/-- The client refuses the request, or answers the synchronous call with an
error; for a read, with another one than `NoNode`. -/
def Call.fails : Call → Bool
  | createNode _ ret _ _ | createNodeSync _ ret _ _ | deleteNode _ ret _ | deleteNodeSync _ ret
  | setNodeValue _ _ ret _ | setNodeValueSync _ _ ret | getNodeValue _ _ _ ret _ _ => ret ≠ 0
  | getNodeValueSync _ _ r _ | wgetNodeValue _ _ r _ _ => !r.error.settles
  | _ => false

/-- The completion reports an error; for a read, another one than `NoNode`. -/
def Manager.Completion.fails : Manager.Completion → Bool
  | create rc _ | delete rc | set rc => rc ≠ 0
  | get rc _ => !(ZooKeeperError.ofInt rc).settles
  | _ => false

/-- A delete finds its path not pooled, a read finds it pooled. -/
def Call.spares (s : Manager) : Call → Bool
  | deleteNode path _ _ | deleteNodeSync path _ => !s.pool.contains path
  | getNodeValue path _ _ _ _ _ | getNodeValueSync path _ _ _ | wgetNodeValue path _ _ _ _ =>
    s.pool.contains path
  | _ => true

/-- The same for a call in `s` that fails through the completion `a` in `t`, after the
steps `ls`: a read finds its path pooled both times, and a create of a path that is
not empty is answered with another error than `NodeExists`, after steps that have
nothing to do with its entry. -/
def Call.sparesLater (s t : Manager) (ls : List Label) (a : Manager.Completion) : Call → Prop
  | createNode c _ _ _ =>
    c.path ≠ "" ∧ ZooKeeperError.ofInt a.rc ≠ .nodeExists ∧ ∀ l ∈ ls, l.Leaves c.path
  | deleteNode path _ _ => s.pool.contains path = false
  | getNodeValue path _ _ _ _ _ => s.pool.contains path = true ∧ t.pool.contains path = true
  | _ => True

/-- A call that fails at once leaves the pool as it was exactly if it is a delete
of a path that is not pooled, a read of one that is, or neither. -/
theorem failed_call_iff (hstep : system.step (.call c) s = .ok s₁) (hf : c.fails = true) :
    s.pool.Same s₁.pool ↔ c.spares s = true := by
  have hpool : (c.poolOp s).apply s.pool = .ok s₁.pool := step_pool (l := .call c) hstep
  cases c with
  | createNode a ret ctx n =>
    have hret : ¬ ZooKeeperError.ofInt ret = .noError := by simpa [Call.fails] using hf
    simp only [Call.poolOp, hret, if_false, ite_self, PoolOp.apply, Except.pure_eq_ok] at hpool
    exact iff_of_true (.of_eq hpool.symm) rfl
  | createNodeSync a ret newPath n =>
    have hret : ¬ ZooKeeperError.ofInt ret = .noError := by simpa [Call.fails] using hf
    simp only [Call.poolOp, hret, if_false, ite_self, PoolOp.apply, Except.pure_eq_ok] at hpool
    exact iff_of_true (.of_eq hpool.symm) rfl
  | deleteNode path ret ctx =>
    rw [Pool.same_deleteNode_iff hpool]
    simp [Call.spares]
  | deleteNodeSync path ret =>
    rw [Pool.same_deleteNode_iff hpool]
    simp [Call.spares]
  | setNodeValue path value ret ctx =>
    exact iff_of_true (.of_eq (Except.pure_eq_ok.mp hpool).symm) rfl
  | setNodeValueSync path value ret =>
    exact iff_of_true (.of_eq (Except.pure_eq_ok.mp hpool).symm) rfl
  | getNodeValue path callback wantsError ret ctx n =>
    rw [← Except.pure_eq_ok.mp hpool]
    exact Pool.same_readNode_iff
  | getNodeValueSync path wantsError r n =>
    have hs : r.error.settles = false := by simpa [Call.fails] using hf
    rw [Pool.readNodeSync_pool hs hpool]
    exact Pool.same_readNode_iff
  | wgetNodeValue path callback r ctx n =>
    have hs : r.error.settles = false := by simpa [Call.fails] using hf
    rw [Pool.readNodeSync_pool hs hpool]
    exact Pool.same_readNode_iff
  | _ => cases hf

/-! ### Calls that fail later -/

/-- A call from `s` to `s₁` whose request `r` fails through the completion `a` in `t`,
after the steps `ls`, which lead from `s` to `u`. -/
structure FailsLater (c : Call) (r : Request) (ls : List Label) (a : Manager.Completion)
    (s s₁ t t' u : Manager) : Prop where
  reachable : system.Reachable s
  enabled : system.enabled (.call c) s
  call : system.step (.call c) s = .ok s₁
  accepted : c.accepted s = some r
  run : system.Leads s₁ ls t
  completes : system.enabled (.deliver r a) t
  fails : a.fails = true
  completion : system.step (.deliver r a) t = .ok t'
  without : system.Leads s ls u

namespace FailsLater

variable {a : Manager.Completion} {c : Call}

theorem sound (h : FailsLater c r ls a s s₁ t t' u) : t.pool.Sound :=
  sound_of_reachable ((h.reachable.step h.enabled h.call).leads h.run)

theorem call_pool (h : FailsLater c r ls a s s₁ t t' u) : (c.poolOp s).apply s.pool = .ok s₁.pool :=
  step_pool (l := .call c) h.call

theorem completion_pool (h : FailsLater c r ls a s s₁ t t' u) :
    ((Label.deliver r a).poolOp t).apply t.pool = .ok t'.pool :=
  step_pool (l := .deliver r a) h.completion

/-- What the steps in between leave alone is as the call left it, and without the call
as it was. -/
theorem lookup (h : FailsLater c r ls a s s₁ t t' u) (hl : ∀ l ∈ ls, l.Leaves k) :
    t.pool.lookup k = s₁.pool.lookup k ∧ u.pool.lookup k = s.pool.lookup k :=
  ⟨lookup_of_leads (h.reachable.step h.enabled h.call) h.run hl,
    lookup_of_leads h.reachable h.without hl⟩

/-- A call that changes nothing, and a completion that changes nothing. -/
theorem same (h : FailsLater c r ls a s s₁ t t' u) (hcall : s₁.pool = s.pool)
    (hcompletion : t'.pool = t.pool) : u.pool.Same t'.pool :=
  .of_eq (hcompletion.trans (pool_eq_of_leads h.run h.without hcall))

/-- The completion that answers a delete or a write changes nothing. -/
theorem completion_keeps (h : FailsLater c r ls a s s₁ t t' u) (hcreate : r.op ≠ .create)
    (hget : r.op ≠ .get) : t'.pool = t.pool := by
  have hanswers := h.completes.2
  have hpool := h.completion_pool
  cases a with
  | create rc name =>
    simp only [Manager.Completion.Answers, Bool.and_eq_true, decide_eq_true_eq] at hanswers
    exact absurd hanswers.1 hcreate
  | get rc value =>
    simp only [Manager.Completion.Answers, Bool.and_eq_true, decide_eq_true_eq] at hanswers
    exact absurd hanswers.1 hget
  | _ => exact (Except.pure_eq_ok.mp hpool).symm

/-- The completion of a create fails without a name. -/
theorem create_fails (h : FailsLater c r ls a s s₁ t t' u) (hop : r.op = .create) :
    a = .create a.rc none ∧ ZooKeeperError.ofInt a.rc ≠ .noError := by
  have hanswers := h.completes.2
  have hfails := h.fails
  cases a with
  | create rc name =>
    have hrc : rc ≠ 0 := by simpa [Manager.Completion.fails] using hfails
    simp only [Manager.Completion.Answers, hrc, decide_false, Bool.false_or, Bool.and_eq_true,
      Option.isNone_iff_eq_none] at hanswers
    exact ⟨by rw [hanswers.2]; rfl, fun he => hrc (ZooKeeperError.ofInt_eq_noError.mp he)⟩
  | delete rc => simp [Manager.Completion.Answers, hop] at hanswers
  | set rc => simp [Manager.Completion.Answers, hop] at hanswers
  | get rc value => simp [Manager.Completion.Answers, hop] at hanswers
  | exists_ rc => cases hfails
  | getChildren rc strings => cases hfails

/-- The completion of a read adds an entry where there is none. -/
theorem get_fails (h : FailsLater c r ls a s s₁ t t' u) (hop : r.op = .get) :
    t'.pool = t.pool.indexed r.path := by
  have hanswers := h.completes.2
  have hfails := h.fails
  have hpool := h.completion_pool
  cases a with
  | get rc value =>
    have hset : (ZooKeeperError.ofInt rc).settles = false := by
      simpa [Manager.Completion.fails] using hfails
    simp only [Label.poolOp, PoolOp.apply, Pool.agetCompletion_of_not_settles hset,
      Except.ok.injEq] at hpool
    exact hpool.symm
  | create rc name => simp [Manager.Completion.Answers, hop] at hanswers
  | delete rc => simp [Manager.Completion.Answers, hop] at hanswers
  | set rc => simp [Manager.Completion.Answers, hop] at hanswers
  | exists_ rc => cases hfails
  | getChildren rc strings => cases hfails

/-- A failed write of a value touches the pool neither time. -/
theorem setNodeValue {value : QByteArray} {ret : Int} {ctx : CtxId}
    (h : FailsLater (.setNodeValue path value ret ctx) r ls a s s₁ t t' u) : u.pool.Same t'.pool := by
  obtain ⟨-, hr⟩ := Option.ite_none_right_eq_some.mp h.accepted
  obtain rfl := Option.some.inj hr
  exact h.same (Except.pure_eq_ok.mp h.call_pool).symm (h.completion_keeps (by simp) (by simp))

/-- A failed delete has spared the pool if its path was not pooled, and only then if
nothing else came to its entry. -/
theorem deleteNode {ret : Int} {ctx : CtxId}
    (h : FailsLater (.deleteNode path ret ctx) r ls a s s₁ t t' u) :
    (s.pool.contains path = false → u.pool.Same t'.pool) ∧
      ((∀ l ∈ ls, l.Leaves path) → u.pool.Same t'.pool → s.pool.contains path = false) := by
  obtain ⟨-, hr⟩ := Option.ite_none_right_eq_some.mp h.accepted
  obtain rfl := Option.some.inj hr
  have hkept := h.completion_keeps (by simp) (by simp)
  rcases Pool.deleteNode_eq_ok h.call_pool with ⟨hk, hcall⟩ | ⟨n, d, hk, -, hcall⟩
  · refine ⟨fun _ => h.same hcall hkept, fun _ _ => ?_⟩
    simpa using Pool.not_contains_iff.mpr hk
  · constructor
    · intro hmissing
      rw [← Bool.not_eq_true, Pool.not_contains_iff, hk] at hmissing
      cases hmissing
    · intro hl hsame
      obtain ⟨hwith, hwithout⟩ := h.lookup hl
      have hentry := hsame.lookup path
      rw [hkept, hwith, hwithout, hcall, Pool.lookup_remove, if_pos rfl, hk] at hentry
      cases hentry

/-- A failed read has spared it if it found its path pooled both times. -/
theorem getNodeValue {callback wantsError : Bool} {ret : Int} {ctx : CtxId} {n : NodeId}
    (h : FailsLater (.getNodeValue path callback wantsError ret ctx n) r ls a s s₁ t t' u) :
    (s.pool.contains path = true ∧ t.pool.contains path = true → u.pool.Same t'.pool) ∧
      ((∀ l ∈ ls, l.Leaves path) → u.pool.Same t'.pool →
        s.pool.contains path = true ∧ t.pool.contains path = true) := by
  obtain ⟨-, hr⟩ := Option.ite_none_right_eq_some.mp h.accepted
  obtain rfl := Option.some.inj hr
  have hindexed : t'.pool = t.pool.indexed path := h.get_fails rfl
  have hcall := Except.pure_eq_ok.mp h.call_pool
  constructor
  · rintro ⟨hs, ht⟩
    rw [Pool.readNode_of_contains hs] at hcall
    exact h.same hcall.symm (hindexed.trans (Pool.indexed_of_contains ht))
  · intro hl hsame
    obtain ⟨hwith, hwithout⟩ := h.lookup hl
    have hs : s.pool.contains path = true := by
      by_contra hmissing
      have hk := Pool.not_contains_iff.mp hmissing
      have hentry := hsame.lookup path
      rw [hindexed, Pool.lookup_indexed, if_pos rfl, hwithout, hk] at hentry
      cases hentry
    refine ⟨hs, ?_⟩
    obtain ⟨node, hk⟩ := Pool.contains_iff.mp hs
    rw [Pool.readNode_of_contains hs] at hcall
    exact Pool.contains_iff.mpr ⟨node, by rw [hwith, ← hcall, hk]⟩

/-- The request of an accepted create, and its node. -/
theorem created {c : Manager.CreateArgs} {ret : Int} {ctx : CtxId} {n : NodeId}
    (h : FailsLater (.createNode c ret ctx n) r ls a s s₁ t t' u) :
    r.op = .create ∧ r.path = c.path ∧ s.pool.lookup c.path = none ∧
      s₁.pool = s.pool.createNode c.type c.path c.value n := by
  have haccepted := h.accepted
  have hpool := h.call_pool
  simp only [Call.accepted] at haccepted
  split at haccepted
  · cases haccepted
  · next hc =>
    obtain ⟨hret, hr⟩ := Option.ite_none_right_eq_some.mp haccepted
    obtain rfl := Option.some.inj hr
    rw [Call.poolOp, if_neg hc, if_pos (ZooKeeperError.ofInt_eq_noError.mpr hret)] at hpool
    exact ⟨rfl, rfl, Pool.not_contains_iff.mp hc, (Except.pure_eq_ok.mp hpool).symm⟩

/-- A failed create has, if its completion takes its own node away again. -/
theorem createNode {c : Manager.CreateArgs} {ret : Int} {ctx : CtxId} {n : NodeId}
    (h : FailsLater (.createNode c ret ctx n) r ls a s s₁ t t' u)
    (hl : ∀ l ∈ ls, l.Leaves c.path) : u.pool.Same t'.pool ↔
      c.path ≠ "" ∧ ZooKeeperError.ofInt a.rc ≠ .nodeExists := by
  obtain ⟨hop, hpath, hmissing, hcall⟩ := h.created
  obtain ⟨ha, herr⟩ := h.create_fails hop
  obtain ⟨hwith, hwithout⟩ := h.lookup hl
  have hfresh : s.pool.nodes.Fresh n := h.enabled.2.2.1 n rfl
  have hentry : s₁.pool.lookup c.path = some (some n) := by
    rw [hcall]
    exact Pool.lookup_insert.trans (if_pos rfl)
  have hcompletion := h.completion_pool
  rw [ha, Label.poolOp, hpath] at hcompletion
  constructor
  · intro hsame
    have hgone : t'.pool.lookup c.path = none := by rw [hsame.lookup, hwithout, hmissing]
    rcases Pool.completed_of_acreateCompletion h.sound hcompletion with
      ⟨-, hkept⟩ | ⟨hne, i, d, -, hc⟩
    -- a create of the empty path keeps its node
    · rw [hkept, hwith, hentry] at hgone
      cases hgone
    · refine ⟨hne, ?_⟩
      intro hexists
      rw [hexists] at hc
      have hkeeps := hc.lookup c.path
      rw [hgone] at hkeeps
      simp [Pool.reportedPath, ZooKeeperError.keepsNode] at hkeeps
  · rintro ⟨hne, hnot⟩
    have hkeep : (ZooKeeperError.ofInt a.rc).keepsNode = false := by
      rw [← Bool.not_eq_true, ZooKeeperError.keepsNode_iff]
      exact fun h => h.elim herr hnot
    have hs₁ := h.reachable.step h.enabled h.call
    have hx : s₁.pool.Extends s.pool c.path n := by
      rw [hcall]
      exact .new hmissing hfresh
    exact (extends_of_leads hs₁ h.reachable h.run h.without hx hl).removed h.sound hne rfl hkeep
      hcompletion

/-- The completions of the other requests report no error. -/
theorem silent (h : FailsLater c r ls a s s₁ t t' u)
    (hop : r.op = .exists_ ∨ r.op = .getChildren) : ¬ a.fails = true := by
  have hanswers := h.completes.2
  cases a with
  | exists_ rc => simp [Manager.Completion.fails]
  | getChildren rc strings => simp [Manager.Completion.fails]
  | _ =>
    simp only [Manager.Completion.Answers, Bool.and_eq_true, decide_eq_true_eq] at hanswers
    rcases hop with hop | hop <;> simp [hop] at hanswers

end FailsLater

/-- `/a` has been created. -/
def nodeCreated : List Label :=
  sessionOpen ++
    [.call (.createNode { type := .persistentNode, path := "/a" } 0 0 0),
     .deliver { ctx := 0, op := .create, path := "/a", node := some 0 } (.create 0 (some "/a"))]

/-- A create of `/a` with the return value `ret`, and its request. -/
def createA (ret : Int) : Call := .createNode { type := .persistentNode, path := "/a" } ret 0 0

def requestA : Request := { ctx := 0, op := .create, path := "/a", node := some 0 }

/-- What else happens before the create is answered: `/b` is read, and `/c` created. -/
def meanwhile : List Label :=
  [.call (.getNodeValueSync "/b" false ⟨fun _ => 0, 0, some [118]⟩ 1),
   .call (.createNode { type := .sequenceNode, path := "/c" } 0 1 2),
   .deliver { ctx := 1, op := .create, path := "/c", node := some 2 } (.create 0 (some "/c0000000000"))]

end QtZooKeeper
