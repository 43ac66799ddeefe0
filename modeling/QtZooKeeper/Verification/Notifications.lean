-- SUMMARY: The change signals of the nodes are exact, so an observer that re-reads on each signal is up to date.
import QtZooKeeper.Manager.PooledNodes
import QtZooKeeper.Manager.Steps

/-!
# Change notifications

`value` and `exists` of a node are properties with the notify signals
`valueChanged` and `existsChanged`. A step emits them on a node that was handed out
before exactly for what it changes, and after the change is stored. An observer
that reads a node when it gets it, and again on each signal, has therefore the
current value and flag whenever no handler is running.
-/

namespace QtZooKeeper

open FallibleSystem

/-- A signal that announces a change of a property. -/
def NodeSignal.isChange : NodeSignal → Bool
  | created _ => false
  | valueChanged _ _ | existsChanged _ _ => true

namespace Pool

variable {p p' q : Pool} {n i : NodeId} {d d' e : ZooKeeperNode} {op : PoolOp}
variable {error : ZooKeeperError} {value : QByteArray} {path k : QString} {new : List NodeSignal}

/-- The signals that announce the change of a node from `d` to `d'`. -/
def changes (n : NodeId) (d d' : ZooKeeperNode) : List NodeSignal :=
  (if d.value ≠ d'.value then [.valueChanged n d'.value] else []) ++
    if d.exists_ ≠ d'.exists_ then [.existsChanged n d'.exists_] else []

/-- The change signals of one node. -/
def changesOf (n : NodeId) (new : List NodeSignal) : List NodeSignal :=
  new.filter fun x => x.node = n ∧ x.isChange

/-- The change signals due to a node with the fields `d`: those of its change, or
none if it has been scheduled for deletion. -/
def dueChanges (n : NodeId) (d : ZooKeeperNode) : Option (HeapObject ZooKeeperNode) → List NodeSignal
  | some ⟨d', false⟩ => changes n d d'
  | _ => []

/-- Between `p` and `p'` exactly the change signals due to the node were emitted. -/
def Announced (p p' : Pool) (n : NodeId) (d : ZooKeeperNode) : Prop :=
  ∃ new, p'.signals = p.signals ++ new ∧ changesOf n new = dueChanges n d (p'.nodes n)

@[simp] theorem changes_self : changes n d d = [] := by simp [changes]

theorem node_changes : ∀ x ∈ changes n d d', x.node = n ∧ x.isChange = true := by
  intro x hx
  simp only [changes, List.mem_append] at hx
  rcases hx with hx | hx <;>
  · split at hx
    · rw [List.mem_singleton.mp hx]
      exact ⟨rfl, rfl⟩
    · cases hx

theorem changesOf_changes : changesOf n (changes n d d') = changes n d d' := by
  rw [changesOf, List.filter_eq_self]
  intro x hx
  simpa using node_changes x hx

@[simp] theorem changesOf_nil : changesOf n [] = [] := rfl

theorem changesOf_append {new' : List NodeSignal} :
    changesOf n (new ++ new') = changesOf n new ++ changesOf n new' := List.filter_append _ _

@[simp] theorem changesOf_created : changesOf n [.created i] = [] := by
  simp [changesOf, NodeSignal.isChange]

/-- Signals of another node. -/
theorem changesOf_of_ne (h : ∀ x ∈ new, x.node = i) (hn : n ≠ i) : changesOf n new = [] := by
  rw [changesOf, List.filter_eq_nil_iff]
  intro x hx
  simp [h x hx, Ne.symm hn]

theorem answerSignals_eq_changes :
    answerSignals n d error value = changes n d (d.answered error value) := by
  cases hs : error.settles with
  | true =>
    rcases ZooKeeperError.settles_iff.mp hs with rfl | rfl
    · rfl
    · simp [answerSignals, changes, ZooKeeperNode.answered]
  | false =>
    rw [answerSignals_of_not_settles hs, ZooKeeperNode.answered_of_not_settles hs, changes_self]

theorem changesOf_createSignals (h : error.keepsNode = true) :
    changesOf n (createSignals n d error) = changes n d { d with path := path, exists_ := true } := by
  have hchanges : (if d.exists_ ≠ true then [NodeSignal.existsChanged n true] else []) =
      changes n d { d with path := path, exists_ := true } := by
    simp [changes]
  rcases ZooKeeperError.keepsNode_iff.mp h with rfl | rfl
  · rw [createSignals, changesOf_append, changesOf_created, List.append_nil, hchanges,
      changesOf_changes]
  · rw [createSignals, hchanges, changesOf_changes]

/-! ## One step -/

/-- A live node that keeps its fields has nothing to announce. -/
theorem Announced.same (hl : p.nodes.Live n d) (hs : p'.signals = p.signals ++ new)
    (hnew : changesOf n new = []) (hn : p'.nodes n = p.nodes n) : p.Announced p' n d := by
  refine ⟨new, hs, ?_⟩
  have hlive : p.nodes n = some ⟨d, false⟩ := hl
  rw [hnew, hn, hlive, dueChanges, changes_self]

theorem Announced.refl (hl : p.nodes.Live n d) : p.Announced p n d :=
  .same hl (List.append_nil _).symm rfl rfl

/-- A node that is no longer live has nothing to announce. -/
theorem Announced.gone (hs : p'.signals = p.signals ++ new) (hnew : changesOf n new = [])
    (hn : ∀ d', ¬ p'.nodes.Live n d') : p.Announced p' n d := by
  refine ⟨new, hs, ?_⟩
  unfold dueChanges
  split
  · next d' h => exact absurd h (hn d')
  · exact hnew

/-- A step that writes one live node announces what it changes there. -/
theorem Announced.put (hl : p.nodes.Live n d) (hi : p.nodes.Live i e) {e' : ZooKeeperNode}
    (hs : p'.signals = p.signals ++ new) (hnode : ∀ x ∈ new, x.node = i)
    (hnew : changesOf i new = changes i e e') (hn : p'.nodes = p.nodes.put i e') :
    p.Announced p' n d := by
  by_cases hni : n = i
  · subst hni
    obtain rfl := hl.unique hi
    refine ⟨new, hs, ?_⟩
    rw [hnew, hn, Heap.put_self, dueChanges]
  · exact .same hl hs (changesOf_of_ne hnode hni) (by rw [hn, Heap.put_of_ne hni])

/-- A new node has nobody to announce anything to. -/
theorem Announced.fresh (hl : p.nodes.Live n d) (hf : p.nodes.Fresh i)
    (hs : p'.signals = p.signals ++ new) (hnode : ∀ x ∈ new, x.node = i)
    (hn : p'.nodes = p.nodes.put i e) : p.Announced p' n d := by
  have hni : n ≠ i := hf.ne hl
  exact .same hl hs (changesOf_of_ne hnode hni) (by rw [hn, Heap.put_of_ne hni])

/-- A reader announces nothing of the nodes that were there. -/
theorem Announced.readNode (hl : p.nodes.Live n d) (hf : p.nodes.Fresh i) :
    p.Announced (p.readNode path i).2 n d := by
  have hsignals : (p.readNode path i).2.signals = p.signals ++ [] := by
    rw [signals_readNode, List.append_nil]
  exact .same hl hsignals rfl (nodes_readNode_of_ne (hf.ne hl))

/-- Taking the answer of a read announces what it changes. -/
theorem Announced.answered (hl : p.nodes.Live n d) (hi : p.nodes.Live i e)
    (ha : p.Answered p' i e error value) : p.Announced p' n d := by
  refine .put hl hi ha.signals node_answerSignals ?_ ha.nodes
  rw [answerSignals_eq_changes, changesOf_changes]

theorem Announced.completed {pathOld : QString} (hl : p.nodes.Live n d) (hi : p.nodes.Live i e)
    (hc : p.Completed p' i e error pathOld path) : p.Announced p' n d := by
  cases hkeep : error.keepsNode with
  | true =>
    have hnodes := hc.nodes
    rw [hkeep, if_pos rfl] at hnodes
    exact .put hl hi hc.signals node_createSignals (changesOf_createSignals hkeep) hnodes
  | false =>
    have hsignals := hc.signals
    have hnodes := hc.nodes
    rw [createSignals_of_not_keepsNode hkeep] at hsignals
    rw [hkeep] at hnodes
    by_cases hni : n = i
    · subst hni
      refine .gone hsignals rfl ?_
      intro d' hl'
      rw [hnodes] at hl'
      exact (Heap.live_schedule.mp hl').1 rfl
    · exact .same hl hsignals rfl (hc.nodes_of_ne hni)

/-- Every operation announces exactly what it changes on the nodes handed out. -/
theorem announced_apply (hp : p.Sound) (he : op.Enabled p) (hs : op.apply p = .ok p')
    (hl : p.nodes.Live n d) : p.Announced p' n d := by
  cases hp.step hs with
  | keep => exact .refl hl
  | createNode => exact .fresh hl he.2 (List.append_nil _).symm (by simp) rfl
  | createNodeSync => exact .fresh hl he.2 rfl (by simp [NodeSignal.node]) rfl
  | deleteMissing hk => exact .refl hl
  | @deletePooled path i e hk hi =>
    by_cases hni : n = i
    · subst hni
      refine .gone (List.append_nil _).symm rfl ?_
      intro d' hl'
      exact (Heap.live_schedule.mp hl').1 rfl
    · exact .same hl (List.append_nil _).symm rfl (Heap.schedule_of_ne hni)
  | readNode => exact .readNode hl he
  | readIgnored hset => exact .readNode hl he
  | readAnswered hset hi hlj ha =>
    obtain ⟨new, hnew, hdue⟩ := Announced.answered (live_readNode he hl) hlj ha
    exact ⟨new, by rw [hnew, signals_readNode], hdue⟩
  | @setExists i e b hi =>
    have hchanges : (if e.exists_ ≠ b then [NodeSignal.existsChanged i b] else []) =
        changes i e { e with exists_ := b } := by
      simp [changes]
    refine .put hl hi signals_storeExists (node_of_ite rfl) ?_ (nodes_storeExists hi)
    rw [hchanges, changesOf_changes]
  | createUnnamed => exact .refl hl
  | createCompleted hne hk hi hd hc => exact .completed hl hi hc
  | getUnpooled hset hk => exact .same hl (List.append_nil _).symm rfl rfl
  | getAnswered hk hi ha => exact .answered hl hi ha
  | @disconnected p' hd =>
    have hsignals : p'.signals = p.signals ++ [] := by rw [hd.signals, List.append_nil]
    by_cases hk : ∀ k, p.lookup k ≠ some (some n)
    · have hl' : p'.nodes.Live n d := (hd.live n d).mpr ⟨hl, hk⟩
      exact .same hl hsignals rfl (hl'.trans hl.symm)
    · refine .gone hsignals rfl ?_
      intro d' hl'
      exact hk ((hd.live n d').mp hl').2

theorem scheduled_readNode (hf : p.nodes.Fresh i) (hn : p.nodes.Scheduled n) :
    (p.readNode path i).2.nodes.Scheduled n := by
  have hni : n ≠ i := by
    rintro rfl
    exact hf.not_scheduled hn
  obtain ⟨c, hc⟩ := hn
  exact ⟨c, (nodes_readNode_of_ne hni).trans hc⟩

/-- A node scheduled for deletion stays so. -/
theorem scheduled_apply (hp : p.Sound) (he : op.Enabled p) (hs : op.apply p = .ok p')
    (hn : p.nodes.Scheduled n) : p'.nodes.Scheduled n := by
  cases hp.step hs with
  | keep => exact hn
  | createNode => exact hn.put he.2.not_scheduled
  | createNodeSync => exact hn.put he.2.not_scheduled
  | deleteMissing hk => exact hn
  | deletePooled hk hi => exact hn.schedule
  | readNode => exact scheduled_readNode he hn
  | readIgnored hset => exact scheduled_readNode he hn
  | readAnswered hset hi hlj ha =>
    rw [ha.nodes]
    exact (scheduled_readNode he hn).put hlj.not_scheduled
  | setExists hi =>
    rw [nodes_storeExists hi]
    exact hn.put hi.not_scheduled
  | createUnnamed => exact hn
  | createCompleted hne hk hi hd hc =>
    rw [hc.nodes]
    split
    · exact hn.put hi.not_scheduled
    · exact (hn.put hi.not_scheduled).schedule
  | getUnpooled hset hk => exact hn
  | getAnswered hk hi ha =>
    rw [ha.nodes]
    exact hn.put hi.not_scheduled
  | @disconnected p' hd =>
    refine Heap.scheduled_of_not_live ?_ ?_
    · rw [hd.fresh]
      exact fun hf => hf.not_scheduled hn
    · intro d' hl'
      exact ((hd.live n d').mp hl').1.not_scheduled hn

end Pool

/-! ## Observers -/

/-- An observer of a node reads the property again that a signal announces. -/
def reread (n : NodeId) (seen : QByteArray × Bool) : NodeSignal → QByteArray × Bool
  | .valueChanged m value => if m = n then (value, seen.2) else seen
  | .existsChanged m exists_ => if m = n then (seen.1, exists_) else seen
  | .created _ => seen

/-- What an observer of each node has seen last, its value and its flag. -/
abbrev Seen := NodeId → Option (QByteArray × Bool)

/-- An observer reads a node when it is returned to the caller, and what the signals
announce from then on. -/
def recordSeen (s : Manager) (_ : Label) (s' : Manager) (seen : Seen) : Seen := fun n =>
  match s.pool.nodes n with
  | none => (s'.pool.nodes n).map fun o => (o.data.value, o.data.exists_)
  | some _ => (seen n).map ((s'.pool.signals.drop s.pool.signals.length).foldl (reread n))

/-- The system with an observer of every node. -/
def observed : FallibleSystem (Manager × Seen) Label AccessFault :=
  system.withHistory (fun _ => none) recordSeen

instance (l : Label) (x : Manager × Seen) : Decidable (observed.enabled l x) :=
  inferInstanceAs (Decidable (l.Enabled x.1))

/-- What the observers have seen is what they would read now. -/
def UpToDate (x : Manager × Seen) : Prop :=
  ∀ n d, x.1.pool.nodes.Live n d → x.2 n = some (d.value, d.exists_)

/-- The step emits the due change signals on every node handed out before. -/
def StepAnnounced (s : Manager) (l : Label) : Prop :=
  ∀ s', system.step l s = .ok s' → ∀ n d, s.pool.nodes.Live n d → s.pool.Announced s'.pool n d

variable {s s' : Manager} {l : Label} {x : Manager × Seen} {tr : List ((Manager × Seen) × Label)}
variable {n : NodeId} {d d' : ZooKeeperNode} {new : List NodeSignal} {seen : QByteArray × Bool}

/-- Only the change signals of its node matter to an observer. -/
theorem foldl_reread_changesOf :
    (Pool.changesOf n new).foldl (reread n) seen = new.foldl (reread n) seen := by
  have hignored : (fun m y => if decide (y.node = n ∧ y.isChange) = true then reread n m y else m) =
      reread n := by
    funext m y
    cases y with
    | created k => simp [reread, NodeSignal.isChange]
    | valueChanged k v | existsChanged k b =>
      by_cases hk : k = n <;> simp [reread, NodeSignal.isChange, NodeSignal.node, hk]
  rw [Pool.changesOf, List.foldl_filter, hignored]

theorem foldl_reread_changes :
    (Pool.changes n d d').foldl (reread n) (d.value, d.exists_) = (d'.value, d'.exists_) := by
  simp only [Pool.changes, List.foldl_append]
  by_cases hv : d.value = d'.value <;> by_cases hx : d.exists_ = d'.exists_ <;>
    simp [hv, hx, reread]

theorem stepAnnounced (hs : system.Reachable s) (he : system.enabled l s) : StepAnnounced s l :=
  fun _ hstep _ _ hl =>
    Pool.announced_apply (sound_of_reachable hs) (enabled_pool he) (step_pool hstep) hl

theorem upToDate_of_reachable (h : observed.Reachable x) : UpToDate x := by
  let P : Manager × Seen → Prop := fun x => x.1.pool.Sound ∧ UpToDate x
  have hinv : P x := by
    refine h.invariant ⟨Pool.sound_init, ?_⟩ ?_
    · intro n d hl
      cases hl
    · intro x l y ⟨hsound, hseen⟩ he hs
      obtain ⟨hstep, hrec⟩ := withHistory_step.mp hs
      have hpool := step_pool hstep
      refine ⟨hsound.apply (enabled_pool he) hpool, ?_⟩
      intro n d' hl'
      have hlive' : y.1.pool.nodes n = some ⟨d', false⟩ := hl'
      rw [hrec, recordSeen]
      cases hn : x.1.pool.nodes n with
      -- the node was returned by this step
      | none => simp only [hlive', Option.map_some]
      | some o =>
        obtain ⟨d, scheduled⟩ := o
        cases scheduled with
        | true =>
          have hgone := Pool.scheduled_apply hsound (enabled_pool he) hpool ⟨d, hn⟩
          exact absurd hgone hl'.not_scheduled
        | false =>
          obtain ⟨new, hnew, hdue⟩ := Pool.announced_apply hsound (enabled_pool he) hpool hn
          rw [hlive', Pool.dueChanges] at hdue
          simp only [hseen n d hn, Option.map_some, hnew, List.drop_left]
          rw [← foldl_reread_changesOf, hdue, foldl_reread_changes]
  exact hinv.2

/-- In every run each step emits exactly the change signals due, and the observers
are up to date in every state. -/
theorem notifications_exact (h : observed.Run tr x) :
    Each (fun y l => StepAnnounced y.1 l) tr ∧ Always UpToDate tr x :=
  ⟨h.each fun _ _ hy he => stepAnnounced hy.forget he, h.always fun _ => upToDate_of_reachable⟩

/-- A create, its completion, and the flag taken back by the application. -/
def createdAndReset : List Label :=
  sessionOpen ++
    [.call (.createNode { type := .persistentNode, path := "/a", value := [118] } 0 0 0),
     .deliver { ctx := 0, op := .create, path := "/a", value := [118], node := some 0 }
       (.create 0 (some "/a")),
     .call (.setExists (some 0) false)]

theorem createdAndReset_exact :
    Each (fun y l => StepAnnounced y.1 l) (observed.execGet createdAndReset (by decide)).1 ∧
      Always UpToDate (observed.execGet createdAndReset (by decide)).1
        (observed.execGet createdAndReset (by decide)).2 :=
  notifications_exact (run_execGet createdAndReset (by decide))

end QtZooKeeper
