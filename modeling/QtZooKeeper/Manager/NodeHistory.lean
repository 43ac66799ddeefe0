-- SUMMARY: Histories of the nodes: the answers about a path go to the node pooled there.
import QtZooKeeper.Manager.PooledNodes
import QtZooKeeper.Manager.Steps

/-!
# Node histories

A property of the nodes that depends on the past is stated over a history beside
the manager: for each node, the answers about its path since it came into the
pool. What counts as an answer is a parameter. The rule here is that only the node
a step gets an answer about has to be looked at, provided the step stores nothing
elsewhere.
-/

namespace QtZooKeeper

open FallibleSystem

/-! ## What a step stores about existence -/

/-- The application sets the flag of a node itself. -/
def Label.setsExists : Label → Bool
  | call (.setExists _ _) => true
  | _ => false

/-- The path under which a step takes over from an answer whether the znode exists, and
what it takes over: from the answers to creates and reads. -/
def Label.learns (s : Manager) : Label → Option (QString × Bool)
  | call (.createNodeSync a ret newPath _) =>
    if s.pool.contains a.path = false ∧ ZooKeeperError.ofInt ret = .noError then some (newPath, true)
    else none
  | call (.getNodeValueSync path _ r _) | call (.wgetNodeValue path _ r _ _) =>
    r.error.settled.map (path, ·)
  | deliver r (.create rc name) =>
    if r.path ≠ "" ∧ (ZooKeeperError.ofInt rc).keepsNode = true then
      some (Pool.reportedPath name r.path, true)
    else none
  | deliver r (.get rc _) => (ZooKeeperError.ofInt rc).settled.map (r.path, ·)
  | _ => none

section Existence

variable {s : Manager} {l : Label}

theorem storesExists_poolOp : (l.poolOp s).storesExists = l.learns s := by
  cases l with
  | call c =>
    cases c with
    | createNode a ret ctx n =>
      rcases Call.poolOp_createNode s a ret ctx n with hop | ⟨-, -, hop⟩
      · rw [Label.poolOp, hop]
        rfl
      · rw [Label.poolOp, hop]
        rfl
    | createNodeSync a ret newPath n =>
      simp only [Label.poolOp, Call.poolOp, Label.learns]
      cases s.pool.contains a.path with
      | true => rfl
      | false =>
        by_cases hret : ZooKeeperError.ofInt ret = .noError
        · simp [hret, PoolOp.storesExists]
        · simp [hret, PoolOp.storesExists]
    | _ => rfl
  | deliver r c => cases c <;> rfl
  | watcher zzh type state path client =>
    simp only [Label.poolOp]
    split <;> rfl
  | _ => rfl

/-- No other step sets a flag by hand. -/
theorem setsExists_poolOp (h : l.setsExists = false) : (l.poolOp s).setsExists = false := by
  cases l with
  | call c =>
    cases c with
    | createNode a ret ctx n =>
      rcases Call.poolOp_createNode s a ret ctx n with hop | ⟨-, -, hop⟩
      · rw [Label.poolOp, hop]
        rfl
      · rw [Label.poolOp, hop]
        rfl
    | createNodeSync a ret newPath n =>
      rcases Call.poolOp_createNodeSync s a ret newPath n with hop | ⟨-, -, hop⟩
      · rw [Label.poolOp, hop]
        rfl
      · rw [Label.poolOp, hop]
        rfl
    | setExists node b => cases h
    | _ => rfl
  | deliver r c => cases c <;> rfl
  | watcher zzh type state path client =>
    simp only [Label.poolOp]
    split <;> rfl
  | _ => rfl

end Existence

/-! ## Answers -/

variable {α : Type}

/-- An answer goes to the node pooled under its path once it is processed. -/
def recordNode (answer : Manager → Label → Option (QString × α)) (s : Manager) (l : Label)
    (s' : Manager) (h : NodeId → List α) : NodeId → List α :=
  match answer s l with
  | none => h
  | some (path, a) =>
    match s'.pool.pooled path with
    | none => h
    | some (n, _) => Function.update h n (h n ++ [a])

/-- The system with the answers each node has got. -/
def recorded (answer : Manager → Label → Option (QString × α)) :
    FallibleSystem (Manager × (NodeId → List α)) Label AccessFault :=
  system.withHistory (fun _ => []) (recordNode answer)

instance (answer : Manager → Label → Option (QString × α)) (l : Label)
    (x : Manager × (NodeId → List α)) : Decidable ((recorded answer).enabled l x) :=
  inferInstanceAs (Decidable (l.Enabled x.1))

/-- The fields of every pooled node agree with its answers. -/
def NodesAgree (agree : List α → ZooKeeperNode → Prop) (x : Manager × (NodeId → List α)) : Prop :=
  ∀ path n d, x.1.pool.pooled path = some (n, d) → agree (x.2 n) d

variable {answer : Manager → Label → Option (QString × α)} {agree : List α → ZooKeeperNode → Prop}
variable {s s' : Manager} {l : Label} {x y : Manager × (NodeId → List α)} {h : NodeId → List α}
variable {path k : QString} {n : NodeId} {d : ZooKeeperNode} {a : α}

theorem nodesAgree_init : NodesAgree agree (recorded answer).init := by
  intro path n d hn
  cases hn

theorem recordNode_of_none (ha : answer s l = none) : recordNode answer s l s' h = h := by
  simp only [recordNode, ha]

theorem recordNode_self (ha : answer s l = some (path, a)) (hn : s'.pool.pooled path = some (n, d)) :
    recordNode answer s l s' h n = h n ++ [a] := by
  simp only [recordNode, ha, hn, Function.update_self]

/-- A node under another path gets no answer. -/
theorem recordNode_of_ne (hs' : s'.pool.Sound) (ha : answer s l = some (path, a))
    (hn : s'.pool.pooled k = some (n, d)) (hk : k ≠ path) : recordNode answer s l s' h n = h n := by
  simp only [recordNode, ha]
  cases hp : s'.pool.pooled path with
  | none => rfl
  | some z =>
    have hne : n ≠ z.1 := by
      rintro rfl
      exact hk (hs'.injective (Pool.pooled_eq_some.mp hn).1 (Pool.pooled_eq_some.mp hp).1)
    exact Function.update_of_ne hne _ _

/-- Nodes that have not been created have no answers. -/
theorem recorded_of_fresh (hx : (recorded answer).Reachable x) (hf : x.1.pool.nodes.Fresh n) :
    x.2 n = [] := by
  let P : Manager × (NodeId → List α) → Prop := fun x =>
    x.1.pool.Sound ∧ ∀ n, x.1.pool.nodes.Fresh n → x.2 n = []
  have hinv : P x := by
    refine hx.invariant ⟨Pool.sound_init, fun _ _ => rfl⟩ ?_
    intro x l y ⟨hsound, hfresh⟩ he hs
    obtain ⟨hstep, hrec⟩ := withHistory_step.mp hs
    refine ⟨hsound.apply (enabled_pool he) (step_pool hstep), ?_⟩
    intro n hn
    have hold := hfresh n (Pool.fresh_of_apply hsound (step_pool hstep) hn)
    rw [hrec]
    cases ha : answer x.1 l with
    | none => rw [recordNode_of_none ha, hold]
    | some z =>
      simp only [recordNode, ha]
      cases hp : y.1.pool.pooled z.1 with
      | none => exact hold
      | some w =>
        have hne : n ≠ w.1 := by
          rintro rfl
          exact (Pool.pooled_eq_some.mp hp).2.not_fresh hn
        simp only [Function.update_of_ne hne, hold]
  exact hinv.2 n hf

/-- Where a pooled node that agrees with its earlier answers comes from. -/
theorem origin_of_step (hx : (recorded answer).Reachable x) (he : l.Enabled x.1)
    (hstep : l.step x.1 = .ok s') (hn : s'.pool.pooled k = some (n, d)) :
    ∃ d₀, x.1.pool.Origin (l.poolOp x.1) k n d d₀ ∧
      ((∃ k₀, x.1.pool.pooled k₀ = some (n, d₀)) ∨ (x.2 n = [] ∧ d₀.exists_ = false)) := by
  obtain ⟨d₀, ho⟩ :=
    Pool.origin_of_apply (sound_of_reachable hx.forget) (enabled_pool he) (step_pool hstep) hn
  refine ⟨d₀, ho, ho.node.imp_right ?_⟩
  rintro ⟨hf, hd⟩
  exact ⟨recorded_of_fresh hx hf, hd⟩

/-- If the nodes a step gets no answer about still agree with their answers, then
all nodes do exactly if the one it gets an answer about does. -/
theorem nodesAgree_step_iff (agree : List α → ZooKeeperNode → Prop)
    (hx : (recorded answer).Reachable x) (he : (recorded answer).enabled l x)
    (hs : (recorded answer).step l x = .ok y)
    (hother : ∀ k n d, y.1.pool.pooled k = some (n, d) → (∀ a, answer x.1 l ≠ some (k, a)) →
      agree (x.2 n) d) :
    NodesAgree agree y ↔ ∀ z ∈ answer x.1 l, ∀ n d, y.1.pool.pooled z.1 = some (n, d) →
      agree (x.2 n ++ [z.2]) d := by
  obtain ⟨hstep, hrec⟩ := withHistory_step.mp hs
  have hsound := sound_of_reachable (hx.step he hs).forget
  constructor
  · intro hy z ha n d hn
    have hc := hy z.1 n d hn
    rwa [hrec, recordNode_self ha hn] at hc
  · intro hanswer k n d hn
    cases ha : answer x.1 l with
    | none =>
      rw [hrec, recordNode_of_none ha]
      exact hother k n d hn (by simp [ha])
    | some z =>
      obtain ⟨path, a⟩ := z
      by_cases hk : k = path
      · subst hk
        rw [hrec, recordNode_self ha hn]
        exact hanswer (k, a) ha n d hn
      · rw [hrec, recordNode_of_ne hsound ha hn hk]
        refine hother k n d hn ?_
        intro a' ha'
        cases ha.symm.trans ha'
        exact hk rfl

end QtZooKeeper
