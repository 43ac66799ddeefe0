-- SUMMARY: What has happened to each node: its create was asked for and answered, and the manager was told of its znode.
import QtZooKeeper.Manager.NodeHistory

/-!
# Create histories

Beside the manager this module keeps what has happened to each node. Two things
about a node can be read off it: whether a create of its own is in flight, and, as
long as the node is pooled, its flag. Nothing else in the manager's state is looked
at, so a condition on the history says how a node got where it is.
-/

namespace QtZooKeeper

open FallibleSystem

/-! ## Histories -/

/-- What happens to a node. -/
inductive NodeEvent where
  /-- The client has accepted the create request that made the node. -/
  | asked
  /-- This request is completed. -/
  | answered
  /-- An answer about the path of the node, or the application, has told whether its
  znode exists. -/
  | told (exists_ : Bool)
  deriving DecidableEq, Repr

def NodeEvent.tells : NodeEvent → Option Bool
  | told b => some b
  | _ => none

/-- What the node was told last. -/
def lastTold (h : List NodeEvent) : Option Bool := h.reverse.findSome? NodeEvent.tells

/-- The create of the node is asked for and not answered. -/
def Unanswered (h : List NodeEvent) : Prop := .asked ∈ h ∧ .answered ∉ h

instance (h : List NodeEvent) : Decidable (Unanswered h) :=
  inferInstanceAs (Decidable (.asked ∈ h ∧ .answered ∉ h))

/-- The request made the node. -/
def Request.creates (n : NodeId) (r : Request) : Bool := r.op = .create && r.node = some n

namespace Label

/-- The client accepts the create request that makes the node. -/
def asksFor (s : Manager) (n : NodeId) (l : Label) : Bool := (l.accepted s).any (Request.creates n)

/-- The create request that made the node is completed. -/
def answersFor (n : NodeId) : Label → Bool
  | deliver r _ => r.creates n
  | _ => false

/-- What the step from `s` to `s'` tells the node. -/
def tells (s s' : Manager) (n : NodeId) : Label → Option Bool
  | call (.setExists node b) => if node = some n then some b else none
  | l => (l.learns s).bind fun z => if s'.pool.lookup z.1 = some (some n) then some z.2 else none

/-- What the step from `s` to `s'` does to the node. -/
def nodeEvents (s s' : Manager) (n : NodeId) (l : Label) : List NodeEvent :=
  (if l.asksFor s n then [.asked] else []) ++ (if l.answersFor n then [.answered] else []) ++
    ((l.tells s s' n).map .told).toList

end Label

/-- The events of a step are added to the histories. -/
def recordEvents (s : Manager) (l : Label) (s' : Manager) (h : NodeId → List NodeEvent) :
    NodeId → List NodeEvent := fun n => h n ++ l.nodeEvents s s' n

/-- The system with the history of each node. -/
def witnessed : FallibleSystem (Manager × (NodeId → List NodeEvent)) Label AccessFault :=
  system.withHistory (fun _ => []) recordEvents

instance (l : Label) (x : Manager × (NodeId → List NodeEvent)) : Decidable (witnessed.enabled l x) :=
  inferInstanceAs (Decidable (l.Enabled x.1))

variable {s s' : Manager} {l : Label} {x y : Manager × (NodeId → List NodeEvent)}
variable {h es : List NodeEvent} {k path : QString} {n : NodeId} {d : ZooKeeperNode} {b : Bool}

/-! ## The events of a step -/

theorem lastTold_append : lastTold (h ++ es) = (lastTold es).or (lastTold h) := by
  rw [lastTold, List.reverse_append, List.findSome?_append]
  rfl

theorem lastTold_nodeEvents : lastTold (l.nodeEvents s s' n) = l.tells s s' n := by
  unfold Label.nodeEvents
  rw [lastTold_append, lastTold_append]
  have hasked : lastTold (if l.asksFor s n then [.asked] else []) = none := by
    split <;> rfl
  have hanswered : lastTold (if l.answersFor n then [.answered] else []) = none := by
    split <;> rfl
  rw [hasked, hanswered]
  cases l.tells s s' n <;> rfl

theorem count_asked_nodeEvents :
    (l.nodeEvents s s' n).count .asked = if l.asksFor s n then 1 else 0 := by
  unfold Label.nodeEvents
  cases l.tells s s' n <;> cases l.asksFor s n <;> cases l.answersFor n <;> rfl

theorem count_answered_nodeEvents :
    (l.nodeEvents s s' n).count .answered = if l.answersFor n then 1 else 0 := by
  unfold Label.nodeEvents
  cases l.tells s s' n <;> cases l.asksFor s n <;> cases l.answersFor n <;> rfl

/-- Where the application sets no flag, a node is told what the answer says that is
stored under its path. -/
theorem tells_of_not_setsExists (hset : l.setsExists = false) : l.tells s s' n =
    (l.learns s).bind fun z => if s'.pool.lookup z.1 = some (some n) then some z.2 else none := by
  cases l with
  | call c =>
    cases c with
    | setExists node b => cases hset
    | _ => rfl
  | _ => rfl

/-- A node is created where its request is accepted. -/
theorem creates_of_asksFor (hask : l.asksFor s n = true) :
    ∃ type, (l.poolOp s).creates = some (n, type) := by
  obtain ⟨r, hr, hcreates⟩ := Option.any_eq_true _ _ |>.mp hask
  cases l with
  | call c =>
    cases c with
    | createNode a ret ctx m =>
      simp only [Label.accepted, Call.accepted] at hr
      split at hr
      · cases hr
      · next hc =>
        split at hr
        · next hret =>
          cases hr
          obtain rfl : m = n := by simpa [Request.creates] using hcreates
          refine ⟨a.type, ?_⟩
          simp only [Label.poolOp, Call.poolOp, if_neg hc,
            if_pos (ZooKeeperError.ofInt_eq_noError.mpr hret), PoolOp.creates]
        · cases hr
    | _ =>
      simp only [Label.accepted, Call.accepted] at hr
      first
        | cases hr
        | split at hr
          · cases hr
            simp [Request.creates] at hcreates
          · cases hr
  | _ => cases hr

/-- The requests that make a node, and those completed, as a step counts them. -/
theorem countP_pending (he : l.Enabled s) (hs : l.step s = .ok s') :
    s'.pending.countP (Request.creates n) + (if l.answersFor n then 1 else 0) =
      s.pending.countP (Request.creates n) + (if l.asksFor s n then 1 else 0) := by
  have haccepted : (l.accepted s).toList.countP (Request.creates n) =
      if l.asksFor s n then 1 else 0 := by
    unfold Label.asksFor
    cases l.accepted s with
    | none => rfl
    | some r => simp [List.countP_singleton]
  rw [step_pending hs, List.countP_append, haccepted]
  have hremaining : (l.remaining s).countP (Request.creates n) +
      (if l.answersFor n then 1 else 0) = s.pending.countP (Request.creates n) := by
    cases l with
    | deliver r c =>
      rw [(List.perm_cons_erase he.1).countP_eq, List.countP_cons]
      rfl
    | _ => rfl
  omega

/-! ## What the histories say -/

/-- A node that has not been made has no history; the requests in flight are those
asked for and not answered, each node has at most one; and a pooled node has the
flag it was told last. -/
structure Told (x : Manager × (NodeId → List NodeEvent)) : Prop where
  fresh : ∀ n, x.1.pool.nodes.Fresh n → x.2 n = []
  inFlight : ∀ n, x.1.pending.countP (Request.creates n) + (x.2 n).count .answered =
    (x.2 n).count .asked
  once : ∀ n, (x.2 n).count .asked ≤ 1
  flag : ∀ path n d, x.1.pool.pooled path = some (n, d) →
    d.exists_ = (lastTold (x.2 n)).getD false

/-- What is told is told to a node that has been made. -/
theorem not_fresh_of_tells (hsound : s.pool.Sound) (hsound' : s'.pool.Sound)
    (hs : l.step s = .ok s') (ht : l.tells s s' n = some b) : ¬ s'.pool.nodes.Fresh n := by
  by_cases hset : l.setsExists = false
  · rw [tells_of_not_setsExists hset] at ht
    obtain ⟨z, -, hz⟩ := Option.bind_eq_some_iff.mp ht
    obtain ⟨hlook, -⟩ := Option.ite_none_right_eq_some.mp hz
    obtain ⟨d, hl, -⟩ := hsound' _ _ hlook
    exact hl.not_fresh
  · cases l with
    | call c =>
      cases c with
      | setExists node b' =>
        obtain ⟨rfl, -⟩ := Option.ite_none_right_eq_some.mp ht
        obtain ⟨m, d, hm, hl, -⟩ := Pool.setExists_eq_ok.mp (step_pool hs)
        cases hm
        exact fun hf => hl.not_fresh (Pool.fresh_of_apply hsound (step_pool hs) hf)
      | _ => exact absurd rfl hset
    | _ => exact absurd rfl hset

/-- The flag of a pooled node after a step. -/
theorem flag_of_step (hP : Told x) (hsound : x.1.pool.Sound) (hsound' : s'.pool.Sound)
    (he : l.Enabled x.1) (hs : l.step x.1 = .ok s') (hn : s'.pool.pooled path = some (n, d)) :
    d.exists_ = ((l.tells x.1 s' n).or (lastTold (x.2 n))).getD false := by
  by_cases hset : l.setsExists = false
  · obtain ⟨d₀, ho⟩ := Pool.origin_of_apply hsound (enabled_pool he) (step_pool hs) hn
    have hbefore : d₀.exists_ = (lastTold (x.2 n)).getD false := by
      rcases ho.node with ⟨k₀, h₀⟩ | ⟨hf, hfalse⟩
      · exact hP.flag k₀ n d₀ h₀
      · rw [hP.fresh n hf, hfalse]
        rfl
    rw [tells_of_not_setsExists hset]
    cases hl : l.learns x.1 with
    | none =>
      rcases ho.exists_ with hd | hstores | hsets
      · rw [hd, hbefore]
        rfl
      · rw [storesExists_poolOp, hl] at hstores
        cases hstores
      · rw [setsExists_poolOp hset] at hsets
        cases hsets
    | some z =>
      rw [Option.bind_some]
      by_cases hz : s'.pool.lookup z.1 = some (some n)
      -- the answer is about this node
      · obtain rfl := hsound'.injective hz (Pool.pooled_eq_some.mp hn).1
        rw [if_pos hz]
        exact Pool.exists_of_stores hsound (step_pool hs) (storesExists_poolOp.trans hl) hn
      · rw [if_neg hz, Option.none_or, ← hbefore]
        rcases ho.exists_ with hd | hstores | hsets
        · exact hd
        · rw [storesExists_poolOp, hl] at hstores
          cases hstores
          exact absurd (Pool.pooled_eq_some.mp hn).1 hz
        · rw [setsExists_poolOp hset] at hsets
          cases hsets
  · cases l with
    | call c =>
      cases c with
      | setExists node b =>
        obtain ⟨m, e, rfl, hl, hpool⟩ := Pool.setExists_eq_ok.mp (step_pool hs)
        rw [hpool] at hn
        rcases Pool.pooled_put Pool.lookup_storeExists (Pool.nodes_storeExists hl) hn with
          ⟨rfl, rfl, -⟩ | ⟨hne, h₀⟩
        · simp [Label.tells]
        · have htells : (Label.call (.setExists (some m) b)).tells x.1 s' n = none :=
            if_neg fun heq => hne (Option.some.inj heq).symm
          rw [htells, Option.none_or]
          exact hP.flag path n d h₀
      | _ => exact absurd rfl hset
    | _ => exact absurd rfl hset

theorem told_init : Told witnessed.init where
  fresh _ _ := rfl
  inFlight _ := rfl
  once _ := Nat.zero_le _
  flag path n d hn := by cases hn

theorem Told.step (hP : Told x) (hsound : x.1.pool.Sound) (hsound' : y.1.pool.Sound)
    (he : witnessed.enabled l x) (hs : witnessed.step l x = .ok y) : Told y := by
  obtain ⟨hstep, hrec⟩ := withHistory_step.mp hs
  have hevents : ∀ n, y.2 n = x.2 n ++ l.nodeEvents x.1 y.1 n := congrFun hrec
  have hcount := fun n => countP_pending (n := n) he hstep
  refine ⟨?_, ?_, ?_, ?_⟩
  · intro n hf
    have hfresh := Pool.fresh_of_apply hsound (step_pool hstep) hf
    have hold := hP.fresh n hfresh
    have hinFlight := hP.inFlight n
    rw [hold] at hinFlight
    have hnone : x.1.pending.countP (Request.creates n) = 0 := hinFlight
    have hask : l.asksFor x.1 n = false := by
      rw [← Bool.not_eq_true]
      intro hask
      obtain ⟨type, hcreates⟩ := creates_of_asksFor hask
      exact Pool.not_fresh_of_creates (step_pool hstep) hcreates hf
    have hanswer : l.answersFor n = false := by
      rw [← Bool.not_eq_true]
      intro hanswer
      have hc := hcount n
      rw [hask, hanswer, hnone] at hc
      simp at hc
    have htells : l.tells x.1 y.1 n = none := by
      cases ht : l.tells x.1 y.1 n with
      | none => rfl
      | some b => exact absurd hf (not_fresh_of_tells hsound hsound' hstep ht)
    rw [hevents, hold]
    simp [Label.nodeEvents, hask, hanswer, htells]
  · intro n
    have hold := hP.inFlight n
    have hc := hcount n
    rw [hevents, List.count_append, List.count_append, count_asked_nodeEvents,
      count_answered_nodeEvents]
    omega
  · intro n
    rw [hevents, List.count_append, count_asked_nodeEvents]
    split
    · next hask =>
      obtain ⟨type, hcreates⟩ := creates_of_asksFor hask
      rw [hP.fresh n (Pool.fresh_of_creates (enabled_pool he) hcreates)]
      rfl
    · exact hP.once n
  · intro path n d hn
    rw [hevents, lastTold_append, lastTold_nodeEvents]
    exact flag_of_step hP hsound hsound' he hstep hn

/-- The histories of every reachable state say so. -/
theorem told_of_reachable (hx : witnessed.Reachable x) : Told x := by
  refine (hx.invariant (P := fun x => x.1.pool.Sound ∧ Told x) ⟨Pool.sound_init, told_init⟩ ?_).2
  intro x l y ⟨hsound, hP⟩ he hs
  have hsound' := hsound.apply (enabled_pool he) (step_pool (withHistory_step.mp hs).1)
  exact ⟨hsound', hP.step hsound hsound' he hs⟩

/-- A request that makes the node is in flight exactly if it is not answered. -/
theorem Told.inFlight_iff (hP : Told x) :
    (∃ r ∈ x.1.pending, r.creates n = true) ↔ Unanswered (x.2 n) := by
  have hinFlight := hP.inFlight n
  have honce := hP.once n
  rw [← List.countP_pos_iff, Unanswered, ← List.count_pos_iff, ← List.count_eq_zero]
  omega

end QtZooKeeper
