-- SUMMARY: Paths do not interfere: what a run makes of one path is what its steps about that path make of it.
import QtZooKeeper.Base.Components
import QtZooKeeper.Manager.Cells
import QtZooKeeper.Manager.Outputs
import QtZooKeeper.Verification.PathEncoding
import Mathlib.Data.Fintype.EquivFin

/-!
# Independent paths

All paths share one table, one heap and one list of signals. A call or a completion
about one path nevertheless sees and changes only what there is of that path, as
long as the server reports created paths as requested: the manager is a system of
components, one for each path (`pathComponents`).
-/

namespace QtZooKeeper

open FallibleSystem

variable {c : Call} {l m : Label} {s s' t t' : Manager} {j k : QString} {r : Request}

/-! ## The path of a step -/

namespace Label

/-- The path a call or a completion is about. -/
def subject : Label → Option QString
  | call c => c.named
  | deliver r _ => some r.path
  | _ => none

/-- The path a step reports for a created one, and the path that was requested. -/
def reported : Label → Option (QString × QString)
  | call (.createNodeSync a ret newPath _) => if ret = 0 then some (newPath, a.path) else none
  | deliver r (.create _ name) => some (Pool.reportedPath name r.path, r.path)
  | _ => none

/-- The step is a call or a completion about one path, and reports no other path. -/
structure Local (l : Label) : Prop where
  subject : l.subject ≠ none
  asRequested : ∀ x ∈ l.reported, x.1 = x.2

instance (l : Label) : Decidable l.Local :=
  decidable_of_iff (l.subject ≠ none ∧ ∀ x ∈ l.reported, x.1 = x.2)
    ⟨fun h => ⟨h.1, h.2⟩, fun h => ⟨h.subject, h.asRequested⟩⟩

/-- The operation on the pool is one at the path of the step. -/
theorem Local.at (hl : l.Local) (hk : l.subject = some k) : (l.poolOp s).At k := by
  cases l with
  | call c =>
    cases c with
    | createNode a ret ctx n =>
      rcases Call.poolOp_createNode s a ret ctx n with hop | ⟨-, -, hop⟩
      · rw [poolOp, hop]
        trivial
      · rw [poolOp, hop]
        exact Option.some.inj hk
    | createNodeSync a ret newPath n =>
      rcases Call.poolOp_createNodeSync s a ret newPath n with hop | ⟨-, hret, hop⟩
      · rw [poolOp, hop]
        trivial
      · have hpath : a.path = k := Option.some.inj hk
        have hreported : newPath = a.path := by
          refine hl.asRequested (newPath, a.path) ?_
          simp [reported, ZooKeeperError.ofInt_eq_noError.mp hret]
        rw [poolOp, hop]
        exact ⟨hpath, hreported.trans hpath⟩
    | deleteNode | deleteNodeSync | getNodeValue | getNodeValueSync | wgetNodeValue =>
      exact Option.some.inj hk
    | setExists => cases hk
    | _ => trivial
  | deliver r c =>
    have hpath : r.path = k := Option.some.inj hk
    cases c with
    | create rc name =>
      have hreported : Pool.reportedPath name r.path = r.path := hl.asRequested _ rfl
      exact ⟨hpath, hreported.trans hpath⟩
    | get rc value => exact hpath
    | _ => trivial
  | _ => trivial

end Label

/-! ## What there is of a path -/

/-- What the manager has of one path: what the pool has, and the requests in flight.
The fields of the session are those a call looks at. -/
structure Part where
  view : PathView
  pending : List Request
  destroyed : Bool
  closing : Option HandleId

def Manager.part (s : Manager) (k : QString) : Part where
  view := s.pool.view k
  pending := s.pending.filter fun r => r.path = k
  destroyed := s.session.destroyed
  closing := s.session.closing

/-- What a step does is determined by the entry of its path. -/
structure Label.Agrees (l : Label) (s t : Manager) : Prop where
  poolOp : l.poolOp s = l.poolOp t
  accepted : l.accepted s = l.accepted t
  allocates : l.allocates s = l.allocates t

theorem Label.agrees (hk : l.subject = some k) (hlook : s.pool.lookup k = t.pool.lookup k) :
    l.Agrees s t := by
  have hc : s.pool.contains k = t.pool.contains k := congrArg Option.isSome hlook
  cases l with
  | call c =>
    cases c with
    | createNode a ret ctx n | createNodeSync a ret newPath n =>
      obtain rfl : a.path = k := Option.some.inj hk
      constructor
      · simp only [Label.poolOp, Call.poolOp, hc]
      · simp only [Label.accepted, Call.accepted, hc]
      · simp only [Label.allocates, Call.allocates, hc]
    | getNodeValue path callback wantsError ret ctx n =>
      obtain rfl : path = k := Option.some.inj hk
      have hv : s.pool.value path = t.pool.value path :=
        congrArg (fun e => Option.getD e default) hlook
      have hnode : (s.pool.readNode path n).1 = (t.pool.readNode path n).1 := by
        simp only [Pool.readNode, hc, hv]
        split <;> rfl
      refine ⟨rfl, ?_, rfl⟩
      simp only [Label.accepted, Call.accepted, hnode]
    | _ => exact ⟨rfl, rfl, rfl⟩
  | deliver r c => cases c <;> exact ⟨rfl, rfl, rfl⟩
  | _ => cases hk

/-- A call or a completion neither destroys the manager nor closes a handle. -/
theorem session_of_subject (hk : l.subject = some k) (hs : l.step s = .ok s') :
    s'.session.destroyed = s.session.destroyed ∧ s'.session.closing = s.session.closing := by
  rw [step_session hs]
  cases l with
  | call c =>
    rcases sessionOp_of_named s hk with ⟨-, hop⟩ | ⟨fn, args, -, hop⟩
    · rw [Label.sessionOp, hop]
      exact ⟨rfl, rfl⟩
    · rw [Label.sessionOp, hop]
      exact ⟨rfl, rfl⟩
  | deliver r c => exact ⟨rfl, rfl⟩
  | _ => cases hk

/-- The request a step brings into flight is one about its path. -/
theorem path_of_accepted (hk : l.subject = some k) (hr : l.accepted s = some r) : r.path = k := by
  cases l with
  | call c =>
    simp only [Label.accepted] at hr
    cases c with
    | createNode a ret ctx n =>
      simp only [Call.accepted] at hr
      split at hr
      · cases hr
      · split at hr
        · cases hr
          exact Option.some.inj hk
        · cases hr
    | deleteNode | existsNode | setNodeValue | getNodeValue | getChildrenNode =>
      simp only [Call.accepted, Option.ite_none_right_eq_some, Option.some.injEq] at hr
      obtain ⟨-, rfl⟩ := hr
      exact Option.some.inj hk
    | _ => cases hr
  | _ => cases hr

/-- The requests in flight about its own path after a step. -/
theorem pending_at (hs : l.step s = .ok s') (hs' : l.step t = .ok t') (ha : l.Agrees s t)
    (hpending : s.pending.filter (fun r => r.path = k) = t.pending.filter (fun r => r.path = k)) :
    s'.pending.filter (fun r => r.path = k) = t'.pending.filter (fun r => r.path = k) := by
  rw [step_pending hs, step_pending hs', ← ha.accepted, List.filter_append, List.filter_append]
  congr 1
  cases l with
  | deliver r c =>
    simp only [Label.remaining]
    rw [← List.erase_filter, ← List.erase_filter, hpending]
  | _ => exact hpending

/-- The requests in flight about other paths stay. -/
theorem pending_other (hk : l.subject = some k) (hs : l.step s = .ok s') (hj : j ≠ k) :
    s'.pending.filter (fun r => r.path = j) = s.pending.filter (fun r => r.path = j) := by
  have haccepted : (l.accepted s).toList.filter (fun r => r.path = j) = [] := by
    rw [List.filter_eq_nil_iff]
    intro r hr
    have hpath := path_of_accepted hk (Option.mem_toList.mp hr)
    simp [hpath, hj.symm]
  rw [step_pending hs, List.filter_append, haccepted, List.append_nil]
  cases l with
  | deliver r c =>
    have hpath : r.path = k := Option.some.inj hk
    simp only [Label.remaining]
    rw [← List.erase_filter]
    exact List.erase_of_not_mem (by simp [hpath, hj.symm])
  | _ => rfl

/-- A step that went through elsewhere goes through where its operation on the pool
does. -/
theorem exists_step {q : Pool} (hs : l.step s = .ok s') (hk : l.subject ≠ none)
    (hq : (l.poolOp t).apply t.pool = .ok q) : ∃ t', l.step t = .ok t' := by
  cases l with
  | call c =>
    cases c with
    | deleteNode path ret ctx =>
      exact ⟨_, Except.map_eq_ok.mpr ⟨_, Except.bind_eq_ok.mpr ⟨q, hq, rfl⟩, rfl⟩⟩
    | deleteNodeSync path ret =>
      exact ⟨_, Except.map_eq_ok.mpr ⟨_, Except.bind_eq_ok.mpr ⟨q, hq, rfl⟩, rfl⟩⟩
    | getNodeValueSync path wantsError r n =>
      -- the buffer is the client's, whatever the state
      obtain ⟨_, hget, -⟩ := Except.map_eq_ok.mp hs
      obtain ⟨v, hv, -⟩ := Except.bind_eq_ok.mp hget
      obtain rfl := Manager.readValue_eq_ok hv
      obtain ⟨z, hz, rfl⟩ := Except.map_eq_ok.mp hq
      exact ⟨_, Except.map_eq_ok.mpr
        ⟨_, Except.bind_eq_ok.mpr ⟨_, hv, Except.bind_eq_ok.mpr ⟨z, hz, rfl⟩⟩, rfl⟩⟩
    | wgetNodeValue path callback r ctx n =>
      obtain ⟨_, hget, -⟩ := Except.map_eq_ok.mp hs
      obtain ⟨v, hv, -⟩ := Except.bind_eq_ok.mp hget
      obtain rfl := Manager.readValue_eq_ok hv
      obtain ⟨z, hz, rfl⟩ := Except.map_eq_ok.mp hq
      exact ⟨_, Except.map_eq_ok.mpr
        ⟨_, Except.bind_eq_ok.mpr ⟨_, hv, Except.bind_eq_ok.mpr ⟨z, hz, rfl⟩⟩, rfl⟩⟩
    | setExists => exact absurd rfl hk
    | _ => exact ⟨_, rfl⟩
  | deliver r c =>
    obtain ⟨t', ht, -⟩ := exists_step_deliver hq
    exact ⟨t', ht⟩
  | _ => exact absurd rfl hk

/-! ## The addresses of a step -/

/-- An address of a node object or of a context object. -/
abbrev Address := NodeId ⊕ CtxId

/-- The address is in use. -/
def Manager.Used (s : Manager) : Address → Prop
  | .inl n => ¬ s.pool.nodes.Fresh n
  | .inr ctx => ctx ∈ s.allocated

/-- The addresses a step may use. -/
def Label.addresses : Label → List Address
  | call c => c.newNode.toList.map .inl ++ c.newCtx.toList.map .inr
  | _ => []

theorem Label.mem_addresses {a : Address} : a ∈ l.addresses ↔
    ∃ c, l = .call c ∧ ((∃ n, c.newNode = some n ∧ a = .inl n) ∨
      ∃ ctx, c.newCtx = some ctx ∧ a = .inr ctx) := by
  cases l with
  | call c => simp [addresses, eq_comm]
  | _ => simp [addresses]

/-- An operation on the pool makes its node where the call says. -/
theorem newNode_of_poolOp {n : NodeId} (h : (l.poolOp s).newNode = some n) :
    .inl n ∈ l.addresses := by
  cases l with
  | call c =>
    rw [Label.mem_addresses]
    refine ⟨c, rfl, .inl ⟨n, ?_, rfl⟩⟩
    cases c with
    | createNode a ret ctx m =>
      rcases Call.poolOp_createNode s a ret ctx m with hop | ⟨-, -, hop⟩
      · rw [Label.poolOp, hop] at h
        cases h
      · rw [Label.poolOp, hop] at h
        exact h
    | createNodeSync a ret newPath m =>
      rcases Call.poolOp_createNodeSync s a ret newPath m with hop | ⟨-, -, hop⟩
      · rw [Label.poolOp, hop] at h
        cases h
      · rw [Label.poolOp, hop] at h
        exact h
    | getNodeValue | getNodeValueSync | wgetNodeValue => exact h
    | _ => cases h
  | deliver r c => cases c <;> cases h
  | watcher =>
    simp only [Label.poolOp] at h
    split at h <;> cases h
  | _ => cases h

theorem Call.newCtx_of_allocates {ctx : CtxId} (h : c.allocates s = some ctx) :
    c.newCtx = some ctx := by
  cases c with
  | createNode =>
    simp only [allocates] at h
    split at h
    · cases h
    · exact h
  | _ => exact h

theorem newCtx_of_allocates {ctx : CtxId} (h : l.allocates s = some ctx) :
    .inr ctx ∈ l.addresses := by
  cases l with
  | call c =>
    rw [Label.mem_addresses]
    exact ⟨c, rfl, .inr ⟨ctx, Call.newCtx_of_allocates h, rfl⟩⟩
  | _ => cases h

theorem unused_of_enabled (he : l.Enabled s) : ∀ a ∈ l.addresses, ¬ s.Used a := by
  intro a ha
  obtain ⟨c, rfl, ⟨n, hn, rfl⟩ | ⟨ctx, hctx, rfl⟩⟩ := Label.mem_addresses.mp ha
  · exact not_not.mpr (he.2.2.1 n hn)
  · exact he.2.2.2.1 ctx hctx

theorem used_of_step (h : system.Reachable s) (hs : l.step s = .ok s') :
    ∀ a, s.Used a → s'.Used a := by
  intro a ha
  cases a with
  | inl n => exact fun hf => ha (Pool.fresh_of_apply (sound_of_reachable h) (step_pool hs) hf)
  | inr ctx =>
    simp only [Manager.Used, (Label.output hs).allocated]
    exact List.mem_append_left _ ha

theorem used_or_mem_addresses (h : system.Reachable s) (hs : l.step s = .ok s') :
    ∀ a, s'.Used a → s.Used a ∨ a ∈ l.addresses := by
  intro a ha
  cases a with
  | inl n =>
    have hgrown := Pool.grown_of_apply (sound_of_reachable h) (step_pool hs)
    exact (hgrown.nodes n ha).imp_right newNode_of_poolOp
  | inr ctx =>
    simp only [Manager.Used, (Label.output hs).allocated, List.mem_append, Option.mem_toList] at ha
    exact ha.imp_right newCtx_of_allocates

/-! ## A step and the parts of the paths -/

theorem signalled_of_reachable (h : system.Reachable s) : s.pool.Signalled := by
  obtain ⟨_, hr⟩ := h
  exact Pool.signalled_of_reachable ⟨_, run_pool hr⟩

theorem Call.newHandle_of_named (hk : c.named = some k) : c.newHandle = none := by
  cases c <;> first | rfl | cases hk

/-- Whether a step about a path can be taken is seen from the path and the addresses. -/
theorem enabled_of_part (hk : l.subject = some k) (hpart : s.part k = t.part k) (he : l.Enabled s)
    (hfree : ∀ a ∈ l.addresses, ¬ t.Used a) : l.Enabled t := by
  cases l with
  | call c =>
    have hdestroyed : s.session.destroyed = t.session.destroyed := congrArg Part.destroyed hpart
    have hclosing : s.session.closing = t.session.closing := congrArg Part.closing hpart
    refine ⟨hdestroyed ▸ he.1, hclosing ▸ he.2.1, ?_, ?_, ?_⟩
    · intro n hn
      have hmem : Sum.inl n ∈ (Label.call c).addresses :=
        Label.mem_addresses.mpr ⟨c, rfl, .inl ⟨n, hn, rfl⟩⟩
      exact not_not.mp (hfree _ hmem)
    · intro ctx hctx
      have hmem : Sum.inr ctx ∈ (Label.call c).addresses :=
        Label.mem_addresses.mpr ⟨c, rfl, .inr ⟨ctx, hctx, rfl⟩⟩
      exact hfree _ hmem
    · intro zh hzh
      rw [Call.newHandle_of_named hk] at hzh
      cases hzh
  | deliver r c =>
    have hpath : r.path = k := Option.some.inj hk
    have hpending : s.pending.filter (fun r => r.path = k) = t.pending.filter fun r => r.path = k :=
      congrArg Part.pending hpart
    have hmem : r ∈ t.pending.filter fun r => r.path = k := by
      rw [← hpending]
      exact List.mem_filter.mpr ⟨he.1, by simp [hpath]⟩
    exact ⟨List.mem_of_mem_filter hmem, he.2⟩
  | _ => cases hk

/-- A step does the same at its path in states that have the same of it. -/
theorem step_at (h : system.Reachable s) (h' : system.Reachable t) (hl : l.Local)
    (hk : l.subject = some k) (hpart : s.part k = t.part k) (he : l.Enabled s) (he' : l.Enabled t)
    (hs : l.step s = .ok s') : ∃ t', l.step t = .ok t' ∧ s'.part k = t'.part k ∧
      ∀ a, t'.Used a → t.Used a ∨ s'.Used a := by
  have hview : s.pool.view k = t.pool.view k := congrArg Part.view hpart
  have hagrees := Label.agrees hk (congrArg PathView.entry hview)
  have hat := hl.at (s := s) hk
  have hpool := enabled_pool he'
  rw [← hagrees.poolOp] at hpool
  obtain ⟨q, hq, hview'⟩ := Pool.view_apply (sound_of_reachable h) (sound_of_reachable h')
    (signalled_of_reachable h) (signalled_of_reachable h') (enabled_pool he) hpool hat hview
    (step_pool hs)
  obtain ⟨t', hs'⟩ := exists_step hs hl.subject (hagrees.poolOp ▸ hq)
  have hq' := step_pool hs'
  rw [← hagrees.poolOp, hq] at hq'
  obtain rfl := Except.ok.inj hq'
  refine ⟨t', hs', ?_, ?_⟩
  · obtain ⟨hdestroyed, hclosing⟩ := session_of_subject hk hs
    obtain ⟨hdestroyed', hclosing'⟩ := session_of_subject hk hs'
    have hpending := pending_at hs hs' hagrees (congrArg Part.pending hpart)
    simp only [Manager.part, hview', hpending, hdestroyed, hclosing, hdestroyed', hclosing',
      Part.mk.injEq, true_and]
    exact ⟨congrArg Part.destroyed hpart, congrArg Part.closing hpart⟩
  · intro a ha
    cases a with
    | inl n =>
      by_cases hf : t.pool.nodes.Fresh n
      · -- a new node of the path, which is then one of the path here as well
        obtain ⟨ch, -, hc⟩ := Pool.changed_of_apply (sound_of_reachable h') hpool hat hq
        obtain ⟨o, ho⟩ := Option.ne_none_iff_exists'.mp ha
        have hnew := Pool.nodesOf_eq_some.mpr ⟨ho, hc.path_of_new hf ho⟩
        have hobjects : s'.pool.nodesOf k = t'.pool.nodesOf k := congrArg PathView.objects hview'
        rw [← hobjects] at hnew
        refine .inr fun hfresh => ?_
        cases (Pool.nodesOf_eq_some.mp hnew).1.symm.trans hfresh
      · exact .inl hf
    | inr ctx =>
      simp only [Manager.Used, (Label.output hs').allocated, List.mem_append] at ha
      refine ha.imp_right fun hctx => ?_
      simp only [Manager.Used, (Label.output hs).allocated, hagrees.allocates, List.mem_append]
      exact .inr hctx

/-- It leaves the parts of the other paths. -/
theorem step_other (h : system.Reachable s) (hl : l.Local) (hk : l.subject = some k)
    (he : l.Enabled s) (hs : l.step s = .ok s') (hj : j ≠ k) : s.part j = s'.part j := by
  obtain ⟨hdestroyed, hclosing⟩ := session_of_subject hk hs
  have hview := Pool.view_apply_other (sound_of_reachable h) (enabled_pool he) (hl.at hk)
    (step_pool hs) hj
  have hpending := pending_other hk hs hj
  simp only [Manager.part, hview, hpending, hdestroyed, hclosing]

/-- The manager as a system of paths. -/
def pathComponents : Components system (Option QString) Address where
  local_ := Label.Local
  subject := Label.subject
  same k s t := ∀ p ∈ k, s.part p = t.part p
  used := Manager.Used
  names := Label.addresses
  equivalence k := {
    refl := fun s p _ => rfl
    symm := fun h p hp => (h p hp).symm
    trans := fun h h' p hp => (h p hp).trans (h' p hp) }
  room _ he := unused_of_enabled he
  keeps h _ _ hs := used_of_step h hs
  grows h _ _ hs := used_or_mem_addresses h hs
  step := by
    intro l s s' t h h' hl hsame he hs hfree
    obtain ⟨k, hk⟩ := Option.ne_none_iff_exists'.mp hl.subject
    have hpart := hsame k hk
    have he' := enabled_of_part hk hpart he hfree
    obtain ⟨t', hs', hpart', hused⟩ := step_at h h' hl hk hpart he he' hs
    refine ⟨he', t', hs', ?_, hused⟩
    intro p hp
    obtain rfl := Option.some.inj (hk.symm.trans hp)
    exact hpart'
  other := by
    intro l s s' k h hl he hs hne p hp
    obtain ⟨k', hk'⟩ := Option.ne_none_iff_exists'.mp hl.subject
    refine step_other h hl hk' he hs ?_
    rintro rfl
    exact hne (hp.trans hk'.symm)

/-! ## Other addresses -/

/-- The same call with other addresses for the objects it may make. -/
def Call.readdress (n : NodeId) (ctx : CtxId) : Call → Call
  | createNode a ret _ _ => createNode a ret ctx n
  | createNodeSync a ret newPath _ => createNodeSync a ret newPath n
  | deleteNode path ret _ => deleteNode path ret ctx
  | existsNode path ret _ => existsNode path ret ctx
  | setNodeValue path value ret _ => setNodeValue path value ret ctx
  | getNodeValue path callback wantsError ret _ _ => getNodeValue path callback wantsError ret ctx n
  | getNodeValueSync path wantsError r _ => getNodeValueSync path wantsError r n
  | wgetNodeValue path callback r _ _ => wgetNodeValue path callback r ctx n
  | getChildrenNode path callback ret _ => getChildrenNode path callback ret ctx
  | wgetChildrenNode path callback ret strings _ => wgetChildrenNode path callback ret strings ctx
  | c => c

def Label.readdress (n : NodeId) (ctx : CtxId) : Label → Label
  | call c => call (c.readdress n ctx)
  | l => l

/-- The labels are the same but for the addresses of objects that may be made. -/
def Label.Readdressed (l m : Label) : Prop := ∃ n ctx, m = l.readdress n ctx

theorem Label.Readdressed.subject (h : l.Readdressed m) : m.subject = l.subject := by
  obtain ⟨n, ctx, rfl⟩ := h
  cases l with
  | call c => cases c <;> rfl
  | _ => rfl

theorem Label.Readdressed.local (h : l.Readdressed m) (hl : l.Local) : m.Local := by
  refine ⟨h.subject ▸ hl.subject, ?_⟩
  have hrequested := hl.asRequested
  obtain ⟨n, ctx, rfl⟩ := h
  cases l with
  | call c =>
    cases c with
    | createNodeSync => exact hrequested
    | _ => rintro x ⟨⟩
  | _ => exact hrequested

/-- There is an address of each kind that is not in use and not on a list. -/
theorem exists_unused (h : system.Reachable s) (avoid : List Address) : ∃ n ctx,
    (s.pool.nodes.Fresh n ∧ .inl n ∉ avoid) ∧ (ctx ∉ s.allocated ∧ .inr ctx ∉ avoid) := by
  obtain ⟨_, hr⟩ := h
  obtain ⟨used, hused⟩ := Pool.finite_of_reachable ⟨_, run_pool hr⟩
  obtain ⟨n, hn⟩ := Infinite.exists_notMem_finset (used ++ avoid.filterMap Sum.getLeft?).toFinset
  obtain ⟨ctx, hctx⟩ :=
    Infinite.exists_notMem_finset (s.allocated ++ avoid.filterMap Sum.getRight?).toFinset
  simp only [List.mem_toFinset, List.mem_append, List.mem_filterMap, Sum.getLeft?_eq_some_iff,
    exists_eq_right, not_or] at hn
  simp only [List.mem_toFinset, List.mem_append, List.mem_filterMap, Sum.getRight?_eq_some_iff,
    exists_eq_right, not_or] at hctx
  exact ⟨n, ctx, ⟨not_not.mp fun hf => hn.1 (hused n hf), hn.2⟩, hctx⟩

theorem Label.nodup_addresses : l.addresses.Nodup := by
  cases l with
  | call c =>
    rw [addresses, List.nodup_append]
    refine ⟨?_, ?_, by simp⟩
    · cases c.newNode <;> simp
    · cases c.newCtx <;> simp
  | _ => exact List.nodup_nil

/-- A reader of a pooled path makes no node. -/
theorem readNode_of_contains {p : Pool} (hc : p.contains k = true) (n n' : NodeId) :
    p.readNode k n' = p.readNode k n := by
  rw [Pool.readNode, Pool.readNode, if_pos hc, if_pos hc]

theorem readNodeSync_of_contains {p : Pool} {error : ZooKeeperError} {value : QByteArray}
    (hc : p.contains k = true) (n n' : NodeId) :
    p.readNodeSync k n' error value = p.readNodeSync k n error value := by
  rw [Pool.readNodeSync, Pool.readNodeSync, readNode_of_contains hc n n']

/-- The address at which a call makes a node, if it makes one. -/
def Call.makes (s : Manager) : Call → Option NodeId
  | createNode a ret _ n | createNodeSync a ret _ n =>
    if s.pool.contains a.path then none
    else if ZooKeeperError.ofInt ret = .noError then some n
    else none
  | getNodeValue path _ _ _ _ n | getNodeValueSync path _ _ n | wgetNodeValue path _ _ _ n =>
    if s.pool.contains path then none else some n
  | _ => none

/-- A call that makes a node is on a path that was not pooled. -/
theorem Call.makes_spec (h : c.makes s = some n) : c.newNode = some n ∧
    (c.poolOp s).newNode = some n ∧ ∃ k, c.named = some k ∧ ¬ s.pool.contains k = true := by
  cases c with
  | createNode a ret ctx m =>
    simp only [makes, Option.ite_none_left_eq_some, Option.ite_none_right_eq_some] at h
    obtain ⟨hc, hret, hm⟩ := h
    refine ⟨hm, ?_, a.path, rfl, hc⟩
    rw [poolOp, if_neg hc, if_pos hret]
    exact hm
  | createNodeSync a ret newPath m =>
    simp only [makes, Option.ite_none_left_eq_some, Option.ite_none_right_eq_some] at h
    obtain ⟨hc, hret, hm⟩ := h
    refine ⟨hm, ?_, a.path, rfl, hc⟩
    rw [poolOp, if_neg hc, if_pos hret]
    exact hm
  | getNodeValue path _ _ _ _ m | getNodeValueSync path _ _ m | wgetNodeValue path _ _ _ m =>
    simp only [makes, Option.ite_none_left_eq_some] at h
    exact ⟨h.2, h.2, path, rfl, h.1⟩
  | _ => cases h

/-- With other addresses in place of those it does not use a call does the same. -/
theorem Call.run_readdress (hn : ∀ m, c.makes s = some m → n = m)
    (hctx : ∀ x, c.allocates s = some x → ctx = x) : (c.readdress n ctx).run s = c.run s := by
  cases c with
  | createNode a ret x m =>
    by_cases hc : s.pool.contains a.path = true
    · simp only [readdress, run, Manager.createNode, if_pos hc]
    · obtain rfl := hctx x (if_neg hc)
      by_cases hret : ZooKeeperError.ofInt ret = .noError
      · obtain rfl := hn m ((if_neg hc).trans (if_pos hret))
        rfl
      -- a refused create makes a context only
      · have hret' : ret ≠ 0 := fun h0 => hret (ZooKeeperError.ofInt_eq_noError.mpr h0)
        simp only [readdress, run, Manager.createNode, if_neg hc, if_neg hret,
          Manager.submitCreate, Manager.submit, if_neg hret']
  | createNodeSync a ret newPath m =>
    by_cases hc : s.pool.contains a.path = true
    · simp only [readdress, run, Manager.createNodeSync, if_pos hc]
    · by_cases hret : ZooKeeperError.ofInt ret = .noError
      · obtain rfl := hn m ((if_neg hc).trans (if_pos hret))
        rfl
      · simp only [readdress, run, Manager.createNodeSync, if_neg hc, if_neg hret]
  | getNodeValue path callback wantsError ret x m =>
    obtain rfl := hctx x rfl
    by_cases hc : s.pool.contains path = true
    · simp only [readdress, run, Manager.getNodeValue, readNode_of_contains hc m n]
    · obtain rfl := hn m (if_neg hc)
      rfl
  | getNodeValueSync path wantsError r m =>
    by_cases hc : s.pool.contains path = true
    · simp only [readdress, run, Manager.getNodeValueSync, readNodeSync_of_contains hc m n]
    · obtain rfl := hn m (if_neg hc)
      rfl
  | wgetNodeValue path callback r x m =>
    obtain rfl := hctx x rfl
    by_cases hc : s.pool.contains path = true
    · simp only [readdress, run, Manager.wgetNodeValue, readNodeSync_of_contains hc m n]
    · obtain rfl := hn m (if_neg hc)
      rfl
  | deleteNode _ _ x | existsNode _ _ x | setNodeValue _ _ _ x | getChildrenNode _ _ _ x
  | wgetChildrenNode _ _ _ _ x =>
    obtain rfl := hctx x rfl
    rfl
  | _ => rfl

theorem Call.newNode_readdress {i : NodeId} (h : (c.readdress n ctx).newNode = some i) : i = n := by
  cases c <;> cases h <;> rfl

theorem Call.newCtx_readdress {x : CtxId} (h : (c.readdress n ctx).newCtx = some x) : x = ctx := by
  cases c <;> cases h <;> rfl

/-- A call can be made with any other addresses in place of those it does not use. -/
theorem exists_readdressed (h : system.Reachable s) (hl : (Label.call c).Local)
    (he : (Label.call c).Enabled s) (hs : c.run s = .ok s') (n' : NodeId) (ctx' : CtxId) :
    ∃ n ctx, (c.readdress n ctx).run s = .ok s' ∧
      (∀ i, (c.readdress n ctx).newNode = some i →
        i = n' ∨ c.newNode = some i ∧ s'.Used (.inl i)) ∧
      ∀ x, (c.readdress n ctx).newCtx = some x →
        x = ctx' ∨ c.newCtx = some x ∧ s'.Used (.inr x) := by
  refine ⟨(c.makes s).getD n', (c.allocates s).getD ctx', ?_, ?_, ?_⟩
  · rw [Call.run_readdress (fun m hm => by rw [hm]; rfl) (fun x hx => by rw [hx]; rfl)]
    exact hs
  · intro i hi
    obtain rfl := Call.newNode_readdress hi
    cases hm : c.makes s with
    | none => exact .inl rfl
    | some m =>
      obtain ⟨hnew, hop, k, hk, hc⟩ := Call.makes_spec hm
      refine .inr ⟨hnew, ?_⟩
      exact Pool.used_of_missing (sound_of_reachable h) (enabled_pool he) (hl.at hk)
        (step_pool (l := .call c) hs) (Pool.not_contains_iff.mp hc) hop
  · intro x hx
    obtain rfl := Call.newCtx_readdress hx
    cases hm : c.allocates s with
    | none => exact .inl rfl
    | some y =>
      refine .inr ⟨Call.newCtx_of_allocates hm, ?_⟩
      simp only [Manager.Used, (Call.output hs).allocated, Label.allocates, hm]
      simp

/-- A step can be taken with addresses that it uses, or that are not on a list. -/
theorem exists_readdressed_step (h : system.Reachable s) (hl : l.Local) (he : l.Enabled s)
    (hs : l.step s = .ok s') (avoid : List Address) : ∃ m, l.Readdressed m ∧ m.Enabled s ∧
      m.step s = .ok s' ∧ m.addresses.Nodup ∧ ∀ a ∈ m.addresses, s'.Used a ∨ a ∉ avoid := by
  obtain ⟨n', ctx', ⟨hfresh, hn'⟩, hunused, hctx'⟩ := exists_unused h avoid
  cases l with
  | call c =>
    obtain ⟨n, ctx, hrun, hnode, hctx⟩ := exists_readdressed h hl he hs n' ctx'
    have hm : (Label.call c).Readdressed (.call (c.readdress n ctx)) := ⟨n, ctx, rfl⟩
    refine ⟨_, hm, ⟨he.1, he.2.1, ?_, ?_, ?_⟩, hrun, Label.nodup_addresses, ?_⟩
    · intro i hi
      rcases hnode i hi with rfl | ⟨hi, -⟩
      · exact hfresh
      · exact he.2.2.1 i hi
    · intro x hx
      rcases hctx x hx with rfl | ⟨hx, -⟩
      · exact hunused
      · exact he.2.2.2.1 x hx
    · intro zh hzh
      obtain ⟨k, hk⟩ := Option.ne_none_iff_exists'.mp (hm.local hl).subject
      rw [Call.newHandle_of_named hk] at hzh
      cases hzh
    · intro a ha
      obtain ⟨_, hcall, ⟨i, hi, rfl⟩ | ⟨x, hx, rfl⟩⟩ := Label.mem_addresses.mp ha
      · cases hcall
        rcases hnode i hi with rfl | ⟨-, hused⟩
        · exact .inr hn'
        · exact .inl hused
      · cases hcall
        rcases hctx x hx with rfl | ⟨-, hused⟩
        · exact .inr hctx'
        · exact .inl hused
  | deliver r c => exact ⟨_, ⟨n', ctx', rfl⟩, he, hs, List.nodup_nil, by rintro a ⟨⟩⟩
  | _ => exact absurd rfl hl.subject

theorem pathComponents_renames : pathComponents.Renames Label.Readdressed where
  local_ h hl := h.local hl
  subject h := h.subject
  other h hl he hs avoid := exists_readdressed_step h hl he hs avoid

/-! ## Runs -/

/-- The steps of a run about one path. -/
def about (p : QString) (ls : List Label) : List Label := ls.filter fun l => l.subject = some p

/-- The order `ls'` of the steps `ls` leaves the steps about each path in theirs. -/
structure Reordered (ls ls' : List Label) : Prop where
  perm : ls'.Perm ls
  about : ∀ p, about p ls' = about p ls

/-- Neighbouring steps about different paths change places. -/
theorem Reordered.swap {ls ks : List Label} (h : l.subject ≠ m.subject) :
    Reordered (ls ++ l :: m :: ks) (ls ++ m :: l :: ks) where
  perm := (List.Perm.swap l m ks).append_left ls
  about p := by
    simp only [QtZooKeeper.about, List.filter_append, List.filter_cons, decide_eq_true_eq]
    by_cases hl : l.subject = some p
    · have hm : m.subject ≠ some p := fun hm => h (hl.trans hm.symm)
      simp [hl, hm]
    · simp [hl]

theorem Reordered.about_eq {ls ls' : List Label} (h : Reordered ls ls')
    (hl : ∀ l ∈ ls, l.Local) (k : Option QString) :
    pathComponents.about k ls' = pathComponents.about k ls := by
  cases k with
  | some p => exact h.about p
  | none =>
    have hnone : ∀ ks : List Label, (∀ l ∈ ks, l.Local) → pathComponents.about none ks = [] := by
      intro ks hks
      refine List.filter_eq_nil_iff.mpr ?_
      intro l hmem hk
      exact (hks l hmem).subject (of_decide_eq_true hk)
    rw [hnone ls hl, hnone ls' fun l hmem => hl l (h.perm.mem_iff.mp hmem)]

/-- Paths do not interfere. In a run of calls and completions in which every created
path is reported as requested, the entry of a path, its nodes with their fields and
their signals are those of the run of the steps about that path alone. Every other
order of the steps that leaves those about each path in theirs has the same outcome
for every path where it can be taken, and it can be taken once addresses that were
not used are chosen anew. -/
theorem paths_independent {ls : List Label} (hs : system.Reachable s) (h : system.Leads s ls s')
    (hl : ∀ l ∈ ls, l.Local) :
    (∀ p, ∃ t, system.Leads s (about p ls) t ∧ t.pool.view p = s'.pool.view p) ∧
    ∀ ls', Reordered ls ls' →
      (∀ t, system.Leads s ls' t → ∀ p, t.pool.view p = s'.pool.view p) ∧
      ∃ ms t, List.Forall₂ Label.Readdressed ls' ms ∧ system.Leads s ms t ∧
        ∀ p, t.pool.view p = s'.pool.view p := by
  -- what is the same of a path includes its view
  have hview : ∀ {p t}, pathComponents.same (some p) s' t → t.pool.view p = s'.pool.view p :=
    fun hsame => (congrArg Part.view (hsame _ rfl)).symm
  refine ⟨?_, ?_⟩
  · intro p
    obtain ⟨t, ht, hsame, -⟩ := Components.leads_about (C := pathComponents) hs h hl (some p)
    exact ⟨t, ht, hview hsame⟩
  · intro ls' hre
    have hl' : ∀ l ∈ ls', l.Local := fun l hmem => hl l (hre.perm.mem_iff.mp hmem)
    refine ⟨?_, ?_⟩
    · intro t ht p
      exact hview (Components.same_of_about_eq (C := pathComponents) hs h ht hl hl' (hre.about p))
    · obtain ⟨ms, t, hms, ht, hsame⟩ := pathComponents_renames.reorder hs h hl (hre.about_eq hl)
      exact ⟨ms, t, hms, ht, fun p => hview (hsame (some p))⟩

/-- The session is up. -/
def opened : Manager := (system.execGet sessionOpen (by decide)).2

/-- The second of two reads of `/b`, given an address it has no use for. -/
def readAgain : Label := .call (.getNodeValue "/b" false false 0 1 1)

/-- A create of `/a` with that address. -/
def createElsewhere : Label :=
  .call (.createNode { type := .persistentNode, path := "/a", value := [118] } 0 2 1)

/-- The completions that follow. -/
def bothAnswered : List Label :=
  [.deliver { ctx := 0, op := .get, path := "/b", node := some 0 } (.get 0 (some [119])),
   .deliver { ctx := 2, op := .create, path := "/a", value := [118], node := some 1 }
    (.create 0 (some "/a"))]

/-- Steps about two paths. -/
def twoPaths : List Label :=
  [.call (.getNodeValue "/b" false false 0 0 0)] ++ readAgain :: createElsewhere :: bothAnswered

/-- The create comes first, and takes the address of the read. -/
def createFirst : List Label :=
  [.call (.getNodeValue "/b" false false 0 0 0)] ++ createElsewhere :: readAgain :: bothAnswered

theorem twoPaths_leads :
    system.Leads opened twoPaths ((system.execFrom ([], opened) twoPaths).get (by decide)).2 :=
  leads_of_execFrom (Option.some_get _).symm

theorem twoPaths_independent : ∃ s', system.Leads opened twoPaths s' ∧
    (∀ p, ∃ t, system.Leads opened (about p twoPaths) t ∧ t.pool.view p = s'.pool.view p) ∧
    ∃ ms t, List.Forall₂ Label.Readdressed createFirst ms ∧ system.Leads opened ms t ∧
      ∀ p, t.pool.view p = s'.pool.view p := by
  have h := paths_independent (reachable_execGet sessionOpen (by decide)) twoPaths_leads (by decide)
  exact ⟨_, twoPaths_leads, h.1, (h.2 createFirst (.swap (by decide))).2⟩

end QtZooKeeper
