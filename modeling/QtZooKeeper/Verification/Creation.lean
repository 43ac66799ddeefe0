-- SUMMARY: Which calls of createNode and createNodeSync are served, and which createNodeSync calls register their node.
import QtZooKeeper.Manager.CreateHistory

/-!
# Served creates

A path in the pool makes `createNode` and `createNodeSync` return the pooled node
without asking the client. Whether that is right depends on what has happened to
the node, on the type asked for and on whether the caller wants to see an error.

`createNodeSync` then pools its node under the name the client reports and drops
the requested path, so a node created under that very path loses its entry.
-/

namespace QtZooKeeper

open FallibleSystem

variable {s s' : Manager} {l : Label} {x : Manager × (NodeId → List NodeEvent)}
variable {tr : List ((Manager × (NodeId → List NodeEvent)) × Label)}

namespace Manager

/-- The step from `s` to `s'` made the library call. -/
def Submitted (s s' : Manager) (fn : LibFn) (args : LibArgs) : Prop :=
  s'.session.calls = s.session.calls ++ [.call fn s.session.zooHandle args]

/-- The node has a create request of its own in flight. -/
def CreateInFlight (s : Manager) (n : NodeId) : Prop :=
  ∃ r ∈ s.pending, r.op = .create ∧ r.node = some n

/-- The node is known to exist, or its own create is in flight. -/
def NeedsNoRequest (s : Manager) (n : NodeId) : Prop :=
  (∃ d, s.pool.nodes.Live n d ∧ d.exists_ = true) ∨ s.CreateInFlight n

/-- A call of `createNode` (`zoo_acreate`) or `createNodeSync` (`zoo_create`) in
`s` with the result `r` is served. -/
structure Served (s : Manager) (fn : LibFn) (a : CreateArgs) (r : Returned × Manager) : Prop where
  node : ∀ n, r.1.node = some n → s.Submitted r.2 fn a.request ∨
    (a.type.isSequence = false ∧ s.NeedsNoRequest n)
  sequence : a.type.isSequence = true → s.Submitted r.2 fn a.request
  error : a.wantsError = true → r.1.error.isSome = true

/-- The path is not pooled, or the call asks for no sequence node and no error and
the pooled node, if there is one, needs no request. -/
def CanServe (s : Manager) (a : CreateArgs) : Prop :=
  s.pool.contains a.path = false ∨
    (a.type.isSequence = false ∧ a.wantsError = false ∧
      ∀ n ∈ s.pool.value a.path, s.NeedsNoRequest n)

/-- A call that leaves the state as it is makes no request. -/
theorem not_submitted_self {fn : LibFn} {args : LibArgs} : ¬ s.Submitted s fn args := by
  intro h
  have hlength := congrArg List.length h
  simp at hlength

/-- A call that returns what is pooled makes no request and writes no error. -/
theorem served_hit_iff {fn : LibFn} {a : CreateArgs} (hc : s.pool.contains a.path = true) :
    s.Served fn a (⟨s.pool.value a.path, none⟩, s) ↔ s.CanServe a := by
  constructor
  · intro h
    refine .inr ⟨?_, ?_, ?_⟩
    · rw [← Bool.not_eq_true]
      exact fun hs => not_submitted_self (h.sequence hs)
    · rw [← Bool.not_eq_true]
      exact fun he => by simpa using h.error he
    · intro n hn
      exact ((h.node n hn).resolve_left not_submitted_self).2
  · intro h
    obtain ⟨hseq, herr, hnode⟩ := h.resolve_left (by simp [hc])
    refine ⟨?_, ?_, ?_⟩
    · intro n hn
      exact .inr ⟨hseq, hnode n hn⟩
    · intro hs
      simp [hseq] at hs
    · intro he
      simp [herr] at he

/-- A call that asks the client is served, whatever the client answers. -/
theorem served_of_submitted {fn : LibFn} {a : CreateArgs} {r : Returned × Manager}
    (hsub : s.Submitted r.2 fn a.request) (herr : ∃ ret, r.1.error = writeError a.wantsError ret) :
    s.Served fn a r where
  node n hn := .inl hsub
  sequence _ := hsub
  error he := by
    obtain ⟨ret, hret⟩ := herr
    simp [hret, writeError, he]

theorem createNode_served_iff (a : CreateArgs) (ret : Int) (ctx : CtxId) (n : NodeId) :
    s.Served .zooAcreate a (s.createNode a ret ctx n) ↔ s.CanServe a := by
  unfold createNode
  split
  · next hc => exact served_hit_iff hc
  · next hc =>
    have hj : s.CanServe a := .inl (by simpa using hc)
    refine ⟨fun _ => hj, fun _ => ?_⟩
    split
    · exact served_of_submitted rfl ⟨ret, rfl⟩
    · exact served_of_submitted rfl ⟨ret, rfl⟩

theorem createNodeSync_served_iff (a : CreateArgs) (ret : Int) (newPath : QString) (n : NodeId) :
    s.Served .zooCreate a (s.createNodeSync a ret newPath n) ↔ s.CanServe a := by
  unfold createNodeSync
  split
  · next hc => exact served_hit_iff hc
  · next hc =>
    have hj : s.CanServe a := .inl (by simpa using hc)
    refine ⟨fun _ => hj, fun _ => ?_⟩
    split
    · exact served_of_submitted rfl ⟨ret, rfl⟩
    · exact served_of_submitted rfl ⟨ret, rfl⟩

end Manager

/-! ## The creates of a run -/

/-- The step is no create call, or a served one. -/
def CreateServed (s : Manager) : Label → Prop
  | .call (.createNode a ret ctx n) => s.Served .zooAcreate a (s.createNode a ret ctx n)
  | .call (.createNodeSync a ret newPath n) => s.Served .zooCreate a (s.createNodeSync a ret newPath n)
  | _ => True

/-- The path is not pooled, or the call asks for no sequence node and no error and
the node pooled there came in by a create that is not answered yet or was told last
that its znode exists. -/
def Justified (x : Manager × (NodeId → List NodeEvent)) (a : Manager.CreateArgs) : Prop :=
  x.1.pool.contains a.path = false ∨
    (a.type.isSequence = false ∧ a.wantsError = false ∧
      ∀ n ∈ x.1.pool.value a.path, Unanswered (x.2 n) ∨ lastTold (x.2 n) = some true)

instance (x : Manager × (NodeId → List NodeEvent)) (a : Manager.CreateArgs) :
    Decidable (Justified x a) := by
  unfold Justified
  infer_instance

/-- The step is no create call, or one the history justifies. -/
def createJustified (x : Manager × (NodeId → List NodeEvent)) : Label → Prop
  | .call (.createNode a _ _ _) => Justified x a
  | .call (.createNodeSync a _ _ _) => Justified x a
  | _ => True

instance (x : Manager × (NodeId → List NodeEvent)) (l : Label) : Decidable (createJustified x l) := by
  unfold createJustified
  split <;> infer_instance

/-- What has happened to a pooled node tells whether it needs a request. -/
theorem needsNoRequest_iff (hx : witnessed.Reachable x) {path : QString} {n : NodeId}
    (hk : x.1.pool.lookup path = some (some n)) :
    x.1.NeedsNoRequest n ↔ Unanswered (x.2 n) ∨ lastTold (x.2 n) = some true := by
  have htold := told_of_reachable hx
  obtain ⟨d, hl, -⟩ := sound_of_reachable hx.forget _ _ hk
  have hflag := htold.flag path n d (Pool.pooled_eq_some.mpr ⟨hk, hl⟩)
  have hexists : (∃ e, x.1.pool.nodes.Live n e ∧ e.exists_ = true) ↔
      lastTold (x.2 n) = some true := by
    constructor
    · rintro ⟨e, he, hexists⟩
      rw [he.unique hl, hflag] at hexists
      cases hlast : lastTold (x.2 n) with
      | none => simp [hlast] at hexists
      | some b => simpa [hlast] using hexists
    · intro hlast
      exact ⟨d, hl, by rw [hflag, hlast]; rfl⟩
  have hinFlight : x.1.CreateInFlight n ↔ Unanswered (x.2 n) := by
    rw [← htold.inFlight_iff]
    simp [Manager.CreateInFlight, Request.creates]
  rw [Manager.NeedsNoRequest, hexists, hinFlight, or_comm]

/-- A call can be served in the states its history justifies it in. -/
theorem canServe_iff (hx : witnessed.Reachable x) (a : Manager.CreateArgs) :
    x.1.CanServe a ↔ Justified x a := by
  unfold Manager.CanServe Justified
  by_cases hc : x.1.pool.contains a.path = true
  · obtain ⟨node, hk⟩ := Pool.contains_iff.mp hc
    refine or_congr_right (and_congr_right fun _ => and_congr_right fun _ => ?_)
    rw [Pool.value_eq hk]
    refine forall₂_congr fun n hn => ?_
    exact needsNoRequest_iff hx (hk.trans (congrArg some hn))
  · have hmissing : x.1.pool.contains a.path = false := by simpa using hc
    exact iff_of_true (.inl hmissing) (.inl hmissing)

theorem createServed_iff (hx : witnessed.Reachable x) :
    CreateServed x.1 l ↔ createJustified x l := by
  cases l with
  | call c =>
    cases c with
    | createNode a ret ctx n => exact (Manager.createNode_served_iff a ret ctx n).trans (canServe_iff hx a)
    | createNodeSync a ret newPath n =>
      exact (Manager.createNodeSync_served_iff a ret newPath n).trans (canServe_iff hx a)
    | _ => exact Iff.rfl
  | _ => exact Iff.rfl

/-- A create of `/a` after a read found that `/a` does not exist. -/
def createAfterNoNode : List Label :=
  sessionOpen ++
    [.call (.getNodeValue "/a" false false 0 0 0),
     .deliver { ctx := 0, op := .get, path := "/a", node := some 0 } (.get (-101) none),
     .call (.createNode { type := .persistentNode, path := "/a", value := [118] } 0 1 1)]

/-- Creates of `/a` while the first is in flight and after it is completed, and one
of `/b` after a read has found that znode. -/
def createTwice : List Label :=
  sessionOpen ++
    [.call (.createNode { type := .persistentNode, path := "/a", value := [118] } 0 0 0),
     .call (.createNode { type := .persistentNode, path := "/a", value := [118] } 0 1 1),
     .deliver { ctx := 0, op := .create, path := "/a", value := [118], node := some 0 }
       (.create (-110) none),
     .call (.createNodeSync { type := .persistentNode, path := "/a" } 0 "/a" 1),
     .call (.getNodeValueSync "/b" false ⟨fun _ => 0, 0, some [118]⟩ 1),
     .call (.createNode { type := .ephemeralNode, path := "/b" } 0 1 2)]

namespace Pool

variable {p : Pool} {k path newPath : QString} {type : ZooKeeperNodeType} {value : QByteArray}
variable {n : NodeId}

/-- The other entries keep their nodes, and these their fields. -/
theorem pooled_createNodeSync_of_ne (hp : p.Sound) (hf : p.nodes.Fresh n) (hk : k ≠ path)
    (hk' : k ≠ newPath) : (p.createNodeSync type path value newPath n).pooled k = p.pooled k := by
  have hinsert := @pooled_insert p k newPath n
    { exists_ := true, path := newPath, value := value, type := some type } hp hf
  rw [if_neg hk'] at hinsert
  rw [← hinsert]
  refine pooled_congr rfl ?_
  simp [createNodeSync, hk]

end Pool

namespace Manager

variable {a : CreateArgs} {name : QString} {n : NodeId}

/-- The result of a `createNodeSync` in `s` for which the client reported `name`
registers the node it returns. -/
structure Registers (s : Manager) (a : CreateArgs) (name : QString) (r : Returned × Manager) :
    Prop where
  node : ∃ n d, r.1.node = some n ∧ r.2.pool.nodes.Live n d ∧ r.2.findNode d.path = some n ∧
    d.path = name ∧ d.exists_ = true ∧ d.value = a.value
  requested : r.2.pool.contains a.path = true → name = a.path
  others : ∀ k, k ≠ a.path → k ≠ name →
    r.2.pool.lookup k = s.pool.lookup k ∧ r.2.pool.pooled k = s.pool.pooled k

theorem findNode_eq (s : Manager) (path : QString) : s.findNode path = (s.pool.lookup path).join := by
  unfold findNode
  split
  · next hc =>
    obtain ⟨node, hk⟩ := Pool.contains_iff.mp hc
    rw [Pool.value_eq hk, hk]
    rfl
  · next hc =>
    rw [Pool.not_contains_iff.mp hc]
    rfl

theorem createNodeSync_accepted (name : QString) (n : NodeId)
    (hc : s.pool.contains a.path = false) :
    (s.createNodeSync a 0 name n).1.node = some n ∧
      (s.createNodeSync a 0 name n).2.pool = s.pool.createNodeSync a.type a.path a.value name n := by
  have hok : ZooKeeperError.ofInt 0 = .noError := rfl
  simp [createNodeSync, hc, hok, invoke]

end Manager

/-- A synchronous create the client accepts registers its node exactly if it was
not created under the requested path itself. -/
theorem createNodeSync_registers_iff {a : Manager.CreateArgs} {name : QString} {n : NodeId}
    (hs : system.Reachable s) (he : system.enabled (.call (.createNodeSync a 0 name n)) s)
    (hc : s.pool.contains a.path = false) :
    s.Registers a name (s.createNodeSync a 0 name n) ↔ name ≠ a.path := by
  have hsound := sound_of_reachable hs
  have hfresh : s.pool.nodes.Fresh n := he.2.2.1 n rfl
  obtain ⟨hnode, hpool⟩ := Manager.createNodeSync_accepted name n hc
  constructor
  · rintro h rfl
    obtain ⟨m, d, hm, -, hfind, hpath, -⟩ := h.node
    -- the entry was removed under the requested path
    rw [Manager.findNode_eq, hpool, hpath, Pool.lookup_createNodeSync, if_pos rfl] at hfind
    cases hfind
  · intro hne
    let d : ZooKeeperNode :=
      { exists_ := true, path := name, value := a.value, type := some a.type }
    refine ⟨⟨n, d, hnode, ?_, ?_, rfl, rfl, rfl⟩, ?_, ?_⟩
    · rw [hpool]
      exact Pool.live_createNodeSync
    · rw [Manager.findNode_eq, hpool, Pool.lookup_createNodeSync, if_neg hne, if_pos rfl]
      rfl
    · intro hcontains
      obtain ⟨node, hk⟩ := Pool.contains_iff.mp hcontains
      rw [hpool, Pool.lookup_createNodeSync, if_pos rfl] at hk
      cases hk
    · intro k hk hk'
      rw [hpool]
      refine ⟨?_, Pool.pooled_createNodeSync_of_ne hsound hfresh hk hk'⟩
      rw [Pool.lookup_createNodeSync, if_neg hk, if_neg hk']

/-- A sequence node under a numbered name. -/
theorem sequenceSync_registers :
    (system.execGet sessionOpen (by decide)).2.Registers { type := .sequenceNode, path := "/a-" }
      "/a-0000000000" ((system.execGet sessionOpen (by decide)).2.createNodeSync
        { type := .sequenceNode, path := "/a-" } 0 "/a-0000000000" 0) :=
  (createNodeSync_registers_iff (reachable_execGet sessionOpen (by decide)) (by decide)
    (by decide)).mpr (by decide)

/-- A plain node cannot be found afterwards. -/
theorem plainSync_not_registers : ¬ ∀ s a name n, system.Reachable s →
    system.enabled (.call (.createNodeSync a 0 name n)) s → s.pool.contains a.path = false →
    s.Registers a name (s.createNodeSync a 0 name n) := by
  intro h
  obtain ⟨m, d, -, -, hfind, hpath, -⟩ :=
    (h _ { type := .persistentNode, path := "/a" } "/a" 0
      (reachable_execGet sessionOpen (by decide)) (by decide) (by decide)).node
  rw [hpath] at hfind
  cases hfind

end QtZooKeeper
