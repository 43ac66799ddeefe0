-- SUMMARY: What a step of the system does to the pool, to the session and to the requests in flight.
import QtZooKeeper.Manager.PoolMachine
import QtZooKeeper.Manager.SessionMachine
import QtZooKeeper.Manager.System

/-!
# The steps of the system

A step of the system amounts to one operation of the pool machine and one of the
session machine, and adds or removes at most one request. This is proved once for
all components (`Call.ran`, `Label.stepped`); the later modules use the results
and do not look into the functions of the manager again.
-/

namespace QtZooKeeper

open FallibleSystem

variable {c : Call} {l : Label} {s s' : Manager} {tr : List (Manager × Label)}

/-! ## The operation on the pool -/

/-- The value a synchronous reader uses, where reading it does not fault. -/
def SyncRead.readValue (r : SyncRead) : QByteArray :=
  if r.error = .noError then r.value.getD [] else []

theorem Manager.readValue_eq_ok {r : SyncRead} {v : QByteArray} (h : readValue r = .ok v) :
    v = r.readValue := by
  unfold readValue at h
  unfold SyncRead.readValue
  split at h
  · next he =>
    rw [if_pos he]
    cases hv : r.value with
    | none => simp [hv] at h
    | some w =>
      rw [hv, Except.pure_eq_ok] at h
      exact h.symm
  · next he =>
    rw [if_neg he]
    rw [Except.pure_eq_ok] at h
    exact h.symm

def Call.poolOp (s : Manager) : Call → PoolOp
  | createNode a ret _ n =>
    if s.pool.contains a.path then .keep
    else if ZooKeeperError.ofInt ret = .noError then .createNode a.type a.path a.value n
    else .keep
  | createNodeSync a ret newPath n =>
    if s.pool.contains a.path then .keep
    else if ZooKeeperError.ofInt ret = .noError then
      .createNodeSync a.type a.path a.value newPath n
    else .keep
  | deleteNode path _ _ | deleteNodeSync path _ => .deleteNode path
  | getNodeValue path _ _ _ _ n => .readNode path n
  | getNodeValueSync path _ r n | wgetNodeValue path _ r _ n =>
    .readNodeSync path n r.error r.readValue
  | setExists node exists_ => .setExists node exists_
  | _ => .keep

/-- The session events after which the pool is cleared. -/
def disconnects (type : ZooKeeperType) (state : ZooKeeperState) : Bool :=
  type = .sessionEvent && !(state = .connected) && !(state = .connecting)

theorem disconnects_iff {type : ZooKeeperType} {state : ZooKeeperState} :
    disconnects type state = true ↔
      type = .sessionEvent ∧ ¬ (state = .connected ∨ state = .connecting) := by
  simp [disconnects, and_assoc]

/-- The operation of the pool machine a step amounts to. -/
def Label.poolOp (s : Manager) : Label → PoolOp
  | call c => c.poolOp s
  | deliver r (.create rc name) => .acreateCompletion (.ofInt rc) name r.path
  | deliver r (.get rc value) => .agetCompletion (.ofInt rc) (completionValue value) r.path
  | watcher _ type state _ _ =>
    if disconnects type (.ofInt state) then .processDisconnected else .keep
  | _ => .keep

/-- A create keeps the pool, or it was accepted for a path that was not pooled. -/
theorem Call.poolOp_createNode (s : Manager) (a : Manager.CreateArgs) (ret : Int) (ctx : CtxId)
    (n : NodeId) : (createNode a ret ctx n).poolOp s = .keep ∨
      s.pool.lookup a.path = none ∧ ZooKeeperError.ofInt ret = .noError ∧
        (createNode a ret ctx n).poolOp s = .createNode a.type a.path a.value n := by
  by_cases hc : s.pool.contains a.path = true
  · exact .inl (if_pos hc)
  · by_cases hret : ZooKeeperError.ofInt ret = .noError
    · exact .inr ⟨Pool.not_contains_iff.mp hc, hret, (if_neg hc).trans (if_pos hret)⟩
    · exact .inl ((if_neg hc).trans (if_neg hret))

theorem Call.poolOp_createNodeSync (s : Manager) (a : Manager.CreateArgs) (ret : Int)
    (newPath : QString) (n : NodeId) : (createNodeSync a ret newPath n).poolOp s = .keep ∨
      s.pool.lookup a.path = none ∧ ZooKeeperError.ofInt ret = .noError ∧
        (createNodeSync a ret newPath n).poolOp s =
          .createNodeSync a.type a.path a.value newPath n := by
  by_cases hc : s.pool.contains a.path = true
  · exact .inl (if_pos hc)
  · by_cases hret : ZooKeeperError.ofInt ret = .noError
    · exact .inr ⟨Pool.not_contains_iff.mp hc, hret, (if_neg hc).trans (if_pos hret)⟩
    · exact .inl ((if_neg hc).trans (if_neg hret))

/-! ## The operation on the session -/

/-- The library function a call passes `m_zooHandle` to, and with what. -/
def Call.libCall (s : Manager) : Call → Option (LibFn × LibArgs)
  | addAuth scheme cert =>
    if scheme = "digest" then some (.zooAddAuth, { value := toUtf8 cert }) else none
  | createNode a _ _ _ => if s.pool.contains a.path then none else some (.zooAcreate, a.request)
  | createNodeSync a _ _ _ => if s.pool.contains a.path then none else some (.zooCreate, a.request)
  | deleteNode path _ _ => some (.zooAdelete, { path := constData (toLatin1 path) })
  | deleteNodeSync path _ => some (.zooDelete, { path := constData (toUtf8 path) })
  | existsNode path _ _ => some (.zooAexists, { path := constData (toLatin1 path) })
  | existsNodeSync path _ => some (.zooExists, { path := constData (toLatin1 path) })
  | setNodeValue path value _ _ =>
    some (.zooAset, { path := constData (toLatin1 path), value := value })
  | setNodeValueSync path value _ =>
    some (.zooSet, { path := constData (toLatin1 path), value := value })
  | getNodeValue path _ _ _ _ _ => some (.zooAget, { path := constData (toLatin1 path) })
  | getNodeValueSync path _ _ _ => some (.zooGet, { path := constData (toLatin1 path) })
  | wgetNodeValue path _ _ _ _ => some (.zooWget, { path := constData (toLatin1 path) })
  | getChildrenNode path _ _ _ => some (.zooAgetChildren, { path := constData (toLatin1 path) })
  | getChildrenNodeSync path _ _ => some (.zooGetChildren, { path := constData (toLatin1 path) })
  | wgetChildrenNode path _ _ _ _ => some (.zooWgetChildren, { path := constData (toLatin1 path) })
  | _ => none

def Call.sessionOp (s : Manager) : Call → SessionOp
  | initializeHandle host timeout zh => .initializeHandle host timeout zh
  | quit => .quit
  | destructor => .destructor
  | c =>
    match c.libCall s with
    | some (fn, args) => .invoke fn args
    | none => .keep

/-- The operation of the session machine a step amounts to. -/
def Label.sessionOp (s : Manager) : Label → SessionOp
  | call c => c.sessionOp s
  | deliver _ _ => .keep
  | watcher zzh type state _ id =>
    if type = .sessionEvent then
      match ZooKeeperState.ofInt state with
      | .connected => .connect zzh id
      | .connecting => .keep
      | _ => .terminate zzh
    else .keep
  | watchEvent _ _ _ _ path (.value _) => .invoke .zooWget { path := path }
  | watchEvent _ _ _ _ path (.children _ _) => .invoke .zooWgetChildren { path := path }
  | timer _ => .timerFires
  | closeReturns => .closeReturns

/-! ## The requests in flight -/

/-- The request the client accepts in a call. -/
def Call.accepted (s : Manager) : Call → Option Request
  | createNode a ret ctx n =>
    if s.pool.contains a.path then none
    else if ret = 0 then
      some { ctx := ctx, op := .create, path := a.path, value := a.value, node := some n }
    else none
  | deleteNode path ret ctx =>
    if ret = 0 then some { ctx := ctx, op := .delete, path := path } else none
  | existsNode path ret ctx =>
    if ret = 0 then some { ctx := ctx, op := .exists_, path := path } else none
  | setNodeValue path value ret ctx =>
    if ret = 0 then some { ctx := ctx, op := .set, path := path, value := value } else none
  | getNodeValue path callback _ ret ctx n =>
    if ret = 0 then
      some { ctx := ctx, op := .get, path := path, node := (s.pool.readNode path n).1,
             callback := callback }
    else none
  | getChildrenNode path callback ret ctx =>
    if ret = 0 then some { ctx := ctx, op := .getChildren, path := path, callback := callback }
    else none
  | _ => none

/-- The requests in flight before a step that are still in flight after it. -/
def Label.remaining (s : Manager) : Label → List Request
  | deliver r _ => s.pending.erase r
  | _ => s.pending

/-- The request that comes into flight in a step. -/
def Label.accepted (s : Manager) : Label → Option Request
  | call c => c.accepted s
  | _ => none

/-! ## The operations are enabled -/

/-- The operation of the pool a step amounts to is enabled. -/
theorem enabled_pool (h : l.Enabled s) : (l.poolOp s).Enabled s.pool := by
  cases l with
  | call c =>
    obtain ⟨-, -, hn, -, -⟩ := h
    cases c with
    | createNode a ret ctx n =>
      rcases Call.poolOp_createNode s a ret ctx n with hop | ⟨hk, -, hop⟩
      · rw [Label.poolOp, hop]
        trivial
      · rw [Label.poolOp, hop]
        exact ⟨hk, hn n rfl⟩
    | createNodeSync a ret newPath n =>
      rcases Call.poolOp_createNodeSync s a ret newPath n with hop | ⟨hk, -, hop⟩
      · rw [Label.poolOp, hop]
        trivial
      · rw [Label.poolOp, hop]
        exact ⟨hk, hn n rfl⟩
    | getNodeValue path callback wantsError ret ctx n => exact hn n rfl
    | getNodeValueSync path wantsError r n => exact hn n rfl
    | wgetNodeValue path callback r ctx n => exact hn n rfl
    | _ => trivial
  | deliver r c => cases c <;> trivial
  | watcher zzh type state path id =>
    simp only [Label.poolOp]
    split <;> trivial
  | _ => trivial

theorem enabled_session (h : l.Enabled s) :
    (l.sessionOp s).Enabled s.session := by
  cases l with
  | call c =>
    obtain ⟨-, hclosing, -, -, hh⟩ := h
    cases c with
    | initializeHandle host timeout zh => exact ⟨hclosing, hh⟩
    | quit => exact hclosing
    | destructor => exact hclosing
    | addAuth scheme cert =>
      simp only [Label.sessionOp, Call.sessionOp, Call.libCall]
      by_cases hs : scheme = "digest"
      · simp [hs, SessionOp.Enabled]
      · simp [hs, SessionOp.Enabled]
    | createNode a ret ctx n =>
      simp only [Label.sessionOp, Call.sessionOp, Call.libCall]
      cases s.pool.contains a.path <;> simp [SessionOp.Enabled]
    | createNodeSync a ret newPath n =>
      simp only [Label.sessionOp, Call.sessionOp, Call.libCall]
      cases s.pool.contains a.path <;> simp [SessionOp.Enabled]
    | setExists node b => trivial
    | _ => simp [Label.sessionOp, Call.sessionOp, Call.libCall, SessionOp.Enabled]
  | watcher zzh type state path client =>
    simp only [Label.sessionOp]
    split
    · split
      · exact h
      · trivial
      · exact h
    · trivial
  | watchEvent zh w type state path a => cases a <;> simp [Label.sessionOp, SessionOp.Enabled]
  | _ => trivial

/-! ## What a call does -/

theorem Manager.submit_pending (fn : LibFn) (args : LibArgs) {ret : Int} {r : Request} :
    (s.submit fn args ret r).pending = s.pending ++ (if ret = 0 then some r else none).toList := by
  simp only [submit]
  split <;> simp

theorem Manager.submitCreate_pending (s : Manager) (a : Manager.CreateArgs) (ret : Int)
    (ctx : CtxId) (n : NodeId) :
    (s.submitCreate a ret ctx n).pending = s.pending ++ (if ret = 0 then
      some { ctx := ctx, op := .create, path := a.path, value := a.value, node := some n }
      else none).toList := submit_pending _ _

/-- What a call does to the components of the manager. -/
structure Call.Ran (c : Call) (s s' : Manager) : Prop where
  pool : (c.poolOp s).apply s.pool = .ok s'.pool
  session : s'.session = (c.sessionOp s).apply s.session
  pending : s'.pending = s.pending ++ (c.accepted s).toList

/-- A call that hands a request to the client. -/
theorem Call.Ran.submit {pool : Pool} {fn : LibFn} {args : LibArgs} {ret : Int} {r : Request}
    (hpool : (c.poolOp s).apply s.pool = .ok pool) (hsession : c.sessionOp s = .invoke fn args)
    (haccepted : c.accepted s = if ret = 0 then some r else none) :
    c.Ran s { s.submit fn args ret r with pool := pool } where
  pool := hpool
  session := by
    rw [hsession]
    rfl
  pending := by
    rw [haccepted]
    exact Manager.submit_pending fn args

/-- A call that hands none to it. -/
theorem Call.Ran.noRequest (hpool : (c.poolOp s).apply s.pool = .ok s'.pool)
    (hsession : s'.session = (c.sessionOp s).apply s.session) (hpending : s'.pending = s.pending)
    (haccepted : c.accepted s = none) : c.Ran s s' where
  pool := hpool
  session := hsession
  pending := by rw [hpending, haccepted, Option.toList_none, List.append_nil]

/-- Every call, function by function. -/
theorem Call.ran (h : c.run s = .ok s') : c.Ran s s' := by
  cases c with
  | createNode a ret ctx n =>
    obtain rfl := Except.pure_eq_ok.mp h
    by_cases hc : s.pool.contains a.path = true
    · simp only [Manager.createNode, if_pos hc]
      refine .noRequest ?_ ?_ rfl ?_
      · simp only [poolOp, if_pos hc, PoolOp.apply]
        rfl
      · simp only [sessionOp, libCall, if_pos hc, SessionOp.apply]
      · simp only [accepted, if_pos hc]
    · have hsession : (createNode a ret ctx n).sessionOp s = .invoke .zooAcreate a.request := by
        simp only [sessionOp, libCall, if_neg hc]
      have haccepted : (createNode a ret ctx n).accepted s = if ret = 0 then
          some { ctx := ctx, op := .create, path := a.path, value := a.value, node := some n }
          else none := by
        simp only [accepted, if_neg hc]
      by_cases hret : ZooKeeperError.ofInt ret = .noError
      · simp only [Manager.createNode, if_neg hc, if_pos hret]
        refine .submit ?_ hsession haccepted
        simp only [poolOp, if_neg hc, if_pos hret]
        rfl
      · simp only [Manager.createNode, if_neg hc, if_neg hret]
        refine .submit ?_ hsession haccepted
        simp only [poolOp, if_neg hc, if_neg hret]
        rfl
  | createNodeSync a ret newPath n =>
    obtain rfl := Except.pure_eq_ok.mp h
    by_cases hc : s.pool.contains a.path = true
    · simp only [Manager.createNodeSync, if_pos hc]
      refine .noRequest ?_ ?_ rfl rfl
      · simp only [poolOp, if_pos hc, PoolOp.apply]
        rfl
      · simp only [sessionOp, libCall, if_pos hc, SessionOp.apply]
    · have hsession : (createNodeSync a ret newPath n).sessionOp s = .invoke .zooCreate a.request := by
        simp only [sessionOp, libCall, if_neg hc]
      by_cases hret : ZooKeeperError.ofInt ret = .noError
      · simp only [Manager.createNodeSync, if_neg hc, if_pos hret]
        refine .noRequest ?_ (by rw [hsession]; rfl) rfl rfl
        simp only [poolOp, if_neg hc, if_pos hret]
        rfl
      · simp only [Manager.createNodeSync, if_neg hc, if_neg hret]
        refine .noRequest ?_ (by rw [hsession]; rfl) rfl rfl
        simp only [poolOp, if_neg hc, if_neg hret]
        rfl
  | deleteNode path ret ctx =>
    simp only [run, Except.map_eq_ok, Manager.deleteNode, Except.bind_eq_ok, Except.pure_eq_ok] at h
    obtain ⟨r, ⟨p, hp, rfl⟩, rfl⟩ := h
    exact .submit hp rfl rfl
  | deleteNodeSync path ret =>
    simp only [run, Except.map_eq_ok, Manager.deleteNodeSync, Except.bind_eq_ok,
      Except.pure_eq_ok] at h
    obtain ⟨r, ⟨p, hp, rfl⟩, rfl⟩ := h
    exact .noRequest hp rfl rfl rfl
  | getNodeValueSync path wantsError r n =>
    simp only [run, Except.map_eq_ok, Manager.getNodeValueSync, Except.bind_eq_ok,
      Except.pure_eq_ok] at h
    obtain ⟨_, ⟨v, hv, p, hp, rfl⟩, rfl⟩ := h
    obtain rfl := Manager.readValue_eq_ok hv
    exact .noRequest (Except.map_eq_ok.mpr ⟨p, hp, rfl⟩) rfl rfl rfl
  | wgetNodeValue path callback r ctx n =>
    simp only [run, Except.map_eq_ok, Manager.wgetNodeValue, Except.bind_eq_ok,
      Except.pure_eq_ok] at h
    obtain ⟨_, ⟨v, hv, p, hp, rfl⟩, rfl⟩ := h
    obtain rfl := Manager.readValue_eq_ok hv
    exact .noRequest (Except.map_eq_ok.mpr ⟨p, hp, rfl⟩) rfl rfl rfl
  | setExists node b =>
    simp only [run, Manager.setExists, Except.bind_eq_ok, Except.pure_eq_ok] at h
    obtain ⟨p, hp, rfl⟩ := h
    exact .noRequest hp rfl rfl rfl
  | addAuth scheme cert =>
    obtain rfl := Except.pure_eq_ok.mp h
    by_cases hs : scheme = "digest"
    · simp only [Manager.addAuth, if_pos hs]
      exact .noRequest rfl (by simp only [sessionOp, libCall, if_pos hs]; rfl) rfl rfl
    · simp only [Manager.addAuth, if_neg hs]
      exact .noRequest rfl (by simp only [sessionOp, libCall, if_neg hs]; rfl) rfl rfl
  | existsNode path ret ctx =>
    obtain rfl := Except.pure_eq_ok.mp h
    exact .submit rfl rfl rfl
  | setNodeValue path value ret ctx =>
    obtain rfl := Except.pure_eq_ok.mp h
    exact .submit rfl rfl rfl
  | getNodeValue path callback wantsError ret ctx n =>
    obtain rfl := Except.pure_eq_ok.mp h
    exact .submit rfl rfl rfl
  | getChildrenNode path callback ret ctx =>
    obtain rfl := Except.pure_eq_ok.mp h
    exact .submit rfl rfl rfl
  | _ =>
    obtain rfl := Except.pure_eq_ok.mp h
    exact .noRequest rfl rfl rfl rfl

/-! ## What a step does -/

/-- What the session callback does before its signal: nothing, or it takes the
client id, or it closes the handle and clears the pool. -/
theorem Manager.watcher_cases {zzh : HandleId} {type : ZooKeeperType} {state : Int}
    {path : QString} {client : Int} (h : s.watcher zzh type state path client = .ok s') :
    ∃ t : Manager, s' = t.notify .manager (.watcher type (.ofInt state) path) ∧
      (((type ≠ .sessionEvent ∨ ZooKeeperState.ofInt state = .connecting) ∧ t = s) ∨
        (type = .sessionEvent ∧ ZooKeeperState.ofInt state = .connected ∧
          t = { s with session := s.session.connect zzh client }.notify .manager .connected) ∨
        (disconnects type (.ofInt state) = true ∧ ∃ pool, s.pool.processDisconnected = .ok pool ∧
          t = ({ s with
            pool := pool
            session := { s.session.close zzh with connected := false } }.notify .manager
              (.error (error2string (.ofInt state)))).notify .manager .disconnected)) := by
  simp only [watcher, Except.bind_eq_ok, Except.pure_eq_ok] at h
  obtain ⟨t, ht, rfl⟩ := h
  refine ⟨t, rfl, ?_⟩
  split at ht
  · next htype =>
    generalize hst : ZooKeeperState.ofInt state = st at ht
    unfold sessionEvent at ht
    split at ht
    · exact .inr (.inl ⟨htype, rfl, (Except.pure_eq_ok.mp ht).symm⟩)
    · exact .inl ⟨.inr rfl, (Except.pure_eq_ok.mp ht).symm⟩
    · next hc hcg =>
      simp only [processDisconnected, Except.bind_eq_ok, Except.pure_eq_ok] at ht
      obtain ⟨pool, hp, rfl⟩ := ht
      refine .inr (.inr ⟨disconnects_iff.mpr ⟨htype, ?_⟩, pool, hp, rfl⟩)
      exact not_or.mpr ⟨hc, hcg⟩
  · next htype => exact .inl ⟨.inl htype, (Except.pure_eq_ok.mp ht).symm⟩

/-- What a step does to the components of the manager. -/
structure Label.Stepped (l : Label) (s s' : Manager) : Prop where
  pool : (l.poolOp s).apply s.pool = .ok s'.pool
  session : s'.session = (l.sessionOp s).apply s.session
  pending : s'.pending = l.remaining s ++ (l.accepted s).toList

/-- A step that is not a call brings no request into flight. -/
theorem Label.Stepped.noRequest (hpool : (l.poolOp s).apply s.pool = .ok s'.pool)
    (hsession : s'.session = (l.sessionOp s).apply s.session)
    (hpending : s'.pending = l.remaining s) (haccepted : l.accepted s = none) : l.Stepped s s' where
  pool := hpool
  session := hsession
  pending := by rw [hpending, haccepted, Option.toList_none, List.append_nil]

/-- Every step, kind by kind. -/
theorem Label.stepped (h : l.step s = .ok s') : l.Stepped s s' := by
  cases l with
  | call c =>
    have hran : c.Ran s s' := Call.ran h
    exact ⟨hran.pool, hran.session, hran.pending⟩
  | deliver r c =>
    cases c with
    | create rc name =>
      simp only [step, Manager.deliver, Manager.acreateCompletion, Except.bind_eq_ok,
        Except.pure_eq_ok] at h
      obtain ⟨p, hp, rfl⟩ := h
      exact .noRequest hp rfl rfl rfl
    | get rc value =>
      simp only [step, Manager.deliver, Manager.agetCompletion, Except.bind_eq_ok,
        Except.pure_eq_ok] at h
      obtain ⟨p, hp, rfl⟩ := h
      split at hp
      · next hcallback =>
        simp only [if_pos hcallback]
        exact .noRequest hp rfl rfl rfl
      · next hcallback =>
        simp only [if_neg hcallback]
        exact .noRequest hp rfl rfl rfl
    | _ =>
      obtain rfl := Except.pure_eq_ok.mp h
      exact .noRequest rfl rfl rfl rfl
  | watcher zzh type state path client =>
    obtain ⟨t, rfl, ⟨hquiet, rfl⟩ | ⟨htype, hc, rfl⟩ | ⟨hd, pool, hp, rfl⟩⟩ :=
      Manager.watcher_cases h
    -- another event, or `Connecting`: nothing but the signal
    · have hnot : ¬ disconnects type (.ofInt state) = true := by
        intro hd
        have hdis := disconnects_iff.mp hd
        exact hquiet.elim (fun htype => htype hdis.1) fun hcg => hdis.2 (.inr hcg)
      refine .noRequest ?_ ?_ rfl rfl
      · simp only [poolOp, if_neg hnot]
        rfl
      · simp only [sessionOp]
        split
        · next htype =>
          rw [hquiet.resolve_left (not_not.mpr htype)]
          rfl
        · rfl
    -- `Connected`
    · have hnot : ¬ disconnects type (.ofInt state) = true := by
        intro hd
        exact (disconnects_iff.mp hd).2 (.inl hc)
      refine .noRequest ?_ ?_ rfl rfl
      · simp only [poolOp, if_neg hnot]
        rfl
      · simp only [sessionOp, if_pos htype, hc]
        rfl
    -- a terminal state
    · obtain ⟨htype, hother⟩ := disconnects_iff.mp hd
      refine .noRequest ?_ ?_ rfl rfl
      · simp only [poolOp, if_pos hd]
        exact hp
      · simp only [sessionOp, if_pos htype]
        split
        · next hc => exact absurd (.inl hc) hother
        · next hcg => exact absurd (.inr hcg) hother
        · rfl
  | watchEvent zh w type state path a =>
    cases a with
    | value r =>
      simp only [step, Manager.watchEvent, Manager.dataWatchEvent, Except.bind_eq_ok,
        Except.pure_eq_ok] at h
      obtain ⟨v, -, rfl⟩ := h
      exact .noRequest rfl rfl rfl rfl
    | children rc strings =>
      obtain rfl := Except.pure_eq_ok.mp h
      exact .noRequest rfl rfl rfl rfl
  | timer state =>
    obtain rfl := Except.pure_eq_ok.mp h
    simp only [Manager.timerFires]
    split
    · exact .noRequest rfl rfl rfl rfl
    · exact .noRequest rfl rfl rfl rfl
  | closeReturns =>
    obtain rfl := Except.pure_eq_ok.mp h
    exact .noRequest rfl rfl rfl rfl

theorem step_pool (h : l.step s = .ok s') : (l.poolOp s).apply s.pool = .ok s'.pool :=
  (Label.stepped h).pool

theorem step_session (h : l.step s = .ok s') : s'.session = (l.sessionOp s).apply s.session :=
  (Label.stepped h).session

theorem step_pending (h : l.step s = .ok s') :
    s'.pending = l.remaining s ++ (l.accepted s).toList := (Label.stepped h).pending

/-- A completion goes through where its operation on the pool does. -/
theorem exists_step_deliver {r : Request} {c : Manager.Completion} {p : Pool}
    (h : ((Label.deliver r c).poolOp s).apply s.pool = .ok p) :
    ∃ s', (Label.deliver r c).step s = .ok s' ∧ s'.pool = p := by
  cases c with
  | create rc name => exact ⟨_, Except.bind_eq_ok.mpr ⟨p, h, rfl⟩, rfl⟩
  | get rc value =>
    refine ⟨_, Except.bind_eq_ok.mpr ⟨p, ?_, rfl⟩, rfl⟩
    split <;> exact h
  | _ =>
    obtain rfl := Except.pure_eq_ok.mp h
    exact ⟨_, rfl, rfl⟩

/-- The pool of a run is a run of the pool machine. -/
theorem run_pool (h : system.Run tr s) :
    poolSystem.Run (FallibleSystem.mapTrace Manager.pool (fun s l => l.poolOp s) tr) s.pool :=
  h.map rfl fun _ _ _ he hs => ⟨enabled_pool he, step_pool hs⟩

/-- In every reachable state the nodes in the pool are live and have the path
they are pooled under. -/
theorem sound_of_reachable (h : system.Reachable s) : s.pool.Sound := by
  obtain ⟨_, hr⟩ := h
  exact Pool.sound_of_reachable ⟨_, run_pool hr⟩

/-- The session of a run is a run of the session machine. -/
theorem run_session (h : system.Run tr s) :
    sessionSystem.Run (FallibleSystem.mapTrace Manager.session (fun s l => l.sessionOp s) tr)
      s.session := by
  refine h.map rfl ?_
  intro s l s' he hs
  exact ⟨enabled_session he, congrArg Except.ok (step_session hs).symm⟩

end QtZooKeeper
