-- SUMMARY: The steps of the whole system: public calls, completions, session events, watch events, the timer.
import QtZooKeeper.Manager.Operations
import QtZooKeeper.Manager.PoolMachine

/-!
# The system

One step is a whole public call, the delivery of one completion or of one event,
the timer of `initialize`, or the return of `zookeeper_close` to `quit`. Labels
carry what the client answers and the addresses of new objects; nothing is
assumed about either, except that an address is not in use yet. While `quit` is
inside `zookeeper_close` no other call is made, not even by a callback of the user;
the client still delivers.
-/

namespace QtZooKeeper

/-- The public calls, each with the client's answers and the addresses used. -/
inductive Call where
  | initializeHandle (host : QString) (timeout : Int) (zh : Option HandleId)
  | addAuth (scheme cert : QString)
  | quit
  | destructor
  | createNode (a : Manager.CreateArgs) (ret : Int) (ctx : CtxId) (n : NodeId)
  | createNodeSync (a : Manager.CreateArgs) (ret : Int) (newPath : QString) (n : NodeId)
  | deleteNode (path : QString) (ret : Int) (ctx : CtxId)
  | deleteNodeSync (path : QString) (ret : Int)
  | existsNode (path : QString) (ret : Int) (ctx : CtxId)
  | existsNodeSync (path : QString) (ret : Int)
  | setNodeValue (path : QString) (value : QByteArray) (ret : Int) (ctx : CtxId)
  | setNodeValueSync (path : QString) (value : QByteArray) (ret : Int)
  | getNodeValue (path : QString) (callback wantsError : Bool) (ret : Int) (ctx : CtxId) (n : NodeId)
  | getNodeValueSync (path : QString) (wantsError : Bool) (r : SyncRead) (n : NodeId)
  | wgetNodeValue (path : QString) (callback : Bool) (r : SyncRead) (ctx : CtxId) (n : NodeId)
  | getChildrenNode (path : QString) (callback : Bool) (ret : Int) (ctx : CtxId)
  | getChildrenNodeSync (path : QString) (ret : Int) (strings : List QString)
  | wgetChildrenNode (path : QString) (callback : Bool) (ret : Int) (strings : List QString)
      (ctx : CtxId)
  /-- `ZooKeeperNode::setExists`, the only public function of a node that is not
  one of the above on the node's path. -/
  | setExists (node : NodePtr) (exists_ : Bool)

namespace Call

/-- The address of the node object a call may create. -/
def newNode : Call → Option NodeId
  | createNode _ _ _ n | createNodeSync _ _ _ n | getNodeValue _ _ _ _ _ n
  | getNodeValueSync _ _ _ n | wgetNodeValue _ _ _ _ n => some n
  | _ => none

/-- The address of the context object a call may create. -/
def newCtx : Call → Option CtxId
  | createNode _ _ ctx _ | deleteNode _ _ ctx | existsNode _ _ ctx | setNodeValue _ _ _ ctx
  | getNodeValue _ _ _ _ ctx _ | wgetNodeValue _ _ _ ctx _ | getChildrenNode _ _ _ ctx
  | wgetChildrenNode _ _ _ _ ctx => some ctx
  | _ => none

/-- The handle a call obtains. -/
def newHandle : Call → Option HandleId
  | initializeHandle _ _ zh => zh
  | _ => none

def run : Call → Manager → Except AccessFault Manager
  | initializeHandle host timeout zh, s =>
    pure { s with session := s.session.initializeHandle host timeout zh }
  | addAuth scheme cert, s => pure (s.addAuth scheme cert)
  | quit, s => pure { s with session := s.session.quit }
  | destructor, s => pure { s with session := { s.session.quit with destroyed := true } }
  | createNode a ret ctx n, s => pure (s.createNode a ret ctx n).2
  | createNodeSync a ret newPath n, s => pure (s.createNodeSync a ret newPath n).2
  | deleteNode path ret ctx, s => (·.2) <$> s.deleteNode path ret ctx
  | deleteNodeSync path ret, s => (·.2) <$> s.deleteNodeSync path ret
  | existsNode path ret ctx, s => pure (s.existsNode path ret ctx).2
  | existsNodeSync path ret, s => pure (s.existsNodeSync path ret).2
  | setNodeValue path value ret ctx, s => pure (s.setNodeValue path value ret ctx).2
  | setNodeValueSync path value ret, s => pure (s.setNodeValueSync path value ret).2
  | getNodeValue path callback wantsError ret ctx n, s =>
    pure (s.getNodeValue path callback wantsError ret ctx n).2
  | getNodeValueSync path wantsError r n, s => (·.2) <$> s.getNodeValueSync path wantsError r n
  | wgetNodeValue path callback r ctx n, s => (·.2) <$> s.wgetNodeValue path callback r ctx n
  | getChildrenNode path callback ret ctx, s => pure (s.getChildrenNode path callback ret ctx).2
  | getChildrenNodeSync path ret strings, s => pure (s.getChildrenNodeSync path ret strings).2
  | wgetChildrenNode path callback ret strings ctx, s =>
    pure (s.wgetChildrenNode path callback ret strings ctx).2
  | setExists node exists_, s => s.setExists node exists_

end Call

inductive Label where
  | call (c : Call)
  | deliver (r : Request) (c : Manager.Completion)
  | watcher (zzh : HandleId) (type : ZooKeeperType) (state : Int) (path : QString) (id : Int)
  | watchEvent (zh : HandleId) (w : Watch) (type : ZooKeeperType) (state : Int) (path : Bytes)
      (a : Manager.WatchAnswer)
  | timer (state : Int)
  | closeReturns

namespace Label

/-- When a step can be taken. No call is made while `zookeeper_close` runs, not even by a
callback of the user. -/
def Enabled : Label → Manager → Prop
  | call c, s =>
    s.session.destroyed = false ∧ s.session.closing = none ∧
      (∀ n ∈ c.newNode, s.pool.nodes.Fresh n) ∧ (∀ ctx ∈ c.newCtx, ctx ∉ s.allocated) ∧
      ∀ zh ∈ c.newHandle, s.session.handles zh = .unused
  | deliver r c, s => r ∈ s.pending ∧ c.Answers r = true
  | watcher zzh _ _ _ _, s => (s.session.handles zzh).delivers = true
  | watchEvent zh w _ _ _ a, s =>
    (s.session.handles zh).delivers = true ∧ w ∈ s.watches ∧ a.isChildren = w.children
  -- `zoo_state` of a null handle is 0
  | timer state, s =>
    0 < s.session.timers ∧ s.session.closing = none ∧ s.session.destroyed = false ∧
      (s.session.zooHandle = none → state = 0)
  | closeReturns, s => s.session.closing ≠ none

instance (l : Label) (s : Manager) : Decidable (l.Enabled s) := by
  cases l <;> unfold Enabled <;> infer_instance

def step : Label → Manager → Except AccessFault Manager
  | call c, s => c.run s
  | deliver r c, s => s.deliver r c
  | watcher zzh type state path id, s => s.watcher zzh type state path id
  | watchEvent _ w type state path a, s => s.watchEvent w type state path a
  | timer state, s => pure (s.timerFires state)
  | closeReturns, s => pure { s with session := s.session.closeReturns }

end Label

/-- The manager with its callers and the client. -/
def system : FallibleSystem Manager Label AccessFault where
  init := {}
  enabled := Label.Enabled
  step := Label.step

instance (l : Label) (s : Manager) : Decidable (system.enabled l s) :=
  inferInstanceAs (Decidable (l.Enabled s))

/-- How a run begins that brings a session up. -/
def sessionOpen : List Label :=
  [.call (.initializeHandle "127.0.0.1:2181" 30000 (some 0)), .watcher 0 .sessionEvent 3 "" 7]

end QtZooKeeper
