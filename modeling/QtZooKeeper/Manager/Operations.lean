-- SUMMARY: The manager: its state, its public functions, and the callbacks the client invokes.
import QtZooKeeper.Client.Reads
import QtZooKeeper.Manager.Pool
import QtZooKeeper.Manager.Session

/-!
# The manager

The state of the singleton manager together with the requests and watches the
client holds for it. Every function takes what the client answers (return codes,
reported names, read data) and where a new object is allocated as arguments, so
that nothing is assumed about either.
-/

namespace QtZooKeeper

/-- The address of a context object: the `const void *data` of a request or the
`watcherCtx` of a watch. -/
abbrev CtxId := Nat

/-- The asynchronous requests. -/
inductive RequestOp where
  | create
  | delete
  | exists_
  | set
  | get
  | getChildren
  deriving DecidableEq, Repr

/-- A request the client has accepted and not yet completed. `path` and
`callback` are in the context object, `value` went to the client; `node` is the
node the issuing call returned, which no function of the manager can see. -/
structure Request where
  ctx : CtxId
  op : RequestOp
  path : QString
  value : QByteArray := []
  node : NodePtr := none
  callback : Bool := false
  deriving DecidableEq, Repr

/-- A watch context: `WgetNodeValueParam` or `WgetChildrenNodeParam`. -/
structure Watch where
  ctx : CtxId
  path : QString
  callback : Bool
  children : Bool
  deriving DecidableEq, Repr

/-- The signals of the manager, and the arguments of the users' callbacks. -/
inductive Report where
  | error (text : QString)
  | connected
  | disconnected
  | watcher (type : ZooKeeperType) (state : ZooKeeperState) (path : QString)
  | createNodeFinished (error : ZooKeeperError) (path : QString)
  | deleteNodeFinished (error : ZooKeeperError) (path : QString)
  | existsNodeFinished (error : ZooKeeperError) (path : QString)
  | setNodeValueFinished (error : ZooKeeperError) (path : QString)
  | nodeValue (error : ZooKeeperError) (value : QByteArray)
  | nodeChildren (error : ZooKeeperError) (children : List QString)
  | getChildrenNodeFinished (error : ZooKeeperError) (path : QString) (children : List QString)
  | wgetNodeValueFinished (error : ZooKeeperError) (path : QString) (value : QByteArray)
      (type : ZooKeeperType) (state : ZooKeeperState)
  | wgetChildrenNodeFinished (error : ZooKeeperError) (path : QString) (children : List QString)
      (type : ZooKeeperType) (state : ZooKeeperState)
  deriving DecidableEq, Repr

/-- How a report reaches the application. -/
inductive Via where
  /-- Emitted by the singleton manager. -/
  | manager
  /-- Emitted on an object the code takes the context for. -/
  | context (ctx : CtxId)
  /-- Passed to the callback kept in the context. -/
  | callback (ctx : CtxId)
  deriving DecidableEq, Repr

/-- The manager, with the client's view of its requests, watches and contexts. -/
structure Manager where
  pool : Pool := {}
  session : Session := {}
  pending : List Request := []
  watches : List Watch := []
  allocated : List CtxId := []
  released : List CtxId := []
  reports : List (Via × Report) := []

namespace Manager

def notify (s : Manager) (via : Via) (r : Report) : Manager :=
  { s with reports := s.reports ++ [(via, r)] }

/-- A synchronous library call. -/
def invoke (s : Manager) (fn : LibFn) (args : LibArgs) : Manager :=
  { s with session := s.session.invoke fn args }

/-- An asynchronous library call with a new context: the client keeps the
request if it returns `ZOK`. -/
def submit (s : Manager) (fn : LibFn) (args : LibArgs) (ret : Int) (r : Request) : Manager :=
  { s with
    session := s.session.invoke fn args
    allocated := s.allocated ++ [r.ctx]
    pending := if ret = 0 then s.pending ++ [r] else s.pending }

/-- A library call that registers a watch context if it returns `ZOK`. -/
def watch (s : Manager) (fn : LibFn) (args : LibArgs) (ret : Int) (w : Watch) : Manager :=
  { s with
    session := s.session.invoke fn args
    allocated := s.allocated ++ [w.ctx]
    watches := if ret = 0 then s.watches ++ [w] else s.watches }

/-! ## Creating nodes -/

/-- The arguments of `createNode` and `createNodeSync`; `wantsError` says that
`error` is not null. -/
structure CreateArgs where
  type : ZooKeeperNodeType
  path : QString
  value : QByteArray := []
  wantsError : Bool := false
  deriving DecidableEq, Repr

/-- What the client is asked for. -/
def CreateArgs.request (a : CreateArgs) : LibArgs where
  path := constData (toLatin1 a.path)
  value := a.value
  flag := a.type.flag

/-- What a call hands back: the node, and what was written to `*error`. -/
structure Returned where
  node : NodePtr
  error : Option ZooKeeperError
  deriving DecidableEq, Repr

/-- What is written to `*error` after a library call returned `ret`. -/
def writeError (wantsError : Bool) (ret : Int) : Option ZooKeeperError :=
  if wantsError then some (.ofInt ret) else none

/-- `createNode` up to `zoo_acreate`, which hands the request to the client. -/
def submitCreate (a : CreateArgs) (ret : Int) (ctx : CtxId) (n : NodeId) (s : Manager) : Manager :=
  s.submit .zooAcreate a.request ret
    { ctx := ctx, op := .create, path := a.path, value := a.value, node := some n }

/-- `createNode` from the return of `zoo_acreate` on, when it was accepted. -/
def poolCreated (a : CreateArgs) (n : NodeId) (s : Manager) : Manager :=
  { s with pool := s.pool.createNode a.type a.path a.value n }

/-- `ZooKeeperManager::createNode` -/
def createNode (a : CreateArgs) (ret : Int) (ctx : CtxId) (n : NodeId) (s : Manager) :
    Returned × Manager :=
  -- a pooled path is not asked for again, and `*error` is left alone
  if s.pool.contains a.path then (⟨s.pool.value a.path, none⟩, s)
  else
    let s := s.submitCreate a ret ctx n
    if ZooKeeperError.ofInt ret = .noError then
      (⟨some n, writeError a.wantsError ret⟩, s.poolCreated a n)
    else (⟨none, writeError a.wantsError ret⟩, s)

/-- `ZooKeeperManager::createNodeSync`; `newPath` is what the client left in the
buffer of that name. -/
def createNodeSync (a : CreateArgs) (ret : Int) (newPath : QString) (n : NodeId) (s : Manager) :
    Returned × Manager :=
  if s.pool.contains a.path then (⟨s.pool.value a.path, none⟩, s)
  else
    let s := s.invoke .zooCreate a.request
    if ZooKeeperError.ofInt ret = .noError then
      (⟨some n, writeError a.wantsError ret⟩,
        { s with pool := s.pool.createNodeSync a.type a.path a.value newPath n })
    else (⟨none, writeError a.wantsError ret⟩, s)

/-- `ZooKeeperNode::addChildNode`, on a node with the fields `d`. Where the type was
never set, `unset` is what is read there: one of the types, or some other value. -/
def addChildNode (d : ZooKeeperNode) (unset : Option ZooKeeperNodeType) (type : ZooKeeperNodeType)
    (name : QString) (value : QByteArray) (ret : Int) (ctx : CtxId) (n : NodeId) (s : Manager) :
    Returned × Manager :=
  let nodeType := d.type.or unset
  if nodeType = some .persistentNode ∨ nodeType = some .sequenceNode then
    s.createNode { type := type, path := d.path ++ "/" ++ name, value := value } ret ctx n
  else (⟨none, none⟩, s)

/-! ## Deleting nodes -/

/-- `ZooKeeperManager::deleteNode` -/
def deleteNode (path : QString) (ret : Int) (ctx : CtxId) (s : Manager) :
    Except AccessFault (ZooKeeperError × Manager) := do
  -- the node goes before the client is asked
  let pool ← s.pool.deleteNode path
  let s := { s with pool := pool }
  pure (.ofInt ret, s.submit .zooAdelete { path := constData (toLatin1 path) } ret
    { ctx := ctx, op := .delete, path := path })

/-- `ZooKeeperManager::deleteNodeSync` -/
def deleteNodeSync (path : QString) (ret : Int) (s : Manager) :
    Except AccessFault (ZooKeeperError × Manager) := do
  let pool ← s.pool.deleteNode path
  let s := { s with pool := pool }
  pure (.ofInt ret, s.invoke .zooDelete { path := constData (toUtf8 path) })

/-! ## Existence and values -/

/-- `ZooKeeperManager::existsNode` -/
def existsNode (path : QString) (ret : Int) (ctx : CtxId) (s : Manager) :
    ZooKeeperError × Manager :=
  (.ofInt ret, s.submit .zooAexists { path := constData (toLatin1 path) } ret
    { ctx := ctx, op := .exists_, path := path })

/-- `ZooKeeperManager::existsNodeSync` -/
def existsNodeSync (path : QString) (ret : Int) (s : Manager) : ZooKeeperError × Manager :=
  (.ofInt ret, s.invoke .zooExists { path := constData (toLatin1 path) })

/-- `ZooKeeperManager::setNodeValue` -/
def setNodeValue (path : QString) (value : QByteArray) (ret : Int) (ctx : CtxId) (s : Manager) :
    ZooKeeperError × Manager :=
  (.ofInt ret, s.submit .zooAset { path := constData (toLatin1 path), value := value } ret
    { ctx := ctx, op := .set, path := path, value := value })

/-- `ZooKeeperManager::setNodeValueSync` -/
def setNodeValueSync (path : QString) (value : QByteArray) (ret : Int) (s : Manager) :
    ZooKeeperError × Manager :=
  (.ofInt ret, s.invoke .zooSet { path := constData (toLatin1 path), value := value })

/-- `ZooKeeperManager::getNodeValue`, with or without a callback. -/
def getNodeValue (path : QString) (callback wantsError : Bool) (ret : Int) (ctx : CtxId)
    (n : NodeId) (s : Manager) : Returned × Manager :=
  let (node, pool) := s.pool.readNode path n
  let s := { s with pool := pool }
  (⟨node, writeError wantsError ret⟩,
    s.submit .zooAget { path := constData (toLatin1 path) } ret
      { ctx := ctx, op := .get, path := path, node := node, callback := callback })

/-- The value a synchronous reader takes from its buffer; it looks at it only
when the read succeeded. -/
def readValue (r : SyncRead) : Except AccessFault QByteArray :=
  if r.error = .noError then
    match r.value with
    | some v => pure v
    | none => .error .pastEnd
  else pure []

theorem readValue_succeeded {r : SyncRead} {v : QByteArray} (hrc : r.rc = 0) :
    readValue r = .ok v ↔ r.value = some v := by
  have he : r.error = .noError := ZooKeeperError.ofInt_eq_noError.mpr hrc
  rw [readValue, if_pos he]
  cases r.value <;> simp

/-- `ZooKeeperManager::getNodeValueSync` -/
def getNodeValueSync (path : QString) (wantsError : Bool) (r : SyncRead) (n : NodeId) (s : Manager) :
    Except AccessFault (Returned × Manager) := do
  let value ← readValue r
  let (node, pool) ← s.pool.readNodeSync path n r.error value
  let s := s.invoke .zooGet { path := constData (toLatin1 path) }
  pure (⟨node, writeError wantsError r.rc⟩, { s with pool := pool })

/-- `ZooKeeperManager::wgetNodeValue` -/
def wgetNodeValue (path : QString) (callback : Bool) (r : SyncRead) (ctx : CtxId) (n : NodeId)
    (s : Manager) : Except AccessFault (NodePtr × Manager) := do
  let value ← readValue r
  let (node, pool) ← s.pool.readNodeSync path n r.error value
  let s := s.watch .zooWget { path := constData (toLatin1 path) } r.rc
    { ctx := ctx, path := path, callback := callback, children := false }
  pure (node, { s with pool := pool })

/-! ## Children -/

/-- The names a reader of children collects. -/
def childrenOf (error : ZooKeeperError) (strings : List QString) : List QString :=
  if error = .noError then strings else []

/-- `ZooKeeperManager::getChildrenNode`, with or without a callback. -/
def getChildrenNode (path : QString) (callback : Bool) (ret : Int) (ctx : CtxId) (s : Manager) :
    ZooKeeperError × Manager :=
  (.ofInt ret, s.submit .zooAgetChildren { path := constData (toLatin1 path) } ret
    { ctx := ctx, op := .getChildren, path := path, callback := callback })

/-- `ZooKeeperManager::getChildrenNodeSync`, with the children it stores. -/
def getChildrenNodeSync (path : QString) (ret : Int) (strings : List QString) (s : Manager) :
    (ZooKeeperError × List QString) × Manager :=
  ((.ofInt ret, childrenOf (.ofInt ret) strings),
    s.invoke .zooGetChildren { path := constData (toLatin1 path) })

/-- `ZooKeeperManager::wgetChildrenNode`, with the children it stores. -/
def wgetChildrenNode (path : QString) (callback : Bool) (ret : Int) (strings : List QString)
    (ctx : CtxId) (s : Manager) : (ZooKeeperError × List QString) × Manager :=
  ((.ofInt ret, childrenOf (.ofInt ret) strings),
    s.watch .zooWgetChildren { path := constData (toLatin1 path) } ret
      { ctx := ctx, path := path, callback := callback, children := true })

/-- `ZooKeeperManager::findNode` -/
def findNode (path : QString) (s : Manager) : NodePtr :=
  if s.pool.contains path then s.pool.value path else none

/-- `ZooKeeperNode::setExists` -/
def setExists (node : NodePtr) (exists_ : Bool) (s : Manager) : Except AccessFault Manager := do
  let pool ← s.pool.setExists node exists_
  pure { s with pool := pool }

/-! ## The session -/

/-- `ZooKeeperManager::addAuth` -/
def addAuth (scheme cert : QString) (s : Manager) : Manager :=
  if scheme = "digest" then s.invoke .zooAddAuth { value := toUtf8 cert } else s

/-- `ZooKeeperManagerPrivate::processDisconnected` -/
def processDisconnected (s : Manager) : Except AccessFault Manager := do
  let pool ← s.pool.processDisconnected
  let s := { s with pool := pool, session := { s.session with connected := false } }
  pure (s.notify .manager .disconnected)

/-- The `switch` of `ZooKeeperManagerPrivate::watcher` on the session state. -/
def sessionEvent (zzh : HandleId) (state : ZooKeeperState) (id : Int) (s : Manager) :
    Except AccessFault Manager :=
  match state with
  | .connected =>
    pure ({ s with session := s.session.connect zzh id }.notify .manager .connected)
  | .connecting => pure s
  -- the four states of the source and its `default`
  | _ =>
    let s := { s with session := s.session.close zzh }
    (s.notify .manager (.error (error2string state))).processDisconnected

/-- `ZooKeeperManagerPrivate::watcher`; `id` is what `zoo_client_id` returns. -/
def watcher (zzh : HandleId) (type : ZooKeeperType) (state : Int) (path : QString) (id : Int)
    (s : Manager) : Except AccessFault Manager := do
  let s ← (if type = .sessionEvent then s.sessionEvent zzh (.ofInt state) id else pure s)
  pure (s.notify .manager (.watcher type (.ofInt state) path))

/-- The timer of `initialize`; `state` is what `zoo_state` returns. -/
def timerFires (state : Int) (s : Manager) : Manager :=
  let s := { s with session := s.session.timerFires }
  if ZooKeeperState.ofInt state ≠ .connected ∧ ZooKeeperState.ofInt state ≠ .connecting then
    s.notify .manager (.error "ZooKeeper Error: 连接超时.")
  else s

/-! ## Completions -/

/-- The answer the client delivers for a request. Failed requests come with a
null name and null data. -/
inductive Completion where
  | create (rc : Int) (name : Option QString)
  | delete (rc : Int)
  | exists_ (rc : Int)
  | set (rc : Int)
  | get (rc : Int) (value : ZnodeData)
  | getChildren (rc : Int) (strings : List QString)
  deriving DecidableEq, Repr

/-- The result code of a completion. -/
def Completion.rc : Completion → Int
  | create rc _ | delete rc | exists_ rc | set rc | get rc _ | getChildren rc _ => rc

/-- The completion function belongs to the request, and a failed request comes
with null results (`deserialize_response`). -/
def Completion.Answers : Completion → Request → Bool
  | .create rc name, r => r.op = .create && (rc = 0 || name.isNone)
  | .delete _, r => r.op = .delete
  | .exists_ _, r => r.op = .exists_
  | .set _, r => r.op = .set
  | .get rc value, r => r.op = .get && (rc = 0 || value.isNone)
  | .getChildren _ _, r => r.op = .getChildren

/-- The request leaves the client and its context is deleted. -/
def release (s : Manager) (r : Request) : Manager :=
  { s with pending := s.pending.erase r, released := s.released ++ [r.ctx] }

/-- `acreateCompletion` -/
def acreateCompletion (r : Request) (rc : Int) (name : Option QString) (s : Manager) :
    Except AccessFault Manager := do
  let pool ← s.pool.acreateCompletion (.ofInt rc) name r.path
  let path := if r.path ≠ "" then Pool.reportedPath name r.path else name.getD ""
  pure (({ s with pool := pool }.release r).notify .manager (.createNodeFinished (.ofInt rc) path))

/-- `agetCompletion`; the callback runs before the node is used. -/
def agetCompletion (r : Request) (rc : Int) (value : ZnodeData) (s : Manager) :
    Except AccessFault Manager := do
  let nodeValue := completionValue value
  let s := if r.callback then s.notify (.callback r.ctx) (.nodeValue (.ofInt rc) nodeValue) else s
  let pool ← s.pool.agetCompletion (.ofInt rc) nodeValue r.path
  pure ({ s with pool := pool }.release r)

/-- `adeleteCompletion`, `asetCompletion` and `aexistsCompletion`, which differ
in the signal and in the object they emit it on. -/
def plainCompletion (r : Request) (via : Via) (report : Report) (s : Manager) : Manager :=
  (s.release r).notify via report

/-- `adeleteCompletion` -/
def adeleteCompletion (r : Request) (rc : Int) (s : Manager) : Manager :=
  s.plainCompletion r .manager (.deleteNodeFinished (.ofInt rc) r.path)

/-- `aexistsCompletion`, which casts the context to the manager. -/
def aexistsCompletion (r : Request) (rc : Int) (s : Manager) : Manager :=
  s.plainCompletion r (.context r.ctx) (.existsNodeFinished (.ofInt rc) r.path)

/-- `asetCompletion` -/
def asetCompletion (r : Request) (rc : Int) (s : Manager) : Manager :=
  s.plainCompletion r .manager (.setNodeValueFinished (.ofInt rc) r.path)

/-- What `agetChildrenCompletion` tells the application; the callback gets no path. -/
def childrenReport (r : Request) (rc : Int) (strings : List QString) : Via × Report :=
  let children := childrenOf (.ofInt rc) strings
  if r.callback then (.callback r.ctx, .nodeChildren (.ofInt rc) children)
  else (.manager, .getChildrenNodeFinished (.ofInt rc) r.path children)

/-- `agetChildrenCompletion` -/
def agetChildrenCompletion (r : Request) (rc : Int) (strings : List QString) (s : Manager) :
    Manager :=
  let (via, report) := childrenReport r rc strings
  (s.notify via report).release r

/-- The client delivers the completion of a request. -/
def deliver (r : Request) (c : Completion) (s : Manager) : Except AccessFault Manager :=
  match c with
  | .create rc name => s.acreateCompletion r rc name
  | .delete rc => pure (s.adeleteCompletion r rc)
  | .exists_ rc => pure (s.aexistsCompletion r rc)
  | .set rc => pure (s.asetCompletion r rc)
  | .get rc value => s.agetCompletion r rc value
  | .getChildren rc strings => pure (s.agetChildrenCompletion r rc strings)

/-! ## Watch events -/

/-- The answer of the read a watch callback makes. -/
inductive WatchAnswer where
  | value (r : SyncRead)
  | children (rc : Int) (strings : List QString)

def WatchAnswer.isChildren : WatchAnswer → Bool
  | value _ => false
  | children _ _ => true

/-- The value the data watch callback takes from its buffer, whatever the result. -/
def readText (r : SyncRead) : Except AccessFault QByteArray :=
  match r.text with
  | some v => pure v
  | none => .error .pastEnd

theorem readText_eq_ok {r : SyncRead} {v : QByteArray} : readText r = .ok v ↔ r.text = some v := by
  unfold readText
  cases r.text <;> simp

/-- `ZooKeeperManagerPrivate::wgetNodeValue`, the data watch callback. -/
def dataWatchEvent (w : Watch) (type : ZooKeeperType) (state : Int) (path : Bytes) (r : SyncRead)
    (s : Manager) : Except AccessFault Manager := do
  let s := s.invoke .zooWget { path := path }
  -- the buffer is converted even if the read failed
  let value ← readText r
  let via := if w.callback then .callback w.ctx else .manager
  pure (s.notify via (.wgetNodeValueFinished r.error w.path value type (.ofInt state)))

/-- `ZooKeeperManagerPrivate::wgetChildrenNode`, the child watch callback. -/
def childWatchEvent (w : Watch) (type : ZooKeeperType) (state : Int) (path : Bytes) (rc : Int)
    (strings : List QString) (s : Manager) : Manager :=
  let s := s.invoke .zooWgetChildren { path := path }
  let via := if w.callback then .callback w.ctx else .manager
  s.notify via (.wgetChildrenNodeFinished (.ofInt rc) w.path (childrenOf (.ofInt rc) strings) type
    (.ofInt state))

/-- The callback of a watch is run. -/
def watchEvent (w : Watch) (type : ZooKeeperType) (state : Int) (path : Bytes) (a : WatchAnswer)
    (s : Manager) : Except AccessFault Manager :=
  match a with
  | .value r => s.dataWatchEvent w type state path r
  | .children rc strings => pure (s.childWatchEvent w type state path rc strings)

end Manager

end QtZooKeeper
