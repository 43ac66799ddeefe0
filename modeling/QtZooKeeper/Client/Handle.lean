-- SUMMARY: The handle of the C client: its queues, its connection, and what the threads do to them.
import QtZooKeeper.Client.Handshake
import QtZooKeeper.Client.Packets
import QtZooKeeper.Client.Reads
import QtZooKeeper.Client.Watches

/-!
# The handle

A handle has a queue of packets to send, the completions of the requests that wait for
an answer, the packets that have come, and the completions that are ready to run. The
threads of the application put requests in, the IO thread moves packets between the
queues and the socket, and the completion thread runs the callbacks.

Each definition here is a function of the source, or a part of one, and is taken to be one
step: no other thread touches the handle meanwhile. A request is queued under the lock of
the handle. `zookeeper_process` takes a completion off `sent_requests` under the lock of
that list and settles it later without this lock, so `processPacket` and `settleAnswer`
are two steps. For `zoo_add_auth`, `check_events`, `handle_error` and `free_completions`,
each of which takes more than one lock, it is an assumption. `outstanding_sync` is left
out, which the threads count up under a lock and down without one: with threads of its
own the client does nothing with the count.

Besides the handle, a client has the connection and a record of what has happened: the
calls for which `add_completion` returned `ZOK`, the authentications that were added, the
addresses that were tried, what the threads of the application have got to see, and what
the servers have answered.
-/

namespace QtZooKeeper

/-! ## Data -/

/-- `WATCHER_EVENT_XID` -/
def watcherEventXid : Int32 := -1

/-- `PING_XID` -/
def pingXid : Int32 := -2

/-- `AUTH_XID` -/
def authXid : Int32 := -4

/-- `SET_WATCHES_XID` -/
def setWatchesXid : Int32 := -8

/-- The numbers that stand for something other than a request. -/
def reservedXids : List Int32 := [watcherEventXid, pingXid, authXid, setWatchesXid]

/-- `watcher_registration_t` -/
structure WatcherRegistration where
  checker : ResultChecker
  path : CStr
  watcher : WatcherObject
  deriving DecidableEq, Repr

/-- `completion_list_t` in the list of requests that wait for an answer. `sync` says that
the callback is `SYNCHRONOUS_MARKER`; the caller has then a buffer of `buffLen` bytes, if it
wants data or a path. The operation is remembered for the proofs. -/
structure CompletionEntry where
  xid : Int32
  type : CompletionType
  sync : Bool
  data : Nat
  buffLen : Nat
  watcher : Option WatcherRegistration
  body : RequestBody
  deriving DecidableEq, Repr

/-- `completion_list_t` in the list of completions to process: a notification has no
entry, but the watchers it is for. -/
structure QueuedCompletion where
  entry : Option CompletionEntry
  buffer : Bytes
  watcherResult : WatcherList
  deriving DecidableEq, Repr

/-- What `zookeeper_process` has at hand when it has taken a completion off the list: the
header of the answer, the packet, and what the archive has behind the header. -/
structure TakenCompletion where
  cptr : CompletionEntry
  hdr : ReplyHeader
  bptr : Bytes
  ia : Bytes
  deriving DecidableEq, Repr

/-- `auth_info` -/
structure AuthInfo where
  active : Bool
  scheme : CStr
  auth : Buffer
  completion : Bool
  data : Nat
  deriving DecidableEq, Repr

/-- What `input_buffer` points to. -/
inductive InputBuffer where
  | null
  | primer
  | packet (b : InBuffer)
  deriving DecidableEq, Repr

/-- `struct _zhandle`. The descriptor is -1 or open. -/
structure Zhandle where
  fd : Bool
  addrsCount : Nat
  connectIndex : Nat
  chroot : Option Bytes
  state : ZooKeeperState
  recvTimeout : Int32
  clientId : Int64
  passwd : Passwd
  lastZxid : Int64
  inputBuffer : InputBuffer
  primerBuffer : InBuffer
  toProcess : List Bytes
  toSend : List SendBuffer
  sentRequests : List CompletionEntry
  completionsToProcess : List QueuedCompletion
  auths : List AuthInfo
  watches : WatchTables
  closeRequested : Bool

/-- The connection behind an open descriptor: the bytes on their way in either direction,
and what the server at the other end has come to, if it keeps to the protocol. It has
answered the connect request or not, and has requests that it has read and not answered. -/
structure Socket where
  up : Bytes
  down : Bytes
  greeted : Bool
  todo : List (RequestHeader × RequestBody)
  deriving DecidableEq, Repr

/-- A connection on which nothing has been written. -/
def Socket.fresh : Socket := ⟨[], [], false, []⟩

/-- A request that the server has answered. -/
structure Served where
  xid : Int32
  body : RequestBody
  err : Int32
  res : AnswerBody
  deriving DecidableEq, Repr

/-- What a callback is to get for it. -/
def Served.response (s : Served) : Response := ⟨s.err, if s.err = 0 then some s.res else none⟩

/-- What the threads of the application get to see. -/
inductive Upcall where
  /-- The watchers of a list are called. -/
  | watchers (type state : Int32) (path : CharPtr) (list : WatcherList)
  /-- A callback is called. -/
  | completed (c : CompletionEntry) (r : Response)
  /-- A thread that waits for its answer is woken. -/
  | woken (c : CompletionEntry) (r : Response)
  /-- The callback of an authentication is called. -/
  | authenticated (rc : Int32) (data : Nat)
  deriving DecidableEq, Repr

/-- A handle, its connection, and what has happened so far. `taken` is what the IO thread
has to settle. `freed` and `destroyed` say how far `zookeeper_close` has come. -/
structure Client where
  zh : Zhandle
  socket : Socket
  taken : Option TakenCompletion
  upcalls : List Upcall
  accepted : List CompletionEntry
  added : List AuthInfo
  tried : List Nat
  served : List Served
  freed : Bool
  destroyed : Bool

/-- What the code does not survive. -/
inductive HandleFault where
  /-- An archive failed. -/
  | archive (f : ArchiveFault)
  /-- An assertion failed. -/
  | assertion
  /-- A field was used that no reader had set. -/
  | indeterminate
  /-- A null pointer was followed. -/
  | nullPointer
  /-- Memory was released twice. -/
  | freedTwice
  deriving DecidableEq, Repr

/-- What `process_sync_completion` copies of a `struct buffer`. -/
def Buffer.syncData (size : Nat) (data : Buffer) : Buffer :=
  (QtZooKeeper.syncData size (data.map CBytes.bytes)).pmap CBytes.mk (by
    intro v hv
    cases data with
    | none => simp [syncData_none] at hv
    | some bs =>
      rw [Option.map_some, syncData_some, Option.some.injEq] at hv
      subst hv
      exact (List.length_take_le' ..).trans_lt bs.length_lt)

/-- What it copies of the path of a new znode. -/
def CStr.syncString (chroot : Option Bytes) (size : Nat) (path : CStr) : CStr where
  bytes := QtZooKeeper.syncString chroot size path.bytes
  noZero := zero_not_mem_syncString path.noZero
  length_lt := (length_syncString_le ..).trans_lt (max_lt path.length_lt (by decide))

/-- `is_unrecoverable` -/
def Zhandle.isUnrecoverable (zh : Zhandle) : Bool := zh.state.toInt < 0

/-- An error code in a header. -/
def ZooKeeperError.toInt32 (e : ZooKeeperError) : Int32 := .ofInt e.toInt

/-- The input buffer behind `cleanup_bufs`. -/
def InputBuffer.cleaned : InputBuffer → InputBuffer
  | .packet _ => .null
  | .null => .null
  | .primer => .primer

namespace Client

/-! ## Completions and queues -/

/-- What `get_buffer` has after a record has been written into a new archive. -/
def packetBytes [Host] (ops : List ArchiveOp) : Except HandleFault Bytes :=
  match archiveBytes ops with
  | .ok bs => .ok bs
  | .error f => .error (.archive f)

/-- The answer that `free_completions` makes up. -/
def fakeResponse (xid reason : Int32) : Bytes := wire (serializeReplyHeader ⟨xid, -1, reason⟩)

/-- The packet of `queue_session_event`. -/
def sessionEvent (state : ZooKeeperState) : Bytes :=
  wire (serializeReplyHeader ⟨watcherEventXid, 0, 0⟩ ++
    serializeWatcherEvent ⟨-1, .ofInt state.toInt, some ⟨[], by decide, by decide⟩⟩)

/-- `queue_session_event`, which is `PROCESS_SESSION_EVENT` -/
def queueSessionEvent (state : ZooKeeperState) (c : Client) : Client :=
  { c with zh.completionsToProcess := c.zh.completionsToProcess ++
      [⟨none, sessionEvent state, (collectWatchers .sessionEvent [] c.zh.watches).1⟩] }

/-- What `free_completions` does with one request. -/
def freeCompletion (reason : Int32) (c : Client) (e : CompletionEntry) : Client :=
  if e.sync then
    { c with upcalls := c.upcalls ++ [.woken e ⟨reason, none⟩] }
  else
    { c with zh.completionsToProcess := c.zh.completionsToProcess ++
        [⟨some e, fakeResponse e.xid reason, []⟩] }

/-- The callbacks of `get_auth_completions` are called, each once and never again. -/
def callAuthCompletions (rc : Int32) (c : Client) : Client :=
  { c with
    upcalls := c.upcalls ++ (c.zh.auths.filter (·.completion)).map (.authenticated rc ·.data)
    zh.auths := c.zh.auths.map ({ · with completion := false }) }

/-- `free_completions` with `callCompletion` -/
def freeCompletions (reason : Int32) (c : Client) : Client :=
  callAuthCompletions reason
    (c.zh.sentRequests.foldl (freeCompletion reason) { c with zh.sentRequests := [] })

/-- `cleanup_bufs` -/
def cleanupBufs (rc : Int32) (c : Client) : Client :=
  let c := { c with zh.toSend := [], zh.toProcess := [] }
  let c := freeCompletions rc c
  match c.zh.inputBuffer with
  | .packet _ => { c with zh.inputBuffer := .null }
  | .null | .primer => c

/-- `handle_error`, which `handle_socket_error_msg` calls behind a line in the log -/
def handleError (rc : ZooKeeperError) (c : Client) : Client :=
  let c :=
    if c.zh.isUnrecoverable then queueSessionEvent c.zh.state c
    else if c.zh.state = .connected then queueSessionEvent .connecting c
    else c
  let c := cleanupBufs rc.toInt32 c
  { c with
    zh.fd := false
    zh.connectIndex := c.zh.connectIndex + 1
    zh.state := if c.zh.isUnrecoverable then c.zh.state else .closed
    socket := .fresh }

/-- `queue_buffer_bytes` -/
def queueBufferBytes (packet : Bytes) (c : Client) : Client :=
  { c with zh.toSend := c.zh.toSend ++ [⟨packet, 0⟩] }

/-- `queue_front_buffer_bytes` -/
def queueFrontBufferBytes (packet : Bytes) (c : Client) : Client :=
  { c with zh.toSend := ⟨packet, 0⟩ :: c.zh.toSend }

/-! ## Requests -/

/-- `add_completion` -/
def addCompletion (e : CompletionEntry) (c : Client) : ZooKeeperError × Client :=
  if c.zh.closeRequested then (.invliadState, c)
  else
    (.noError,
      { c with
        zh.sentRequests := c.zh.sentRequests ++ [e]
        accepted := c.accepted ++ [e] })

/-- The critical section of a `zoo_a*` function, behind its checks: the completion and
the packet are queued together. -/
def submit [Host] (e : CompletionEntry) (c : Client) : Except HandleFault (ZooKeeperError × Client) := do
  let packet ← packetBytes (requestPacket e.xid e.body)
  match addCompletion e c with
  | (.noError, c) => return (.noError, queueBufferBytes packet c)
  | (_, c) => return (.marshallingError, c)

/-- The packet of `send_info_packet`. -/
def authPacket [Host] (auth : AuthInfo) : Except HandleFault Bytes :=
  packetBytes (requestPacket authXid (.setAuthOp ⟨0, some auth.scheme, auth.auth⟩))

/-- `send_info_packet` -/
def sendInfoPacket [Host] (c : Client) (auth : AuthInfo) : Except HandleFault Client := do
  let packet ← authPacket auth
  return queueFrontBufferBytes packet c

/-- `send_auth_info`: one after another, each in front of the one before. -/
def sendAuthInfo [Host] (c : Client) : Except HandleFault Client :=
  c.zh.auths.foldlM sendInfoPacket c

/-- `send_last_auth_info` -/
def sendLastAuthInfo [Host] (c : Client) : Except HandleFault Client :=
  match c.zh.auths.getLast? with
  | none => return c
  | some auth => sendInfoPacket c auth

/-- `zoo_add_auth` with a scheme -/
def zooAddAuth [Host] (auth : AuthInfo) (c : Client) : Except HandleFault (ZooKeeperError × Client) :=
  if c.zh.isUnrecoverable then return (.invliadState, c)
  else if c.zh.state = .closed then return (.invliadState, c)
  else
    let c := { c with zh.auths := c.zh.auths ++ [auth], added := c.added ++ [auth] }
    if c.zh.state = .connected ∨ c.zh.state = .assoctating then do
      return (.noError, ← sendLastAuthInfo c)
    else return (.noError, c)

/-- Bytes that something else keeps, as a C string. -/
def charPtr (bs : Bytes) : CharPtr :=
  if h : 0 ∉ bs ∧ bs.length < 2 ^ 31 then some ⟨bs, h.1, h.2⟩ else none

/-- `collect_keys` -/
def collectKeys (ht : ZkHashtable) : Except HandleFault StringVector :=
  if h : (ht.keys.map charPtr).length < 2 ^ 31 then
    .ok
      { count := .ofNat (ht.keys.map charPtr).length
        data := ht.keys.map charPtr
        length_eq := by rw [Int32.toInt_ofNat_of_lt h, Int.toNat_natCast] }
  else .error (.archive .overflow)

/-- The record of `send_set_watches`. -/
def setWatches (zh : Zhandle) : Except HandleFault SetWatches := do
  let dataWatches ← collectKeys (zh.watches .activeNodeWatchers)
  let existWatches ← collectKeys (zh.watches .activeExistWatchers)
  let childWatches ← collectKeys (zh.watches .activeChildWatchers)
  return { relativeZxid := zh.lastZxid, dataWatches, existWatches, childWatches }

/-- `send_set_watches` -/
def sendSetWatches [Host] (c : Client) : Except HandleFault Client := do
  let req ← setWatches c.zh
  if req.dataWatches.count = 0 ∧ req.existWatches.count = 0 ∧ req.childWatches.count = 0 then
    return c
  else
    let packet ← packetBytes (requestPacket setWatchesXid (.setWatchesOp req))
    return queueFrontBufferBytes packet c

/-- `send_ping` -/
def sendPing (c : Client) : Client := queueBufferBytes (wire (requestPacket pingXid .pingOp)) c

/-! ## The connection -/

/-- The connect request of `prime_connection`. -/
def connectReq (zh : Zhandle) : ConnectReq where
  protocolVersion := 0
  lastZxidSeen := zh.lastZxid
  timeOut := zh.recvTimeout
  sessionId := zh.clientId
  passwdLen := 16
  passwd := zh.passwd

/-- `prime_connection`, with the results of its two calls of `send`. What they do not take
is not sent again. -/
def primeConnection [Host] (r₁ r₂ : SendResult) (c : Client) : ZooKeeperError × Client :=
  match r₁.send (intBytes (htonl 44)) with
  | .error _ => (.connectionLoss, handleError .connectionLoss c)
  | .ok w₁ =>
    match r₂.send (serializePrimeConnect (connectReq c.zh)) with
    | .error _ => (.connectionLoss, handleError .connectionLoss c)
    | .ok w₂ =>
      (.noError,
        { c with
          socket.up := c.socket.up ++ (w₁ ++ w₂)
          zh.state := .assoctating
          zh.inputBuffer := .primer
          zh.primerBuffer := { c.zh.primerBuffer with currOffset := 4 } })

/-- What a call of `connect` comes to. -/
inductive ConnectResult where
  | connected
  | inProgress
  | failed
  deriving DecidableEq, Repr

/-- What the calls of `zookeeper_interest` into the system come to, and what its clocks
say: whether the receive timeout has passed, and whether a ping is due. -/
structure InterestEnv where
  socketOk : Bool
  connect : ConnectResult
  send₁ : SendResult
  send₂ : SendResult
  timedOut : Bool
  pingDue : Bool
  deriving DecidableEq, Repr

/-- The first half of `zookeeper_interest`, for a handle without a descriptor. It ends with
no error when the second half is to follow. -/
def openConnection [Host] (env : InterestEnv) (c : Client) : ZooKeeperError × Client :=
  if c.zh.connectIndex = c.zh.addrsCount then (.noError, { c with zh.connectIndex := 0 })
  else
    let c := { c with tried := c.tried ++ [c.zh.connectIndex] }
    if env.socketOk then
      let c := { c with zh.fd := true, socket := .fresh }
      match env.connect with
      | .failed => (.connectionLoss, handleError .connectionLoss c)
      | .inProgress => (.noError, { c with zh.state := .connecting })
      | .connected => primeConnection env.send₁ env.send₂ c
    else (.systemError, handleError .systemError c)

/-- The second half of `zookeeper_interest`, for an open descriptor. -/
def keepAlive (env : InterestEnv) (c : Client) : ZooKeeperError × Client :=
  if env.timedOut then (.operationTimeout, handleError .operationTimeout c)
  else if c.zh.state = .connected ∧ env.pingDue ∧ c.zh.sentRequests = [] then (.noError, sendPing c)
  else (.noError, c)

/-- `zookeeper_interest`, but for the time to wait and the events to wait for. -/
def zookeeperInterest [Host] (env : InterestEnv) (c : Client) : ZooKeeperError × Client :=
  if c.zh.isUnrecoverable then (.invliadState, c)
  else
    match (if c.zh.fd then (.noError, c) else openConnection env c) with
    | (.noError, c) => if c.zh.fd then keepAlive env c else (.noError, c)
    | (rc, c) => (rc, c)

/-! ## Events -/

/-- What the calls of `check_events` into the system come to. -/
structure EventEnv where
  write : Bool
  read : Bool
  /-- `getsockopt` finds no error. -/
  connectOk : Bool
  send₁ : SendResult
  send₂ : SendResult
  flush : List (SendResult × SendResult)
  recv₁ : RecvResult
  recv₂ : RecvResult
  deriving DecidableEq, Repr

/-- The buffer `check_events` reads into. -/
def inBuffer (zh : Zhandle) : InBuffer :=
  match zh.inputBuffer with
  | .null => .allocateBuffer
  | .primer => zh.primerBuffer
  | .packet b => b

/-- The buffer after a call of `recv_buffer`. -/
def setInBuffer (b : InBuffer) (zh : Zhandle) : Zhandle :=
  match zh.inputBuffer with
  | .null | .packet _ => { zh with inputBuffer := .packet b }
  | .primer => { zh with primerBuffer := b }

/-- `check_events` behind the last byte of the connect response. -/
def finishHandshake [Host] (c : Client) : Except HandleFault (ZooKeeperError × Client) :=
  let res := deserializePrimeResponse (c.zh.primerBuffer.buffer.getD [])
  if c.zh.clientId ≠ 0 ∧ c.zh.clientId ≠ res.sessionId then
    return (.sessionExpired, handleError .sessionExpired { c with zh.state := .expiredSession })
  else do
    let c :=
      { c with
        zh.recvTimeout := res.timeOut
        zh.clientId := res.sessionId
        zh.passwd := res.newPasswd c.zh.passwd
        zh.state := .connected }
    -- both push to the front, so the watches go first
    let c ← sendSetWatches c
    let c ← sendAuthInfo c
    return (.noError, queueSessionEvent .connected { c with zh.inputBuffer := .null })

/-- What `check_events` does when the socket can be read. -/
def readEvents [Host] (env : EventEnv) (c : Client) : Except HandleFault (ZooKeeperError × Client) :=
  match (inBuffer c.zh).recvBuffer env.recv₁ env.recv₂ c.socket.down with
  | (.failed, b, down) =>
    return (.connectionLoss,
      handleError .connectionLoss { c with zh := setInBuffer b c.zh, socket.down := down })
  | (.incomplete, b, down) =>
    return (.nothing, { c with zh := setInBuffer b c.zh, socket.down := down })
  | (.complete, b, down) =>
    let c := { c with zh := setInBuffer b c.zh, socket.down := down }
    match c.zh.inputBuffer with
    | .primer => finishHandshake c
    | .null | .packet _ =>
      return (.noError,
        { c with
          zh.toProcess := c.zh.toProcess ++ [b.buffer.getD []]
          zh.inputBuffer := .null })

/-- `check_events`, called by `zookeeper_process` for a handle that is not unrecoverable -/
def checkEvents [Host] (env : EventEnv) (c : Client) : Except HandleFault (ZooKeeperError × Client) :=
  if c.zh.fd = false then return (.invliadState, c)
  else if env.write ∧ c.zh.state = .connecting then
    if env.connectOk then return primeConnection env.send₁ env.send₂ c
    else return (.connectionLoss, handleError .connectionLoss c)
  else
    let (lost, toSend, w) :=
      if env.write ∧ c.zh.state = .connected then SendBuffer.flushSendQueue false env.flush c.zh.toSend
      else (false, c.zh.toSend, [])
    let c := { c with zh.toSend := toSend, socket.up := c.socket.up ++ w }
    if lost then return (.connectionLoss, handleError .connectionLoss c)
    else if env.read then readEvents env c
    else return (.noError, c)

/-! ## Packets -/

/-- The types of watch events; `collectWatchers` knows no others. -/
def eventType (type : Int32) : Option ZooKeeperType :=
  if type = 1 then some .createdEvent
  else if type = 2 then some .deletedEvent
  else if type = 3 then some .changedEvent
  else if type = 4 then some .childEvent
  else if type = -1 then some .sessionEvent
  else if type = -2 then some .notWatchingEvent
  else none

/-- `collectWatchers` for a type that came in a packet. -/
def watchersFor (type : Int32) (path : Bytes) (zh : WatchTables) : WatcherList × WatchTables :=
  match eventType type with
  | some t => collectWatchers t path zh
  | none => ([], zh)

/-- What a reader has set, behind which the fields are used. -/
def readFields {α : Type} (r : Except ArchiveError α × Bytes) : Except HandleFault (α × Bytes) :=
  match r with
  | (.ok a, rest) => .ok (a, rest)
  | (.error _, _) => .error .indeterminate

/-- What the fields are set to was read. -/
theorem readFields_eq_ok {α : Type} {p : Except ArchiveError α × Bytes} {a : α × Bytes}
    (h : readFields p = .ok a) : p = (.ok a.1, a.2) := by
  obtain ⟨_ | b, rest⟩ := p
  · cases h
  · cases h
    rfl

theorem readFields_ok {α : Type} {p : Except ArchiveError α × Bytes} {a : α} {rest : Bytes}
    (h : p = (.ok a, rest)) : readFields p = .ok (a, rest) := by
  rw [h]
  rfl

theorem readFields_error {α : Type} {p : Except ArchiveError α × Bytes} {e : ArchiveError}
    (h : p.1 = .error e) : readFields p = .error .indeterminate := by
  obtain ⟨_ | b, rest⟩ := p
  · rfl
  · cases h

/-- `auth_completion_func`. The line it writes to the log names the scheme of the first
authentication. -/
def authCompletionFunc (rc : Int32) (c : Client) : Except HandleFault Client :=
  let c :=
    if rc ≠ 0 then { c with zh.state := .authFailed }
    else { c with zh.auths := c.zh.auths.map ({ · with active := true }) }
  if c.zh.auths = [] then throw .nullPointer
  else return callAuthCompletions rc c

/-- `activateWatcher`, for a request that may have asked for no watch -/
def activate (reg : Option WatcherRegistration) (rc : Int32) (zh : WatchTables) : WatchTables :=
  match reg with
  | none => zh
  | some reg => activateWatcher reg.checker reg.path.bytes reg.watcher rc.toInt zh

/-- What `process_sync_completion` leaves a caller with a buffer of `size` bytes of the
record it has read. -/
def syncResult (chroot : Option Bytes) (size : Nat) (res : AnswerBody) :
    Except HandleFault AnswerBody :=
  match res with
  | .data res => return .data { res with data := res.data.syncData size }
  | .string ⟨some path⟩ => return .string ⟨some (path.syncString chroot size)⟩
  | .string ⟨none⟩ => throw .nullPointer
  | .void | .stat _ | .stringlist _ | .stringlistStat _ | .acllist _ => return res

/-- What it leaves the caller of an answer. -/
def syncResponse (chroot : Option Bytes) (size : Nat) (r : Response) :
    Except HandleFault Response :=
  match r.res with
  | none => return r
  | some res => return ⟨r.rc, some (← syncResult chroot size res)⟩

/-- `process_sync_completion`, which reads the same records as `deserialize_response` -/
def processSyncCompletion [Host] (cptr : CompletionEntry) (rc : Int32) (ia : Bytes)
    (zh : Zhandle) : Except HandleFault Response := do
  let (r, _) ← readFields (deserializeResponse cptr.type (rc != 0) rc ia)
  syncResponse zh.chroot cptr.buffLen r

/-- One iteration of the loop of `zookeeper_process`, which for the answer to a request ends
when the completion is taken off the list. The archive is four bytes longer than the
packet; `behind` is what stands there. -/
def processPacket [Host] (behind : Bytes) (c : Client) : Except HandleFault Client :=
  match c.zh.toProcess with
  | [] => return c
  | packet :: toProcess => do
    let c := { c with zh.toProcess := toProcess }
    let (hdr, rest) ← readFields (deserializeReplyHeader (packet ++ behind))
    let c := if 0 < hdr.zxid then { c with zh.lastZxid := hdr.zxid } else c
    if hdr.xid = pingXid then return c
    else if hdr.xid = watcherEventXid then
      let (evt, _) ← readFields (deserializeWatcherEvent rest)
      match evt.path with
      | none => throw .indeterminate
      | some path =>
        let (list, watches) := watchersFor evt.type path.bytes c.zh.watches
        return { c with
          zh.watches := watches
          zh.completionsToProcess := c.zh.completionsToProcess ++ [⟨none, packet, list⟩] }
    else if hdr.xid = setWatchesXid then return c
    else if hdr.xid = authXid then
      let c ← authCompletionFunc hdr.err c
      if c.zh.isUnrecoverable then return handleError .authFailed c else return c
    else
      match c.zh.sentRequests with
      | [] => if c.zh.closeRequested then return c else throw .assertion
      | cptr :: sent =>
        return { c with zh.sentRequests := sent, taken := some ⟨cptr, hdr, packet, rest⟩ }

/-- What `zookeeper_process` does with the completion it has taken. -/
def settleAnswer [Host] (c : Client) : Except HandleFault Client :=
  match c.taken with
  | none => return c
  | some ⟨cptr, hdr, bptr, ia⟩ =>
    let c := { c with taken := none }
    if cptr.xid ≠ hdr.xid then
      -- the completion goes back to the front and is freed with the others
      return handleError .runtimeInconsistency
        { c with zh.sentRequests := cptr :: c.zh.sentRequests }
    else
      let c := { c with zh.watches := activate cptr.watcher hdr.err c.zh.watches }
      if cptr.sync then do
        let r ← processSyncCompletion cptr hdr.err ia c.zh
        return { c with upcalls := c.upcalls ++ [.woken cptr r] }
      else
        return { c with zh.completionsToProcess :=
          c.zh.completionsToProcess ++ [⟨some cptr, bptr, []⟩] }

/-- One iteration of the loop of `process_completions`. -/
def processCompletion [Host] (c : Client) : Except HandleFault Client :=
  match c.zh.completionsToProcess with
  | [] => return c
  | q :: completionsToProcess => do
    let c := { c with zh.completionsToProcess := completionsToProcess }
    let (hdr, rest) ← readFields (deserializeReplyHeader q.buffer)
    if hdr.xid = watcherEventXid then
      let (evt, _) ← readFields (deserializeWatcherEvent rest)
      return { c with upcalls := c.upcalls ++ [.watchers evt.type evt.state evt.path q.watcherResult] }
    else
      match q.entry with
      | none => return c
      | some e =>
        let (r, _) ← readFields (deserializeResponse e.type (hdr.err != 0) hdr.err rest)
        return { c with upcalls := c.upcalls ++ [.completed e r] }

/-! ## Closing -/

/-- `zookeeper_close`, its first line -/
def requestClose (c : Client) : Client := { c with zh.closeRequested := true }

/-- `zookeeper_close` before it joins the threads -/
def freeOnClose (c : Client) : Client := { freeCompletions (ZooKeeperError.toInt32 .closure) c with freed := true }

/-- `zookeeper_close` after it has joined the threads: the session is ended if it is alive. -/
def sendClose [Host] (xid : Int32) (io : List (SendResult × SendResult)) (c : Client) : Client :=
  if c.zh.state = .connected then
    let c := queueBufferBytes (wire (requestPacket xid .closeOp)) c
    let (_, toSend, w) := SendBuffer.flushSendQueue true io c.zh.toSend
    { c with zh.toSend := toSend, socket.up := c.socket.up ++ w }
  else c

/-- `destroy`, but for the names and addresses of the servers -/
def destroy (c : Client) : Client :=
  let c := cleanupBufs (ZooKeeperError.toInt32 .closure) c
  { c with
    zh.fd := false
    zh.state := if c.zh.fd then .closed else c.zh.state
    zh.chroot := none
    zh.auths := []
    zh.watches := fun _ => ∅
    socket := .fresh
    destroyed := true }

/-! ## What becomes of outstanding requests -/

/-- The outstanding calls that are woken with a reason. -/
def wokenWith (reason : Int32) (sent : List CompletionEntry) : List Upcall :=
  (sent.filter (·.sync)).map fun e => .woken e ⟨reason, none⟩

/-- The outstanding calls that get a made up answer. -/
def failedWith (reason : Int32) (sent : List CompletionEntry) : List QueuedCompletion :=
  (sent.filter (!·.sync)).map fun e => ⟨some e, fakeResponse e.xid reason, []⟩

/-- The calls for authentications that have not been made. -/
def authCalls (rc : Int32) (auths : List AuthInfo) : List Upcall :=
  (auths.filter (·.completion)).map fun a => .authenticated rc a.data

/-- The session event that goes before the failed requests of a lost connection. -/
def lossEvents (zh : Zhandle) : List QueuedCompletion :=
  if zh.isUnrecoverable then
    [⟨none, sessionEvent zh.state, (collectWatchers .sessionEvent [] zh.watches).1⟩]
  else if zh.state = .connected then
    [⟨none, sessionEvent .connecting, (collectWatchers .sessionEvent [] zh.watches).1⟩]
  else []

theorem foldl_freeCompletion {reason : Int32} {sent : List CompletionEntry} {c : Client} :
    sent.foldl (freeCompletion reason) c =
      { c with
        upcalls := c.upcalls ++ wokenWith reason sent
        zh.completionsToProcess := c.zh.completionsToProcess ++ failedWith reason sent } := by
  induction sent generalizing c with
  | nil => simp [wokenWith, failedWith]
  | cons e sent ih =>
    rw [List.foldl_cons, ih]
    cases hsync : e.sync <;>
      simp [freeCompletion, wokenWith, failedWith, hsync]

/-- Every outstanding request is woken or fails, in the order of the requests. -/
theorem freeCompletions_eq {reason : Int32} {c : Client} :
    freeCompletions reason c =
      { c with
        upcalls := c.upcalls ++ wokenWith reason c.zh.sentRequests ++ authCalls reason c.zh.auths
        zh.sentRequests := []
        zh.completionsToProcess := c.zh.completionsToProcess ++ failedWith reason c.zh.sentRequests
        zh.auths := c.zh.auths.map ({ · with completion := false }) } := by
  rw [freeCompletions, foldl_freeCompletion]
  rfl

theorem cleanupBufs_eq {rc : Int32} {c : Client} :
    cleanupBufs rc c =
      { c with
        upcalls := c.upcalls ++ wokenWith rc c.zh.sentRequests ++ authCalls rc c.zh.auths
        zh.toSend := []
        zh.toProcess := []
        zh.sentRequests := []
        zh.inputBuffer := c.zh.inputBuffer.cleaned
        zh.completionsToProcess := c.zh.completionsToProcess ++ failedWith rc c.zh.sentRequests
        zh.auths := c.zh.auths.map ({ · with completion := false }) } := by
  rw [cleanupBufs]
  dsimp only
  rw [freeCompletions_eq]
  cases c.zh.inputBuffer <;> rfl

theorem handleError_eq {rc : ZooKeeperError} {c : Client} :
    handleError rc c =
      { c with
        socket := .fresh
        upcalls := c.upcalls ++ wokenWith rc.toInt32 c.zh.sentRequests ++
          authCalls rc.toInt32 c.zh.auths
        zh.fd := false
        zh.connectIndex := c.zh.connectIndex + 1
        zh.state := if c.zh.isUnrecoverable then c.zh.state else .closed
        zh.toSend := []
        zh.toProcess := []
        zh.sentRequests := []
        zh.inputBuffer := c.zh.inputBuffer.cleaned
        zh.completionsToProcess := c.zh.completionsToProcess ++ lossEvents c.zh ++
          failedWith rc.toInt32 c.zh.sentRequests
        zh.auths := c.zh.auths.map ({ · with completion := false }) } := by
  have hevents : (if c.zh.isUnrecoverable then queueSessionEvent c.zh.state c
      else if c.zh.state = .connected then queueSessionEvent .connecting c else c) =
      { c with zh.completionsToProcess := c.zh.completionsToProcess ++ lossEvents c.zh } := by
    rw [lossEvents]
    split
    · rfl
    · split
      · rfl
      · rw [List.append_nil]
  rw [handleError, hevents, cleanupBufs_eq]
  rfl

end Client

end QtZooKeeper
