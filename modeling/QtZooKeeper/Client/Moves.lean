-- SUMMARY: The elementary moves of the client, and that every step is made of them.
import QtZooKeeper.Client.HandleMachine
import Mathlib.Logic.Relation

/-!
# Moves

The functions of the handle branch on what the system and the packets say, and many
branches do the same thing to the handle. A move is such a thing. Every step is a
sequence of moves, so what each move preserves every run preserves.

The index `ordered` says whether the run keeps to the discipline of an `Ordered` run.
-/

namespace QtZooKeeper

/-- The steps of a server that keeps to the protocol. -/
def ClientLabel.IsServer : ClientLabel → Prop
  | serverGreets _ | serverReads _ _ _ | serverAnswers _ _ _ | serverNotifies _ _ => True
  | _ => False

/-- A buffer over the 40 bytes of `primer_storage_buffer`. -/
def InBuffer.Primer (b : InBuffer) : Prop :=
  b.len = 40 ∧ ∃ mem, b.buffer = some mem ∧ mem.length = 40

namespace Client

/-! ## Moves -/

/-- The reasons for which `handle_error` is called, but for an answer out of order. -/
def lossReasons : List ZooKeeperError :=
  [.systemError, .connectionLoss, .operationTimeout, .sessionExpired, .authFailed]

/-- The first packet is off the queue, and its header has been looked at. -/
def takePacket (toProcess : List Bytes) (zxid : Int64) (c : Client) : Client :=
  { c with
    zh.toProcess := toProcess
    zh.lastZxid := if 0 < zxid then zxid else c.zh.lastZxid }

/-- The first packet has the header `hdr`, and `rest` is behind it. -/
def FirstPacket [Host] (c : Client) (packet : Bytes) (toProcess : List Bytes) (hdr : ReplyHeader)
    (rest : Bytes) : Prop :=
  c.zh.toProcess = packet :: toProcess ∧
    ∃ behind, deserializeReplyHeader (packet ++ behind) = (.ok hdr, rest)

/-- The requests that have not been settled, with the one that the IO thread has taken. -/
def outstanding (c : Client) : List CompletionEntry :=
  (c.taken.map (·.cptr)).toList ++ c.zh.sentRequests

/-- What the IO thread has taken is answered with another number. -/
def Mismatch (c : Client) : Prop := ∃ a ∈ c.taken, a.cptr.xid ≠ a.hdr.xid

/-- `c₁` is `c` but for the connection and what goes over it, and what was taken is back in
the list. -/
def Disturbed (c c₁ : Client) : Prop :=
  c₁ = { c with
    socket := c₁.socket
    taken := none
    zh :=
      { c.zh with
        fd := c₁.zh.fd
        state := c₁.zh.state
        lastZxid := c₁.zh.lastZxid
        inputBuffer := c₁.zh.inputBuffer
        primerBuffer := c₁.zh.primerBuffer
        toProcess := c₁.zh.toProcess
        toSend := c₁.zh.toSend
        sentRequests := c.outstanding } }

/-- What `send_set_watches` pushes to the front. -/
def setWatchesPackets [Host] (zh : Zhandle) : Except HandleFault (List Bytes) := do
  let req ← setWatches zh
  if req.dataWatches.count = 0 ∧ req.existWatches.count = 0 ∧ req.childWatches.count = 0 then
    return []
  else
    let packet ← packetBytes (requestPacket setWatchesXid (.setWatchesOp req))
    return [packet]

/-- The handle behind a handshake in which `fronts` were pushed to the front. -/
def connected (res : PrimeStruct) (fronts : List Bytes) (c : Client) : Client :=
  queueSessionEvent .connected
    { c with
      zh.recvTimeout := res.timeOut
      zh.clientId := res.sessionId
      zh.passwd := res.newPasswd c.zh.passwd
      zh.state := .connected
      zh.inputBuffer := .null
      zh.toSend := fronts.map (⟨·, 0⟩) ++ c.zh.toSend }

/-- All authentications are marked active. -/
def markActiveAuth (c : Client) : Client :=
  { c with zh.auths := c.zh.auths.map ({ · with active := true }) }

inductive Move [Host] (ordered : Prop) : Client → Client → Prop where
  /-- A request is queued with its completion. -/
  | accept {c : Client} {e : CompletionEntry} {packet : Bytes} (hopen : c.zh.closeRequested = false)
      (htype : e.body.completion = some e.type) (hxid : e.xid ≠ watcherEventXid)
      (hpacket : packetBytes (requestPacket e.xid e.body) = .ok packet)
      (hgood : ordered → e.body.Complete ∧ e.xid ∉ reservedXids) :
      Move ordered c (queueBufferBytes packet (addCompletion e c).2)
  | addAuth {c : Client} {auth : AuthInfo} :
      Move ordered c { c with zh.auths := c.zh.auths ++ [auth], added := c.added ++ [auth] }
  | sendAuth {c : Client} {auth : AuthInfo} {packet : Bytes} (hmem : auth ∈ c.zh.auths)
      (hlive : c.zh.state = .connected ∨ c.zh.state = .assoctating)
      (hpacket : authPacket auth = .ok packet)
      (hhead : ordered → ∀ b ∈ c.zh.toSend.head?, b.currOffset = 0) :
      Move ordered c (queueFrontBufferBytes packet c)
  | ping {c : Client} (hlive : c.zh.state = .connected) (hidle : c.zh.sentRequests = []) :
      Move ordered c (sendPing c)
  /-- The connection is given up. -/
  | reset {c c₁ : Client} {rc : ZooKeeperError} (hdisturbed : c.Disturbed c₁) (hfd : c.zh.fd = true)
      (hrun : c.zh.isUnrecoverable = false)
      (hstate : c₁.zh.state = c.zh.state ∨ c₁.zh.state = .expiredSession ∨ c₁.zh.state = .authFailed)
      (hprimer : c₁.zh.isUnrecoverable = false → c₁.zh.primerBuffer = c.zh.primerBuffer ∧
        (c₁.zh.inputBuffer = .primer → c.zh.inputBuffer = .primer))
      (hrc : rc ∈ lossReasons ∨ rc = .runtimeInconsistency ∧ c.Mismatch) :
      Move ordered c (handleError rc c₁)
  | rewind {c : Client} (hfd : c.zh.fd = false) (hrun : c.zh.isUnrecoverable = false)
      (hindex : c.zh.connectIndex = c.zh.addrsCount) :
      Move ordered c { c with zh.connectIndex := 0 }
  | openSocket {c : Client} (hfd : c.zh.fd = false) (hindex : c.zh.connectIndex ≠ c.zh.addrsCount)
      (hrun : c.zh.isUnrecoverable = false) (halive : c.destroyed = false) :
      Move ordered c
        { c with
          zh.fd := true
          socket := .fresh
          tried := c.tried ++ [c.zh.connectIndex] }
  | connecting {c : Client} (hfd : c.zh.fd = true) (hrun : c.zh.isUnrecoverable = false)
      (hstate : c.zh.state ≠ .connected ∧ c.zh.state ≠ .assoctating) :
      Move ordered c { c with zh.state := .connecting }
  | prime {c : Client} {w₁ w₂ : Bytes} (hfd : c.zh.fd = true) (hrun : c.zh.isUnrecoverable = false)
      (hstate : c.zh.state ≠ .connected ∧ c.zh.state ≠ .assoctating)
      (hwhole : ordered → w₁ ++ w₂ = frame (connectWire (connectReq c.zh))) :
      Move ordered c
        { c with
          socket.up := c.socket.up ++ (w₁ ++ w₂)
          zh.state := .assoctating
          zh.inputBuffer := .primer
          zh.primerBuffer := { c.zh.primerBuffer with currOffset := 4 } }
  | flush {c : Client} {io : List (SendResult × SendResult)} (hlive : c.zh.state = .connected) :
      Move ordered c
        { c with
          zh.toSend := (SendBuffer.flushSendQueue false io c.zh.toSend).2.1
          socket.up := c.socket.up ++ (SendBuffer.flushSendQueue false io c.zh.toSend).2.2 }
  /-- The socket has given something, but not all that was wanted. -/
  | receive {c : Client} {r₁ r₂ : RecvResult} {b : InBuffer} {down : Bytes} (hfd : c.zh.fd = true)
      (hrun : c.zh.isUnrecoverable = false)
      (hrecv : (inBuffer c.zh).recvBuffer r₁ r₂ c.socket.down = (.incomplete, b, down)) :
      Move ordered c { c with zh := setInBuffer b c.zh, socket.down := down }
  | receivePacket {c : Client} {r₁ r₂ : RecvResult} {b : InBuffer} {down : Bytes}
      (hfd : c.zh.fd = true) (hrun : c.zh.isUnrecoverable = false)
      (hrecv : (inBuffer c.zh).recvBuffer r₁ r₂ c.socket.down = (.complete, b, down))
      (hinput : c.zh.inputBuffer ≠ .primer) :
      Move ordered c
        { c with
          zh.toProcess := c.zh.toProcess ++ [b.buffer.getD []]
          zh.inputBuffer := .null
          socket.down := down }
  | handshake {c : Client} {r₁ r₂ : RecvResult} {b : InBuffer} {down : Bytes}
      {auths watches : List Bytes} (hfd : c.zh.fd = true) (hrun : c.zh.isUnrecoverable = false)
      (hrecv : (inBuffer c.zh).recvBuffer r₁ r₂ c.socket.down = (.complete, b, down))
      (hinput : c.zh.inputBuffer = .primer)
      (hid : c.zh.clientId = 0 ∨
        c.zh.clientId = (deserializePrimeResponse (b.buffer.getD [])).sessionId)
      (hauths : c.zh.auths.mapM authPacket = .ok auths)
      (hwatches : setWatchesPackets c.zh = .ok watches) :
      Move ordered c
        (connected (deserializePrimeResponse (b.buffer.getD [])) (auths.reverse ++ watches)
          { c with zh.primerBuffer := b, socket.down := down })
  /-- A packet that nobody waits for. -/
  | skip {c : Client} {packet rest : Bytes} {toProcess : List Bytes} {hdr : ReplyHeader}
      (hfirst : c.FirstPacket packet toProcess hdr rest)
      (hxid : hdr.xid = pingXid ∨ hdr.xid = setWatchesXid ∨
        hdr.xid ∉ reservedXids ∧ c.zh.sentRequests = [] ∧ c.zh.closeRequested = true) :
      Move ordered c (takePacket toProcess hdr.zxid c)
  | event {c : Client} {packet rest rest' : Bytes} {toProcess : List Bytes} {hdr : ReplyHeader}
      {evt : WatcherEvent} {path : CStr} (hfirst : c.FirstPacket packet toProcess hdr rest)
      (hxid : hdr.xid = watcherEventXid) (hevt : deserializeWatcherEvent rest = (.ok evt, rest'))
      (hpath : evt.path = some path) :
      Move ordered c
        { takePacket toProcess hdr.zxid c with
          zh.watches := (watchersFor evt.type path.bytes c.zh.watches).2
          zh.completionsToProcess := c.zh.completionsToProcess ++
            [⟨none, packet, (watchersFor evt.type path.bytes c.zh.watches).1⟩] }
  | authAnswer {c : Client} {packet rest : Bytes} {toProcess : List Bytes} {hdr : ReplyHeader}
      (hfirst : c.FirstPacket packet toProcess hdr rest) (hxid : hdr.xid = authXid)
      (hauths : c.zh.auths ≠ []) :
      Move ordered c
        (callAuthCompletions hdr.err
          (if hdr.err = 0 then markActiveAuth (takePacket toProcess hdr.zxid c)
          else takePacket toProcess hdr.zxid c))
  /-- The request that waits first is taken, to be settled with the first packet. -/
  | take {c : Client} {packet rest : Bytes} {toProcess : List Bytes} {hdr : ReplyHeader}
      {e : CompletionEntry} {sent : List CompletionEntry} (hidle : c.taken = none)
      (hfirst : c.FirstPacket packet toProcess hdr rest) (hxid : hdr.xid ∉ reservedXids)
      (hsent : c.zh.sentRequests = e :: sent) :
      Move ordered c
        { takePacket toProcess hdr.zxid c with
          zh.sentRequests := sent
          taken := some ⟨e, hdr, packet, rest⟩ }
  | answerAsync {c : Client} {a : TakenCompletion} (htaken : c.taken = some a)
      (heq : a.cptr.xid = a.hdr.xid) (hsync : a.cptr.sync = false) :
      Move ordered c
        { c with
          taken := none
          zh.watches := activate a.cptr.watcher a.hdr.err c.zh.watches
          zh.completionsToProcess := c.zh.completionsToProcess ++ [⟨some a.cptr, a.bptr, []⟩] }
  | answerSync {c : Client} {a : TakenCompletion} {r : Response} (halive : c.destroyed = false)
      (htaken : c.taken = some a) (heq : a.cptr.xid = a.hdr.xid)
      (hsync : a.cptr.sync = true)
      (hread : processSyncCompletion a.cptr a.hdr.err a.ia c.zh = .ok r) :
      Move ordered c
        { c with
          taken := none
          zh.watches := activate a.cptr.watcher a.hdr.err c.zh.watches
          upcalls := c.upcalls ++ [.woken a.cptr r] }
  | deliverEvent {c : Client} {q : QueuedCompletion} {qs : List QueuedCompletion} {hdr : ReplyHeader}
      {rest rest' : Bytes} {evt : WatcherEvent} (hqs : c.zh.completionsToProcess = q :: qs)
      (hhdr : deserializeReplyHeader q.buffer = (.ok hdr, rest)) (hxid : hdr.xid = watcherEventXid)
      (hevt : deserializeWatcherEvent rest = (.ok evt, rest')) :
      Move ordered c
        { c with
          zh.completionsToProcess := qs
          upcalls := c.upcalls ++ [.watchers evt.type evt.state evt.path q.watcherResult] }
  | deliverNothing {c : Client} {q : QueuedCompletion} {qs : List QueuedCompletion}
      {hdr : ReplyHeader} {rest : Bytes} (hqs : c.zh.completionsToProcess = q :: qs)
      (hhdr : deserializeReplyHeader q.buffer = (.ok hdr, rest)) (hxid : hdr.xid ≠ watcherEventXid)
      (hentry : q.entry = none) :
      Move ordered c { c with zh.completionsToProcess := qs }
  | deliverAnswer {c : Client} {q : QueuedCompletion} {qs : List QueuedCompletion} {hdr : ReplyHeader}
      {rest rest' : Bytes} {e : CompletionEntry} {r : Response}
      (hqs : c.zh.completionsToProcess = q :: qs)
      (hhdr : deserializeReplyHeader q.buffer = (.ok hdr, rest)) (hentry : q.entry = some e)
      (hread : deserializeResponse e.type (hdr.err != 0) hdr.err rest = (.ok r, rest')) :
      Move ordered c
        { c with
          zh.completionsToProcess := qs
          upcalls := c.upcalls ++ [.completed e r] }
  | requestClose {c : Client} : Move ordered c (requestClose c)
  | freeOnClose {c : Client} (hclose : c.zh.closeRequested = true) :
      Move ordered c (freeOnClose c)
  | destroy {c : Client} (hfreed : c.freed = true) (hidle : c.taken = none) :
      Move ordered c (destroy c)
  | peer {c : Client} {up down : Bytes} (hfd : c.zh.fd = true) (hfree : ¬ ordered) :
      Move ordered c { c with socket.up := up, socket.down := down }
  /-- A step of the server. -/
  | server {c : Client} {l : ClientLabel} {c' : Client} (henabled : Enabled l c)
      (hgood : ordered → Ordered l c) (hstep : step l c = .ok c') (hserver : l.IsServer) :
      Move ordered c c'

abbrev Moves [Host] (ordered : Prop) : Client → Client → Prop :=
  Relation.ReflTransGen (Move ordered)

/-! ## What holds of the handle -/

/-- A live connection has a descriptor and an address, a packet is begun only on an
established connection, the buffer of the connect response is behind the length, which is
not looked at, and packets are processed only on a connection. -/
structure Sane (c : Client) : Prop where
  index_le : c.zh.connectIndex ≤ c.zh.addrsCount
  index_lt : c.zh.fd = true → c.zh.connectIndex < c.zh.addrsCount
  fresh : c.zh.fd = false → c.socket = .fresh
  live : c.zh.state = .connecting ∨ c.zh.state = .assoctating ∨ c.zh.state = .connected →
    c.zh.fd = true
  ended : c.zh.isUnrecoverable = true → c.zh.fd = false
  unsent : c.zh.state ≠ .connected → ∀ b ∈ c.zh.toSend, b.currOffset = 0
  primer : c.zh.isUnrecoverable = false → c.zh.primerBuffer.Primer
  priming : c.zh.inputBuffer = .primer → c.zh.isUnrecoverable = false →
    4 ≤ c.zh.primerBuffer.currOffset ∧ c.zh.primerBuffer.currOffset < 44
  packets : c.zh.toProcess ≠ [] → c.zh.fd = true ∧ c.zh.isUnrecoverable = false
  busy : c.taken ≠ none → c.zh.fd = true ∧ c.zh.isUnrecoverable = false

/-! ## Steps are moves -/

section Steps

variable [Host] {ordered : Prop} {c c' : Client} {e : CompletionEntry} {auth : AuthInfo}
variable {r : ZooKeeperError × Client}

omit [Host] in
theorem outstanding_of_idle (hidle : c.taken = none) : c.outstanding = c.zh.sentRequests := by
  rw [outstanding, hidle]
  rfl

omit [Host] in
theorem outstanding_of_taken {a : TakenCompletion} (htaken : c.taken = some a) :
    c.outstanding = a.cptr :: c.zh.sentRequests := by
  rw [outstanding, htaken]
  rfl

omit [Host] in
/-- A request that is taken is outstanding as before. -/
theorem outstanding_take {a : TakenCompletion} (hidle : c.taken = none)
    (htaken : c'.taken = some a) (hsent : c.zh.sentRequests = a.cptr :: c'.zh.sentRequests) :
    c'.outstanding = c.outstanding := by
  rw [outstanding_of_taken htaken, outstanding_of_idle hidle, hsent]

omit [Host] in
/-- When nothing is taken, nothing goes back into the list. -/
theorem disturbed_of_idle {c₁ : Client} (hidle : c.taken = none)
    (h : c₁ = { c with
      socket := c₁.socket
      zh :=
        { c.zh with
          fd := c₁.zh.fd
          state := c₁.zh.state
          lastZxid := c₁.zh.lastZxid
          inputBuffer := c₁.zh.inputBuffer
          primerBuffer := c₁.zh.primerBuffer
          toProcess := c₁.zh.toProcess
          toSend := c₁.zh.toSend } }) : c.Disturbed c₁ := by
  rw [Disturbed, outstanding_of_idle hidle, ← hidle]
  exact h

theorem packetBytes_eq_ok {ops : List ArchiveOp} {bs : Bytes} (h : packetBytes ops = .ok bs) :
    bs = wire ops ∧ bs.length < 2 ^ 31 := by
  rw [packetBytes] at h
  cases harchive : archiveBytes ops with
  | error f =>
    rw [harchive] at h
    cases h
  | ok bs' =>
    rw [harchive] at h
    cases h
    exact archiveBytes_eq_ok harchive

theorem packetBytes_eq_error {ops : List ArchiveOp} {f : HandleFault} (h : packetBytes ops = .error f) :
    ∃ e, f = .archive e := by
  rw [packetBytes] at h
  cases harchive : archiveBytes ops with
  | error e =>
    rw [harchive] at h
    cases h
    exact ⟨e, rfl⟩
  | ok bs =>
    rw [harchive] at h
    cases h

theorem moves_submit (h : submit e c = .ok r) (htype : e.body.completion = some e.type)
    (hxid : e.xid ≠ watcherEventXid)
    (hgood : ordered → e.body.Complete ∧ e.xid ∉ reservedXids) : Moves ordered c r.2 := by
  obtain ⟨packet, hpacket, h⟩ := Except.bind_eq_ok.mp h
  cases hclose : c.zh.closeRequested with
  | true =>
    rw [addCompletion, if_pos hclose] at h
    cases h
    exact .refl
  | false =>
    have hmove := Move.accept hclose htype hxid hpacket hgood
    have hadd : addCompletion e c = (.noError, (addCompletion e c).2) := by
      rw [addCompletion, if_neg (by simp [hclose])]
    rw [hadd] at h
    cases h
    exact .single hmove

theorem moves_zooAddAuth (h : zooAddAuth auth c = .ok r)
    (hhead : ordered → ∀ b ∈ c.zh.toSend.head?, b.currOffset = 0) : Moves ordered c r.2 := by
  have hadd : Move ordered c { c with zh.auths := c.zh.auths ++ [auth], added := c.added ++ [auth] } := .addAuth
  rw [zooAddAuth] at h
  split at h
  · cases h
    exact .refl
  · split at h
    · cases h
      exact .refl
    · dsimp only at h
      split at h
      · next hlive =>
        obtain ⟨c', hsend, h⟩ := Except.bind_eq_ok.mp h
        cases h
        rw [sendLastAuthInfo, List.getLast?_concat] at hsend
        obtain ⟨packet, hpacket, hsend⟩ := Except.bind_eq_ok.mp hsend
        cases hsend
        exact .tail (.single hadd) (.sendAuth (by simp) hlive hpacket hhead)
      · cases h
        exact .single hadd

/-- The authentications end up in front of the queue, the last one first. -/
theorem foldlM_sendInfoPacket {auths : List AuthInfo} (h : auths.foldlM sendInfoPacket c = .ok c') :
    ∃ packets, auths.mapM authPacket = .ok packets ∧
      c' = { c with zh.toSend := packets.reverse.map (⟨·, 0⟩) ++ c.zh.toSend } := by
  induction auths generalizing c with
  | nil =>
    cases h
    exact ⟨[], rfl, rfl⟩
  | cons auth auths ih =>
    rw [List.foldlM_cons] at h
    obtain ⟨c₁, hsend, h⟩ := Except.bind_eq_ok.mp h
    obtain ⟨packet, hpacket, hsend⟩ := Except.bind_eq_ok.mp hsend
    cases hsend
    obtain ⟨packets, hpackets, rfl⟩ := ih h
    refine ⟨packet :: packets, ?_, ?_⟩
    · rw [List.mapM_cons, hpacket, Except.ok_bind, hpackets]
      rfl
    · simp [queueFrontBufferBytes]

theorem sendSetWatches_eq_ok (h : sendSetWatches c = .ok c') :
    ∃ packets, setWatchesPackets c.zh = .ok packets ∧
      c' = { c with zh.toSend := packets.map (⟨·, 0⟩) ++ c.zh.toSend } := by
  obtain ⟨req, hreq, h⟩ := Except.bind_eq_ok.mp h
  rw [setWatchesPackets, hreq, Except.ok_bind]
  split at h
  · next hnone =>
    cases h
    exact ⟨[], by rw [if_pos hnone]; rfl, rfl⟩
  · next hsome =>
    obtain ⟨packet, hpacket, h⟩ := Except.bind_eq_ok.mp h
    cases h
    exact ⟨[packet], by rw [if_neg hsome, hpacket]; rfl, rfl⟩

/-- A failing call of `recv_buffer` behind the length leaves the buffer as it was. -/
theorem recvBuffer_failed {b b' : InBuffer} {r₁ r₂ : RecvResult} {stream down : Bytes}
    (h4 : 4 ≤ b.currOffset) (h : b.recvBuffer r₁ r₂ stream = (.failed, b', down)) : b' = b := by
  rw [InBuffer.recvBuffer, if_neg (by omega), InBuffer.recvBody] at h
  have hfin : ∀ b : InBuffer, b.finished ≠ .failed := by
    intro b
    rw [InBuffer.finished]
    split <;> simp
  split at h
  · rw [Prod.mk.injEq] at h
    exact absurd h.1 (hfin b)
  · split at h
    · cases h
      rfl
    · rw [Prod.mk.injEq] at h
      exact absurd h.1 (hfin b)
    · dsimp only at h
      rw [Prod.mk.injEq] at h
      exact absurd h.1 (hfin _)

omit [Host] in
theorem inBuffer_primer (h : c.zh.inputBuffer = .primer) : inBuffer c.zh = c.zh.primerBuffer := by
  rw [inBuffer, h]

omit [Host] in
theorem setInBuffer_primer {b : InBuffer} (h : c.zh.inputBuffer = .primer) :
    setInBuffer b c.zh = { c.zh with primerBuffer := b } := by
  simp [setInBuffer, h]

omit [Host] in
theorem setInBuffer_packet {b : InBuffer} (h : c.zh.inputBuffer ≠ .primer) :
    setInBuffer b c.zh = { c.zh with inputBuffer := .packet b } := by
  cases hib : c.zh.inputBuffer with
  | null => simp [setInBuffer, hib]
  | packet b' => simp [setInBuffer, hib]
  | primer => exact absurd hib h

/-- The end of the connect response is a handshake, or the end of the session. -/
theorem finishHandshake_eq_ok (h : finishHandshake c = .ok r) :
    (c.zh.clientId ≠ 0 ∧
        r = (.sessionExpired, handleError .sessionExpired { c with zh.state := .expiredSession })) ∨
      ((c.zh.clientId = 0 ∨
          c.zh.clientId = (deserializePrimeResponse (c.zh.primerBuffer.buffer.getD [])).sessionId) ∧
        ∃ auths watches, c.zh.auths.mapM authPacket = .ok auths ∧ setWatchesPackets c.zh = .ok watches ∧
          r = (.noError, connected (deserializePrimeResponse (c.zh.primerBuffer.buffer.getD []))
            (auths.reverse ++ watches) c)) := by
  rw [finishHandshake] at h
  dsimp only at h
  split at h
  · next hid =>
    cases h
    exact .inl ⟨hid.1, rfl⟩
  · next hid =>
    obtain ⟨c₁, hsend, h⟩ := Except.bind_eq_ok.mp h
    obtain ⟨watches, hwatches, rfl⟩ := sendSetWatches_eq_ok hsend
    obtain ⟨c₂, hsend, h⟩ := Except.bind_eq_ok.mp h
    obtain ⟨auths, hauths, rfl⟩ := foldlM_sendInfoPacket hsend
    cases h
    rw [not_and_or, not_not, not_not] at hid
    refine .inr ⟨hid, auths, watches, hauths, hwatches, ?_⟩
    rw [connected, List.map_append, List.append_assoc]

theorem moves_finishHandshake {r₁ r₂ : RecvResult} {b : InBuffer} {down : Bytes}
    (hidle : c.taken = none) (hfd : c.zh.fd = true) (hrun : c.zh.isUnrecoverable = false)
    (hrecv : (inBuffer c.zh).recvBuffer r₁ r₂ c.socket.down = (.complete, b, down))
    (hinput : c.zh.inputBuffer = .primer)
    (h : finishHandshake { c with zh.primerBuffer := b, socket.down := down } = .ok r) :
    Moves ordered c r.2 := by
  obtain ⟨-, rfl⟩ | ⟨hid, auths, watches, hauths, hwatches, rfl⟩ := finishHandshake_eq_ok h
  · exact .single (.reset (disturbed_of_idle hidle rfl) hfd hrun (.inr (.inl rfl)) nofun
      (.inl (by simp [lossReasons])))
  · exact .single (.handshake hfd hrun hrecv hinput hid hauths hwatches)

theorem moves_readEvents {env : EventEnv} (hs : Sane c) (hidle : c.taken = none)
    (hfd : c.zh.fd = true) (hrun : c.zh.isUnrecoverable = false) (h : readEvents env c = .ok r) : Moves ordered c r.2 := by
  rw [readEvents] at h
  split at h
  · next b down hrecv =>
    cases h
    refine .single (.reset ?_ hfd hrun (.inl ?_) ?_ (.inl (by simp [lossReasons])))
    · refine disturbed_of_idle hidle ?_
      cases hib : c.zh.inputBuffer <;> simp [setInBuffer, hib]
    · cases hib : c.zh.inputBuffer <;> simp [setInBuffer, hib]
    · intro _
      cases hib : c.zh.inputBuffer with
      | null => simp [setInBuffer, hib]
      | packet b' => simp [setInBuffer, hib]
      | primer =>
        have h4 := (hs.priming hib hrun).1
        rw [inBuffer_primer hib] at hrecv
        have hb := recvBuffer_failed h4 hrecv
        exact ⟨by rw [setInBuffer_primer hib, hb], fun _ => rfl⟩
  · next b down hrecv =>
    cases h
    exact .single (.receive hfd hrun hrecv)
  · next b down hrecv =>
    dsimp only at h
    by_cases hinput : c.zh.inputBuffer = .primer
    · rw [setInBuffer_primer hinput] at h
      dsimp only at h
      split at h
      · exact moves_finishHandshake hidle hfd hrun hrecv hinput h
      · next hnull => simp [hinput] at hnull
      · next hpacket => simp [hinput] at hpacket
    · rw [setInBuffer_packet hinput] at h
      cases h
      exact .single (.receivePacket hfd hrun hrecv hinput)

/-- Both calls of `send` take a prefix of what they are given. -/
theorem moves_primeConnection {r₁ r₂ : SendResult} (hidle : c.taken = none)
    (hfd : c.zh.fd = true) (hrun : c.zh.isUnrecoverable = false)
    (hstate : c.zh.state ≠ .connected ∧ c.zh.state ≠ .assoctating)
    (hwhole : ordered → r₁.Whole 4 ∧ r₂.Whole 44) :
    Moves ordered c (primeConnection r₁ r₂ c).2 := by
  have hlost : Move ordered c (handleError .connectionLoss c) :=
    .reset (disturbed_of_idle hidle rfl) hfd hrun (.inl rfl) (fun _ => ⟨rfl, id⟩)
      (.inl (by simp [lossReasons]))
  rw [primeConnection]
  cases r₁ with
  | error e => exact .single hlost
  | taken n =>
    cases r₂ with
    | error e => exact .single hlost
    | taken m =>
      refine .single (.prime hfd hrun hstate ?_)
      intro ho
      obtain ⟨hn, hm⟩ := hwhole ho
      have hlen : networkBytes 4 (connectWire (connectReq c.zh)).length = intBytes (htonl 44) := by
        rw [length_connectWire, intBytes_htonl]
        rfl
      rw [frame, hlen, serializePrimeConnect_eq, List.take_of_length_le, List.take_of_length_le]
      · rw [length_connectWire]
        exact hm
      · rw [length_intBytes]
        exact hn

theorem moves_checkEvents {env : EventEnv} (hs : Sane c) (hidle : c.taken = none)
    (hrun : c.zh.isUnrecoverable = false)
    (hwhole : ordered → env.send₁.Whole 4 ∧ env.send₂.Whole 44) (h : checkEvents env c = .ok r) :
    Moves ordered c r.2 := by
  rw [checkEvents] at h
  split at h
  · cases h
    exact .refl
  · next hfd =>
    have hfd : c.zh.fd = true := by simpa using hfd
    split at h
    · next hconnecting =>
      split at h
      · cases h
        exact moves_primeConnection hidle hfd hrun (by simp [hconnecting.2]) hwhole
      · cases h
        exact .single (.reset (disturbed_of_idle hidle rfl) hfd hrun (.inl rfl) (fun _ => ⟨rfl, id⟩)
          (.inl (by simp [lossReasons])))
    · by_cases hflush : env.write ∧ c.zh.state = .connected
      · rw [if_pos hflush] at h
        have hmove : Move ordered c _ := @Move.flush _ _ _ env.flush hflush.2
        rcases hq : SendBuffer.flushSendQueue false env.flush c.zh.toSend with ⟨lost, toSend, w⟩
        rw [hq] at h hmove
        dsimp only at h hmove
        split at h
        · cases h
          exact .single (.reset (disturbed_of_idle hidle rfl) hfd hrun (.inl rfl)
            (fun _ => ⟨rfl, id⟩) (.inl (by simp [lossReasons])))
        · split at h
          · have hs' : Sane { c with zh.toSend := toSend, socket.up := c.socket.up ++ w } :=
              { hs with
                fresh := fun h => by simp [hfd] at h
                unsent := fun hne => absurd hflush.2 hne }
            exact .head hmove (moves_readEvents hs' hidle hfd hrun h)
          · cases h
            exact .single hmove
      · rw [if_neg hflush] at h
        dsimp only at h
        split at h
        · next hlost => cases hlost
        · rw [List.append_nil] at h
          split at h
          · exact moves_readEvents hs hidle hfd hrun h
          · cases h
            exact .refl

theorem moves_keepAlive {env : InterestEnv} (hidle : c.taken = none) (hfd : c.zh.fd = true)
    (hrun : c.zh.isUnrecoverable = false) : Moves ordered c (keepAlive env c).2 := by
  rw [keepAlive]
  split
  · exact .single (.reset (disturbed_of_idle hidle rfl) hfd hrun (.inl rfl) (fun _ => ⟨rfl, id⟩)
      (.inl (by simp [lossReasons])))
  · split
    · next hping => exact .single (.ping hping.1 hping.2.2)
    · exact .refl

/-- A handle without a descriptor gets one, or goes to the front of the list of addresses,
or gives up this address. -/
theorem moves_openConnection {env : InterestEnv} (hs : Sane c) (hidle : c.taken = none)
    (hfd : c.zh.fd = false) (hrun : c.zh.isUnrecoverable = false) (halive : c.destroyed = false)
    (hwhole : ordered → env.send₁.Whole 4 ∧ env.send₂.Whole 44) :
    Moves ordered c (openConnection env c).2 ∧ ((openConnection env c).1 = .noError →
      (openConnection env c).2.zh.isUnrecoverable = false ∧ (openConnection env c).2.taken = none) := by
  have hdown : c.zh.state ≠ .connected ∧ c.zh.state ≠ .assoctating := by
    refine ⟨fun h => ?_, fun h => ?_⟩
    · simp [hs.live (.inr (.inr h))] at hfd
    · simp [hs.live (.inr (.inl h))] at hfd
  rw [openConnection]
  split
  · next hindex => exact ⟨.single (.rewind hfd hrun hindex), fun _ => ⟨hrun, hidle⟩⟩
  · next hindex =>
    have hopen : Move ordered c
        { c with zh.fd := true, socket := .fresh, tried := c.tried ++ [c.zh.connectIndex] } :=
      .openSocket hfd hindex hrun halive
    have hlost : ∀ rc ∈ lossReasons, Moves ordered c (handleError rc
        { c with zh.fd := true, socket := .fresh, tried := c.tried ++ [c.zh.connectIndex] }) :=
      fun rc hrc => .tail (.single hopen)
        (.reset (disturbed_of_idle hidle rfl) rfl hrun (.inl rfl) (fun _ => ⟨rfl, id⟩) (.inl hrc))
    dsimp only
    split
    · split
      · exact ⟨hlost _ (by simp [lossReasons]), by rintro ⟨⟩⟩
      · exact ⟨.tail (.single hopen) (.connecting rfl hrun hdown), fun _ => ⟨rfl, hidle⟩⟩
      · refine ⟨.head hopen (moves_primeConnection hidle rfl hrun hdown hwhole), ?_⟩
        intro hok
        rw [primeConnection] at hok ⊢
        split
        · next he => rw [he] at hok; cases hok
        · next w he =>
          rw [he] at hok
          dsimp only at hok ⊢
          split
          · next he => rw [he] at hok; cases hok
          · exact ⟨rfl, hidle⟩
    · -- without a socket it is as if one was lost
      have hnone := hlost .systemError (by simp [lossReasons])
      rw [handleError_eq] at hnone ⊢
      exact ⟨hnone, by rintro ⟨⟩⟩

theorem moves_zookeeperInterest {env : InterestEnv} (hs : Sane c) (hidle : c.taken = none)
    (halive : c.destroyed = false)
    (hwhole : ordered → env.send₁.Whole 4 ∧ env.send₂.Whole 44) :
    Moves ordered c (zookeeperInterest env c).2 := by
  rw [zookeeperInterest]
  split
  · exact .refl
  · next hrun =>
    have hrun : c.zh.isUnrecoverable = false := by simpa using hrun
    cases hfd : c.zh.fd with
    | true =>
      simp only [if_true, hfd]
      exact moves_keepAlive hidle hfd hrun
    | false =>
      obtain ⟨hmoves, hrun'⟩ := moves_openConnection hs hidle hfd hrun halive hwhole
      simp only [Bool.false_eq_true, if_false]
      rcases hopen : openConnection env c with ⟨rc, c₁⟩
      rw [hopen] at hmoves hrun'
      dsimp only at hmoves hrun' ⊢
      split
      · next hok =>
        cases hok
        split
        · next hfd' => exact hmoves.trans (moves_keepAlive (hrun' rfl).2 hfd' (hrun' rfl).1)
        · exact hmoves
      · next hno =>
        cases hno
        exact hmoves

omit [Host] in
theorem authCompletionFunc_eq_ok {rc : Int32} (h : authCompletionFunc rc c = .ok c') :
    c.zh.auths ≠ [] ∧ (rc = 0 ∧ c' = callAuthCompletions rc (markActiveAuth c) ∨
      rc ≠ 0 ∧ c' = callAuthCompletions rc { c with zh.state := .authFailed }) := by
  rw [authCompletionFunc] at h
  by_cases hrc : rc = 0
  · rw [if_neg (not_not.mpr hrc)] at h
    dsimp only at h
    split at h
    · cases h
    · next hauths =>
      cases h
      exact ⟨by simpa using hauths, .inl ⟨hrc, rfl⟩⟩
  · rw [if_pos hrc] at h
    dsimp only at h
    split at h
    · cases h
    · next hauths =>
      cases h
      exact ⟨hauths, .inr ⟨hrc, rfl⟩⟩

omit [Host] in
theorem takePacket_eq {toProcess : List Bytes} {zxid : Int64} :
    (if 0 < zxid then { c with zh.toProcess := toProcess, zh.lastZxid := zxid }
      else { c with zh.toProcess := toProcess }) = takePacket toProcess zxid c := by
  rw [takePacket]
  split <;> rfl

theorem moves_processPacket {behind : Bytes} (hs : Sane c) (hidle : c.taken = none)
    (h : processPacket behind c = .ok c') : Moves ordered c c' := by
  rw [processPacket] at h
  split at h
  · cases h
    exact .refl
  · next packet toProcess hpackets =>
    obtain ⟨hfd, hrun⟩ := hs.packets (by simp [hpackets])
    obtain ⟨⟨hdr, rest⟩, hhdr, h⟩ := Except.bind_eq_ok.mp h
    have hfirst : c.FirstPacket packet toProcess hdr rest :=
      ⟨hpackets, behind, readFields_eq_ok hhdr⟩
    dsimp only at h
    rw [takePacket_eq] at h
    split at h
    · next hping =>
      cases h
      exact .single (.skip hfirst (.inl hping))
    · next hping =>
      split at h
      · next hevent =>
        obtain ⟨⟨evt, rest'⟩, hevt, h⟩ := Except.bind_eq_ok.mp h
        dsimp only at h
        split at h
        · cases h
        · next path hpath =>
          cases h
          exact .single (.event hfirst hevent (readFields_eq_ok hevt) hpath)
      · next hevent =>
        split at h
        · next hwatches =>
          cases h
          exact .single (.skip hfirst (.inr (.inl hwatches)))
        · next hwatches =>
          split at h
          · next hauth =>
            obtain ⟨c₁, hcalled, h⟩ := Except.bind_eq_ok.mp h
            obtain ⟨hauths, ⟨herr, rfl⟩ | ⟨herr, rfl⟩⟩ := authCompletionFunc_eq_ok hcalled
            · have hmove : Move ordered c _ := .authAnswer hfirst hauth hauths
              rw [if_pos herr] at hmove
              have hstill : (callAuthCompletions hdr.err
                  (markActiveAuth (takePacket toProcess hdr.zxid c))).zh.isUnrecoverable = false := hrun
              rw [hstill] at h
              cases h
              exact .single hmove
            · have hmove : Move ordered c _ := .authAnswer hfirst hauth hauths
              rw [if_neg herr] at hmove
              split at h
              · cases h
                exact .tail (.single hmove) (.reset (disturbed_of_idle hidle rfl) hfd hrun
                  (.inr (.inr rfl)) nofun (.inl (by simp [lossReasons])))
              · next hnot => exact absurd rfl hnot
          · next hauth =>
            have hxid : hdr.xid ∉ reservedXids := by
              simp [reservedXids, hping, hevent, hwatches, hauth]
            split at h
            · next hsent =>
              split at h
              · next hclose =>
                cases h
                exact .single (.skip hfirst (.inr (.inr ⟨hxid, hsent, hclose⟩)))
              · cases h
            · next e sent hsent =>
              cases h
              exact .single (.take hidle hfirst hxid hsent)

/-- What was taken is settled with its answer, or the connection is given up. -/
theorem moves_settleAnswer (hs : Sane c) (halive : c.destroyed = false)
    (h : settleAnswer c = .ok c') : Moves ordered c c' := by
  rw [settleAnswer] at h
  split at h
  · cases h
    exact .refl
  · next cptr hdr bptr ia htaken =>
    obtain ⟨hfd, hrun⟩ := hs.busy (by simp [htaken])
    dsimp only at h
    split at h
    · next hne =>
      cases h
      refine .single (.reset ?_ hfd hrun (.inl rfl) (fun _ => ⟨rfl, id⟩)
        (.inr ⟨rfl, _, htaken, hne⟩))
      rw [Disturbed, outstanding_of_taken htaken]
    · next heq =>
      have heq : cptr.xid = hdr.xid := not_not.mp heq
      split at h
      · next hsync =>
        obtain ⟨r, hread, h⟩ := Except.bind_eq_ok.mp h
        cases h
        exact .single (.answerSync halive htaken heq hsync hread)
      · next hsync =>
        cases h
        exact .single (.answerAsync htaken heq (by simpa using hsync))

theorem moves_processCompletion (h : processCompletion c = .ok c') : Moves ordered c c' := by
  rw [processCompletion] at h
  split at h
  · cases h
    exact .refl
  · next q qs hqs =>
    obtain ⟨⟨hdr, rest⟩, hhdr, h⟩ := Except.bind_eq_ok.mp h
    dsimp only at h
    split at h
    · next hevent =>
      obtain ⟨⟨evt, rest'⟩, hevt, h⟩ := Except.bind_eq_ok.mp h
      cases h
      exact .single (.deliverEvent hqs (readFields_eq_ok hhdr) hevent (readFields_eq_ok hevt))
    · next hevent =>
      split at h
      · next hentry =>
        cases h
        exact .single (.deliverNothing hqs (readFields_eq_ok hhdr) hevent hentry)
      · next e hentry =>
        obtain ⟨⟨r, rest'⟩, hread, h⟩ := Except.bind_eq_ok.mp h
        cases h
        exact .single (.deliverAnswer hqs (readFields_eq_ok hhdr) hentry (readFields_eq_ok hread))

/-- What is sent at the end is gone with the connection. -/
theorem destroy_sendClose {xid : Int32} {io : List (SendResult × SendResult)} :
    destroy (sendClose xid io c) = destroy c := by
  rw [sendClose]
  split
  · rw [destroy, destroy, cleanupBufs_eq, cleanupBufs_eq]
    rfl
  · rfl

/-- Every step is made of moves. -/
theorem step_moves {l : ClientLabel} (hs : Sane c) (hl : Enabled l c) (hordered : ordered → Ordered l c)
    (h : step l c = .ok c') : Moves ordered c c' := by
  obtain ⟨-, hl'⟩ := id hl
  cases l with
  | submit e =>
    obtain ⟨r, hr, rfl⟩ := Except.map_eq_ok.mp h
    exact moves_submit hr hl'.1 hl'.2 hordered
  | addAuth auth =>
    obtain ⟨r, hr, rfl⟩ := Except.map_eq_ok.mp h
    exact moves_zooAddAuth hr hordered
  | interest env =>
    cases h
    exact moves_zookeeperInterest hs hl' hl.1 hordered
  | events env =>
    obtain ⟨r, hr, rfl⟩ := Except.map_eq_ok.mp h
    exact moves_checkEvents hs hl'.1 hl'.2 hordered hr
  | process behind => exact moves_processPacket hs hl' h
  | settle => exact moves_settleAnswer hs hl.1 h
  | deliver => exact moves_processCompletion h
  | requestClose =>
    cases h
    exact .single .requestClose
  | freeOnClose =>
    cases h
    exact .single (.freeOnClose hl'.1)
  | destroy xid io =>
    cases h
    rw [destroy_sendClose]
    exact .single (.destroy hl'.1 hl'.2)
  | peerReads n =>
    cases h
    exact .single (.peer hl' hordered)
  | peerSends bs =>
    cases h
    exact .single (.peer hl' hordered)
  | serverGreets res => exact .single (.server hl hordered h trivial)
  | serverReads packet hdr body => exact .single (.server hl hordered h trivial)
  | serverAnswers zxid err res => exact .single (.server hl hordered h trivial)
  | serverNotifies hdr evt => exact .single (.server hl hordered h trivial)

end Steps

end Client

end QtZooKeeper
