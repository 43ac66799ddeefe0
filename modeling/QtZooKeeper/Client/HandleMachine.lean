-- SUMMARY: The client as a transition system, with anything or with a server in order at the other end.
import QtZooKeeper.Base.Runs
import QtZooKeeper.Client.Handle

/-!
# The client as a machine

A step is one of the functions of `Client`, run by a thread of the application, the IO
thread or the completion thread, or something that the other end of the connection
does. While the IO thread has a completion to settle, the other threads go on. The other
end is in general anything that sends bytes. In an `Ordered` run it is a server that answers
requests in their order and sends no session events, and two things the client relies on
are assumed: a connect request goes into the buffer of a new socket as a whole, and
authentication is not added before a packet that the socket has taken in part.
-/

namespace QtZooKeeper

/-! ## Steps -/

/-- What the threads and the other end can do. -/
inductive ClientLabel where
  | submit (e : CompletionEntry)
  | addAuth (auth : AuthInfo)
  | interest (env : Client.InterestEnv)
  | events (env : Client.EventEnv)
  | process (behind : Bytes)
  | settle
  | deliver
  | requestClose
  | freeOnClose
  | destroy (xid : Int32) (io : List (SendResult × SendResult))
  /-- The other end takes bytes off the stream, whatever it makes of them. -/
  | peerReads (n : Nat)
  | peerSends (bs : Bytes)
  /-- A server reads the connect request and answers it. -/
  | serverGreets (res : PrimeStruct)
  | serverReads (packet : Bytes) (hdr : RequestHeader) (body : RequestBody)
  /-- It answers the first of the requests it has read. -/
  | serverAnswers (zxid : Int64) (err : Int32) (res : AnswerBody)
  /-- It sends something that is no answer to a request. -/
  | serverNotifies (hdr : ReplyHeader) (evt : WatcherEvent)
  deriving DecidableEq, Repr

namespace Client

/-- An answer on the wire: a record follows only if there is no error. -/
def answerBytes (hdr : ReplyHeader) (res : AnswerBody) : Bytes :=
  wire (serializeReplyHeader hdr ++ if hdr.err = 0 then res.serialize else [])

/-- A packet that answers no request: with an event behind the header, or alone. -/
def noticeBytes (hdr : ReplyHeader) (evt : WatcherEvent) : Bytes :=
  wire (serializeReplyHeader hdr ++ if hdr.xid = watcherEventXid then serializeWatcherEvent evt else [])

/-- The handle has not been destroyed, the IO thread is where its step begins, and the
protocol of the server allows its step. `zookeeper_close` joins the IO thread before it
destroys the handle. -/
def Enabled [Host] (l : ClientLabel) (c : Client) : Prop :=
  c.destroyed = false ∧
    match l with
    -- `get_xid` starts over when it comes to -1
    | .submit e => e.body.completion = some e.type ∧ e.xid ≠ watcherEventXid
    | .addAuth _ | .deliver | .requestClose => True
    | .interest _ | .process _ => c.taken = none
    | .events _ => c.taken = none ∧ c.zh.isUnrecoverable = false
    | .settle => c.taken ≠ none
    | .freeOnClose => c.zh.closeRequested = true ∧ c.freed = false
    | .destroy _ _ => c.freed = true ∧ c.taken = none
    | .peerReads _ | .peerSends _ => c.zh.fd = true
    | .serverGreets res =>
      c.zh.fd = true ∧ c.socket.greeted = false ∧ 48 ≤ c.socket.up.length ∧ res.passwd.length = 16
    | .serverReads packet hdr body =>
      c.zh.fd = true ∧ c.socket.greeted = true ∧ packet.length < 2 ^ 32 ∧
        frame packet <+: c.socket.up ∧ (deserializeRequest packet).1 = .ok (hdr, body)
    | .serverAnswers zxid err res =>
      c.zh.fd = true ∧ ∃ r ∈ c.socket.todo.head?, r.2.completion = some res.type ∧ res.Complete ∧
        (answerBytes ⟨r.1.xid, zxid, err⟩ res).length < 2 ^ 31
    | .serverNotifies hdr evt =>
      c.zh.fd = true ∧ c.socket.greeted = true ∧ hdr.xid ∈ reservedXids ∧ evt.Complete ∧
        (noticeBytes hdr evt).length < 2 ^ 31

/-- The steps of the other end. -/
def serverAnswers (zxid : Int64) (err : Int32) (res : AnswerBody) (c : Client) : Client :=
  match c.socket.todo with
  | [] => c
  | (hdr, body) :: todo =>
    { c with
      socket.down := c.socket.down ++ frame (answerBytes ⟨hdr.xid, zxid, err⟩ res)
      socket.todo := todo
      served := c.served ++ [⟨hdr.xid, body, err, res⟩] }

/-- The system's step. -/
def step [Host] (l : ClientLabel) (c : Client) : Except HandleFault Client :=
  match l with
  | .submit e => (·.2) <$> submit e c
  | .addAuth auth => (·.2) <$> zooAddAuth auth c
  | .interest env => .ok (zookeeperInterest env c).2
  | .events env => (·.2) <$> checkEvents env c
  | .process behind => processPacket behind c
  | .settle => settleAnswer c
  | .deliver => processCompletion c
  | .requestClose => .ok (requestClose c)
  | .freeOnClose => .ok (freeOnClose c)
  | .destroy xid io => .ok (destroy (sendClose xid io c))
  | .peerReads n => .ok { c with socket.up := c.socket.up.drop n }
  | .peerSends bs => .ok { c with socket.down := c.socket.down ++ bs }
  | .serverGreets res =>
    .ok
      { c with
        socket.up := c.socket.up.drop 48
        socket.down := c.socket.down ++ frame (primeWire res)
        socket.greeted := true }
  | .serverReads packet hdr body =>
    .ok
      { c with
        socket.up := c.socket.up.drop (frame packet).length
        socket.todo :=
          if hdr.xid ∈ reservedXids then c.socket.todo else c.socket.todo ++ [(hdr, body)] }
  | .serverAnswers zxid err res => .ok (serverAnswers zxid err res c)
  | .serverNotifies hdr evt =>
    .ok { c with socket.down := c.socket.down ++ frame (noticeBytes hdr evt) }

/-- `zookeeper_init` -/
def initial (addrsCount : Nat) (recvTimeout : Int32) (clientId : Int64) (passwd : Passwd)
    (chroot : Option Bytes) : Client where
  zh :=
    { fd := false
      addrsCount
      connectIndex := 0
      chroot
      state := .notConnected
      recvTimeout
      clientId
      passwd
      lastZxid := 0
      inputBuffer := .null
      primerBuffer := ⟨40, some (List.replicate 40 0), 0⟩
      toProcess := []
      toSend := []
      sentRequests := []
      completionsToProcess := []
      auths := []
      watches := fun _ => ∅
      closeRequested := false }
  socket := .fresh
  taken := none
  upcalls := []
  accepted := []
  added := []
  tried := []
  served := []
  freed := false
  destroyed := false

end Client

open Client

section Systems

variable [Host]

/-- A call of `send` takes all of `n` bytes or fails. -/
def SendResult.Whole (n : Nat) : SendResult → Prop
  | .taken k => n ≤ k
  | .error _ => True

/-- The discipline of a run with a server that answers in order. -/
def Ordered (l : ClientLabel) (c : Client) : Prop :=
  match l with
  | .submit e => e.body.Complete ∧ e.xid ∉ reservedXids
  | .addAuth _ => ∀ b ∈ c.zh.toSend.head?, b.currOffset = 0
  | .interest env => env.send₁.Whole 4 ∧ env.send₂.Whole 44
  | .events env => env.send₁.Whole 4 ∧ env.send₂.Whole 44
  | .serverNotifies _ evt => evt.type ≠ -1
  | .peerReads _ | .peerSends _ => False
  | _ => True

/-- The client, with anything at the other end, or with the discipline. -/
def clientSystem (ordered : Prop) (addrsCount : Nat) (recvTimeout : Int32) (clientId : Int64)
    (passwd : Passwd) (chroot : Option Bytes) : FallibleSystem Client ClientLabel HandleFault where
  init := initial addrsCount recvTimeout clientId passwd chroot
  enabled l c := Enabled l c ∧ (ordered → Ordered l c)
  step := step

end Systems

end QtZooKeeper
