-- SUMMARY: What is under way between the client and a server in order, and that every move keeps it consistent.
import QtZooKeeper.Verification.Completions

/-!
# In transit

In a run with a server that answers in order, all bytes that are under way in either
direction are packets, or parts of packets, of a known kind. `Transit` says which, and that
the requests that wait for an answer are, in this order, those whose answers are on their
way back, those the server has not answered yet, those on their way to the server, and
those in the queue.
-/

namespace QtZooKeeper

/-! ## Messages -/

/-- A packet of a server: the answer to a request, or a packet that answers none. -/
inductive Message where
  | answer (s : Served) (zxid : Int64)
  | notice (hdr : ReplyHeader) (evt : WatcherEvent)
  deriving DecidableEq, Repr

namespace Message

def header : Message → ReplyHeader
  | answer s zxid => ⟨s.xid, zxid, s.err⟩
  | notice hdr _ => hdr

def bytes : Message → Bytes
  | answer s zxid => Client.answerBytes ⟨s.xid, zxid, s.err⟩ s.res
  | notice hdr evt => Client.noticeBytes hdr evt

/-- What is behind the header. -/
def record : Message → Bytes
  | answer s _ => if s.err = 0 then wire s.res.serialize else []
  | notice hdr evt => if hdr.xid = watcherEventXid then wire (serializeWatcherEvent evt) else []

/-- The request it is the answer to. -/
def request : Message → Option (Int32 × RequestBody)
  | answer s _ => some (s.xid, s.body)
  | notice _ _ => none

/-- What a server sends. -/
def Valid (served : List Served) : Message → Prop
  | answer s _ => s ∈ served ∧ s.xid ∉ reservedXids ∧ s.body.completion = some s.res.type ∧ s.res.Complete
  | notice hdr evt => hdr.xid ∈ reservedXids ∧ evt.Complete ∧ evt.type ≠ -1

end Message

namespace Client

/-- The request in a packet of the client; what the client sends on its own account asks
for no completion. -/
def requestOf [Host] (packet : Bytes) : Option (Int32 × RequestBody) :=
  match (deserializeRequest packet).1 with
  | .ok (hdr, body) => if hdr.xid ∈ reservedXids then none else some (hdr.xid, body)
  | .error _ => none

/-- The buffer has read the beginning of the first packet of `ps`, and `stream` goes on with
the rest of it and the other packets. -/
def Receiving [Host] (b : InBuffer) (ps : List Bytes) (stream : Bytes) : Prop :=
  (b = .allocateBuffer ∧ stream = frames ps) ∨
    ∃ p qs, ps = p :: qs ∧ b.Reading p ∧ b.currOffset < p.length + 4 ∧
      stream = (frame p).drop b.currOffset ++ frames qs

/-- What is on the connection: the packets `sent` to the server, those that have been
`received` and not processed, and those that are still `coming`. -/
inductive Phase [Host] (c : Client) : List Bytes → List Message → List Message → Prop where
  /-- There is no session on the connection, if there is a connection. -/
  | idle (hstate : c.zh.state ≠ .assoctating ∧ c.zh.state ≠ .connected) (hsocket : c.socket = .fresh)
      (hprocess : c.zh.toProcess = []) (hinput : ∀ b, c.zh.inputBuffer = .packet b → b = .allocateBuffer) :
      Phase c [] [] []
  /-- The server has not read the connect request. -/
  | asking {req : ConnectReq} (hstate : c.zh.state = .assoctating) (hinput : c.zh.inputBuffer = .primer)
      (hsocket : c.socket = ⟨frame (connectWire req), [], false, []⟩) (hprocess : c.zh.toProcess = [])
      (hoffset : c.zh.primerBuffer.currOffset = 4) : Phase c [] [] []
  /-- The server has answered the connect request. -/
  | greeted {res : PrimeStruct} {coming : List Message} (hstate : c.zh.state = .assoctating)
      (hinput : c.zh.inputBuffer = .primer) (hres : res.passwd.length = 16)
      (hbody : c.zh.primerBuffer.Body (frame (primeWire res)))
      (hsocket : c.socket = ⟨[], (frame (primeWire res)).drop (c.zh.primerBuffer.currOffset - 4) ++
        frames (coming.map Message.bytes), true, []⟩)
      (hprocess : c.zh.toProcess = []) : Phase c [] [] coming
  | live {sent : List Bytes} {received coming : List Message} (hstate : c.zh.state = .connected)
      (hinput : c.zh.inputBuffer ≠ .primer) (hgreeted : c.socket.greeted = true)
      (hup : c.socket.up = frames sent ++ SendBuffer.begun c.zh.toSend)
      (hprocess : c.zh.toProcess = received.map Message.bytes)
      (hdown : Receiving (inBuffer c.zh) (coming.map Message.bytes) c.socket.down) :
      Phase c sent received coming

/-- The client and the server agree on what is under way. -/
structure Transit [Host] (c : Client) (sent : List Bytes) (received coming : List Message) : Prop where
  phase : Phase c sent received coming
  queue : SendBuffer.QueueSound c.zh.toSend
  sent_lt : ∀ p ∈ sent, p.length < 2 ^ 32
  valid : ∀ m ∈ received ++ coming, m.Valid c.served
  coming_len : ∀ m ∈ coming, 0 < m.bytes.length ∧ m.bytes.length < 2 ^ 31
  typed : ∀ e ∈ c.zh.sentRequests, e.body.completion = some e.type
  todo : ∀ r ∈ c.socket.todo, r.1.xid ∉ reservedXids
  requests : c.freed = false → c.zh.sentRequests.map (fun e => (e.xid, e.body)) =
    (received ++ coming).filterMap Message.request ++ c.socket.todo.map (fun r => (r.1.xid, r.2)) ++
      (sent ++ SendBuffer.packets c.zh.toSend).filterMap requestOf

/-- `Transit` for some packets. -/
def InTransit [Host] (c : Client) : Prop := ∃ sent received coming, Transit c sent received coming

/-! ## Packets -/

section Packets

variable [Host] {xid type : Int32} {body : RequestBody} {ops : List ArchiveOp} {packet : Bytes}
variable {packets : List Bytes} {auth : AuthInfo} {zh : Zhandle}

theorem requestOf_request (hbody : body.Complete) (hxid : xid ∉ reservedXids) :
    requestOf (wire (requestPacket xid body)) = some (xid, body) := by
  have hread : deserializeRequest (wire (requestPacket xid body)) = (.ok (⟨xid, body.type⟩, body), []) :=
    (decodes_request hbody).eq_nil
  rw [requestOf, hread]
  exact if_neg hxid

/-- Whatever is behind the header. -/
theorem requestOf_own (hxid : xid ∈ reservedXids) :
    requestOf (wire (serializeRequestHeader ⟨xid, type⟩ ++ ops)) = none := by
  have hheader := decodes_requestHeader (v := ⟨xid, type⟩) (wire ops)
  have hread : deserializeRequest (wire (serializeRequestHeader ⟨xid, type⟩ ++ ops)) =
      (deserializeBody type >>= fun body => pure (⟨xid, type⟩, body)) (wire ops) := by
    rw [wire_append]
    exact Reader.bind_of_ok hheader
  rw [requestOf, hread, Reader.bind_apply]
  rcases deserializeBody type (wire ops) with ⟨_ | body, rest⟩
  · rfl
  · exact if_pos hxid

omit [Host] in
theorem wire_requestPacket_pos : 0 < (wire (requestPacket xid body)).length := by
  rw [requestPacket, wire_append, List.length_append]
  exact Nat.add_pos_left (by simp [serializeRequestHeader, ArchiveOp.wire]) _

theorem sound_of_packetBytes (h : packetBytes (requestPacket xid body) = .ok packet) :
    SendBuffer.Sound ⟨packet, 0⟩ := by
  obtain ⟨rfl, hlt⟩ := packetBytes_eq_ok h
  exact ⟨wire_requestPacket_pos, hlt, Nat.succ_pos _⟩

/-- A packet that the client may send on its own account. -/
def Own (packet : Bytes) : Prop := SendBuffer.Sound ⟨packet, 0⟩ ∧ requestOf packet = none

theorem own_of_packetBytes (hxid : xid ∈ reservedXids)
    (h : packetBytes (requestPacket xid body) = .ok packet) : Own packet := by
  refine ⟨sound_of_packetBytes h, ?_⟩
  obtain ⟨rfl, -⟩ := packetBytes_eq_ok h
  exact requestOf_own hxid

theorem own_authPacket (h : authPacket auth = .ok packet) : Own packet :=
  own_of_packetBytes (by simp [reservedXids]) h

theorem own_ping : Own (wire (requestPacket pingXid .pingOp)) :=
  own_of_packetBytes (by simp [reservedXids]) (packetBytes_of_le (by decide))

theorem own_setWatchesPackets (h : setWatchesPackets zh = .ok packets) : ∀ p ∈ packets, Own p := by
  obtain ⟨req, -, h⟩ := Except.bind_eq_ok.mp h
  split at h
  · cases h
    exact List.forall_mem_nil _
  · obtain ⟨packet, hpacket, h⟩ := Except.bind_eq_ok.mp h
    cases h
    simpa using own_of_packetBytes (by simp [reservedXids]) hpacket

theorem own_authPackets {auths : List AuthInfo} (h : auths.mapM authPacket = .ok packets) :
    ∀ p ∈ packets, Own p := by
  induction auths generalizing packets with
  | nil =>
    cases h
    exact List.forall_mem_nil _
  | cons auth auths ih =>
    rw [List.mapM_cons] at h
    obtain ⟨packet, hpacket, h⟩ := Except.bind_eq_ok.mp h
    obtain ⟨rest, hrest, h⟩ := Except.bind_eq_ok.mp h
    cases h
    exact List.forall_mem_cons.mpr ⟨own_authPacket hpacket, ih hrest⟩

end Packets

/-! ## Queues and streams -/

section Streams

variable [Host] {b b' : InBuffer} {q : List SendBuffer} {ps : List Bytes} {p stream down packet : Bytes}
variable {r₁ r₂ : RecvResult} {rc : BufferRc}

omit [Host] in
/-- A new packet goes behind the others. -/
theorem queueSound_concat (hq : SendBuffer.QueueSound q) (hp : SendBuffer.Sound ⟨packet, 0⟩) :
    SendBuffer.QueueSound (q ++ [⟨packet, 0⟩]) := by
  obtain ⟨hsound, hzero⟩ := hq
  refine ⟨?_, ?_⟩
  · simpa [or_imp, forall_and] using ⟨hsound, hp⟩
  · intro b hb
    cases q with
    | nil => simp at hb
    | cons b' q =>
      rw [List.cons_append, List.tail_cons, List.mem_append, List.mem_singleton] at hb
      obtain hb | rfl := hb
      · exact hzero b hb
      · rfl

omit [Host] in
/-- New packets go in front of a queue that has not been begun. -/
theorem queueSound_fronts (hq : SendBuffer.QueueSound q) (hzero : ∀ b ∈ q.head?, b.currOffset = 0)
    (hps : ∀ p ∈ ps, SendBuffer.Sound ⟨p, 0⟩) : SendBuffer.QueueSound (ps.map (⟨·, 0⟩) ++ q) := by
  have hall : ∀ b ∈ q, b.currOffset = 0 := by
    cases q with
    | nil => simp
    | cons b q => exact List.forall_mem_cons.mpr ⟨hzero b rfl, hq.2⟩
  refine ⟨?_, ?_⟩
  · intro b hb
    obtain hb | hb := List.mem_append.mp hb
    · obtain ⟨p, hp, rfl⟩ := List.mem_map.mp hb
      exact hps p hp
    · exact hq.1 b hb
  · intro b hb
    obtain hb | hb := List.mem_append.mp (List.mem_of_mem_tail hb)
    · obtain ⟨p, hp, rfl⟩ := List.mem_map.mp hb
      rfl
    · exact hall b hb

omit [Host] in
theorem begun_fronts (ps : List Bytes) (hzero : ∀ b ∈ q.head?, b.currOffset = 0) :
    SendBuffer.begun (ps.map (⟨·, 0⟩) ++ q) = [] := by
  cases ps with
  | cons p ps => rfl
  | nil =>
    cases q with
    | nil => rfl
    | cons b q =>
      change (frame b.buffer).take b.currOffset = []
      rw [hzero b rfl, List.take_zero]

omit [Host] in
theorem begun_concat : SendBuffer.begun (q ++ [⟨packet, 0⟩]) = SendBuffer.begun q := by
  cases q with
  | nil => rfl
  | cons b q => rfl

/-- A new buffer has read nothing of any packet. -/
theorem reading_allocateBuffer : InBuffer.allocateBuffer.Reading p :=
  .inl ⟨by decide, rfl, rfl⟩

/-- What is sent comes behind what was sent before. -/
theorem Receiving.concat (h : Receiving b ps stream) :
    Receiving b (ps ++ [p]) (stream ++ frame p) := by
  obtain ⟨hb, rfl⟩ | ⟨q, qs, rfl, hread, hlt, rfl⟩ := h
  · exact .inl ⟨hb, (frames_concat ..).symm⟩
  · refine .inr ⟨q, qs ++ [p], rfl, hread, hlt, ?_⟩
    rw [frames_concat, List.append_assoc]

/-- From an empty stream a new buffer gets nothing. -/
theorem recvBuffer_nil (h : InBuffer.allocateBuffer.recvBuffer r₁ r₂ [] = (rc, b', down)) :
    rc ≠ .complete ∧ b' = .allocateBuffer ∧ down = [] := by
  rw [InBuffer.recvBuffer, if_pos (by decide)] at h
  split at h
  · cases h
    exact ⟨fun h => (by cases h), rfl, rfl⟩
  · cases h
    exact ⟨fun h => (by cases h), rfl, rfl⟩
  · next w hw => exact absurd hw RecvResult.recv_nil

/-- Behind the length nothing comes from an empty stream either. -/
theorem recvBuffer_nil_of_le (h4 : 4 ≤ b.currOffset) (h : b.recvBuffer r₁ r₂ [] = (rc, b', down)) :
    b' = b ∧ down = [] := by
  rw [InBuffer.recvBuffer, if_neg (by omega), InBuffer.recvBody] at h
  split at h
  · cases h
    exact ⟨rfl, rfl⟩
  · split at h
    · cases h
      exact ⟨rfl, rfl⟩
    · cases h
      exact ⟨rfl, rfl⟩
    · next w hw => exact absurd hw RecvResult.recv_nil

/-- A call of `recv_buffer` goes on with the packet, or ends it. -/
theorem Receiving.recv (h : Receiving b ps stream)
    (hps : ∀ p ∈ ps, 0 < p.length ∧ p.length < 2 ^ 31)
    (hrecv : b.recvBuffer r₁ r₂ stream = (rc, b', down)) :
    (rc ≠ .complete → Receiving b' ps down) ∧
      (rc = .complete → ∃ p qs, ps = p :: qs ∧ b'.buffer = some p ∧ down = frames qs) := by
  have hread : (b = .allocateBuffer ∧ ps = [] ∧ stream = []) ∨ ∃ p qs, ps = p :: qs ∧ b.Reading p ∧
      b.currOffset < p.length + 4 ∧ stream = (frame p).drop b.currOffset ++ frames qs := by
    obtain ⟨rfl, rfl⟩ | hin := h
    · cases ps with
      | nil => exact .inl ⟨rfl, rfl, rfl⟩
      | cons p qs => exact .inr ⟨p, qs, rfl, reading_allocateBuffer, Nat.succ_pos _, rfl⟩
    · exact .inr hin
  obtain ⟨rfl, rfl, rfl⟩ | ⟨p, qs, rfl, hreading, hlt, rfl⟩ := hread
  · obtain ⟨hrc, rfl, rfl⟩ := recvBuffer_nil hrecv
    exact ⟨fun _ => .inl ⟨rfl, rfl⟩, fun h => absurd h hrc⟩
  · obtain ⟨hpos, hlen⟩ := hps p List.mem_cons_self
    have hspec : InBuffer.Receives p (frames qs)
        (b.recvBuffer r₁ r₂ ((frame p).drop b.currOffset ++ frames qs)) :=
      hreading.recvBuffer_spec hlt hpos hlen
    rw [hrecv] at hspec
    obtain ⟨hreading', hstream, hcomplete⟩ := hspec
    dsimp only at hreading' hstream hcomplete
    refine ⟨fun hrc => .inr ⟨p, qs, rfl, hreading', ?_, hstream⟩, fun hrc => ⟨p, qs, rfl, ?_, ?_⟩⟩
    · have hne := mt hcomplete.mpr hrc
      obtain hheader | hbody := hreading'
      · have h4 := hheader.offset_lt
        omega
      · have hle := hbody.offset_le
        omega
    · have hfull := hcomplete.mp hrc
      obtain hheader | hbody := hreading'
      · have h4 := hheader.offset_lt
        omega
      · exact hbody.eq_of_complete hfull
    · rw [hstream, hcomplete.mp hrc, ← length_frame, List.drop_length, List.nil_append]

/-- The connect response is read behind its length, which counts as read from the start. -/
theorem recvBuffer_body {rest : Bytes} (hb : b.Body p) (hlt : b.currOffset < p.length + 4)
    (hp : p.length < 2 ^ 31)
    (h : b.recvBuffer r₁ r₂ (p.drop (b.currOffset - 4) ++ rest) = (rc, b', down)) :
    b'.Reading p ∧ down = (frame p).drop b'.currOffset ++ rest ∧
      (rc = .complete ↔ b'.currOffset = p.length + 4) := by
  have hge := hb.offset_ge
  rw [← drop_frame hge] at h
  have hspec : InBuffer.Receives p rest (b.recvBuffer r₁ r₂ ((frame p).drop b.currOffset ++ rest)) := by
    rw [InBuffer.recvBuffer, if_neg (by omega)]
    exact InBuffer.recvBody_spec hb hlt hp
  rw [h] at hspec
  exact ⟨hspec.reading, hspec.stream_eq, hspec.complete_iff⟩

end Streams

/-! ## Messages -/

section Messages

variable [Host] {m : Message} {served : List Served} {rest : Bytes} {hdr : ReplyHeader}

omit [Host] in
theorem bytes_eq : m.bytes = wire (serializeReplyHeader m.header) ++ m.record := by
  cases m with
  | answer s zxid =>
    change wire (_ ++ if s.err = 0 then _ else _) = _
    rw [wire_append]
    change _ = _ ++ if s.err = 0 then _ else _
    split <;> rfl
  | notice hdr evt =>
    change wire (_ ++ if hdr.xid = watcherEventXid then _ else _) = _
    rw [wire_append]
    change _ = _ ++ if hdr.xid = watcherEventXid then _ else _
    split <;> rfl

omit [Host] in
theorem bytes_pos : 0 < m.bytes.length := by
  rw [bytes_eq, List.length_append]
  exact Nat.add_pos_left (by simp [serializeReplyHeader, ArchiveOp.wire]) _

theorem decodes_header (m : Message) (behind : Bytes) :
    deserializeReplyHeader (m.bytes ++ behind) = (.ok m.header, m.record ++ behind) := by
  rw [bytes_eq, List.append_assoc, decodes_replyHeader]

theorem decodes_header_nil : deserializeReplyHeader m.bytes = (.ok m.header, m.record) := by
  have hheader := decodes_header m []
  rwa [List.append_nil, List.append_nil] at hheader

/-- The header of a message is read back, whatever is behind the message. -/
theorem header_of_read {behind : Bytes}
    (h : deserializeReplyHeader (m.bytes ++ behind) = (.ok hdr, rest)) :
    hdr = m.header ∧ rest = m.record ++ behind := by
  rw [decodes_header] at h
  cases h
  exact ⟨rfl, rfl⟩

omit [Host] in
/-- A number that stands for something else is on no answer. -/
theorem request_of_reserved (hm : m.Valid served) (hxid : m.header.xid ∈ reservedXids) :
    m.request = none := by
  cases m with
  | answer s zxid => exact absurd hxid hm.2.1
  | notice hdr evt => rfl

omit [Host] in
/-- Any other number is on an answer. -/
theorem answer_of_not_reserved (hm : m.Valid served) (hxid : m.header.xid ∉ reservedXids) :
    ∃ s zxid, m = .answer s zxid := by
  cases m with
  | answer s zxid => exact ⟨s, zxid, rfl⟩
  | notice hdr evt => exact absurd hm.1 hxid

end Messages

/-! ## Moves -/

section Moves

variable [Host] {c c' : Client} {sent : List Bytes} {received coming : List Message}

omit [Host] in
theorem inBuffer_congr {zh zh' : Zhandle} (hinput : zh'.inputBuffer = zh.inputBuffer)
    (hprimer : zh'.primerBuffer = zh.primerBuffer) : inBuffer zh' = inBuffer zh := by
  rw [inBuffer, inBuffer, hinput, hprimer]

theorem Phase.congr (h : Phase c sent received coming) (hstate : c'.zh.state = c.zh.state)
    (hsocket : c'.socket = c.socket) (hinput : c'.zh.inputBuffer = c.zh.inputBuffer)
    (hprimer : c'.zh.primerBuffer = c.zh.primerBuffer) (hprocess : c'.zh.toProcess = c.zh.toProcess)
    (hbegun : SendBuffer.begun c'.zh.toSend = SendBuffer.begun c.zh.toSend) :
    Phase c' sent received coming := by
  cases h with
  | idle hs hk hp hi => exact .idle (hstate ▸ hs) (hsocket ▸ hk) (hprocess ▸ hp) (hinput ▸ hi)
  | asking hs hi hk hp ho =>
    exact .asking (hstate ▸ hs) (hinput ▸ hi) (hsocket ▸ hk) (hprocess ▸ hp) (hprimer ▸ ho)
  | greeted hs hi hr hb hk hp =>
    exact .greeted (hstate ▸ hs) (hinput ▸ hi) hr (hprimer ▸ hb) (by rw [hsocket, hprimer]; exact hk)
      (hprocess ▸ hp)
  | live hs hi hg hu hp hd =>
    exact .live (hstate ▸ hs) (hinput ▸ hi) (hsocket ▸ hg) (by rw [hsocket, hbegun]; exact hu)
      (hprocess ▸ hp) (by rw [inBuffer_congr hinput hprimer, hsocket]; exact hd)

/-- What the phase depends on, and the requests, are as they were. -/
theorem Transit.congr (h : Transit c sent received coming) (hstate : c'.zh.state = c.zh.state)
    (hsocket : c'.socket = c.socket) (hinput : c'.zh.inputBuffer = c.zh.inputBuffer)
    (hprimer : c'.zh.primerBuffer = c.zh.primerBuffer) (hprocess : c'.zh.toProcess = c.zh.toProcess)
    (hsend : c'.zh.toSend = c.zh.toSend) (hsent : c'.zh.sentRequests = c.zh.sentRequests)
    (hserved : c'.served = c.served) (hfreed : c'.freed = c.freed) :
    Transit c' sent received coming where
  phase := h.phase.congr hstate hsocket hinput hprimer hprocess (by rw [hsend])
  queue := hsend ▸ h.queue
  sent_lt := h.sent_lt
  valid := hserved ▸ h.valid
  coming_len := h.coming_len
  typed := hsent ▸ h.typed
  todo := hsocket ▸ h.todo
  requests := by
    rw [hfreed, hsent, hsocket, hsend]
    exact h.requests

/-- Without a connection nothing is under way, and nobody waits. -/
theorem Transit.down (hstate : c.zh.state ≠ .assoctating ∧ c.zh.state ≠ .connected)
    (hsocket : c.socket = .fresh) (hprocess : c.zh.toProcess = [])
    (hinput : ∀ b, c.zh.inputBuffer = .packet b → b = .allocateBuffer) (hsend : c.zh.toSend = [])
    (hsent : c.zh.sentRequests = []) : Transit c [] [] [] where
  phase := .idle hstate hsocket hprocess hinput
  queue := by rw [hsend]; exact ⟨List.forall_mem_nil _, List.forall_mem_nil _⟩
  sent_lt := List.forall_mem_nil _
  valid := List.forall_mem_nil _
  coming_len := List.forall_mem_nil _
  typed := by rw [hsent]; exact List.forall_mem_nil _
  todo := by rw [hsocket]; exact List.forall_mem_nil _
  requests := by
    rw [hsent, hsocket, hsend]
    exact fun _ => rfl

/-- A packet is queued behind the others. -/
theorem Transit.append (h : Transit c sent received coming) {packet : Bytes}
    (es : List CompletionEntry) (hsound : SendBuffer.Sound ⟨packet, 0⟩)
    (hsend : c'.zh.toSend = c.zh.toSend ++ [⟨packet, 0⟩])
    (hes : c'.zh.sentRequests = c.zh.sentRequests ++ es)
    (htyped : ∀ e ∈ es, e.body.completion = some e.type)
    (hrequest : (requestOf packet).toList = es.map fun e => (e.xid, e.body))
    (hstate : c'.zh.state = c.zh.state) (hsocket : c'.socket = c.socket)
    (hinput : c'.zh.inputBuffer = c.zh.inputBuffer) (hprimer : c'.zh.primerBuffer = c.zh.primerBuffer)
    (hprocess : c'.zh.toProcess = c.zh.toProcess) (hserved : c'.served = c.served)
    (hfreed : c'.freed = c.freed) : Transit c' sent received coming where
  phase := h.phase.congr hstate hsocket hinput hprimer hprocess (by rw [hsend, begun_concat])
  queue := by
    rw [hsend]
    exact queueSound_concat h.queue hsound
  sent_lt := h.sent_lt
  valid := hserved ▸ h.valid
  coming_len := h.coming_len
  typed := by
    rw [hes]
    simpa [or_imp, forall_and] using ⟨h.typed, htyped⟩
  todo := hsocket ▸ h.todo
  requests := by
    intro hnot
    have hone : [packet].filterMap requestOf = (requestOf packet).toList := by
      cases hp : requestOf packet <;> simp [hp]
    rw [hes, List.map_append, h.requests (hfreed ▸ hnot), hsocket, hsend, ← hrequest, ← hone]
    simp [SendBuffer.packets]

/-- Packets that ask for nothing are queued in front of the others. -/
theorem Transit.fronts (h : Transit c sent received coming) (ps : List Bytes)
    (hown : ∀ p ∈ ps, Own p) (hzero : ∀ b ∈ c.zh.toSend.head?, b.currOffset = 0) :
    Transit { c with zh.toSend := ps.map (⟨·, 0⟩) ++ c.zh.toSend } sent received coming where
  phase := by
    refine h.phase.congr rfl rfl rfl rfl rfl ?_
    have hbegun : SendBuffer.begun c.zh.toSend = [] := begun_fronts [] hzero
    rw [hbegun]
    exact begun_fronts ps hzero
  queue := queueSound_fronts h.queue hzero fun p hp => (hown p hp).1
  sent_lt := h.sent_lt
  valid := h.valid
  coming_len := h.coming_len
  typed := h.typed
  todo := h.todo
  requests := by
    intro hnot
    have hnone : ps.filterMap requestOf = [] := List.filterMap_eq_nil_iff.mpr fun p hp => (hown p hp).2
    have hsame : (sent ++ SendBuffer.packets (ps.map (⟨·, 0⟩) ++ c.zh.toSend)).filterMap requestOf =
        (sent ++ SendBuffer.packets c.zh.toSend).filterMap requestOf := by
      simp [SendBuffer.packets, Function.comp_def, hnone]
    simp only [hsame]
    exact h.requests hnot

/-- What is to be processed are messages. -/
theorem Transit.next (h : Transit c sent received coming) {packet : Bytes} {toProcess : List Bytes}
    (hprocess : c.zh.toProcess = packet :: toProcess) :
    ∃ m received', received = m :: received' ∧ packet = m.bytes ∧
      toProcess = received'.map Message.bytes := by
  cases h.phase with
  | idle hs hk hp hi => simp [hprocess] at hp
  | asking hs hi hk hp ho => simp [hprocess] at hp
  | greeted hs hi hr hb hk hp => simp [hprocess] at hp
  | live hs hi hg hu hp hd =>
    rw [hprocess] at hp
    cases received with
    | nil => cases hp
    | cons m received' =>
      rw [List.map_cons, List.cons.injEq] at hp
      exact ⟨m, received', rfl, hp.1, hp.2⟩

/-- The header of the first packet is that of the message. -/
theorem Transit.first (h : Transit c sent received coming) {packet rest : Bytes}
    {toProcess : List Bytes} {hdr : ReplyHeader} (hfirst : c.FirstPacket packet toProcess hdr rest) :
    ∃ m received', received = m :: received' ∧ packet = m.bytes ∧
      toProcess = received'.map Message.bytes ∧ hdr = m.header ∧ ∃ behind, rest = m.record ++ behind := by
  obtain ⟨hprocess, behind, hhdr⟩ := hfirst
  obtain ⟨m, received', rfl, rfl, hp⟩ := h.next hprocess
  obtain ⟨hh, hr⟩ := header_of_read hhdr
  exact ⟨m, received', rfl, rfl, hp, hh, behind, hr⟩

/-- The first packet is off the queue. -/
theorem Transit.take {m : Message} (es : List CompletionEntry)
    (h : Transit c sent (m :: received) coming)
    (hes : c.zh.sentRequests = es ++ c'.zh.sentRequests)
    (hrequest : c.freed = false → m.request.toList = es.map fun e => (e.xid, e.body))
    (hprocess : c'.zh.toProcess = received.map Message.bytes) (hstate : c'.zh.state = c.zh.state)
    (hsocket : c'.socket = c.socket) (hinput : c'.zh.inputBuffer = c.zh.inputBuffer)
    (hprimer : c'.zh.primerBuffer = c.zh.primerBuffer) (hsend : c'.zh.toSend = c.zh.toSend)
    (hserved : c'.served = c.served) (hfreed : c'.freed = c.freed) :
    Transit c' sent received coming where
  phase := by
    cases h.phase with
    | live hs hi hg hu hp hd =>
      exact .live (hstate ▸ hs) (hinput ▸ hi) (hsocket ▸ hg) (by rw [hsocket, hsend]; exact hu) hprocess
        (by rw [inBuffer_congr hinput hprimer, hsocket]; exact hd)
  queue := hsend ▸ h.queue
  sent_lt := h.sent_lt
  valid := by
    rw [hserved]
    exact fun m' hm' => h.valid m' (List.mem_cons_of_mem _ hm')
  coming_len := h.coming_len
  typed := fun e he => h.typed e (by rw [hes]; exact List.mem_append_right _ he)
  todo := hsocket ▸ h.todo
  requests := by
    intro hnot
    rw [hfreed] at hnot
    have hall := h.requests hnot
    have hone : ([m] ++ (received ++ coming)).filterMap Message.request =
        m.request.toList ++ (received ++ coming).filterMap Message.request := by
      cases hm : m.request <;> simp [hm]
    rw [List.cons_append, ← List.singleton_append, hone, hrequest hnot, hes, List.map_append,
      List.append_assoc, List.append_assoc, List.append_cancel_left_eq] at hall
    rw [hall, hsocket, hsend, List.append_assoc]

/-- The first answer on its way is the answer to the request that waits first. -/
theorem Transit.answers_first {s : Served} {zxid : Int64}
    (h : Transit c sent (.answer s zxid :: received) coming) (hnot : c.freed = false) :
    ∃ e es, c.zh.sentRequests = e :: es ∧ e.xid = s.xid ∧ e.body = s.body := by
  have hall := h.requests hnot
  have hone : ((Message.answer s zxid :: received) ++ coming).filterMap Message.request =
      (s.xid, s.body) :: (received ++ coming).filterMap Message.request := rfl
  rw [hone] at hall
  cases hsent : c.zh.sentRequests with
  | nil => simp [hsent] at hall
  | cons e es =>
    rw [hsent, List.map_cons, List.cons_append, List.cons_append, List.cons.injEq, Prod.mk.injEq] at hall
    exact ⟨e, es, rfl, hall.1.1, hall.1.2⟩

/-- What is processed with the first request is its answer. -/
theorem Transit.answered (h : Transit c sent received coming) {packet rest : Bytes}
    {toProcess : List Bytes} {hdr : ReplyHeader} {e : CompletionEntry} {es : List CompletionEntry}
    (hfirst : c.FirstPacket packet toProcess hdr rest) (hxid : hdr.xid ∉ reservedXids)
    (hsent : c.zh.sentRequests = e :: es) :
    ∃ s zxid received', received = .answer s zxid :: received' ∧
      packet = (Message.answer s zxid).bytes ∧ toProcess = received'.map Message.bytes ∧
      hdr = ⟨s.xid, zxid, s.err⟩ ∧ (∃ behind, rest = (Message.answer s zxid).record ++ behind) ∧
      (Message.answer s zxid).Valid c.served ∧
      (c.freed = false → (Message.answer s zxid).request.toList = [e].map fun e => (e.xid, e.body)) := by
  obtain ⟨m, received', rfl, hpacket, hprocess, rfl, hrest⟩ := h.first hfirst
  have hm := h.valid m List.mem_cons_self
  obtain ⟨s, zxid, rfl⟩ := answer_of_not_reserved hm hxid
  refine ⟨s, zxid, received', rfl, hpacket, hprocess, rfl, hrest, hm, fun hnot => ?_⟩
  obtain ⟨e', es', hsome, hxid', hbody⟩ := h.answers_first hnot
  rw [hsent, List.cons.injEq] at hsome
  obtain ⟨rfl, rfl⟩ := hsome
  rw [List.map_singleton, hxid', hbody]
  rfl

/-- On a connection with a session there is the state that belongs to it. -/
theorem Phase.live_of_connected (h : Phase c sent received coming) (hlive : c.zh.state = .connected) :
    c.zh.inputBuffer ≠ .primer ∧ c.socket.greeted = true ∧
      c.socket.up = frames sent ++ SendBuffer.begun c.zh.toSend ∧
      c.zh.toProcess = received.map Message.bytes ∧
      Receiving (inBuffer c.zh) (coming.map Message.bytes) c.socket.down := by
  cases h with
  | idle hs => exact absurd hlive hs.2
  | asking hs => simp [hlive] at hs
  | greeted hs => simp [hlive] at hs
  | live _ hi hg hu hp hd => exact ⟨hi, hg, hu, hp, hd⟩

/-- A server that has read a request has answered the connect request. -/
theorem Phase.greeted_of_todo (h : Phase c sent received coming) (htodo : c.socket.todo ≠ []) :
    c.socket.greeted = true := by
  cases h with
  | idle hs hk => exact absurd (by rw [hk]; rfl) htodo
  | asking hs hi hk => exact absurd (by rw [hk]) htodo
  | greeted hs hi hr hb hk => exact absurd (by rw [hk]) htodo
  | live hs hi hg => exact hg

/-- Packets go from the queue to the connection. -/
theorem Transit.flush (h : Transit c sent received coming) {io : List (SendResult × SendResult)}
    (hlive : c.zh.state = .connected) :
    InTransit { c with
      zh.toSend := (SendBuffer.flushSendQueue false io c.zh.toSend).2.1
      socket.up := c.socket.up ++ (SendBuffer.flushSendQueue false io c.zh.toSend).2.2 } := by
  obtain ⟨hinput, hgreeted, hup, hprocess, hdown⟩ := h.phase.live_of_connected hlive
  have hflush : SendBuffer.Flushes c.zh.toSend (SendBuffer.flushSendQueue false io c.zh.toSend) :=
    SendBuffer.flushSendQueue_spec h.queue
  obtain ⟨hqueue, ps, hps, hframes⟩ := hflush
  refine ⟨sent ++ ps, received, coming,
    { h with
      phase := .live hlive hinput hgreeted ?_ hprocess hdown
      queue := hqueue
      sent_lt := ?_
      requests := ?_ }⟩
  · simp only
    rw [hup, List.append_assoc, hframes, frames_append, List.append_assoc]
  · intro p hp
    obtain hp | hp := List.mem_append.mp hp
    · exact h.sent_lt p hp
    · have hmem : p ∈ SendBuffer.packets c.zh.toSend := by
        rw [hps]
        exact List.mem_append_left _ hp
      obtain ⟨b, hb, rfl⟩ := List.mem_map.mp hmem
      exact (h.queue.1 b hb).length_lt.trans (by decide)
  · intro hnot
    have hsame : sent ++ ps ++ SendBuffer.packets (SendBuffer.flushSendQueue false io c.zh.toSend).2.1 =
        sent ++ SendBuffer.packets c.zh.toSend := by
      rw [hps, List.append_assoc]
    simp only [hsame]
    exact h.requests hnot

omit [Host] in
/-- As long as nothing has been read into it, the input is a new buffer. -/
theorem inBuffer_idle (hinput : ∀ b, c.zh.inputBuffer = .packet b → b = .allocateBuffer)
    (hne : c.zh.inputBuffer ≠ .primer) : inBuffer c.zh = .allocateBuffer := by
  rw [inBuffer]
  cases hib : c.zh.inputBuffer with
  | null => rfl
  | primer => exact absurd hib hne
  | packet b => exact hinput b hib

/-- Where nothing can come, the buffer stays as it is. -/
theorem recv_primer_nil (hs : Sane c) (hrun : c.zh.isUnrecoverable = false)
    (hinput : c.zh.inputBuffer = .primer) (hdown : c.socket.down = []) {r₁ r₂ : RecvResult}
    {rc : BufferRc} {b : InBuffer} {down : Bytes}
    (hrecv : (inBuffer c.zh).recvBuffer r₁ r₂ c.socket.down = (rc, b, down)) :
    rc ≠ .complete ∧ b = c.zh.primerBuffer ∧ down = [] := by
  rw [inBuffer_primer hinput] at hrecv
  obtain ⟨hge, hlt⟩ := hs.priming hinput hrun
  obtain ⟨-, -, -, hcomplete⟩ := (hs.primer hrun).recvBuffer_spec hge hlt hrecv
  rw [hdown] at hrecv
  obtain ⟨rfl, rfl⟩ := recvBuffer_nil_of_le hge hrecv
  exact ⟨mt hcomplete.mp (by omega), rfl, rfl⟩

/-- Where no connect request has been answered, nothing comes. -/
theorem Transit.nothing (h : Transit c [] [] []) (hs : Sane c) {r₁ r₂ : RecvResult} {rc : BufferRc}
    {b : InBuffer} {down : Bytes} (hrun : c.zh.isUnrecoverable = false)
    (hstate : c.zh.state ≠ .connected) (hdown : c.socket.down = [])
    (hinput : ∀ b, c.zh.inputBuffer = .packet b → b = .allocateBuffer)
    (hrecv : (inBuffer c.zh).recvBuffer r₁ r₂ c.socket.down = (rc, b, down)) :
    rc ≠ .complete ∧ InTransit { c with zh := setInBuffer b c.zh, socket.down := down } := by
  by_cases hprimer : c.zh.inputBuffer = .primer
  · obtain ⟨hrc, rfl, rfl⟩ := recv_primer_nil hs hrun hprimer hdown hrecv
    rw [setInBuffer_primer hprimer, ← hdown]
    exact ⟨hrc, _, _, _, h.congr rfl rfl rfl rfl rfl rfl rfl rfl rfl⟩
  · rw [inBuffer_idle hinput hprimer, hdown] at hrecv
    obtain ⟨hrc, rfl, rfl⟩ := recvBuffer_nil hrecv
    rw [setInBuffer_packet hprimer, ← hdown]
    refine ⟨hrc, [], [], [], { h with phase := ?_ }⟩
    cases h.phase with
    | idle hidle hsocket hprocess _ => exact .idle hidle hsocket hprocess (by simp)
    | asking _ hi => exact absurd hi hprimer
    | greeted _ hi => exact absurd hi hprimer
    | live hlive => exact absurd hlive hstate

omit [Host] in
theorem head_offset (hs : Sane c) (hstate : c.zh.state ≠ .connected) :
    ∀ b ∈ c.zh.toSend.head?, b.currOffset = 0 :=
  fun b hb => hs.unsent hstate b (List.mem_of_mem_head? hb)

omit [Host] in
theorem length_response {res : PrimeStruct} (h : res.passwd.length = 16) :
    (frame (primeWire res)).length = 40 := by
  rw [length_frame, length_primeWire h]

/-- The rest of the connect response, or a part of it, is read. -/
theorem recv_response (hs : Sane c) (hrun : c.zh.isUnrecoverable = false)
    (hinput : c.zh.inputBuffer = .primer) {res : PrimeStruct} {rest down : Bytes}
    {r₁ r₂ : RecvResult} {rc : BufferRc} {b : InBuffer} (hres : res.passwd.length = 16)
    (hbody : c.zh.primerBuffer.Body (frame (primeWire res)))
    (hrecv : (inBuffer c.zh).recvBuffer r₁ r₂
      ((frame (primeWire res)).drop (c.zh.primerBuffer.currOffset - 4) ++ rest) = (rc, b, down)) :
    b.Body (frame (primeWire res)) ∧
      down = (frame (primeWire res)).drop (b.currOffset - 4) ++ rest ∧
      (rc = .complete → b.currOffset = 44) := by
  rw [inBuffer_primer hinput] at hrecv
  obtain ⟨hge, hlt⟩ := hs.priming hinput hrun
  have hlen := length_response hres
  obtain ⟨-, hge', -, -⟩ := (hs.primer hrun).recvBuffer_spec hge hlt hrecv
  obtain ⟨hreading, hdown, hcomplete⟩ := recvBuffer_body hbody (by omega) (by omega) hrecv
  refine ⟨?_, ?_, fun hrc => by rw [hcomplete.mp hrc, hlen]⟩
  · obtain hheader | hbody' := hreading
    · have h4 := hheader.offset_lt
      omega
    · exact hbody'
  · rw [hdown, drop_frame hge']

/-- Bytes of the stream go into the buffer of the input. -/
theorem Transit.receive (h : Transit c sent received coming) (hs : Sane c) {r₁ r₂ : RecvResult}
    {b : InBuffer} {down : Bytes} (hrun : c.zh.isUnrecoverable = false)
    (hrecv : (inBuffer c.zh).recvBuffer r₁ r₂ c.socket.down = (.incomplete, b, down)) :
    InTransit { c with zh := setInBuffer b c.zh, socket.down := down } := by
  cases h.phase with
  | idle hstate hsocket hprocess hinput =>
    exact (h.nothing hs hrun hstate.2 (by rw [hsocket]; rfl) hinput hrecv).2
  | asking hstate hinput hsocket hprocess hoffset =>
    exact (h.nothing hs hrun (by simp [hstate]) (by rw [hsocket]) (by simp [hinput]) hrecv).2
  | greeted hstate hinput hres hbody hsocket hprocess =>
    rw [hsocket] at hrecv
    obtain ⟨hbody', hdown, -⟩ := recv_response hs hrun hinput hres hbody hrecv
    rw [setInBuffer_primer hinput]
    refine ⟨_, _, _, { h with phase := .greeted hstate hinput hres hbody' ?_ hprocess }⟩
    simp only [hsocket, hdown]
  | live hstate hinput hgreeted hup hprocess hdown =>
    rw [setInBuffer_packet hinput]
    have hlens : ∀ p ∈ coming.map Message.bytes, 0 < p.length ∧ p.length < 2 ^ 31 :=
      List.forall_mem_map.mpr h.coming_len
    have hreceiving := (hdown.recv hlens hrecv).1 nofun
    exact ⟨_, _, _, { h with phase := .live hstate (by simp) hgreeted hup hprocess hreceiving }⟩

/-- A packet has come. -/
theorem Transit.receivePacket (h : Transit c sent received coming) (hs : Sane c) {r₁ r₂ : RecvResult}
    {b : InBuffer} {down : Bytes} (hrun : c.zh.isUnrecoverable = false)
    (hrecv : (inBuffer c.zh).recvBuffer r₁ r₂ c.socket.down = (.complete, b, down))
    (hinput : c.zh.inputBuffer ≠ .primer) :
    InTransit { c with
      zh.toProcess := c.zh.toProcess ++ [b.buffer.getD []]
      zh.inputBuffer := .null
      socket.down := down } := by
  cases h.phase with
  | idle hstate hsocket hprocess hidle =>
    have hnot := (h.nothing hs hrun hstate.2 (by rw [hsocket]; rfl) hidle hrecv).1
    exact absurd rfl hnot
  | asking hstate hi => exact absurd hi hinput
  | greeted hstate hi => exact absurd hi hinput
  | live hstate _ hgreeted hup hprocess hdown =>
    have hlens : ∀ p ∈ coming.map Message.bytes, 0 < p.length ∧ p.length < 2 ^ 31 :=
      List.forall_mem_map.mpr h.coming_len
    obtain ⟨p, qs, hps, hbuffer, rfl⟩ := (hdown.recv hlens hrecv).2 rfl
    cases coming with
    | nil => cases hps
    | cons m coming =>
      rw [List.map_cons, List.cons.injEq] at hps
      obtain ⟨rfl, rfl⟩ := hps
      have hassoc : received ++ [m] ++ coming = received ++ m :: coming := by simp
      refine ⟨sent, received ++ [m], coming,
        { h with
          phase := .live hstate nofun hgreeted hup ?_ (.inl ⟨rfl, rfl⟩)
          valid := by rw [hassoc]; exact h.valid
          coming_len := fun m' hm' => h.coming_len m' (List.mem_cons_of_mem _ hm')
          requests := by rw [hassoc]; exact h.requests }⟩
      simp [hprocess, hbuffer]

/-- The connect response has come, and the session is there. -/
theorem Transit.handshake (h : Transit c sent received coming) (hs : Sane c) {r₁ r₂ : RecvResult}
    {b : InBuffer} {down : Bytes} {fronts : List Bytes} {res : PrimeStruct}
    (hrun : c.zh.isUnrecoverable = false)
    (hrecv : (inBuffer c.zh).recvBuffer r₁ r₂ c.socket.down = (.complete, b, down))
    (hinput : c.zh.inputBuffer = .primer) (hfronts : ∀ p ∈ fronts, Own p) :
    InTransit (connected res fronts { c with zh.primerBuffer := b, socket.down := down }) := by
  cases h.phase with
  | idle hstate hsocket hprocess hidle =>
    have hnot := (h.nothing hs hrun hstate.2 (by rw [hsocket]; rfl) hidle hrecv).1
    exact absurd rfl hnot
  | asking hstate hi hsocket hprocess hoffset =>
    have hnot := (h.nothing hs hrun (by simp [hstate]) (by rw [hsocket]) (by simp [hinput]) hrecv).1
    exact absurd rfl hnot
  | live hstate hi => exact absurd hinput hi
  | greeted hstate hi hres hbody hsocket hprocess =>
    have hzero : ∀ b ∈ c.zh.toSend.head?, b.currOffset = 0 := head_offset hs (by simp [hstate])
    have hqueued := h.fronts fronts hfronts hzero
    rw [hsocket] at hrecv
    obtain ⟨-, hdown, hfull⟩ := recv_response hs hrun hi hres hbody hrecv
    rw [hfull rfl, List.drop_of_length_le (by rw [length_response hres]), List.nil_append] at hdown
    refine ⟨[], [], coming,
      { hqueued with phase := .live rfl nofun ?_ ?_ hprocess (.inl ⟨rfl, hdown⟩) }⟩
    · simp only [connected, queueSessionEvent, hsocket]
    · simp only [connected, queueSessionEvent, hsocket]
      exact (begun_fronts fronts hzero).symm

/-! ## The server -/

/-- The server reads the connect request and answers it. -/
theorem Transit.greet (h : Transit c sent received coming) (hs : Sane c) {res : PrimeStruct}
    (hgreeted : c.socket.greeted = false) (hup : 48 ≤ c.socket.up.length)
    (hres : res.passwd.length = 16) :
    InTransit { c with
      socket.up := c.socket.up.drop 48
      socket.down := c.socket.down ++ frame (primeWire res)
      socket.greeted := true } := by
  cases h.phase with
  | idle hstate hsocket => simp [hsocket, Socket.fresh] at hup
  | greeted hstate hinput hres hbody hsocket => simp [hsocket] at hgreeted
  | live hstate hinput hlive => simp [hlive] at hgreeted
  | @asking req hstate hinput hsocket hprocess hoffset =>
    have hrun : c.zh.isUnrecoverable = false := by rw [Zhandle.isUnrecoverable, hstate]; rfl
    obtain ⟨hlen, mem, hmem, hmemlen⟩ := hs.primer hrun
    have hlength := length_response hres
    have hbody : c.zh.primerBuffer.Body (frame (primeWire res)) :=
      { offset_ge := by omega
        offset_le := by omega
        len_eq := by rw [hlen, hlength]; rfl
        buffer_eq := ⟨mem, by rw [hmem, hoffset]; rfl, by rw [hoffset, hmemlen, hlength]⟩ }
    refine ⟨[], [], [], { h with phase := .greeted hstate hinput hres hbody ?_ hprocess }⟩
    have hall : (frame (connectWire req)).drop 48 = [] :=
      List.drop_of_length_le (by rw [length_frame, length_connectWire])
    simp [hsocket, hoffset, hall]

omit [Host] in
theorem begun_queue {q : List SendBuffer} (hq : SendBuffer.QueueSound q) :
    Reader.Begun readFrame (SendBuffer.begun q) := by
  cases q with
  | nil => exact begun_nil
  | cons b q =>
    have hb := hq.1 b List.mem_cons_self
    exact begun_take (hb.length_lt.trans (by decide)) (by rw [length_frame]; exact hb.offset_lt)

/-- The server reads the next packet. -/
theorem Transit.read (h : Transit c sent received coming) {packet : Bytes} {hdr : RequestHeader}
    {body : RequestBody} (hgreeted : c.socket.greeted = true) (hlen : packet.length < 2 ^ 32)
    (hpre : frame packet <+: c.socket.up)
    (hread : (deserializeRequest packet).1 = .ok (hdr, body)) :
    InTransit { c with
      socket.up := c.socket.up.drop (frame packet).length
      socket.todo := if hdr.xid ∈ reservedXids then c.socket.todo else c.socket.todo ++ [(hdr, body)] } := by
  cases h.phase with
  | idle hstate hsocket => simp [hsocket, Socket.fresh] at hgreeted
  | asking hstate hinput hsocket => simp [hsocket] at hgreeted
  | greeted hstate hinput hres hbody hsocket =>
    rw [hsocket] at hpre
    have hnil := congrArg List.length (List.prefix_nil.mp hpre)
    simp at hnil
  | live hstate hinput _ hup hprocess hdown =>
    obtain ⟨rest, hrest⟩ := hpre
    rw [hup] at hrest
    obtain ⟨sent', rfl, rfl⟩ := frames_uncons hlen h.sent_lt (begun_queue h.queue) hrest
    have hdrop : c.socket.up.drop (frame packet).length =
        frames sent' ++ SendBuffer.begun c.zh.toSend := by
      rw [hup, ← hrest, List.drop_left]
    have hrequest : requestOf packet = if hdr.xid ∈ reservedXids then none else some (hdr.xid, body) := by
      rw [requestOf, hread]
    have hphase : ∀ todo, Phase { c with
        socket.up := c.socket.up.drop (frame packet).length
        socket.todo := todo } sent' received coming :=
      fun todo => .live hstate hinput hgreeted hdrop hprocess hdown
    have hlt : ∀ p ∈ sent', p.length < 2 ^ 32 := fun p hp => h.sent_lt p (List.mem_cons_of_mem _ hp)
    by_cases hxid : hdr.xid ∈ reservedXids
    · rw [if_pos hxid] at hrequest
      rw [if_pos hxid]
      refine ⟨sent', received, coming, { h with phase := hphase _, sent_lt := hlt, requests := ?_ }⟩
      intro hnot
      have hall := h.requests hnot
      rw [List.cons_append, List.filterMap_cons_none hrequest] at hall
      exact hall
    · rw [if_neg hxid] at hrequest
      rw [if_neg hxid]
      refine ⟨sent', received, coming,
        { h with phase := hphase _, sent_lt := hlt, todo := ?_, requests := ?_ }⟩
      · exact List.forall_mem_append.mpr ⟨h.todo, List.forall_mem_singleton.mpr hxid⟩
      · intro hnot
        have hall := h.requests hnot
        rw [List.cons_append, List.filterMap_cons_some hrequest] at hall
        simpa using hall

/-- The server sends a message, and takes requests off its list. -/
theorem Transit.send (h : Transit c sent received coming) {m : Message}
    (done : List (RequestHeader × RequestBody)) {todo : List (RequestHeader × RequestBody)}
    (served : List Served) (hgreeted : c.socket.greeted = true) (hm : m.Valid (c.served ++ served))
    (hlen : m.bytes.length < 2 ^ 31) (htodo : c.socket.todo = done ++ todo)
    (hrequest : m.request.toList = done.map fun r => (r.1.xid, r.2)) :
    InTransit { c with
      socket.down := c.socket.down ++ frame m.bytes
      socket.todo := todo
      served := c.served ++ served } := by
  have hvalid : ∀ m' ∈ received ++ (coming ++ [m]), m'.Valid (c.served ++ served) := by
    intro m' hm'
    rw [← List.append_assoc, List.mem_append, List.mem_singleton] at hm'
    obtain hold | rfl := hm'
    · have hv := h.valid m' hold
      cases m' with
      | answer s zxid => exact ⟨List.mem_append_left _ hv.1, hv.2⟩
      | notice hdr evt => exact hv
    · exact hm
  have hcoming : ∀ m' ∈ coming ++ [m], 0 < m'.bytes.length ∧ m'.bytes.length < 2 ^ 31 :=
    List.forall_mem_append.mpr ⟨h.coming_len, List.forall_mem_singleton.mpr ⟨bytes_pos, hlen⟩⟩
  have hrest : ∀ r ∈ todo, r.1.xid ∉ reservedXids :=
    fun r hr => h.todo r (by rw [htodo]; exact List.mem_append_right _ hr)
  have hone : [m].filterMap Message.request = m.request.toList := by
    cases hr : m.request <;> simp [hr]
  have hrequests : c.freed = false → c.zh.sentRequests.map (fun e => (e.xid, e.body)) =
      (received ++ (coming ++ [m])).filterMap Message.request ++ todo.map (fun r => (r.1.xid, r.2)) ++
        (sent ++ SendBuffer.packets c.zh.toSend).filterMap requestOf := by
    intro hnot
    rw [← List.append_assoc, List.filterMap_append, hone, hrequest, List.append_assoc (List.filterMap _ _),
      ← List.map_append, ← htodo]
    exact h.requests hnot
  refine ⟨sent, received, coming ++ [m],
    { h with phase := ?_, valid := hvalid, coming_len := hcoming, todo := hrest, requests := hrequests }⟩
  cases h.phase with
  | idle hstate hsocket => simp [hsocket, Socket.fresh] at hgreeted
  | asking hstate hinput hsocket => simp [hsocket] at hgreeted
  | greeted hstate hinput hres hbody hsocket hprocess =>
    refine .greeted hstate hinput hres hbody ?_ hprocess
    have hnil : todo = [] := by
      rw [hsocket] at htodo
      exact (List.append_eq_nil_iff.mp htodo.symm).2
    simp [hsocket, hnil]
  | live hstate hinput _ hup hprocess hdown =>
    refine .live hstate hinput hgreeted hup hprocess ?_
    rw [List.map_append]
    exact hdown.concat

theorem Move.inTransit (h : Move True c c') (hs : Sane c) (ht : InTransit c) : InTransit c' := by
  obtain ⟨sent, received, coming, ht⟩ := ht
  cases h with
  | @accept e packet hopen htype hxid hpacket hgood =>
    obtain ⟨hbody, hfree⟩ := hgood trivial
    rw [addCompletion, if_neg (by simp [hopen])]
    have hrequest : requestOf packet = some (e.xid, e.body) := by
      rw [(packetBytes_eq_ok hpacket).1]
      exact requestOf_request hbody hfree
    exact ⟨_, _, _, ht.append [e] (sound_of_packetBytes hpacket) rfl rfl (by simpa using htype)
      (by rw [hrequest]; rfl) rfl rfl rfl rfl rfl rfl rfl⟩
  | addAuth => exact ⟨_, _, _, ht.congr rfl rfl rfl rfl rfl rfl rfl rfl rfl⟩
  | @sendAuth auth packet hmem hlive hpacket hhead =>
    exact ⟨_, _, _, ht.fronts [packet] (by simpa using own_authPacket hpacket) (hhead trivial)⟩
  | ping hlive hidle =>
    obtain ⟨hsound, hnone⟩ := own_ping
    exact ⟨_, _, _, ht.append [] hsound rfl (List.append_nil _).symm (List.forall_mem_nil _)
      (by rw [hnone]; rfl) rfl rfl rfl rfl rfl rfl rfl⟩
  | @reset c₁ rc hdisturbed hfd hrun hstate hprimer hrc =>
    rw [handleError_eq]
    refine ⟨_, _, _, Transit.down ?_ rfl rfl ?_ rfl rfl⟩
    · cases hover : c₁.zh.isUnrecoverable with
      | false => simp
      | true => simpa using (live_of_isUnrecoverable hover).2
    · cases hinput : c₁.zh.inputBuffer <;> simp [InputBuffer.cleaned]
  | rewind hfd hrun hindex => exact ⟨_, _, _, ht.congr rfl rfl rfl rfl rfl rfl rfl rfl rfl⟩
  | openSocket hfd hindex hrun halive =>
    exact ⟨_, _, _, ht.congr rfl (hs.fresh hfd).symm rfl rfl rfl rfl rfl rfl rfl⟩
  | connecting hfd hrun hstate =>
    cases ht.phase with
    | idle _ hk hp hi => exact ⟨_, _, _, { ht with phase := .idle (by simp) hk hp hi }⟩
    | asking hs' => exact absurd hs' hstate.2
    | greeted hs' => exact absurd hs' hstate.2
    | live hs' => exact absurd hs' hstate.1
  | @prime w₁ w₂ hfd hrun hstate hwhole =>
    cases ht.phase with
    | idle _ hk hp hi =>
      have hsocket : ({ c.socket with up := c.socket.up ++ (w₁ ++ w₂) } : Socket) =
          ⟨frame (connectWire (connectReq c.zh)), [], false, []⟩ := by
        rw [hk, hwhole trivial]
        rfl
      exact ⟨_, _, _, { ht with phase := .asking rfl rfl hsocket hp rfl }⟩
    | asking hs' => exact absurd hs' hstate.2
    | greeted hs' => exact absurd hs' hstate.2
    | live hs' => exact absurd hs' hstate.1
  | @flush io hlive => exact ht.flush hlive
  | receive hfd hrun hrecv => exact ht.receive hs hrun hrecv
  | receivePacket hfd hrun hrecv hinput => exact ht.receivePacket hs hrun hrecv hinput
  | @handshake r₁ r₂ b down auths watches hfd hrun hrecv hinput hid hauths hwatches =>
    refine ht.handshake hs hrun hrecv hinput ?_
    intro p hp
    obtain hp | hp := List.mem_append.mp hp
    · exact own_authPackets hauths p (List.mem_reverse.mp hp)
    · exact own_setWatchesPackets hwatches p hp
  | skip hfirst hxid =>
    obtain ⟨m, received', rfl, -, hprocess, rfl, -⟩ := ht.first hfirst
    have hm := ht.valid m List.mem_cons_self
    refine ⟨_, _, _, ht.take [] rfl ?_ hprocess rfl rfl rfl rfl rfl rfl rfl⟩
    intro hnot
    obtain hping | hwatches | ⟨hfree, hnone, -⟩ := hxid
    · rw [request_of_reserved hm (by simp [hping, reservedXids])]
      rfl
    · rw [request_of_reserved hm (by simp [hwatches, reservedXids])]
      rfl
    · obtain ⟨s, zxid, rfl⟩ := answer_of_not_reserved hm hfree
      obtain ⟨e, es, hsome, -⟩ := ht.answers_first hnot
      rw [hnone] at hsome
      cases hsome
  | event hfirst hxid hevt hpath =>
    obtain ⟨m, received', rfl, -, hprocess, rfl, -⟩ := ht.first hfirst
    have hnone := request_of_reserved (ht.valid m List.mem_cons_self) (by simp [hxid, reservedXids])
    exact ⟨_, _, _, ht.take [] rfl (fun _ => by rw [hnone]; rfl) hprocess rfl rfl rfl rfl rfl rfl rfl⟩
  | authAnswer hfirst hxid hauths =>
    obtain ⟨m, received', rfl, -, hprocess, rfl, -⟩ := ht.first hfirst
    have hnone := request_of_reserved (ht.valid m List.mem_cons_self) (by simp [hxid, reservedXids])
    have hrequest : c.freed = false → m.request.toList = [] := fun _ => by rw [hnone]; rfl
    split
    · exact ⟨_, _, _, ht.take [] rfl hrequest hprocess rfl rfl rfl rfl rfl rfl rfl⟩
    · exact ⟨_, _, _, ht.take [] rfl hrequest hprocess rfl rfl rfl rfl rfl rfl rfl⟩
  | take hidle hfirst hxid hsent =>
    obtain ⟨s, zxid, received', rfl, -, hprocess, rfl, -, -, hrequest⟩ := ht.answered hfirst hxid hsent
    exact ⟨_, _, _, ht.take [_] hsent hrequest hprocess rfl rfl rfl rfl rfl rfl rfl⟩
  | answerAsync htaken heq hsync => exact ⟨_, _, _, ht.congr rfl rfl rfl rfl rfl rfl rfl rfl rfl⟩
  | answerSync halive htaken heq hsync hread => exact ⟨_, _, _, ht.congr rfl rfl rfl rfl rfl rfl rfl rfl rfl⟩
  | deliverEvent hqs hhdr hxid hevt => exact ⟨_, _, _, ht.congr rfl rfl rfl rfl rfl rfl rfl rfl rfl⟩
  | deliverNothing hqs hhdr hxid hentry => exact ⟨_, _, _, ht.congr rfl rfl rfl rfl rfl rfl rfl rfl rfl⟩
  | deliverAnswer hqs hhdr hentry hread => exact ⟨_, _, _, ht.congr rfl rfl rfl rfl rfl rfl rfl rfl rfl⟩
  | requestClose => exact ⟨_, _, _, ht.congr rfl rfl rfl rfl rfl rfl rfl rfl rfl⟩
  | freeOnClose hclose =>
    rw [freeOnClose_eq]
    exact ⟨_, _, _,
      { ht with
        phase := ht.phase.congr rfl rfl rfl rfl rfl rfl
        typed := List.forall_mem_nil _
        requests := fun h => by cases h }⟩
  | destroy hfreed hidle =>
    rw [destroy_eq]
    refine ⟨_, _, _, Transit.down ?_ rfl rfl ?_ rfl rfl⟩
    · cases hfd : c.zh.fd with
      | false => simpa [hfd] using (hs.down hfd).2
      | true => simp
    · cases hinput : c.zh.inputBuffer <;> simp [InputBuffer.cleaned]
  | peer hfd hfree => exact absurd trivial hfree
  | @server l _ henabled hgood hstep hserver =>
    cases l with
    | serverGreets res =>
      cases hstep
      obtain ⟨-, -, hgreeted, hup, hres⟩ := henabled
      exact ht.greet hs hgreeted hup hres
    | serverReads packet hdr body =>
      cases hstep
      obtain ⟨-, -, hgreeted, hlen, hpre, hread⟩ := henabled
      exact ht.read hgreeted hlen hpre hread
    | serverAnswers zxid err res =>
      obtain ⟨-, hfd, ⟨hdr, body⟩, hhead, htype, hres, hlen⟩ := henabled
      obtain ⟨todo, htodo⟩ : ∃ todo, c.socket.todo = (hdr, body) :: todo := by
        cases htodo : c.socket.todo with
        | nil => simp [htodo] at hhead
        | cons r todo =>
          rw [htodo] at hhead
          cases hhead
          exact ⟨todo, rfl⟩
      cases hstep
      have hxid := ht.todo (hdr, body) (by simp [htodo])
      have hgreeted := ht.phase.greeted_of_todo (by simp [htodo])
      rw [serverAnswers, htodo]
      exact ht.send (m := .answer ⟨hdr.xid, body, err, res⟩ zxid) [(hdr, body)]
        [⟨hdr.xid, body, err, res⟩] hgreeted
        ⟨List.mem_append_right _ (List.mem_singleton_self _), hxid, htype, hres⟩ hlen htodo rfl
    | serverNotifies hdr evt =>
      obtain ⟨-, hfd, hgreeted, hxid, hevt, hlen⟩ := henabled
      cases hstep
      have hsend := ht.send (m := .notice hdr evt) [] [] hgreeted ⟨hxid, hevt, hgood trivial⟩ hlen
        rfl rfl
      rw [List.append_nil] at hsend
      exact hsend
    | submit _ | addAuth _ | interest _ | events _ | process _ | settle | deliver | requestClose
    | freeOnClose | destroy _ _ | peerReads _ | peerSends _ => cases hserver

theorem inTransit_initial {addrsCount : Nat} {recvTimeout : Int32} {clientId : Int64}
    {passwd : Passwd} {chroot : Option Bytes} :
    InTransit (initial addrsCount recvTimeout clientId passwd chroot) :=
  ⟨[], [], [], Transit.down (by simp [initial]) rfl rfl (fun b h => by cases h) rfl rfl⟩

end Moves

end Client

end QtZooKeeper
