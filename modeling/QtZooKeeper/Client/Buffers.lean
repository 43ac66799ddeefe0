-- SUMMARY: The buffers of a connection: sending and receiving packets over a socket that takes and gives a few bytes at a time.
import QtZooKeeper.Base.Framing
import QtZooKeeper.Client.InputArchive

/-!
# Send and receive buffers

A packet goes over the socket behind its length. A buffer keeps an offset into both,
because a call of `send` or `recv` may stop anywhere. `sendBuffer_spec` and
`recvBuffer_spec` say what a call does to the stream: the socket gets the next bytes of
the frame, and the receiver has the next bytes of the frame.
-/

namespace QtZooKeeper

/-! ## The socket -/

/-- `errno` as far as it matters: to try again later, or anything else. -/
inductive SocketError where
  | again
  | other
  deriving DecidableEq, Repr

/-- What a call of `send` comes to. -/
inductive SendResult where
  /-- At most `n` bytes are taken. -/
  | taken (n : Nat)
  | error (e : SocketError)
  deriving DecidableEq, Repr

/-- The bytes that were taken. -/
def SendResult.send : SendResult → Bytes → Except SocketError Bytes
  | taken n, bs => .ok (bs.take n)
  | error e, _ => .error e

/-- What a call of `recv` comes to. -/
inductive RecvResult where
  /-- At most `n` bytes are given. -/
  | given (n : Nat)
  | error (e : SocketError)
  deriving DecidableEq, Repr

/-- The next bytes of the stream, at most `want`. None at all means that the peer is
gone, which the client takes for an error. -/
def RecvResult.recv : RecvResult → Bytes → Nat → Except SocketError Bytes
  | given n, stream, want =>
    if stream.take (min n want) = [] then .error .other else .ok (stream.take (min n want))
  | error e, _, _ => .error e

/-- The result of `send_buffer` and `recv_buffer`: -1, 0 or 1. -/
inductive BufferRc where
  | failed
  | incomplete
  | complete
  deriving DecidableEq, Repr

/-! ## Sending -/

/-- `buffer_list_t` in the send queue. Its `len` is the length of the buffer. -/
structure SendBuffer where
  buffer : Bytes
  currOffset : Nat
  deriving DecidableEq, Repr

namespace SendBuffer

/-- Whether header and buffer are through. -/
def finished (b : SendBuffer) : BufferRc :=
  if b.currOffset = b.buffer.length + 4 then .complete else .incomplete

/-- The second half of `send_buffer`. -/
def sendBody (b : SendBuffer) (r : SendResult) : BufferRc × SendBuffer × Bytes :=
  if 4 ≤ b.currOffset then
    match r.send (b.buffer.drop (b.currOffset - 4)) with
    | .error .other => (.failed, b, [])
    | .error .again => (b.finished, b, [])
    | .ok w =>
      (finished { b with currOffset := b.currOffset + w.length },
        { b with currOffset := b.currOffset + w.length }, w)
  else (b.finished, b, [])

/-- `send_buffer`, with the results of its two calls of `send`: the return value, the
buffer, and what the socket has taken. -/
def sendBuffer [Host] (b : SendBuffer) (r₁ r₂ : SendResult) : BufferRc × SendBuffer × Bytes :=
  if b.currOffset < 4 then
    match r₁.send ((intBytes (htonl (.ofNat b.buffer.length))).drop b.currOffset) with
    | .error .other => (.failed, b, [])
    | .error .again => (.incomplete, b, [])
    | .ok w =>
      let r := sendBody { b with currOffset := b.currOffset + w.length } r₂
      (r.1, r.2.1, w ++ r.2.2)
  else sendBody b r₂

/-- The loop of `flush_send_queue` while the state stays connected: whether the connection
is lost, what is still queued, and what the socket has taken. With a timeout it goes on
with a packet that is not through. A script of results that ends is a socket that takes
no more, or the end of the timeout. -/
def flushSendQueue [Host] (timeout : Bool) : List (SendResult × SendResult) → List SendBuffer →
    Bool × List SendBuffer × Bytes
  | _, [] => (false, [], [])
  | [], q => (false, q, [])
  | (r₁, r₂) :: io, b :: q =>
    match b.sendBuffer r₁ r₂ with
    | (.failed, b, w) => (true, b :: q, w)
    | (.incomplete, b, w) =>
      if timeout then
        let r := flushSendQueue timeout io (b :: q)
        (r.1, r.2.1, w ++ r.2.2)
      else (false, b :: q, w)
    | (.complete, _, w) =>
      let r := flushSendQueue timeout io q
      (r.1, r.2.1, w ++ r.2.2)

/-- A packet on its way: not empty, with a length that is an `int`, and not through. -/
structure Sound (b : SendBuffer) : Prop where
  pos : 0 < b.buffer.length
  length_lt : b.buffer.length < 2 ^ 31
  offset_lt : b.currOffset < b.buffer.length + 4

/-- The first bytes of the frame that the socket has. -/
def sent (b : SendBuffer) : Bytes := (frame b.buffer).take b.currOffset

/-- Only the first packet of a queue has been begun. -/
def QueueSound (q : List SendBuffer) : Prop :=
  (∀ b ∈ q, b.Sound) ∧ ∀ b ∈ q.tail, b.currOffset = 0

/-- What the socket has of the packet that is first. -/
def begun : List SendBuffer → Bytes
  | [] => []
  | b :: _ => b.sent

/-- The packets of a queue. -/
def packets (q : List SendBuffer) : List Bytes := q.map SendBuffer.buffer

end SendBuffer

/-- What a call of `send_buffer` does to the stream: what the socket takes are the next
bytes of the frame, and the result tells whether the frame is through. -/
structure SendBuffer.Sends (b : SendBuffer) (r : BufferRc × SendBuffer × Bytes) : Prop where
  buffer_eq : r.2.1.buffer = b.buffer
  stream_eq : b.sent ++ r.2.2 = r.2.1.sent
  offset_le : r.2.1.currOffset ≤ b.buffer.length + 4
  complete_iff : r.1 = .complete ↔ r.2.1.currOffset = b.buffer.length + 4

/-! ## Receiving -/

/-- `buffer_list_t` of an input. Its `len` is read byte by byte before it is swapped. -/
structure InBuffer where
  len : UInt32
  buffer : Option Bytes
  currOffset : Nat
  deriving DecidableEq, Repr

/-- Bytes written into memory at an offset. -/
def writeAt (mem : Bytes) (off : Nat) (w : Bytes) : Bytes :=
  mem.take off ++ w ++ mem.drop (off + w.length)

/-- `calloc(1, len)`; a negative length is more than there is. -/
def callocInt (len : UInt32) : Option Bytes :=
  if len.toInt32 < 0 then none else some (List.replicate len.toNat 0)

namespace InBuffer

/-- `allocate_buffer(0, 0)`: its length is the size of the structure. -/
def allocateBuffer : InBuffer := ⟨24, none, 0⟩

/-- `curr_offset == len + sizeof(len)`, computed in `size_t`. -/
def finished (b : InBuffer) : BufferRc :=
  if (b.currOffset : Int) = (b.len.toInt32.toInt + 4) % 2 ^ 64 then .complete else .incomplete

/-- The second half of `recv_buffer`. -/
def recvBody (b : InBuffer) (r : RecvResult) (stream : Bytes) : BufferRc × InBuffer × Bytes :=
  match b.buffer with
  | none => (b.finished, b, stream)
  | some body =>
    match r.recv stream (b.len.toNat - (b.currOffset - 4)) with
    | .error .other => (.failed, b, stream)
    | .error .again => (b.finished, b, stream)
    | .ok w =>
      let b' : InBuffer :=
        { b with
          buffer := some (writeAt body (b.currOffset - 4) w)
          currOffset := b.currOffset + w.length }
      (b'.finished, b', stream.drop w.length)

/-- `recv_buffer`, with the results of its two calls of `recv`: the return value, the
buffer, and what is left of the stream. -/
def recvBuffer [Host] (b : InBuffer) (r₁ r₂ : RecvResult) (stream : Bytes) :
    BufferRc × InBuffer × Bytes :=
  if b.currOffset < 4 then
    match r₁.recv stream (4 - b.currOffset) with
    | .error .other => (.failed, b, stream)
    | .error .again => (.incomplete, b, stream)
    | .ok w =>
      let b := { b with
        len := intValue (writeAt (intBytes b.len) b.currOffset w)
        currOffset := b.currOffset + w.length }
      let b := if b.currOffset = 4 then
          { b with len := htonl b.len, buffer := callocInt (htonl b.len) }
        else b
      recvBody b r₂ (stream.drop w.length)
  else recvBody b r₂ stream

/-- Only bytes of the length have come. Those that have not are as they were. -/
structure Header [Host] (b : InBuffer) (p : Bytes) : Prop where
  offset_lt : b.currOffset < 4
  buffer_eq : b.buffer = none
  len_eq : intBytes b.len =
    (networkBytes 4 p.length).take b.currOffset ++ (intBytes 24).drop b.currOffset

/-- The length has come, and the first bytes of the packet. -/
structure Body (b : InBuffer) (p : Bytes) : Prop where
  offset_ge : 4 ≤ b.currOffset
  offset_le : b.currOffset ≤ p.length + 4
  len_eq : b.len.toNat = p.length
  buffer_eq : ∃ mem, b.buffer = some (p.take (b.currOffset - 4) ++ mem) ∧
    mem.length = p.length - (b.currOffset - 4)

/-- The buffer has read the first bytes of the frame of `p`. -/
def Reading [Host] (b : InBuffer) (p : Bytes) : Prop := b.Header p ∨ b.Body p

end InBuffer

/-- What a call of `recv_buffer` does to a stream that goes on with the rest of the frame
of `p`: it reads some more of the frame and nothing else, and the result tells whether it
has the whole. -/
structure InBuffer.Receives [Host] (p rest : Bytes) (r : BufferRc × InBuffer × Bytes) : Prop where
  reading : r.2.1.Reading p
  stream_eq : r.2.2 = (frame p).drop r.2.1.currOffset ++ rest
  complete_iff : r.1 = .complete ↔ r.2.1.currOffset = p.length + 4

/-! ## What a call does to the stream -/

/-- The next bytes of a message, behind the first ones. -/
theorem take_append_next {l w : Bytes} {off : Nat} (hw : w <+: l.drop off) :
    l.take off ++ w = l.take (off + w.length) := by
  rw [List.take_add, ← List.prefix_iff_eq_take.mp hw]

section Sending

variable {b b' : SendBuffer} {rc : BufferRc} {w : Bytes} {r r₁ r₂ : SendResult}

theorem SendBuffer.finished_iff :
    b.finished = .complete ↔ b.currOffset = b.buffer.length + 4 := by
  rw [SendBuffer.finished]
  split <;> simp_all

/-- The socket has taken nothing. -/
theorem SendBuffer.sends_nothing (hb : b.Sound) (hrc : rc ≠ .complete) : b.Sends (rc, b, []) where
  buffer_eq := rfl
  stream_eq := List.append_nil _
  offset_le := Nat.le_of_lt hb.offset_lt
  complete_iff := by
    have hlt := hb.offset_lt
    simp only [hrc, false_iff]
    omega

/-- The socket has taken the next bytes `w`. -/
theorem SendBuffer.sends_next (hw : w <+: (frame b.buffer).drop b.currOffset)
    (hb : b.currOffset ≤ b.buffer.length + 4) :
    b.Sends (finished { b with currOffset := b.currOffset + w.length },
      { b with currOffset := b.currOffset + w.length }, w) where
  buffer_eq := rfl
  stream_eq := take_append_next hw
  offset_le := by
    have hle := hw.length_le
    rw [List.length_drop, length_frame] at hle
    simp only
    omega
  complete_iff := SendBuffer.finished_iff

theorem SendBuffer.Sends.trans (h : b.Sends (rc, b', w)) {s : BufferRc × SendBuffer × Bytes}
    (h' : b'.Sends s) : b.Sends (s.1, s.2.1, w ++ s.2.2) where
  buffer_eq := h'.buffer_eq.trans h.buffer_eq
  stream_eq := by
    have hstream : b.sent ++ w = b'.sent := h.stream_eq
    rw [← List.append_assoc, hstream, h'.stream_eq]
  offset_le := by
    have hbuffer : b'.buffer = b.buffer := h.buffer_eq
    exact hbuffer ▸ h'.offset_le
  complete_iff := by
    have hbuffer : b'.buffer = b.buffer := h.buffer_eq
    exact hbuffer ▸ h'.complete_iff

theorem SendBuffer.sendBody_spec (hb : b.Sound) : b.Sends (b.sendBody r) := by
  have hlt := hb.offset_lt
  have hfin : b.finished ≠ .complete := by
    rw [Ne, SendBuffer.finished_iff]
    omega
  rw [SendBuffer.sendBody]
  by_cases h4 : 4 ≤ b.currOffset
  · rw [if_pos h4]
    cases r with
    | error e =>
      cases e with
      | again => exact SendBuffer.sends_nothing hb hfin
      | other => exact SendBuffer.sends_nothing hb (by simp)
    | taken n =>
      refine SendBuffer.sends_next ?_ (Nat.le_of_lt hlt)
      have hdrop : (frame b.buffer).drop b.currOffset = b.buffer.drop (b.currOffset - 4) := by
        rw [frame, List.drop_append, length_networkBytes, List.drop_of_length_le (by simpa using h4),
          List.nil_append]
      rw [hdrop]
      exact List.take_prefix _ _
  · rw [if_neg h4]
    exact SendBuffer.sends_nothing hb hfin

theorem SendBuffer.Sound.sendBuffer_spec [Host] (hb : b.Sound) : b.Sends (b.sendBuffer r₁ r₂) := by
  have hpos := hb.pos
  have hlen := hb.length_lt
  rw [SendBuffer.sendBuffer]
  by_cases h4 : b.currOffset < 4
  · rw [if_pos h4]
    have hheader : intBytes (htonl (.ofNat b.buffer.length)) = networkBytes 4 b.buffer.length := by
      rw [intBytes_htonl, UInt32.toNat_ofNat_of_lt' (hlen.trans (by decide))]
    cases r₁ with
    | error e =>
      cases e with
      | again => exact SendBuffer.sends_nothing hb (by simp)
      | other => exact SendBuffer.sends_nothing hb (by simp)
    | taken n =>
      rw [hheader, SendResult.send]
      dsimp only
      have hw : ((networkBytes 4 b.buffer.length).drop b.currOffset).take n <+:
          (frame b.buffer).drop b.currOffset := by
        rw [frame, List.drop_append_of_le_length (by simpa using Nat.le_of_lt h4)]
        exact (List.take_prefix _ _).trans (List.prefix_append _ _)
      have hle : (((networkBytes 4 b.buffer.length).drop b.currOffset).take n).length ≤
          4 - b.currOffset := by
        rw [List.length_take, List.length_drop, length_networkBytes]
        omega
      refine (SendBuffer.sends_next hw (by omega)).trans (SendBuffer.sendBody_spec ?_)
      exact { pos := hpos, length_lt := hlen, offset_lt := by simp only; omega }
  · rw [if_neg h4]
    exact SendBuffer.sendBody_spec hb

theorem SendBuffer.begun_of_offset {q : List SendBuffer} (h : ∀ b ∈ q, b.currOffset = 0) :
    begun q = [] := by
  cases q with
  | nil => rfl
  | cons b q => rw [begun, sent, h b List.mem_cons_self, List.take_zero]

/-- What flushing a queue does to the stream: it gets whole frames in the order of the
queue, and the beginning of the next one. -/
structure SendBuffer.Flushes (q : List SendBuffer) (r : Bool × List SendBuffer × Bytes) : Prop where
  sound : QueueSound r.2.1
  exists_sent : ∃ ps, packets q = ps ++ packets r.2.1 ∧ begun q ++ r.2.2 = frames ps ++ begun r.2.1

/-- A packet that is not through stays in front. -/
theorem SendBuffer.Sends.queueSound {b : SendBuffer} {r : BufferRc × SendBuffer × Bytes}
    {q : List SendBuffer} (h : b.Sends r) (hq : QueueSound (b :: q)) (hrc : r.1 ≠ .complete) :
    QueueSound (r.2.1 :: q) := by
  obtain ⟨hsound, hzero⟩ := hq
  obtain ⟨hbuffer, -, hoffset, hcomplete⟩ := h
  have hb := hsound b List.mem_cons_self
  have hlt : r.2.1.currOffset < b.buffer.length + 4 := by
    have hne := mt hcomplete.mpr hrc
    omega
  refine ⟨?_, hzero⟩
  intro c hc
  obtain rfl | hc := List.mem_cons.mp hc
  · exact
      { pos := hbuffer ▸ hb.pos
        length_lt := hbuffer ▸ hb.length_lt
        offset_lt := hbuffer ▸ hlt }
  · exact hsound c (List.mem_cons_of_mem _ hc)

theorem SendBuffer.flushes_none {q : List SendBuffer} (lost : Bool) (hq : QueueSound q) :
    Flushes q (lost, q, []) :=
  ⟨hq, [], rfl, List.append_nil _⟩

/-- The head is put on the stream in part, and then the queue with what is left of it. -/
theorem SendBuffer.flushes_head {b b' : SendBuffer} {q : List SendBuffer} {w : Bytes}
    {r : Bool × List SendBuffer × Bytes} (hbuffer : b'.buffer = b.buffer)
    (hstream : b.sent ++ w = b'.sent) (h : Flushes (b' :: q) r) :
    Flushes (b :: q) (r.1, r.2.1, w ++ r.2.2) := by
  obtain ⟨hsound, ps, hps, hframes⟩ := h
  refine ⟨hsound, ps, ?_, ?_⟩
  · rw [← hps, packets, packets, List.map_cons, List.map_cons, hbuffer]
  · have hbegun : b'.sent ++ r.2.2 = frames ps ++ begun r.2.1 := hframes
    rw [begun, ← List.append_assoc, hstream, hbegun]

theorem SendBuffer.flushSendQueue_spec [Host] {timeout : Bool} {io : List (SendResult × SendResult)}
    {q : List SendBuffer} (hq : QueueSound q) : Flushes q (flushSendQueue timeout io q) := by
  induction io generalizing q with
  | nil =>
    cases q with
    | nil => exact flushes_none _ hq
    | cons b q => exact flushes_none _ hq
  | cons rs io ih =>
    obtain ⟨r₁, r₂⟩ := rs
    cases q with
    | nil => exact flushes_none _ hq
    | cons b q =>
      have hsends : b.Sends (b.sendBuffer r₁ r₂) := (hq.1 b List.mem_cons_self).sendBuffer_spec
      rw [flushSendQueue]
      rcases hrun : b.sendBuffer r₁ r₂ with ⟨rc, b', w⟩
      rw [hrun] at hsends
      have hbuffer : b'.buffer = b.buffer := hsends.buffer_eq
      have hstream : b.sent ++ w = b'.sent := hsends.stream_eq
      -- the head alone, followed by nothing
      have hstop : ∀ lost, rc ≠ .complete → Flushes (b :: q) (lost, b' :: q, w) := by
        intro lost hrc
        have h := flushes_head (w := w) hbuffer hstream
          (flushes_none lost (hsends.queueSound hq hrc))
        simpa using h
      cases rc with
      | failed => exact hstop true (by simp)
      | incomplete =>
        cases timeout with
        | false => exact hstop false (by simp)
        | true => exact flushes_head hbuffer hstream (ih (hsends.queueSound hq (by simp)))
      | complete =>
        obtain ⟨hsound, hzero⟩ := hq
        have hqs : QueueSound q :=
          ⟨fun c hc => hsound c (List.mem_cons_of_mem _ hc),
            fun c hc => hzero c (List.mem_of_mem_tail hc)⟩
        obtain ⟨hrest, ps, hps, hframes⟩ := ih hqs
        have hoffset : b'.currOffset = b.buffer.length + 4 := hsends.complete_iff.mp rfl
        have hwhole : b'.sent = frame b.buffer := by
          rw [sent, hbuffer, hoffset, ← length_frame, List.take_length]
        have hnone : begun q = [] := begun_of_offset hzero
        rw [hnone, List.nil_append] at hframes
        refine ⟨hrest, b.buffer :: ps, ?_, ?_⟩
        · simpa [packets] using hps
        · rw [begun, ← List.append_assoc, hstream, hwhole, hframes, frames_cons, List.append_assoc]

end Sending

section Receiving

variable [Host] {b : InBuffer} {p rest stream w : Bytes} {n : Nat} {r r₁ r₂ : RecvResult}

omit [Host] in
/-- What `recv` gives are the next bytes. -/
theorem RecvResult.recv_eq_ok (h : r.recv stream n = .ok w) :
    w ≠ [] ∧ w.length ≤ n ∧ w <+: stream := by
  cases r with
  | error e => cases h
  | given k =>
    rw [RecvResult.recv] at h
    split at h
    · cases h
    · next hne =>
      cases h
      refine ⟨hne, ?_, List.take_prefix _ _⟩
      rw [List.length_take]
      omega

omit [Host] in
/-- From an empty stream nothing comes. -/
theorem RecvResult.recv_nil : r.recv [] n ≠ .ok w := by
  intro h
  obtain ⟨hne, -, hpre⟩ := recv_eq_ok h
  exact hne (List.prefix_nil.mp hpre)

omit [Host] in
theorem InBuffer.finished_iff (hlen : b.len.toNat < 2 ^ 31) :
    b.finished = .complete ↔ b.currOffset = b.len.toNat + 4 := by
  have hint : b.len.toInt32.toInt = b.len.toNat := by
    change b.len.toBitVec.toInt = _
    exact BitVec.toInt_eq_toNat_of_lt (by change 2 * b.len.toNat < 2 ^ 32; omega)
  have hmod : ((b.len.toNat : Int) + 4) % 2 ^ 64 = b.len.toNat + 4 := by omega
  rw [InBuffer.finished, hint, hmod]
  split
  · simp only [true_iff]
    omega
  · simp only [reduceCtorEq, false_iff]
    omega

omit [Host] in
/-- A packet that is whole. -/
theorem InBuffer.Body.eq_of_complete (h : b.Body p) (hfull : b.currOffset = p.length + 4) :
    b.buffer = some p := by
  obtain ⟨mem, hmem, hlen⟩ := h.buffer_eq
  have hnil : mem = [] := List.eq_nil_of_length_eq_zero (by omega)
  rw [hmem, hnil, hfull, Nat.add_sub_cancel, List.take_length, List.append_nil]

omit [Host] in
theorem drop_frame (h : 4 ≤ n) : (frame p).drop n = p.drop (n - 4) := by
  rw [frame, List.drop_append, length_networkBytes, List.drop_of_length_le (by simpa using h),
    List.nil_append]

theorem InBuffer.recvBody_spec (hb : b.Body p) (hlt : b.currOffset < p.length + 4)
    (hp : p.length < 2 ^ 31) :
    Receives p rest (b.recvBody r ((frame p).drop b.currOffset ++ rest)) := by
  obtain ⟨hge, hle, hlen, mem, hmem, hmemlen⟩ := hb
  have hfin : b.finished ≠ .complete := by
    rw [Ne, InBuffer.finished_iff (by omega)]
    omega
  have hstay : ∀ rc, rc ≠ BufferRc.complete →
      Receives p rest (rc, b, (frame p).drop b.currOffset ++ rest) := by
    intro rc hrc
    refine ⟨.inr ⟨hge, hle, hlen, mem, hmem, hmemlen⟩, rfl, ?_⟩
    simp only [hrc, false_iff]
    omega
  rw [InBuffer.recvBody, hmem]
  dsimp only
  split
  · exact hstay _ (by simp)
  · exact hstay _ hfin
  · next w hw =>
    obtain ⟨hne, hwlen, hpre⟩ := RecvResult.recv_eq_ok hw
    rw [drop_frame hge] at hpre ⊢
    generalize hk : b.currOffset - 4 = k at *
    rw [hlen] at hwlen
    -- what has come belongs to the packet
    have hw : w <+: p.drop k := by
      refine List.prefix_of_prefix_length_le hpre (List.prefix_append _ _) ?_
      rw [List.length_drop]
      exact hwlen
    have htake : (p.take k ++ mem).take k = p.take k :=
      List.take_left' (by rw [List.length_take]; omega)
    have hdrop : (p.take k ++ mem).drop (k + w.length) = mem.drop w.length := by
      rw [List.drop_append, List.length_take, Nat.min_eq_left (by omega), Nat.add_sub_cancel_left,
        List.drop_of_length_le (by rw [List.length_take]; omega), List.nil_append]
    have hwrite : writeAt (p.take k ++ mem) k w = p.take (k + w.length) ++ mem.drop w.length := by
      rw [writeAt, htake, hdrop, take_append_next hw]
    have hoff : b.currOffset + w.length - 4 = k + w.length := by omega
    refine ⟨.inr ⟨by simp only; omega, by simp only; omega, hlen, mem.drop w.length, ?_, ?_⟩, ?_, ?_⟩
    · simp only [hwrite, hoff]
    · simp only [List.length_drop, hmemlen, hoff]
      omega
    · simp only
      rw [drop_frame (by omega), hoff, ← List.drop_drop, List.drop_append_of_le_length]
      rw [List.length_drop]
      exact hwlen
    · rw [InBuffer.finished_iff (by simp only; omega)]
      simp only
      omega

omit [Host] in
theorem callocInt_of_lt {n : Nat} (h : n < 2 ^ 31) :
    callocInt (UInt32.ofNat n) = some (List.replicate n 0) := by
  have hint : (UInt32.ofNat n).toInt32.toInt = n := Int32.toInt_ofNat_of_lt h
  have hneg : ¬ (UInt32.ofNat n).toInt32 < 0 := by
    rw [Int32.lt_iff_toInt_lt, hint]
    change ¬ (n : Int) < 0
    omega
  rw [callocInt, if_neg hneg, UInt32.toNat_ofNat_of_lt' (h.trans (by decide))]

/-- A length of which not all bytes have come is not negative, because neither the
number that comes nor the one that stood there is. -/
theorem InBuffer.Header.len_lt (h : b.Header p) (hp : p.length < 2 ^ 31) (hpos : 0 < b.currOffset) :
    b.len.toNat < 2 ^ 31 := by
  obtain ⟨hlt, -, hlen⟩ := h
  have hvalue : b.len.toNat = Host.byteOrder.value (intBytes b.len) := by
    have hb := b.len.toNat_lt
    rw [intBytes, ByteOrder.value_bytes, Nat.mod_eq_of_lt (by omega)]
  have hnet : networkBytes 4 p.length = [UInt8.ofNat (p.length / 256 / 256 / 256),
      UInt8.ofNat (p.length / 256 / 256), UInt8.ofNat (p.length / 256), UInt8.ofNat p.length] := rfl
  have htop : (UInt8.ofNat (p.length / 256 / 256 / 256)).toNat < 128 := by
    rw [UInt8.toNat_ofNat']
    omega
  rw [hvalue, hlen, hnet]
  generalize UInt8.ofNat (p.length / 256 / 256 / 256) = a at htop
  generalize UInt8.ofNat (p.length / 256 / 256) = b₁
  generalize UInt8.ofNat (p.length / 256) = b₂
  generalize UInt8.ofNat p.length = b₃
  have h₁ := b₁.toNat_lt
  have h₂ := b₂.toNat_lt
  have hoff : b.currOffset = 1 ∨ b.currOffset = 2 ∨ b.currOffset = 3 := by omega
  rw [intBytes]
  cases Host.byteOrder with
  | little =>
    have hinit : ByteOrder.little.bytes 4 (24 : UInt32).toNat = [24, 0, 0, 0] := rfl
    rw [hinit]
    obtain h | h | h := hoff <;> rw [h] <;>
      simp [ByteOrder.value, networkValue] <;> omega
  | big =>
    have hinit : ByteOrder.big.bytes 4 (24 : UInt32).toNat = [0, 0, 0, 24] := rfl
    rw [hinit]
    obtain h | h | h := hoff <;> rw [h] <;>
      simp [ByteOrder.value, networkValue] <;> omega

/-- A call of `recv_buffer` takes bytes of the frame it is in and no others, and says that
it is done when it has all of them. -/
theorem InBuffer.Reading.recvBuffer_spec (hb : b.Reading p) (hlt : b.currOffset < p.length + 4)
    (hpos : 0 < p.length) (hp : p.length < 2 ^ 31) :
    Receives p rest (b.recvBuffer r₁ r₂ ((frame p).drop b.currOffset ++ rest)) := by
  rw [InBuffer.recvBuffer]
  obtain hheader | hbody := hb
  · obtain ⟨h4, hnone, hlen⟩ := hheader
    have hstay : ∀ rc, rc ≠ BufferRc.complete →
        Receives p rest (rc, b, (frame p).drop b.currOffset ++ rest) := by
      intro rc hrc
      refine ⟨.inl ⟨h4, hnone, hlen⟩, rfl, ?_⟩
      simp only [hrc, false_iff]
      omega
    rw [if_pos h4]
    split
    · exact hstay _ (by simp)
    · exact hstay _ (by simp)
    · next w hw =>
      obtain ⟨hne, hwlen, hpre⟩ := RecvResult.recv_eq_ok hw
      have hdrop : (frame p).drop b.currOffset = (networkBytes 4 p.length).drop b.currOffset ++ p :=
        List.drop_append_of_le_length (by simpa using Nat.le_of_lt h4)
      -- what has come belongs to the length
      have hw : w <+: (networkBytes 4 p.length).drop b.currOffset := by
        rw [hdrop, List.append_assoc] at hpre
        refine List.prefix_of_prefix_length_le hpre (List.prefix_append _ _) ?_
        rw [List.length_drop, length_networkBytes]
        exact hwlen
      have hwrite : writeAt (intBytes b.len) b.currOffset w =
          (networkBytes 4 p.length).take (b.currOffset + w.length) ++
            (intBytes 24).drop (b.currOffset + w.length) := by
        have htake : (networkBytes 4 p.length).take b.currOffset ++
            (intBytes 24).drop b.currOffset = intBytes b.len := hlen.symm
        have hl : ((networkBytes 4 p.length).take b.currOffset).length = b.currOffset := by
          rw [List.length_take, length_networkBytes]
          omega
        rw [writeAt, ← htake, List.take_left' hl, List.drop_append, hl,
          List.drop_of_length_le (by omega), List.nil_append, Nat.add_sub_cancel_left, List.drop_drop,
          take_append_next hw]
      have hwpos : 0 < w.length := List.length_pos_of_ne_nil hne
      have hmem : (writeAt (intBytes b.len) b.currOffset w).length = 4 := by
        rw [hwrite, List.length_append, List.length_take, List.length_drop, length_networkBytes,
          length_intBytes]
        omega
      have hrest : ((frame p).drop b.currOffset ++ rest).drop w.length =
          (frame p).drop (b.currOffset + w.length) ++ rest := by
        rw [← List.drop_drop, List.drop_append_of_le_length]
        rw [List.length_drop, length_frame]
        omega
      rw [hrest]
      by_cases hdone : b.currOffset + w.length = 4
      · simp only [if_pos hdone]
        have hall : writeAt (intBytes b.len) b.currOffset w = networkBytes 4 p.length := by
          rw [hwrite, hdone, List.take_of_length_le (by simp), List.drop_of_length_le (by simp),
            List.append_nil]
        have hval : htonl (intValue (writeAt (intBytes b.len) b.currOffset w)) =
            UInt32.ofNat p.length := by
          rw [htonl_intValue hmem, hall, networkValue_networkBytes]
          congr 1
          omega
        have hnat : (UInt32.ofNat p.length).toNat = p.length :=
          UInt32.toNat_ofNat_of_lt' (hp.trans (by decide))
        rw [hval, callocInt_of_lt hp]
        have hb' : Body ⟨UInt32.ofNat p.length, some (List.replicate p.length 0),
            b.currOffset + w.length⟩ p :=
          { offset_ge := by simp only; omega
            offset_le := by simp only; omega
            len_eq := hnat
            buffer_eq := ⟨List.replicate p.length 0, by simp [hdone], by simp [hdone]⟩ }
        exact recvBody_spec hb' (by simp only; omega) hp
      · simp only [if_neg hdone]
        have hb' : Header ⟨intValue (writeAt (intBytes b.len) b.currOffset w), b.buffer,
            b.currOffset + w.length⟩ p :=
          { offset_lt := by simp only; omega
            buffer_eq := hnone
            len_eq := by rw [intBytes_intValue hmem, hwrite] }
        have hlt' := hb'.len_lt hp (by simp only; omega)
        rw [InBuffer.recvBody, hnone]
        rw [hnone] at hb' hlt'
        refine ⟨.inl hb', rfl, ?_⟩
        rw [InBuffer.finished_iff hlt']
        simp only
        omega
  · have hge := hbody.offset_ge
    rw [if_neg (by omega)]
    exact recvBody_spec hbody hlt hp

end Receiving

end QtZooKeeper
