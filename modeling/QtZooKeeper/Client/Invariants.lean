-- SUMMARY: Every move keeps the handle sane, and the rules that carry a property of the moves to all runs.
import QtZooKeeper.Client.Moves

/-!
# Invariants of the client

`Sane` is kept by every move, so every step from a reachable state is made of moves.
Two rules follow. A property that the moves preserve holds of every reachable state
(`reachable_of_moves`), and a preorder that the moves are in relates the states before and
after every step (`step_of_moves`).
-/

namespace QtZooKeeper

section Buffers

variable [Host] {b b' : InBuffer} {r₁ r₂ : RecvResult} {stream down : Bytes} {rc : BufferRc}

omit [Host] in
theorem length_writeAt {mem w : Bytes} {off : Nat} (h : off + w.length ≤ mem.length) :
    (writeAt mem off w).length = mem.length := by
  simp only [writeAt, List.length_append, List.length_take, List.length_drop]
  omega

omit [Host] in
theorem InBuffer.Primer.finished_iff (hb : b.Primer) : b.finished = .complete ↔ b.currOffset = 44 := by
  rw [InBuffer.finished_iff (by rw [hb.1]; decide), hb.1]
  exact Iff.rfl

/-- The connect response is read into the 40 bytes, and no others. -/
theorem InBuffer.Primer.recvBuffer_spec (hb : b.Primer) (hge : 4 ≤ b.currOffset)
    (hlt : b.currOffset < 44) (h : b.recvBuffer r₁ r₂ stream = (rc, b', down)) :
    b'.Primer ∧ 4 ≤ b'.currOffset ∧ b'.currOffset ≤ 44 ∧ (rc = .complete ↔ b'.currOffset = 44) := by
  obtain ⟨hlen, mem, hmem, hmemlen⟩ := id hb
  have hfin : b.finished ≠ .complete := by
    rw [Ne, hb.finished_iff]
    omega
  have hstay : ∀ rc, rc ≠ BufferRc.complete → b.Primer ∧ 4 ≤ b.currOffset ∧ b.currOffset ≤ 44 ∧
      (rc = .complete ↔ b.currOffset = 44) := by
    intro rc hrc
    refine ⟨hb, hge, Nat.le_of_lt hlt, ?_⟩
    simp only [hrc, false_iff]
    omega
  rw [InBuffer.recvBuffer, if_neg (by omega), InBuffer.recvBody, hmem] at h
  dsimp only at h
  split at h
  · cases h
    exact hstay _ (by simp)
  · cases h
    exact hstay _ hfin
  · next w hw =>
    cases h
    have hwlen := (RecvResult.recv_eq_ok hw).2.1
    have hnat : b.len.toNat = 40 := by rw [hlen]; rfl
    rw [hnat] at hwlen
    have hb' : InBuffer.Primer ⟨b.len, some (writeAt mem (b.currOffset - 4) w),
        b.currOffset + w.length⟩ :=
      ⟨hlen, _, rfl, by rw [length_writeAt (by omega), hmemlen]⟩
    exact ⟨hb', by simp only; omega, by simp only; omega, hb'.finished_iff⟩

end Buffers

namespace Client

section Effects

variable {c c₁ c' : Client} {rc : ZooKeeperError}

theorem isUnrecoverable_of_state {zh zh' : Zhandle} (h : zh.state = zh'.state) :
    zh.isUnrecoverable = zh'.isUnrecoverable := by
  rw [Zhandle.isUnrecoverable, Zhandle.isUnrecoverable, h]

/-- Giving up a connection leaves an end state as it is, and is no end by itself. -/
theorem isUnrecoverable_handleError (rc : ZooKeeperError) (c : Client) :
    (handleError rc c).zh.isUnrecoverable = c.zh.isUnrecoverable := by
  rw [handleError_eq, Zhandle.isUnrecoverable]
  cases hover : c.zh.isUnrecoverable with
  | false => rfl
  | true => exact hover

theorem cleaned_eq_primer {b : InputBuffer} : b.cleaned = .primer ↔ b = .primer := by
  cases b <;> simp [InputBuffer.cleaned]

theorem destroy_eq : destroy c =
    { c with
      socket := .fresh
      upcalls := c.upcalls ++ wokenWith (ZooKeeperError.toInt32 .closure) c.zh.sentRequests ++
        authCalls (ZooKeeperError.toInt32 .closure) c.zh.auths
      zh.fd := false
      zh.chroot := none
      zh.state := if c.zh.fd then .closed else c.zh.state
      zh.toSend := []
      zh.toProcess := []
      zh.sentRequests := []
      zh.inputBuffer := c.zh.inputBuffer.cleaned
      zh.completionsToProcess := c.zh.completionsToProcess ++
        failedWith (ZooKeeperError.toInt32 .closure) c.zh.sentRequests
      zh.auths := []
      zh.watches := fun _ => ∅
      destroyed := true } := by
  rw [destroy, cleanupBufs_eq]

theorem freeOnClose_eq : freeOnClose c =
    { c with
      upcalls := c.upcalls ++ wokenWith (ZooKeeperError.toInt32 .closure) c.zh.sentRequests ++
        authCalls (ZooKeeperError.toInt32 .closure) c.zh.auths
      zh.sentRequests := []
      zh.completionsToProcess := c.zh.completionsToProcess ++
        failedWith (ZooKeeperError.toInt32 .closure) c.zh.sentRequests
      zh.auths := c.zh.auths.map ({ · with completion := false })
      freed := true } := by
  rw [freeOnClose, freeCompletions_eq]

/-- A server does nothing to the handle. -/
theorem step_server [Host] {l : ClientLabel} (h : step l c = .ok c') (hl : l.IsServer) :
    c' = { c with socket := c'.socket, served := c'.served } := by
  cases l with
  | serverGreets res =>
    cases h
    rfl
  | serverReads packet hdr body =>
    cases h
    rfl
  | serverAnswers zxid err res =>
    cases h
    rw [serverAnswers]
    split <;> rfl
  | serverNotifies hdr evt =>
    cases h
    rfl
  | submit _ | addAuth _ | interest _ | events _ | process _ | settle | deliver | requestClose
  | freeOnClose | destroy _ _ | peerReads _ | peerSends _ => cases hl

/-- A server has a connection. -/
theorem Enabled.server [Host] {l : ClientLabel} (h : Enabled l c) (hl : l.IsServer) :
    c.zh.fd = true := by
  cases l with
  | serverGreets res => exact h.2.1
  | serverReads packet hdr body => exact h.2.1
  | serverAnswers zxid err res => exact h.2.1
  | serverNotifies hdr evt => exact h.2.1
  | submit _ | addAuth _ | interest _ | events _ | process _ | settle | deliver | requestClose
  | freeOnClose | destroy _ _ | peerReads _ | peerSends _ => cases hl

end Effects

/-! ## Sanity -/

section Sanity

variable [Host] {ordered : Prop} {c c' : Client}

omit [Host] in
/-- Without a descriptor there is no connection. -/
theorem Sane.down (hs : Sane c) (hfd : c.zh.fd = false) : c.zh.state ≠ .connecting ∧
    c.zh.state ≠ .assoctating ∧ c.zh.state ≠ .connected := by
  have hdown := mt hs.live (by simp [hfd])
  rw [not_or, not_or] at hdown
  exact hdown

omit [Host] in
/-- A live state is not an end state. -/
theorem live_of_isUnrecoverable (h : c.zh.isUnrecoverable = true) : c.zh.state ≠ .connecting ∧
    c.zh.state ≠ .assoctating ∧ c.zh.state ≠ .connected := by
  refine ⟨?_, ?_, ?_⟩ <;> intro hstate <;> rw [Zhandle.isUnrecoverable, hstate] at h <;> cases h

omit [Host] in
theorem Sane.handleError {c₁ : Client} {rc : ZooKeeperError} (hs : Sane c) (hdisturbed : c.Disturbed c₁)
    (hfd : c.zh.fd = true) (hrun : c.zh.isUnrecoverable = false)
    (hprimer : c₁.zh.isUnrecoverable = false → c₁.zh.primerBuffer = c.zh.primerBuffer ∧
      (c₁.zh.inputBuffer = .primer → c.zh.inputBuffer = .primer)) :
    Sane (handleError rc c₁) := by
  have hcount : c₁.zh.connectIndex = c.zh.connectIndex ∧ c₁.zh.addrsCount = c.zh.addrsCount := by
    rw [hdisturbed]
    exact ⟨rfl, rfl⟩
  have hidle : c₁.taken = none := by rw [hdisturbed]
  have hover := isUnrecoverable_handleError rc c₁
  rw [handleError_eq] at hover ⊢
  refine
    { index_le := ?_
      index_lt := by simp
      fresh := fun _ => rfl
      live := ?_
      ended := fun _ => rfl
      unsent := fun _ => List.forall_mem_nil _
      primer := ?_
      priming := ?_
      packets := fun h => absurd rfl h
      busy := fun h => absurd hidle h }
  · simp only [hcount.1, hcount.2]
    exact hs.index_lt hfd
  · cases hrun₁ : c₁.zh.isUnrecoverable with
    | false => simp
    | true => simp [live_of_isUnrecoverable hrun₁]
  · intro hrun'
    rw [hover] at hrun'
    rw [(hprimer hrun').1]
    exact hs.primer hrun
  · intro hinput hrun'
    rw [hover] at hrun'
    obtain ⟨hbuffer, hinput₁⟩ := hprimer hrun'
    rw [hbuffer]
    exact hs.priming (hinput₁ (cleaned_eq_primer.mp hinput)) hrun

omit [Host] in
/-- What happens to the calls and the completions does not matter here. -/
theorem Sane.congr (hs : Sane c) (hfd : c'.zh.fd = c.zh.fd) (hcount : c'.zh.addrsCount = c.zh.addrsCount)
    (hindex : c'.zh.connectIndex = c.zh.connectIndex) (hstate : c'.zh.state = c.zh.state)
    (hsocket : c'.socket = c.socket ∨ c.zh.fd = true)
    (hinput : c'.zh.inputBuffer = c.zh.inputBuffer) (hprimer : c'.zh.primerBuffer = c.zh.primerBuffer)
    (hsend : c'.zh.toSend = c.zh.toSend) (hprocess : c.zh.toProcess = [] → c'.zh.toProcess = [])
    (htaken : c'.taken ≠ none → c.zh.fd = true ∧ c.zh.isUnrecoverable = false) : Sane c' where
  index_le := by rw [hcount, hindex]; exact hs.index_le
  index_lt := by rw [hfd, hcount, hindex]; exact hs.index_lt
  fresh := by
    rw [hfd]
    intro h
    obtain hsame | hopen := hsocket
    · rw [hsame]
      exact hs.fresh h
    · simp [h] at hopen
  live := by rw [hfd, hstate]; exact hs.live
  ended := by rw [isUnrecoverable_of_state hstate, hfd]; exact hs.ended
  unsent := by rw [hstate, hsend]; exact hs.unsent
  primer := by rw [isUnrecoverable_of_state hstate, hprimer]; exact hs.primer
  priming := by rw [hinput, isUnrecoverable_of_state hstate, hprimer]; exact hs.priming
  packets := by
    rw [isUnrecoverable_of_state hstate, hfd]
    exact fun h => hs.packets (mt hprocess h)
  busy := by
    rw [isUnrecoverable_of_state hstate, hfd]
    exact htaken

/-- Without a packet there is no first one. -/
theorem FirstPacket.nil {packet rest : Bytes} {toProcess : List Bytes} {hdr : ReplyHeader}
    (h : c.FirstPacket packet toProcess hdr rest) (hnil : c.zh.toProcess = []) : toProcess = [] := by
  rw [h.1] at hnil
  cases hnil

theorem Move.sane (h : Move ordered c c') (hs : Sane c) : Sane c' := by
  cases h with
  | @accept e packet hopen htype hxid hpacket hgood =>
    have hadd : Sane (addCompletion e c).2 := by
      rw [addCompletion, if_neg (by simp [hopen])]
      exact hs.congr rfl rfl rfl rfl (.inl rfl) rfl rfl rfl id hs.busy
    exact
      { hadd with
        unsent := fun h => by
          simpa [queueBufferBytes, or_imp, forall_and] using hadd.unsent h }
  | addAuth => exact hs.congr rfl rfl rfl rfl (.inl rfl) rfl rfl rfl id hs.busy
  | sendAuth hmem hlive hpacket hhead =>
    exact
      { hs with
        unsent := fun h => by
          simpa [queueFrontBufferBytes] using hs.unsent h }
  | ping hlive hidle => exact { hs with unsent := fun h => absurd hlive h }
  | reset hdisturbed hfd hrun hstate hprimer hrc => exact hs.handleError hdisturbed hfd hrun hprimer
  | rewind hfd hrun hindex => exact { hs with index_le := Nat.zero_le _, index_lt := by simp [hfd] }
  | openSocket hfd hindex hrun halive =>
    have hle := hs.index_le
    exact
      { hs with
        index_lt := fun _ => by simp only; omega
        fresh := fun h => by cases h
        live := fun _ => rfl
        ended := fun h => by
          have hover : c.zh.isUnrecoverable = true := h
          simp [hover] at hrun
        packets := fun h => ⟨rfl, hrun⟩
        busy := fun h => ⟨rfl, hrun⟩ }
  | connecting hfd hrun hstate =>
    exact
      { hs with
        live := fun _ => hfd
        ended := fun h => by cases h
        unsent := fun _ => hs.unsent hstate.1
        primer := fun _ => hs.primer hrun
        priming := fun h _ => hs.priming h hrun
        packets := fun h => ⟨hfd, rfl⟩
        busy := fun h => ⟨hfd, rfl⟩ }
  | prime hfd hrun hstate hwhole =>
    exact
      { hs with
        fresh := fun h => Bool.noConfusion (hfd.symm.trans h)
        live := fun _ => hfd
        ended := fun h => by cases h
        unsent := fun _ => hs.unsent hstate.1
        primer := fun _ => hs.primer hrun
        priming := fun _ _ => by simp only; omega
        packets := fun h => ⟨hfd, rfl⟩
        busy := fun h => ⟨hfd, rfl⟩ }
  | flush hlive =>
    have hfd := hs.live (.inr (.inr hlive))
    exact
      { hs with
        fresh := fun h => Bool.noConfusion (hfd.symm.trans h)
        unsent := fun h => absurd hlive h }
  | @receive r₁ r₂ b down hfd hrun hrecv =>
    cases hib : c.zh.inputBuffer with
    | primer =>
      rw [inBuffer_primer hib] at hrecv
      obtain ⟨hge, hlt⟩ := hs.priming hib hrun
      obtain ⟨hb, hge', hle', hcomplete⟩ := (hs.primer hrun).recvBuffer_spec hge hlt hrecv
      rw [setInBuffer_primer hib]
      exact
        { hs with
          fresh := fun h => Bool.noConfusion (hfd.symm.trans h)
          primer := fun _ => hb
          priming := fun _ _ => ⟨hge', by simp at hcomplete; simp only; omega⟩ }
    | null | packet b' =>
      rw [setInBuffer_packet (by simp [hib])]
      exact
        { hs with
          fresh := fun h => Bool.noConfusion (hfd.symm.trans h)
          priming := fun h => by cases h }
  | receivePacket hfd hrun hrecv hinput =>
    exact
      { hs with
        fresh := fun h => Bool.noConfusion (hfd.symm.trans h)
        priming := fun h => by cases h
        packets := fun _ => ⟨hfd, hrun⟩ }
  | @handshake r₁ r₂ b down auths watches hfd hrun hrecv hinput hid hauths hwatches =>
    rw [inBuffer_primer hinput] at hrecv
    obtain ⟨hge, hlt⟩ := hs.priming hinput hrun
    have hb := ((hs.primer hrun).recvBuffer_spec hge hlt hrecv).1
    exact
      { index_le := hs.index_le
        index_lt := hs.index_lt
        fresh := fun h => Bool.noConfusion (hfd.symm.trans h)
        live := fun _ => hfd
        ended := fun h => by cases h
        unsent := fun h => absurd rfl h
        primer := fun _ => hb
        priming := fun h => by cases h
        packets := fun _ => ⟨hfd, rfl⟩
        busy := fun _ => ⟨hfd, rfl⟩ }
  | skip hfirst hxid =>
    exact hs.congr rfl rfl rfl rfl (.inl rfl) rfl rfl rfl hfirst.nil hs.busy
  | event hfirst hxid hevt hpath =>
    exact hs.congr rfl rfl rfl rfl (.inl rfl) rfl rfl rfl hfirst.nil hs.busy
  | @authAnswer packet rest toProcess hdr hfirst hxid hauths =>
    split
    · exact hs.congr rfl rfl rfl rfl (.inl rfl) rfl rfl rfl hfirst.nil hs.busy
    · exact hs.congr rfl rfl rfl rfl (.inl rfl) rfl rfl rfl hfirst.nil hs.busy
  | take hidle hfirst hxid hsent =>
    exact hs.congr rfl rfl rfl rfl (.inl rfl) rfl rfl rfl hfirst.nil
      fun _ => hs.packets (by simp [hfirst.1])
  | answerAsync htaken heq hsync =>
    exact hs.congr rfl rfl rfl rfl (.inl rfl) rfl rfl rfl id (absurd rfl)
  | answerSync halive htaken heq hsync hread =>
    exact hs.congr rfl rfl rfl rfl (.inl rfl) rfl rfl rfl id (absurd rfl)
  | deliverEvent hqs hhdr hxid hevt => exact hs.congr rfl rfl rfl rfl (.inl rfl) rfl rfl rfl id hs.busy
  | deliverNothing hqs hhdr hxid hentry => exact hs.congr rfl rfl rfl rfl (.inl rfl) rfl rfl rfl id hs.busy
  | deliverAnswer hqs hhdr hentry hread => exact hs.congr rfl rfl rfl rfl (.inl rfl) rfl rfl rfl id hs.busy
  | requestClose => exact hs.congr rfl rfl rfl rfl (.inl rfl) rfl rfl rfl id hs.busy
  | freeOnClose hclose =>
    rw [freeOnClose_eq]
    exact hs.congr rfl rfl rfl rfl (.inl rfl) rfl rfl rfl id hs.busy
  | destroy hfreed hidle =>
    rw [destroy_eq]
    -- with a descriptor the handle was alive, without one its state is as it was
    cases hfd : c.zh.fd with
    | true =>
      have hrun : c.zh.isUnrecoverable = false := by
        have hover := mt hs.ended (by simp [hfd])
        simpa using hover
      exact
        { index_le := hs.index_le
          index_lt := by simp
          fresh := fun _ => rfl
          live := by simp
          ended := fun _ => rfl
          unsent := fun _ => List.forall_mem_nil _
          primer := fun _ => hs.primer hrun
          priming := fun h _ => hs.priming (cleaned_eq_primer.mp h) hrun
          packets := fun h => absurd rfl h
          busy := fun h => absurd hidle h }
    | false =>
      exact
        { index_le := hs.index_le
          index_lt := by simp
          fresh := fun _ => rfl
          live := by simp [hs.down hfd]
          ended := fun _ => rfl
          unsent := fun _ => List.forall_mem_nil _
          primer := fun h => hs.primer h
          priming := fun h hrun => hs.priming (cleaned_eq_primer.mp h) hrun
          packets := fun h => absurd rfl h
          busy := fun h => absurd hidle h }
  | peer hfd hfree => exact hs.congr rfl rfl rfl rfl (.inr hfd) rfl rfl rfl id hs.busy
  | server henabled hgood hstep hserver =>
    rw [step_server hstep hserver]
    exact hs.congr rfl rfl rfl rfl (.inr (henabled.server hserver)) rfl rfl rfl id hs.busy

theorem Moves.sane (h : Moves ordered c c') (hs : Sane c) : Sane c' := by
  induction h with
  | refl => exact hs
  | tail _ hmove ih => exact hmove.sane ih

end Sanity

/-! ## Rules -/

section Rules

variable [Host] {ordered : Prop} {addrsCount : Nat} {recvTimeout : Int32} {clientId : Int64}
variable {passwd : Passwd} {chroot : Option Bytes} {c c' : Client} {l : ClientLabel} {P : Client → Prop}
variable {R : Client → Client → Prop}

omit [Host] in
theorem sane_initial : Sane (initial addrsCount recvTimeout clientId passwd chroot) where
  index_le := Nat.zero_le _
  index_lt := fun h => by cases h
  fresh := fun _ => rfl
  live := by simp [initial]
  ended := fun _ => rfl
  unsent := fun _ => List.forall_mem_nil _
  primer := fun _ => ⟨rfl, _, rfl, List.length_replicate⟩
  priming := fun h => by cases h
  packets := fun h => absurd rfl h
  busy := fun h => absurd rfl h

theorem sane_of_reachable
    (h : (clientSystem ordered addrsCount recvTimeout clientId passwd chroot).Reachable c) : Sane c := by
  refine h.invariant sane_initial ?_
  intro c l c' hs hl hstep
  exact (step_moves hs hl.1 hl.2 hstep).sane hs

/-- What the moves preserve holds of every reachable state. -/
theorem reachable_of_moves (hinit : P (initial addrsCount recvTimeout clientId passwd chroot))
    (hmove : ∀ c c', Sane c → P c → Move ordered c c' → P c')
    (h : (clientSystem ordered addrsCount recvTimeout clientId passwd chroot).Reachable c) : P c := by
  have hboth : Sane c ∧ P c := by
    refine h.invariant (P := fun c => Sane c ∧ P c) ⟨sane_initial, hinit⟩ ?_
    rintro c l c' ⟨hs, hP⟩ hl hstep
    have hmoves := step_moves hs hl.1 hl.2 hstep
    clear hstep
    induction hmoves with
    | refl => exact ⟨hs, hP⟩
    | tail _ hm ih => exact ⟨hm.sane ih.1, hmove _ _ ih.1 ih.2 hm⟩
  exact hboth.2

/-- A preorder that the moves are in relates what is before and after every step. -/
theorem step_of_moves (hrefl : ∀ c, Sane c → R c c) (htrans : ∀ c c' c'', R c c' → R c' c'' → R c c'')
    (hmove : ∀ c c', Sane c → Move ordered c c' → R c c')
    (h : (clientSystem ordered addrsCount recvTimeout clientId passwd chroot).Reachable c)
    (hl : (clientSystem ordered addrsCount recvTimeout clientId passwd chroot).enabled l c)
    (hstep : step l c = .ok c') : R c c' := by
  have hs := sane_of_reachable h
  have hboth : Sane c' ∧ R c c' := by
    have hmoves := step_moves hs hl.1 hl.2 hstep
    clear hstep
    induction hmoves with
    | refl => exact ⟨hs, hrefl c hs⟩
    | tail _ hm ih => exact ⟨hm.sane ih.1, htrans _ _ _ ih.2 (hmove _ _ ih.1 hm)⟩
  exact hboth.2

/-- The same for any number of steps. -/
theorem steps_of_moves (hrefl : ∀ c, Sane c → R c c) (htrans : ∀ c c' c'', R c c' → R c' c'' → R c c'')
    (hmove : ∀ c c', Sane c → Move ordered c c' → R c c')
    (h : (clientSystem ordered addrsCount recvTimeout clientId passwd chroot).Reachable c)
    (hsteps : (clientSystem ordered addrsCount recvTimeout clientId passwd chroot).Steps c c') : R c c' := by
  induction hsteps with
  | refl => exact hrefl c (sane_of_reachable h)
  | tail hsteps hl hstep ih =>
    exact htrans _ _ _ ih (step_of_moves hrefl htrans hmove (h.steps hsteps) hl hstep)

theorem packetBytes_of_le {ops : List ArchiveOp} (h : (wire ops).length ≤ 2 ^ 29) :
    packetBytes ops = .ok (wire ops) := by
  rw [packetBytes, archiveBytes_of_le h]

/-- A request is taken as long as the handle is open. -/
theorem step_submit {e : CompletionEntry} (hlen : (wire (requestPacket e.xid e.body)).length ≤ 2 ^ 29)
    (hopen : c.zh.closeRequested = false) :
    step (.submit e) c =
      .ok (queueBufferBytes (wire (requestPacket e.xid e.body)) (addCompletion e c).2) := by
  have hpacket := packetBytes_of_le hlen
  have hadd : addCompletion e c = (.noError, (addCompletion e c).2) := by
    rw [addCompletion, if_neg (by simp [hopen])]
  change (·.2) <$> submit e c = _
  rw [submit, hpacket, Except.ok_bind, hadd]
  rfl

theorem reachable_submit {e : CompletionEntry}
    (h : (clientSystem ordered addrsCount recvTimeout clientId passwd chroot).Reachable c)
    (hdestroyed : c.destroyed = false) (htype : e.body.completion = some e.type)
    (hxid : e.xid ≠ watcherEventXid) (hgood : ordered → e.body.Complete ∧ e.xid ∉ reservedXids)
    (hlen : (wire (requestPacket e.xid e.body)).length ≤ 2 ^ 29)
    (hopen : c.zh.closeRequested = false) :
    (clientSystem ordered addrsCount recvTimeout clientId passwd chroot).Reachable
      (queueBufferBytes (wire (requestPacket e.xid e.body)) (addCompletion e c).2) :=
  h.step (l := .submit e) ⟨⟨hdestroyed, htype, hxid⟩, hgood⟩ (step_submit hlen hopen)

end Rules

end Client

end QtZooKeeper
