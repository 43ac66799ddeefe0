-- SUMMARY: Sessions of the handle: an ended one stays ended, a live one keeps its id, and the addresses take turns.
import QtZooKeeper.Verification.Completions
import Mathlib.Data.Nat.ModEq

/-!
# The state of the handle

What holds of the connection and the session over whole runs, whatever the other end of
the connection does: an end state is never left and nothing goes over the wire in it, the
id that a server has given is the id of the handle from then on, and the addresses are
tried one after the other.
-/

namespace QtZooKeeper

namespace Client

/-! ## Something to run -/

/-- A connection is there at once and takes the connect request. -/
def connectEnv : InterestEnv := ⟨true, .connected, .taken 4, .taken 44, false, false⟩

/-- Nothing comes for too long. -/
def lateEnv : InterestEnv := ⟨true, .failed, .error .other, .error .other, true, false⟩

/-- There is something to read. -/
def readEnv : EventEnv :=
  ⟨false, true, true, .error .again, .error .again, [], .given 4, .given 40⟩

/-- The response of a server that has made a session. -/
def session7 : PrimeStruct where
  len := 36
  protocolVersion := 0
  timeOut := 4000
  sessionId := 7
  passwdLen := 16
  passwd := List.replicate 16 1

/-- The client has sent a connect request, and the answer of `session7` is there. -/
theorem reachable_session7 (clientId : Int64) :
    (@clientSystem littleHost False 2 10000 clientId noPasswd none).Reachable
      (let c := (@zookeeperInterest littleHost connectEnv (initial 2 10000 clientId noPasswd none)).2
      { c with socket.down := c.socket.down ++ frame (primeWire session7) }) := by
  have hinit : (@clientSystem littleHost False 2 10000 clientId noPasswd none).Reachable
      (initial 2 10000 clientId noPasswd none) := ⟨[], .nil⟩
  have hopen := hinit.step (l := ClientLabel.interest connectEnv) ⟨⟨rfl, rfl⟩, False.elim⟩ rfl
  exact hopen.step (l := ClientLabel.peerSends (frame (primeWire session7))) ⟨⟨rfl, rfl⟩, False.elim⟩ rfl

section Runs

variable [Host] {ordered : Prop} {addrsCount : Nat} {recvTimeout : Int32} {clientId : Int64}
variable {passwd : Passwd} {chroot : Option Bytes} {c c' : Client}

/-! ## The end of a session -/

/-- Nothing has happened to the session and the connection. The tables are freed with the
handle. -/
structure SameEnd (c c' : Client) : Prop where
  state : c'.zh.state = c.zh.state
  socket : c'.socket = c.socket
  fd : c'.zh.fd = false
  clientId : c'.zh.clientId = c.zh.clientId
  watches : c'.destroyed = false → c.destroyed = false ∧ c'.zh.watches = c.zh.watches
  lastZxid : c'.zh.lastZxid = c.zh.lastZxid
  served : c'.served = c.served
  tried : c'.tried = c.tried

theorem Move.same_end (h : Move ordered c c') (hs : Sane c) (hover : c.zh.isUnrecoverable = true) :
    SameEnd c c' := by
  have hfd := hs.ended hover
  have hdown := hs.down hfd
  have hsame : SameEnd c c := ⟨rfl, rfl, hfd, rfl, fun h => ⟨h, rfl⟩, rfl, rfl, rfl⟩
  -- there is no packet to look at
  have hpackets : c.zh.toProcess = [] := by
    by_contra hne
    have hrun := (hs.packets hne).2
    simp [hover] at hrun
  have hfirst : ∀ {packet rest toProcess hdr}, ¬ c.FirstPacket packet toProcess hdr rest := by
    intro packet rest toProcess hdr hfirst
    rw [FirstPacket, hpackets] at hfirst
    cases hfirst.1
  have htaken : ∀ {a}, c.taken ≠ some a := by
    intro a htaken
    have hrun := (hs.busy (by simp [htaken])).2
    simp [hover] at hrun
  cases h with
  | @accept e packet hopen htype hxid hpacket hgood =>
    rw [addCompletion, if_neg (by simp [hopen])]
    exact { hsame with }
  | addAuth => exact { hsame with }
  | sendAuth hmem hlive hpacket hhead => exact absurd hlive (by simp [hdown])
  | ping hlive hidle => exact absurd hlive hdown.2.2
  | flush hlive => exact absurd hlive hdown.2.2
  | reset hdisturbed hfd hrun hstate hprimer hrc => simp [hover] at hrun
  | rewind hfd hrun hindex => simp [hover] at hrun
  | openSocket hfd hindex hrun halive => simp [hover] at hrun
  | connecting hfd hrun hstate => simp [hover] at hrun
  | prime hfd hrun hstate hwhole => simp [hover] at hrun
  | receive hfd hrun hrecv => simp [hover] at hrun
  | receivePacket hfd hrun hrecv hinput => simp [hover] at hrun
  | handshake hfd hrun hrecv hinput hid hauths hwatches => simp [hover] at hrun
  | skip hpacket hxid => exact absurd hpacket hfirst
  | event hpacket hxid hevt hpath => exact absurd hpacket hfirst
  | authAnswer hpacket hxid hauths => exact absurd hpacket hfirst
  | take hidle hpacket hxid hsent => exact absurd hpacket hfirst
  | answerAsync hhold heq hsync => exact absurd hhold htaken
  | answerSync halive hhold heq hsync hread => exact absurd hhold htaken
  | deliverEvent hqs hhdr hxid hevt => exact { hsame with }
  | deliverNothing hqs hhdr hxid hentry => exact { hsame with }
  | deliverAnswer hqs hhdr hentry hread => exact { hsame with }
  | requestClose => exact { hsame with }
  | freeOnClose hclose =>
    rw [freeOnClose_eq]
    exact { hsame with }
  | destroy hfreed hidle =>
    rw [destroy_eq]
    exact
      { hsame with
        state := by simp [hfd]
        socket := (hs.fresh hfd).symm
        fd := rfl
        watches := fun h => by cases h }
  | peer hopen hfree => simp [hfd] at hopen
  | server henabled hgood hstep hserver =>
    have hopen := henabled.server hserver
    simp [hfd] at hopen

/-- An end state is never left. The handle has no descriptor in it, sends and receives
nothing, and keeps its session and its watches, until it is destroyed. -/
theorem ended_session_stays_ended
    (h : (clientSystem ordered addrsCount recvTimeout clientId passwd chroot).Reachable c)
    (hover : c.zh.isUnrecoverable = true)
    (hsteps : (clientSystem ordered addrsCount recvTimeout clientId passwd chroot).Steps c c') :
    SameEnd c c' := by
  have hrel : c.zh.isUnrecoverable = true → SameEnd c c' := by
    refine steps_of_moves (R := fun c c' => c.zh.isUnrecoverable = true → SameEnd c c') ?_ ?_ ?_ h hsteps
    · exact fun c hs hover => ⟨rfl, rfl, hs.ended hover, rfl, fun h => ⟨h, rfl⟩, rfl, rfl, rfl⟩
    · intro c c' c'' h₁ h₂ hover
      have h₁ := h₁ hover
      have h₂ := h₂ ((isUnrecoverable_of_state h₁.state).trans hover)
      exact
        { state := h₂.state.trans h₁.state
          socket := h₂.socket.trans h₁.socket
          fd := h₂.fd
          clientId := h₂.clientId.trans h₁.clientId
          watches := fun hnot => by
            obtain ⟨hnot, hwatches⟩ := h₂.watches hnot
            obtain ⟨hnot, hwatches'⟩ := h₁.watches hnot
            exact ⟨hnot, hwatches.trans hwatches'⟩
          lastZxid := h₂.lastZxid.trans h₁.lastZxid
          served := h₂.served.trans h₁.served
          tried := h₂.tried.trans h₁.tried }
    · exact fun c c' hs hmove hover => hmove.same_end hs hover
  exact hrel hover

omit [Host] in
/-- A server has another session for the client. Then a request is made, the IO thread goes
on, and the handle is closed. -/
theorem ended_session_stays_ended_expired :
    ∃ c c' : Client, c.zh.state = .expiredSession ∧ c'.accepted = [syncRequest 5 true] ∧
      c'.zh.closeRequested = true ∧ SameEnd c c' := by
  have hend := (reachable_session7 5).step (l := ClientLabel.events readEnv)
    ⟨⟨rfl, rfl, rfl⟩, False.elim⟩ rfl
  have hlen : (wire (requestPacket 5 (syncRequest 5 true).body)).length ≤ 2 ^ 29 := by decide
  have hxid : (5 : Int32) ≠ watcherEventXid := by decide
  refine ⟨_, _, rfl, rfl, rfl, @ended_session_stays_ended littleHost _ _ _ _ _ _ _ _ hend rfl
    (.tail (.tail (.tail .refl (l := ClientLabel.submit (syncRequest 5 true))
      ⟨⟨rfl, rfl, hxid⟩, False.elim⟩ (@step_submit littleHost _ (syncRequest 5 true) hlen rfl))
      (l := ClientLabel.interest noSocket) ⟨⟨rfl, rfl⟩, False.elim⟩ rfl)
      (l := ClientLabel.requestClose) ⟨⟨rfl, trivial⟩, False.elim⟩ rfl)⟩

/-! ## The session -/

theorem Move.session (h : Move ordered c c') (hid : c.zh.clientId ≠ 0) :
    c'.zh.clientId = c.zh.clientId := by
  cases h with
  | @accept e packet hopen htype hxid hpacket hgood =>
    rw [addCompletion, if_neg (by simp [hopen])]
    rfl
  | reset hdisturbed hfd hrun hstate hprimer hrc =>
    rw [hdisturbed, handleError_eq]
  | @receive r₁ r₂ b down hfd hrun hrecv =>
    cases hib : c.zh.inputBuffer <;> simp [setInBuffer, hib]
  | handshake hfd hrun hrecv hinput hsame hauths hwatches => exact (hsame.resolve_left hid).symm
  | @authAnswer packet rest toProcess hdr hfirst hxid hauths => split <;> rfl
  | freeOnClose hclose => rw [freeOnClose_eq]
  | destroy hfreed hidle =>
    rw [destroy_eq]
  | server henabled hgood hstep hserver => rw [step_server hstep hserver]
  | addAuth | sendAuth | ping | rewind | openSocket | connecting | prime | flush | receivePacket | skip
  | event | take | answerAsync | answerSync | deliverEvent | deliverNothing | deliverAnswer
  | requestClose | peer => rfl

/-- Once a server has given the session an id, it never changes: a server that answers
with another one does not get the handle. -/
theorem session_id_kept
    (h : (clientSystem ordered addrsCount recvTimeout clientId passwd chroot).Reachable c)
    (hid : c.zh.clientId ≠ 0)
    (hsteps : (clientSystem ordered addrsCount recvTimeout clientId passwd chroot).Steps c c') :
    c'.zh.clientId = c.zh.clientId := by
  have hrel : c.zh.clientId ≠ 0 → c'.zh.clientId = c.zh.clientId := by
    refine steps_of_moves (R := fun c c' => c.zh.clientId ≠ 0 → c'.zh.clientId = c.zh.clientId)
      ?_ ?_ ?_ h hsteps
    · exact fun c _ _ => rfl
    · intro c c' c'' h₁ h₂ hid
      have h₁ := h₁ hid
      rw [h₂ (h₁ ▸ hid), h₁]
    · exact fun c c' _ hmove hid => hmove.session hid
  exact hrel hid

omit [Host] in
/-- The connection of a session is lost. -/
theorem session_id_kept_lost :
    ∃ c : Client, c.zh.state = .connected ∧ (@zookeeperInterest littleHost lateEnv c).2.zh.clientId = 7 := by
  have hconnected := (reachable_session7 0).step (l := ClientLabel.events readEnv)
    ⟨⟨rfl, rfl, rfl⟩, False.elim⟩ rfl
  refine ⟨_, ?_, @session_id_kept littleHost _ _ _ _ _ _ _ _ hconnected ?_
    (.tail .refl (l := ClientLabel.interest lateEnv) ⟨⟨rfl, rfl⟩, False.elim⟩ rfl)⟩
  · rfl
  · change (7 : Int64) ≠ 0
    decide

/-! ## The addresses -/

/-- The addresses have been tried in turn. The one that is tried now is the last one, and
the one that is tried next follows it. -/
structure InTurn (n : Nat) (c : Client) : Prop where
  count : c.zh.addrsCount = n
  tried : c.tried = (List.range c.tried.length).map (· % n)
  inTable : ∀ i ∈ c.tried, i < n
  turn : c.destroyed = false →
    c.tried.length ≡ (if c.zh.fd then c.zh.connectIndex + 1 else c.zh.connectIndex) [MOD n]

theorem Move.inTurn {n : Nat} (h : Move ordered c c') (hs : Sane c) (ht : InTurn n c) :
    InTurn n c' := by
  cases h with
  | @accept e packet hopen htype hxid hpacket hgood =>
    rw [addCompletion, if_neg (by simp [hopen])]
    exact { ht with }
  | reset hdisturbed hfd hrun hstate hprimer hrc =>
    rw [hdisturbed, handleError_eq]
    exact { ht with turn := fun h => by simpa [hfd] using ht.turn h }
  | rewind hfd hrun hindex =>
    refine { ht with turn := fun h => ?_ }
    have hturn := ht.turn h
    rw [hfd, if_neg Bool.false_ne_true, hindex, ht.count] at hturn
    simp only [hfd, if_neg Bool.false_ne_true]
    exact hturn.trans (by simp [Nat.ModEq])
  | openSocket hfd hindex hrun halive =>
    have hlt : c.zh.connectIndex < n := by
      have hle := hs.index_le
      have hcount := ht.count
      omega
    have hturn := ht.turn halive
    rw [hfd, if_neg Bool.false_ne_true] at hturn
    have hnow : c.zh.connectIndex = c.tried.length % n := by
      rw [hturn, Nat.mod_eq_of_lt hlt]
    refine { ht with tried := ?_, inTable := ?_, turn := fun _ => ?_ }
    · simp only
      rw [List.length_append, List.length_singleton, List.range_succ, List.map_append, ← ht.tried,
        List.map_singleton, ← hnow]
    · exact List.forall_mem_append.mpr ⟨ht.inTable, List.forall_mem_singleton.mpr hlt⟩
    · simp only [if_true, List.length_append, List.length_singleton]
      exact hturn.add_right 1
  | @receive r₁ r₂ b down hfd hrun hrecv =>
    cases hib : c.zh.inputBuffer with
    | primer =>
      rw [setInBuffer_primer hib]
      exact { ht with }
    | null | packet b' =>
      rw [setInBuffer_packet (by simp [hib])]
      exact { ht with }
  | @authAnswer packet rest toProcess hdr hfirst hxid hauths => split <;> exact { ht with }
  | freeOnClose hclose =>
    rw [freeOnClose_eq]
    exact { ht with }
  | destroy hfreed hidle =>
    rw [destroy_eq]
    exact { ht with turn := fun h => by cases h }
  | server henabled hgood hstep hserver =>
    rw [step_server hstep hserver]
    exact { ht with }
  | addAuth | sendAuth | ping | connecting | prime | flush | receivePacket | handshake | skip
  | event | take | answerAsync | answerSync | deliverEvent | deliverNothing | deliverAnswer
  | requestClose | peer => exact { ht with }

/-- The addresses are tried in turn, however the attempts end: the attempt number `k` goes to
the address number `k` modulo their number, which is one of the table. -/
theorem addresses_tried_in_turn
    (h : (clientSystem ordered addrsCount recvTimeout clientId passwd chroot).Reachable c) :
    c.tried = (List.range c.tried.length).map (· % addrsCount) ∧ ∀ i ∈ c.tried, i < addrsCount := by
  have hturn : InTurn addrsCount c := by
    refine reachable_of_moves ?_ (fun c c' hs ht hmove => hmove.inTurn hs ht) h
    exact { count := rfl, tried := rfl, inTable := List.forall_mem_nil _, turn := fun _ => rfl }
  exact ⟨hturn.tried, hturn.inTable⟩

omit [Host] in
/-- There is no socket for either of two addresses, nor for the first one again. -/
theorem addresses_tried_in_turn_twice :
    [0, 1, 0] = (List.range 3).map (· % 2) ∧ ∀ i ∈ [0, 1, 0], i < 2 := by
  have hinit : (@clientSystem littleHost False 2 10000 0 noPasswd none).Reachable
      (initial 2 10000 0 noPasswd none) := ⟨[], .nil⟩
  have hfirst := hinit.step (l := ClientLabel.interest noSocket) ⟨⟨rfl, rfl⟩, False.elim⟩ rfl
  have hsecond := hfirst.step (l := ClientLabel.interest noSocket) ⟨⟨rfl, rfl⟩, False.elim⟩ rfl
  have hrewind := hsecond.step (l := ClientLabel.interest noSocket) ⟨⟨rfl, rfl⟩, False.elim⟩ rfl
  have hthird := hrewind.step (l := ClientLabel.interest noSocket) ⟨⟨rfl, rfl⟩, False.elim⟩ rfl
  exact @addresses_tried_in_turn littleHost False 2 10000 0 noPasswd none _ hthird

end Runs

end Client

end QtZooKeeper
