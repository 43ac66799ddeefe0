-- SUMMARY: With a server that answers in order every request gets its own answer, and the client does not fail.
import QtZooKeeper.Verification.HandleStates
import QtZooKeeper.Verification.Transit

/-!
# Answers

The client takes the first answer that comes for the answer to the request that has waited
longest, and looks only at its number. `Results` says that what a callback gets is
nevertheless what the server has answered to this request, or a reason on the side of the
client for there being no answer; a thread gets of it what `process_sync_completion` leaves
in its buffer. Behind it is `Transit`.
-/

namespace QtZooKeeper

namespace Client

/-! ## Results -/

/-- The reasons for a request to fail without an answer. -/
def localReasons : List ZooKeeperError := .closure :: lossReasons

/-- A server has answered the request with `s`. -/
structure AnsweredBy (served : List Served) (e : CompletionEntry) (s : Served) : Prop where
  mem : s ∈ served
  xid : s.xid = e.xid
  body : s.body = e.body
  type : s.res.type = e.type
  complete : s.res.Complete

/-- What a callback gets is what a server has answered, or a reason of the client. -/
def Settled (served : List Served) (e : CompletionEntry) (r : Response) : Prop :=
  (∃ s, AnsweredBy served e s ∧ r = s.response) ∨ ∃ rc ∈ localReasons, r = ⟨rc.toInt32, none⟩

/-- What a thread gets is what is left of it in the buffer of the thread, on the path of the
chroot, or a reason of the client. -/
def SettledSync (chroot : Option Bytes) (served : List Served) (e : CompletionEntry)
    (r : Response) : Prop :=
  (∃ s, AnsweredBy served e s ∧ syncResponse chroot e.buffLen s.response = .ok r) ∨
    ∃ rc ∈ localReasons, r = ⟨rc.toInt32, none⟩

/-- What the IO thread has taken, it has with the answer of a server to it. -/
def Held (c : Client) : Prop :=
  ∀ a ∈ c.taken, ∃ s zxid behind, AnsweredBy c.served a.cptr s ∧ a.hdr = ⟨s.xid, zxid, s.err⟩ ∧
    a.bptr = (Message.answer s zxid).bytes ∧ a.ia = (Message.answer s zxid).record ++ behind

/-- A completion that is to be processed is an answer of a server, or made up. -/
def Answer (served : List Served) (e : CompletionEntry) (buffer : Bytes) : Prop :=
  (∃ s zxid, AnsweredBy served e s ∧ buffer = (Message.answer s zxid).bytes) ∨
    ∃ rc ∈ localReasons, buffer = fakeResponse e.xid rc.toInt32

/-- A notification is one of the server's, or one of the session. -/
def Notification (buffer : Bytes) : Prop :=
  (∃ hdr evt, hdr.xid = watcherEventXid ∧ evt.Complete ∧ evt.type ≠ -1 ∧
    buffer = (Message.notice hdr evt).bytes) ∨ ∃ state, buffer = sessionEvent state

/-- All callbacks get, and will get, what they should. -/
structure Results (chroot : Option Bytes) (c : Client) : Prop where
  completed : ∀ e r, .completed e r ∈ c.upcalls → Settled c.served e r
  woken : ∀ e r, .woken e r ∈ c.upcalls → SettledSync chroot c.served e r
  answers : ∀ q ∈ c.zh.completionsToProcess, ∀ e, q.entry = some e → Answer c.served e q.buffer
  notifications : ∀ q ∈ c.zh.completionsToProcess, q.entry = none → Notification q.buffer

section Reading

variable [Host] {served : List Served} {e : CompletionEntry} {s : Served} {r : Response}
variable {rc : ZooKeeperError} {buffer rest rest' : Bytes} {hdr : ReplyHeader}

/-- What is behind the header of an answer is read back as the answer. -/
theorem response_of_answer (zxid : Int64) (behind : Bytes) (h : s.res.Complete) :
    deserializeResponse s.res.type (s.err != 0) s.err ((Message.answer s zxid).record ++ behind) =
      (.ok s.response, behind) := by
  rw [deserializeResponse, Served.response, Message.record]
  by_cases herr : s.err = 0
  · rw [if_neg (by simp [herr]), if_pos herr, if_pos herr, Reader.bind_of_ok (decodes_answer h behind)]
    rfl
  · rw [if_pos (bne_iff_ne.mpr herr), if_neg herr, if_neg herr]
    rfl

/-- What a thread gets of the answer that was taken for it. -/
theorem processSyncCompletion_of_answer {a : TakenCompletion} {zh : Zhandle} {zxid : Int64}
    {behind : Bytes} (hs : AnsweredBy served a.cptr s) (hhdr : a.hdr = ⟨s.xid, zxid, s.err⟩)
    (hia : a.ia = (Message.answer s zxid).record ++ behind) :
    processSyncCompletion a.cptr a.hdr.err a.ia zh =
      syncResponse zh.chroot a.cptr.buffLen s.response := by
  have hresponse := response_of_answer zxid behind hs.complete
  rw [hs.type] at hresponse
  rw [processSyncCompletion, hhdr, hia, hresponse]
  rfl

omit [Host] in
theorem toInt32_localReasons (h : rc ∈ localReasons) : rc.toInt32 ≠ 0 := by
  have hall : ∀ rc ∈ localReasons, rc.toInt32 ≠ 0 := by decide
  exact hall rc h

/-- What is read for a request is what it was answered with. -/
theorem Answer.settled (h : Answer served e buffer)
    (hhdr : deserializeReplyHeader buffer = (.ok hdr, rest))
    (hread : deserializeResponse e.type (hdr.err != 0) hdr.err rest = (.ok r, rest')) :
    Settled served e r := by
  obtain ⟨s, zxid, hs, rfl⟩ | ⟨rc, hrc, rfl⟩ := h
  · rw [← List.append_nil (Message.bytes _)] at hhdr
    obtain ⟨rfl, rfl⟩ := header_of_read hhdr
    have hresponse := response_of_answer zxid [] hs.complete
    rw [hs.type] at hresponse
    have heq := hresponse.symm.trans hread
    cases heq
    exact .inl ⟨s, hs, rfl⟩
  · have hheader := (decodes_replyHeader (v := ⟨e.xid, -1, rc.toInt32⟩)).eq_nil.symm.trans hhdr
    cases hheader
    rw [deserializeResponse, if_pos (bne_iff_ne.mpr (toInt32_localReasons hrc))] at hread
    cases hread
    exact .inr ⟨rc, hrc, rfl⟩

/-- An answer can be read. -/
theorem Answer.readable (h : Answer served e buffer) : ∃ hdr rest r rest',
    deserializeReplyHeader buffer = (.ok hdr, rest) ∧
      deserializeResponse e.type (hdr.err != 0) hdr.err rest = (.ok r, rest') := by
  obtain ⟨s, zxid, hs, rfl⟩ | ⟨rc, hrc, rfl⟩ := h
  · have hresponse := response_of_answer zxid [] hs.complete
    rw [hs.type, List.append_nil] at hresponse
    exact ⟨_, _, _, _, decodes_header_nil, hresponse⟩
  · refine ⟨_, _, ⟨rc.toInt32, none⟩, [], decodes_replyHeader.eq_nil, ?_⟩
    rw [deserializeResponse, if_pos (bne_iff_ne.mpr (toInt32_localReasons hrc))]
    rfl

/-- A notification can be read, and has the number of one. -/
theorem Notification.readable (h : Notification buffer) : ∃ hdr rest evt rest',
    deserializeReplyHeader buffer = (.ok hdr, rest) ∧ hdr.xid = watcherEventXid ∧
      deserializeWatcherEvent rest = (.ok evt, rest') := by
  obtain ⟨hdr, evt, hxid, hevt, -, rfl⟩ | ⟨state, rfl⟩ := h
  · have hread := (decodes_watcherEvent hevt).eq_nil
    have hrecord : (Message.notice hdr evt).record = wire (serializeWatcherEvent evt) := if_pos hxid
    rw [← hrecord] at hread
    exact ⟨hdr, _, evt, [], decodes_header_nil, hxid, hread⟩
  · have hevt : WatcherEvent.Complete ⟨-1, .ofInt state.toInt, some ⟨[], by decide, by decide⟩⟩ := rfl
    have hheader := decodes_replyHeader (v := ⟨watcherEventXid, 0, 0⟩)
      (wire (serializeWatcherEvent ⟨-1, .ofInt state.toInt, some ⟨[], by decide, by decide⟩⟩))
    rw [← wire_append] at hheader
    exact ⟨_, _, _, [], hheader, rfl, (decodes_watcherEvent hevt).eq_nil⟩

end Reading

/-! ## What changes the results -/

section Changes

variable {chroot : Option Bytes} {c c' : Client}

/-- Nothing is called and nothing is queued. -/
theorem Results.congr (h : Results chroot c) (hcalls : c'.upcalls = c.upcalls)
    (hqueue : c'.zh.completionsToProcess = c.zh.completionsToProcess) (hserved : c'.served = c.served) :
    Results chroot c' where
  completed := by rw [hcalls, hserved]; exact h.completed
  woken := by rw [hcalls, hserved]; exact h.woken
  answers := by rw [hqueue, hserved]; exact h.answers
  notifications := by rw [hqueue]; exact h.notifications

/-- All requests that wait fail, for a reason of the client. -/
theorem Results.failed (h : Results chroot c) {rc : ZooKeeperError} {events : List QueuedCompletion}
    {es : List CompletionEntry} {auths : List AuthInfo} (hrc : rc ∈ localReasons)
    (hevents : ∀ q ∈ events, q.entry = none ∧ Notification q.buffer)
    (hcalls : c'.upcalls = c.upcalls ++ wokenWith rc.toInt32 es ++
      authCalls rc.toInt32 auths)
    (hqueue : c'.zh.completionsToProcess = c.zh.completionsToProcess ++ events ++
      failedWith rc.toInt32 es) (hserved : c'.served = c.served) : Results chroot c' where
  completed e r hmem := by
    rw [hserved]
    rw [hcalls] at hmem
    simp only [wokenWith, authCalls, List.mem_append, List.mem_map, reduceCtorEq, and_false,
      exists_false, or_false] at hmem
    exact h.completed e r hmem
  woken e r hmem := by
    rw [hserved]
    rw [hcalls] at hmem
    simp only [wokenWith, authCalls, List.mem_append, List.mem_map, Upcall.woken.injEq, reduceCtorEq,
      and_false, exists_false, or_false] at hmem
    obtain hmem | ⟨e', -, rfl, rfl⟩ := hmem
    · exact h.woken e r hmem
    · exact .inr ⟨rc, hrc, rfl⟩
  answers q hq e he := by
    rw [hserved]
    rw [hqueue, List.mem_append, List.mem_append] at hq
    obtain (hq | hq) | hq := hq
    · exact h.answers q hq e he
    · rw [(hevents q hq).1] at he
      cases he
    · obtain ⟨e', -, rfl⟩ := List.mem_map.mp hq
      cases he
      exact .inr ⟨rc, hrc, rfl⟩
  notifications q hq hnone := by
    rw [hqueue, List.mem_append, List.mem_append] at hq
    obtain (hq | hq) | hq := hq
    · exact h.notifications q hq hnone
    · exact (hevents q hq).2
    · obtain ⟨e', -, rfl⟩ := List.mem_map.mp hq
      cases hnone

theorem notification_lossEvents {zh : Zhandle} :
    ∀ q ∈ lossEvents zh, q.entry = none ∧ Notification q.buffer := by
  intro q hq
  refine ⟨entry_of_lossEvents q hq, .inr ?_⟩
  rw [lossEvents] at hq
  split at hq
  · rw [List.mem_singleton] at hq
    exact ⟨zh.state, by rw [hq]⟩
  · split at hq
    · rw [List.mem_singleton] at hq
      exact ⟨.connecting, by rw [hq]⟩
    · cases hq

/-- Something is put behind what is to be processed. -/
theorem Results.enqueue (h : Results chroot c) {q : QueuedCompletion}
    (hqueue : c'.zh.completionsToProcess = c.zh.completionsToProcess ++ [q])
    (hcalls : c'.upcalls = c.upcalls) (hserved : c'.served = c.served)
    (hanswer : ∀ e, q.entry = some e → Answer c.served e q.buffer)
    (hnotification : q.entry = none → Notification q.buffer) : Results chroot c' where
  completed := by rw [hcalls, hserved]; exact h.completed
  woken := by rw [hcalls, hserved]; exact h.woken
  answers := by
    rw [hqueue, hserved]
    exact List.forall_mem_append.mpr ⟨h.answers, List.forall_mem_singleton.mpr hanswer⟩
  notifications := by
    rw [hqueue]
    exact List.forall_mem_append.mpr ⟨h.notifications, List.forall_mem_singleton.mpr hnotification⟩

/-- A call is made. -/
theorem Results.call (h : Results chroot c) {log : List Upcall}
    (hcalls : c'.upcalls = c.upcalls ++ log)
    (hqueue : ∀ q ∈ c'.zh.completionsToProcess, q ∈ c.zh.completionsToProcess)
    (hserved : c'.served = c.served)
    (hcompleted : ∀ e r, .completed e r ∈ log → Settled c.served e r)
    (hwoken : ∀ e r, .woken e r ∈ log → SettledSync chroot c.served e r) : Results chroot c' where
  completed e r hmem := by
    rw [hserved]
    rw [hcalls] at hmem
    exact (List.mem_append.mp hmem).elim (h.completed e r) (hcompleted e r)
  woken e r hmem := by
    rw [hserved]
    rw [hcalls] at hmem
    exact (List.mem_append.mp hmem).elim (h.woken e r) (hwoken e r)
  answers q hq := by
    rw [hserved]
    exact h.answers q (hqueue q hq)
  notifications q hq := h.notifications q (hqueue q hq)

/-- More has been answered. -/
theorem Results.mono (h : Results chroot c) (hcalls : c'.upcalls = c.upcalls)
    (hqueue : c'.zh.completionsToProcess = c.zh.completionsToProcess)
    (hserved : ∀ s ∈ c.served, s ∈ c'.served) : Results chroot c' := by
  have hby : ∀ {e s}, AnsweredBy c.served e s → AnsweredBy c'.served e s :=
    fun hs => { hs with mem := hserved _ hs.mem }
  have hsettled : ∀ {e r}, Settled c.served e r → Settled c'.served e r :=
    fun hr => hr.imp_left fun ⟨s, hs, hr⟩ => ⟨s, hby hs, hr⟩
  have hsync : ∀ {e r}, SettledSync chroot c.served e r → SettledSync chroot c'.served e r :=
    fun hr => hr.imp_left fun ⟨s, hs, hr⟩ => ⟨s, hby hs, hr⟩
  refine { completed := ?_, woken := ?_, answers := ?_, notifications := ?_ }
  · rw [hcalls]
    exact fun e r hmem => hsettled (h.completed e r hmem)
  · rw [hcalls]
    exact fun e r hmem => hsync (h.woken e r hmem)
  · rw [hqueue]
    exact fun q hq e he => (h.answers q hq e he).imp_left fun ⟨s, z, hs, hb⟩ => ⟨s, z, hby hs, hb⟩
  · rw [hqueue]
    exact h.notifications

end Changes

/-! ## Moves -/

section Moves

variable [Host] {chroot : Option Bytes} {c c' : Client}

/-- The answer that is processed with the first request is its own. -/
theorem answeredBy_first (ha : Placed c) (ht : InTransit c) {packet rest : Bytes}
    {toProcess : List Bytes} {hdr : ReplyHeader} {e : CompletionEntry} {es : List CompletionEntry}
    (hfirst : c.FirstPacket packet toProcess hdr rest) (hxid : hdr.xid ∉ reservedXids)
    (hsent : c.zh.sentRequests = e :: es) :
    ∃ s zxid, AnsweredBy c.served e s ∧ packet = (Message.answer s zxid).bytes ∧
      hdr = ⟨s.xid, zxid, s.err⟩ ∧ ∃ behind, rest = (Message.answer s zxid).record ++ behind := by
  obtain ⟨sent, received, coming, ht⟩ := ht
  have hnot : c.freed = false := by
    by_contra hfreed
    have hnone := (ha.ended (by simpa using hfreed)).2
    simp [hsent] at hnone
  obtain ⟨s, zxid, received', rfl, hpacket, -, hhdr, hrest, hm, hrequest⟩ := ht.answered hfirst hxid hsent
  have hpair := hrequest hnot
  simp only [Message.request, Option.toList_some, List.map_cons, List.cons.injEq, Prod.mk.injEq] at hpair
  obtain ⟨⟨hx, hb⟩, -⟩ := hpair
  obtain ⟨hmem, -, htype, hcomplete⟩ := hm
  have htyped := ht.typed e (by simp [hsent])
  rw [← hb, htype, Option.some.injEq] at htyped
  exact ⟨s, zxid, ⟨hmem, hx, hb, htyped, hcomplete⟩, hpacket, hhdr, hrest⟩

/-- An event is a notice of the server, and none of the session. -/
theorem notice_first (ht : InTransit c) {packet rest rest' : Bytes} {toProcess : List Bytes}
    {hdr : ReplyHeader} {evt : WatcherEvent} (hfirst : c.FirstPacket packet toProcess hdr rest)
    (hxid : hdr.xid = watcherEventXid) (hevt : deserializeWatcherEvent rest = (.ok evt, rest')) :
    evt.Complete ∧ evt.type ≠ -1 ∧ packet = (Message.notice hdr evt).bytes := by
  obtain ⟨sent, received, coming, ht⟩ := ht
  obtain ⟨m, received', rfl, hpacket, -, rfl, behind, rfl⟩ := ht.first hfirst
  have hm := ht.valid m List.mem_cons_self
  cases m with
  | answer s zxid =>
    have hevent : s.xid = watcherEventXid := hxid
    exact absurd (by simp [hevent, reservedXids]) hm.2.1
  | notice hdr evt' =>
    obtain ⟨-, hcomplete, htype⟩ := hm
    have hxid : hdr.xid = watcherEventXid := hxid
    rw [Message.record, if_pos hxid, decodes_watcherEvent hcomplete behind] at hevt
    cases hevt
    exact ⟨hcomplete, htype, hpacket⟩

omit [Host] in
/-- What is taken is never answered with another number. -/
theorem not_mismatch (hk : Held c) : ¬ c.Mismatch := by
  rintro ⟨a, ha, hne⟩
  obtain ⟨s, zxid, -, hs, hhdr, -⟩ := hk a ha
  rw [hhdr] at hne
  exact hne hs.xid.symm

theorem served_of_step {l : ClientLabel} (hstep : step l c = .ok c') (hserver : l.IsServer) :
    ∀ s ∈ c.served, s ∈ c'.served := by
  cases l with
  | serverAnswers zxid err res =>
    cases hstep
    rw [serverAnswers]
    split
    · exact fun s hs => hs
    · exact fun s hs => List.mem_append_left _ hs
  | serverGreets res => cases hstep; exact fun s hs => hs
  | serverReads packet hdr body => cases hstep; exact fun s hs => hs
  | serverNotifies hdr evt => cases hstep; exact fun s hs => hs
  | submit _ | addAuth _ | interest _ | events _ | process _ | settle | deliver | requestClose
  | freeOnClose | destroy _ _ | peerReads _ | peerSends _ => cases hserver

theorem Move.held (h : Move True c c') (ha : Placed c) (ht : InTransit c) (hk : Held c) : Held c' := by
  have hnone : ∀ {x : Client}, x.taken = none → Held x := by
    intro x hx a hmem
    rw [hx] at hmem
    cases hmem
  cases h with
  | @accept e packet hopen htype hxid hpacket hgood =>
    rw [addCompletion, if_neg (by simp [hopen])]
    exact hk
  | reset hdisturbed hfd hrun hstate hprimer hrc =>
    rw [hdisturbed, handleError_eq]
    exact hnone rfl
  | @authAnswer packet rest toProcess hdr hfirst hxid hauths => split <;> exact hk
  | take hidle hfirst hxid hsent =>
    obtain ⟨s, zxid, hs, hpacket, hhdr, behind, hrest⟩ := answeredBy_first ha ht hfirst hxid hsent
    intro a hmem
    obtain rfl := Option.some.inj hmem
    exact ⟨s, zxid, behind, hs, hhdr, hpacket, hrest⟩
  | answerAsync htaken heq hsync => exact hnone rfl
  | answerSync halive htaken heq hsync hread => exact hnone rfl
  | freeOnClose hclose =>
    rw [freeOnClose_eq]
    exact hk
  | destroy hfreed hidle =>
    rw [destroy_eq]
    exact hnone hidle
  | peer hfd hfree => exact absurd trivial hfree
  | server henabled hgood hstep hserver =>
    have hserved := served_of_step hstep hserver
    rw [step_server hstep hserver] at hserved ⊢
    intro a hmem
    obtain ⟨s, zxid, behind, hs, hrest⟩ := hk a hmem
    exact ⟨s, zxid, behind, { hs with mem := hserved s hs.mem }, hrest⟩
  | addAuth | sendAuth | ping | rewind | openSocket | connecting | prime | flush | receive
  | receivePacket | handshake | skip | event | deliverEvent | deliverNothing | deliverAnswer
  | requestClose => exact hk

/-- The chroot stays until the handle is destroyed. -/
theorem Move.keeps_chroot {ordered : Prop} (h : Move ordered c c') (hnot : c'.destroyed = false) :
    c.destroyed = false ∧ c'.zh.chroot = c.zh.chroot := by
  cases h with
  | @accept e packet hopen htype hxid hpacket hgood =>
    rw [addCompletion, if_neg (by simp [hopen])] at hnot ⊢
    exact ⟨hnot, rfl⟩
  | reset hdisturbed hfd hrun hstate hprimer hrc =>
    rw [hdisturbed, handleError_eq] at hnot ⊢
    exact ⟨hnot, rfl⟩
  | @receive r₁ r₂ b down hfd hrun hrecv =>
    refine ⟨hnot, ?_⟩
    cases hib : c.zh.inputBuffer <;> simp [setInBuffer, hib]
  | @authAnswer packet rest toProcess hdr hfirst hxid hauths =>
    split at hnot <;> split <;> exact ⟨hnot, rfl⟩
  | freeOnClose hclose =>
    rw [freeOnClose_eq] at hnot ⊢
    exact ⟨hnot, rfl⟩
  | destroy hfreed hidle => cases hnot
  | server henabled hgood hstep hserver =>
    rw [step_server hstep hserver] at hnot ⊢
    exact ⟨hnot, rfl⟩
  | addAuth | sendAuth | ping | rewind | openSocket | connecting | prime | flush | receivePacket
  | handshake | skip | event | take | answerAsync | answerSync | deliverEvent | deliverNothing
  | deliverAnswer | requestClose | peer => exact ⟨hnot, rfl⟩

theorem Move.results (h : Move True c c') (ht : InTransit c) (hk : Held c)
    (hchroot : c.destroyed = false → c.zh.chroot = chroot) (hr : Results chroot c) :
    Results chroot c' := by
  cases h with
  | @accept e packet hopen htype hxid hpacket hgood =>
    rw [addCompletion, if_neg (by simp [hopen])]
    exact hr.congr rfl rfl rfl
  | @reset c₁ rc hdisturbed hfd hrun hstate hprimer hrc =>
    have hlocal : rc ∈ localReasons := by
      obtain hrc | ⟨-, hmismatch⟩ := hrc
      · exact List.mem_cons_of_mem _ hrc
      · exact absurd hmismatch (not_mismatch hk)
    rw [hdisturbed, handleError_eq]
    exact hr.failed hlocal notification_lossEvents rfl rfl rfl
  | @receive r₁ r₂ b down hfd hrun hrecv =>
    cases hib : c.zh.inputBuffer with
    | primer =>
      rw [setInBuffer_primer hib]
      exact hr.congr rfl rfl rfl
    | null | packet b' =>
      rw [setInBuffer_packet (by simp [hib])]
      exact hr.congr rfl rfl rfl
  | handshake hfd hrun hrecv hinput hid hauths hwatches =>
    exact hr.enqueue rfl rfl rfl (fun e he => by cases he) fun _ => .inr ⟨.connected, rfl⟩
  | @event packet rest rest' toProcess hdr evt path hfirst hxid hevt hpath =>
    refine hr.enqueue rfl rfl rfl (fun e he => by cases he) fun _ => .inl ?_
    obtain ⟨hcomplete, htype, hpacket⟩ := notice_first ht hfirst hxid hevt
    exact ⟨hdr, evt, hxid, hcomplete, htype, hpacket⟩
  | @authAnswer packet rest toProcess hdr hfirst hxid hauths =>
    split
    · exact hr.call rfl (fun q hq => hq) rfl (by simp) (by simp)
    · exact hr.call rfl (fun q hq => hq) rfl (by simp) (by simp)
  | answerAsync htaken heq hsync =>
    obtain ⟨s, zxid, -, hs, -, hpacket, -⟩ := hk _ htaken
    refine hr.enqueue rfl rfl rfl (fun e' he' => ?_) fun he' => by cases he'
    cases he'
    exact .inl ⟨s, zxid, hs, hpacket⟩
  | @answerSync a r halive htaken heq hsync hread =>
    obtain ⟨s, zxid, behind, hs, hhdr, -, hia⟩ := hk _ htaken
    refine hr.call rfl (fun q hq => hq) rfl (by simp) ?_
    intro e' r' hmem
    rw [List.mem_singleton, Upcall.woken.injEq] at hmem
    obtain ⟨rfl, rfl⟩ := hmem
    rw [processSyncCompletion_of_answer hs hhdr hia, hchroot halive] at hread
    exact .inl ⟨s, hs, hread⟩
  | @deliverEvent q qs hdr rest rest' evt hqs hhdr hxid hevt =>
    exact hr.call rfl (fun q' hq' => by rw [hqs]; exact List.mem_cons_of_mem _ hq') rfl (by simp) (by simp)
  | deliverNothing hqs hhdr hxid hentry =>
    exact hr.call (List.append_nil _).symm (fun q' hq' => by rw [hqs]; exact List.mem_cons_of_mem _ hq')
      rfl (by simp) (by simp)
  | @deliverAnswer q qs hdr rest rest' e r hqs hhdr hentry hread =>
    refine hr.call rfl (fun q' hq' => by rw [hqs]; exact List.mem_cons_of_mem _ hq') rfl ?_ (by simp)
    intro e' r' hmem
    rw [List.mem_singleton, Upcall.completed.injEq] at hmem
    obtain ⟨rfl, rfl⟩ := hmem
    exact (hr.answers q (by simp [hqs]) e' hentry).settled hhdr hread
  | freeOnClose hclose =>
    rw [freeOnClose_eq]
    exact hr.failed (by simp [localReasons]) (List.forall_mem_nil _) rfl (by simp) rfl
  | destroy hfreed hidle =>
    rw [destroy_eq]
    exact hr.failed (by simp [localReasons]) (List.forall_mem_nil _) rfl (by simp) rfl
  | peer hfd hfree => exact absurd trivial hfree
  | @server l _ henabled hgood hstep hserver =>
    have hframe := step_server hstep hserver
    exact hr.mono (by rw [hframe]) (by rw [hframe]) (served_of_step hstep hserver)
  | addAuth | sendAuth | ping | rewind | openSocket | connecting | prime | flush | receivePacket | skip
  | take | requestClose => exact hr.congr rfl rfl rfl

end Moves

/-! ## Faults -/

/-- The first packet answers an authentication, and none has been added. -/
def Unasked [Host] (c : Client) : Prop :=
  c.zh.auths = [] ∧ ∃ packet toProcess hdr rest, c.FirstPacket packet toProcess hdr rest ∧
    hdr.xid = authXid

/-- Nothing goes wrong, but that an archive gets too long, or that the scheme of an
authentication is looked up and there is none. -/
def Tolerable {α : Type} (unasked : Prop) (x : Except HandleFault α) : Prop :=
  ∀ f, x = .error f → (∃ a, f = .archive a) ∨ f = .nullPointer ∧ unasked

section Faults

variable {unasked : Prop} {α β : Type} {x : Except HandleFault α} {g : α → Except HandleFault β}

theorem tolerable_ok {a : α} : Tolerable unasked (.ok a) := fun f h => by cases h

theorem tolerable_archive {a : ArchiveFault} : Tolerable unasked (.error (.archive a) : Except _ α) := by
  intro f h
  cases h
  exact .inl ⟨a, rfl⟩

theorem tolerable_nullPointer (h : unasked) :
    Tolerable unasked (.error .nullPointer : Except _ α) := by
  intro f hf
  cases hf
  exact .inr ⟨rfl, h⟩

theorem Tolerable.bind (hx : Tolerable unasked x) (hg : ∀ a, x = .ok a → Tolerable unasked (g a)) :
    Tolerable unasked (x >>= g) := by
  cases x with
  | error f =>
    intro f' h
    cases h
    exact hx f rfl
  | ok a => exact hg a rfl

theorem Tolerable.map {h : α → β} (hx : Tolerable unasked x) : Tolerable unasked (h <$> x) := by
  cases x with
  | error f =>
    intro f' h
    cases h
    exact hx f rfl
  | ok a => exact tolerable_ok

variable [Host] {chroot : Option Bytes} {c : Client}

theorem tolerable_packetBytes {ops : List ArchiveOp} : Tolerable unasked (packetBytes ops) := by
  rw [packetBytes]
  split
  · exact tolerable_ok
  · exact tolerable_archive

theorem tolerable_submit {e : CompletionEntry} : Tolerable unasked (submit e c) := by
  refine tolerable_packetBytes.bind fun packet _ => ?_
  split <;> exact tolerable_ok

theorem tolerable_sendInfoPacket {auth : AuthInfo} : Tolerable unasked (sendInfoPacket c auth) :=
  tolerable_packetBytes.bind fun _ _ => tolerable_ok

theorem tolerable_sendAuthInfo {auths : List AuthInfo} :
    Tolerable unasked (auths.foldlM sendInfoPacket c) := by
  induction auths generalizing c with
  | nil => exact tolerable_ok
  | cons auth auths ih => exact tolerable_sendInfoPacket.bind fun _ _ => ih

theorem tolerable_zooAddAuth {auth : AuthInfo} : Tolerable unasked (zooAddAuth auth c) := by
  rw [zooAddAuth]
  split
  · exact tolerable_ok
  · split
    · exact tolerable_ok
    · dsimp only
      split
      · rw [sendLastAuthInfo, List.getLast?_concat]
        exact Tolerable.bind tolerable_sendInfoPacket fun _ _ => tolerable_ok
      · exact tolerable_ok

omit [Host] in
theorem tolerable_collectKeys {ht : ZkHashtable} : Tolerable unasked (collectKeys ht) := by
  rw [collectKeys]
  split
  · exact tolerable_ok
  · exact tolerable_archive

theorem tolerable_sendSetWatches : Tolerable unasked (sendSetWatches c) := by
  refine Tolerable.bind ?_ fun req _ => ?_
  · exact tolerable_collectKeys.bind fun _ _ => tolerable_collectKeys.bind fun _ _ =>
      tolerable_collectKeys.bind fun _ _ => tolerable_ok
  · split
    · exact tolerable_ok
    · exact tolerable_packetBytes.bind fun _ _ => tolerable_ok

theorem tolerable_finishHandshake : Tolerable unasked (finishHandshake c) := by
  rw [finishHandshake]
  dsimp only
  split
  · exact tolerable_ok
  · exact tolerable_sendSetWatches.bind fun _ _ =>
      tolerable_sendAuthInfo.bind fun _ _ => tolerable_ok

theorem tolerable_readEvents {env : EventEnv} : Tolerable unasked (readEvents env c) := by
  rw [readEvents]
  split
  · exact tolerable_ok
  · exact tolerable_ok
  · dsimp only
    split
    · exact tolerable_finishHandshake
    · exact tolerable_ok
    · exact tolerable_ok

theorem tolerable_checkEvents {env : EventEnv} : Tolerable unasked (checkEvents env c) := by
  rw [checkEvents]
  split
  · exact tolerable_ok
  · split
    · split <;> exact tolerable_ok
    · generalize (if env.write ∧ c.zh.state = .connected then
        SendBuffer.flushSendQueue false env.flush c.zh.toSend else (false, c.zh.toSend, [])) = flushed
      obtain ⟨lost, toSend, w⟩ := flushed
      dsimp only
      split
      · exact tolerable_ok
      · split
        · exact tolerable_readEvents
        · exact tolerable_ok

/-- An answer is for a request that waits, or the handle is being closed. -/
theorem closing_of_answer {packet rest : Bytes} {toProcess : List Bytes} {hdr : ReplyHeader}
    (ha : Placed c) (ht : InTransit c) (hfirst : c.FirstPacket packet toProcess hdr rest)
    (hxid : hdr.xid ∉ reservedXids) (hnone : c.zh.sentRequests = []) :
    c.zh.closeRequested = true := by
  cases hfreed : c.freed with
  | true => exact (ha.ended hfreed).1
  | false =>
    obtain ⟨sent, received, coming, ht⟩ := ht
    obtain ⟨m, received', rfl, -, -, rfl, -⟩ := ht.first hfirst
    obtain ⟨s, zxid, rfl⟩ := answer_of_not_reserved (ht.valid m List.mem_cons_self) hxid
    obtain ⟨e, es, hsome, -⟩ := ht.answers_first hfreed
    rw [hnone] at hsome
    cases hsome

omit [Host] in
theorem tolerable_authCompletionFunc {rc : Int32} (h : c.zh.auths = [] → unasked) :
    Tolerable unasked (authCompletionFunc rc c) := by
  rw [authCompletionFunc]
  by_cases hrc : rc = 0
  · rw [if_neg (not_not.mpr hrc)]
    dsimp only
    split
    · next hnone => exact tolerable_nullPointer (h (by simpa using hnone))
    · exact tolerable_ok
  · rw [if_pos hrc]
    dsimp only
    split
    · next hnone => exact tolerable_nullPointer (h hnone)
    · exact tolerable_ok

theorem tolerable_processPacket {behind : Bytes} (ha : Placed c) (ht : InTransit c) :
    Tolerable c.Unasked (processPacket behind c) := by
  rw [processPacket]
  split
  · exact tolerable_ok
  · next packet toProcess hpackets =>
    obtain ⟨sent, received, coming, ht'⟩ := id ht
    obtain ⟨m, received', rfl, rfl, -⟩ := ht'.next hpackets
    have hm := ht'.valid m List.mem_cons_self
    have hfirst : c.FirstPacket m.bytes toProcess m.header (m.record ++ behind) :=
      ⟨hpackets, behind, decodes_header m behind⟩
    rw [readFields_ok (decodes_header m behind), Except.ok_bind]
    dsimp only
    rw [takePacket_eq]
    split
    · exact tolerable_ok
    · next hping =>
      split
      · next hevent =>
        cases m with
        | answer s zxid =>
          have hxid : s.xid = watcherEventXid := hevent
          exact absurd (by simp [hxid, reservedXids]) hm.2.1
        | notice hdr evt =>
          obtain ⟨-, hevt, -⟩ := hm
          obtain ⟨path, hpath⟩ := Option.isSome_iff_exists.mp hevt
          have hread : deserializeWatcherEvent ((Message.notice hdr evt).record ++ behind) =
              (.ok evt, behind) := by
            have hxid : hdr.xid = watcherEventXid := hevent
            rw [Message.record, if_pos hxid]
            exact decodes_watcherEvent hevt behind
          rw [readFields_ok hread, Except.ok_bind]
          simp only [hpath]
          exact tolerable_ok
      · next hevent =>
        split
        · exact tolerable_ok
        · next hwatches =>
          split
          · next hauth =>
            have hasked : Tolerable c.Unasked
                (authCompletionFunc m.header.err (takePacket toProcess m.header.zxid c)) :=
              tolerable_authCompletionFunc fun hnone => ⟨hnone, _, _, _, _, hfirst, hauth⟩
            refine hasked.bind fun c₁ _ => ?_
            split <;> exact tolerable_ok
          · next hauth =>
            have hxid : m.header.xid ∉ reservedXids := by
              simp [reservedXids, hping, hevent, hwatches, hauth]
            split
            · next hnone =>
              have hclose : c.zh.closeRequested = true := closing_of_answer ha ht hfirst hxid hnone
              split
              · exact tolerable_ok
              · next hopen => exact absurd hclose hopen
            · exact tolerable_ok

omit [Host] in
/-- A record that a server can send has a path, if it is to have one. -/
theorem tolerable_syncResponse {chroot : Option Bytes} {size : Nat} {s : Served}
    (h : s.res.Complete) : Tolerable unasked (syncResponse chroot size s.response) := by
  rw [syncResponse, Served.response]
  split
  · exact tolerable_ok
  · next res hres =>
    split at hres
    · obtain rfl := Option.some.inj hres
      refine Tolerable.bind ?_ fun _ _ => tolerable_ok
      obtain ⟨xid, body, err, res⟩ := s
      cases res with
      | string path =>
        obtain ⟨_ | path⟩ := path
        · cases h
        · exact tolerable_ok
      | void | stat _ | data _ | stringlist _ | stringlistStat _ | acllist _ => exact tolerable_ok
    · cases hres

/-- What was taken can be settled. -/
theorem tolerable_settleAnswer (hk : Held c) : Tolerable unasked (settleAnswer c) := by
  rw [settleAnswer]
  split
  · exact tolerable_ok
  · next cptr hdr bptr ia htaken =>
    obtain ⟨s, zxid, behind, hs, hhdr, -, hia⟩ := hk _ htaken
    dsimp only
    split
    · exact tolerable_ok
    · split
      · refine Tolerable.bind ?_ fun _ _ => tolerable_ok
        have hresponse : processSyncCompletion cptr hdr.err ia
            { c.zh with watches := activate cptr.watcher hdr.err c.zh.watches } = _ :=
          processSyncCompletion_of_answer (a := ⟨cptr, hdr, bptr, ia⟩) hs hhdr hia
        rw [hresponse]
        exact tolerable_syncResponse hs.complete
      · exact tolerable_ok

/-- What is to be processed can be read. -/
theorem tolerable_processCompletion (ha : Placed c) (hr : Results chroot c) :
    Tolerable unasked (processCompletion c) := by
  rw [processCompletion]
  split
  · exact tolerable_ok
  · next q qs hqs =>
    have hmem : q ∈ c.zh.completionsToProcess := by simp [hqs]
    cases hentry : q.entry with
    | none =>
      obtain ⟨hdr, rest, evt, rest', hhdr, hxid, hevt⟩ := (hr.notifications q hmem hentry).readable
      rw [readFields_ok hhdr, Except.ok_bind]
      dsimp only
      rw [if_pos hxid, readFields_ok hevt]
      exact tolerable_ok
    | some e =>
      obtain ⟨hdr, rest, r, rest', hhdr, hread⟩ := (hr.answers q hmem e hentry).readable
      have hxid := ha.answers q hmem (by simp [hentry]) hdr rest hhdr
      rw [readFields_ok hhdr, Except.ok_bind]
      dsimp only
      rw [if_neg hxid, readFields_ok hread]
      exact tolerable_ok

theorem tolerable_step {l : ClientLabel} (ha : Placed c) (ht : InTransit c) (hk : Held c)
    (hr : Results chroot c) : Tolerable c.Unasked (step l c) := by
  cases l with
  | submit e => exact tolerable_submit.map
  | addAuth auth => exact tolerable_zooAddAuth.map
  | events env => exact tolerable_checkEvents.map
  | process behind => exact tolerable_processPacket ha ht
  | settle => exact tolerable_settleAnswer hk
  | deliver => exact tolerable_processCompletion ha hr
  | interest _ | requestClose | freeOnClose | destroy _ _ | peerReads _ | peerSends _ | serverGreets _
  | serverReads _ _ _ | serverAnswers _ _ _ | serverNotifies _ _ => exact tolerable_ok

end Faults

/-! ## Runs -/

section Runs

variable [Host] {addrsCount : Nat} {recvTimeout : Int32} {clientId : Int64} {passwd : Passwd}
variable {chroot : Option Bytes} {c : Client}

omit [Host] in
theorem results_initial : Results chroot (initial addrsCount recvTimeout clientId passwd chroot) where
  completed := by simp [initial]
  woken := by simp [initial]
  answers := List.forall_mem_nil _
  notifications := List.forall_mem_nil _

/-- All that the results rest on. -/
structure Correlated (chroot : Option Bytes) (c : Client) : Prop where
  placed : Placed c
  inTransit : InTransit c
  held : Held c
  results : Results chroot c
  chroot_eq : c.destroyed = false → c.zh.chroot = chroot

theorem Move.correlated {c' : Client} (h : Move True c c') (hs : Sane c) (hc : Correlated chroot c) :
    Correlated chroot c' where
  placed := h.placed hc.placed
  inTransit := h.inTransit hs hc.inTransit
  held := h.held hc.placed hc.inTransit hc.held
  results := h.results hc.inTransit hc.held hc.chroot_eq hc.results
  chroot_eq hnot := by
    obtain ⟨hnot, hsame⟩ := h.keeps_chroot hnot
    rw [hsame, hc.chroot_eq hnot]

theorem correlated_initial :
    Correlated chroot (initial addrsCount recvTimeout clientId passwd chroot) where
  placed := placed_initial
  inTransit := inTransit_initial
  held := fun a ha => by cases ha
  results := results_initial
  chroot_eq := fun _ => rfl

theorem correlated_of_reachable
    (h : (clientSystem True addrsCount recvTimeout clientId passwd chroot).Reachable c) :
    Correlated chroot c :=
  reachable_of_moves correlated_initial (fun _ _ hs hc hmove => hmove.correlated hs hc) h

/-- The socket takes all that there is. -/
def writeEnv : EventEnv :=
  ⟨true, false, true, .error .again, .error .again, [(.taken 4, .taken 100)], .error .again, .error .again⟩

/-- A request to make a node at `/b` behind the chroot `/a`, with a buffer of 3 bytes. -/
def createRequest : CompletionEntry where
  xid := 5
  type := .string
  sync := true
  data := 0
  buffLen := 3
  watcher := none
  body := .createOp
    { path := some ⟨[47, 97, 47, 98], by decide, by decide⟩
      data := some ⟨[118], by decide⟩
      acl := ⟨1, [⟨31, ⟨some ⟨[105, 112], by decide, by decide⟩, some ⟨[49], by decide, by decide⟩⟩⟩], rfl⟩
      flags := 2 }

/-- The node that was made is `/a/b1`. -/
def createAnswer : AnswerBody := .string ⟨some ⟨[47, 97, 47, 98, 49], by decide, by decide⟩⟩

omit [Host] in
/-- A request is made, the client connects and sends it, and the server answers it. Then the
request is taken, and settled. -/
theorem reachable_answered :
    ∃ c c', (@clientSystem littleHost True 2 10000 0 noPasswd (some [47, 97])).Reachable c ∧
      (@clientSystem littleHost True 2 10000 0 noPasswd (some [47, 97])).Reachable c' ∧
      c.freed = false ∧
      c.zh.toProcess = [wire (serializeReplyHeader ⟨5, 40, 0⟩ ++ createAnswer.serialize)] ∧
      c'.upcalls = [.woken createRequest
        ⟨0, some (.string ⟨some ⟨[47, 98], by decide, by decide⟩⟩)⟩] := by
  have hinit : (@clientSystem littleHost True 2 10000 0 noPasswd (some [47, 97])).Reachable
      (initial 2 10000 0 noPasswd (some [47, 97])) := ⟨[], .nil⟩
  have hcomplete : createRequest.body.Complete := by
    refine ⟨rfl, fun acl hacl => ?_⟩
    obtain rfl := List.mem_singleton.mp hacl
    exact ⟨rfl, rfl⟩
  have hsubmit := @reachable_submit littleHost _ _ _ _ _ _ _ createRequest hinit rfl rfl
    (by decide) (fun _ => ⟨hcomplete, by decide⟩) (by decide) rfl
  have hopen := hsubmit.step (l := ClientLabel.interest connectEnv)
    ⟨⟨rfl, rfl⟩, fun _ => ⟨Nat.le_refl 4, Nat.le_refl 44⟩⟩ rfl
  have hgreet := hopen.step (l := ClientLabel.serverGreets session7)
    ⟨⟨rfl, rfl, rfl, by decide, rfl⟩, fun _ => trivial⟩ rfl
  have hconnected := hgreet.step (l := ClientLabel.events readEnv)
    ⟨⟨rfl, rfl, rfl⟩, fun _ => ⟨trivial, trivial⟩⟩ rfl
  have hflush := hconnected.step (l := ClientLabel.events writeEnv)
    ⟨⟨rfl, rfl, rfl⟩, fun _ => ⟨trivial, trivial⟩⟩ rfl
  have hread := hflush.step
    (l := ClientLabel.serverReads (wire (requestPacket 5 createRequest.body)) ⟨5, 1⟩
      createRequest.body)
    ⟨⟨rfl, rfl, rfl, by decide, ⟨[], rfl⟩, rfl⟩, fun _ => trivial⟩ rfl
  have hanswer := hread.step (l := ClientLabel.serverAnswers 40 0 createAnswer)
    ⟨⟨rfl, rfl, _, rfl, rfl, rfl, by decide⟩, fun _ => trivial⟩ rfl
  have hreceive := hanswer.step (l := ClientLabel.events readEnv)
    ⟨⟨rfl, rfl, rfl⟩, fun _ => ⟨trivial, trivial⟩⟩ rfl
  have htake := hreceive.step (l := ClientLabel.process []) ⟨⟨rfl, rfl⟩, fun _ => trivial⟩ rfl
  have hsettle := htake.step (l := ClientLabel.settle) ⟨⟨rfl, nofun⟩, fun _ => trivial⟩ rfl
  exact ⟨_, _, hreceive, hsettle, rfl, rfl, rfl⟩

/-- The requests that wait for an answer are, in this order, those whose answers have come or
are coming, those the server works on, those on their way to it, and those in the queue. -/
theorem requests_in_transit
    (h : (clientSystem True addrsCount recvTimeout clientId passwd chroot).Reachable c)
    (hnot : c.freed = false) :
    ∃ sent received coming, Phase c sent received coming ∧
      c.zh.sentRequests.map (fun e => (e.xid, e.body)) =
        (received ++ coming).filterMap Message.request ++ c.socket.todo.map (fun r => (r.1.xid, r.2)) ++
          (sent ++ SendBuffer.packets c.zh.toSend).filterMap requestOf := by
  obtain ⟨sent, received, coming, ht⟩ := (correlated_of_reachable h).inTransit
  exact ⟨sent, received, coming, ht.phase, ht.requests hnot⟩

omit [Host] in
/-- The answer to a request has come. -/
theorem requests_in_transit_answered :
    ∃ c : Client, c.zh.toProcess = [wire (serializeReplyHeader ⟨5, 40, 0⟩ ++ createAnswer.serialize)] ∧
      ∃ sent received coming, @Phase littleHost c sent received coming ∧
        c.zh.sentRequests.map (fun e => (e.xid, e.body)) =
          (received ++ coming).filterMap Message.request ++
            c.socket.todo.map (fun r => (r.1.xid, r.2)) ++
              (sent ++ SendBuffer.packets c.zh.toSend).filterMap (@requestOf littleHost) := by
  obtain ⟨c, -, hc, -, hnot, hprocess, -⟩ := reachable_answered
  exact ⟨c, hprocess, @requests_in_transit littleHost _ _ _ _ _ _ hc hnot⟩

/-- Whatever a callback has got is what a server has answered to the same request, and
whatever a thread has got is what `process_sync_completion` leaves it of that; or it is a
reason on the side of the client. -/
theorem answers_correlated
    (h : (clientSystem True addrsCount recvTimeout clientId passwd chroot).Reachable c) :
    (∀ e r, .completed e r ∈ c.upcalls → Settled c.served e r) ∧
      ∀ e r, .woken e r ∈ c.upcalls → SettledSync chroot c.served e r := by
  have hr := (correlated_of_reachable h).results
  exact ⟨hr.completed, hr.woken⟩

omit [Host] in
/-- Of the path of a new node its thread has got the two bytes that fit. -/
theorem answers_correlated_sync :
    ∃ c : Client, c.upcalls = [.woken createRequest
        ⟨0, some (.string ⟨some ⟨[47, 98], by decide, by decide⟩⟩)⟩] ∧
      (∀ e r, .completed e r ∈ c.upcalls → Settled c.served e r) ∧
        ∀ e r, .woken e r ∈ c.upcalls → SettledSync (some [47, 97]) c.served e r := by
  obtain ⟨-, c, -, hc, -, -, hcalls⟩ := reachable_answered
  exact ⟨c, hcalls, @answers_correlated littleHost _ _ _ _ _ _ hc⟩

end Runs

end Client

end QtZooKeeper
