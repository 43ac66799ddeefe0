-- SUMMARY: Watchers hear of the session in a legal order, and of a path once for each watch, which is not lost before.
import QtZooKeeper.Verification.Answers
import Mathlib.Data.Finset.Card

/-!
# Calls of watchers

The completion thread calls the watchers of events of the server, each of which it takes
out of the tables, and of events of the session, which the client makes up itself. `Called`
says all that a move can do to the calls, made or due, and to the tables. The server of an
ordered run sends no session events.
-/

namespace QtZooKeeper

/-! ## Calls -/

/-- A call of the watchers of a list. -/
structure WatcherCall where
  type : Int32
  state : Int32
  path : CharPtr
  list : WatcherList
  deriving DecidableEq, Repr

def Upcall.call : Upcall → Option WatcherCall
  | .watchers type state path list => some ⟨type, state, path, list⟩
  | .completed _ _ | .woken _ _ | .authenticated _ _ => none

/-- The call that the completion thread will make for a notification. -/
def QueuedCompletion.call [Host] (q : QueuedCompletion) : Option WatcherCall :=
  match q.entry, deserializeReplyHeader q.buffer with
  | none, (.ok hdr, rest) =>
    match deserializeWatcherEvent rest with
    | (.ok evt, _) =>
      if hdr.xid = watcherEventXid then some ⟨evt.type, evt.state, evt.path, q.watcherResult⟩ else none
    | (.error _, _) => none
  | _, _ => none

/-- The state that a call tells, if it is of the session. -/
def WatcherCall.session (call : WatcherCall) : Option Int32 :=
  if call.type = -1 then some call.state else none

/-- A watcher is called because something has happened to a node. -/
def WatcherCall.Fires (call : WatcherCall) (path : CStr) (w : WatcherObject) : Prop :=
  call.type ≠ -1 ∧ call.path = some path ∧ w ∈ call.list

instance {call : WatcherCall} {path : CStr} {w : WatcherObject} : Decidable (call.Fires path w) :=
  inferInstanceAs (Decidable (_ ∧ _))

/-- A request that asks for a watch. -/
def CompletionEntry.Asks (e : CompletionEntry) (path : CStr) (w : WatcherObject) : Prop :=
  ∃ reg ∈ e.watcher, reg.path = path ∧ reg.watcher = w

instance {e : CompletionEntry} {path : CStr} {w : WatcherObject} : Decidable (e.Asks path w) :=
  inferInstanceAs (Decidable (∃ reg ∈ e.watcher, _))

/-! ## The mode of a session -/

/-- What a watcher can conclude from the session events it has got. -/
inductive SessionMode where
  | down
  | up
  | ended
  deriving DecidableEq, Repr

/-- A session comes up, goes down to be connected again, or ends for good. -/
def SessionMode.next : SessionMode → Int32 → Option SessionMode
  | .down, s => if s = 3 then some .up else if s = -112 ∨ s = -113 then some .ended else none
  | .up, s => if s = 1 then some .down else if s = -112 ∨ s = -113 then some .ended else none
  | .ended, _ => none

/-- The mode after some events, if they may follow each other. -/
def SessionMode.after (m : SessionMode) (events : List Int32) : Option SessionMode :=
  events.foldlM SessionMode.next m

/-- What the state of a handle is to a watcher. -/
def ZooKeeperState.mode (s : ZooKeeperState) : SessionMode :=
  if s.toInt < 0 then .ended else if s = .connected then .up else .down

theorem mode_of_running {zh : Zhandle} (hrun : zh.isUnrecoverable = false) :
    zh.state.mode = if zh.state = .connected then .up else .down := by
  rw [ZooKeeperState.mode, if_neg]
  simpa [Zhandle.isUnrecoverable] using hrun

/-! ## Armed watches -/

namespace WatchTables

variable {zh : WatchTables} {path p : Bytes} {w wo : WatcherObject} {t : WatchTable}
variable {ts : List WatchTable}

instance {ht : ZkHashtable} : Decidable (ht.Has path w) :=
  decidable_of_iff (∃ wl ∈ ht.lookup path, w ∈ wl) Iff.rfl

/-- The tables in which a watcher is armed at a path. -/
def armed (zh : WatchTables) (path : Bytes) (w : WatcherObject) : Finset WatchTable :=
  ({.activeNodeWatchers, .activeExistWatchers, .activeChildWatchers} : Finset WatchTable).filter fun t =>
    (zh t).Has path w

theorem mem_armed : t ∈ armed zh path w ↔ (zh t).Has path w := by
  cases t <;> simp [armed]

/-- A watch is armed in one table. -/
theorem card_armed_insert :
    (armed (Function.update zh t (insertWatcherObject (zh t) path wo)) p w).card ≤
      (armed zh p w).card + if p = path ∧ w = wo then 1 else 0 := by
  split
  · refine (Finset.card_le_card ?_).trans (Finset.card_insert_le t _)
    intro t' ht'
    rw [mem_armed] at ht'
    by_cases ht : t' = t
    · exact Finset.mem_insert.mpr (.inl ht)
    · rw [Function.update_of_ne ht] at ht'
      exact Finset.mem_insert_of_mem (mem_armed.mpr ht')
  · next hne =>
    rw [Nat.add_zero]
    refine Finset.card_le_card fun t' ht' => ?_
    rw [mem_armed] at ht' ⊢
    by_cases ht : t' = t
    · subst ht
      rw [Function.update_self, has_insertWatcherObject] at ht'
      exact ht'.resolve_left hne
    · rwa [Function.update_of_ne ht] at ht'

/-- What is called is armed in fewer tables than before. -/
theorem card_armed_moveWatchers :
    (armed (moveWatchers path ts ([], zh)).2 p w).card +
      (if p = path ∧ w ∈ (moveWatchers path ts ([], zh)).1 then 1 else 0) ≤ (armed zh p w).card := by
  have hsub : armed (moveWatchers path ts ([], zh)).2 p w ⊆ armed zh p w := fun t ht => by
    rw [mem_armed] at ht ⊢
    exact (has_moveWatchers.mp ht).1
  split
  · next hmoved =>
    obtain ⟨rfl, hw⟩ := hmoved
    obtain hw | ⟨t, ht, hhas⟩ := mem_moveWatchers_iff.mp hw
    · cases hw
    · refine Finset.card_lt_card ⟨hsub, fun hsup => ?_⟩
      have hafter := hsup (mem_armed.mpr hhas)
      exact (has_moveWatchers.mp (mem_armed.mp hafter)).2 ⟨rfl, ht⟩
  · exact Finset.card_le_card hsub

end WatchTables

namespace Client

/-! ## Calls made and due -/

/-- The calls that have been made. -/
def made (log : List Upcall) : List WatcherCall := log.filterMap Upcall.call

/-- The calls that are due. -/
def due [Host] (queue : List QueuedCompletion) : List WatcherCall := queue.filterMap QueuedCompletion.call

/-- All calls, in order. -/
def calls [Host] (c : Client) : List WatcherCall := made c.upcalls ++ due c.zh.completionsToProcess

/-- The requests that wait were waiting, or have been taken since. -/
def Waiting (c c' : Client) : Prop :=
  ∃ new, c'.accepted = c.accepted ++ new ∧ c'.outstanding.Sublist (c.outstanding ++ new)

def SameMode (c c' : Client) : Prop :=
  c'.destroyed = false → c.destroyed = false ∧ c'.zh.state.mode = c.zh.state.mode

/-- What a move comes to for the watchers. -/
inductive Called [Host] (c c' : Client) : Prop where
  | quiet (hcalls : calls c' = calls c) (hwatches : c'.zh.watches = c.zh.watches)
      (hwaiting : Waiting c c') (hmode : SameMode c c')
  /-- The client tells that the session is in another mode. -/
  | session {call : WatcherCall} (hcalls : calls c' = calls c ++ [call]) (htype : call.type = -1)
      (hwatches : c'.zh.watches = c.zh.watches) (hwaiting : Waiting c c') (hlive : c.destroyed = false)
      (hnext : c.zh.state.mode.next call.state = some c'.zh.state.mode)
  /-- A server tells that something has happened to a node. -/
  | notice {type state : Int32} {path : CStr} (htype : type ≠ -1)
      (hcalls : calls c' = calls c ++
        [⟨type, state, some path, (watchersFor type path.bytes c.zh.watches).1⟩])
      (hwatches : c'.zh.watches = (watchersFor type path.bytes c.zh.watches).2)
      (hwaiting : Waiting c c') (hmode : SameMode c c')
  /-- A request is answered. -/
  | armed {e : CompletionEntry} {rc : Int32} (hcalls : calls c' = calls c)
      (hwatches : c'.zh.watches = activate e.watcher rc c.zh.watches)
      (hsent : c.outstanding = e :: c'.outstanding) (haccepted : c'.accepted = c.accepted)
      (hmode : SameMode c c')
  /-- The tables are freed with the handle. -/
  | destroyed (hcalls : calls c' = calls c) (hwatches : c'.zh.watches = fun _ => ∅)
      (hwaiting : Waiting c c') (hgone : c'.destroyed = true)

/-- No connect response is read on an established connection, and a handle that has been
destroyed has no descriptor. -/
structure Orderly (c : Client) : Prop where
  primed : c.zh.inputBuffer = .primer → c.zh.state ≠ .connected
  closed : c.destroyed = true → c.zh.fd = false

section Queue

variable {rc : Int32} {state : ZooKeeperState} {list : WatcherList} {sent : List CompletionEntry}
variable {auths : List AuthInfo} {log log' : List Upcall} {c c' : Client}

theorem made_append : made (log ++ log') = made log ++ made log' := List.filterMap_append

theorem made_wokenWith : made (wokenWith rc sent) = [] := by
  rw [made, List.filterMap_eq_nil_iff]
  intro u hu
  obtain ⟨e, -, rfl⟩ := List.mem_map.mp hu
  rfl

theorem made_authCalls : made (authCalls rc auths) = [] := by
  rw [made, List.filterMap_eq_nil_iff]
  intro u hu
  obtain ⟨a, -, rfl⟩ := List.mem_map.mp hu
  rfl

theorem Waiting.same (hsent : c'.outstanding = c.outstanding)
    (haccepted : c'.accepted = c.accepted) : Waiting c c' :=
  ⟨[], by rw [haccepted, List.append_nil], by rw [hsent, List.append_nil]⟩

theorem Waiting.fewer (hsent : c'.outstanding.Sublist c.outstanding)
    (haccepted : c'.accepted = c.accepted) : Waiting c c' :=
  ⟨[], by rw [haccepted, List.append_nil], by rwa [List.append_nil]⟩

variable [Host] {queue queue' : List QueuedCompletion} {q : QueuedCompletion} {hdr : ReplyHeader}
variable {evt : WatcherEvent} {rest rest' : Bytes}

theorem due_append : due (queue ++ queue') = due queue ++ due queue' := List.filterMap_append

theorem due_failedWith : due (failedWith rc sent) = [] := by
  rw [due, List.filterMap_eq_nil_iff]
  intro q hq
  obtain ⟨e, -, rfl⟩ := List.mem_map.mp hq
  rfl

theorem call_of_read (hentry : q.entry = none) (hhdr : deserializeReplyHeader q.buffer = (.ok hdr, rest))
    (hxid : hdr.xid = watcherEventXid) (hevt : deserializeWatcherEvent rest = (.ok evt, rest')) :
    q.call = some ⟨evt.type, evt.state, evt.path, q.watcherResult⟩ := by
  simp only [QueuedCompletion.call, hentry, hhdr, hevt, hxid, if_true]

theorem call_of_xid (hhdr : deserializeReplyHeader q.buffer = (.ok hdr, rest))
    (hxid : hdr.xid ≠ watcherEventXid) : q.call = none := by
  cases hentry : q.entry with
  | some e => simp only [QueuedCompletion.call, hentry]
  | none =>
    simp only [QueuedCompletion.call, hentry, hhdr]
    split
    · exact if_neg hxid
    · rfl

theorem call_sessionEvent : QueuedCompletion.call ⟨none, sessionEvent state, list⟩ =
    some ⟨-1, .ofInt state.toInt, some ⟨[], by decide, by decide⟩, list⟩ := by
  have hevt : WatcherEvent.Complete ⟨-1, .ofInt state.toInt, some ⟨[], by decide, by decide⟩⟩ := rfl
  have hhdr := decodes_replyHeader (v := ⟨watcherEventXid, 0, 0⟩)
    (wire (serializeWatcherEvent ⟨-1, .ofInt state.toInt, some ⟨[], by decide, by decide⟩⟩))
  rw [← wire_append] at hhdr
  exact call_of_read (q := ⟨none, sessionEvent state, list⟩) rfl hhdr rfl (decodes_watcherEvent hevt).eq_nil

theorem call_notice {path : CStr} (hxid : hdr.xid = watcherEventXid) (hevt : evt.Complete)
    (hpath : evt.path = some path) :
    QueuedCompletion.call ⟨none, (Message.notice hdr evt).bytes, list⟩ =
      some ⟨evt.type, evt.state, some path, list⟩ := by
  have hread := (decodes_watcherEvent hevt).eq_nil
  have hrecord : (Message.notice hdr evt).record = wire (serializeWatcherEvent evt) := if_pos hxid
  rw [← hrecord] at hread
  have hhdr : deserializeReplyHeader (Message.notice hdr evt).bytes = _ := decodes_header_nil
  rw [← hpath]
  exact call_of_read (q := ⟨none, (Message.notice hdr evt).bytes, list⟩) rfl hhdr hxid hread

end Queue

/-! ## Moves -/

section Moves

variable [Host] {ordered : Prop} {c c₁ c' : Client}

omit [Host] in
theorem Orderly.congr (ho : Orderly c) (hinput : c'.zh.inputBuffer = c.zh.inputBuffer)
    (hstate : c'.zh.state = c.zh.state) (hdestroyed : c'.destroyed = c.destroyed)
    (hfd : c'.zh.fd = c.zh.fd) : Orderly c' where
  primed h := hstate ▸ ho.primed (hinput ▸ h)
  closed h := hfd ▸ ho.closed (hdestroyed ▸ h)

omit [Host] in
/-- An open descriptor is one of a handle that has not been destroyed. -/
theorem Orderly.alive (ho : Orderly c) (hfd : c.zh.fd = true) : c.destroyed = false := by
  by_contra hdead
  have hnone := ho.closed (by simpa using hdead)
  simp [hfd] at hnone

theorem Move.orderly (h : Move ordered c c') (ho : Orderly c) : Orderly c' := by
  cases h with
  | @accept e packet hopen htype hxid hpacket hgood =>
    rw [addCompletion, if_neg (by simp [hopen])]
    exact ho.congr rfl rfl rfl rfl
  | @reset c₁ rc hdisturbed hfd hrun hstate hprimer hrc =>
    rw [hdisturbed, handleError_eq]
    refine { primed := fun _ hconn => ?_, closed := fun _ => rfl }
    have hconn : (if c₁.zh.isUnrecoverable then c₁.zh.state else .closed) = .connected := hconn
    split at hconn
    · next hover => exact (live_of_isUnrecoverable hover).2.2 hconn
    · cases hconn
  | openSocket hfd hindex hrun hlive =>
    exact { primed := ho.primed, closed := fun h => by simp [hlive] at h }
  | connecting hfd hrun hstate => exact { primed := fun _ => by simp, closed := ho.closed }
  | prime hfd hrun hstate hwhole => exact { primed := fun _ => by simp, closed := ho.closed }
  | @receive r₁ r₂ b down hfd hrun hrecv =>
    cases hib : c.zh.inputBuffer with
    | primer =>
      rw [setInBuffer_primer hib]
      exact ho.congr rfl rfl rfl rfl
    | null | packet b' =>
      rw [setInBuffer_packet (by simp [hib])]
      exact { primed := fun h => (by cases h), closed := ho.closed }
  | receivePacket hfd hrun hrecv hinput => exact { primed := fun h => (by cases h), closed := ho.closed }
  | handshake hfd hrun hrecv hinput hid hauths hwatches =>
    exact { primed := fun h => (by cases h), closed := ho.closed }
  | @authAnswer packet rest toProcess hdr hfirst hxid hauths =>
    split <;> exact ho.congr rfl rfl rfl rfl
  | freeOnClose hclose =>
    rw [freeOnClose_eq]
    exact ho.congr rfl rfl rfl rfl
  | destroy hfreed hidle =>
    rw [destroy_eq]
    refine { primed := fun hprimer => ?_, closed := fun _ => rfl }
    rw [cleaned_eq_primer] at hprimer
    dsimp only
    split
    · simp
    · exact ho.primed hprimer
  | server henabled hgood hstep hserver =>
    rw [step_server hstep hserver]
    exact ho.congr rfl rfl rfl rfl
  | addAuth | sendAuth | ping | rewind | flush | skip | event | take | answerAsync | answerSync
  | deliverEvent | deliverNothing | deliverAnswer | requestClose | peer => exact ho.congr rfl rfl rfl rfl

theorem calls_enqueue {q : QueuedCompletion} {call : WatcherCall} (hcalls : c'.upcalls = c.upcalls)
    (hqueue : c'.zh.completionsToProcess = c.zh.completionsToProcess ++ [q]) (hq : q.call = some call) :
    calls c' = calls c ++ [call] := by
  rw [calls, calls, hcalls, hqueue, due_append, List.append_assoc]
  simp [due, hq]

theorem calls_log {log : List Upcall} (hlog : made log = []) (hcalls : c'.upcalls = c.upcalls ++ log)
    (hqueue : c'.zh.completionsToProcess = c.zh.completionsToProcess) : calls c' = calls c := by
  rw [calls, calls, hcalls, hqueue, made_append, hlog, List.append_nil]

/-- Nothing of what watchers see is touched. -/
theorem Called.same (hcalls : c'.upcalls = c.upcalls)
    (hqueue : c'.zh.completionsToProcess = c.zh.completionsToProcess)
    (hwatches : c'.zh.watches = c.zh.watches) (hwaiting : Waiting c c') (hmode : SameMode c c') :
    Called c c' :=
  .quiet (by rw [calls, hcalls, hqueue, calls]) hwatches hwaiting hmode

/-- The loss of a connection is told if there was a session on it, and the end of the
session always. -/
theorem called_handleError {rc : ZooKeeperError} (hlive : c.destroyed = false)
    (hdisturbed : c.Disturbed c₁) (hrun : c.zh.isUnrecoverable = false)
    (hstate : c₁.zh.state = c.zh.state ∨ c₁.zh.state = .expiredSession ∨ c₁.zh.state = .authFailed) :
    Called c (handleError rc c₁) := by
  have hcalls : calls (handleError rc c₁) = calls c ++ due (lossEvents c₁.zh) := by
    rw [hdisturbed, handleError_eq, calls, calls]
    simp only [made_append, made_wokenWith, made_authCalls, due_append, due_failedWith,
      List.append_nil, List.append_assoc]
  have hwatches : (handleError rc c₁).zh.watches = c.zh.watches := by
    rw [hdisturbed, handleError_eq]
  have hwaiting : Waiting c (handleError rc c₁) := by
    have hnone : (handleError rc c₁).outstanding = [] := by
      rw [hdisturbed, handleError_eq]
      rfl
    refine .fewer (hnone ▸ List.nil_sublist _) ?_
    rw [hdisturbed, handleError_eq]
  have hnew : (handleError rc c₁).zh.state = if c₁.zh.isUnrecoverable then c₁.zh.state else .closed := by
    rw [handleError_eq]
  obtain hsame | hover := hstate
  · have hrun₁ : c₁.zh.isUnrecoverable = false := (isUnrecoverable_of_state hsame).trans hrun
    rw [if_neg (by simp [hrun₁])] at hnew
    rw [lossEvents, if_neg (by simp [hrun₁]), hsame] at hcalls
    by_cases hconn : c.zh.state = .connected
    · rw [if_pos hconn, due, List.filterMap_cons, call_sessionEvent] at hcalls
      refine .session hcalls rfl hwatches hwaiting hlive ?_
      rw [hnew, mode_of_running hrun, if_pos hconn]
      rfl
    · rw [if_neg hconn] at hcalls
      refine .quiet (hcalls.trans (List.append_nil _)) hwatches hwaiting fun _ => ⟨hlive, ?_⟩
      rw [hnew, mode_of_running hrun, if_neg hconn]
      rfl
  · have hended : c₁.zh.isUnrecoverable = true := by
      obtain hover | hover := hover <;> rw [Zhandle.isUnrecoverable, hover] <;> rfl
    rw [if_pos hended] at hnew
    rw [lossEvents, if_pos hended, due, List.filterMap_cons, call_sessionEvent] at hcalls
    refine .session hcalls rfl hwatches hwaiting hlive ?_
    rw [hnew, mode_of_running hrun]
    obtain hover | hover := hover <;> rw [hover] <;> split <;> rfl

theorem Move.called (h : Move True c c') (ha : Placed c) (ht : InTransit c) (ho : Orderly c) :
    Called c c' := by
  have hmode : SameMode c c := fun h => ⟨h, rfl⟩
  cases h with
  | @accept e packet hopen htype hxid hpacket hgood =>
    rw [addCompletion, if_neg (by simp [hopen])]
    refine .same rfl rfl rfl ⟨[e], rfl, ?_⟩ hmode
    rw [outstanding, outstanding, List.append_assoc]
    exact List.Sublist.refl _
  | reset hdisturbed hfd hrun hstate hprimer hrc =>
    exact called_handleError (ho.alive hfd) hdisturbed hrun hstate
  | connecting hfd hrun hstate =>
    refine .same rfl rfl rfl (.same rfl rfl) fun h => ⟨h, ?_⟩
    rw [mode_of_running hrun, if_neg hstate.1]
    rfl
  | prime hfd hrun hstate hwhole =>
    refine .same rfl rfl rfl (.same rfl rfl) fun h => ⟨h, ?_⟩
    rw [mode_of_running hrun, if_neg hstate.1]
    rfl
  | @receive r₁ r₂ b down hfd hrun hrecv =>
    cases hib : c.zh.inputBuffer with
    | primer =>
      rw [setInBuffer_primer hib]
      exact .same rfl rfl rfl (.same rfl rfl) hmode
    | null | packet b' =>
      rw [setInBuffer_packet (by simp [hib])]
      exact .same rfl rfl rfl (.same rfl rfl) hmode
  | @handshake r₁ r₂ b down auths watches hfd hrun hrecv hinput hid hauths hwatches =>
    refine .session (calls_enqueue rfl rfl call_sessionEvent) rfl rfl (.same rfl rfl) (ho.alive hfd) ?_
    rw [mode_of_running hrun, if_neg (ho.primed hinput)]
    rfl
  | @event packet rest rest' toProcess hdr evt path hfirst hxid hevt hpath =>
    obtain ⟨hcomplete, htype, rfl⟩ := notice_first ht hfirst hxid hevt
    exact .notice htype (calls_enqueue rfl rfl (call_notice hxid hcomplete hpath)) rfl (.same rfl rfl) hmode
  | @authAnswer packet rest toProcess hdr hfirst hxid hauths =>
    split
    · exact .quiet (calls_log (c := c) made_authCalls rfl rfl) rfl (.same rfl rfl) hmode
    · exact .quiet (calls_log (c := c) made_authCalls rfl rfl) rfl (.same rfl rfl) hmode
  | take hidle hfirst hxid hsent =>
    exact .same rfl rfl rfl (.same (outstanding_take hidle rfl hsent) rfl) hmode
  | answerAsync htaken heq hsync =>
    refine .armed ?_ rfl (outstanding_of_taken htaken) rfl hmode
    rw [calls, calls]
    exact congrArg (made c.upcalls ++ ·) (due_append.trans (List.append_nil _))
  | @answerSync a r halive htaken heq hsync hread =>
    have hlog : made [.woken a.cptr r] = [] := rfl
    exact .armed (calls_log hlog rfl rfl) rfl (outstanding_of_taken htaken) rfl hmode
  | @deliverEvent q qs hdr rest rest' evt hqs hhdr hxid hevt =>
    have hentry : q.entry = none := by
      by_contra hsome
      exact ha.answers q (by simp [hqs]) hsome hdr rest hhdr hxid
    refine .quiet ?_ rfl (.same rfl rfl) hmode
    rw [calls, calls, hqs]
    simp [made, due, call_of_read hentry hhdr hxid hevt, Upcall.call]
  | deliverNothing hqs hhdr hxid hentry =>
    refine .quiet ?_ rfl (.same rfl rfl) hmode
    rw [calls, calls, hqs]
    simp [due, call_of_xid hhdr hxid]
  | @deliverAnswer q qs hdr rest rest' e r hqs hhdr hentry hread =>
    have hxid := ha.answers q (by simp [hqs]) (by simp [hentry]) hdr rest hhdr
    refine .quiet ?_ rfl (.same rfl rfl) hmode
    rw [calls, calls, hqs]
    simp [made, due, call_of_xid hhdr hxid, Upcall.call]
  | freeOnClose hclose =>
    rw [freeOnClose_eq]
    refine .quiet ?_ rfl (.fewer ?_ rfl) hmode
    · rw [calls, calls]
      simp only [made_append, made_wokenWith, made_authCalls, due_append, due_failedWith, List.append_nil]
    · exact List.Sublist.append_left (List.nil_sublist _) _
  | destroy hfreed hidle =>
    rw [destroy_eq]
    refine .destroyed ?_ rfl (.fewer ?_ rfl) rfl
    · rw [calls, calls]
      simp only [made_append, made_wokenWith, made_authCalls, due_append, due_failedWith, List.append_nil]
    · exact List.Sublist.append_left (List.nil_sublist _) _
  | peer hfd hfree => exact absurd trivial hfree
  | server henabled hgood hstep hserver =>
    rw [step_server hstep hserver]
    exact .same rfl rfl rfl (.same rfl rfl) hmode
  | addAuth | sendAuth | ping | rewind | openSocket | flush | receivePacket | skip | requestClose =>
    exact .same rfl rfl rfl (.same rfl rfl) hmode

end Moves

/-! ## What follows for the watchers -/

/-- The session events are a legal history, up to the state of the handle. -/
def Told [Host] (c : Client) : Prop :=
  ∃ m, SessionMode.down.after ((calls c).filterMap WatcherCall.session) = some m ∧
    (c.destroyed = false → m = c.zh.state.mode)

/-- What was armed is armed, unless it has been taken out to be called. -/
def Kept [Host] (c c' : Client) : Prop :=
  ∃ new, calls c' = calls c ++ new ∧ (c'.destroyed = false → c.destroyed = false ∧
    ∀ t (path : CStr) w, (c.zh.watches t).Has path.bytes w →
      (c'.zh.watches t).Has path.bytes w ∨ ∃ call ∈ new, call.Fires path w ∧
        ∃ type, eventType call.type = some type ∧ t ∈ tablesFor type)

/-- A watcher is called, armed or waiting at most as often as it was asked for. -/
def Counted [Host] (c : Client) : Prop :=
  ∀ (path : CStr) w,
    (calls c).countP (·.Fires path w) + (c.zh.watches.armed path.bytes w).card +
      c.outstanding.countP (·.Asks path w) ≤ c.accepted.countP (·.Asks path w)

section Effects

variable {type : Int32} {path p : Bytes} {zh : WatchTables} {w : WatcherObject} {t : WatchTable}
variable {reg : Option WatcherRegistration} {rc : Int32} {c c' : Client}

/-- An event of a type that is not known moves nothing. -/
theorem watchersFor_eq (htype : type ≠ -1) :
    watchersFor type path zh = moveWatchers path ((eventType type).elim [] tablesFor) ([], zh) := by
  rw [watchersFor]
  cases hevent : eventType type with
  | none => rfl
  | some e =>
    refine if_neg fun he => ?_
    subst he
    unfold eventType at hevent
    rw [if_neg htype] at hevent
    split_ifs at hevent
    all_goals cases hevent

theorem has_activate (h : (zh t).Has p w) : (activate reg rc zh t).Has p w := by
  cases reg with
  | none => exact h
  | some reg => exact has_activateWatcher_of_has h

theorem card_armed_activate {e : CompletionEntry} {path : CStr} :
    ((activate e.watcher rc zh).armed path.bytes w).card ≤
      (zh.armed path.bytes w).card + if e.Asks path w then 1 else 0 := by
  cases hreg : e.watcher with
  | none => exact Nat.le_add_right _ _
  | some reg =>
    unfold activate activateWatcher
    dsimp only
    split
    · exact Nat.le_add_right _ _
    · refine WatchTables.card_armed_insert.trans (Nat.add_le_add_left ?_ _)
      split
      · next heq =>
        have hpath : reg.path = path := CStr.ext heq.1.symm
        rw [if_pos ⟨reg, hreg, hpath, heq.2.symm⟩]
      · exact Nat.zero_le _

theorem Waiting.countP_le (h : Waiting c c') (P : CompletionEntry → Bool) :
    c'.outstanding.countP P + c.accepted.countP P ≤
      c.outstanding.countP P + c'.accepted.countP P := by
  obtain ⟨new, haccepted, hsent⟩ := h
  have hle := hsent.countP_le (p := P)
  rw [List.countP_append] at hle
  rw [haccepted, List.countP_append]
  omega

variable [Host]

theorem Called.told (h : Called c c') (ht : Told c) : Told c' := by
  obtain ⟨m, hlegal, hm⟩ := ht
  cases h with
  | quiet hcalls hwatches hwaiting hmode =>
    exact ⟨m, hcalls ▸ hlegal, fun h => (hmode h).2 ▸ hm (hmode h).1⟩
  | armed hcalls hwatches hsent haccepted hmode =>
    exact ⟨m, hcalls ▸ hlegal, fun h => (hmode h).2 ▸ hm (hmode h).1⟩
  | notice htype hcalls hwatches hwaiting hmode =>
    refine ⟨m, ?_, fun h => (hmode h).2 ▸ hm (hmode h).1⟩
    rw [hcalls, List.filterMap_append, List.filterMap_cons, WatcherCall.session, if_neg htype]
    exact (congrArg _ (List.append_nil _)).trans hlegal
  | destroyed hcalls hwatches hwaiting hgone =>
    exact ⟨m, hcalls ▸ hlegal, fun h => by simp [hgone] at h⟩
  | @session call hcalls htype hwatches hwaiting hlive hnext =>
    refine ⟨c'.zh.state.mode, ?_, fun _ => rfl⟩
    have hnew : [call].filterMap WatcherCall.session = [call.state] := by
      simp [WatcherCall.session, htype]
    rw [SessionMode.after] at hlegal
    rw [hcalls, List.filterMap_append, hnew, SessionMode.after, List.foldlM_append, hlegal, hm hlive]
    simp [hnext]

theorem Called.kept (h : Called c c') : Kept c c' := by
  cases h with
  | quiet hcalls hwatches hwaiting hmode =>
    exact ⟨[], by rw [hcalls, List.append_nil],
      fun hnot => ⟨(hmode hnot).1, fun t path w hw => .inl (hwatches ▸ hw)⟩⟩
  | session hcalls htype hwatches hwaiting hlive hnext =>
    exact ⟨_, hcalls, fun _ => ⟨hlive, fun t path w hw => .inl (hwatches ▸ hw)⟩⟩
  | armed hcalls hwatches hsent haccepted hmode =>
    exact ⟨[], by rw [hcalls, List.append_nil],
      fun hnot => ⟨(hmode hnot).1, fun t path w hw => .inl (hwatches ▸ has_activate hw)⟩⟩
  | destroyed hcalls hwatches hwaiting hgone =>
    exact ⟨[], by rw [hcalls, List.append_nil], fun hnot => by simp [hgone] at hnot⟩
  | @notice type state path htype hcalls hwatches hwaiting hmode =>
    refine ⟨_, hcalls, fun hnot => ⟨(hmode hnot).1, fun t p w hw => ?_⟩⟩
    rw [hwatches, watchersFor_eq htype, has_moveWatchers]
    by_cases hmoved : p.bytes = path.bytes ∧ t ∈ (eventType type).elim [] tablesFor
    · obtain ⟨hp, ht⟩ := hmoved
      obtain rfl : p = path := CStr.ext hp
      refine .inr ⟨_, List.mem_singleton_self _, ⟨htype, rfl, mem_moveWatchers ht hw⟩, ?_⟩
      dsimp only
      cases hevent : eventType type with
      | none =>
        rw [hevent] at ht
        cases ht
      | some e =>
        rw [hevent] at ht
        exact ⟨e, rfl, ht⟩
    · exact .inl ⟨hw, hmoved⟩

theorem Called.counted (h : Called c c') (hc : Counted c) : Counted c' := by
  intro path w
  have hc := hc path w
  cases h with
  | quiet hcalls hwatches hwaiting hmode =>
    have hle := hwaiting.countP_le (·.Asks path w)
    rw [hcalls, hwatches]
    omega
  | destroyed hcalls hwatches hwaiting hgone =>
    have hle := hwaiting.countP_le (·.Asks path w)
    have hnone : (WatchTables.armed (fun _ => ∅) path.bytes w).card = 0 := by
      rw [Finset.card_eq_zero, Finset.eq_empty_iff_forall_notMem]
      intro t ht
      obtain ⟨wl, hwl, -⟩ := WatchTables.mem_armed.mp ht
      cases hwl
    rw [hcalls, hwatches, hnone]
    omega
  | session hcalls htype hwatches hwaiting hlive hnext =>
    have hle := hwaiting.countP_le (·.Asks path w)
    rw [hcalls, hwatches, List.countP_append, List.countP_singleton,
      if_neg (by simp [WatcherCall.Fires, htype])]
    omega
  | @armed e rc hcalls hwatches hsent haccepted hmode =>
    rw [hsent, List.countP_cons] at hc
    have hcard : ((activate e.watcher rc c.zh.watches).armed path.bytes w).card ≤
        (c.zh.watches.armed path.bytes w).card + if e.Asks path w then 1 else 0 := card_armed_activate
    rw [hcalls, hwatches, haccepted]
    simp only [decide_eq_true_eq] at hc
    omega
  | @notice type state path' htype hcalls hwatches hwaiting hmode =>
    have hle := hwaiting.countP_le (·.Asks path w)
    have hcard : ((watchersFor type path'.bytes c.zh.watches).2.armed path.bytes w).card +
        (if path.bytes = path'.bytes ∧ w ∈ (watchersFor type path'.bytes c.zh.watches).1 then 1 else 0) ≤
          (c.zh.watches.armed path.bytes w).card := by
      rw [watchersFor_eq htype]
      exact WatchTables.card_armed_moveWatchers
    rw [hcalls, hwatches, List.countP_append, List.countP_singleton]
    have hfires : (if decide (WatcherCall.Fires ⟨type, state, some path',
        (watchersFor type path'.bytes c.zh.watches).1⟩ path w) = true then 1 else 0) ≤
        if path.bytes = path'.bytes ∧ w ∈ (watchersFor type path'.bytes c.zh.watches).1 then 1 else 0 := by
      split
      · next hf =>
        obtain ⟨-, hp, hw⟩ := of_decide_eq_true hf
        cases hp
        rw [if_pos ⟨rfl, hw⟩]
      · exact Nat.zero_le _
    omega

theorem Kept.refl : Kept c c :=
  ⟨[], (List.append_nil _).symm, fun hnot => ⟨hnot, fun _ _ _ hw => .inl hw⟩⟩

theorem Kept.trans {c'' : Client} (h : Kept c c') (h' : Kept c' c'') : Kept c c'' := by
  obtain ⟨new, hcalls, hkept⟩ := h
  obtain ⟨new', hcalls', hkept'⟩ := h'
  refine ⟨new ++ new', by rw [hcalls', hcalls, List.append_assoc], fun hnot => ?_⟩
  obtain ⟨hnot', hkept'⟩ := hkept' hnot
  obtain ⟨hnot, hkept⟩ := hkept hnot'
  refine ⟨hnot, fun t path w hw => ?_⟩
  obtain hw | ⟨call, hmem, hcall⟩ := hkept t path w hw
  · obtain hw | ⟨call, hmem, hcall⟩ := hkept' t path w hw
    · exact .inl hw
    · exact .inr ⟨call, List.mem_append_right _ hmem, hcall⟩
  · exact .inr ⟨call, List.mem_append_left _ hmem, hcall⟩

end Effects

/-! ## Runs -/

section Runs

variable [Host] {addrsCount : Nat} {recvTimeout : Int32} {clientId : Int64} {passwd : Passwd}
variable {chroot : Option Bytes} {c c' : Client}

omit [Host] in
theorem orderly_initial : Orderly (initial addrsCount recvTimeout clientId passwd chroot) where
  primed := fun h => by cases h
  closed := fun h => by cases h

/-- What `Called` rests on. -/
def Traceable (c : Client) : Prop := Placed c ∧ InTransit c ∧ Orderly c

theorem traceable_initial : Traceable (initial addrsCount recvTimeout clientId passwd chroot) :=
  ⟨placed_initial, inTransit_initial, orderly_initial⟩

theorem Move.traceable (h : Move True c c') (hs : Sane c) (ht : Traceable c) :
    Traceable c' ∧ Called c c' :=
  ⟨⟨h.placed ht.1, h.inTransit hs ht.2.1, h.orderly ht.2.2⟩, h.called ht.1 ht.2.1 ht.2.2⟩

theorem traceable_of_reachable
    (h : (clientSystem True addrsCount recvTimeout clientId passwd chroot).Reachable c) : Traceable c :=
  reachable_of_moves traceable_initial (fun _ _ hs ht hmove => (hmove.traceable hs ht).1) h

/-- The session events that watchers have got follow each other as they should: the session
comes up and goes down in turn, and its end is told once and is the last. Those that are
due continue them, and lead to what the handle is in. -/
theorem session_events_legal
    (h : (clientSystem True addrsCount recvTimeout clientId passwd chroot).Reachable c) :
    ∃ seen m, SessionMode.down.after ((made c.upcalls).filterMap WatcherCall.session) = some seen ∧
      seen.after ((due c.zh.completionsToProcess).filterMap WatcherCall.session) = some m ∧
      (c.destroyed = false → m = c.zh.state.mode) := by
  have hall : Traceable c ∧ Told c := by
    refine reachable_of_moves (P := fun c => Traceable c ∧ Told c) ?_ ?_ h
    · exact ⟨traceable_initial, .down, rfl, fun _ => rfl⟩
    · rintro c c' hs ⟨ht, htold⟩ hmove
      have htraceable := hmove.traceable hs ht
      exact ⟨htraceable.1, htraceable.2.told htold⟩
  obtain ⟨m, hlegal, hm⟩ := hall.2
  rw [calls, List.filterMap_append, SessionMode.after, List.foldlM_append] at hlegal
  obtain ⟨seen, hseen, hrest⟩ := Option.bind_eq_some_iff.mp hlegal
  exact ⟨seen, m, hseen, hrest, hm⟩

/-- A watch that is armed stays armed until an event for its path, of a type for its table,
has it called, or the handle is destroyed. -/
theorem watch_kept_until_called {t : WatchTable} {path : CStr} {w : WatcherObject}
    (h : (clientSystem True addrsCount recvTimeout clientId passwd chroot).Reachable c)
    (harmed : (c.zh.watches t).Has path.bytes w)
    (hsteps : (clientSystem True addrsCount recvTimeout clientId passwd chroot).Steps c c')
    (hnot : c'.destroyed = false) :
    ∃ new, calls c' = calls c ++ new ∧ ((c'.zh.watches t).Has path.bytes w ∨
      ∃ call ∈ new, call.Fires path w ∧ ∃ type, eventType call.type = some type ∧ t ∈ tablesFor type) := by
  have hrel : Traceable c → Traceable c' ∧ Kept c c' := by
    refine steps_of_moves (R := fun c c' => Traceable c → Traceable c' ∧ Kept c c') ?_ ?_ ?_ h hsteps
    · exact fun c _ ht => ⟨ht, Kept.refl⟩
    · intro c c' c'' h₁ h₂ ht
      have h₁ := h₁ ht
      have h₂ := h₂ h₁.1
      exact ⟨h₂.1, h₁.2.trans h₂.2⟩
    · intro c c' hs hmove ht
      have htraceable := hmove.traceable hs ht
      exact ⟨htraceable.1, htraceable.2.kept⟩
  obtain ⟨new, hcalls, hkept⟩ := (hrel (traceable_of_reachable h)).2
  exact ⟨new, hcalls, (hkept hnot).2 t path w harmed⟩

/-- Each request calls its watcher at most once: the calls for a path, made or due, the
tables in which the watcher is armed there, and the requests with it that are not settled
are together no more than the requests for it. -/
theorem watch_called_at_most_once
    (h : (clientSystem True addrsCount recvTimeout clientId passwd chroot).Reachable c) (path : CStr)
    (w : WatcherObject) :
    (calls c).countP (·.Fires path w) + (c.zh.watches.armed path.bytes w).card +
      c.outstanding.countP (·.Asks path w) ≤ c.accepted.countP (·.Asks path w) := by
  have hall : Traceable c ∧ Counted c := by
    refine reachable_of_moves (P := fun c => Traceable c ∧ Counted c) ?_ ?_ h
    · exact ⟨traceable_initial, fun _ _ => Nat.le_refl _⟩
    · rintro c c' hs ⟨ht, hc⟩ hmove
      have htraceable := hmove.traceable hs ht
      exact ⟨htraceable.1, htraceable.2.counted hc⟩
  exact hall.2 path w

/-! ## Examples -/

/-- A request that asks to be told when `/` is there. -/
def existsRequest : CompletionEntry where
  xid := 5
  type := .stat
  sync := true
  data := 0
  buffLen := 0
  watcher := some ⟨.existsResultChecker, rootPath, ⟨.watcher, some 3⟩⟩
  body := .existsOp ⟨some rootPath, 1⟩

/-- The event that `/` is there. -/
def createdEvent : WatcherEvent := ⟨1, 3, some rootPath⟩

omit [Host] in
/-- A watcher has been told that the session is up. That the connection is lost is due. -/
theorem session_events_legal_lost :
    ∃ c : Client, (made c.upcalls).filterMap WatcherCall.session = [3] ∧ c.zh.state = .closed ∧
      ∃ seen m, SessionMode.down.after ((made c.upcalls).filterMap WatcherCall.session) = some seen ∧
        seen.after ((@due littleHost c.zh.completionsToProcess).filterMap WatcherCall.session) = some m ∧
        (c.destroyed = false → m = c.zh.state.mode) := by
  have hinit : (@clientSystem littleHost True 2 10000 0 noPasswd none).Reachable
      (initial 2 10000 0 noPasswd none) := ⟨[], .nil⟩
  have hopen := hinit.step (l := ClientLabel.interest connectEnv)
    ⟨⟨rfl, rfl⟩, fun _ => ⟨Nat.le_refl 4, Nat.le_refl 44⟩⟩ rfl
  have hgreet := hopen.step (l := ClientLabel.serverGreets session7)
    ⟨⟨rfl, rfl, rfl, by decide, rfl⟩, fun _ => trivial⟩ rfl
  have hconnected := hgreet.step (l := ClientLabel.events readEnv)
    ⟨⟨rfl, rfl, rfl⟩, fun _ => ⟨trivial, trivial⟩⟩ rfl
  have hdeliver := hconnected.step (l := ClientLabel.deliver) ⟨⟨rfl, trivial⟩, fun _ => trivial⟩ rfl
  have hlost := hdeliver.step (l := ClientLabel.interest lateEnv)
    ⟨⟨rfl, rfl⟩, fun _ => ⟨trivial, trivial⟩⟩ rfl
  exact ⟨_, rfl, rfl, @session_events_legal littleHost _ _ _ _ _ _ hlost⟩

omit [Host] in
/-- `/` is not there, so the watch is armed. Then it is made, and the watcher is to be told. -/
theorem reachable_watched :
    ∃ c c', (@clientSystem littleHost True 2 10000 0 noPasswd none).Reachable c ∧
      (@clientSystem littleHost True 2 10000 0 noPasswd none).Steps c c' ∧
      (c.zh.watches .activeExistWatchers).Has rootPath.bytes ⟨.watcher, some 3⟩ ∧
      c'.destroyed = false ∧ c'.accepted = [existsRequest] ∧
      c'.zh.completionsToProcess.map (·.watcherResult) = [[⟨.watcher, none⟩], [⟨.watcher, some 3⟩]] := by
  have hinit : (@clientSystem littleHost True 2 10000 0 noPasswd none).Reachable
      (initial 2 10000 0 noPasswd none) := ⟨[], .nil⟩
  have hsubmit := @reachable_submit littleHost _ _ _ _ _ _ _ existsRequest hinit rfl rfl
    (by decide) (fun _ => ⟨⟨rfl, .inr rfl⟩, by decide⟩) (by decide) rfl
  have hopen := hsubmit.step (l := ClientLabel.interest connectEnv)
    ⟨⟨rfl, rfl⟩, fun _ => ⟨Nat.le_refl 4, Nat.le_refl 44⟩⟩ rfl
  have hgreet := hopen.step (l := ClientLabel.serverGreets session7)
    ⟨⟨rfl, rfl, rfl, by decide, rfl⟩, fun _ => trivial⟩ rfl
  have hconnected := hgreet.step (l := ClientLabel.events readEnv)
    ⟨⟨rfl, rfl, rfl⟩, fun _ => ⟨trivial, trivial⟩⟩ rfl
  have hflush := hconnected.step (l := ClientLabel.events writeEnv)
    ⟨⟨rfl, rfl, rfl⟩, fun _ => ⟨trivial, trivial⟩⟩ rfl
  have hread := hflush.step
    (l := ClientLabel.serverReads (wire (requestPacket 5 existsRequest.body)) ⟨5, 3⟩ existsRequest.body)
    ⟨⟨rfl, rfl, rfl, by decide, ⟨[], rfl⟩, rfl⟩, fun _ => trivial⟩ rfl
  have hanswer := hread.step
    (l := ClientLabel.serverAnswers 40 (-101) (.stat ⟨0, 0, 0, 0, 0, 0, 0, 0, 0, 0, 0⟩))
    ⟨⟨rfl, rfl, _, rfl, rfl, trivial, by decide⟩, fun _ => trivial⟩ rfl
  have hreceive := hanswer.step (l := ClientLabel.events readEnv)
    ⟨⟨rfl, rfl, rfl⟩, fun _ => ⟨trivial, trivial⟩⟩ rfl
  have htake := hreceive.step (l := ClientLabel.process []) ⟨⟨rfl, rfl⟩, fun _ => trivial⟩ rfl
  have harmed := htake.step (l := ClientLabel.settle) ⟨⟨rfl, nofun⟩, fun _ => trivial⟩ rfl
  have htype : createdEvent.type ≠ -1 := by decide
  refine ⟨_, _, harmed, .tail (.tail (.tail .refl (l := ClientLabel.serverNotifies ⟨-1, -1, 0⟩ createdEvent)
    ⟨⟨rfl, rfl, rfl, by decide, rfl, by decide⟩, fun _ => htype⟩ rfl)
    (l := ClientLabel.events readEnv) ⟨⟨rfl, rfl, rfl⟩, fun _ => ⟨trivial, trivial⟩⟩ rfl)
    (l := ClientLabel.process []) ⟨⟨rfl, rfl⟩, fun _ => trivial⟩ rfl,
    ⟨[⟨.watcher, some 3⟩], rfl, List.mem_singleton_self _⟩, rfl, rfl, rfl⟩

omit [Host] in
/-- The watcher of `/` is to be told. -/
theorem watch_kept_until_called_created :
    ∃ c c' : Client, c'.accepted = [existsRequest] ∧ ∃ new,
      @calls littleHost c' = @calls littleHost c ++ new ∧
        ((c'.zh.watches .activeExistWatchers).Has rootPath.bytes ⟨.watcher, some 3⟩ ∨
          ∃ call ∈ new, call.Fires rootPath ⟨.watcher, some 3⟩ ∧
            ∃ type, eventType call.type = some type ∧ .activeExistWatchers ∈ tablesFor type) := by
  obtain ⟨c, c', hc, hsteps, harmed, hnot, haccepted, -⟩ := reachable_watched
  exact ⟨c, c', haccepted,
    @watch_kept_until_called littleHost _ _ _ _ _ _ _ _ _ _ hc harmed hsteps hnot⟩

omit [Host] in
/-- The watcher has been called for the only request. -/
theorem watch_called_at_most_once_created :
    ∃ c : Client, c.accepted = [existsRequest] ∧
      (@calls littleHost c).countP (·.Fires rootPath ⟨.watcher, some 3⟩) +
        (c.zh.watches.armed rootPath.bytes ⟨.watcher, some 3⟩).card +
          c.outstanding.countP (·.Asks rootPath ⟨.watcher, some 3⟩) ≤
            c.accepted.countP (·.Asks rootPath ⟨.watcher, some 3⟩) := by
  obtain ⟨_, c, hc, hsteps, -, -, haccepted, -⟩ := reachable_watched
  exact ⟨c, haccepted, @watch_called_at_most_once littleHost _ _ _ _ _ _ (hc.steps hsteps) rootPath _⟩

end Runs

end Client

end QtZooKeeper
