-- SUMMARY: Every request the client takes is answered once, in its turn; closing leaves nobody waiting.
import QtZooKeeper.Client.Invariants

/-!
# What becomes of requests

The calls that `add_completion` took are split by the queues of the handle. A call with a
callback waits for its answer, then for the completion thread, and then its callback has
been called. A call that blocks waits for its answer, and then it has been woken. `Placed`
says that nothing is in two places and nothing is gone, whatever the other end sends and
however often the connection is lost. Until `zookeeper_close` fails what is left, the
places are in the order in which the requests were made; what the IO thread has taken
may then come behind the requests that were made after it.
-/

namespace QtZooKeeper

namespace Client

/-! ## Where a request is -/

/-- The requests whose callbacks have been called. -/
def completed (log : List Upcall) : List CompletionEntry :=
  log.filterMap fun
    | .completed e _ => some e
    | _ => none

/-- The requests whose threads have been woken. -/
def woken (log : List Upcall) : List CompletionEntry :=
  log.filterMap fun
    | .woken e _ => some e
    | _ => none

/-- What was given with the authentications whose callbacks have been called. -/
def authenticated (log : List Upcall) : List Nat :=
  log.filterMap fun
    | .authenticated _ data => some data
    | _ => none

/-- What was given with the authentications whose callbacks are to be called. -/
def expected (auths : List AuthInfo) : List Nat := (auths.filter (·.completion)).map (·.data)

/-- The requests that wait for the completion thread. -/
def ready (q : List QueuedCompletion) : List CompletionEntry := q.filterMap (·.entry)

/-- The requests with a callback. -/
def async (es : List CompletionEntry) : List CompletionEntry := es.filter (!·.sync)

/-- The requests of threads that wait. -/
def sync (es : List CompletionEntry) : List CompletionEntry := es.filter (·.sync)

/-- Nothing that waits for the completion thread looks like a notification. -/
def Answers [Host] (q : QueuedCompletion) : Prop :=
  q.entry ≠ none → ∀ hdr rest, deserializeReplyHeader q.buffer = (.ok hdr, rest) →
    hdr.xid ≠ watcherEventXid

/-- Where the requests with a callback are. -/
def asyncPlaces (c : Client) : List CompletionEntry :=
  completed c.upcalls ++ ready c.zh.completionsToProcess ++ async c.outstanding

/-- Where the requests of threads that wait are. -/
def syncPlaces (c : Client) : List CompletionEntry := woken c.upcalls ++ sync c.outstanding

/-- Every call is in one place. -/
structure Placed [Host] (c : Client) : Prop where
  async_perm : (async c.accepted).Perm c.asyncPlaces
  sync_perm : (sync c.accepted).Perm c.syncPlaces
  in_order : c.freed = false → async c.accepted = c.asyncPlaces ∧ sync c.accepted = c.syncPlaces
  auth_eq : expected c.added = authenticated c.upcalls ++ expected c.zh.auths
  xid_ne : ∀ e ∈ c.outstanding, e.xid ≠ watcherEventXid
  answers : ∀ q ∈ c.zh.completionsToProcess, Answers q
  taken : ∀ a ∈ c.taken, Answers ⟨some a.cptr, a.bptr, []⟩
  ended : c.freed = true → c.zh.closeRequested = true ∧ c.zh.sentRequests = []

section Lists

variable {es fs : List CompletionEntry} {log log' : List Upcall} {reason : Int32} {auths : List AuthInfo}
variable {qs qs' : List QueuedCompletion}

@[simp] theorem completed_append : completed (log ++ log') = completed log ++ completed log' :=
  List.filterMap_append

@[simp] theorem woken_append : woken (log ++ log') = woken log ++ woken log' :=
  List.filterMap_append

@[simp] theorem authenticated_append :
    authenticated (log ++ log') = authenticated log ++ authenticated log' :=
  List.filterMap_append

@[simp] theorem ready_append : ready (qs ++ qs') = ready qs ++ ready qs' :=
  List.filterMap_append

@[simp] theorem async_append : async (es ++ fs) = async es ++ async fs := List.filter_append ..

@[simp] theorem sync_append : sync (es ++ fs) = sync es ++ sync fs := List.filter_append ..

@[simp] theorem completed_wokenWith : completed (wokenWith reason es) = [] := by
  simp [completed, wokenWith]

@[simp] theorem woken_wokenWith : woken (wokenWith reason es) = sync es := by
  simp [woken, wokenWith, sync, List.filterMap_map]

@[simp] theorem authenticated_wokenWith : authenticated (wokenWith reason es) = [] := by
  simp [authenticated, wokenWith]

@[simp] theorem completed_authCalls : completed (authCalls reason auths) = [] := by
  simp [completed, authCalls]

@[simp] theorem woken_authCalls : woken (authCalls reason auths) = [] := by
  simp [woken, authCalls]

@[simp] theorem authenticated_authCalls : authenticated (authCalls reason auths) = expected auths := by
  simp [authenticated, authCalls, expected, List.filterMap_map]

@[simp] theorem ready_failedWith : ready (failedWith reason es) = async es := by
  simp [ready, failedWith, async, List.filterMap_map]

@[simp] theorem expected_called : expected (auths.map ({ · with completion := false })) = [] := by
  simp [expected, List.filter_map, Function.comp_def]

theorem expected_active : expected (auths.map ({ · with active := true })) = expected auths := by
  simp [expected, List.filter_map, Function.comp_def]

theorem ready_eq_nil (h : ∀ q ∈ qs, q.entry = none) : ready qs = [] := List.filterMap_eq_nil_iff.mpr h

theorem entry_of_lossEvents {zh : Zhandle} : ∀ q ∈ lossEvents zh, q.entry = none := by
  rw [lossEvents]
  split
  · simp
  · split <;> simp

end Lists

/-! ## Moves -/

section Moves

variable [Host] {ordered : Prop} {c c' : Client} {e : CompletionEntry} {reason : Int32}

/-- A made up answer has the number of its request. -/
theorem answers_fakeResponse (h : e.xid ≠ watcherEventXid) :
    Answers ⟨some e, fakeResponse e.xid reason, []⟩ := by
  intro _ hdr rest hread
  have hheader : (Except.ok ⟨e.xid, -1, reason⟩, []) = (Except.ok hdr, rest) :=
    (decodes_replyHeader (v := ⟨e.xid, -1, reason⟩)).eq_nil.symm.trans hread
  cases hheader
  exact h

/-- The header of a packet is the header that was read with something behind the packet. -/
theorem answers_packet {packet rest : Bytes} {toProcess : List Bytes} {hdr : ReplyHeader}
    (hfirst : c.FirstPacket packet toProcess hdr rest) (hxid : hdr.xid ∉ reservedXids) :
    Answers ⟨some e, packet, []⟩ := by
  obtain ⟨-, behind, hhdr⟩ := hfirst
  intro _ hdr' rest' hread
  have hheader : (Except.ok hdr, rest) = (Except.ok hdr', rest' ++ behind) :=
    hhdr.symm.trans (stable_replyHeader hread behind)
  cases hheader
  rintro hevent
  simp [reservedXids, hevent] at hxid

omit [Host] in
theorem expected_append {auths auths' : List AuthInfo} :
    expected (auths ++ auths') = expected auths ++ expected auths' := by
  rw [expected, List.filter_append, List.map_append]
  rfl

/-- The places are the same, and so are the calls. -/
theorem Placed.of_places (ha : Placed c) (hasync : c'.asyncPlaces = c.asyncPlaces)
    (hsync : c'.syncPlaces = c.syncPlaces) (haccepted : c'.accepted = c.accepted)
    (hfreed : c'.freed = c.freed)
    (hauth : expected c'.added = authenticated c'.upcalls ++ expected c'.zh.auths)
    (hxid : ∀ e ∈ c'.outstanding, e ∈ c.outstanding)
    (hanswers : ∀ q ∈ c'.zh.completionsToProcess, Answers q)
    (htaken : ∀ a ∈ c'.taken, Answers ⟨some a.cptr, a.bptr, []⟩)
    (hended : c'.freed = true → c'.zh.closeRequested = true ∧ c'.zh.sentRequests = []) :
    Placed c' where
  async_perm := by rw [hasync, haccepted]; exact ha.async_perm
  sync_perm := by rw [hsync, haccepted]; exact ha.sync_perm
  in_order := by rw [hfreed, hasync, hsync, haccepted]; exact ha.in_order
  auth_eq := hauth
  xid_ne := fun e he => ha.xid_ne e (hxid e he)
  answers := hanswers
  taken := htaken
  ended := hended

/-- Made up answers are put behind what is to be processed. -/
theorem answers_failedWith {qs events : List QueuedCompletion} {es : List CompletionEntry}
    (hqs : ∀ q ∈ qs, Answers q) (hevents : ∀ q ∈ events, q.entry = none)
    (hes : ∀ e ∈ es, e.xid ≠ watcherEventXid) :
    ∀ q ∈ qs ++ events ++ failedWith reason es, Answers q := by
  intro q hq
  rw [List.mem_append, List.mem_append] at hq
  obtain (hq | hq) | hq := hq
  · exact hqs q hq
  · exact fun h => absurd (hevents q hq) h
  · obtain ⟨e, he, rfl⟩ := List.mem_map.mp hq
    exact answers_fakeResponse (hes e (List.mem_of_mem_filter he))

/-- All that is outstanding is woken or fails. -/
theorem Placed.failed (ha : Placed c) {events : List QueuedCompletion}
    (hevents : ∀ q ∈ events, q.entry = none)
    (hup : c'.upcalls = c.upcalls ++ wokenWith reason c.outstanding ++ authCalls reason c.zh.auths)
    (haccepted : c'.accepted = c.accepted) (hadded : c'.added = c.added)
    (hidle : c'.taken = none) (hsent : c'.zh.sentRequests = [])
    (hready : c'.zh.completionsToProcess = c.zh.completionsToProcess ++ events ++
      failedWith reason c.outstanding)
    (hauths : expected c'.zh.auths = []) (hfreed : c'.freed = c.freed)
    (hclose : c'.freed = true → c'.zh.closeRequested = true) : Placed c' := by
  have hnone : c'.outstanding = [] := by rw [outstanding, hidle, hsent]; rfl
  have hasync : async [] = [] := rfl
  have hsync : sync [] = [] := rfl
  refine ha.of_places ?_ ?_ haccepted hfreed ?_ (by simp [hnone]) ?_ (by simp [hidle])
    fun h => ⟨hclose h, hsent⟩
  · simp [asyncPlaces, hnone, hup, hready, ready_eq_nil hevents, hasync]
  · simp [syncPlaces, hnone, hup, hsync]
  · simp [hup, hadded, hauths, ha.auth_eq]
  · rw [hready]
    exact answers_failedWith ha.answers hevents ha.xid_ne

/-- All that waits in the list is woken or fails, and what is taken is settled behind it. -/
theorem Placed.freed (ha : Placed c) (hclose : c.zh.closeRequested = true) :
    Placed (freeOnClose c) := by
  have hsplit : ∀ P : CompletionEntry → Bool, c.outstanding.filter P =
      (c.taken.map (·.cptr)).toList.filter P ++ c.zh.sentRequests.filter P :=
    fun P => List.filter_append ..
  rw [freeOnClose_eq]
  refine
    { async_perm := ha.async_perm.trans ?_
      sync_perm := ha.sync_perm.trans ?_
      in_order := fun h => by cases h
      auth_eq := ?_
      xid_ne := fun e he => ha.xid_ne e ?_
      answers := ?_
      taken := ha.taken
      ended := fun _ => ⟨hclose, rfl⟩ }
  · simp only [asyncPlaces, completed_append, completed_wokenWith, completed_authCalls,
      List.append_nil, ready_append, ready_failedWith, List.append_assoc]
    refine (List.Perm.append_left _ (List.Perm.append_left _ ?_))
    rw [async, hsplit, async, outstanding, List.append_nil]
    exact List.perm_append_comm
  · simp only [syncPlaces, woken_append, woken_wokenWith, woken_authCalls, List.append_nil,
      List.append_assoc]
    refine List.Perm.append_left _ ?_
    rw [sync, hsplit, sync, outstanding, List.append_nil]
    exact List.perm_append_comm
  · simp [ha.auth_eq]
  · rw [outstanding, List.append_nil] at he
    exact List.mem_append_left _ he
  · have hxid : ∀ e ∈ c.zh.sentRequests, e.xid ≠ watcherEventXid :=
      fun e he => ha.xid_ne e (List.mem_append_right _ he)
    have hall : ∀ q ∈ c.zh.completionsToProcess ++ [] ++
        failedWith (ZooKeeperError.toInt32 .closure) c.zh.sentRequests, Answers q :=
      answers_failedWith ha.answers (List.forall_mem_nil _) hxid
    rwa [List.append_nil] at hall

/-- A notification waits for the completion thread, and everything else is as it was. -/
theorem Placed.notify (ha : Placed c) (buffer : Bytes) (list : WatcherList) :
    Placed { c with zh.completionsToProcess :=
      c.zh.completionsToProcess ++ [⟨none, buffer, list⟩] } := by
  refine ha.of_places ?_ rfl rfl rfl ha.auth_eq (fun _ => id) ?_ ha.taken ha.ended
  · have hready : ready [⟨none, buffer, list⟩] = [] := rfl
    simp only [asyncPlaces, ready_append, hready, List.append_nil]
    rfl
  · refine List.forall_mem_append.mpr ⟨ha.answers, List.forall_mem_singleton.mpr ?_⟩
    exact fun h => absurd rfl h

/-- The completion thread takes the first of its queue. -/
theorem Placed.pop (ha : Placed c) {q : QueuedCompletion} {qs : List QueuedCompletion}
    (log : List Upcall) (hqs : c.zh.completionsToProcess = q :: qs)
    (hcompleted : completed log = q.entry.toList) (hwoken : woken log = [])
    (hauth : authenticated log = []) :
    Placed { c with zh.completionsToProcess := qs, upcalls := c.upcalls ++ log } := by
  refine ha.of_places ?_ ?_ rfl rfl ?_ (fun _ => id) ?_ ha.taken ha.ended
  · have hready : ready (q :: qs) = q.entry.toList ++ ready qs := by
      cases hentry : q.entry <;> simp [ready, hentry]
    simp only [asyncPlaces, completed_append, hcompleted, hqs, hready, List.append_assoc]
    rfl
  · simp only [syncPlaces, woken_append, hwoken, List.append_nil]
    rfl
  · simp only [authenticated_append, hauth, List.append_nil]
    exact ha.auth_eq
  · exact fun q hq => ha.answers q (by rw [hqs]; exact List.mem_cons_of_mem _ hq)

/-- All callbacks of authentications are called. -/
theorem Placed.callAuth (ha : Placed c) (rc : Int32) : Placed (callAuthCompletions rc c) := by
  refine ha.of_places ?_ ?_ rfl rfl ?_ (fun _ => id) ha.answers ha.taken ha.ended
  · have hcalls : completed (authCalls rc c.zh.auths) = [] := completed_authCalls
    change completed (c.upcalls ++ authCalls rc c.zh.auths) ++ _ ++ _ = _
    rw [completed_append, hcalls, List.append_nil]
    rfl
  · have hcalls : woken (authCalls rc c.zh.auths) = [] := woken_authCalls
    change woken (c.upcalls ++ authCalls rc c.zh.auths) ++ _ = _
    rw [woken_append, hcalls, List.append_nil]
    rfl
  · change _ = authenticated (c.upcalls ++ authCalls rc c.zh.auths) ++
      expected (c.zh.auths.map ({ · with completion := false }))
    rw [authenticated_append, authenticated_authCalls, expected_called, List.append_nil]
    exact ha.auth_eq

/-- The request that waits first is taken. -/
theorem Placed.take (ha : Placed c) {a : TakenCompletion} {sent : List CompletionEntry}
    (hidle : c.taken = none) (hsent : c.zh.sentRequests = a.cptr :: sent)
    (hanswers : Answers ⟨some a.cptr, a.bptr, []⟩) :
    Placed { c with zh.sentRequests := sent, taken := some a } := by
  have hsame : outstanding { c with zh.sentRequests := sent, taken := some a } = c.outstanding :=
    outstanding_take hidle rfl hsent
  refine ha.of_places ?_ ?_ rfl rfl ha.auth_eq (fun _ he => hsame ▸ he) ha.answers ?_ ?_
  · rw [asyncPlaces, hsame]
    rfl
  · rw [syncPlaces, hsame]
    rfl
  · simpa using hanswers
  · intro h
    have hnil := (ha.ended h).2
    rw [hsent] at hnil
    cases hnil

/-- The thread that waits for what is taken is woken. -/
theorem Placed.wake (ha : Placed c) {a : TakenCompletion} (r : Response) (htaken : c.taken = some a)
    (hsync : a.cptr.sync = true) :
    Placed { c with taken := none, upcalls := c.upcalls ++ [.woken a.cptr r] } := by
  have hfilter : sync c.outstanding = a.cptr :: sync c.zh.sentRequests := by
    rw [outstanding_of_taken htaken]
    exact List.filter_cons_of_pos hsync
  have hother : async c.outstanding = async c.zh.sentRequests := by
    rw [outstanding_of_taken htaken]
    exact List.filter_cons_of_neg (by simp [hsync])
  refine ha.of_places ?_ ?_ rfl rfl ?_ ?_ ha.answers (by simp) ha.ended
  · have hlog : completed [.woken a.cptr r] = [] := rfl
    rw [asyncPlaces, asyncPlaces, hother, completed_append, hlog, List.append_nil]
    rfl
  · have hlog : woken [.woken a.cptr r] = [a.cptr] := rfl
    rw [syncPlaces, syncPlaces, hfilter, woken_append, hlog, List.append_assoc]
    rfl
  · have hlog : authenticated [.woken a.cptr r] = [] := rfl
    rw [authenticated_append, hlog, List.append_nil]
    exact ha.auth_eq
  · intro e he
    rw [outstanding_of_taken htaken]
    exact List.mem_cons_of_mem _ he

/-- The answer to what is taken waits for the completion thread. -/
theorem Placed.enqueue (ha : Placed c) {a : TakenCompletion} (htaken : c.taken = some a)
    (hsync : a.cptr.sync = false) :
    Placed
      { c with
        taken := none
        zh.completionsToProcess := c.zh.completionsToProcess ++ [⟨some a.cptr, a.bptr, []⟩] } := by
  have hfilter : async c.outstanding = a.cptr :: async c.zh.sentRequests := by
    rw [outstanding_of_taken htaken]
    exact List.filter_cons_of_pos (by simp [hsync])
  have hother : sync c.outstanding = sync c.zh.sentRequests := by
    rw [outstanding_of_taken htaken]
    exact List.filter_cons_of_neg (by simp [hsync])
  refine ha.of_places ?_ ?_ rfl rfl ha.auth_eq ?_ ?_ (by simp) ha.ended
  · have hready : ready [⟨some a.cptr, a.bptr, []⟩] = [a.cptr] := rfl
    rw [asyncPlaces, asyncPlaces, hfilter, ready_append, hready]
    simp only [List.append_assoc, List.singleton_append]
    rfl
  · rw [syncPlaces, syncPlaces, hother]
    rfl
  · intro e he
    rw [outstanding_of_taken htaken]
    exact List.mem_cons_of_mem _ he
  · exact List.forall_mem_append.mpr ⟨ha.answers,
      List.forall_mem_singleton.mpr (ha.taken a htaken)⟩

/-- A request is taken in. -/
theorem Placed.accept (ha : Placed c) (hopen : c.zh.closeRequested = false)
    (hxid : e.xid ≠ watcherEventXid) :
    Placed { c with zh.sentRequests := c.zh.sentRequests ++ [e], accepted := c.accepted ++ [e] } := by
  have hmore : outstanding
      { c with zh.sentRequests := c.zh.sentRequests ++ [e], accepted := c.accepted ++ [e] } =
        c.outstanding ++ [e] := (List.append_assoc ..).symm
  have hasync : asyncPlaces
      { c with zh.sentRequests := c.zh.sentRequests ++ [e], accepted := c.accepted ++ [e] } =
        c.asyncPlaces ++ async [e] := by
    rw [asyncPlaces, hmore, async_append, ← List.append_assoc]
    rfl
  have hsync : syncPlaces
      { c with zh.sentRequests := c.zh.sentRequests ++ [e], accepted := c.accepted ++ [e] } =
        c.syncPlaces ++ sync [e] := by
    rw [syncPlaces, hmore, sync_append, ← List.append_assoc]
    rfl
  refine
    { async_perm := ?_
      sync_perm := ?_
      in_order := fun hnot => ?_
      auth_eq := ha.auth_eq
      xid_ne := ?_
      answers := ha.answers
      taken := ha.taken
      ended := fun h => ?_ }
  · rw [hasync, async_append]
    exact ha.async_perm.append_right _
  · rw [hsync, sync_append]
    exact ha.sync_perm.append_right _
  · rw [hasync, hsync, async_append, sync_append, (ha.in_order hnot).1, (ha.in_order hnot).2]
    exact ⟨rfl, rfl⟩
  · rw [hmore]
    exact List.forall_mem_append.mpr ⟨ha.xid_ne, List.forall_mem_singleton.mpr hxid⟩
  · have hclose := (ha.ended h).1
    simp [hopen] at hclose

theorem Move.placed (h : Move ordered c c') (ha : Placed c) : Placed c' := by
  cases h with
  | @accept e packet hopen htype hxid hpacket hgood =>
    rw [addCompletion, if_neg (by simp [hopen])]
    exact { ha.accept hopen hxid with }
  | addAuth => exact { ha with auth_eq := by simp only [expected_append, ha.auth_eq, List.append_assoc] }
  | sendAuth hmem hlive hpacket hhead => exact { ha with }
  | ping hlive hidle => exact { ha with }
  | @reset c₁ rc hdisturbed hfd hrun hstate hprimer hrc =>
    rw [hdisturbed, handleError_eq]
    exact ha.failed entry_of_lossEvents rfl rfl rfl rfl rfl rfl expected_called rfl
      fun h => (ha.ended h).1
  | rewind hfd hrun hindex => exact { ha with }
  | openSocket hfd hindex hrun halive => exact { ha with }
  | connecting hfd hrun hstate => exact { ha with }
  | prime hfd hrun hstate hwhole => exact { ha with }
  | flush hlive => exact { ha with }
  | @receive r₁ r₂ b down hfd hrun hrecv =>
    cases hib : c.zh.inputBuffer with
    | primer =>
      rw [setInBuffer_primer hib]
      exact { ha with }
    | null | packet b' =>
      rw [setInBuffer_packet (by simp [hib])]
      exact { ha with }
  | receivePacket hfd hrun hrecv hinput => exact { ha with }
  | @handshake r₁ r₂ b down auths watches hfd hrun hrecv hinput hid hauths hwatches =>
    exact { ha.notify (sessionEvent .connected) (collectWatchers .sessionEvent [] c.zh.watches).1 with }
  | skip hfirst hxid => exact { ha with }
  | @event packet rest rest' toProcess hdr evt path hfirst hxid hevt hpath =>
    exact { ha.notify packet (watchersFor evt.type path.bytes c.zh.watches).1 with }
  | @authAnswer packet rest toProcess hdr hfirst hxid hauths =>
    split
    · have hactive : Placed (markActiveAuth c) :=
        { ha with
          auth_eq := by
            change _ = _ ++ expected (c.zh.auths.map ({ · with active := true }))
            rw [expected_active]
            exact ha.auth_eq }
      exact { hactive.callAuth hdr.err with }
    · exact { ha.callAuth hdr.err with }
  | take hidle hfirst hxid hsent => exact { ha.take hidle hsent (answers_packet hfirst hxid) with }
  | answerAsync htaken heq hsync => exact { ha.enqueue htaken hsync with }
  | @answerSync a r halive htaken heq hsync hread => exact { ha.wake r htaken hsync with }
  | @deliverEvent q qs hdr rest rest' evt hqs hhdr hxid hevt =>
    have hentry : q.entry = none := by
      by_contra hsome
      exact ha.answers q (by simp [hqs]) hsome hdr rest hhdr hxid
    exact ha.pop _ hqs (by rw [hentry]; rfl) rfl rfl
  | deliverNothing hqs hhdr hxid hentry =>
    have hpop := ha.pop [] hqs (by rw [hentry]; rfl) rfl rfl
    rw [List.append_nil] at hpop
    exact hpop
  | deliverAnswer hqs hhdr hentry hread => exact ha.pop _ hqs (by rw [hentry]; rfl) rfl rfl
  | requestClose => exact { ha with ended := fun h => ⟨rfl, (ha.ended h).2⟩ }
  | freeOnClose hclose => exact ha.freed hclose
  | destroy hfreed hidle =>
    rw [destroy_eq]
    exact ha.failed (List.forall_mem_nil _) (by rw [outstanding_of_idle hidle]) rfl rfl hidle rfl
      (by simp [outstanding_of_idle hidle]) rfl rfl fun h => (ha.ended h).1
  | peer hfd hfree => exact { ha with }
  | server henabled hgood hstep hserver =>
    rw [step_server hstep hserver]
    exact { ha with }

end Moves

/-! ## Runs -/

section Runs

/-- The password of a new session. -/
def noPasswd : Passwd := ⟨List.replicate 16 0, rfl⟩

/-- The path `/`. -/
def rootPath : CStr := ⟨[47], by decide, by decide⟩

/-- A request for `/`. -/
def syncRequest (xid : Int32) (sync : Bool) : CompletionEntry where
  xid
  type := .string
  sync
  data := 0
  buffLen := 0
  watcher := none
  body := .syncOp ⟨some rootPath⟩

variable [Host] {ordered : Prop} {addrsCount : Nat} {recvTimeout : Int32} {clientId : Int64}
variable {passwd : Passwd} {chroot : Option Bytes} {c : Client}

/-- An authentication with a callback. -/
def digestAuth : AuthInfo where
  active := false
  scheme := ⟨[100, 105, 103, 101, 115, 116], by decide, by decide⟩
  auth := some ⟨[97, 58, 98], by decide⟩
  completion := true
  data := 3

/-- Another one, without a password. -/
def worldAuth : AuthInfo where
  active := false
  scheme := ⟨[119, 111, 114, 108, 100], by decide, by decide⟩
  auth := none
  completion := true
  data := 4

/-- There is no socket. -/
def noSocket : InterestEnv := ⟨false, .failed, .error .other, .error .other, false, false⟩

/-- A request is taken, the connection fails, and another one is taken. -/
def lostRun (sync : Bool) : Client :=
  let submit (e : CompletionEntry) (c : Client) : Client :=
    queueBufferBytes (wire (requestPacket e.xid e.body)) (addCompletion e c).2
  submit (syncRequest 6 sync)
    (@zookeeperInterest littleHost noSocket
      (submit (syncRequest 5 sync) (initial 2 10000 0 noPasswd none))).2

omit [Host] in
theorem reachable_lostRun (sync : Bool) :
    (@clientSystem littleHost True 2 10000 0 noPasswd none).Reachable (lostRun sync) := by
  have hxid : (5 : Int32) ∉ reservedXids ∧ (6 : Int32) ∉ reservedXids := by decide
  have hne : (5 : Int32) ≠ watcherEventXid ∧ (6 : Int32) ≠ watcherEventXid := by decide
  have hlen (xid : Int32) :
      (wire (requestPacket xid (syncRequest xid sync).body)).length ≤ 2 ^ 29 := by
    change 13 ≤ 2 ^ 29
    decide
  have hinit : (@clientSystem littleHost True 2 10000 0 noPasswd none).Reachable
      (initial 2 10000 0 noPasswd none) := ⟨[], .nil⟩
  have hsubmit := @reachable_submit littleHost _ _ _ _ _ _ _ (syncRequest 5 sync) hinit rfl rfl
    hne.1 (fun _ => ⟨rfl, hxid.1⟩) (hlen 5) rfl
  have hlost := hsubmit.step (l := ClientLabel.interest noSocket) ⟨⟨rfl, rfl⟩,
    fun _ => ⟨trivial, trivial⟩⟩ rfl
  exact @reachable_submit littleHost _ _ _ _ _ _ _ (syncRequest 6 sync) hlost
    (by cases sync <;> rfl) rfl hne.2 (fun _ => ⟨rfl, hxid.2⟩) (hlen 6) (by cases sync <;> rfl)

theorem placed_initial : Placed (initial addrsCount recvTimeout clientId passwd chroot) where
  async_perm := .refl _
  sync_perm := .refl _
  in_order := fun _ => ⟨rfl, rfl⟩
  auth_eq := rfl
  xid_ne := List.forall_mem_nil _
  answers := List.forall_mem_nil _
  taken := fun a ha => by cases ha
  ended := fun h => by cases h

theorem placed_of_reachable
    (h : (clientSystem ordered addrsCount recvTimeout clientId passwd chroot).Reachable c) : Placed c :=
  reachable_of_moves placed_initial (fun _ _ _ ha hmove => hmove.placed ha) h

/-- Every request with a callback is called back once: what has been called, what waits for
the completion thread, what the IO thread has taken and what waits for an answer are the
requests that were taken in. Until `zookeeper_close` fails what is left, they are in the
order of the requests. -/
theorem callbacks_in_order
    (h : (clientSystem ordered addrsCount recvTimeout clientId passwd chroot).Reachable c) :
    (async c.accepted).Perm
        (completed c.upcalls ++ ready c.zh.completionsToProcess ++ async c.outstanding) ∧
      (c.freed = false → async c.accepted =
        completed c.upcalls ++ ready c.zh.completionsToProcess ++ async c.outstanding) := by
  have ha := placed_of_reachable h
  exact ⟨ha.async_perm, fun hnot => (ha.in_order hnot).1⟩

omit [Host] in
/-- The first request is lost with the connection, the second one waits. -/
theorem callbacks_in_order_lost :
    (async [syncRequest 5 false, syncRequest 6 false]).Perm
        (completed [] ++ ready [⟨some (syncRequest 5 false), fakeResponse 5 (-1), []⟩] ++
          async [syncRequest 6 false]) ∧
      (false = false → async [syncRequest 5 false, syncRequest 6 false] =
        completed [] ++ ready [⟨some (syncRequest 5 false), fakeResponse 5 (-1), []⟩] ++
          async [syncRequest 6 false]) :=
  @callbacks_in_order littleHost True 2 10000 0 noPasswd none (lostRun false) (reachable_lostRun false)

/-- Every thread that waits for an answer is woken once: those that have been woken and
those that the IO thread has taken or whose requests wait for an answer are all that ever
waited. Until `zookeeper_close` fails what is left, they are in the order of the requests. -/
theorem threads_woken_in_order
    (h : (clientSystem ordered addrsCount recvTimeout clientId passwd chroot).Reachable c) :
    (sync c.accepted).Perm (woken c.upcalls ++ sync c.outstanding) ∧
      (c.freed = false → sync c.accepted = woken c.upcalls ++ sync c.outstanding) := by
  have ha := placed_of_reachable h
  exact ⟨ha.sync_perm, fun hnot => (ha.in_order hnot).2⟩

omit [Host] in
/-- The thread of the first request has been woken, the second one waits. -/
theorem threads_woken_in_order_lost :
    (sync [syncRequest 5 true, syncRequest 6 true]).Perm
        (woken [.woken (syncRequest 5 true) ⟨-1, none⟩] ++ sync [syncRequest 6 true]) ∧
      (false = false → sync [syncRequest 5 true, syncRequest 6 true] =
        woken [.woken (syncRequest 5 true) ⟨-1, none⟩] ++ sync [syncRequest 6 true]) :=
  @threads_woken_in_order littleHost True 2 10000 0 noPasswd none (lostRun true) (reachable_lostRun true)

/-- When the IO thread has nothing to settle any more, as when `zookeeper_close` has joined
it, no thread waits and none will: all that ever waited have been woken, each once. -/
theorem close_wakes_all
    (h : (clientSystem ordered addrsCount recvTimeout clientId passwd chroot).Reachable c)
    (hfreed : c.freed = true) (hidle : c.taken = none) :
    (woken c.upcalls).Perm (sync c.accepted) ∧ c.zh.sentRequests = [] ∧
      (async c.accepted).Perm (completed c.upcalls ++ ready c.zh.completionsToProcess) := by
  have ha := placed_of_reachable h
  have hsent := (ha.ended hfreed).2
  have hnone : c.outstanding = [] := by rw [outstanding_of_idle hidle, hsent]
  have hsync : c.syncPlaces = woken c.upcalls := by
    rw [syncPlaces, hnone]
    exact List.append_nil _
  have hasync : c.asyncPlaces = completed c.upcalls ++ ready c.zh.completionsToProcess := by
    rw [asyncPlaces, hnone]
    exact List.append_nil _
  exact ⟨hsync ▸ ha.sync_perm.symm, hsent, hasync ▸ ha.async_perm⟩

omit [Host] in
/-- The first request was lost, the second one is given up. -/
theorem close_wakes_all_two :
    (woken [.woken (syncRequest 5 true) ⟨-1, none⟩, .woken (syncRequest 6 true) ⟨-116, none⟩]).Perm
        (sync [syncRequest 5 true, syncRequest 6 true]) ∧
      ([] : List CompletionEntry) = [] ∧
      (async [syncRequest 5 true, syncRequest 6 true]).Perm (completed [] ++ ready []) := by
  have hclose := (reachable_lostRun true).step (l := ClientLabel.requestClose)
    ⟨⟨rfl, trivial⟩, fun _ => trivial⟩ rfl
  have hfree := hclose.step (l := ClientLabel.freeOnClose) ⟨⟨rfl, rfl, rfl⟩, fun _ => trivial⟩ rfl
  exact @close_wakes_all littleHost True 2 10000 0 noPasswd none _ hfree rfl rfl

end Runs

end Client

end QtZooKeeper
