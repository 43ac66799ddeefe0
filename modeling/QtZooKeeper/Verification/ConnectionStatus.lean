-- SUMMARY: When isConnected and the connected and disconnected signals follow the state of the session.
import QtZooKeeper.Manager.Outputs
import Mathlib.Data.List.Chain

/-!
# The connection status

The manager is connected if it has an open handle whose latest session event is
`Connected`. `isConnected` reports a flag, and `connected` and `disconnected` are
emitted, by functions that do not look at each other: `quit` takes the flag back
without a signal, and the session callback emits its signals whatever the flag says
and whichever handle the event is for.
-/

namespace QtZooKeeper

open FallibleSystem

/-- The latest session event of each handle, and the signals due so far. -/
structure StatusHistory where
  latest : HandleId → Option ZooKeeperState := fun _ => none
  changes : List (Via × Report) := []

/-- The manager has an open handle whose latest session event is `Connected`. -/
def Session.isUp (s : Session) (latest : HandleId → Option ZooKeeperState) : Bool :=
  match s.zooHandle with
  | none => false
  | some h => s.handles h = .open_ && latest h = some .connected

/-- The signal that announces a status. -/
def statusSignal (up : Bool) : Via × Report := (.manager, if up then .connected else .disconnected)

/-- The signals due when the status goes from `up` to `up'`. -/
def statusChange (up up' : Bool) : List (Via × Report) := if up = up' then [] else [statusSignal up']

def Report.isStatus : Report → Bool
  | connected | disconnected => true
  | _ => false

/-- The session event a step delivers, if it delivers one. -/
def Label.event : Label → Option (HandleId × ZooKeeperState)
  | watcher zzh type state _ _ => if type = .sessionEvent then some (zzh, .ofInt state) else none
  | _ => none

/-- The latest events after a step. -/
def StatusHistory.after (b : StatusHistory) (l : Label) : HandleId → Option ZooKeeperState :=
  match l.event with
  | some (zzh, state) => Function.update b.latest zzh (some state)
  | none => b.latest

def StatusHistory.record (s : Manager) (l : Label) (s' : Manager) (b : StatusHistory) :
    StatusHistory where
  latest := b.after l
  changes := b.changes ++ statusChange (s.session.isUp b.latest) (s'.session.isUp (b.after l))

/-- The system with the history of its connection. -/
def watched : FallibleSystem (Manager × StatusHistory) Label AccessFault :=
  system.withHistory {} StatusHistory.record

instance (l : Label) (x : Manager × StatusHistory) : Decidable (watched.enabled l x) :=
  inferInstanceAs (Decidable (l.Enabled x.1))

/-- The status in a state with its history. -/
def isUp (x : Manager × StatusHistory) : Bool := x.1.session.isUp x.2.latest

/-- The flag is the status, and the signals were emitted exactly at its changes,
hence in turns. -/
structure StatusFaithful (x : Manager × StatusHistory) : Prop where
  isConnected : x.1.session.isConnected = isUp x
  signals : x.1.reports.filter (fun y => y.2.isStatus) = x.2.changes
  alternate : (x.1.reports.filter fun y => y.2.isStatus).IsChain (· ≠ ·)

/-! ## What each step has to find -/

/-- The handle is replaced or given up while not connected, and session events come
for the open handle the manager has, `Connected` and `Connecting` while it is not
connected, the others while it is. -/
def followsStatus (s : Manager) : Label → Prop
  | .call (.initializeHandle _ _ _) | .call .quit | .call .destructor => s.session.connected = false
  | .watcher zzh type state _ _ => type = .sessionEvent →
    match ZooKeeperState.ofInt state with
    | .connected => s.session.zooHandle = some zzh ∧ s.session.handles zzh = .open_ ∧
        s.session.connected = false
    | .connecting => s.session.zooHandle = some zzh → s.session.connected = false
    | _ => s.session.zooHandle = some zzh ∧ s.session.connected = true
  | _ => True

instance (s : Manager) (zzh : HandleId) (state : ZooKeeperState) : Decidable
    (match state with
    | .connected => s.session.zooHandle = some zzh ∧ s.session.handles zzh = .open_ ∧
        s.session.connected = false
    | .connecting => s.session.zooHandle = some zzh → s.session.connected = false
    | _ => s.session.zooHandle = some zzh ∧ s.session.connected = true) :=
  match state with
  | .connected => inferInstanceAs (Decidable (_ ∧ _ ∧ _))
  | .connecting => inferInstanceAs (Decidable (_ → _))
  | .closed | .assoctating | .expiredSession | .authFailed | .notConnected | .unlisted _ =>
    inferInstanceAs (Decidable (_ ∧ _))

instance (s : Manager) : (l : Label) → Decidable (followsStatus s l)
  | .call c =>
    match c with
    | .initializeHandle .. | .quit | .destructor =>
      inferInstanceAs (Decidable (s.session.connected = false))
    | .addAuth .. | .createNode .. | .createNodeSync .. | .deleteNode .. | .deleteNodeSync ..
    | .existsNode .. | .existsNodeSync .. | .setNodeValue .. | .setNodeValueSync ..
    | .getNodeValue .. | .getNodeValueSync .. | .wgetNodeValue .. | .getChildrenNode ..
    | .getChildrenNodeSync .. | .wgetChildrenNode .. | .setExists .. =>
      inferInstanceAs (Decidable True)
  | .watcher _ type _ _ _ => inferInstanceAs (Decidable (type = .sessionEvent → _))
  | .deliver .. | .watchEvent .. | .timer _ | .closeReturns => inferInstanceAs (Decidable True)

variable {s s' : Manager} {l : Label} {x y : Manager × StatusHistory}
variable {tr : List ((Manager × StatusHistory) × Label)} {h zzh : HandleId} {up : Bool}
variable {latest : HandleId → Option ZooKeeperState} {st : ZooKeeperState}

/-! ## Invariants of the history -/

/-- A handle not given out yet has had no event. -/
theorem latest_of_unused (hx : watched.Reachable x) (hu : x.1.session.handles h = .unused) :
    x.2.latest h = none := by
  refine hx.invariant
    (P := fun x => ∀ h, x.1.session.handles h = .unused → x.2.latest h = none) ?_ ?_ h hu
  · intro h _
    rfl
  intro x l y hinv he hs h hu
  obtain ⟨hstep, hrec⟩ := withHistory_step.mp hs
  rw [step_session hstep] at hu
  have hbefore : x.1.session.handles h = .unused := unused_of_apply (l.sessionOp x.1) hu
  rw [hrec]
  simp only [StatusHistory.record, StatusHistory.after]
  cases hl : l.event with
  | none => exact hinv h hbefore
  | some event =>
    -- events come for handles that are in use
    have hne : h ≠ event.1 := by
      rintro rfl
      cases l with
      | watcher zzh type state path client =>
        have hdelivers : (x.1.session.handles zzh).delivers = true := he
        simp only [Label.event] at hl
        split at hl
        · cases hl
          rw [hbefore] at hdelivers
          cases hdelivers
        · cases hl
      | _ => cases hl
    exact (Function.update_of_ne hne _ _).trans (hinv h hbefore)

/-- The due signals come in turns, the last of them for the present status. -/
structure InTurns (x : Manager × StatusHistory) : Prop where
  chain : x.2.changes.IsChain (· ≠ ·)
  last : ∀ y ∈ x.2.changes.getLast?, y = statusSignal (isUp x)

theorem statusSignal_inj {up up' : Bool} : statusSignal up = statusSignal up' ↔ up = up' := by
  cases up <;> cases up' <;> simp [statusSignal]

theorem inTurns_of_reachable (hx : watched.Reachable x) : InTurns x := by
  refine hx.invariant ⟨.nil, ?_⟩ ?_
  · rintro y hy
    cases hy
  intro x l y hinv _ hs
  obtain ⟨-, hrec⟩ := withHistory_step.mp hs
  have hchanges : y.2.changes = x.2.changes ++ statusChange (isUp x) (isUp y) := by
    rw [isUp, isUp, hrec]
    rfl
  by_cases hup : isUp x = isUp y
  · rw [statusChange, if_pos hup, List.append_nil] at hchanges
    refine ⟨?_, ?_⟩
    · rw [hchanges]
      exact hinv.chain
    · rw [hchanges, ← hup]
      exact hinv.last
  · rw [statusChange, if_neg hup] at hchanges
    refine ⟨?_, ?_⟩
    · rw [hchanges]
      refine hinv.chain.append (.singleton _) ?_
      intro a ha b hb
      obtain rfl := hinv.last a ha
      obtain rfl : statusSignal (isUp y) = b := by simpa using hb
      exact fun heq => hup (statusSignal_inj.mp heq)
    · rw [hchanges]
      simp

/-! ## One step -/

/-- The signals of a step. -/
def Label.statusSignals (l : Label) : List (Via × Report) := l.reports.filter fun y => y.2.isStatus

/-- A step keeps the status faithful if afterwards the flag is the status and the
signals of the step are those due. -/
theorem faithful_step_iff (hx : watched.Reachable x) (h : StatusFaithful x)
    (he : watched.enabled l x) (hs : watched.step l x = .ok y) :
    StatusFaithful y ↔ y.1.session.isConnected = isUp y ∧
      l.statusSignals = statusChange x.1.session.connected (isUp y) := by
  obtain ⟨hstep, hrec⟩ := withHistory_step.mp hs
  have hup : x.1.session.connected = isUp x := h.isConnected
  have hchanges : y.2.changes = x.2.changes ++ statusChange (isUp x) (isUp y) := by
    rw [isUp, isUp, hrec]
    rfl
  have hreports : (y.1.reports.filter fun z => z.2.isStatus) =
      x.2.changes ++ l.statusSignals := by
    rw [(Label.output hstep).reports, List.filter_append, h.signals, Label.statusSignals]
  have hsignals : (y.1.reports.filter fun z => z.2.isStatus) = y.2.changes ↔
      l.statusSignals = statusChange x.1.session.connected (isUp y) := by
    rw [hreports, hchanges, hup, List.append_cancel_left_eq]
  constructor
  · intro hy
    exact ⟨hy.isConnected, hsignals.mp hy.signals⟩
  · rintro ⟨hconnected, hdue⟩
    refine ⟨hconnected, hsignals.mpr hdue, ?_⟩
    rw [hsignals.mpr hdue]
    exact (inTurns_of_reachable (hx.step he hs)).chain

theorem statusChange_eq_nil {up up' : Bool} : [] = statusChange up up' ↔ up = up' := by
  rw [statusChange]
  split
  · next h => simp [h]
  · next h => simp [h]

/-- No handle, no connection. -/
theorem isUp_of_no_handle {s : Session} (hs : s.zooHandle = none) : s.isUp latest = false := by
  simp only [Session.isUp, hs]

theorem isUp_handle {s : Session} (hs : s.zooHandle = some h) :
    s.isUp latest = (s.handles h = .open_ && latest h = some .connected) := by
  simp only [Session.isUp, hs]

/-- The status depends on the handle the manager has, on its status and on its
latest event. -/
theorem isUp_congr {s s' : Session} {latest' : HandleId → Option ZooKeeperState}
    (hzh : s'.zooHandle = s.zooHandle)
    (hh : ∀ h, s.zooHandle = some h → s'.handles h = s.handles h ∧ latest' h = latest h) :
    s'.isUp latest' = s.isUp latest := by
  cases hs : s.zooHandle with
  | none => rw [isUp_of_no_handle hs, isUp_of_no_handle (hzh.trans hs)]
  | some h =>
    obtain ⟨hstatus, hlatest⟩ := hh h hs
    rw [isUp_handle hs, isUp_handle (hzh.trans hs), hstatus, hlatest]

/-- `Connected` makes an open handle of the manager the connection. -/
theorem connect_iff {s : Session} {client : Int} (hs : s.connected = s.isUp latest) :
    (true = (s.connect zzh client).isUp (Function.update latest zzh (some .connected)) ∧
      [statusSignal true] = statusChange s.connected
        ((s.connect zzh client).isUp (Function.update latest zzh (some .connected)))) ↔
      s.zooHandle = some zzh ∧ s.handles zzh = .open_ ∧ s.connected = false := by
  have hsignal : [statusSignal true] = statusChange s.connected true ↔ s.connected = false := by
    cases s.connected <;> simp [statusChange]
  by_cases hz : s.zooHandle = some zzh
  · have hup : (s.connect zzh client).isUp (Function.update latest zzh (some .connected)) =
        decide (s.handles zzh = .open_) := by
      rw [isUp_handle (s := s.connect zzh client) hz, Function.update_self, Session.connect]
      simp only [decide_true, Bool.and_true]
    rw [hup]
    by_cases ho : s.handles zzh = .open_
    · simpa [ho, hz] using hsignal
    · simp [ho]
  · -- another handle: the status is what it was
    have hup : (s.connect zzh client).isUp (Function.update latest zzh (some .connected)) =
        s.isUp latest := by
      refine isUp_congr rfl ?_
      intro h hh
      have hne : h ≠ zzh := by
        rintro rfl
        exact hz hh
      exact ⟨rfl, Function.update_of_ne hne _ _⟩
    rw [hup, ← hs]
    simp only [hz, false_and, iff_false]
    rintro ⟨hconnected, hsignals⟩
    rw [← hconnected] at hsignals
    simp [statusChange] at hsignals

/-- `Connecting` ends a connection without a word. -/
theorem connecting_iff {s : Session} (hs : s.connected = s.isUp latest) :
    (s.connected = s.isUp (Function.update latest zzh (some .connecting)) ∧
      [] = statusChange s.connected (s.isUp (Function.update latest zzh (some .connecting)))) ↔
      (s.zooHandle = some zzh → s.connected = false) := by
  rw [statusChange_eq_nil, and_self]
  by_cases hz : s.zooHandle = some zzh
  · have hup : s.isUp (Function.update latest zzh (some .connecting)) = false := by
      rw [isUp_handle hz]
      simp
    rw [hup]
    simp [hz]
  · have hup : s.isUp (Function.update latest zzh (some .connecting)) = s.isUp latest := by
      refine isUp_congr rfl ?_
      intro h hh
      have hne : h ≠ zzh := by
        rintro rfl
        exact hz hh
      exact ⟨rfl, Function.update_of_ne hne _ _⟩
    rw [hup, ← hs]
    simp [hz]

/-- A terminal event ends the connection if it comes for its handle. -/
theorem terminate_iff {s : Session} (hs : s.connected = s.isUp latest) :
    (false = ({ s.close zzh with connected := false } : Session).isUp
        (Function.update latest zzh (some st)) ∧
      [statusSignal false] = statusChange s.connected
        (({ s.close zzh with connected := false } : Session).isUp
          (Function.update latest zzh (some st)))) ↔
      s.zooHandle = some zzh ∧ s.connected = true := by
  have hsignal : [statusSignal false] = statusChange s.connected false ↔ s.connected = true := by
    cases s.connected <;> simp [statusChange]
  by_cases hz : s.zooHandle = some zzh
  · have hup : ({ s.close zzh with connected := false } : Session).isUp
        (Function.update latest zzh (some st)) = false := by
      rw [isUp_handle (s := { s.close zzh with connected := false }) hz]
      simp [Session.close]
    rw [hup, hsignal]
    simp [hz]
  · have hup : ({ s.close zzh with connected := false } : Session).isUp
        (Function.update latest zzh (some st)) = s.isUp latest := by
      refine isUp_congr rfl ?_
      intro h hh
      have hne : h ≠ zzh := by
        rintro rfl
        exact hz hh
      exact ⟨Function.update_of_ne hne _ _, Function.update_of_ne hne _ _⟩
    rw [hup, ← hs]
    simp only [hz, false_and, iff_false]
    rintro ⟨hconnected, hsignals⟩
    rw [← hconnected] at hsignals
    simp [statusChange] at hsignals

/-- `quit` ends a connection without a word. -/
theorem isUp_quit {s : Session} : s.quit.isUp latest = false := by
  cases hz : s.zooHandle with
  | none =>
    rw [Session.quit, hz]
    exact isUp_of_no_handle hz
  | some h =>
    simp only [Session.quit, hz, Session.isUp]
    split
    · simp
    · next ho => simp [ho]

theorem connected_quit {s : Session} (hs : s.connected = s.isUp latest) :
    s.quit.connected = false := by
  cases hz : s.zooHandle with
  | none =>
    rw [Session.quit, hz, hs]
    exact isUp_of_no_handle hz
  | some h => simp only [Session.quit, hz]

/-- The status after an operation on the session is told by the flag and by the
signals of the step. -/
def Tells (s s' : Session) (latest : HandleId → Option ZooKeeperState)
    (signals : List (Via × Report)) : Prop :=
  s'.connected = s'.isUp latest ∧ signals = statusChange s.connected (s'.isUp latest)

/-- A step that changes nothing about the status need not tell anything. -/
theorem Tells.quiet {s s' : Session} (hs : s.connected = s.isUp latest)
    (hconnected : s'.connected = s.connected) (hup : s'.isUp latest = s.isUp latest) :
    Tells s s' latest [] :=
  ⟨by rw [hconnected, hup, hs], statusChange_eq_nil.mpr (by rw [hup, hs])⟩

/-- A handle that takes the place of another is not connected. -/
theorem isUp_initializeHandle {s : Session} {host : QString} {timeout : Int}
    {zh : Option HandleId} (hnew : ∀ h ∈ zh, latest h = none) :
    (s.initializeHandle host timeout zh).isUp latest = false := by
  cases zh with
  | none => rfl
  | some h => simp [Session.initializeHandle, Session.isUp, hnew h rfl]

/-- When the manager gives up its handle, the handle is no connection any more. -/
theorem isUp_closeReturns {s : Session} (hs : sessionSystem.Reachable s) :
    s.closeReturns.isUp latest = s.isUp latest := by
  cases hc : s.closing with
  | none => rw [Session.closeReturns, hc]
  | some h =>
    have hnone : s.closeReturns.zooHandle = none := by simp only [Session.closeReturns, hc]
    rw [isUp_of_no_handle hnone, isUp_handle (zooHandle_of_closing hs hc)]
    rcases (linked_of_reachable hs).closingStatus h hc with hst | hst <;> simp [hst]

theorem connected_closeReturns {s : Session} : s.closeReturns.connected = s.connected := by
  rw [Session.closeReturns]
  split <;> rfl

theorem tells_call_iff {c : Call} (hx : watched.Reachable x) (h : StatusFaithful x)
    (he : watched.enabled (.call c) x) :
    Tells x.1.session ((c.sessionOp x.1).apply x.1.session) x.2.latest [] ↔
      followsStatus x.1 (.call c) := by
  have hs : x.1.session.connected = x.1.session.isUp x.2.latest := h.isConnected
  cases c with
  | initializeHandle host timeout zh =>
    have hnew : ∀ z ∈ zh, x.2.latest z = none := fun z hz =>
      latest_of_unused hx (he.2.2.2.2 z hz)
    simp only [Tells, Call.sessionOp, SessionOp.apply, isUp_initializeHandle hnew,
      statusChange_eq_nil]
    exact and_self_iff
  | quit | destructor =>
    simp only [Call.sessionOp, SessionOp.apply, followsStatus]
    constructor
    · intro ht
      have hup := statusChange_eq_nil.mp ht.2
      exact hup.trans isUp_quit
    · intro hconnected
      exact ⟨(connected_quit hs).trans isUp_quit.symm,
        statusChange_eq_nil.mpr (hconnected.trans isUp_quit.symm)⟩
  | _ =>
    refine iff_of_true ?_ trivial
    simp only [Call.sessionOp]
    split
    · exact .quiet hs rfl rfl
    · exact .quiet hs rfl rfl

theorem tells_watcher_iff {type : ZooKeeperType} {state client : Int} {path : QString}
    (h : StatusFaithful x) :
    Tells x.1.session (((Label.watcher zzh type state path client).sessionOp x.1).apply x.1.session)
        (x.2.after (.watcher zzh type state path client))
        (Label.watcher zzh type state path client).statusSignals ↔
      followsStatus x.1 (.watcher zzh type state path client) := by
  have hs : x.1.session.connected = x.1.session.isUp x.2.latest := h.isConnected
  by_cases htype : type = .sessionEvent
  · simp only [Label.sessionOp, StatusHistory.after, Label.event, Label.statusSignals,
      Label.reports, followsStatus, htype, forall_const]
    cases hst : ZooKeeperState.ofInt state with
    | connected => exact connect_iff hs
    | connecting => exact connecting_iff hs
    | _ => exact terminate_iff hs
  · refine iff_of_true ?_ fun htype' => absurd htype' htype
    simp only [Label.sessionOp, StatusHistory.after, Label.event, Label.statusSignals,
      Label.reports, if_neg htype]
    exact .quiet hs rfl rfl

theorem tells_iff (hx : watched.Reachable x) (h : StatusFaithful x) (he : watched.enabled l x) :
    Tells x.1.session ((l.sessionOp x.1).apply x.1.session) (x.2.after l) l.statusSignals ↔
      followsStatus x.1 l := by
  have hs : x.1.session.connected = x.1.session.isUp x.2.latest := h.isConnected
  cases l with
  | call c => exact tells_call_iff hx h he
  | watcher zzh type state path client => exact tells_watcher_iff h
  | deliver r c =>
    refine iff_of_true ?_ trivial
    have hsignals : (Label.deliver r c).statusSignals = [] := by
      cases c with
      | get rc value =>
        simp only [Label.statusSignals, Label.reports]
        split <;> rfl
      | getChildren rc strings =>
        simp only [Label.statusSignals, Label.reports, Manager.childrenReport]
        split <;> rfl
      | _ => rfl
    rw [hsignals]
    exact .quiet hs rfl rfl
  | watchEvent zh w type state path a =>
    refine iff_of_true ?_ trivial
    cases a with
    | value r => exact .quiet hs rfl rfl
    | children rc strings => exact .quiet hs rfl rfl
  | timer state =>
    refine iff_of_true ?_ trivial
    have hsignals : (Label.timer state).statusSignals = [] := by
      simp only [Label.statusSignals, Label.reports]
      split <;> rfl
    rw [hsignals]
    exact .quiet hs rfl rfl
  | closeReturns =>
    have hr : sessionSystem.Reachable x.1.session := by
      obtain ⟨tr, hrun⟩ := hx.forget
      exact ⟨_, run_session hrun⟩
    exact iff_of_true (.quiet hs connected_closeReturns (isUp_closeReturns hr)) trivial

theorem followsStatus_iff (hx : watched.Reachable x) (h : StatusFaithful x)
    (he : watched.enabled l x) (hs : watched.step l x = .ok y) :
    StatusFaithful y ↔ followsStatus x.1 l := by
  obtain ⟨hstep, hrec⟩ := withHistory_step.mp hs
  rw [faithful_step_iff hx h he hs, ← tells_iff hx h he, Tells, isUp, hrec, ← step_session hstep]
  rfl

/-- The runs in which the flag and the signals follow the connection all along are
those in which the handle is replaced and closed only while not connected, and
session events come for the handle the manager has, in turns. -/
theorem status_faithful_iff (h : watched.Run tr x) :
    Always StatusFaithful tr x ↔ Each (fun y l => followsStatus y.1 l) tr := by
  refine h.always_iff_each (Q := watched.Reachable) ⟨rfl, rfl, .nil⟩ ?_ ?_
  · intro tr x hr _
    exact ⟨tr, hr⟩
  · intro x l y hx h he hs
    exact followsStatus_iff hx h he hs

/-- A session that expires and is replaced by a new one, twice. -/
def expiredTwice : List Label :=
  sessionOpen ++
    [.watcher 0 .sessionEvent (-112) "" 7,
     .call (.initializeHandle "127.0.0.1:2181" 30000 (some 1)),
     .watcher 1 .sessionEvent 1 "" 8, .watcher 1 .sessionEvent 3 "" 8,
     .watcher 1 .sessionEvent (-113) "" 8]

theorem expiredTwice_faithful :
    Always StatusFaithful (watched.execGet expiredTwice (by decide)).1
      (watched.execGet expiredTwice (by decide)).2 :=
  (status_faithful_iff (run_execGet expiredTwice (by decide))).mpr (by unfold Each; decide)

/-- `quit` from a connected session. -/
def quitConnected : List Label := sessionOpen ++ [.call .quit, .closeReturns]

/-- The connection ends without `disconnected`. -/
theorem quitConnected_not_faithful : ¬ ∀ x, watched.Reachable x → StatusFaithful x := by
  intro h
  have hsignals := (h _ (reachable_execGet quitConnected (by decide))).signals
  exact absurd hsignals (by decide)

end QtZooKeeper
