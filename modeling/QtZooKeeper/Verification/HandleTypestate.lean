-- SUMMARY: Which runs use the handles as the library asks: closed once, not used afterwards, one open at a time.
import QtZooKeeper.Manager.Steps

/-!
# The typestate of handles

A handle can be closed from two places, `watcher` on a terminal event and `quit`,
and only `quit` clears `m_zooHandle`. The statuses the model keeps for the handles
are determined by the calls made so far (`Linked`), so the conditions under which
a step keeps the discipline can be read off the state before it.
-/

namespace QtZooKeeper

open FallibleSystem

/-- A null handle is passed to a function that reads through it. -/
def LibCall.readsNull : LibCall → Bool
  | call fn none _ => fn.readsThrough
  | _ => false

/-- The discipline the library asks for, on the calls made so far. -/
structure HandlesSafe (s : Session) : Prop where
  closedOnce : libTypestate.ClosedOnce s.calls
  notAfterEnd : libTypestate.NotAfterEnd s.calls
  noNullRead : ∀ c ∈ s.calls, c.readsNull = false
  oneOpen : libTypestate.OneOpen s.calls

/-! ## Which steps keep the discipline -/

/-- `m_zooHandle` can be passed to the function: it has not been closed, and it
is not null where the function reads through it. -/
def Session.usable (s : Session) (fn : LibFn) : Bool :=
  match s.zooHandle with
  | some h => !(s.handles h = .closed)
  | none => !fn.readsThrough

/-- Every handle obtained so far has been closed. -/
def Session.allClosed (s : Session) : Bool :=
  s.calls.all fun
    | .init (some h) => s.handles h = .closed
    | _ => true

/-- The state allows the step: a new handle is obtained only when no other is
open, `m_zooHandle` is passed on only when it is usable, and no terminal event
arrives on the handle `quit` is closing. -/
def SessionOp.Allowed (s : Session) : SessionOp → Bool
  | initializeHandle _ _ zh => zh.isNone || s.allClosed
  | invoke fn _ => s.usable fn
  | timerFires => s.usable .zooState
  | terminate zzh => !(s.handles zzh = .closing)
  | quit | destructor => s.usable .zookeeperClose
  | keep | connect _ _ | closeReturns => true

section Steps

variable {s s' : Session} {h z : HandleId} {fn : LibFn} {zh : Option HandleId} {args : LibArgs}
variable {op : SessionOp}

theorem isOpen_iff (hl : Linked s) : libTypestate.IsOpen s.calls h ↔
    s.handles h ≠ .unused ∧ s.handles h ≠ .closed := by
  rw [Typestate.IsOpen, (hl.status h).opened, (hl.status h).ended]

theorem allClosed_iff (hl : Linked s) :
    s.allClosed = true ↔ ∀ h, ¬ libTypestate.IsOpen s.calls h := by
  simp only [isOpen_iff hl, Session.allClosed, List.all_eq_true, not_and, not_not]
  constructor
  · intro hall h hused
    obtain ⟨c, hc, hinit⟩ := (hl.status h).opened.mpr hused
    have hopens : c = .init (some h) := hinit
    simpa [hopens] using hall c hc
  · intro hall c hc
    split
    · next h =>
      have hused := (hl.status h).opened.mp ⟨_, hc, rfl⟩
      simpa using hall h hused
    · rfl

/-- What the new calls of a step must be like to keep the discipline. -/
theorem HandlesSafe.append_iff (hl : Linked s) (hs : HandlesSafe s) {new : List LibCall}
    (hcalls : s'.calls = s.calls ++ new) (honce : libTypestate.ClosedOnce new)
    (hend : libTypestate.NotAfterEnd new) :
    HandlesSafe s' ↔
      (∀ b ∈ new, ∀ h, libTypestate.closes b h →
        ¬ (s.handles h = .closing ∨ s.handles h = .closed)) ∧
      (∀ b ∈ new, ∀ h, libTypestate.passes b h → ¬ s.handles h = .closed) ∧
      (∀ b ∈ new, b.readsNull = false) ∧ libTypestate.OneOpen s'.calls := by
  constructor
  · intro hs'
    have honce' := hs'.closedOnce
    have hend' := hs'.notAfterEnd
    have hnull := hs'.noNullRead
    rw [hcalls] at honce' hend' hnull
    refine ⟨?_, ?_, ?_, hs'.oneOpen⟩
    · intro b hb h hclose
      rw [← (hl.status h).closeStarted]
      exact (Typestate.closedOnce_append.mp honce').2.2 b hb h hclose
    · intro b hb h hpass
      rw [← (hl.status h).ended]
      exact (Typestate.notAfterEnd_append.mp hend').2.2 b hb h hpass
    · intro b hb
      exact hnull b (List.mem_append_right _ hb)
  · intro ⟨hclose, hpass, hnull, hone⟩
    refine ⟨?_, ?_, ?_, hone⟩
    · rw [hcalls]
      refine Typestate.closedOnce_append.mpr ⟨hs.closedOnce, honce, ?_⟩
      intro b hb h hcb
      rw [(hl.status h).closeStarted]
      exact hclose b hb h hcb
    · rw [hcalls]
      refine Typestate.notAfterEnd_append.mpr ⟨hs.notAfterEnd, hend, ?_⟩
      intro b hb h hpb
      rw [(hl.status h).ended]
      exact hpass b hb h hpb
    · rw [hcalls]
      intro c hc
      rcases List.mem_append.mp hc with hc | hc
      · exact hs.noNullRead c hc
      · exact hnull c hc

theorem HandlesSafe.oneOpen_append (hs : HandlesSafe s) {new : List LibCall}
    (hcalls : s'.calls = s.calls ++ new) (hn : ∀ h, .init (some h) ∉ new) :
    libTypestate.OneOpen s'.calls := by
  rw [hcalls]
  refine hs.oneOpen.append ?_
  intro h ⟨c, hc, hopens⟩
  have hopens' : c = .init (some h) := hopens
  exact hn h (hopens' ▸ hc)

theorem closedOnce_singleton (c : LibCall) : libTypestate.ClosedOnce [c] := List.pairwise_singleton _ _

theorem notAfterEnd_singleton (c : LibCall) : libTypestate.NotAfterEnd [c] :=
  List.pairwise_singleton _ _

/-- A call with `m_zooHandle` of another function than `zookeeper_close`. -/
theorem HandlesSafe.invoke_iff (hl : Linked s) (hs : HandlesSafe s) (hfn : fn ≠ .zookeeperClose)
    (hcalls : s'.calls = s.calls ++ [.call fn s.zooHandle args]) :
    HandlesSafe s' ↔ s.usable fn = true := by
  rw [hs.append_iff hl hcalls (closedOnce_singleton _) (notAfterEnd_singleton _)]
  have hone := hs.oneOpen_append hcalls (by simp)
  cases hz : s.zooHandle with
  | none => simp [Session.usable, hz, hone, LibCall.readsNull]
  | some z => simp [Session.usable, hz, hone, LibCall.readsNull, hfn]

/-- The call of `zookeeper_close` in `quit`. -/
theorem HandlesSafe.quit_iff (hl : Linked s) (hs : HandlesSafe s) (hclosing : s.closing = none)
    (hcalls : s'.calls = s.quit.calls) : HandlesSafe s' ↔ s.usable .zookeeperClose = true := by
  cases hz : s.zooHandle with
  | none =>
    have hsame : s'.calls = s.calls ++ [] := by simp [hcalls, Session.quit, hz]
    rw [hs.append_iff hl hsame List.Pairwise.nil List.Pairwise.nil]
    have hone := hs.oneOpen_append hsame (by simp)
    simp [Session.usable, hz, hone, LibFn.readsThrough]
  | some z =>
    have hcalls' : s'.calls = s.calls ++ [.call .zookeeperClose (some z) {}] := by
      simp [hcalls, Session.quit, hz]
    rw [hs.append_iff hl hcalls' (closedOnce_singleton _) (notAfterEnd_singleton _)]
    have hone := hs.oneOpen_append hcalls' (by simp)
    have hnot : s.handles z ≠ .closing := by
      intro hc
      cases hclosing.symm.trans (hl.closing z hc)
    simp [Session.usable, hz, hone, LibCall.readsNull, hnot]

theorem HandlesSafe.initializeHandle_iff {host : QString} {timeout : Int} (hl : Linked s)
    (hs : HandlesSafe s) (hh : ∀ h ∈ zh, s.handles h = .unused) :
    HandlesSafe (s.initializeHandle host timeout zh) ↔ (zh.isNone || s.allClosed) = true := by
  have hcalls : (s.initializeHandle host timeout zh).calls = s.calls ++ [.init zh] := rfl
  rw [hs.append_iff hl hcalls (closedOnce_singleton _) (notAfterEnd_singleton _)]
  cases zh with
  | none =>
    have hone := hs.oneOpen_append hcalls (by simp)
    simp [LibCall.readsNull] at hone ⊢
    exact hone
  | some z =>
    have hz : s.handles z = .unused := hh z rfl
    have hone : libTypestate.OneOpen (s.calls ++ [.init (some z)]) ↔ s.allClosed = true := by
      rw [allClosed_iff hl]
      refine Typestate.oneOpen_append_iff (z := z) ?_ ?_ ?_ ?_
      · simp [Typestate.Opened, libTypestate, eq_comm]
      · simp [Typestate.Ended, libTypestate]
      · rw [(hl.status z).opened, hz]
        simp
      · rw [(hl.status z).ended, hz]
        simp
    rw [hcalls, hone]
    simp [LibCall.readsNull]

/-- The call of `zookeeper_close` in `watcher`. -/
theorem HandlesSafe.terminate_iff (hl : Linked s) (hs : HandlesSafe s)
    (hz : (s.handles z).delivers = true) :
    HandlesSafe { s.close z with connected := false } ↔ s.handles z ≠ .closing := by
  have hcalls : ({ s.close z with connected := false } : Session).calls =
      s.calls ++ [.call .zookeeperClose (some z) {}, .closed z] := rfl
  rw [hs.append_iff hl hcalls (by simp [Typestate.ClosedOnce])
    (by simp [Typestate.NotAfterEnd])]
  have hone := hs.oneOpen_append hcalls (by simp)
  -- the client delivers no event on a handle whose close has returned
  have hnot : s.handles z ≠ .closed := by
    intro hc
    simp [hc, HandleStatus.delivers] at hz
  simp [hone, LibCall.readsNull, hnot]

theorem HandlesSafe.closeReturns (hl : Linked s) (hs : HandlesSafe s) :
    HandlesSafe s.closeReturns := by
  cases hz : s.closing with
  | none =>
    rw [Session.closeReturns, hz]
    exact hs
  | some z =>
    have hcalls : s.closeReturns.calls = s.calls ++ [.closed z] := by
      simp [Session.closeReturns, hz]
    refine (hs.append_iff hl hcalls (closedOnce_singleton _) (notAfterEnd_singleton _)).mpr ?_
    have hone := hs.oneOpen_append hcalls (by simp)
    simp [hone, LibCall.readsNull]

/-- A step keeps the discipline exactly when the state allows it. -/
theorem HandlesSafe.apply_iff (hl : Linked s) (hs : HandlesSafe s) (he : op.Enabled s) :
    HandlesSafe (op.apply s) ↔ op.Allowed s = true := by
  cases op with
  | keep => simpa [SessionOp.Allowed, SessionOp.apply] using hs
  | initializeHandle host timeout zh => exact hs.initializeHandle_iff hl he.2
  | invoke fn args => exact hs.invoke_iff hl he rfl
  | connect zzh client =>
    have hcalls : (s.connect zzh client).calls =
        s.calls ++ [.call .zooClientId (some zzh) {}] := rfl
    have hone := hs.oneOpen_append hcalls (by simp)
    have hnot : s.handles zzh ≠ .closed := by
      intro hc
      have hd : (s.handles zzh).delivers = true := he
      simp [hc, HandleStatus.delivers] at hd
    have hsafe := (hs.append_iff hl hcalls (closedOnce_singleton _) (notAfterEnd_singleton _)).mpr
      (by simp [hone, LibCall.readsNull, hnot])
    simpa [SessionOp.Allowed, SessionOp.apply] using hsafe
  | terminate zzh =>
    have hiff : HandlesSafe ((SessionOp.terminate zzh).apply s) ↔ s.handles zzh ≠ .closing :=
      hs.terminate_iff hl he
    rw [hiff]
    simp [SessionOp.Allowed]
  | quit => exact hs.quit_iff hl he rfl
  | destructor => exact hs.quit_iff hl he rfl
  | timerFires =>
    have hfn : LibFn.zooState ≠ .zookeeperClose := by decide
    exact hs.invoke_iff hl hfn rfl
  | closeReturns => simpa [SessionOp.Allowed, SessionOp.apply] using hs.closeReturns hl

theorem handlesSafe_init : HandlesSafe {} where
  closedOnce := List.Pairwise.nil
  notAfterEnd := List.Pairwise.nil
  noNullRead := by simp
  oneOpen := by
    intro h h' hh
    obtain ⟨c, hc, -⟩ := hh.1
    cases hc

end Steps

/-- The runs that keep the discipline are those whose every step is allowed. -/
theorem handles_safe_iff {tr : List (Manager × Label)} {s : Manager} (h : system.Run tr s) :
    Always (fun s => HandlesSafe s.session) tr s ↔
      Each (fun s l => (l.sessionOp s).Allowed s.session = true) tr := by
  have hmachine := (run_session h).always_iff_each (P := HandlesSafe) (Q := Linked)
    (G := fun s op => op.Allowed s = true) handlesSafe_init
    (fun tr s hr _ => linked_of_reachable ⟨tr, hr⟩) (by
      intro s op s' hl hs he hstep
      obtain rfl : op.apply s = s' := by simpa [sessionSystem] using hstep
      exact hs.apply_iff hl he)
  rw [always_mapTrace, each_mapTrace] at hmachine
  exact hmachine

/-- A session that expires and is then left by `quit`. -/
def quitAfterExpiry : List Label :=
  sessionOpen ++
    [.watcher 0 .sessionEvent (-112) "" 7, .call .quit]

/-- A session left by `quit` before the next one begins. -/
def quitAndReconnect : List Label :=
  sessionOpen ++
    [.call (.existsNode "/a" 0 0), .timer 3, .call .quit, .closeReturns,
     .call (.initializeHandle "127.0.0.1:2181" 30000 (some 1)), .watcher 1 .sessionEvent 3 "" 8]

/-- The handle is closed twice. -/
theorem quitAfterExpiry_not_safe : ¬ ∀ s, system.Reachable s → HandlesSafe s.session := by
  intro h
  have hsafe := h _ (reachable_execGet quitAfterExpiry (by decide))
  have hcalls : (system.execGet quitAfterExpiry (by decide)).2.session.calls =
      [.init (some 0), .call .zooClientId (some 0) {}, .call .zookeeperClose (some 0) {},
       .closed 0, .call .zookeeperClose (some 0) {}] := by decide
  have honce := hsafe.closedOnce
  rw [hcalls] at honce
  simp [Typestate.ClosedOnce] at honce

theorem quitAndReconnect_safe :
    Always (fun s => HandlesSafe s.session) (system.execGet quitAndReconnect (by decide)).1
      (system.execGet quitAndReconnect (by decide)).2 :=
  (handles_safe_iff (run_execGet quitAndReconnect (by decide))).mpr (by unfold Each; decide)

end QtZooKeeper
