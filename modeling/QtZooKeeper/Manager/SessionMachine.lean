-- SUMMARY: The session as a machine of its own, and the link between the statuses of handles and the calls made.
import QtZooKeeper.Base.Heap
import QtZooKeeper.Base.Runs
import QtZooKeeper.Base.Typestate
import QtZooKeeper.Manager.Session

/-!
# The session machine

The operations of `Manager/Session.lean` as the steps of a machine, like the pool
machine: the session of the manager is a run of it. The statuses the model keeps
for the handles are determined by the calls made so far (`Linked`).
-/

namespace QtZooKeeper

open FallibleSystem

/-- What one step of the manager does to the session. -/
inductive SessionOp where
  | keep
  | initializeHandle (host : QString) (timeout : Int) (zh : Option HandleId)
  /-- Library calls with `m_zooHandle`, other than `zookeeper_close`. -/
  | invoke (fn : LibFn) (args : LibArgs)
  | connect (zzh : HandleId) (id : Int)
  /-- The terminal session events. -/
  | terminate (zzh : HandleId)
  | quit
  | destructor
  | timerFires
  | closeReturns
  deriving DecidableEq, Repr

namespace SessionOp

def Enabled : SessionOp → Session → Prop
  | initializeHandle _ _ zh, s => s.closing = none ∧ ∀ h ∈ zh, s.handles h = .unused
  | invoke fn _, _ => fn ≠ .zookeeperClose
  | connect zzh _, s => (s.handles zzh).delivers = true
  | terminate zzh, s => (s.handles zzh).delivers = true
  | quit, s => s.closing = none
  | destructor, s => s.closing = none
  | _, _ => True

def apply : SessionOp → Session → Session
  | keep, s => s
  | initializeHandle host timeout zh, s => s.initializeHandle host timeout zh
  | invoke fn args, s => s.invoke fn args
  | connect zzh id, s => s.connect zzh id
  | terminate zzh, s => { s.close zzh with connected := false }
  | quit, s => s.quit
  | destructor, s => { s.quit with destroyed := true }
  | timerFires, s => s.timerFires
  | closeReturns, s => s.closeReturns

end SessionOp

/-- The session machine. -/
def sessionSystem : FallibleSystem Session SessionOp AccessFault where
  init := {}
  enabled := SessionOp.Enabled
  step op s := pure (op.apply s)

/-! ## The statuses of the handles -/

/-- What the calls between manager and library mean for the handles. -/
def libTypestate : Typestate LibCall HandleId where
  opens c h := c = .init (some h)
  closes c h := ∃ args, c = .call .zookeeperClose (some h) args
  ends c h := c = .closed h
  passes c h := ∃ fn args, c = .call fn (some h) args

@[simp] theorem libTypestate_closes {c : LibCall} {h : HandleId} :
    libTypestate.closes c h ↔ ∃ args, c = .call .zookeeperClose (some h) args := Iff.rfl

@[simp] theorem libTypestate_ends {c : LibCall} {h : HandleId} :
    libTypestate.ends c h ↔ c = .closed h := Iff.rfl

@[simp] theorem libTypestate_passes {c : LibCall} {h : HandleId} :
    libTypestate.passes c h ↔ ∃ fn args, c = .call fn (some h) args := Iff.rfl

section Linked

variable {s s' : Session} {h z : HandleId} {fn : LibFn} {zh : Option HandleId} {args : LibArgs}
variable {c : LibCall} {t : List LibCall} {st : HandleStatus}

/-- What a status says about the calls made so far. -/
structure StatusAt (t : List LibCall) (h : HandleId) (st : HandleStatus) : Prop where
  opened : libTypestate.Opened t h ↔ st ≠ .unused
  closeStarted : libTypestate.CloseStarted t h ↔ st = .closing ∨ st = .closed
  ended : libTypestate.Ended t h ↔ st = .closed

theorem statusAt_nil : StatusAt [] h .unused where
  opened := by simp [Typestate.Opened]
  closeStarted := by simp [Typestate.CloseStarted]
  ended := by simp [Typestate.Ended]

theorem opened_snoc : libTypestate.Opened (t ++ [c]) h ↔
    libTypestate.Opened t h ∨ c = .init (some h) := by
  rw [Typestate.opened_append]
  simp [Typestate.Opened, libTypestate, eq_comm]

theorem closeStarted_snoc : libTypestate.CloseStarted (t ++ [c]) h ↔
    libTypestate.CloseStarted t h ∨ ∃ args, c = .call .zookeeperClose (some h) args := by
  rw [Typestate.closeStarted_append]
  simp [Typestate.CloseStarted, libTypestate]

theorem ended_snoc : libTypestate.Ended (t ++ [c]) h ↔
    libTypestate.Ended t h ∨ c = .closed h := by
  rw [Typestate.ended_append]
  simp [Typestate.Ended, libTypestate, eq_comm]

/-- Calls that neither open nor close the handle leave its status. -/
theorem StatusAt.other (hs : StatusAt t h st) (hopen : c ≠ .init (some h))
    (hclose : ∀ args, c ≠ .call .zookeeperClose (some h) args) (hend : c ≠ .closed h) :
    StatusAt (t ++ [c]) h st where
  opened := by simp [opened_snoc, hs.opened, hopen]
  closeStarted := by simp [closeStarted_snoc, hs.closeStarted, hclose]
  ended := by simp [ended_snoc, hs.ended, hend]

theorem StatusAt.init (hs : StatusAt t h .unused) : StatusAt (t ++ [.init (some h)]) h .open_ where
  opened := by simp [opened_snoc]
  closeStarted := by simp [closeStarted_snoc, hs.closeStarted]
  ended := by simp [ended_snoc, hs.ended]

theorem StatusAt.close (hs : StatusAt t h st) (hused : st ≠ .unused) :
    StatusAt (t ++ [.call .zookeeperClose (some h) args]) h
      (if st = .closed then .closed else .closing) := by
  by_cases hst : st = .closed
  · rw [if_pos hst]
    exact {
      opened := by simp [opened_snoc, hs.opened, hused]
      closeStarted := by simp [closeStarted_snoc]
      ended := by simp [ended_snoc, hs.ended, hst] }
  · rw [if_neg hst]
    exact {
      opened := by simp [opened_snoc, hs.opened, hused]
      closeStarted := by simp [closeStarted_snoc]
      ended := by simp [ended_snoc, hs.ended, hst] }

theorem StatusAt.closeReturns (hs : StatusAt t h st) (hst : st = .closing ∨ st = .closed) :
    StatusAt (t ++ [.closed h]) h .closed where
  opened := by
    have hused : st ≠ .unused := by
      intro hu
      simp [hu] at hst
    simp [opened_snoc, hs.opened, hused]
  closeStarted := by simp [closeStarted_snoc, hs.closeStarted, hst]
  ended := by simp [ended_snoc]

/-- The statuses of the handles match the calls made so far. -/
structure Linked (s : Session) : Prop where
  status : ∀ h, StatusAt s.calls h (s.handles h)
  closing : ∀ h, s.handles h = .closing → s.closing = some h
  closingStatus : ∀ h, s.closing = some h → s.handles h = .closing ∨ s.handles h = .closed
  zooHandle : ∀ h, s.zooHandle = some h → s.handles h ≠ .unused

theorem linked_init : Linked {} where
  status h := statusAt_nil
  closing := by simp
  closingStatus := by simp
  zooHandle := by simp

/-- A call of another function than `zookeeper_close`. -/
theorem Linked.call (hl : Linked s) (hfn : fn ≠ .zookeeperClose)
    (hcalls : s'.calls = s.calls ++ [.call fn zh args]) (hhandles : s'.handles = s.handles)
    (hclosing : s'.closing = s.closing) (hzh : s'.zooHandle = s.zooHandle) : Linked s' := by
  refine ⟨?_, ?_, ?_, ?_⟩
  · intro h
    rw [hcalls, hhandles]
    exact (hl.status h).other (by simp) (by simp [hfn]) (by simp)
  · rw [hhandles, hclosing]
    exact hl.closing
  · rw [hhandles, hclosing]
    exact hl.closingStatus
  · rw [hhandles, hzh]
    exact hl.zooHandle

theorem Linked.initializeHandle {host : QString} {timeout : Int} (hl : Linked s)
    (hclosing : s.closing = none) (hh : ∀ h ∈ zh, s.handles h = .unused) :
    Linked (s.initializeHandle host timeout zh) := by
  cases zh with
  | none =>
    refine ⟨?_, hl.closing, hl.closingStatus, by simp [Session.initializeHandle]⟩
    intro h
    exact (hl.status h).other (by simp) (by simp) (by simp)
  | some z =>
    have hz : s.handles z = .unused := hh z rfl
    refine ⟨?_, ?_, ?_, ?_⟩
    · intro h
      by_cases hhz : h = z
      · subst hhz
        have hinit := (hz ▸ hl.status h).init
        simpa [Session.initializeHandle] using hinit
      · have hother := (hl.status h).other (c := .init (some z)) (by simp [Ne.symm hhz]) (by simp)
          (by simp)
        simpa [Session.initializeHandle, hhz] using hother
    · intro h hst
      by_cases hhz : h = z
      · simp [Session.initializeHandle, hhz] at hst
      · exact hl.closing h (by simpa [Session.initializeHandle, hhz] using hst)
    · intro h hst
      simp [Session.initializeHandle, hclosing] at hst
    · intro h hzh
      obtain rfl : z = h := by simpa [Session.initializeHandle] using hzh
      simp [Session.initializeHandle]

/-- `zookeeper_close` by `watcher`. -/
theorem Linked.terminate (hl : Linked s) (hz : (s.handles z).delivers = true) :
    Linked { s.close z with connected := false } := by
  have hused : s.handles z ≠ .unused := by
    intro hu
    simp [hu, HandleStatus.delivers] at hz
  refine ⟨?_, ?_, ?_, ?_⟩
  · intro h
    by_cases hhz : h = z
    · subst hhz
      have hclose : StatusAt (s.calls ++ [.call .zookeeperClose (some h) {}]) h _ :=
        (hl.status h).close hused
      have hreturns := hclose.closeReturns (by split <;> simp)
      simpa [Session.close] using hreturns
    · have hother := (hl.status h).other (c := .call .zookeeperClose (some z) {}) (by simp)
        (by simp [Ne.symm hhz]) (by simp)
      have hother' := hother.other (c := .closed z) (by simp) (by simp) (by simp [Ne.symm hhz])
      simpa [Session.close, hhz] using hother'
  · intro h hst
    by_cases hhz : h = z
    · simp [Session.close, hhz] at hst
    · exact hl.closing h (by simpa [Session.close, hhz] using hst)
  · intro h hc
    by_cases hhz : h = z
    · simp [Session.close, hhz]
    · simpa [Session.close, hhz] using hl.closingStatus h hc
  · intro h hzh
    by_cases hhz : h = z
    · simp [Session.close, hhz]
    · simpa [Session.close, hhz] using hl.zooHandle h hzh

/-- `zookeeper_close` by `quit`: a handle that is closed already stays closed. -/
theorem Linked.quit (hl : Linked s) (hclosing : s.closing = none) : Linked s.quit := by
  cases hzh : s.zooHandle with
  | none =>
    rw [Session.quit, hzh]
    exact hl
  | some z =>
    have hused := hl.zooHandle z hzh
    -- only one `quit` at a time is inside `zookeeper_close`
    have hnot : s.handles z ≠ .closing := by
      intro hc
      cases hclosing.symm.trans (hl.closing z hc)
    have hstatus : s.quit.handles z = if s.handles z = .closed then .closed else .closing := by
      simp only [Session.quit, hzh]
      cases hst : s.handles z with
      | unused => exact absurd hst hused
      | open_ => simp
      | closing => exact absurd hst hnot
      | closed => simp [hst]
    have hother : ∀ h, h ≠ z → s.quit.handles h = s.handles h := by
      intro h hhz
      simp only [Session.quit, hzh]
      split
      · simp [hhz]
      · rfl
    have hc : s.quit.closing = some z := by simp [Session.quit, hzh]
    refine ⟨?_, ?_, ?_, ?_⟩
    · intro h
      have hcalls : s.quit.calls = s.calls ++ [.call .zookeeperClose (some z) {}] := by
        simp [Session.quit, hzh]
      rw [hcalls]
      by_cases hhz : h = z
      · subst hhz
        rw [hstatus]
        exact (hl.status h).close hused
      · rw [hother h hhz]
        exact (hl.status h).other (by simp) (by simp [Ne.symm hhz]) (by simp)
    · intro h hst
      by_cases hhz : h = z
      · rw [hc, hhz]
      · rw [hother h hhz] at hst
        cases hclosing.symm.trans (hl.closing h hst)
    · intro h hst
      obtain rfl : z = h := by simpa [hc] using hst
      rw [hstatus]
      split <;> simp
    · intro h hst
      obtain rfl : z = h := by simpa [Session.quit, hzh] using hst
      rw [hstatus]
      split <;> simp

theorem Linked.closeReturns (hl : Linked s) : Linked s.closeReturns := by
  cases hz : s.closing with
  | none =>
    rw [Session.closeReturns, hz]
    exact hl
  | some z =>
    simp only [Session.closeReturns, hz]
    refine ⟨?_, ?_, by simp, by simp⟩
    · intro h
      by_cases hhz : h = z
      · subst hhz
        simpa using (hl.status h).closeReturns (hl.closingStatus h hz)
      · have hother := (hl.status h).other (c := .closed z) (by simp) (by simp)
          (by simp [Ne.symm hhz])
        simpa [hhz] using hother
    · intro h hst
      by_cases hhz : h = z
      · simp [hhz] at hst
      · have hc := hl.closing h (by simpa [hhz] using hst)
        exact absurd (Option.some.inj (hc.symm.trans hz)) hhz

theorem Linked.apply (hl : Linked s) (op : SessionOp) (he : op.Enabled s) : Linked (op.apply s) := by
  cases op with
  | keep => exact hl
  | initializeHandle host timeout zh => exact hl.initializeHandle he.1 he.2
  | invoke fn args => exact hl.call he rfl rfl rfl rfl
  | connect zzh client =>
    have hfn : LibFn.zooClientId ≠ .zookeeperClose := by decide
    exact hl.call hfn rfl rfl rfl rfl
  | terminate zzh => exact hl.terminate he
  | quit => exact hl.quit he
  | destructor =>
    have hq := hl.quit he
    exact ⟨hq.status, hq.closing, hq.closingStatus, hq.zooHandle⟩
  | timerFires =>
    have hfn : LibFn.zooState ≠ .zookeeperClose := by decide
    exact hl.call hfn rfl rfl rfl rfl
  | closeReturns => exact hl.closeReturns

theorem linked_of_reachable (h : sessionSystem.Reachable s) : Linked s := by
  refine h.invariant linked_init ?_
  intro s op s' hl he hs
  obtain rfl : op.apply s = s' := by simpa [sessionSystem] using hs
  exact hl.apply op he

/-- `quit` closes the handle the manager has. -/
theorem zooHandle_of_closing (hs : sessionSystem.Reachable s) (hc : s.closing = some h) :
    s.zooHandle = some h := by
  refine hs.invariant (P := fun s => ∀ h, s.closing = some h → s.zooHandle = some h) ?_ ?_ h hc
  · intro h hc
    cases hc
  intro s op s' hinv he hstep
  obtain rfl : op.apply s = s' := by simpa [sessionSystem] using hstep
  cases op with
  | initializeHandle host timeout zh =>
    intro h hc
    have hnone : s.closing = none := he.1
    cases hnone.symm.trans hc
  | quit | destructor =>
    intro h hc
    simp only [SessionOp.apply, Session.quit] at hc ⊢
    split at hc
    · exact hinv h hc
    · next z hz => exact hz.trans hc
  | closeReturns =>
    intro h hc
    simp only [SessionOp.apply, Session.closeReturns] at hc ⊢
    split at hc
    · exact hinv h hc
    · cases hc
  | _ => exact hinv

/-- A handle that is unused after an operation was unused before. -/
theorem unused_of_apply (op : SessionOp) (hu : (op.apply s).handles h = .unused) :
    s.handles h = .unused := by
  have hupdate : ∀ {handles : HandleId → HandleStatus} {z : HandleId} {st : HandleStatus},
      st ≠ .unused → Function.update handles z st h = .unused → handles h = .unused := by
    intro handles z st hst hu
    by_cases hz : h = z
    · subst hz
      rw [Function.update_self] at hu
      exact absurd hu hst
    · rwa [Function.update_of_ne hz] at hu
  cases op with
  | initializeHandle host timeout zh =>
    cases zh with
    | none => exact hu
    | some z => exact hupdate (by simp) hu
  | terminate zzh => exact hupdate (by simp) hu
  | quit | destructor =>
    simp only [SessionOp.apply, Session.quit] at hu
    split at hu
    · exact hu
    · simp only at hu
      split at hu
      · exact hupdate (by simp) hu
      · exact hu
  | closeReturns =>
    simp only [SessionOp.apply, Session.closeReturns] at hu
    split at hu
    · exact hu
    · exact hupdate (by simp) hu
  | _ => exact hu

end Linked

end QtZooKeeper
