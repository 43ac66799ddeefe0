-- SUMMARY: The handle and the connection status, the calls into the library, and the session functions of the manager.
import QtZooKeeper.Client.Codes
import Mathlib.Logic.Function.Basic

/-!
# The session

The handle `m_zooHandle` with the fields that go with it, and beside them what
the library knows: the status of every handle it has given out, and the calls
made into it, oldest first. `quit` blocks in `zookeeper_close` while the client
still delivers events, so it is two steps here, up to the call and from its
return on.
-/

namespace QtZooKeeper

/-- A non-null `zhandle_t *` -/
abbrev HandleId := Nat

/-- The library functions that take a handle. -/
inductive LibFn where
  | zookeeperClose
  | zooClientId
  | zooState
  | zooAddAuth
  | zooAcreate
  | zooCreate
  | zooAdelete
  | zooDelete
  | zooAexists
  | zooExists
  | zooAset
  | zooSet
  | zooAget
  | zooGet
  | zooAgetChildren
  | zooGetChildren
  | zooWget
  | zooWgetChildren
  deriving DecidableEq, Repr

/-- The functions that read `zh->context` before any check of the handle. -/
def LibFn.readsThrough : LibFn → Bool
  | zooAget | zooGet | zooAexists | zooExists | zooAgetChildren | zooGetChildren => true
  | _ => false

/-- The arguments of a library call the properties speak about. -/
structure LibArgs where
  path : Bytes := []
  value : Bytes := []
  flag : Nat := 0
  deriving DecidableEq, Repr

/-- What happens between the manager and the library. -/
inductive LibCall where
  /-- `zookeeper_init` returns a handle, or null. -/
  | init (zh : Option HandleId)
  /-- A function is called with a handle, or null. -/
  | call (fn : LibFn) (zh : Option HandleId) (args : LibArgs)
  /-- `zookeeper_close` returns: the handle is gone. -/
  | closed (zh : HandleId)
  deriving DecidableEq, Repr

/-- The status of a handle. -/
inductive HandleStatus where
  | unused
  | open_
  /-- `quit` is inside `zookeeper_close`. -/
  | closing
  | closed
  deriving DecidableEq, Repr

/-- The client still delivers events on a handle until closing it returns. -/
def HandleStatus.delivers : HandleStatus → Bool
  | open_ | closing => true
  | unused | closed => false

/-- The fields of `ZooKeeperManagerPrivate` about the connection, and the
library's side of it. -/
structure Session where
  zooHandle : Option HandleId := none
  clientId : Int := 0
  timeout : Int := 30000
  host : QString := ""
  connected : Bool := false
  /-- The library's handles. -/
  handles : HandleId → HandleStatus := fun _ => .unused
  /-- The handle `quit` is closing right now. -/
  closing : Option HandleId := none
  /-- Single-shot timers that have not fired. -/
  timers : Nat := 0
  /-- The destructor has begun. -/
  destroyed : Bool := false
  calls : List LibCall := []

namespace Session

/-- A library call that is passed `m_zooHandle`. -/
def invoke (s : Session) (fn : LibFn) (args : LibArgs) : Session :=
  { s with calls := s.calls ++ [.call fn s.zooHandle args] }

/-- `ZooKeeperManager::initialize`, given what `zookeeper_init` returns. -/
def initializeHandle (host : QString) (timeout : Int) (zh : Option HandleId) (s : Session) : Session :=
  { s with
    host := host
    timeout := timeout
    clientId := 0
    -- a handle that was there before is forgotten, not closed
    zooHandle := zh
    handles := match zh with
      | some h => Function.update s.handles h .open_
      | none => s.handles
    timers := s.timers + 1
    calls := s.calls ++ [.init zh] }

/-- `zoo_client_id` in the `Connected` branch of `watcher`, and what follows it. -/
def connect (zzh : HandleId) (id : Int) (s : Session) : Session :=
  { s with
    calls := s.calls ++ [.call .zooClientId (some zzh) {}]
    clientId := if s.clientId = 0 ∨ s.clientId ≠ id then id else s.clientId
    connected := true }

/-- `zookeeper_close(zzh)` in `watcher`: it returns before anything else happens. -/
def close (zzh : HandleId) (s : Session) : Session :=
  -- `zooHandle` keeps the handle
  { s with
    calls := s.calls ++ [.call .zookeeperClose (some zzh) {}, .closed zzh]
    handles := Function.update s.handles zzh .closed }

/-- `quit` up to the call of `zookeeper_close`. -/
def quit (s : Session) : Session :=
  match s.zooHandle with
  | none => s
  | some h =>
    { s with
      connected := false
      calls := s.calls ++ [.call .zookeeperClose (some h) {}]
      handles := if s.handles h = .open_ then Function.update s.handles h .closing else s.handles
      closing := some h }

/-- `quit` from the return of `zookeeper_close` on. -/
def closeReturns (s : Session) : Session :=
  match s.closing with
  | none => s
  | some h =>
    { s with
      calls := s.calls ++ [.closed h]
      handles := Function.update s.handles h .closed
      zooHandle := none
      closing := none }

/-- The timer started by `initialize` calls `zoo_state`. -/
def timerFires (s : Session) : Session :=
  { s.invoke .zooState {} with timers := s.timers - 1 }

/-- `isConnected` -/
def isConnected (s : Session) : Bool := s.connected

/-- `zooKeeperId` -/
def zooKeeperId (s : Session) : Int := s.clientId

end Session

end QtZooKeeper
