-- SUMMARY: The manager with the client's watches: registration, events, and the callbacks that read again.
import QtZooKeeper.Client.Watches
import QtZooKeeper.Manager.Steps

/-!
# The watch machine

The client's I/O thread receives events and answers; it collects the watchers of
an event at once and queues it. The completion thread takes the queued events one
by one and runs the callback of each watcher. A callback reads the path again, and
while it waits for the answer the I/O thread can receive anything else.
-/

namespace QtZooKeeper

open FallibleSystem

/-! ## Watches and events -/

namespace Watch

/-- The watcher object the client makes of a watch. -/
def object (w : Watch) : WatcherObject where
  watcher := if w.children then .wgetChildrenNode else .wgetNodeValue
  context := some w.ctx

/-- The checker that `zoo_wget` or `zoo_wget_children` registers for it. -/
def checker (w : Watch) : ResultChecker :=
  if w.children then .childResultChecker else .dataResultChecker

/-- The table the watch is armed in. -/
def table (w : Watch) : WatchTable :=
  if w.children then .activeChildWatchers else .activeNodeWatchers

/-- The path the watch is armed under. -/
def serverPath (chroot : Option Bytes) (w : Watch) : Bytes :=
  prependString chroot (constData (toLatin1 w.path))

/-- The watcher object and the server path of the watch, under which it is registered. -/
def key (chroot : Option Bytes) (w : Watch) : WatcherObject × Bytes := (w.object, w.serverPath chroot)

theorem table_checker (w : Watch) : w.checker.table 0 = some w.table := by
  unfold checker table
  cases w.children <;> rfl

/-- The checker belongs to the callback. -/
theorem checker_of_object {w w' : Watch} (h : w'.object = w.object) : w'.checker = w.checker := by
  have hfn : (if w'.children then WatcherFn.wgetChildrenNode else .wgetNodeValue) =
      if w.children then .wgetChildrenNode else .wgetNodeValue := congrArg WatcherObject.watcher h
  unfold checker
  cases hc' : w'.children <;> cases hc : w.children <;> simp [hc, hc'] at hfn ⊢

end Watch

/-- An event in `completions_to_process`, with its delivery list. -/
structure WatchDelivery where
  type : ZooKeeperType
  state : Int
  path : Bytes
  watchers : WatcherList
  deriving DecidableEq

namespace WatchDelivery

/-- The path the callbacks get (`do_foreach_watcher`). -/
def clientPath (chroot : Option Bytes) (e : WatchDelivery) : Bytes :=
  if e.type ≠ .sessionEvent then subString chroot e.path else e.path

/-- The callback that runs first, if there is one; its read is not answered yet. -/
def start (e : WatchDelivery) : Option (WatchDelivery × Bool) :=
  if e.watchers = [] then none else some (e, false)

end WatchDelivery

/-- The result code of the read a watch callback makes. -/
def Manager.WatchAnswer.rc : Manager.WatchAnswer → Int
  | value r => r.rc
  | children rc _ => rc

/-! ## What the manager keeps of its watches -/

namespace Manager

variable {s s' : Manager}

/-- A first read that succeeds registers the watch. -/
theorem wgetNodeValue_watches {path : QString} {callback : Bool} {r : SyncRead} {ctx : CtxId}
    {n : NodeId} {node : NodePtr} (h : s.wgetNodeValue path callback r ctx n = .ok (node, s')) :
    s'.watches = if r.rc = 0 then
      s.watches ++ [{ ctx := ctx, path := path, callback := callback, children := false }]
      else s.watches := by
  simp only [wgetNodeValue, Except.bind_eq_ok, Except.pure_eq_ok, Prod.mk.injEq] at h
  obtain ⟨_, -, _, -, -, rfl⟩ := h
  rfl

theorem watchEvent_watches {w : Watch} {type : ZooKeeperType} {state : Int} {path : Bytes}
    {a : WatchAnswer} (h : s.watchEvent w type state path a = .ok s') : s'.watches = s.watches := by
  cases a with
  | value r =>
    simp only [watchEvent, dataWatchEvent, Except.bind_eq_ok, Except.pure_eq_ok] at h
    obtain ⟨_, -, rfl⟩ := h
    rfl
  | children rc strings =>
    simp only [watchEvent, Except.pure_eq_ok] at h
    subst h
    rfl

theorem watcher_watches {zzh : HandleId} {type : ZooKeeperType} {state : Int} {path : QString}
    {client : Int} (h : s.watcher zzh type state path client = .ok s') : s'.watches = s.watches := by
  obtain ⟨t, rfl, ⟨-, rfl⟩ | ⟨-, -, rfl⟩ | ⟨-, pool, -, rfl⟩⟩ := watcher_cases h
  · rfl
  · rfl
  · rfl

end Manager

/-! ## The machine -/

/-- The manager, the tables and the queue of its handle, and the event that is
being delivered. -/
structure Watched where
  manager : Manager := {}
  tables : WatchTables := fun _ => ∅
  queue : List WatchDelivery := []
  /-- The event with the watchers whose callbacks have not returned, and whether the
  read of the first of them has been answered. -/
  delivering : Option (WatchDelivery × Bool) := none
  /-- History: whether the session has ended. -/
  ended : Bool := false
  /-- History: the registrations whose znode has been deleted since they last read it. -/
  gone : List (WatcherObject × Bytes) := []

namespace Watched

/-- The watcher whose callback is to read. -/
def running (x : Watched) : Option WatcherObject :=
  match x.delivering with
  | some (e, false) => e.watchers.head?
  | _ => none

/-- The registrations for the server path. -/
def registered (chroot : Option Bytes) (path : Bytes) (x : Watched) : List (WatcherObject × Bytes) :=
  (x.manager.watches.map (Watch.key chroot)).filter fun z => z.2 = path

/-- The read of the server path that asked for the watch `w` is answered with `rc`: `ZOK`
says that the znode is there. -/
def readAnswered (path : Bytes) (w : Watch) (rc : Int) (x : Watched) : Watched :=
  { x with
    tables := activateWatcher w.checker path w.object rc x.tables
    gone := if rc = 0 then x.gone.filter fun z => z ≠ (w.object, path) else x.gone }

/-- The callback that runs has its answer. -/
def hasAnswer (x : Watched) : Bool :=
  match x.delivering with
  | some (_, answered) => answered
  | none => false

end Watched

inductive WatchLabel where
  /-- `wgetNodeValue` and `wgetChildrenNode`, with the answer of the first read. -/
  | wgetNodeValue (path : QString) (callback : Bool) (r : SyncRead) (ctx : CtxId) (n : NodeId)
  | wgetChildrenNode (path : QString) (callback : Bool) (ret : Int) (strings : List QString)
      (ctx : CtxId)
  /-- The server deletes a znode. -/
  | serverDelete (path : Bytes)
  /-- The client receives an event, or finds that the session state has changed. -/
  | event (type : ZooKeeperType) (state : Int) (path : Bytes)
  /-- The completion thread takes the next event. -/
  | deliver
  /-- The default watcher is called. -/
  | defaultWatcher (zzh : HandleId) (client : Int)
  /-- The callback of the watch reads again and passes the answer on. -/
  | reread (w : Watch) (a : Manager.WatchAnswer)
  | handlerReturns

namespace WatchLabel

def Enabled : WatchLabel → Watched → Prop
  | wgetNodeValue _ _ _ ctx n, x => ctx ∉ x.manager.allocated ∧ x.manager.pool.nodes.Fresh n
  | wgetChildrenNode _ _ _ _ ctx, x => ctx ∉ x.manager.allocated
  | serverDelete _, _ => True
  -- session events have no path
  | event type _ path, _ => type = .sessionEvent → path = []
  | deliver, x => x.delivering = none ∧ x.queue ≠ []
  | defaultWatcher _ _, x => x.running = some ⟨.watcher, none⟩
  | reread w a, x =>
    x.running = some w.object ∧ w ∈ x.manager.watches ∧ a.isChildren = w.children
  | handlerReturns, x => x.hasAnswer = true

instance (l : WatchLabel) (x : Watched) : Decidable (l.Enabled x) := by
  cases l <;> unfold Enabled <;> infer_instance

def step (chroot : Option Bytes) : WatchLabel → Watched → Except AccessFault Watched
  | wgetNodeValue path callback r ctx n, x => do
    let (_, manager) ← x.manager.wgetNodeValue path callback r ctx n
    let w : Watch := { ctx := ctx, path := path, callback := callback, children := false }
    pure ({ x with manager := manager }.readAnswered (w.serverPath chroot) w r.rc)
  | wgetChildrenNode path callback ret strings ctx, x =>
    let w : Watch := { ctx := ctx, path := path, callback := callback, children := true }
    let manager := (x.manager.wgetChildrenNode path callback ret strings ctx).2
    pure ({ x with manager := manager }.readAnswered (w.serverPath chroot) w ret)
  | serverDelete path, x => pure { x with gone := x.registered chroot path ++ x.gone }
  | event type state path, x =>
    let (list, tables) := collectWatchers type path x.tables
    pure { x with
      tables := tables
      queue := x.queue ++ [⟨type, state, path, list⟩]
      ended := x.ended || disconnects type (.ofInt state)
      gone := if type = .deletedEvent then x.registered chroot path ++ x.gone else x.gone }
  | deliver, x =>
    match x.queue with
    | [] => pure x
    | e :: queue => pure { x with queue := queue, delivering := e.start }
  | defaultWatcher zzh client, x =>
    match x.delivering with
    | none => pure x
    | some (e, _) => do
      let manager ← x.manager.watcher zzh e.type e.state "" client
      pure { x with manager := manager, delivering := some (e, true) }
  | reread w a, x =>
    match x.delivering with
    | none => pure x
    | some (e, _) => do
      let path := e.clientPath chroot
      let manager ← x.manager.watchEvent w e.type e.state path a
      let x := { x with manager := manager, delivering := some (e, true) }
      pure (x.readAnswered (prependString chroot path) w a.rc)
  | handlerReturns, x =>
    match x.delivering with
    | none => pure x
    | some (e, _) => pure { x with delivering := { e with watchers := e.watchers.tail }.start }

end WatchLabel

/-- The machine of a handle with the given chroot. -/
def watchSystem (chroot : Option Bytes) : FallibleSystem Watched WatchLabel AccessFault where
  init := {}
  enabled := WatchLabel.Enabled
  step := WatchLabel.step chroot

instance (chroot : Option Bytes) (l : WatchLabel) (x : Watched) :
    Decidable ((watchSystem chroot).enabled l x) := inferInstanceAs (Decidable (l.Enabled x))

end QtZooKeeper
