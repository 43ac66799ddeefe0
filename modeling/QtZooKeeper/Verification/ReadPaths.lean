-- SUMMARY: When the four ways of reading a znode store or report the same value.
import QtZooKeeper.Manager.Outputs
import QtZooKeeper.Manager.PooledNodes

/-!
# The read paths

`agetCompletion` converts pointer and length. `getNodeValueSync` and the first
read of `wgetNodeValue` convert their buffer with the reported length. The data
watch callback converts its buffer up to the first zero byte, whatever the
result of the read. Each synchronous reader has a buffer on its own stack, with
bytes of any value in it.
-/

namespace QtZooKeeper

open FallibleSystem

variable {s : Manager} {data : ZnodeData} {v : QByteArray} {r : Request} {stack : Memory}
variable {path : QString} {n : NodeId} {ctx : CtxId} {w : Watch} {rc : Int}

namespace Manager

/-! ## What a read path yields -/

/-- The completion of a successful read stores `v` in the node of the path, and hands
it to the callback if there is one. -/
def AsyncYields (s : Manager) (r : Request) (data : ZnodeData) (v : QByteArray) : Prop :=
  ∃ s', s.agetCompletion r 0 data = .ok s' ∧
    (∃ n d, s'.pool.pooled r.path = some (n, d) ∧ d.value = v) ∧
    s'.reports = s.reports ++ if r.callback then [(.callback r.ctx, .nodeValue .noError v)] else []

/-- A successful `getNodeValueSync` returns a node with the value `v`. -/
def GetYields (s : Manager) (path : QString) (wantsError : Bool) (stack : Memory) (data : ZnodeData)
    (n : NodeId) (v : QByteArray) : Prop :=
  ∃ z, s.getNodeValueSync path wantsError ⟨stack, 0, data⟩ n = .ok z ∧
    ∃ m d, z.1.node = some m ∧ z.2.pool.nodes.Live m d ∧ d.value = v

/-- So does `wgetNodeValue` when its first read succeeds. -/
def WgetYields (s : Manager) (path : QString) (callback : Bool) (stack : Memory) (data : ZnodeData)
    (ctx : CtxId) (n : NodeId) (v : QByteArray) : Prop :=
  ∃ z, s.wgetNodeValue path callback ⟨stack, 0, data⟩ ctx n = .ok z ∧
    ∃ m d, z.1 = some m ∧ z.2.pool.nodes.Live m d ∧ d.value = v

/-- The data watch callback passes `v` on when its read is answered `rc`. -/
def WatchYields (s : Manager) (w : Watch) (type : ZooKeeperType) (state : Int) (path : Bytes)
    (stack : Memory) (rc : Int) (data : ZnodeData) (v : QByteArray) : Prop :=
  ∃ s', s.dataWatchEvent w type state path ⟨stack, rc, data⟩ = .ok s' ∧
    s'.reports = s.reports ++ [(if w.callback then .callback w.ctx else .manager,
      .wgetNodeValueFinished (.ofInt rc) w.path v type (.ofInt state))]

/-- The completion needs a node in the pool; it yields the data. -/
theorem asyncYields_iff (hp : s.pool.Sound) :
    s.AsyncYields r data (data.getD []) ↔ s.pool.Holds r.path := by
  constructor
  · rintro ⟨s', hs', -⟩
    simp only [agetCompletion, Except.bind_eq_ok] at hs'
    obtain ⟨p, hget, -⟩ := hs'
    have hpool : s.pool.agetCompletion .noError (completionValue data) r.path = .ok p := by
      split at hget <;> exact hget
    by_contra hno
    have hmissing : (s.pool.lookup r.path).join = none := by
      rw [Option.eq_none_iff_forall_ne_some]
      intro n hn
      exact hno ⟨n, Option.join_eq_some_iff.mp hn⟩
    rw [Pool.agetCompletion_missing rfl hmissing] at hpool
    cases hpool
  · rintro ⟨n, hk⟩
    obtain ⟨d, hl, -⟩ := hp r.path n hk
    obtain ⟨p, hpool, ha⟩ := Pool.agetCompletion_pooled .noError (completionValue data) hk hl
    obtain ⟨s', hstep, rfl⟩ := exists_step_deliver (c := .get 0 data) hpool
    refine ⟨s', hstep, ⟨n, d.answered .noError (completionValue data), ?_, rfl⟩,
      (Label.output hstep).reports⟩
    rw [Pool.pooled_eq_some, ha.lookup, ha.nodes]
    exact ⟨hk, Heap.live_put_self⟩

/-- A synchronous read that succeeds leaves the value it takes from the buffer in the
node it returns. -/
theorem value_of_readNodeSync {z : NodePtr × Pool}
    (h : s.pool.readNodeSync path n .noError v = .ok z) :
    ∃ m d, z.1 = some m ∧ z.2.nodes.Live m d ∧ d.value = v := by
  obtain ⟨i, d, hi, -, -, ha⟩ := Pool.readNodeSync_eq_ok h
  have hanswered : (s.pool.readNode path n).2.Answered z.2 i d .noError v := by
    simpa [ZooKeeperError.settles] using ha
  refine ⟨i, d.answered .noError v, hi, ?_, rfl⟩
  rw [hanswered.nodes]
  exact Heap.live_put_self

/-- It goes through if the path has no null entry. -/
theorem exists_readNodeSync (hp : s.pool.Sound) (hnull : s.pool.lookup path ≠ some none) :
    ∃ z, s.pool.readNodeSync path n .noError v = .ok z := by
  rcases s.pool.readNode_cases path n with ⟨node, hk, hr⟩ | ⟨-, hr⟩
  · cases node with
    | none => exact absurd hk hnull
    | some i =>
      obtain ⟨d, hl, -⟩ := hp path i hk
      exact Pool.readNodeSync_live .noError v (by rw [hr]) (by rw [hr]; exact hl)
  · exact Pool.readNodeSync_live (i := n) .noError v (by rw [hr]) (by rw [hr]; exact Heap.live_put_self)

/-- The value that is stored is the one taken from the buffer. -/
theorem stored_iff (hp : s.pool.Sound) (hnull : s.pool.lookup path ≠ some none) :
    (∃ u z, readValue ⟨stack, 0, data⟩ = .ok u ∧ s.pool.readNodeSync path n .noError u = .ok z ∧
      ∃ m d, z.1 = some m ∧ z.2.nodes.Live m d ∧ d.value = v) ↔
      readValue ⟨stack, 0, data⟩ = .ok v := by
  constructor
  · rintro ⟨u, z, hu, hz, m, d, hm, hl, rfl⟩
    obtain ⟨m', d', hm', hl', rfl⟩ := value_of_readNodeSync hz
    obtain rfl : m' = m := Option.some.inj (hm'.symm.trans hm)
    rw [hu, hl'.unique hl]
  · intro hv
    obtain ⟨z, hz⟩ := exists_readNodeSync (n := n) (v := v) hp hnull
    exact ⟨v, z, hv, hz, value_of_readNodeSync hz⟩

theorem getYields_iff {wantsError : Bool} (hp : s.pool.Sound)
    (hnull : s.pool.lookup path ≠ some none) :
    s.GetYields path wantsError stack data n v ↔ readValue ⟨stack, 0, data⟩ = .ok v := by
  rw [← stored_iff (n := n) hp hnull]
  constructor
  · rintro ⟨z, hz, hnode⟩
    simp only [getNodeValueSync, Except.bind_eq_ok, Except.pure_eq_ok] at hz
    obtain ⟨u, hu, y, hy, rfl⟩ := hz
    exact ⟨u, y, hu, hy, hnode⟩
  · rintro ⟨u, y, hu, hy, hnode⟩
    exact ⟨_, Except.bind_eq_ok.mpr ⟨u, hu, Except.bind_eq_ok.mpr ⟨y, hy, rfl⟩⟩, hnode⟩

theorem wgetYields_iff {callback : Bool} (hp : s.pool.Sound)
    (hnull : s.pool.lookup path ≠ some none) :
    s.WgetYields path callback stack data ctx n v ↔ readValue ⟨stack, 0, data⟩ = .ok v := by
  rw [← stored_iff (n := n) hp hnull]
  constructor
  · rintro ⟨z, hz, hnode⟩
    simp only [wgetNodeValue, Except.bind_eq_ok, Except.pure_eq_ok] at hz
    obtain ⟨u, hu, y, hy, rfl⟩ := hz
    exact ⟨u, y, hu, hy, hnode⟩
  · rintro ⟨u, y, hu, hy, hnode⟩
    exact ⟨_, Except.bind_eq_ok.mpr ⟨u, hu, Except.bind_eq_ok.mpr ⟨y, hy, rfl⟩⟩, hnode⟩

theorem watchYields_iff {type : ZooKeeperType} {state : Int} {event : Bytes} :
    s.WatchYields w type state event stack rc data v ↔ readText ⟨stack, rc, data⟩ = .ok v := by
  constructor
  · rintro ⟨s', hs', hreports⟩
    simp only [dataWatchEvent, Except.bind_eq_ok, Except.pure_eq_ok] at hs'
    obtain ⟨v', hv', rfl⟩ := hs'
    have hreport := List.append_cancel_left hreports
    simp only [List.cons.injEq, Prod.mk.injEq, Report.wgetNodeValueFinished.injEq] at hreport
    rw [hv', hreport.1.2.2.2.1]
  · intro hv
    exact ⟨_, Except.bind_eq_ok.mpr ⟨v, hv, rfl⟩, rfl⟩

end Manager

/-! ## The four paths -/

/-- A read of one path on each of the four ways: the completion of a request, the two
synchronous calls with the addresses of the objects they may make, and the callback of
a watch with the event it gets. -/
structure ReadPaths where
  request : Request
  wantsError : Bool
  getStack : Memory
  getNode : NodeId
  callback : Bool
  wgetStack : Memory
  wgetCtx : CtxId
  wgetNode : NodeId
  watch : Watch
  type : ZooKeeperType
  state : Int
  event : Bytes
  watchStack : Memory

namespace ReadPaths

/-- All four store or report the data of the znode, null data as an empty value. -/
structure Agree (x : ReadPaths) (s : Manager) (data : ZnodeData) : Prop where
  async : s.AsyncYields x.request data (data.getD [])
  get : s.GetYields x.request.path x.wantsError x.getStack data x.getNode (data.getD [])
  wget : s.WgetYields x.request.path x.callback x.wgetStack data x.wgetCtx x.wgetNode (data.getD [])
  watch : s.WatchYields x.watch x.type x.state x.event x.watchStack 0 data (data.getD [])

/-- The data is short, has no zero byte and is followed by one on the stack of
the watch callback; or it is null and every stack starts with a zero byte. -/
def TextFits (x : ReadPaths) (data : ZnodeData) : Prop :=
  match data with
  | some v => v.length < SyncRead.bufferSize ∧ 0 ∉ v ∧ x.watchStack v.length = 0
  | none => x.getStack 0 = 0 ∧ x.wgetStack 0 = 0 ∧ x.watchStack 0 = 0

instance (x : ReadPaths) (data : ZnodeData) : Decidable (x.TextFits data) := by
  unfold TextFits
  split <;> infer_instance

variable {x : ReadPaths}

/-- What the three buffers yield. -/
theorem textFits_iff : x.TextFits data ↔
    Manager.readValue ⟨x.getStack, 0, data⟩ = .ok (data.getD []) ∧
      Manager.readValue ⟨x.wgetStack, 0, data⟩ = .ok (data.getD []) ∧
      Manager.readText ⟨x.watchStack, 0, data⟩ = .ok (data.getD []) := by
  have hsync : ∀ stack : Memory, Manager.readValue ⟨stack, 0, data⟩ = .ok (data.getD []) ↔
      (SyncRead.mk stack 0 data).Fits := by
    intro stack
    rw [Manager.readValue_succeeded rfl]
    exact SyncRead.value_eq_iff_fits rfl
  rw [hsync, hsync, Manager.readText_eq_ok]
  cases data with
  | some v =>
    simp only [TextFits, SyncRead.Fits, Option.getD_some, SyncRead.text_eq_data_iff]
    constructor
    · intro h
      exact ⟨h.1.le, h.1.le, h⟩
    · exact fun h => h.2.2
  | none =>
    simp only [TextFits, SyncRead.Fits, Option.getD_none]
    rw [SyncRead.text_unwritten SyncRead.buffer_null]

theorem agree_iff (hp : s.pool.Sound) :
    x.Agree s data ↔ s.pool.Holds x.request.path ∧ x.TextFits data := by
  constructor
  · intro h
    have hholds := (Manager.asyncYields_iff hp).mp h.async
    have hnull : s.pool.lookup x.request.path ≠ some none := by
      obtain ⟨n, hn⟩ := hholds
      simp [hn]
    exact ⟨hholds, textFits_iff.mpr ⟨(Manager.getYields_iff hp hnull).mp h.get,
      (Manager.wgetYields_iff hp hnull).mp h.wget, Manager.watchYields_iff.mp h.watch⟩⟩
  · rintro ⟨hholds, hfits⟩
    have hnull : s.pool.lookup x.request.path ≠ some none := by
      obtain ⟨n, hn⟩ := hholds
      simp [hn]
    obtain ⟨hget, hwget, hwatch⟩ := textFits_iff.mp hfits
    exact {
      async := (Manager.asyncYields_iff hp).mpr hholds
      get := (Manager.getYields_iff hp hnull).mpr hget
      wget := (Manager.wgetYields_iff hp hnull).mpr hwget
      watch := Manager.watchYields_iff.mpr hwatch }

end ReadPaths

/-- After a failed read the watch callback passes on an empty value exactly when
its buffer starts with a zero byte. -/
theorem failed_watch_iff {type : ZooKeeperType} {state : Int} {event : Bytes} (hrc : rc ≠ 0) :
    s.WatchYields w type state event stack rc data [] ↔ stack 0 = 0 := by
  rw [Manager.watchYields_iff, Manager.readText_eq_ok]
  exact SyncRead.text_unwritten (SyncRead.buffer_failed hrc)

/-- When a successful read of a path yields the data on all four paths, in any
reachable state, and a failed one an empty value in the watch callback. -/
theorem read_paths_iff (hs : system.Reachable s) (x : ReadPaths) (data : ZnodeData) :
    (x.Agree s data ↔ s.pool.Holds x.request.path ∧ x.TextFits data) ∧
    ∀ rc, rc ≠ 0 → (s.WatchYields x.watch x.type x.state x.event x.watchStack rc data [] ↔
      x.watchStack 0 = 0) :=
  ⟨ReadPaths.agree_iff (sound_of_reachable hs), fun _ hrc => failed_watch_iff hrc⟩

/-- A read of `/b` is in flight. -/
def readInFlight : List Label := sessionOpen ++ [.call (.getNodeValue "/b" true false 0 0 0)]

/-- Four reads of `/b`, the watch callback over the buffer `watchStack`. -/
def fourReads (watchStack : Memory) : ReadPaths where
  request := { ctx := 0, op := .get, path := "/b", node := some 0, callback := true }
  wantsError := true
  getStack := fun _ => 0
  getNode := 1
  callback := false
  wgetStack := fun _ => 0
  wgetCtx := 1
  wgetNode := 1
  watch := { ctx := 2, path := "/b", callback := false, children := false }
  type := .changedEvent
  state := 3
  event := [47, 98]
  watchStack := watchStack

/-- The value `hi` over buffers of zeros, and a failed read of it. -/
theorem read_paths_zeroed :
    (fourReads fun _ => 0).Agree (system.execGet readInFlight (by decide)).2 (some [104, 105]) ∧
      (system.execGet readInFlight (by decide)).2.WatchYields
        { ctx := 2, path := "/b", callback := false, children := false } .changedEvent 3 [47, 98]
        (fun _ => 0) (-4) none [] := by
  have hs : system.Reachable (system.execGet readInFlight (by decide)).2 :=
    reachable_execGet readInFlight (by decide)
  exact ⟨(read_paths_iff hs (fourReads fun _ => 0) (some [104, 105])).1.mpr ⟨by decide, by decide⟩,
    ((read_paths_iff hs (fourReads fun _ => 0) none).2 (-4) (by decide)).mpr rfl⟩

/-- The value `hi`, with `x` behind it on the stack. -/
theorem unterminated_not_agree : ¬ ∀ s (x : ReadPaths) data, system.Reachable s →
    s.pool.Holds x.request.path → x.Agree s data := by
  intro h
  have hs : system.Reachable (system.execGet readInFlight (by decide)).2 :=
    reachable_execGet readInFlight (by decide)
  have hagree := h _ (fourReads fun i => if i = 2 then 120 else 0) (some [104, 105]) hs (by decide)
  exact absurd ((ReadPaths.agree_iff (sound_of_reachable hs)).mp hagree).2 (by decide)

end QtZooKeeper
