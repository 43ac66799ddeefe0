-- SUMMARY: When the cached value of every pooled node is the latest one the client has learned for it.
import QtZooKeeper.Manager.NodeHistory
import Mathlib.Logic.Function.Basic

/-!
# Coherence of the cached values

A node keeps a copy of its znode's value. Besides the manager this module keeps
what the manager does not: for each node, the answers about its path since it
came into the pool. The copy is coherent if it is the value established by the
latest of them. The writing functions and the data watch callback learn a value
without storing it, and `createNode` stores one before the client has answered.
-/

namespace QtZooKeeper

open FallibleSystem

/-! ## Answers -/

/-- What an answer says about the value of its path. -/
inductive Answer where
  | value (v : QByteArray)
  /-- A create of the value `v` found the znode there. -/
  | nodeExists (v : QByteArray)
  | other
  deriving DecidableEq, Repr

namespace Answer

/-- The answer to a read of the value `v`, or to a write of it. -/
def ofResult (error : ZooKeeperError) (v : QByteArray) : Answer :=
  if error = .noError then .value v else .other

/-- The answer to a create of the value `v`. -/
def ofCreate (error : ZooKeeperError) (v : QByteArray) : Answer :=
  match error with
  | .noError => .value v
  | .nodeExists => .nodeExists v
  | _ => .other

def establishes : Answer → Option QByteArray
  | value v => some v
  | _ => none

def isNodeExists : Answer → Bool
  | nodeExists _ => true
  | _ => false

end Answer

/-- The answers about the path of each node, since it came into the pool. -/
abbrev Answers := NodeId → List Answer

/-- The value established by the latest answer that establishes one. -/
def latestValue (h : List Answer) : Option QByteArray := h.reverse.findSome? Answer.establishes

theorem latestValue_snoc {h : List Answer} {a : Answer} :
    latestValue (h ++ [a]) = a.establishes.or (latestValue h) := by
  rw [latestValue, List.reverse_append, List.reverse_singleton, List.singleton_append,
    List.findSome?_cons]
  cases a.establishes <;> rfl

/-- The value `x` of a node agrees with the answers `h`: it is the latest
established value, and not that of a create as long as all the node has is that
its znode existed before. -/
structure Coherent (h : List Answer) (x : QByteArray) : Prop where
  latest : ∀ v, latestValue h = some v → x = v
  notCallers : (∀ a ∈ h, a.isNodeExists = true) → ∀ v, .nodeExists v ∈ h → x ≠ v

theorem coherent_nil {x : QByteArray} : Coherent [] x where
  latest := nofun
  notCallers := nofun

theorem coherent_value_iff {h : List Answer} {v x : QByteArray} :
    Coherent (h ++ [.value v]) x ↔ x = v := by
  constructor
  · intro hc
    exact hc.latest v (by rw [latestValue_snoc]; rfl)
  · rintro rfl
    constructor
    · intro u hu
      rw [latestValue_snoc] at hu
      exact Option.some.inj hu
    · intro hall
      cases hall (.value x) (by simp)

theorem Coherent.other {h : List Answer} {x : QByteArray} (hc : Coherent h x) :
    Coherent (h ++ [.other]) x where
  latest u hu := by
    rw [latestValue_snoc] at hu
    exact hc.latest u hu
  notCallers hall := by
    cases hall .other (by simp)

theorem Coherent.nodeExists_iff {h : List Answer} {v x : QByteArray} (hc : Coherent h x) :
    Coherent (h ++ [.nodeExists v]) x ↔ ((∀ a ∈ h, a.isNodeExists = true) → x ≠ v) := by
  have hall : (∀ a ∈ h ++ [.nodeExists v], a.isNodeExists = true) ↔
      ∀ a ∈ h, a.isNodeExists = true := by
    simp [or_imp, forall_and, Answer.isNodeExists]
  constructor
  · intro hc' ha
    exact hc'.notCallers (hall.mpr ha) v (by simp)
  · intro hne
    constructor
    · intro u hu
      rw [latestValue_snoc] at hu
      exact hc.latest u hu
    · intro ha u hu
      rw [hall] at ha
      rcases List.mem_append.mp hu with hu | hu
      · exact hc.notCallers ha u hu
      · obtain rfl : u = v := by simpa using hu
        exact hne ha

theorem Coherent.ofResult_iff {h : List Answer} {error : ZooKeeperError} {v x : QByteArray}
    (hc : Coherent h x) : Coherent (h ++ [.ofResult error v]) x ↔ (error = .noError → x = v) := by
  unfold Answer.ofResult
  split
  · next he => simp [coherent_value_iff, he]
  · next he => exact iff_of_true hc.other fun h => absurd h he

/-- The value `x` a node with the answers `h` has to show when a create of the value
`v` is answered. -/
def FitsCreate (h : List Answer) (error : ZooKeeperError) (v x : QByteArray) : Prop :=
  match error with
  | .noError => x = v
  | .nodeExists => (∀ a ∈ h, a.isNodeExists = true) → x ≠ v
  | _ => True

instance (h : List Answer) (error : ZooKeeperError) (v x : QByteArray) :
    Decidable (FitsCreate h error v x) := by
  unfold FitsCreate
  split <;> infer_instance

theorem Coherent.ofCreate_iff {h : List Answer} {error : ZooKeeperError} {v x : QByteArray}
    (hc : Coherent h x) : Coherent (h ++ [.ofCreate error v]) x ↔ FitsCreate h error v x := by
  cases error with
  | noError => exact coherent_value_iff
  | nodeExists => exact hc.nodeExists_iff
  | _ => exact iff_of_true hc.other trivial

/-! ## Which answers a step processes -/

/-- The path a call gets an answer about, and the answer. A create that is not
accepted concerns no node. -/
def Call.answer (s : Manager) : Call → Option (QString × Answer)
  | createNodeSync a ret newPath _ =>
    if s.pool.contains a.path then none
    else if ZooKeeperError.ofInt ret = .noError then some (newPath, .value a.value)
    else none
  | setNodeValueSync path value ret => some (path, .ofResult (.ofInt ret) value)
  | getNodeValueSync path _ r _ | wgetNodeValue path _ r _ _ =>
    some (path, .ofResult r.error (completionValue r.data))
  | _ => none

/-- The path the completion of a create works with. -/
def Request.createdPath (r : Request) (name : Option QString) : QString :=
  if r.path = "" then name.getD "" else Pool.reportedPath name r.path

/-- The path a step processes an answer about, and the answer. The re-read of the
data watch callback is an answer if it reads the watched path. -/
def Label.answer (s : Manager) : Label → Option (QString × Answer)
  | call c => c.answer s
  | deliver r (.create rc name) => some (r.createdPath name, .ofCreate (.ofInt rc) r.value)
  | deliver r (.get rc value) => some (r.path, .ofResult (.ofInt rc) (completionValue value))
  | deliver r (.set rc) => some (r.path, .ofResult (.ofInt rc) r.value)
  | watchEvent _ w _ _ path (.value r) =>
    if path = constData (toLatin1 w.path) then
      some (w.path, .ofResult r.error (completionValue r.data))
    else none
  | _ => none

/-- The system with the answers each node has got. -/
def answered : FallibleSystem (Manager × Answers) Label AccessFault :=
  recorded fun s l => l.answer s

instance (l : Label) (x : Manager × Answers) : Decidable (answered.enabled l x) :=
  inferInstanceAs (Decidable (l.Enabled x.1))

/-- Every run of the system has its answers recorded. -/
theorem answered_of_run {tr : List (Manager × Label)} {s : Manager} (h : system.Run tr s) :
    ∃ tr' answers, answered.Run tr' (s, answers) ∧ mapTrace Prod.fst (fun _ l => l) tr' = tr :=
  h.withHistory _ _

/-- Every pooled node shows the latest value the client has learned for it. -/
def CacheCoherent (x : Manager × Answers) : Prop :=
  ∀ path n d, x.1.pool.pooled path = some (n, d) → Coherent (x.2 n) d.value

variable {s s' : Manager} {l : Label} {x y : Manager × Answers} {tr : List ((Manager × Answers) × Label)}
variable {path k : QString} {n : NodeId} {d : ZooKeeperNode} {a : Answer}

/-! ## One step -/

/-- A read is an answer about the path it stores its value under. -/
theorem answer_of_reads {v : QByteArray} (h : (l.poolOp s).reads = some (k, v)) :
    ∃ a, l.answer s = some (k, a) := by
  have hite : ∀ {c : Prop} [Decidable c] {path : QString} {w : QByteArray},
      (if c then some (path, w) else none) = some (k, v) → path = k := by
    intro c _ path w h
    split at h
    · cases h
      rfl
    · cases h
  cases l with
  | call c =>
    cases c with
    | createNode a ret ctx n =>
      rcases Call.poolOp_createNode s a ret ctx n with hop | ⟨-, -, hop⟩
      · rw [Label.poolOp, hop] at h
        cases h
      · rw [Label.poolOp, hop] at h
        cases h
    | createNodeSync a ret newPath n =>
      rcases Call.poolOp_createNodeSync s a ret newPath n with hop | ⟨-, -, hop⟩
      · rw [Label.poolOp, hop] at h
        cases h
      · rw [Label.poolOp, hop] at h
        cases h
    | getNodeValueSync path wantsError r n =>
      obtain rfl := hite h
      exact ⟨_, rfl⟩
    | wgetNodeValue path callback r ctx n =>
      obtain rfl := hite h
      exact ⟨_, rfl⟩
    | _ => cases h
  | deliver r c =>
    cases c with
    | get rc value =>
      obtain rfl := hite h
      exact ⟨_, rfl⟩
    | _ => cases h
  | watcher zzh type state path client =>
    simp only [Label.poolOp] at h
    split at h <;> cases h
  | _ => cases h

/-- The value of a pooled node agrees with the earlier answers, unless the step
reads a value into it. -/
theorem coherent_before (hx : answered.Reachable x) (hP : CacheCoherent x) (he : l.Enabled x.1)
    (hstep : l.step x.1 = .ok s') (hn : s'.pool.pooled k = some (n, d)) :
    Coherent (x.2 n) d.value ∨ ∃ v, (l.poolOp x.1).reads = some (k, v) := by
  obtain ⟨d₀, ho, hnode⟩ := origin_of_step hx he hstep hn
  refine ho.value.imp_left ?_
  intro hv
  rcases hnode with ⟨k₀, h₀⟩ | ⟨hempty, -⟩
  · rw [hv]
    exact hP k₀ n d₀ h₀
  · rw [hempty]
    exact coherent_nil

/-- After a step from `x` the node under `path` shows what its earlier answers and
the new answer `a` say. -/
def ShowsAnswer (x : Manager × Answers) (p : Pool) (path : QString) (a : Answer) : Prop :=
  ∀ n d, p.pooled path = some (n, d) → Coherent (x.2 n ++ [a]) d.value

/-- A step keeps the cache coherent exactly if it does so for the node it gets an
answer about. -/
theorem coherent_step_iff (hx : answered.Reachable x) (hP : CacheCoherent x)
    (he : answered.enabled l x) (hs : answered.step l x = .ok y) :
    CacheCoherent y ↔ ∀ z ∈ l.answer x.1, ShowsAnswer x y.1.pool z.1 z.2 := by
  have hbefore := fun k n d hn =>
    coherent_before (k := k) (n := n) (d := d) hx hP he (withHistory_step.mp hs).1 hn
  refine nodesAgree_step_iff (fun h d => Coherent h d.value) hx he hs ?_
  intro k n d hn hnone
  refine (hbefore k n d hn).resolve_right ?_
  -- without an answer no value is read either
  intro ⟨v, hreads⟩
  obtain ⟨a, ha⟩ := answer_of_reads hreads
  exact hnone a ha

/-! ## What each step has to find -/

/-- The node pooled under `path`, if there is one, has the value `v`. -/
def Pool.Shows (p : Pool) (path : QString) (v : QByteArray) : Prop :=
  ∀ z ∈ p.pooled path, z.2.value = v

instance (p : Pool) (path : QString) (v : QByteArray) : Decidable (p.Shows path v) :=
  inferInstanceAs (Decidable (∀ z ∈ p.pooled path, z.2.value = v))

/-- Where the code does not store the value an answer establishes, the node has it
already; a create that found its znode there does not leave the node with nothing
but the caller's value; and a synchronous read gets all of its data. -/
def findsValue (x : Manager × Answers) : Label → Prop
  | .call (.setNodeValueSync path value ret) => ret = 0 → x.1.pool.Shows path value
  | .call (.getNodeValueSync _ _ r _) | .call (.wgetNodeValue _ _ r _ _) => r.rc = 0 → r.Fits
  | .deliver r (.create rc name) =>
    ∀ z ∈ x.1.pool.pooled (if r.path = "" then name.getD "" else r.path),
      FitsCreate (x.2 z.1) (.ofInt rc) r.value z.2.value
  | .deliver r (.set rc) => rc = 0 → x.1.pool.Shows r.path r.value
  | .watchEvent _ w _ _ path (.value r) =>
    path = constData (toLatin1 w.path) → r.rc = 0 →
      x.1.pool.Shows w.path (completionValue r.data)
  | _ => True

instance (x : Manager × Answers) : (l : Label) → Decidable (findsValue x l)
  | .call c =>
    match c with
    | .setNodeValueSync path value ret =>
      inferInstanceAs (Decidable (ret = 0 → x.1.pool.Shows path value))
    | .getNodeValueSync _ _ r _ | .wgetNodeValue _ _ r _ _ =>
      inferInstanceAs (Decidable (r.rc = 0 → r.Fits))
    | .initializeHandle .. | .addAuth .. | .quit | .destructor | .createNode .. | .createNodeSync ..
    | .deleteNode .. | .deleteNodeSync .. | .existsNode .. | .existsNodeSync .. | .setNodeValue ..
    | .getNodeValue .. | .getChildrenNode .. | .getChildrenNodeSync .. | .wgetChildrenNode ..
    | .setExists .. => inferInstanceAs (Decidable True)
  | .deliver r (.create rc name) =>
    inferInstanceAs (Decidable (∀ z ∈ x.1.pool.pooled (if r.path = "" then name.getD "" else r.path),
      FitsCreate (x.2 z.1) (.ofInt rc) r.value z.2.value))
  | .deliver r (.set rc) => inferInstanceAs (Decidable (rc = 0 → x.1.pool.Shows r.path r.value))
  | .watchEvent _ w _ _ path (.value r) =>
    inferInstanceAs (Decidable (path = constData (toLatin1 w.path) → r.rc = 0 →
      x.1.pool.Shows w.path (completionValue r.data)))
  | .deliver _ (.delete _) | .deliver _ (.exists_ _) | .deliver _ (.get _ _)
  | .deliver _ (.getChildren _ _) | .watchEvent _ _ _ _ _ (.children _ _) | .watcher .. | .timer _
  | .closeReturns => inferInstanceAs (Decidable True)

/-- An answer to a read or to a write that leaves the pool alone. -/
theorem showsAnswer_ofResult_iff {p : Pool} {error : ZooKeeperError} {v : QByteArray}
    (hP : CacheCoherent x) (hpool : p = x.1.pool) :
    ShowsAnswer x p path (.ofResult error v) ↔ (error = .noError → x.1.pool.Shows path v) := by
  subst hpool
  constructor
  · intro h herr z hz
    exact (hP path z.1 z.2 hz).ofResult_iff.mp (h z.1 z.2 hz) herr
  · intro h n d hn
    exact (hP path n d hn).ofResult_iff.mpr fun herr => h herr (n, d) hn

/-- The answer to a read whose value is stored. -/
theorem showsAnswer_read_iff {error : ZooKeeperError} {v w : QByteArray}
    (hx : answered.Reachable x) (hP : CacheCoherent x) (he : l.Enabled x.1)
    (hstep : l.step x.1 = .ok s')
    (hreads : (l.poolOp x.1).reads = if error = .noError then some (path, w) else none) :
    ShowsAnswer x s'.pool path (.ofResult error v) ↔ (error = .noError → w = v) := by
  by_cases herr : error = .noError
  · rw [if_pos herr] at hreads
    obtain ⟨n, d, hn, rfl⟩ :=
      Pool.pooled_of_reads (sound_of_reachable hx.forget) (step_pool hstep) hreads
    simp only [ShowsAnswer, Answer.ofResult, herr, if_true, forall_const, coherent_value_iff]
    constructor
    · intro h
      exact h n d hn
    · intro h m e hm
      cases hn.symm.trans hm
      exact h
  -- an error establishes no value and stores none
  · rw [if_neg herr] at hreads
    refine iff_of_true ?_ fun h => absurd h herr
    intro n d hn
    have hc := (coherent_before hx hP he hstep hn).resolve_right (by simp [hreads])
    exact hc.ofResult_iff.mpr fun h => absurd h herr

/-- The answer to a synchronous read, whose value comes through a buffer. -/
theorem showsAnswer_readSync_iff {r : SyncRead} {v : QByteArray}
    (hx : answered.Reachable x) (hP : CacheCoherent x) (he : l.Enabled x.1)
    (hstep : l.step x.1 = .ok s')
    (hreads : (l.poolOp x.1).reads =
      if r.error = .noError then some (path, r.readValue) else none)
    (hv : Manager.readValue r = .ok v) :
    ShowsAnswer x s'.pool path (.ofResult r.error (completionValue r.data)) ↔
      (r.rc = 0 → r.Fits) := by
  rw [showsAnswer_read_iff hx hP he hstep hreads]
  refine imp_congr_ctx ZooKeeperError.ofInt_eq_noError fun hrc => ?_
  rw [← SyncRead.value_eq_iff_fits hrc, (Manager.readValue_succeeded hrc).mp hv,
    Manager.readValue_eq_ok hv, Option.some.injEq]

/-- The answer to a create, which may rename the node. -/
theorem showsAnswer_create_iff {r : Request} {rc : Int} {name : Option QString}
    (hx : answered.Reachable x) (hP : CacheCoherent x)
    (hstep : Label.step (.deliver r (.create rc name)) x.1 = .ok s') :
    ShowsAnswer x s'.pool (r.createdPath name) (.ofCreate (.ofInt rc) r.value) ↔
      findsValue x (.deliver r (.create rc name)) := by
  simp only [Request.createdPath, findsValue]
  rcases Pool.completed_of_acreateCompletion (sound_of_reachable hx.forget) (step_pool hstep) with
    ⟨hpath, hpool⟩ | ⟨hpath, n, d, hn, hc⟩
  · rw [if_pos hpath, if_pos hpath]
    constructor
    · intro h z hz
      exact (hP _ z.1 z.2 hz).ofCreate_iff.mp (h z.1 z.2 (by rw [hpool]; exact hz))
    · intro h m e hm
      rw [hpool] at hm
      exact (hP _ m e hm).ofCreate_iff.mpr (h (m, e) hm)
  · rw [if_neg hpath, if_neg hpath, hn]
    have hfits : Coherent (x.2 n ++ [.ofCreate (.ofInt rc) r.value]) d.value ↔
        FitsCreate (x.2 n) (.ofInt rc) r.value d.value := (hP _ n d hn).ofCreate_iff
    simp only [Option.mem_some_iff, forall_eq', ← hfits]
    have hpooled := Pool.pooled_of_completed hc
    cases hkeep : (ZooKeeperError.ofInt rc).keepsNode with
    | true =>
      rw [hkeep, if_pos rfl] at hpooled
      constructor
      · intro h
        have hc' := h n _ hpooled
        exact hc'
      · intro h m e hm
        cases hpooled.symm.trans hm
        exact h
    -- the node has left the pool
    | false =>
      rw [hkeep] at hpooled
      refine iff_of_true ?_ (hfits.mpr ?_)
      · intro m e hm
        cases hpooled.symm.trans hm
      · cases he : ZooKeeperError.ofInt rc <;>
          first | trivial | simp [he, ZooKeeperError.keepsNode] at hkeep

theorem pool_eq_of_keep (hstep : l.step s = .ok s') (h : l.poolOp s = .keep) : s'.pool = s.pool := by
  have hpool := step_pool hstep
  rw [h] at hpool
  exact (Except.pure_eq_ok.mp hpool).symm

/-- The answer to a synchronous create. -/
theorem showsAnswer_createNodeSync {a : Manager.CreateArgs} {ret : Int} {newPath : QString}
    (hstep : Label.step (.call (.createNodeSync a ret newPath n)) x.1 = .ok s') :
    ∀ z ∈ Label.answer x.1 (.call (.createNodeSync a ret newPath n)),
      ShowsAnswer x s'.pool z.1 z.2 := by
  have hpool := step_pool hstep
  simp only [Label.answer, Call.answer, Label.poolOp, Call.poolOp] at hpool ⊢
  split
  · simp
  · next hc =>
    split
    · next hret =>
      rw [if_neg hc, if_pos hret] at hpool
      have hp : x.1.pool.createNodeSync a.type a.path a.value newPath n = s'.pool :=
        Except.pure_eq_ok.mp hpool
      simp only [Option.mem_some_iff, forall_eq', ← hp]
      intro m e hm
      exact coherent_value_iff.mpr (Pool.pooled_createNodeSync hm)
    · simp

/-- The node an answer is about shows it exactly if the step finds it so. -/
theorem showsAnswer_iff (hx : answered.Reachable x) (hP : CacheCoherent x) (he : l.Enabled x.1)
    (hstep : l.step x.1 = .ok s') :
    (∀ z ∈ l.answer x.1, ShowsAnswer x s'.pool z.1 z.2) ↔ findsValue x l := by
  have hnone : l.answer x.1 = none → findsValue x l →
      ((∀ z ∈ l.answer x.1, ShowsAnswer x s'.pool z.1 z.2) ↔ findsValue x l) := by
    intro ha hf
    exact iff_of_true (by simp [ha]) hf
  have hzero : ∀ {rc : Int}, ZooKeeperError.ofInt rc = .noError ↔ rc = 0 :=
    ZooKeeperError.ofInt_eq_noError
  have hstep' := hstep
  cases l with
  | call c =>
    cases c with
    | createNodeSync a ret newPath n =>
      exact iff_of_true (showsAnswer_createNodeSync hstep) trivial
    | setNodeValueSync path value ret =>
      simp only [Label.answer, Call.answer, Option.mem_some_iff, forall_eq', findsValue, ← hzero]
      exact showsAnswer_ofResult_iff hP (pool_eq_of_keep hstep rfl)
    | getNodeValueSync path wantsError r n =>
      simp only [Label.step, Call.run, Except.map_eq_ok, Manager.getNodeValueSync,
        Except.bind_eq_ok] at hstep'
      obtain ⟨_, ⟨v, hv, -⟩, -⟩ := hstep'
      simp only [Label.answer, Call.answer, Option.mem_some_iff, forall_eq']
      exact showsAnswer_readSync_iff hx hP he hstep rfl hv
    | wgetNodeValue path callback r ctx n =>
      simp only [Label.step, Call.run, Except.map_eq_ok, Manager.wgetNodeValue,
        Except.bind_eq_ok] at hstep'
      obtain ⟨_, ⟨v, hv, -⟩, -⟩ := hstep'
      simp only [Label.answer, Call.answer, Option.mem_some_iff, forall_eq']
      exact showsAnswer_readSync_iff hx hP he hstep rfl hv
    | _ => exact hnone rfl trivial
  | deliver r c =>
    cases c with
    | create rc name =>
      simp only [Label.answer, Option.mem_some_iff, forall_eq']
      exact showsAnswer_create_iff hx hP hstep
    | get rc value =>
      simp only [Label.answer, Option.mem_some_iff, forall_eq']
      exact (showsAnswer_read_iff hx hP he hstep rfl).trans (iff_of_true (fun _ => rfl) trivial)
    | set rc =>
      simp only [Label.answer, Option.mem_some_iff, forall_eq', findsValue, ← hzero]
      exact showsAnswer_ofResult_iff hP (pool_eq_of_keep hstep rfl)
    | _ => exact hnone rfl trivial
  | watchEvent zh w type state path a =>
    cases a with
    | value r =>
      simp only [Label.answer, findsValue]
      split
      · next hpath =>
        simp only [Option.mem_some_iff, forall_eq', hpath, forall_const, ← hzero]
        exact showsAnswer_ofResult_iff hP (pool_eq_of_keep hstep rfl)
      · next hpath => simp [hpath]
    | children rc strings => exact hnone rfl trivial
  | _ => exact hnone rfl trivial

theorem cacheCoherent_init : CacheCoherent answered.init := by
  intro path n d hn
  cases hn

/-- The runs whose cached values are coherent all along are those in which every
step that gets an answer without storing its value finds the node with that value. -/
theorem cache_coherent_iff (h : answered.Run tr x) :
    Always CacheCoherent tr x ↔ Each findsValue tr := by
  refine h.always_iff_each (Q := answered.Reachable) cacheCoherent_init ?_ ?_
  · intro tr x hr _
    exact ⟨tr, hr⟩
  · intro x l y hx hP he hs
    rw [coherent_step_iff hx hP he hs]
    exact showsAnswer_iff hx hP he (withHistory_step.mp hs).1

/-- A create of `/a` with the value `v`, answered with `NoError`. -/
def createdNode : List Label :=
  sessionOpen ++
    [.call (.createNode { type := .persistentNode, path := "/a", value := [118] } 0 0 0),
     .deliver { ctx := 0, op := .create, path := "/a", value := [118], node := some 0 }
       (.create 0 (some "/a"))]

/-- The value `w` is read before it is written. -/
def writeAfterRead : List Label :=
  createdNode ++
    [.call (.getNodeValue "/a" false false 0 1 1),
     .deliver { ctx := 1, op := .get, path := "/a", node := some 0 } (.get 0 (some [119])),
     .call (.setNodeValueSync "/a" [119] 0)]

/-- The value `w` is written, and the server has accepted it. -/
def writeOnly : List Label := createdNode ++ [.call (.setNodeValueSync "/a" [119] 0)]

theorem writeAfterRead_coherent :
    Always CacheCoherent (answered.execGet writeAfterRead (by decide)).1
      (answered.execGet writeAfterRead (by decide)).2 :=
  (cache_coherent_iff (run_execGet writeAfterRead (by decide))).mpr (by unfold Each; decide)

/-- The node still shows `v`. -/
theorem writeOnly_not_coherent : ¬ ∀ x, answered.Reachable x → CacheCoherent x := by
  intro h
  have hc := h _ (reachable_execGet writeOnly (by decide))
  have hn : (answered.execGet writeOnly (by decide)).2.1.pool.pooled "/a" =
      some (0, ⟨true, "/a", [118], some .persistentNode⟩) := by rfl
  have hlatest : latestValue ((answered.execGet writeOnly (by decide)).2.2 0) = some [119] := by
    rfl
  cases (hc "/a" 0 _ hn).latest [119] hlatest

end QtZooKeeper
