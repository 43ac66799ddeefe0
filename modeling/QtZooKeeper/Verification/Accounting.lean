-- SUMMARY: When every completed request is notified exactly once and every context released exactly once.
import QtZooKeeper.Manager.Outputs
import QtZooKeeper.Verification.PoolSafety

/-!
# Accounting of requests

`createNode`, `deleteNode`, `existsNode`, `setNodeValue` and `getChildrenNode`
allocate a context, hand it to the client with their request, and answer through
the completion, which notifies the application and releases the context. A ledger
beside the manager keeps what each of these calls asked for, with its context, and the
notifications that are due for the calls completed. `aexistsCompletion` emits its signal
on the context, and a refused request has no completion, so nothing releases its context.
-/

namespace QtZooKeeper

open FallibleSystem

/-! ## The ledger -/

/-- The requests whose completion notifies the application in any case. -/
def RequestOp.notifies : RequestOp → Bool
  | get => false
  | create | delete | exists_ | set | getChildren => true

/-- The reports that notify the application of a completion. -/
def Report.isFinished : Report → Bool
  | createNodeFinished _ _ | deleteNodeFinished _ _ | existsNodeFinished _ _
  | setNodeValueFinished _ _ | getChildrenNodeFinished _ _ _ | nodeChildren _ _ => true
  | _ => false

/-- What a call asks for: the kind of the request, its path and whether it comes with a
callback, and the context the call allocates. -/
structure IssuedCall where
  ctx : CtxId
  op : RequestOp
  path : QString
  callback : Bool := false
  deriving DecidableEq, Repr

/-- The notification due for a call whose request is completed: its result and its
path, or the name reported for a create, on the manager or to the callback of the
call. -/
def IssuedCall.notification (i : IssuedCall) : Manager.Completion → Option (Via × Report)
  | .create rc name =>
    if i.op = .create then
      some (.manager, .createNodeFinished (.ofInt rc) (Pool.reportedPath name i.path))
    else none
  | .delete rc =>
    if i.op = .delete then some (.manager, .deleteNodeFinished (.ofInt rc) i.path) else none
  | .exists_ rc =>
    if i.op = .exists_ then some (.manager, .existsNodeFinished (.ofInt rc) i.path) else none
  | .set rc =>
    if i.op = .set then some (.manager, .setNodeValueFinished (.ofInt rc) i.path) else none
  | .getChildren rc strings =>
    let children := Manager.childrenOf (.ofInt rc) strings
    if i.op = .getChildren then
      if i.callback then some (.callback i.ctx, .nodeChildren (.ofInt rc) children)
      else some (.manager, .getChildrenNodeFinished (.ofInt rc) i.path children)
    else none
  | .get _ _ => none

/-- The request a call makes that notifies. -/
def Call.issued (s : Manager) : Call → Option IssuedCall
  | createNode a _ ctx _ =>
    if s.pool.contains a.path then none else some { ctx := ctx, op := .create, path := a.path }
  | deleteNode path _ ctx => some { ctx := ctx, op := .delete, path := path }
  | existsNode path _ ctx => some { ctx := ctx, op := .exists_, path := path }
  | setNodeValue path _ _ ctx => some { ctx := ctx, op := .set, path := path }
  | getChildrenNode path callback _ ctx =>
    some { ctx := ctx, op := .getChildren, path := path, callback := callback }
  | _ => none

def Label.issued (s : Manager) : Label → Option IssuedCall
  | call c => c.issued s
  | _ => none

/-- The context a step allocates for a request that notifies. -/
def Label.context (s : Manager) (l : Label) : Option CtxId := (l.issued s).map IssuedCall.ctx

/-- The calls so far, and the notifications due for those completed. -/
structure Ledger where
  calls : List IssuedCall := []
  due : List (Via × Report) := []

/-- The contexts allocated for the calls. -/
def Ledger.contexts (b : Ledger) : List CtxId := b.calls.map IssuedCall.ctx

/-- The notification due for a step: for the call whose context comes back with the
completion. -/
def Ledger.dueFor (b : Ledger) : Label → Option (Via × Report)
  | .deliver r c => (b.calls.find? fun i => i.ctx = r.ctx).bind fun i => i.notification c
  | _ => none

def Ledger.record (s : Manager) (l : Label) (_ : Manager) (b : Ledger) : Ledger where
  calls := b.calls ++ (l.issued s).toList
  due := b.due ++ (b.dueFor l).toList

/-- The system with its ledger. -/
def accounted : FallibleSystem (Manager × Ledger) Label AccessFault :=
  system.withHistory {} Ledger.record

instance (l : Label) (x : Manager × Ledger) : Decidable (accounted.enabled l x) :=
  inferInstanceAs (Decidable (l.Enabled x.1))

/-- The contexts of the requests in flight that will notify. -/
def Manager.inFlight (s : Manager) : List CtxId :=
  (s.pending.filter fun r => r.op.notifies).map Request.ctx

/-- Exactly the due notifications were made, each context is in flight or released,
never both and never twice, and every completion goes through. -/
structure Balanced (x : Manager × Ledger) : Prop where
  notified : x.1.reports.filter (fun y => y.2.isFinished) = x.2.due
  contexts : (x.1.inFlight ++ x.1.released.filter fun ctx => ctx ∈ x.2.contexts).Perm x.2.contexts
  once : x.2.contexts.Nodup
  completes : ∀ r c, r.op.notifies = true → system.enabled (.deliver r c) x.1 →
    ∃ s', system.step (.deliver r c) x.1 = .ok s'

/-! ## What each step has to do -/

/-- The completion of an `existsNode`. -/
def Label.completesExists : Label → Bool
  | deliver _ (.exists_ _) => true
  | _ => false

/-- The client refuses a request that would notify. -/
def Label.refused (s : Manager) : Label → Bool
  | call (.createNode a ret _ _) => !s.pool.contains a.path && ret ≠ 0
  | call (.deleteNode _ ret _) | call (.existsNode _ ret _) | call (.setNodeValue _ _ ret _)
  | call (.getChildrenNode _ _ ret _) => ret ≠ 0
  | _ => false

/-- A create whose completion uses a node. -/
def Request.createsNode (r : Request) : Bool := r.op = .create && !(r.path = "")

/-- The step completes no `existsNode`, the client refuses no request in it, and it
leaves the entry of a path alone as long as another create of it is in flight. -/
def keepsBooks (s : Manager) (l : Label) : Prop :=
  l.completesExists = false ∧ l.refused s = false ∧
    ∀ r ∈ l.remaining s, r.createsNode = true → ¬ (l.poolOp s).Drops r.path

instance (s : Manager) (l : Label) : Decidable (keepsBooks s l) := by
  unfold keepsBooks
  infer_instance

variable {s s' : Manager} {l : Label} {x y : Manager × Ledger} {tr : List ((Manager × Ledger) × Label)}
variable {r : Request} {ctx : CtxId}

/-- What the ledger keeps of a request. -/
def Request.issued (r : Request) : IssuedCall where
  ctx := r.ctx
  op := r.op
  path := r.path
  callback := r.callback

theorem contexts_record {b : Ledger} :
    (Ledger.record s l s' b).contexts = b.contexts ++ (l.context s).toList := by
  rw [Ledger.record, Ledger.contexts, List.map_append, Label.context]
  cases l.issued s <;> rfl

theorem allocates_of_context (h : l.context s = some ctx) : l.allocates s = some ctx := by
  cases l with
  | call c =>
    cases c with
    | createNode a ret ctx' n =>
      simp only [Label.context, Label.issued, Call.issued, Label.allocates, Call.allocates] at h ⊢
      split at h
      · cases h
      · next hc => simpa [hc] using h
    | _ => first | exact h | cases h
  | _ => cases h

/-- What a step does with a context it allocates for a request: the client accepts
the request, with the context, or refuses it. -/
theorem context_cases (l : Label) (s : Manager) :
    match l.accepted s with
    | some r => l.allocates s = some r.ctx ∧
        l.issued s = (if r.op.notifies then some r.issued else none) ∧ l.refused s = false
    | none => l.refused s = (l.issued s).isSome := by
  cases l with
  | call c =>
    cases c with
    | createNode a ret ctx n =>
      by_cases hc : s.pool.contains a.path = true
      · simp [Label.accepted, Call.accepted, Label.refused, Label.issued, Call.issued, hc]
      · by_cases hret : ret = 0 <;>
          simp [Label.accepted, Call.accepted, Label.allocates, Call.allocates, Label.refused,
            Label.issued, Call.issued, Request.issued, RequestOp.notifies, hc, hret]
    | deleteNode path ret ctx | existsNode path ret ctx | setNodeValue path value ret ctx
    | getNodeValue path callback wantsError ret ctx n | getChildrenNode path callback ret ctx =>
      by_cases hret : ret = 0 <;>
        simp [Label.accepted, Call.accepted, Label.allocates, Call.allocates, Label.refused,
          Label.issued, Call.issued, Request.issued, RequestOp.notifies, hret]
    | _ => rfl
  | _ => rfl

theorem issued_of_accepted (hr : l.accepted s = some r) : l.allocates s = some r.ctx ∧
    l.issued s = (if r.op.notifies then some r.issued else none) ∧ l.refused s = false := by
  simpa only [hr] using context_cases l s

theorem context_of_accepted (hr : l.accepted s = some r) : l.allocates s = some r.ctx ∧
    l.context s = (if r.op.notifies then some r.ctx else none) ∧ l.refused s = false := by
  obtain ⟨hctx, hissued, hrefused⟩ := issued_of_accepted hr
  refine ⟨hctx, ?_, hrefused⟩
  rw [Label.context, hissued]
  cases r.op.notifies <;> rfl

theorem refused_of_not_accepted (hr : l.accepted s = none) :
    l.refused s = (l.context s).isSome := by
  rw [Label.context, Option.isSome_map]
  simpa only [hr] using context_cases l s

/-- The address of a new context is not in use. -/
theorem allocates_fresh (he : system.enabled l s) (h : l.allocates s = some ctx) :
    ctx ∉ s.allocated := by
  cases l with
  | call c =>
    obtain ⟨-, -, -, hctx, -⟩ := he
    refine hctx ctx ?_
    cases c with
    | createNode a ret ctx' n =>
      simp only [Label.allocates, Call.allocates] at h
      split at h
      · cases h
      · exact h
    | _ => exact h
  | _ => cases h

/-! ## The invariant of the ledger -/

/-- The ledger lists contexts of the manager, each once, and of the requests in
flight exactly those that notify, with what they ask for. -/
structure Booked (x : Manager × Ledger) : Prop where
  contexts : ∀ ctx ∈ x.2.contexts, ctx ∈ x.1.allocated
  released : ∀ ctx ∈ x.1.released, ctx ∈ x.1.allocated
  pending : ∀ r ∈ x.1.pending,
    r.ctx ∈ x.1.allocated ∧ (r.ctx ∈ x.2.contexts ↔ r.op.notifies = true)
  issued : ∀ r ∈ x.1.pending, r.op.notifies = true → r.issued ∈ x.2.calls
  once : x.2.contexts.Nodup

theorem booked_init : Booked accounted.init where
  contexts ctx h := by cases h
  released ctx h := by cases h
  pending r h := by cases h
  issued r h := by cases h
  once := List.nodup_nil

theorem Booked.step (h : Booked x) (he : accounted.enabled l x) (hs : accounted.step l x = .ok y) :
    Booked y := by
  obtain ⟨hstep, hrec⟩ := withHistory_step.mp hs
  obtain ⟨-, hallocated, hreleased⟩ := Label.output hstep
  have hpending := step_pending hstep
  have hnew : ∀ ctx, l.context x.1 = some ctx → ctx ∉ x.1.allocated := fun ctx hc =>
    allocates_fresh he (allocates_of_context hc)
  have hold : ∀ ctx, ctx ∈ x.1.allocated → ctx ∈ y.1.allocated := by
    intro ctx hctx
    rw [hallocated]
    exact List.mem_append_left _ hctx
  have hmem : ∀ ctx, ctx ∈ y.2.contexts ↔ ctx ∈ x.2.contexts ∨ l.context x.1 = some ctx := by
    intro ctx
    rw [hrec, contexts_record, List.mem_append, Option.mem_toList]
  have hkept : ∀ r ∈ l.remaining x.1, r ∈ x.1.pending := by
    intro r hr
    cases l with
    | deliver q c => exact List.mem_of_mem_erase hr
    | _ => exact hr
  refine ⟨?_, ?_, ?_, ?_, ?_⟩
  · intro ctx hctx
    rcases (hmem ctx).mp hctx with hctx | hctx
    · exact hold ctx (h.contexts ctx hctx)
    · rw [hallocated, allocates_of_context hctx]
      simp
  · intro ctx hctx
    rw [hreleased] at hctx
    rcases List.mem_append.mp hctx with hctx | hctx
    · exact hold ctx (h.released ctx hctx)
    · cases l with
      | deliver r c =>
        obtain rfl : ctx = r.ctx := by simpa [Label.releases] using hctx
        exact hold r.ctx (h.pending r he.1).1
      | _ => cases hctx
  · intro r hr
    rw [hpending] at hr
    rcases List.mem_append.mp hr with hr | hr
    · obtain ⟨hctx, hiff⟩ := h.pending r (hkept r hr)
      refine ⟨hold r.ctx hctx, ?_⟩
      rw [hmem, hiff]
      exact or_iff_left fun hc => hnew r.ctx hc hctx
    · obtain ⟨hctx, hcontext, -⟩ := context_of_accepted (Option.mem_toList.mp hr)
      have hfresh := allocates_fresh he hctx
      refine ⟨by simp [hallocated, hctx], ?_⟩
      rw [hmem, hcontext]
      have hnot : r.ctx ∉ x.2.contexts := fun hc => hfresh (h.contexts r.ctx hc)
      simp [hnot]
  · intro r hr hnotifies
    rw [hpending] at hr
    rw [hrec, Ledger.record]
    rcases List.mem_append.mp hr with hr | hr
    · exact List.mem_append_left _ (h.issued r (hkept r hr) hnotifies)
    · obtain ⟨-, hissued, -⟩ := issued_of_accepted (Option.mem_toList.mp hr)
      rw [hissued, if_pos hnotifies]
      simp
  · rw [hrec, contexts_record]
    refine List.nodup_append.mpr ⟨h.once, ?_, ?_⟩
    · cases l.context x.1 <;> simp
    · intro ctx hctx ctx' hctx' heq
      subst heq
      exact hnew ctx (Option.mem_toList.mp hctx') (h.contexts ctx hctx)

theorem booked_of_reachable (h : accounted.Reachable x) : Booked x :=
  h.invariant booked_init fun _ _ _ hx he hs => hx.step he hs

/-! ## One step -/

/-- The context of a request leads to its call. -/
theorem Booked.find_call (h : Booked x) (hr : r ∈ x.1.pending) :
    (x.2.calls.find? fun i => i.ctx = r.ctx) = if r.op.notifies then some r.issued else none := by
  cases hn : r.op.notifies with
  | true =>
    have hmem := h.issued r hr hn
    cases hfind : x.2.calls.find? fun i => i.ctx = r.ctx with
    | none =>
      have hctx := List.find?_eq_none.mp hfind _ hmem
      rw [decide_eq_true_eq] at hctx
      exact absurd rfl hctx
    | some i =>
      have hctx : i.ctx = r.ctx := by simpa using List.find?_some hfind
      exact congrArg some (List.inj_on_of_nodup_map h.once (List.mem_of_find?_eq_some hfind) hmem hctx)
  | false =>
    have hnot : r.ctx ∉ x.2.contexts := by
      rw [(h.pending r hr).2, hn]
      simp
    refine List.find?_eq_none.mpr fun i hi => ?_
    simp only [decide_eq_true_eq]
    exact fun hctx => hnot (List.mem_map.mpr ⟨i, hi, hctx⟩)

/-- A step makes the due notifications unless it completes an `existsNode`. -/
theorem reports_due_iff (hx : Booked x) (he : l.Enabled x.1) :
    l.reports.filter (fun y => y.2.isFinished) = (x.2.dueFor l).toList ↔ l.completesExists = false := by
  cases l with
  | deliver r c =>
    obtain ⟨hr, hanswers⟩ := he
    rw [Ledger.dueFor, hx.find_call hr]
    cases c with
    | create rc name =>
      simp only [Manager.Completion.Answers, Bool.and_eq_true, decide_eq_true_eq] at hanswers
      simp [Label.reports, IssuedCall.notification, Request.issued, RequestOp.notifies,
        Report.isFinished, Label.completesExists, hanswers.1]
    | get rc value =>
      simp only [Manager.Completion.Answers, Bool.and_eq_true, decide_eq_true_eq] at hanswers
      refine iff_of_true ?_ rfl
      simp only [Label.reports, hanswers.1]
      split <;> rfl
    | getChildren rc strings =>
      simp only [Manager.Completion.Answers, decide_eq_true_eq] at hanswers
      refine iff_of_true ?_ rfl
      simp only [Label.reports, Manager.childrenReport, IssuedCall.notification, Request.issued,
        RequestOp.notifies, hanswers, if_true, Option.bind_some]
      split <;> rfl
    | delete rc | set rc | exists_ rc =>
      simp only [Manager.Completion.Answers, decide_eq_true_eq] at hanswers
      simp [Label.reports, IssuedCall.notification, Request.issued, RequestOp.notifies,
        Report.isFinished, Label.completesExists, hanswers]
  | watcher zzh type state path client =>
    refine iff_of_true ?_ rfl
    simp only [Label.reports, Ledger.dueFor]
    split
    · split <;> rfl
    · rfl
  | watchEvent zh w type state path a => cases a <;> exact iff_of_true rfl rfl
  | timer state =>
    refine iff_of_true ?_ rfl
    simp only [Label.reports, Ledger.dueFor]
    split <;> rfl
  | call c => exact iff_of_true rfl rfl
  | closeReturns => exact iff_of_true rfl rfl

theorem inFlight_step (hstep : l.step s = .ok s') : s'.inFlight =
    ((l.remaining s).filter fun r => r.op.notifies).map Request.ctx ++
      ((l.accepted s).toList.filter fun r => r.op.notifies).map Request.ctx := by
  rw [Manager.inFlight, step_pending hstep, List.filter_append, List.map_append]

/-- A delivered request leaves the ones in flight, with its context. -/
theorem inFlight_erase (hr : r ∈ s.pending) : s.inFlight.Perm
    ((if r.op.notifies then [r.ctx] else []) ++
      ((s.pending.erase r).filter fun r => r.op.notifies).map Request.ctx) := by
  have hperm := ((List.perm_cons_erase hr).filter fun r => r.op.notifies).map Request.ctx
  cases hn : r.op.notifies with
  | true => simpa [Manager.inFlight, hn] using hperm
  | false => simpa [Manager.inFlight, hn] using hperm

/-- A completion moves the context of its request from the ones in flight to the
released ones. -/
theorem contexts_deliver {c : Manager.Completion} (hx : Booked x) (h : Balanced x)
    (he : accounted.enabled (.deliver r c) x) (hs : accounted.step (.deliver r c) x = .ok y) :
    (y.1.inFlight ++ y.1.released.filter fun ctx => ctx ∈ y.2.contexts).Perm y.2.contexts := by
  obtain ⟨hstep, hrec⟩ := withHistory_step.mp hs
  have hsame : y.2.contexts = x.2.contexts := by
    rw [hrec, contexts_record]
    exact List.append_nil _
  have hflight := (inFlight_erase he.1).symm.append_right
    (x.1.released.filter fun ctx => ctx ∈ x.2.contexts)
  have hiff := (hx.pending r he.1).2
  rw [hsame, inFlight_step (l := .deliver r c) hstep,
    (Label.output (l := .deliver r c) hstep).released]
  simp only [Label.remaining, Label.accepted, Label.releases, Option.toList_none,
    Option.toList_some, List.filter_nil, List.map_nil, List.append_nil, List.filter_append]
  refine List.Perm.trans ?_ (hflight.trans h.contexts)
  cases hn : r.op.notifies with
  | true =>
    have hmem : r.ctx ∈ x.2.contexts := hiff.mpr hn
    simp only [hmem, decide_true, List.filter_cons_of_pos, List.filter_nil, if_true]
    rw [List.append_assoc, ← List.append_assoc]
    exact List.perm_append_comm
  | false =>
    have hmem : r.ctx ∉ x.2.contexts := by
      rw [hiff, hn]
      simp
    simp [hmem]

/-- Any other step releases nothing; its context is in flight if the client accepts
the request. -/
theorem contexts_issue_iff (hx : Booked x) (h : Balanced x) (hl : l.releases = none)
    (he : accounted.enabled l x) (hs : accounted.step l x = .ok y) :
    (y.1.inFlight ++ y.1.released.filter fun ctx => ctx ∈ y.2.contexts).Perm y.2.contexts ↔
      l.refused x.1 = false := by
  obtain ⟨hstep, hrec⟩ := withHistory_step.mp hs
  have hreleased := (Label.output hstep).released
  have hcontexts : y.2.contexts = x.2.contexts ++ (l.context x.1).toList := by
    rw [hrec, contexts_record]
  have hremaining : l.remaining x.1 = x.1.pending := by
    cases l with
    | deliver r c => cases hl
    | _ => rfl
  rw [hl, Option.toList_none, List.append_nil] at hreleased
  have hnot : ∀ ctx ∈ x.1.released, l.context x.1 ≠ some ctx := by
    intro ctx hctx hnew
    exact allocates_fresh he (allocates_of_context hnew) (hx.released ctx hctx)
  have hfilter : (y.1.released.filter fun ctx => ctx ∈ y.2.contexts) =
      x.1.released.filter fun ctx => ctx ∈ x.2.contexts := by
    rw [hreleased]
    refine List.filter_congr ?_
    intro ctx hctx
    simp [hcontexts, hnot ctx hctx]
  have hflight : y.1.inFlight = x.1.inFlight ++
      ((l.accepted x.1).toList.filter fun r => r.op.notifies).map Request.ctx := by
    rw [inFlight_step hstep, hremaining, Manager.inFlight]
  rw [hfilter, hflight, hcontexts]
  cases hr : l.accepted x.1 with
  | some r =>
    obtain ⟨-, hctx, hrefused⟩ := context_of_accepted hr
    refine iff_of_true ?_ hrefused
    have hcontext : ([r].filter fun r => r.op.notifies).map Request.ctx =
        (l.context x.1).toList := by
      rw [hctx]
      cases hn : r.op.notifies <;> simp [hn]
    rw [Option.toList_some, hcontext, List.append_assoc]
    refine (List.perm_append_comm.append_left _).trans ?_
    rw [← List.append_assoc]
    exact h.contexts.append_right _
  | none =>
    rw [refused_of_not_accepted hr]
    simp only [Option.toList_none, List.filter_nil, List.map_nil, List.append_nil]
    cases hc : l.context x.1 with
    | none => exact iff_of_true (by simpa using h.contexts) rfl
    | some ctx =>
      refine iff_of_false ?_ (by simp)
      intro hperm
      have hlen := hperm.length_eq
      rw [h.contexts.length_eq] at hlen
      simp at hlen

/-- A step accounts for all contexts exactly if the client refuses no request in it. -/
theorem contexts_step_iff (hx : Booked x) (h : Balanced x) (he : accounted.enabled l x)
    (hs : accounted.step l x = .ok y) :
    (y.1.inFlight ++ y.1.released.filter fun ctx => ctx ∈ y.2.contexts).Perm y.2.contexts ↔
      l.refused x.1 = false := by
  cases hl : l.releases with
  | none => exact contexts_issue_iff hx h hl he hs
  | some ctx =>
    cases l with
    | deliver r c => exact iff_of_true (contexts_deliver hx h he hs) rfl
    | _ => cases hl

/-- The completions that notify go through exactly when every create in flight has
its node in the pool. -/
theorem completes_iff (hs : s.pool.Sound) :
    (∀ r c, r.op.notifies = true → system.enabled (.deliver r c) s →
      ∃ s', system.step (.deliver r c) s = .ok s') ↔
      ∀ r ∈ s.pending, r.createsNode = true → s.pool.Holds r.path := by
  constructor
  · intro h r hr hcreate
    simp only [Request.createsNode, Bool.and_eq_true, decide_eq_true_eq, Bool.not_eq_true',
      decide_eq_false_iff_not] at hcreate
    obtain ⟨hop, hne⟩ := hcreate
    have hok := h r (.create 0 none) (by rw [hop]; rfl)
      ⟨hr, by simp [Manager.Completion.Answers, hop]⟩
    exact ((deliver_create_ok_iff hs).mp hok).resolve_left hne
  · rintro h r c hn ⟨hr, hc⟩
    cases c with
    | create rc name =>
      refine (deliver_create_ok_iff hs).mpr ?_
      by_cases hne : r.path = ""
      · exact .inl hne
      · simp only [Manager.Completion.Answers, Bool.and_eq_true, decide_eq_true_eq] at hc
        exact .inr (h r hr (by simp [Request.createsNode, hc.1, hne]))
    | get rc value =>
      simp only [Manager.Completion.Answers, Bool.and_eq_true, decide_eq_true_eq] at hc
      rw [hc.1] at hn
      cases hn
    | _ => exact ⟨_, rfl⟩

theorem accounted_step_iff (hx : accounted.Reachable x) (h : Balanced x)
    (he : accounted.enabled l x) (hs : accounted.step l x = .ok y) :
    Balanced y ↔ keepsBooks x.1 l := by
  obtain ⟨hstep, hrec⟩ := withHistory_step.mp hs
  have hy := hx.step he hs
  have hbooked := booked_of_reachable hx
  have hnotified : y.1.reports.filter (fun z => z.2.isFinished) = y.2.due ↔
      l.completesExists = false := by
    rw [(Label.output hstep).reports, hrec, Ledger.record, List.filter_append, h.notified,
      List.append_cancel_left_eq]
    exact reports_due_iff hbooked he
  have hcompletes : (∀ r c, r.op.notifies = true → system.enabled (.deliver r c) y.1 →
      ∃ s', system.step (.deliver r c) y.1 = .ok s') ↔
      ∀ r ∈ l.remaining x.1, r.createsNode = true → ¬ (l.poolOp x.1).Drops r.path := by
    rw [completes_iff (sound_of_reachable hy.forget)]
    refine holds_step_iff hx.forget ?_ he hstep ?_
    · exact (completes_iff (sound_of_reachable hx.forget)).mp h.completes
    · intro r hr hcreate
      simp only [Request.createsNode, Bool.and_eq_true, decide_eq_true_eq] at hcreate
      exact holds_accepted_create hstep hr hcreate.1
  have hcontexts := contexts_step_iff hbooked h he hs
  constructor
  · intro hy'
    exact ⟨hnotified.mp hy'.notified, hcontexts.mp hy'.contexts, hcompletes.mp hy'.completes⟩
  · rintro ⟨hexists, hrefused, hspares⟩
    exact ⟨hnotified.mpr hexists, hcontexts.mpr hrefused, (booked_of_reachable hy).once,
      hcompletes.mpr hspares⟩

/-- The runs in which everything is accounted for all along are those in which no
`existsNode` completes, the client refuses no request, and no step takes the entry
of a create in flight. -/
theorem requests_accounted_iff (h : accounted.Run tr x) :
    Always Balanced tr x ↔ Each (fun y l => keepsBooks y.1 l) tr := by
  refine h.always_iff_each (Q := accounted.Reachable) ?_ ?_ ?_
  · refine ⟨rfl, .refl _, List.nodup_nil, ?_⟩
    rintro r c - ⟨hr, -⟩
    cases hr
  · intro tr x hr _
    exact ⟨tr, hr⟩
  · intro x l y hx h he hs
    exact accounted_step_iff hx h he hs

/-- A delete, completed after a listing of children that was asked for later. -/
def deleteAndList : List Label :=
  sessionOpen ++
    [.call (.deleteNode "/a" 0 0), .call (.getChildrenNode "/" true 0 1),
     .deliver { ctx := 1, op := .getChildren, path := "/", callback := true }
       (.getChildren 0 ["b"]),
     .deliver { ctx := 0, op := .delete, path := "/a" } (.delete (-101))]

/-- An `existsNode` and its completion. -/
def existsAsked : List Label :=
  sessionOpen ++
    [.call (.existsNode "/a" 0 0),
     .deliver { ctx := 0, op := .exists_, path := "/a" } (.exists_ 0)]

theorem deleteAndList_accounted :
    Always Balanced (accounted.execGet deleteAndList (by decide)).1
      (accounted.execGet deleteAndList (by decide)).2 :=
  (requests_accounted_iff (run_execGet deleteAndList (by decide))).mpr (by unfold Each; decide)

/-- The signal is emitted on the context, not on the manager. -/
theorem existsAsked_not_accounted : ¬ ∀ x, accounted.Reachable x → Balanced x := by
  intro h
  have hnotified := (h _ (reachable_execGet existsAsked (by decide))).notified
  exact absurd hnotified (by decide)

end QtZooKeeper
