-- SUMMARY: What a step of the system reports to the application, and which contexts it allocates and releases.
import QtZooKeeper.Manager.Steps

/-!
# The outputs of a step

The reports of the manager and its context objects only ever grow in number: a step
adds certain reports, allocates at most one context and releases at most one. As
in `Manager/Steps.lean` this is proved once for all functions.
-/

namespace QtZooKeeper

open FallibleSystem

variable {c : Call} {l : Label} {s s' : Manager}

/-- The reports a step makes, in this order. -/
def Label.reports : Label → List (Via × Report)
  | deliver r (.create rc name) =>
    [(.manager, .createNodeFinished (.ofInt rc) (Pool.reportedPath name r.path))]
  | deliver r (.delete rc) => [(.manager, .deleteNodeFinished (.ofInt rc) r.path)]
  -- the cast of `aexistsCompletion`
  | deliver r (.exists_ rc) => [(.context r.ctx, .existsNodeFinished (.ofInt rc) r.path)]
  | deliver r (.set rc) => [(.manager, .setNodeValueFinished (.ofInt rc) r.path)]
  | deliver r (.get rc value) =>
    if r.callback then [(.callback r.ctx, .nodeValue (.ofInt rc) (completionValue value))] else []
  | deliver r (.getChildren rc strings) => [Manager.childrenReport r rc strings]
  | watcher _ type state path _ =>
    (if type = .sessionEvent then
      match ZooKeeperState.ofInt state with
      | .connected => [(.manager, .connected)]
      | .connecting => []
      | st => [(.manager, .error (error2string st)), (.manager, .disconnected)]
    else []) ++ [(.manager, .watcher type (.ofInt state) path)]
  | watchEvent _ w type state _ (.value r) =>
    [(if w.callback then .callback w.ctx else .manager,
      .wgetNodeValueFinished r.error w.path (r.text.getD []) type (.ofInt state))]
  | watchEvent _ w type state _ (.children rc strings) =>
    [(if w.callback then .callback w.ctx else .manager,
      .wgetChildrenNodeFinished (.ofInt rc) w.path (Manager.childrenOf (.ofInt rc) strings) type
        (.ofInt state))]
  | timer state =>
    if ZooKeeperState.ofInt state ≠ .connected ∧ ZooKeeperState.ofInt state ≠ .connecting then
      [(.manager, .error "ZooKeeper Error: 连接超时.")]
    else []
  | call _ | closeReturns => []

/-- The context object a call allocates. -/
def Call.allocates (s : Manager) : Call → Option CtxId
  | createNode a _ ctx _ => if s.pool.contains a.path then none else some ctx
  | deleteNode _ _ ctx | existsNode _ _ ctx | setNodeValue _ _ _ ctx | getNodeValue _ _ _ _ ctx _
  | wgetNodeValue _ _ _ ctx _ | getChildrenNode _ _ _ ctx | wgetChildrenNode _ _ _ _ ctx => some ctx
  | _ => none

def Label.allocates (s : Manager) : Label → Option CtxId
  | call c => c.allocates s
  | _ => none

/-- The context object a step releases: that of a completed request, and no other. -/
def Label.releases : Label → Option CtxId
  | deliver r _ => some r.ctx
  | _ => none

/-- What a step puts out. -/
structure Label.Output (l : Label) (s s' : Manager) : Prop where
  reports : s'.reports = s.reports ++ l.reports
  allocated : s'.allocated = s.allocated ++ (l.allocates s).toList
  released : s'.released = s.released ++ l.releases.toList

/-- A call that allocates the context `ctx`. -/
theorem Label.Output.context {ctx : CtxId} (hreports : s'.reports = s.reports)
    (hallocated : s'.allocated = s.allocated ++ [ctx]) (hreleased : s'.released = s.released)
    (hctx : c.allocates s = some ctx) : (Label.call c).Output s s' where
  reports := hreports.trans (List.append_nil _).symm
  allocated := by rw [hallocated, Label.allocates, hctx, Option.toList_some]
  released := hreleased.trans (List.append_nil _).symm

/-- A call that allocates none. -/
theorem Label.Output.silent (hreports : s'.reports = s.reports) (hallocated : s'.allocated = s.allocated)
    (hreleased : s'.released = s.released) (hctx : c.allocates s = none) :
    (Label.call c).Output s s' where
  reports := hreports.trans (List.append_nil _).symm
  allocated := by rw [hallocated, Label.allocates, hctx, Option.toList_none, List.append_nil]
  released := hreleased.trans (List.append_nil _).symm

theorem Call.output (h : c.run s = .ok s') : (Label.call c).Output s s' := by
  cases c with
  | createNode a ret ctx n =>
    obtain rfl := Except.pure_eq_ok.mp h
    by_cases hc : s.pool.contains a.path = true
    · simp only [Manager.createNode, if_pos hc]
      exact .silent rfl rfl rfl (by simp only [allocates, if_pos hc])
    · have hctx : (createNode a ret ctx n).allocates s = some ctx := by
        simp only [allocates, if_neg hc]
      simp only [Manager.createNode, if_neg hc]
      split
      · exact .context rfl rfl rfl hctx
      · exact .context rfl rfl rfl hctx
  | createNodeSync a ret newPath n =>
    obtain rfl := Except.pure_eq_ok.mp h
    simp only [Manager.createNodeSync]
    split
    · exact .silent rfl rfl rfl rfl
    · split
      · exact .silent rfl rfl rfl rfl
      · exact .silent rfl rfl rfl rfl
  | deleteNode path ret ctx =>
    simp only [run, Except.map_eq_ok, Manager.deleteNode, Except.bind_eq_ok, Except.pure_eq_ok] at h
    obtain ⟨r, ⟨p, -, rfl⟩, rfl⟩ := h
    exact .context rfl rfl rfl rfl
  | deleteNodeSync path ret =>
    simp only [run, Except.map_eq_ok, Manager.deleteNodeSync, Except.bind_eq_ok,
      Except.pure_eq_ok] at h
    obtain ⟨r, ⟨p, -, rfl⟩, rfl⟩ := h
    exact .silent rfl rfl rfl rfl
  | getNodeValueSync path wantsError r n =>
    simp only [run, Except.map_eq_ok, Manager.getNodeValueSync, Except.bind_eq_ok,
      Except.pure_eq_ok] at h
    obtain ⟨_, ⟨v, -, p, -, rfl⟩, rfl⟩ := h
    exact .silent rfl rfl rfl rfl
  | wgetNodeValue path callback r ctx n =>
    simp only [run, Except.map_eq_ok, Manager.wgetNodeValue, Except.bind_eq_ok,
      Except.pure_eq_ok] at h
    obtain ⟨_, ⟨v, -, p, -, rfl⟩, rfl⟩ := h
    exact .context rfl rfl rfl rfl
  | setExists node b =>
    simp only [run, Manager.setExists, Except.bind_eq_ok, Except.pure_eq_ok] at h
    obtain ⟨p, -, rfl⟩ := h
    exact .silent rfl rfl rfl rfl
  | addAuth scheme cert =>
    obtain rfl := Except.pure_eq_ok.mp h
    simp only [Manager.addAuth]
    split
    · exact .silent rfl rfl rfl rfl
    · exact .silent rfl rfl rfl rfl
  | existsNode path ret ctx =>
    obtain rfl := Except.pure_eq_ok.mp h
    exact .context rfl rfl rfl rfl
  | setNodeValue path value ret ctx =>
    obtain rfl := Except.pure_eq_ok.mp h
    exact .context rfl rfl rfl rfl
  | getNodeValue path callback wantsError ret ctx n =>
    obtain rfl := Except.pure_eq_ok.mp h
    exact .context rfl rfl rfl rfl
  | getChildrenNode path callback ret ctx =>
    obtain rfl := Except.pure_eq_ok.mp h
    exact .context rfl rfl rfl rfl
  | wgetChildrenNode path callback ret strings ctx =>
    obtain rfl := Except.pure_eq_ok.mp h
    exact .context rfl rfl rfl rfl
  | _ =>
    obtain rfl := Except.pure_eq_ok.mp h
    exact .silent rfl rfl rfl rfl

/-- The path in the signal of a completed create. -/
theorem reportedPath_of_empty {path : QString} {name : Option QString} :
    (if path ≠ "" then Pool.reportedPath name path else name.getD "") =
      Pool.reportedPath name path := by
  split
  · rfl
  · next hpath =>
    rw [not_not.mp hpath, Pool.reportedPath]
    split
    · next hname => exact hname
    · rfl

theorem Label.output (h : l.step s = .ok s') : l.Output s s' := by
  cases l with
  | call c => exact Call.output h
  | deliver r c =>
    cases c with
    | create rc name =>
      simp only [step, Manager.deliver, Manager.acreateCompletion, Except.bind_eq_ok,
        Except.pure_eq_ok] at h
      obtain ⟨p, -, rfl⟩ := h
      refine ⟨?_, (List.append_nil _).symm, rfl⟩
      simp only [Manager.notify, Manager.release, reports, reportedPath_of_empty]
    | get rc value =>
      simp only [step, Manager.deliver, Manager.agetCompletion, Except.bind_eq_ok,
        Except.pure_eq_ok] at h
      obtain ⟨p, -, rfl⟩ := h
      by_cases hcallback : r.callback = true
      · simp only [if_pos hcallback]
        refine ⟨?_, (List.append_nil _).symm, rfl⟩
        simp only [Manager.notify, Manager.release, reports, if_pos hcallback]
      · simp only [if_neg hcallback]
        refine ⟨?_, (List.append_nil _).symm, rfl⟩
        simp only [Manager.release, reports, if_neg hcallback, List.append_nil]
    | _ =>
      obtain rfl := Except.pure_eq_ok.mp h
      exact ⟨rfl, (List.append_nil _).symm, rfl⟩
  | watcher zzh type state path client =>
    obtain ⟨t, rfl, ⟨hquiet, rfl⟩ | ⟨htype, hc, rfl⟩ | ⟨hd, pool, -, rfl⟩⟩ :=
      Manager.watcher_cases h
    · refine ⟨?_, (List.append_nil _).symm, (List.append_nil _).symm⟩
      simp only [Manager.notify, reports]
      split
      · next htype => simp only [hquiet.resolve_left (not_not.mpr htype), List.nil_append]
      · rfl
    · refine ⟨?_, (List.append_nil _).symm, (List.append_nil _).symm⟩
      simp only [Manager.notify, reports, if_pos htype, hc, List.append_assoc]
    · refine ⟨?_, (List.append_nil _).symm, (List.append_nil _).symm⟩
      obtain ⟨htype, hother⟩ := disconnects_iff.mp hd
      simp only [Manager.notify, reports, if_pos htype]
      split
      · next hc => exact absurd (.inl hc) hother
      · next hcg => exact absurd (.inr hcg) hother
      · simp only [List.append_assoc, List.cons_append, List.nil_append]
  | watchEvent zh w type state path a =>
    cases a with
    | value r =>
      simp only [step, Manager.watchEvent, Manager.dataWatchEvent, Except.bind_eq_ok,
        Except.pure_eq_ok, Manager.readText_eq_ok] at h
      obtain ⟨v, hv, rfl⟩ := h
      refine ⟨?_, (List.append_nil _).symm, (List.append_nil _).symm⟩
      simp only [Manager.notify, Manager.invoke, reports, hv, Option.getD_some]
    | children rc strings =>
      obtain rfl := Except.pure_eq_ok.mp h
      exact ⟨rfl, (List.append_nil _).symm, (List.append_nil _).symm⟩
  | timer state =>
    obtain rfl := Except.pure_eq_ok.mp h
    simp only [Manager.timerFires]
    split
    · next hst =>
      refine ⟨?_, (List.append_nil _).symm, (List.append_nil _).symm⟩
      simp only [Manager.notify, reports, if_pos hst]
    · next hst =>
      refine ⟨?_, (List.append_nil _).symm, (List.append_nil _).symm⟩
      simp only [reports, if_neg hst, List.append_nil]
  | closeReturns =>
    obtain rfl := Except.pure_eq_ok.mp h
    exact ⟨(List.append_nil _).symm, (List.append_nil _).symm, (List.append_nil _).symm⟩

end QtZooKeeper
