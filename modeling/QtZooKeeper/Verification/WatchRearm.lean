-- SUMMARY: In which runs no data or child watch is lost.
import QtZooKeeper.Manager.WatchMachine

/-!
# Rearming watches

An event takes the watch out of the client's tables; the callback has to bring it
back. So for each registration there is a watch in the tables or an event on its
way to the callback, as long as every read the callback makes for such an event
succeeds. The callback does not look at the result of its read.
-/

namespace QtZooKeeper

open FallibleSystem

variable {chroot : Option Bytes} {x y : Watched} {l : WatchLabel} {w : Watch}
variable {tr : List (Watched × WatchLabel)}

/-! ## Watches in the client -/

/-- The watch is armed. -/
def Armed (chroot : Option Bytes) (x : Watched) (w : Watch) : Prop :=
  (x.tables w.table).Has (w.serverPath chroot) w.object

/-- An event for the registration is queued or being handled. -/
def Busy (x : Watched) (w : Watch) : Prop :=
  (∃ e ∈ x.queue, w.object ∈ e.watchers) ∨
    ∃ e answered, x.delivering = some (e, answered) ∧ w.object ∈ e.watchers

/-- The watch of every registration is armed, and every change its table is asked
about reaches the callback, unless the session has ended, the znode has been
deleted since the registration last read it, or an event is queued or being
handled. -/
def NoLostWatch (chroot : Option Bytes) (x : Watched) : Prop :=
  ∀ w ∈ x.manager.watches, x.ended = false → w.key chroot ∉ x.gone → ¬ Busy x w →
    Armed chroot x w ∧ ∀ type, w.table ∈ tablesFor type →
      w.object ∈ (collectWatchers type (w.serverPath chroot) x.tables).1

/-- The read a callback makes for a watch event is answered with `ZOK`, unless the
session has ended or the znode has been deleted since the callback's registration
last read it. -/
def rereadSucceeds (x : Watched) : WatchLabel → Prop
  | .reread w a => a.rc = 0 ∨ x.ended = true ∨
      ∀ z ∈ x.delivering, z.1.type = .sessionEvent ∨ (w.object, z.1.path) ∈ x.gone
  | _ => True

instance (x : Watched) : (l : WatchLabel) → Decidable (rereadSucceeds x l)
  | .reread w a =>
    inferInstanceAs (Decidable (a.rc = 0 ∨ x.ended = true ∨
      ∀ z ∈ x.delivering, z.1.type = .sessionEvent ∨ (w.object, z.1.path) ∈ x.gone))
  | .wgetNodeValue .. | .wgetChildrenNode .. | .serverDelete _ | .event .. | .deliver
  | .defaultWatcher .. | .handlerReturns => inferInstanceAs (Decidable True)

/-- A watch event for the path of the watch is on its way to a callback that has
not read again. -/
def OnItsWay (chroot : Option Bytes) (x : Watched) (w : Watch) : Prop :=
  (∃ e ∈ x.queue, e.type ≠ .sessionEvent ∧ e.path = w.serverPath chroot ∧ w.object ∈ e.watchers) ∨
    ∃ e answered, x.delivering = some (e, answered) ∧ e.type ≠ .sessionEvent ∧
      e.path = w.serverPath chroot ∧ w.object ∈ (if answered then e.watchers.tail else e.watchers)

/-- What the steps keep for each registration. -/
def Kept (chroot : Option Bytes) (x : Watched) (w : Watch) : Prop :=
  (x.ended = true ∨ w.key chroot ∈ x.gone) ∨ Armed chroot x w ∨ OnItsWay chroot x w

theorem OnItsWay.busy (h : OnItsWay chroot x w) : Busy x w := by
  rcases h with ⟨e, he, -, -, hw⟩ | ⟨e, answered, he, -, -, hw⟩
  · exact .inl ⟨e, he, hw⟩
  · refine .inr ⟨e, answered, he, ?_⟩
    cases answered with
    | true => exact List.mem_of_mem_tail hw
    | false => exact hw

theorem noLostWatch_of_kept (h : ∀ w ∈ x.manager.watches, Kept chroot x w) :
    NoLostWatch chroot x := by
  intro w hw hended hthere hbusy
  have harmed : Armed chroot x w := by
    rcases h w hw with (hend | hgone) | harmed | hway
    · cases hended.symm.trans hend
    · exact absurd hgone hthere
    · exact harmed
    · exact absurd hway.busy hbusy
  exact ⟨harmed, fun type htype => mem_collectWatchers htype harmed⟩

/-! ## The steps -/

/-- The read that asked for the watch arms it if it is answered with `ZOK`. -/
theorem armed_readAnswered {path : Bytes} {w' : Watch} {rc : Int} (hobj : w'.object = w.object)
    (hpath : path = w.serverPath chroot) (hrc : rc = 0) :
    Armed chroot (x.readAnswered path w' rc) w := by
  subst hpath hrc
  have harmed : ((x.readAnswered (w.serverPath chroot) w' 0).tables w.table).Has
      (w.serverPath chroot) w'.object := has_activateWatcher (Watch.checker_of_object hobj ▸ w.table_checker)
  rwa [hobj] at harmed

/-- An event leaves the watch armed or puts it on its way. -/
theorem Kept.event {type : ZooKeeperType} {state : Int} {path : Bytes} (h : Kept chroot x w)
    (hs : (watchSystem chroot).step (.event type state path) x = .ok y) : Kept chroot y w := by
  obtain rfl := Except.pure_eq_ok.mp hs
  rcases h with (hend | hgone) | harmed | hway
  · exact .inl (.inl (by simp [hend]))
  · refine .inl (.inr ?_)
    split
    · exact List.mem_append_right _ hgone
    · exact hgone
  -- a watch that is no longer in its table is on the delivery list
  · rcases has_or_mem_collectWatchers harmed with hstill | ⟨htype, hpath, hmem⟩
    · exact .inr (.inl hstill)
    · refine .inr (.inr (.inl ⟨⟨type, state, path, _⟩, ?_, htype, hpath.symm, hmem⟩))
      exact List.mem_append_right _ List.mem_cons_self
  · refine .inr (.inr (hway.imp ?_ id))
    intro ⟨e, he, hw⟩
    exact ⟨e, List.mem_append_left _ he, hw⟩

/-- Taking the next event off the queue keeps it on its way. -/
theorem Kept.deliver (h : Kept chroot x w) (he : (watchSystem chroot).enabled .deliver x)
    (hs : (watchSystem chroot).step .deliver x = .ok y) : Kept chroot y w := by
  obtain ⟨hidle, hne⟩ := he
  cases hq : x.queue with
  | nil => exact absurd hq hne
  | cons e queue =>
    simp only [watchSystem, WatchLabel.step, hq, Except.pure_eq_ok] at hs
    subst hs
    refine h.imp id (Or.imp id ?_)
    rintro (⟨e', he', htype, hpath, hw⟩ | ⟨e', answered, hd, -⟩)
    · rw [hq] at he'
      rcases List.mem_cons.mp he' with rfl | he'
      · refine .inr ⟨e', false, ?_, htype, hpath, hw⟩
        exact if_neg (List.ne_nil_of_mem hw)
      · exact .inl ⟨e', he', htype, hpath, hw⟩
    · cases hidle.symm.trans hd

/-- A callback of another watcher leaves the event on its way. -/
theorem OnItsWay.answered {e : WatchDelivery} (h : OnItsWay chroot x w)
    (hd : x.delivering = some (e, false)) (hhead : e.watchers.head? ≠ some w.object)
    (hq : y.queue = x.queue) (hd' : y.delivering = some (e, true)) : OnItsWay chroot y w := by
  rcases h with ⟨e', he', hw⟩ | ⟨e', answered, he', htype, hpath, hw⟩
  · exact .inl ⟨e', hq ▸ he', hw⟩
  · cases hd.symm.trans he'
    refine .inr ⟨e, true, hd', htype, hpath, ?_⟩
    cases hl : e.watchers with
    | nil => simp [hl] at hw
    | cons wo rest =>
      rw [hl] at hw hhead
      refine (List.mem_cons.mp hw).resolve_left ?_
      rintro rfl
      exact hhead rfl

/-- The delivery a running callback belongs to. -/
theorem delivering_of_running {wo : WatcherObject} (h : x.running = some wo) :
    ∃ e, x.delivering = some (e, false) ∧ e.watchers.head? = some wo := by
  unfold Watched.running at h
  split at h
  · next e hd => exact ⟨e, hd, h⟩
  · cases h

theorem Kept.defaultWatcher {zzh : HandleId} {client : Int} (h : Kept chroot x w)
    (he : (watchSystem chroot).enabled (.defaultWatcher zzh client) x)
    (hs : (watchSystem chroot).step (.defaultWatcher zzh client) x = .ok y) : Kept chroot y w := by
  obtain ⟨e, hd, hhead⟩ := delivering_of_running he
  simp only [watchSystem, WatchLabel.step, hd, Except.bind_eq_ok, Except.pure_eq_ok] at hs
  obtain ⟨manager, -, rfl⟩ := hs
  refine h.imp id (Or.imp id ?_)
  intro hway
  refine hway.answered hd ?_ rfl rfl
  rw [hhead]
  intro heq
  -- only the default watcher has no number for its context
  cases congrArg WatcherObject.context (Option.some.inj heq)

/-- An answer leaves the watch as it is, or finds the znode and arms it. -/
theorem Kept.readAnswered {path : Bytes} {w' : Watch} {rc : Int} (h : Kept chroot x w) :
    Kept chroot (x.readAnswered path w' rc) w := by
  rcases h with (hend | hgone) | harmed | hway
  · exact .inl (.inl hend)
  · by_cases hread : rc = 0 ∧ w.key chroot = (w'.object, path)
    · obtain ⟨hrc, hkey⟩ := hread
      obtain ⟨hobj, hpath⟩ := Prod.mk.inj hkey
      exact .inr (.inl (armed_readAnswered hobj.symm hpath.symm hrc))
    · refine .inl (.inr ?_)
      by_cases hrc : rc = 0
      · simp only [Watched.readAnswered, if_pos hrc, List.mem_filter, decide_eq_true_eq]
        exact ⟨hgone, fun hkey => hread ⟨hrc, hkey⟩⟩
      · simp only [Watched.readAnswered, if_neg hrc]
        exact hgone
  · exact .inr (.inl (has_activateWatcher_of_has harmed))
  · exact .inr (.inr hway)

/-- The callback of the watch itself arms it again, if it has to and its read
succeeds. -/
theorem Kept.reread {w' : Watch} {a : Manager.WatchAnswer} (h : Kept chroot x w)
    (he : (watchSystem chroot).enabled (.reread w' a) x) (hg : rereadSucceeds x (.reread w' a))
    (hs : (watchSystem chroot).step (.reread w' a) x = .ok y) : Kept chroot y w := by
  obtain ⟨e, hd, hhead⟩ := delivering_of_running he.1
  simp only [watchSystem, WatchLabel.step, hd, Except.bind_eq_ok, Except.pure_eq_ok] at hs
  obtain ⟨manager, -, rfl⟩ := hs
  by_cases hobj : w'.object = w.object
  · rcases h with hexcused | harmed | hqueued | ⟨e', answered, he', htype, hpath, -⟩
    · exact Kept.readAnswered (.inl hexcused)
    · exact Kept.readAnswered (.inr (.inl harmed))
    · exact Kept.readAnswered (.inr (.inr (.inl hqueued)))
    -- the event is on its way to `w`, and this is its turn
    · cases hd.symm.trans he'
      rcases hg with hrc | hend | hother
      · -- the event reports the path the watch was armed under
        have hserver : prependString chroot (e.clientPath chroot) = w.serverPath chroot := by
          rw [WatchDelivery.clientPath, if_pos htype, hpath]
          exact prependString_subString chroot _
        exact .inr (.inl (armed_readAnswered hobj hserver hrc))
      · exact .inl (.inl hend)
      · have hgone : w.key chroot ∈ x.gone := by
          have hkey := (hother _ hd).resolve_left htype
          rwa [hobj, hpath] at hkey
        exact Kept.readAnswered (.inl (.inr hgone))
  · refine Kept.readAnswered (h.imp id (Or.imp id fun hway => ?_))
    refine hway.answered hd ?_ rfl rfl
    rw [hhead]
    exact fun heq => hobj (Option.some.inj heq)

/-- The next callback runs. -/
theorem Kept.handlerReturns (h : Kept chroot x w)
    (he : (watchSystem chroot).enabled .handlerReturns x)
    (hs : (watchSystem chroot).step .handlerReturns x = .ok y) : Kept chroot y w := by
  have hanswer : x.hasAnswer = true := he
  unfold Watched.hasAnswer at hanswer
  cases hd : x.delivering with
  | none => simp [hd] at hanswer
  | some z =>
    obtain ⟨e, answered⟩ := z
    simp only [hd] at hanswer
    subst hanswer
    simp only [watchSystem, WatchLabel.step, hd, Except.pure_eq_ok] at hs
    subst hs
    refine h.imp id (Or.imp id (Or.imp id ?_))
    rintro ⟨e', answered, he', htype, hpath, hw⟩
    cases hd.symm.trans he'
    exact ⟨_, false, if_neg (List.ne_nil_of_mem hw), htype, hpath, hw⟩

/-! ## All steps -/

/-- A first read that succeeds registers its watch and arms it. -/
theorem registered_or_armed {w₀ : Watch} {rc : Int} {watches : List Watch}
    (hw : w ∈ if rc = 0 then watches ++ [w₀] else watches) :
    w ∈ watches ∨ Armed chroot (x.readAnswered (w₀.serverPath chroot) w₀ rc) w := by
  split at hw
  · next hrc =>
    rcases List.mem_append.mp hw with hw | hw
    · exact .inl hw
    · obtain rfl := List.mem_singleton.mp hw
      exact .inr (armed_readAnswered rfl rfl hrc)
  · exact .inl hw

/-- The watches the manager has after a step, and that the new one is armed. -/
theorem watches_step (he : (watchSystem chroot).enabled l x)
    (hs : (watchSystem chroot).step l x = .ok y) :
    ∀ w ∈ y.manager.watches, w ∈ x.manager.watches ∨ Armed chroot y w := by
  intro w hw
  cases l with
  | wgetNodeValue path callback r ctx n =>
    simp only [watchSystem, WatchLabel.step, Except.bind_eq_ok, Except.pure_eq_ok, Prod.exists] at hs
    obtain ⟨node, manager, hm, rfl⟩ := hs
    simp only [Watched.readAnswered, Manager.wgetNodeValue_watches hm] at hw
    exact registered_or_armed hw
  | wgetChildrenNode path callback ret strings ctx =>
    obtain rfl := Except.pure_eq_ok.mp hs
    exact registered_or_armed hw
  | serverDelete path =>
    obtain rfl := Except.pure_eq_ok.mp hs
    exact .inl hw
  | event type state path =>
    obtain rfl := Except.pure_eq_ok.mp hs
    exact .inl hw
  | deliver =>
    simp only [watchSystem, WatchLabel.step] at hs
    split at hs
    · obtain rfl := Except.pure_eq_ok.mp hs
      exact .inl hw
    · obtain rfl := Except.pure_eq_ok.mp hs
      exact .inl hw
  | defaultWatcher zzh client =>
    obtain ⟨e, hd, -⟩ := delivering_of_running he
    simp only [watchSystem, WatchLabel.step, hd, Except.bind_eq_ok, Except.pure_eq_ok] at hs
    obtain ⟨manager, hm, rfl⟩ := hs
    exact .inl (Manager.watcher_watches hm ▸ hw)
  | reread w' a =>
    obtain ⟨e, hd, -⟩ := delivering_of_running he.1
    simp only [watchSystem, WatchLabel.step, hd, Except.bind_eq_ok, Except.pure_eq_ok] at hs
    obtain ⟨manager, hm, rfl⟩ := hs
    exact .inl (Manager.watchEvent_watches hm ▸ hw)
  | handlerReturns =>
    simp only [watchSystem, WatchLabel.step] at hs
    split at hs
    · obtain rfl := Except.pure_eq_ok.mp hs
      exact .inl hw
    · obtain rfl := Except.pure_eq_ok.mp hs
      exact .inl hw

/-- A step in which the read of a callback succeeds keeps what is kept. -/
theorem Kept.step (h : Kept chroot x w) (he : (watchSystem chroot).enabled l x)
    (hg : rereadSucceeds x l) (hs : (watchSystem chroot).step l x = .ok y) : Kept chroot y w := by
  cases l with
  | wgetNodeValue path callback r ctx n =>
    simp only [watchSystem, WatchLabel.step, Except.bind_eq_ok, Except.pure_eq_ok, Prod.exists] at hs
    obtain ⟨node, manager, -, rfl⟩ := hs
    exact Kept.readAnswered (x := { x with manager := manager }) h
  | wgetChildrenNode path callback ret strings ctx =>
    obtain rfl := Except.pure_eq_ok.mp hs
    exact Kept.readAnswered
      (x := { x with manager := (x.manager.wgetChildrenNode path callback ret strings ctx).2 }) h
  | serverDelete path =>
    obtain rfl := Except.pure_eq_ok.mp hs
    exact Or.imp (Or.imp id (List.mem_append_right _)) id h
  | event type state path => exact h.event hs
  | deliver => exact h.deliver he hs
  | defaultWatcher zzh client => exact h.defaultWatcher he hs
  | reread w' a => exact h.reread he hg hs
  | handlerReturns => exact h.handlerReturns he hs

/-- If every read a callback makes for a watch event succeeds, as long as there is
a session and the znode has not been deleted since the last one, no watch is lost. -/
theorem no_watch_lost (h : (watchSystem chroot).Run tr x) (hg : Each rereadSucceeds tr) :
    Always (NoLostWatch chroot) tr x := by
  have hkept : Always (fun x => ∀ w ∈ x.manager.watches, Kept chroot x w) tr x := by
    refine h.always_of_each (Q := fun _ => True) ?_ (fun _ _ => trivial) ?_ hg
    · intro w hw
      cases hw
    · intro x l y _ hP he hg hs w hw
      rcases watches_step he hs w hw with hold | hnew
      · exact (hP w hold).step he hg hs
      · exact .inr (.inl hnew)
  exact hkept.mono fun x hx => noLostWatch_of_kept hx

/-- A read of the value `v` over a buffer of zeros. -/
def readOk : SyncRead := ⟨fun _ => 0, 0, some [118]⟩

/-- A read that fails with `ConnectionLoss`. -/
def readLost : SyncRead := ⟨fun _ => 0, -4, none⟩

/-- A read that finds no znode. -/
def readNone : SyncRead := ⟨fun _ => 0, -101, none⟩

/-- A watch on `/a` and a change of the znode, up to the callback. -/
def changed : List WatchLabel :=
  [.wgetNodeValue "/a" true readOk 0 0, .event .changedEvent 3 [47, 97], .deliver]

def watchA : Watch := { ctx := 0, path := "/a", callback := true, children := false }

/-- The callback reads again, and the session goes through a reconnect, whose
events run it too. -/
def changedAndReread : List WatchLabel :=
  changed ++
    [.reread watchA (.value readOk), .event .sessionEvent 1 [], .handlerReturns, .deliver,
     .reread watchA (.value readLost), .handlerReturns, .defaultWatcher 0 7, .handlerReturns]

/-- The znode is deleted, so that the callback finds none; it is created again, and a
second watch is asked for, which the callback brings back after a change. -/
def deletedAndWatched : List WatchLabel :=
  changedAndReread ++
    [.serverDelete [47, 97], .event .deletedEvent 3 [47, 97], .deliver,
     .reread watchA (.value readNone), .handlerReturns, .wgetNodeValue "/a" true readOk 1 1,
     .event .changedEvent 3 [47, 97], .deliver, .reread { watchA with ctx := 1 } (.value readOk),
     .handlerReturns]

/-- The connection is lost before the callback reads again. -/
def changedAndLost : List WatchLabel :=
  changed ++ [.reread watchA (.value readLost), .handlerReturns]

theorem deletedAndWatched_armed :
    Always (NoLostWatch none) ((watchSystem none).execGet deletedAndWatched (by decide)).1
      ((watchSystem none).execGet deletedAndWatched (by decide)).2 :=
  no_watch_lost (run_execGet deletedAndWatched (by decide)) (by unfold Each; decide)

/-- No watch is armed any more, and no event is on its way. -/
theorem changedAndLost_not_armed : ¬ ∀ chroot x, (watchSystem chroot).Reachable x →
    NoLostWatch chroot x := by
  intro h
  have hlost := h none _ (reachable_execGet changedAndLost (by decide))
  have hidle : ¬ Busy ((watchSystem none).execGet changedAndLost (by decide)).2 watchA := by
    rintro (⟨e, he, -⟩ | ⟨e, answered, he, -⟩)
    · cases he
    · cases he
  obtain ⟨⟨wl, hwl, -⟩, -⟩ := hlost watchA (by decide) rfl (by decide) hidle
  cases hwl

end QtZooKeeper
