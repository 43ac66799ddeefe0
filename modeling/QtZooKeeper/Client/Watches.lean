-- SUMMARY: The watch tables of the C client: arming a watch, collecting the watchers of an event, cloning for a session event.
import QtZooKeeper.Base.KeyTable
import QtZooKeeper.Client.Chroot
import Mathlib.Logic.Function.Basic

/-!
# Watch tables

A handle keeps three tables from server paths to the watchers armed there. A
watch is armed when the read that asks for it is answered (`activateWatcher`). A
watch event moves the watchers of its path to a delivery list, so watches are
one-shot; a session event copies all of them (`collectWatchers`).
-/

namespace QtZooKeeper

/-- The callbacks the manager hands to the client as a `watcher_fn`. -/
inductive WatcherFn where
  | watcher
  | wgetNodeValue
  | wgetChildrenNode
  deriving DecidableEq, Repr

/-- `watcher_object_t`: a callback and its context. The context of the default
watcher is the manager, which has no number here. -/
structure WatcherObject where
  watcher : WatcherFn
  context : Option Nat
  deriving DecidableEq, Repr

/-- `watcher_object_list_t` -/
abbrev WatcherList := List WatcherObject

/-- `zk_hashtable` -/
abbrev ZkHashtable := KeyTable Bytes WatcherList

/-- The tables of a handle. The manager asks for no watch on existence. -/
inductive WatchTable where
  | activeNodeWatchers
  | activeExistWatchers
  | activeChildWatchers
  deriving DecidableEq, Repr

abbrev WatchTables := WatchTable → ZkHashtable

/-! ## Lists of watchers -/

/-- `add_to_list`: an object that is in the list already is not added again. -/
def addToList (list : WatcherList) (wo : WatcherObject) : WatcherList :=
  if wo ∈ list then list else wo :: list

/-- `copy_watchers` -/
def copyWatchers (source target : WatcherList) : WatcherList := source.foldl addToList target

/-- `insert_watcher_object` -/
def insertWatcherObject (ht : ZkHashtable) (path : Bytes) (wo : WatcherObject) : ZkHashtable :=
  match ht.lookup path with
  | none => ht.insert path [wo]
  | some wl => ht.insert path (addToList wl wo)

/-- `copy_table` -/
def copyTable (source : ZkHashtable) (target : WatcherList) : WatcherList :=
  source.values.foldl (fun list wl => copyWatchers wl list) target

/-- `add_for_event` -/
def addForEvent (ht : ZkHashtable) (path : Bytes) (list : WatcherList) : WatcherList × ZkHashtable :=
  match ht.lookup path with
  | none => (list, ht)
  | some wl => (copyWatchers wl list, ht.erase path)

/-! ## Events and answers -/

/-- The tables `collectWatchers` looks into for an event. -/
def tablesFor : ZooKeeperType → List WatchTable
  | .createdEvent | .changedEvent => [.activeNodeWatchers, .activeExistWatchers]
  | .childEvent => [.activeChildWatchers]
  | .deletedEvent => [.activeNodeWatchers, .activeExistWatchers, .activeChildWatchers]
  | .sessionEvent | .notWatchingEvent => []

/-- The watchers of `path` are moved out of the tables `ts`. -/
def moveWatchers (path : Bytes) : List WatchTable → WatcherList × WatchTables →
    WatcherList × WatchTables
  | [], r => r
  | t :: ts, (list, zh) =>
    moveWatchers path ts
      ((addForEvent (zh t) path list).1, Function.update zh t (addForEvent (zh t) path list).2)

/-- `collectWatchers`: the delivery list of an event, and the tables without the
watchers that were moved there. -/
def collectWatchers (type : ZooKeeperType) (path : Bytes) (zh : WatchTables) :
    WatcherList × WatchTables :=
  if type = .sessionEvent then
    -- the watchers are copied and stay armed
    let list := addToList [] ⟨.watcher, none⟩
    let list := copyTable (zh .activeNodeWatchers) list
    let list := copyTable (zh .activeExistWatchers) list
    (copyTable (zh .activeChildWatchers) list, zh)
  else moveWatchers path (tablesFor type) ([], zh)

/-- The functions of type `result_checker_fn`. -/
inductive ResultChecker where
  | existsResultChecker
  | dataResultChecker
  | childResultChecker
  deriving DecidableEq, Repr

/-- The table a watch goes to when the read is answered with `rc`. -/
def ResultChecker.table (checker : ResultChecker) (rc : Int) : Option WatchTable :=
  match checker with
  | existsResultChecker =>
    if rc = 0 then some .activeNodeWatchers
    else if rc = -101 then some .activeExistWatchers
    else none
  | dataResultChecker => if rc = 0 then some .activeNodeWatchers else none
  | childResultChecker => if rc = 0 then some .activeChildWatchers else none

/-- `activateWatcher`, for the watch `wo` that is registered with a checker for the server
path `path`, and a read answered with `rc`. -/
def activateWatcher (checker : ResultChecker) (path : Bytes) (wo : WatcherObject) (rc : Int)
    (zh : WatchTables) : WatchTables :=
  match checker.table rc with
  | none => zh
  | some t => Function.update zh t (insertWatcherObject (zh t) path wo)

/-! ## Laws -/

/-- The watcher is armed in the table at the path. -/
def ZkHashtable.Has (ht : ZkHashtable) (path : Bytes) (wo : WatcherObject) : Prop :=
  ∃ wl, ht.lookup path = some wl ∧ wo ∈ wl

variable {ht : ZkHashtable} {zh : WatchTables} {path p : Bytes} {wo w : WatcherObject}
variable {list source target : WatcherList} {t : WatchTable} {ts : List WatchTable}
variable {type : ZooKeeperType}

theorem mem_addToList : w ∈ addToList list wo ↔ w = wo ∨ w ∈ list := by
  unfold addToList
  split
  · next h =>
    refine ⟨.inr, ?_⟩
    rintro (rfl | hw)
    · exact h
    · exact hw
  · exact List.mem_cons

theorem mem_copyWatchers : w ∈ copyWatchers source target ↔ w ∈ source ∨ w ∈ target := by
  unfold copyWatchers
  induction source generalizing target with
  | nil => simp
  | cons a source ih =>
    rw [List.foldl_cons, ih, mem_addToList, List.mem_cons]
    constructor
    · rintro (h | h | h)
      · exact .inl (.inr h)
      · exact .inl (.inl h)
      · exact .inr h
    · rintro ((h | h) | h)
      · exact .inr (.inl h)
      · exact .inl h
      · exact .inr (.inr h)

/-- What is armed stays armed when another watcher is. -/
theorem has_insertWatcherObject : ZkHashtable.Has (insertWatcherObject ht path wo) p w ↔
    (p = path ∧ w = wo) ∨ ht.Has p w := by
  unfold insertWatcherObject ZkHashtable.Has
  cases h : ht.lookup path with
  | none =>
    simp only [KeyTable.lookup_insert_eq]
    by_cases hp : p = path
    · subst hp
      simp [h]
    · simp [hp]
  | some wl =>
    simp only [KeyTable.lookup_insert_eq]
    by_cases hp : p = path
    · subst hp
      simp [h, mem_addToList]
    · simp [hp]

/-- An event moves the watchers of its path to the delivery list. -/
theorem has_addForEvent : ZkHashtable.Has (addForEvent ht path list).2 p w ↔ p ≠ path ∧ ht.Has p w := by
  unfold addForEvent ZkHashtable.Has
  cases h : ht.lookup path with
  | none =>
    simp only
    constructor
    · rintro ⟨wl, hwl, hw⟩
      refine ⟨?_, wl, hwl, hw⟩
      rintro rfl
      cases h.symm.trans hwl
    · exact fun ⟨_, hw⟩ => hw
  | some wl =>
    simp only [KeyTable.lookup_erase_eq]
    by_cases hp : p = path <;> simp [hp]

theorem mem_addForEvent : w ∈ (addForEvent ht path list).1 ↔ ht.Has path w ∨ w ∈ list := by
  unfold addForEvent ZkHashtable.Has
  cases h : ht.lookup path with
  | none => simp
  | some wl => simp [mem_copyWatchers]

theorem mem_moveWatchers_of_mem (h : w ∈ list) : w ∈ (moveWatchers path ts (list, zh)).1 := by
  induction ts generalizing list zh with
  | nil => exact h
  | cons t ts ih => exact ih (mem_addForEvent.mpr (.inr h))

/-- A watch stays armed unless it is moved to the delivery list. -/
theorem has_or_mem_moveWatchers (h : (zh t).Has p w) :
    ((moveWatchers path ts (list, zh)).2 t).Has p w ∨
      (p = path ∧ w ∈ (moveWatchers path ts (list, zh)).1) := by
  induction ts generalizing list zh with
  | nil => exact .inl h
  | cons t' ts ih =>
    rw [moveWatchers]
    by_cases ht : t = t'
    · subst ht
      by_cases hp : p = path
      · subst hp
        exact .inr ⟨rfl, mem_moveWatchers_of_mem (mem_addForEvent.mpr (.inl h))⟩
      · refine ih ?_
        rw [Function.update_self]
        exact has_addForEvent.mpr ⟨hp, h⟩
    · refine ih ?_
      rw [Function.update_of_ne ht]
      exact h

/-- A watch in a table the event is looked up in is moved to the delivery list. -/
theorem mem_moveWatchers (ht : t ∈ ts) (h : (zh t).Has path w) :
    w ∈ (moveWatchers path ts (list, zh)).1 := by
  induction ts generalizing list zh with
  | nil => cases ht
  | cons t' ts ih =>
    rw [moveWatchers]
    by_cases hne : t = t'
    · subst hne
      exact mem_moveWatchers_of_mem (mem_addForEvent.mpr (.inl h))
    · refine ih (List.mem_of_ne_of_mem hne ht) ?_
      rw [Function.update_of_ne hne]
      exact h

/-- Exactly the watchers of the path are moved, out of the tables that are looked into. -/
theorem has_moveWatchers : ((moveWatchers path ts (list, zh)).2 t).Has p w ↔
    (zh t).Has p w ∧ ¬ (p = path ∧ t ∈ ts) := by
  induction ts generalizing list zh with
  | nil => simp [moveWatchers]
  | cons t' ts ih =>
    rw [moveWatchers, ih]
    by_cases ht : t = t'
    · subst ht
      rw [Function.update_self, has_addForEvent]
      by_cases hp : p = path <;> simp [hp]
    · rw [Function.update_of_ne ht]
      simp [ht]

/-- The delivery list has the watchers that were armed at the path, and no others. -/
theorem mem_moveWatchers_iff : w ∈ (moveWatchers path ts (list, zh)).1 ↔
    w ∈ list ∨ ∃ t ∈ ts, (zh t).Has path w := by
  constructor
  · intro h
    induction ts generalizing list zh with
    | nil => exact .inl h
    | cons t' ts ih =>
      rw [moveWatchers] at h
      obtain h | ⟨t, ht, h⟩ := ih h
      · obtain h | h := mem_addForEvent.mp h
        · exact .inr ⟨t', List.mem_cons_self, h⟩
        · exact .inl h
      · by_cases hne : t = t'
        · subst hne
          rw [Function.update_self] at h
          exact absurd rfl (has_addForEvent.mp h).1
        · rw [Function.update_of_ne hne] at h
          exact .inr ⟨t, List.mem_cons_of_mem _ ht, h⟩
  · rintro (h | ⟨t, ht, h⟩)
    · exact mem_moveWatchers_of_mem h
    · exact mem_moveWatchers ht h

/-- After an event a watch is still armed, or it is in the delivery list of an
event for its path. -/
theorem has_or_mem_collectWatchers (h : (zh t).Has p w) :
    ((collectWatchers type path zh).2 t).Has p w ∨
      (type ≠ .sessionEvent ∧ p = path ∧ w ∈ (collectWatchers type path zh).1) := by
  unfold collectWatchers
  split
  · exact .inl h
  · next htype => exact (has_or_mem_moveWatchers h).imp id fun hw => ⟨htype, hw⟩

/-- An event of a type that is looked up in the table of an armed watch reaches it. -/
theorem mem_collectWatchers (ht : t ∈ tablesFor type) (h : (zh t).Has path w) :
    w ∈ (collectWatchers type path zh).1 := by
  unfold collectWatchers
  rw [if_neg]
  · exact mem_moveWatchers ht h
  · rintro rfl
    cases ht

/-- Arming a watch leaves the others armed. -/
theorem has_activateWatcher_of_has {checker : ResultChecker} {rc : Int} (h : (zh t).Has p w) :
    (activateWatcher checker path wo rc zh t).Has p w := by
  unfold activateWatcher
  cases checker.table rc with
  | none => exact h
  | some t' =>
    by_cases ht : t = t'
    · subst ht
      simp only [Function.update_self]
      exact has_insertWatcherObject.mpr (.inr h)
    · simp only [Function.update_of_ne ht]
      exact h

/-- A read answered with the table `t` arms its watch there. -/
theorem has_activateWatcher {checker : ResultChecker} {rc : Int} (ht : checker.table rc = some t) :
    (activateWatcher checker path wo rc zh t).Has path wo := by
  unfold activateWatcher
  rw [ht]
  simp only [Function.update_self]
  exact has_insertWatcherObject.mpr (.inl ⟨rfl, rfl⟩)

end QtZooKeeper
