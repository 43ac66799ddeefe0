-- SUMMARY: createNode in its two effects, with the completions of other requests and of its own in between.
import QtZooKeeper.Base.Runs
import QtZooKeeper.Manager.Operations
import QtZooKeeper.Manager.PoolMachine

/-!
# Creates in two steps

`createNode` hands its request to the client in `zoo_acreate` and puts the node
into the pool after that. The client has a thread of its own for completions, so
the completion of the request can run in between. Here any number of calls are in
progress at a time, and the completions come in any order.
-/

namespace QtZooKeeper

open FallibleSystem

/-- A completion that has been delivered. -/
structure Delivered where
  request : Request
  error : ZooKeeperError
  name : Option QString
  deriving DecidableEq, Repr

/-- The manager while calls of `createNode` are in progress. -/
structure Creating where
  manager : Manager := {}
  /-- The calls the client has accepted and that have not yet inserted their node. -/
  inserting : List (Manager.CreateArgs × NodeId) := []
  /-- History: the completions so far. -/
  delivered : List Delivered := []

inductive CreateLabel where
  /-- `createNode` up to the return of `zoo_acreate`; `n` is the address the call
  is going to construct its node at. -/
  | submit (a : Manager.CreateArgs) (ret : Int) (ctx : CtxId) (n : NodeId)
  /-- The rest of an accepted call. -/
  | insert (a : Manager.CreateArgs) (n : NodeId)
  | deliver (r : Request) (rc : Int) (name : Option QString)

namespace CreateLabel

def Enabled : CreateLabel → Creating → Prop
  | submit _ _ ctx n, x =>
    x.manager.pool.nodes.Fresh n ∧ (∀ c ∈ x.inserting, c.2 ≠ n) ∧ ctx ∉ x.manager.allocated
  | insert a n, x => (a, n) ∈ x.inserting
  | deliver r rc name, x =>
    r ∈ x.manager.pending ∧ (Manager.Completion.create rc name).Answers r = true

instance (l : CreateLabel) (x : Creating) : Decidable (l.Enabled x) := by
  cases l <;> unfold Enabled <;> infer_instance

def step : CreateLabel → Creating → Except AccessFault Creating
  | submit a ret ctx n, x =>
    if x.manager.pool.contains a.path then pure x
    else
      let x := { x with manager := x.manager.submitCreate a ret ctx n }
      if ZooKeeperError.ofInt ret = .noError then
        pure { x with inserting := x.inserting ++ [(a, n)] }
      else pure x
  | insert a n, x =>
    pure { x with manager := x.manager.poolCreated a n, inserting := x.inserting.erase (a, n) }
  | deliver r rc name, x => do
    let manager ← x.manager.acreateCompletion r rc name
    pure { x with manager := manager, delivered := x.delivered ++ [⟨r, .ofInt rc, name⟩] }

end CreateLabel

/-- Calls of `createNode` and their completions. -/
def createSystem : FallibleSystem Creating CreateLabel AccessFault where
  init := {}
  enabled := CreateLabel.Enabled
  step := CreateLabel.step

instance (l : CreateLabel) (x : Creating) : Decidable (createSystem.enabled l x) :=
  inferInstanceAs (Decidable (l.Enabled x))

/-- With nothing in between, the two steps make up the call. -/
theorem steps_createNode {x : Creating} {a : Manager.CreateArgs} {ret : Int} {ctx : CtxId}
    {n : NodeId} (he : createSystem.enabled (.submit a ret ctx n) x) :
    ∃ y, createSystem.Steps x y ∧ y.manager = (x.manager.createNode a ret ctx n).2 ∧
      y.inserting = x.inserting := by
  by_cases hc : x.manager.pool.contains a.path = true
  · refine ⟨x, .refl, ?_, rfl⟩
    rw [Manager.createNode, if_pos hc]
  · by_cases hret : ZooKeeperError.ofInt ret = .noError
    · have hsubmit : createSystem.step (.submit a ret ctx n) x = .ok
          { x with
            manager := x.manager.submitCreate a ret ctx n
            inserting := x.inserting ++ [(a, n)] } := by
        simp only [createSystem, CreateLabel.step, if_neg hc, if_pos hret]
        rfl
      have hnot : (a, n) ∉ x.inserting := fun hmem => he.2.1 (a, n) hmem rfl
      refine ⟨_, (Steps.refl.tail he hsubmit).tail (l := .insert a n) ?_ rfl, ?_, ?_⟩
      · exact List.mem_append_right _ List.mem_cons_self
      · simp only [Manager.createNode, if_neg hc, if_pos hret]
      · simp [List.erase_append_right _ hnot]
    · have hsubmit : createSystem.step (.submit a ret ctx n) x = .ok
          { x with manager := x.manager.submitCreate a ret ctx n } := by
        simp only [createSystem, CreateLabel.step, if_neg hc, if_neg hret]
        rfl
      refine ⟨_, Steps.refl.tail he hsubmit, ?_, rfl⟩
      simp only [Manager.createNode, if_neg hc, if_neg hret]

end QtZooKeeper
