-- SUMMARY: When the exists flag of every pooled node is what the latest answer about its znode says.
import QtZooKeeper.Manager.NodeHistory
import QtZooKeeper.Verification.ValueCoherence

/-!
# Coherence of the exists flags

A node remembers whether its znode exists. Creates and reads store what their
answers say about it; the completion of `existsNode`, `existsNodeSync` and the data
watch callback learn the same but leave the flag alone.
-/

namespace QtZooKeeper

open FallibleSystem

/-! ## Answers -/

/-- An answer about the existence of a path. -/
inductive ExistsAnswer where
  /-- The answer to a create. -/
  | create (error : ZooKeeperError)
  /-- The answer to a read or to an exists query. -/
  | query (error : ZooKeeperError)
  deriving DecidableEq, Repr

/-- What an answer settles about the existence of its path. -/
def ExistsAnswer.settles : ExistsAnswer → Option Bool
  | create .noError | create .nodeExists => some true
  | query .noError => some true
  | query .noNode => some false
  | _ => none

/-- What the latest answer that settles existence says. -/
def latestExists (h : List ExistsAnswer) : Option Bool := h.reverse.findSome? ExistsAnswer.settles

theorem latestExists_snoc {h : List ExistsAnswer} {a : ExistsAnswer} :
    latestExists (h ++ [a]) = a.settles.or (latestExists h) := by
  rw [latestExists, List.reverse_append, List.reverse_singleton, List.singleton_append,
    List.findSome?_cons]
  cases a.settles <;> rfl

/-- The flag `b` agrees with the answers `h`; without an answer it is false. -/
def ExistsAgrees (h : List ExistsAnswer) (b : Bool) : Prop := b = (latestExists h).getD false

theorem existsAgrees_nil : ExistsAgrees [] false := rfl

/-- One more answer overrules the others if it settles anything. -/
theorem existsAgrees_snoc {h : List ExistsAnswer} {a : ExistsAnswer} {b : Bool} :
    ExistsAgrees (h ++ [a]) b ↔ match a.settles with
      | some b' => b = b'
      | none => ExistsAgrees h b := by
  rw [ExistsAgrees, latestExists_snoc]
  cases a.settles with
  | none => rfl
  | some b' => simp

/-! ## Which answers a step processes -/

/-- The path a call gets an answer about, and the answer. -/
def Call.existsAnswer (s : Manager) : Call → Option (QString × ExistsAnswer)
  | createNodeSync a ret newPath _ =>
    if s.pool.contains a.path then none
    else if ZooKeeperError.ofInt ret = .noError then some (newPath, .create .noError)
    else some (a.path, .create (.ofInt ret))
  | existsNodeSync path ret => some (path, .query (.ofInt ret))
  | getNodeValueSync path _ r _ | wgetNodeValue path _ r _ _ => some (path, .query r.error)
  | _ => none

/-- The path a step processes an answer about, and the answer. The re-read of the
data watch callback is an answer if it reads the watched path. -/
def Label.existsAnswer (s : Manager) : Label → Option (QString × ExistsAnswer)
  | call c => c.existsAnswer s
  | deliver r (.create rc name) => some (r.createdPath name, .create (.ofInt rc))
  | deliver r (.get rc _) => some (r.path, .query (.ofInt rc))
  | deliver r (.exists_ rc) => some (r.path, .query (.ofInt rc))
  | watchEvent _ w _ _ path (.value r) =>
    if path = constData (toLatin1 w.path) then some (w.path, .query r.error) else none
  | _ => none

/-- The system with the answers about existence each node has got. -/
def asked : FallibleSystem (Manager × (NodeId → List ExistsAnswer)) Label AccessFault :=
  recorded fun s l => l.existsAnswer s

instance (l : Label) (x : Manager × (NodeId → List ExistsAnswer)) : Decidable (asked.enabled l x) :=
  inferInstanceAs (Decidable (l.Enabled x.1))

/-- The flag of every pooled node is what the latest answer says. -/
def ExistsCoherent (x : Manager × (NodeId → List ExistsAnswer)) : Prop :=
  NodesAgree (fun h d => ExistsAgrees h d.exists_) x

/-! ## What each step has to find -/

/-- The node pooled under `path`, if there is one, has the flag `b`. -/
def Pool.ShowsExists (p : Pool) (path : QString) (b : Bool) : Prop :=
  ∀ z ∈ p.pooled path, z.2.exists_ = b

instance (p : Pool) (path : QString) (b : Bool) : Decidable (p.ShowsExists path b) :=
  inferInstanceAs (Decidable (∀ z ∈ p.pooled path, z.2.exists_ = b))

/-- Where the code does not store what an answer settles, the node has that flag
already: after an exists query, after the re-read of a data watch, and after a
create for the empty path. -/
def findsExists (s : Manager) : Label → Prop
  | .call (.existsNodeSync path ret) =>
    ∀ b ∈ (ZooKeeperError.ofInt ret).settled, s.pool.ShowsExists path b
  | .deliver r (.exists_ rc) => ∀ b ∈ (ZooKeeperError.ofInt rc).settled, s.pool.ShowsExists r.path b
  | .deliver r (.create rc name) => r.path = "" → (ZooKeeperError.ofInt rc).keepsNode = true →
    s.pool.ShowsExists (name.getD "") true
  | .watchEvent _ w _ _ path (.value r) => path = constData (toLatin1 w.path) →
    ∀ b ∈ r.error.settled, s.pool.ShowsExists w.path b
  | _ => True

instance (s : Manager) : (l : Label) → Decidable (findsExists s l)
  | .call c =>
    match c with
    | .existsNodeSync path ret =>
      inferInstanceAs (Decidable (∀ b ∈ (ZooKeeperError.ofInt ret).settled, s.pool.ShowsExists path b))
    | .initializeHandle .. | .addAuth .. | .quit | .destructor | .createNode .. | .createNodeSync ..
    | .deleteNode .. | .deleteNodeSync .. | .existsNode .. | .setNodeValue .. | .setNodeValueSync ..
    | .getNodeValue .. | .getNodeValueSync .. | .wgetNodeValue .. | .getChildrenNode ..
    | .getChildrenNodeSync .. | .wgetChildrenNode .. | .setExists .. =>
      inferInstanceAs (Decidable True)
  | .deliver r (.create rc name) =>
    inferInstanceAs (Decidable (r.path = "" → (ZooKeeperError.ofInt rc).keepsNode = true →
      s.pool.ShowsExists (name.getD "") true))
  | .deliver r (.exists_ rc) =>
    inferInstanceAs (Decidable (∀ b ∈ (ZooKeeperError.ofInt rc).settled, s.pool.ShowsExists r.path b))
  | .watchEvent _ w _ _ path (.value r) =>
    inferInstanceAs (Decidable (path = constData (toLatin1 w.path) →
      ∀ b ∈ r.error.settled, s.pool.ShowsExists w.path b))
  | .deliver _ (.delete _) | .deliver _ (.set _) | .deliver _ (.get _ _)
  | .deliver _ (.getChildren _ _) | .watchEvent _ _ _ _ _ (.children _ _) | .watcher .. | .timer _
  | .closeReturns => inferInstanceAs (Decidable True)

variable {s s' : Manager} {l : Label} {x y : Manager × (NodeId → List ExistsAnswer)}
variable {tr : List ((Manager × (NodeId → List ExistsAnswer)) × Label)}
variable {path k : QString} {n : NodeId} {d : ZooKeeperNode} {a : ExistsAnswer} {b : Bool}
variable {error : ZooKeeperError}

/-! ## One step -/

theorem ExistsAnswer.settles_query : (query error).settles = error.settled := by
  cases error <;> rfl

theorem ExistsAnswer.settles_create :
    (create error).settles = if error.keepsNode then some true else none := by
  cases error <;> rfl

/-- What a step stores is what its answer settles. -/
theorem answer_of_storesExists (h : (l.poolOp s).storesExists = some (k, b)) :
    ∃ a, l.existsAnswer s = some (k, a) := by
  have hsettled : ∀ {path : QString} {e : ZooKeeperError},
      e.settled.map (path, ·) = some (k, b) → path = k := by
    intro path e h
    obtain ⟨b', -, hb⟩ := Option.map_eq_some_iff.mp h
    cases hb
    rfl
  rw [storesExists_poolOp] at h
  cases l with
  | call c =>
    cases c with
    | createNodeSync a ret newPath n =>
      simp only [Label.learns, Option.ite_none_right_eq_some, Option.some.injEq, Prod.mk.injEq] at h
      obtain ⟨⟨hc, hret⟩, rfl, -⟩ := h
      exact ⟨_, (if_neg (by simp [hc])).trans (if_pos hret)⟩
    | getNodeValueSync path wantsError r n =>
      obtain rfl := hsettled h
      exact ⟨_, rfl⟩
    | wgetNodeValue path callback r ctx n =>
      obtain rfl := hsettled h
      exact ⟨_, rfl⟩
    | _ => cases h
  | deliver r c =>
    cases c with
    | create rc name =>
      simp only [Label.learns, Option.ite_none_right_eq_some, Option.some.injEq, Prod.mk.injEq] at h
      obtain ⟨⟨hne, -⟩, rfl, -⟩ := h
      exact ⟨_, by simp only [Label.existsAnswer, Request.createdPath, if_neg hne]; rfl⟩
    | get rc value =>
      obtain rfl := hsettled h
      exact ⟨_, rfl⟩
    | _ => cases h
  | _ => cases h

/-- The flag of a pooled node agrees with the earlier answers, unless the step
stores in it. -/
theorem exists_before (hx : asked.Reachable x) (hP : ExistsCoherent x) (hset : l.setsExists = false)
    (he : l.Enabled x.1) (hstep : l.step x.1 = .ok s') (hn : s'.pool.pooled k = some (n, d)) :
    ExistsAgrees (x.2 n) d.exists_ ∨ (l.poolOp x.1).storesExists = some (k, d.exists_) := by
  obtain ⟨d₀, ho, hnode⟩ := origin_of_step hx he hstep hn
  rcases ho.exists_ with hd | hstores | hsets
  · left
    rw [hd]
    rcases hnode with ⟨k₀, h₀⟩ | ⟨hempty, hfalse⟩
    · exact hP k₀ n d₀ h₀
    · rw [hempty, hfalse]
      exact existsAgrees_nil
  · exact .inr hstores
  · rw [setsExists_poolOp hset] at hsets
    cases hsets

theorem exists_step_iff (hx : asked.Reachable x) (hP : ExistsCoherent x)
    (hset : l.setsExists = false) (he : asked.enabled l x) (hs : asked.step l x = .ok y) :
    ExistsCoherent y ↔ ∀ z ∈ l.existsAnswer x.1, ∀ n d, y.1.pool.pooled z.1 = some (n, d) →
      ExistsAgrees (x.2 n ++ [z.2]) d.exists_ := by
  refine nodesAgree_step_iff _ hx he hs ?_
  intro k n d hn hnone
  refine (exists_before hx hP hset he (withHistory_step.mp hs).1 hn).resolve_right ?_
  intro hstores
  obtain ⟨a, ha⟩ := answer_of_storesExists hstores
  exact hnone a ha

/-- Where the step stores what its answer settles, the node agrees with it. -/
theorem agrees_of_stored (hx : asked.Reachable x) (hP : ExistsCoherent x)
    (hset : l.setsExists = false) (he : l.Enabled x.1) (hstep : l.step x.1 = .ok s')
    (hstores : (l.poolOp x.1).storesExists = a.settles.map (path, ·)) :
    ∀ n d, s'.pool.pooled path = some (n, d) → ExistsAgrees (x.2 n ++ [a]) d.exists_ := by
  intro n d hn
  rw [existsAgrees_snoc]
  cases ha : a.settles with
  | none =>
    rw [ha] at hstores
    exact (exists_before hx hP hset he hstep hn).resolve_right (by simp [hstores])
  | some b =>
    rw [ha] at hstores
    exact Pool.exists_of_stores (sound_of_reachable hx.forget) (step_pool hstep) hstores hn

/-- Where the pool stays as it is, the node has to have the flag already. -/
theorem agrees_iff_of_kept {p : Pool} (hP : ExistsCoherent x) (hpool : p = x.1.pool) :
    (∀ n d, p.pooled path = some (n, d) → ExistsAgrees (x.2 n ++ [a]) d.exists_) ↔
      ∀ b ∈ a.settles, x.1.pool.ShowsExists path b := by
  subst hpool
  constructor
  · rintro h b hb ⟨n, d⟩ hn
    have hagrees := existsAgrees_snoc.mp (h n d hn)
    rw [Option.mem_def.mp hb] at hagrees
    exact hagrees
  · intro h n d hn
    rw [existsAgrees_snoc]
    cases ha : a.settles with
    | none => exact hP path n d hn
    | some b => exact h b ha (n, d) hn

/-- The answer to a synchronous create is stored; one that is not accepted concerns no
node. -/
theorem agrees_createNodeSync {c : Manager.CreateArgs} {ret : Int} {newPath : QString} {i : NodeId}
    (hx : asked.Reachable x) (hP : ExistsCoherent x)
    (he : Label.Enabled (.call (.createNodeSync c ret newPath i)) x.1)
    (hstep : Label.step (.call (.createNodeSync c ret newPath i)) x.1 = .ok s') :
    ∀ z ∈ Label.existsAnswer x.1 (.call (.createNodeSync c ret newPath i)), ∀ n d,
      s'.pool.pooled z.1 = some (n, d) → ExistsAgrees (x.2 n ++ [z.2]) d.exists_ := by
  simp only [Label.existsAnswer, Call.existsAnswer]
  by_cases hc : x.1.pool.contains c.path = true
  · simp [hc]
  · rw [if_neg hc]
    by_cases hret : ZooKeeperError.ofInt ret = .noError
    · rw [if_pos hret]
      simp only [Option.mem_some_iff, forall_eq']
      refine agrees_of_stored hx hP rfl he hstep ?_
      simp only [Label.poolOp, Call.poolOp, if_neg hc, if_pos hret]
      rfl
    · rw [if_neg hret]
      simp only [Option.mem_some_iff, forall_eq']
      intro m e hm
      have hpool := pool_eq_of_keep hstep
        (by simp only [Label.poolOp, Call.poolOp, if_neg hc, if_neg hret])
      rw [hpool] at hm
      have hmissing := Pool.not_contains_iff.mp hc
      cases hmissing.symm.trans (Pool.pooled_eq_some.mp hm).1

/-- The completion of a create is stored unless it is one for the empty path. -/
theorem agrees_create_iff {r : Request} {rc : Int} {name : Option QString}
    (hx : asked.Reachable x) (hP : ExistsCoherent x)
    (he : Label.Enabled (.deliver r (.create rc name)) x.1)
    (hstep : Label.step (.deliver r (.create rc name)) x.1 = .ok s') :
    (∀ n d, s'.pool.pooled (r.createdPath name) = some (n, d) →
      ExistsAgrees (x.2 n ++ [.create (.ofInt rc)]) d.exists_) ↔
      findsExists x.1 (.deliver r (.create rc name)) := by
  by_cases hpath : r.path = ""
  · have hpool : s'.pool = x.1.pool := by
      have happly := step_pool hstep
      simp only [Label.poolOp, hpath] at happly
      exact (Except.pure_eq_ok.mp happly).symm
    rw [agrees_iff_of_kept hP hpool, ExistsAnswer.settles_create]
    simp only [findsExists, Request.createdPath, hpath, if_true, forall_const]
    cases (ZooKeeperError.ofInt rc).keepsNode <;> simp
  · refine iff_of_true (agrees_of_stored hx hP rfl he hstep ?_) fun h => absurd h hpath
    rw [ExistsAnswer.settles_create]
    simp only [Label.poolOp, PoolOp.storesExists, ne_eq, hpath, not_false_eq_true, true_and,
      Request.createdPath, if_false]
    cases (ZooKeeperError.ofInt rc).keepsNode <;> rfl

/-- The node an answer is about agrees with it exactly if the step finds it so. -/
theorem findsExists_iff (hx : asked.Reachable x) (hP : ExistsCoherent x)
    (hset : l.setsExists = false) (he : l.Enabled x.1) (hstep : l.step x.1 = .ok s') :
    (∀ z ∈ l.existsAnswer x.1, ∀ n d, s'.pool.pooled z.1 = some (n, d) →
      ExistsAgrees (x.2 n ++ [z.2]) d.exists_) ↔ findsExists x.1 l := by
  have hnone : l.existsAnswer x.1 = none → findsExists x.1 l →
      ((∀ z ∈ l.existsAnswer x.1, ∀ n d, s'.pool.pooled z.1 = some (n, d) →
        ExistsAgrees (x.2 n ++ [z.2]) d.exists_) ↔ findsExists x.1 l) := by
    intro ha hf
    exact iff_of_true (by simp [ha]) hf
  have hone : ∀ (path : QString) (a : ExistsAnswer), l.existsAnswer x.1 = some (path, a) →
      ((∀ z ∈ l.existsAnswer x.1, ∀ n d, s'.pool.pooled z.1 = some (n, d) →
        ExistsAgrees (x.2 n ++ [z.2]) d.exists_) ↔
        ∀ n d, s'.pool.pooled path = some (n, d) → ExistsAgrees (x.2 n ++ [a]) d.exists_) := by
    intro path a ha
    simp only [ha, Option.mem_some_iff, forall_eq']
  cases l with
  | call c =>
    cases c with
    | createNodeSync a ret newPath n => exact iff_of_true (agrees_createNodeSync hx hP he hstep) trivial
    | existsNodeSync path ret =>
      rw [hone _ _ rfl, agrees_iff_of_kept hP (pool_eq_of_keep hstep rfl), ExistsAnswer.settles_query]
      rfl
    | getNodeValueSync path wantsError r n =>
      refine iff_of_true ((hone _ _ rfl).mpr (agrees_of_stored hx hP hset he hstep ?_)) trivial
      rw [ExistsAnswer.settles_query]
      rfl
    | wgetNodeValue path callback r ctx n =>
      refine iff_of_true ((hone _ _ rfl).mpr (agrees_of_stored hx hP hset he hstep ?_)) trivial
      rw [ExistsAnswer.settles_query]
      rfl
    | _ => exact hnone rfl trivial
  | deliver r c =>
    cases c with
    | create rc name =>
      rw [hone _ _ rfl]
      exact agrees_create_iff hx hP he hstep
    | get rc value =>
      refine iff_of_true ((hone _ _ rfl).mpr (agrees_of_stored hx hP hset he hstep ?_)) trivial
      rw [ExistsAnswer.settles_query]
      rfl
    | exists_ rc =>
      rw [hone _ _ rfl, agrees_iff_of_kept hP (pool_eq_of_keep hstep rfl), ExistsAnswer.settles_query]
      rfl
    | _ => exact hnone rfl trivial
  | watchEvent zh w type state path a =>
    cases a with
    | value r =>
      by_cases hpath : path = constData (toLatin1 w.path)
      · rw [hone _ _ (by simp only [Label.existsAnswer, if_pos hpath]; rfl),
          agrees_iff_of_kept hP (pool_eq_of_keep hstep rfl), ExistsAnswer.settles_query]
        simp only [findsExists, hpath, forall_const]
      · exact hnone (by simp only [Label.existsAnswer, if_neg hpath]) fun h => absurd h hpath
    | children rc strings => exact hnone rfl trivial
  | _ => exact hnone rfl trivial

/-- The runs without `setExists` in which every flag is coherent all along are those
in which every answer whose outcome is not stored finds the node with that flag. -/
theorem exists_coherent_iff (h : asked.Run tr x) (hset : Each (fun _ l => l.setsExists = false) tr) :
    Always ExistsCoherent tr x ↔ Each (fun y l => findsExists y.1 l) tr := by
  refine h.always_iff_each_of (Q := asked.Reachable) nodesAgree_init ?_ ?_ hset
  · intro tr x hr _
    exact ⟨tr, hr⟩
  · intro x l y hx hP hsets he hs
    rw [exists_step_iff hx hP hsets he hs]
    exact findsExists_iff hx hP hsets he (withHistory_step.mp hs).1

/-- A created node whose znode is deleted by someone else, found out by a read, and
asked for again. -/
def deletedElsewhere : List Label :=
  sessionOpen ++
    [.call (.createNode { type := .persistentNode, path := "/a" } 0 0 0),
     .deliver { ctx := 0, op := .create, path := "/a", node := some 0 } (.create 0 (some "/a")),
     .call (.getNodeValue "/a" false false 0 1 1),
     .deliver { ctx := 1, op := .get, path := "/a", node := some 0 } (.get (-101) none),
     .call (.existsNodeSync "/a" (-101))]

/-- The same, found out by the query alone. -/
def onlyAsked : List Label :=
  sessionOpen ++
    [.call (.createNode { type := .persistentNode, path := "/a" } 0 0 0),
     .deliver { ctx := 0, op := .create, path := "/a", node := some 0 } (.create 0 (some "/a")),
     .call (.existsNodeSync "/a" (-101))]

theorem deletedElsewhere_coherent :
    Always ExistsCoherent (asked.execGet deletedElsewhere (by decide)).1
      (asked.execGet deletedElsewhere (by decide)).2 :=
  (exists_coherent_iff (run_execGet deletedElsewhere (by decide)) (by unfold Each; decide)).mpr
    (by unfold Each; decide)

/-- The node still claims to exist. -/
theorem onlyAsked_not_coherent : ¬ ∀ tr x, asked.Run tr x →
    Each (fun _ l => l.setsExists = false) tr → ExistsCoherent x := by
  intro h
  have hc := h _ _ (run_execGet onlyAsked (by decide)) (by unfold Each; decide)
  have hn : (asked.execGet onlyAsked (by decide)).2.1.pool.pooled "/a" =
      some (0, ⟨true, "/a", [], some .persistentNode⟩) := by rfl
  have hfalse : (latestExists ((asked.execGet onlyAsked (by decide)).2.2 0)).getD false = false := by
    rfl
  cases (hc "/a" 0 _ hn).trans hfalse

end QtZooKeeper
