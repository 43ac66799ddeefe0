-- SUMMARY: Under which nodes addChildNode asks the client for a child, and for which path.
import QtZooKeeper.Client.Paths
import QtZooKeeper.Verification.CreatedPaths

/-!
# Child nodes

`addChildNode` goes by the type field of the node, which only the creates set, and
puts a slash and the name behind the path of the node. What it should do depends on
how the node was made, so the type each node was created with is recorded beside
the manager.
-/

namespace QtZooKeeper

open FallibleSystem

/-! ## The types of the nodes -/

/-- A step that creates a node records its type. -/
def recordType (s : Manager) (l : Label) (_ : Manager) (h : NodeId → Option ZooKeeperNodeType) :
    NodeId → Option ZooKeeperNodeType :=
  match (l.poolOp s).creates with
  | none => h
  | some (n, type) => Function.update h n (some type)

/-- The system with the type each node was created with, `none` for a node made by a
read. -/
def typed : FallibleSystem (Manager × (NodeId → Option ZooKeeperNodeType)) Label AccessFault :=
  system.withHistory (fun _ => none) recordType

instance (l : Label) (x : Manager × (NodeId → Option ZooKeeperNodeType)) :
    Decidable (typed.enabled l x) :=
  inferInstanceAs (Decidable (l.Enabled x.1))

/-! ## Children -/

/-- A name is a single component of a path. -/
structure IsName (name : QString) : Prop where
  ne_empty : name ≠ ""
  noSlash : '/' ∉ name.toList
  noControl : ∀ c ∈ name.toList, 0x20 ≤ c.toNat
  ne_dot : name ≠ "."
  ne_dotdot : name ≠ ".."

instance (name : QString) : Decidable (IsName name) :=
  haveI := List.decidableBAll (fun c : Char => 0x20 ≤ c.toNat) name.toList
  decidable_of_iff (name ≠ "" ∧ '/' ∉ name.toList ∧ (∀ c ∈ name.toList, 0x20 ≤ c.toNat) ∧
      name ≠ "." ∧ name ≠ "..")
    ⟨fun h => ⟨h.1, h.2.1, h.2.2.1, h.2.2.2.1, h.2.2.2.2⟩,
      fun h => ⟨h.ne_empty, h.noSlash, h.noControl, h.ne_dot, h.ne_dotdot⟩⟩

/-- The path of the child with this name. -/
def childPath (path name : QString) : QString :=
  if path = "/" then "/" ++ name else path ++ "/" ++ name

namespace Manager

/-- The step from `s` to `s'` asks the client for one znode, under a path it accepts
and whose parent is `path`. -/
def AsksForChild (s s' : Manager) (path : QString) (type : ZooKeeperNodeType)
    (value : QByteArray) : Prop :=
  ∃ args : LibArgs, s.Submitted s' .zooAcreate args ∧ args.flag = type.flag ∧ args.value = value ∧
    isValidPath (prependString (hostChroot s.session.host) args.path) args.flag = true ∧
    parentPath args.path = some (toLatin1 path)

/-- `r` is right for a call of `addChildNode` in `s` on a node with this path that was
created with the type `created`. -/
structure ChildAdded (s : Manager) (created : Option ZooKeeperNodeType) (path : QString)
    (type : ZooKeeperNodeType) (value : QByteArray) (r : Returned × Manager) : Prop where
  ephemeral : (∃ t ∈ created, t.isEphemeral = true) → r.1.node = none ∧ r.2 = s
  other : (∀ t ∈ created, t.isEphemeral = false) → s.AsksForChild r.2 path type value

end Manager

/-- The path is neither empty nor the root, has no U+0000, and is accepted by the
client behind the chroot. -/
structure TakesChildren (host path : QString) : Prop where
  ne_empty : path ≠ ""
  ne_root : path ≠ "/"
  noNul : NoNul path
  valid : isValidPath ((hostChroot host).getD [] ++ toLatin1 path) 0 = true

instance (host path : QString) : Decidable (TakesChildren host path) :=
  decidable_of_iff (path ≠ "" ∧ path ≠ "/" ∧ NoNul path ∧
      isValidPath ((hostChroot host).getD [] ++ toLatin1 path) 0 = true)
    ⟨fun h => ⟨h.1, h.2.1, h.2.2.1, h.2.2.2⟩, fun h => ⟨h.ne_empty, h.ne_root, h.noNul, h.valid⟩⟩

/-- The node was created as an ephemeral one; or its type, which `unset` stands for
where it was never set, is one of the others, and its path takes children. -/
def childJustified (host : QString) (created unset : Option ZooKeeperNodeType) (path : QString) :
    Prop :=
  (∃ t ∈ created, t.isEphemeral = true) ∨
    ((∃ t ∈ created.or unset, t.isEphemeral = false) ∧ TakesChildren host path)

instance (host : QString) (created unset : Option ZooKeeperNodeType) (path : QString) :
    Decidable (childJustified host created unset path) := by
  unfold childJustified
  infer_instance

variable {x y : Manager × (NodeId → Option ZooKeeperNodeType)} {s s' : Manager} {l : Label}
variable {host path name k : QString} {n m : NodeId} {d : ZooKeeperNode}
variable {type t : ZooKeeperNodeType} {created unset : Option ZooKeeperNodeType}
variable {value : QByteArray} {ret : Int} {ctx : CtxId}
variable {types : NodeId → Option ZooKeeperNodeType}

/-! ## The recorded types -/

theorem recordType_of_none (h : (l.poolOp s).creates = none) : recordType s l s' types = types := by
  simp only [recordType, h]

theorem recordType_eq (h : (l.poolOp s).creates = some (m, t)) :
    recordType s l s' types n = if n = m then some t else types n := by
  simp only [recordType, h, Function.update_apply]

/-- The type fields of the live nodes agree with the recorded types, and nothing is
recorded for a node that has not been created. -/
structure TypesRecorded (p : Pool) (types : NodeId → Option ZooKeeperNodeType) : Prop where
  live : ∀ n d, p.nodes.Live n d → d.type = types n
  fresh : ∀ n, p.nodes.Fresh n → types n = none

theorem typesRecorded_init : TypesRecorded {} (fun _ => none) where
  live _ _ hl := absurd rfl hl.not_fresh
  fresh _ _ := rfl

/-- A step that creates no node leaves the types; one that does adds that of the new
node. -/
theorem TypesRecorded.step (h : TypesRecorded s.pool types) (hs : s.pool.Sound) (he : l.Enabled s)
    (hstep : l.step s = .ok s') : TypesRecorded s'.pool (recordType s l s' types) := by
  have hop := enabled_pool he
  have hpool := step_pool hstep
  cases hcr : (l.poolOp s).creates with
  | none =>
    rw [recordType_of_none hcr]
    refine ⟨?_, fun n hf => h.fresh n (Pool.fresh_of_apply hs hpool hf)⟩
    intro n d hl
    rcases Pool.type_of_apply hs hop hpool hl with ⟨d₀, hl₀, htype⟩ | ⟨hf, hnew⟩
    · rw [htype, h.live n d₀ hl₀]
    · rw [hcr, eq_comm, Option.map_eq_none_iff] at hnew
      rw [hnew, h.fresh n hf]
  | some z =>
    refine ⟨?_, ?_⟩
    · intro n d hl
      rw [recordType_eq hcr]
      rcases Pool.type_of_apply hs hop hpool hl with ⟨d₀, hl₀, htype⟩ | ⟨-, hnew⟩
      · rw [if_neg ((Pool.fresh_of_creates hop hcr).ne hl₀), htype, h.live n d₀ hl₀]
      · rw [hcr, eq_comm, Option.map_eq_some_iff] at hnew
        obtain ⟨t, ht, rfl⟩ := hnew
        rw [if_pos rfl, ht]
    · intro n hf
      have hne : n ≠ z.1 := by
        rintro rfl
        exact Pool.not_fresh_of_creates hpool hcr hf
      rw [recordType_eq hcr, if_neg hne, h.fresh n (Pool.fresh_of_apply hs hpool hf)]

theorem typesRecorded_of_reachable (hx : typed.Reachable x) : TypesRecorded x.1.pool x.2 := by
  have hinv : x.1.pool.Sound ∧ TypesRecorded x.1.pool x.2 := by
    refine hx.invariant (P := fun x => x.1.pool.Sound ∧ TypesRecorded x.1.pool x.2)
      ⟨Pool.sound_init, typesRecorded_init⟩ ?_
    intro x l y ⟨hsound, hrecorded⟩ he hs
    obtain ⟨hstep, hrec⟩ := withHistory_step.mp hs
    rw [hrec]
    exact ⟨hsound.apply (enabled_pool he) (step_pool hstep), hrecorded.step hsound he hstep⟩
  exact hinv.2

/-! ## Names and paths as bytes -/

/-- The bytes of a name are a single component for the client, too. -/
theorem IsName.component (h : IsName name) : Component (toLatin1 name) where
  ne_nil hnil := h.ne_empty ((toLatin1_inj (p := "") (by decide) (by decide)).mp hnil)
  noSlash hmem := by
    rw [toLatin1_eq, List.mem_flatMap] at hmem
    obtain ⟨c, hc, hbyte⟩ := hmem
    have hslash : c = '/' := by
      refine Char.toNat_inj.mp ?_
      exact ((toNat_of_mem_latin1Char hbyte).resolve_right (by decide)).symm
    exact h.noSlash (hslash ▸ hc)
  printable b hb := by
    rw [toLatin1_eq, List.mem_flatMap] at hb
    obtain ⟨c, hc, hbyte⟩ := hb
    rcases toNat_of_mem_latin1Char hbyte with hnat | rfl
    · have hcontrol := h.noControl c hc
      rw [UInt8.le_iff_toNat_le, hnat]
      exact (by decide : (0x1F : UInt8).toNat ≤ 0x20).trans hcontrol
    · decide
  ne_dot hdot := h.ne_dot ((toLatin1_inj (p := ".") (by decide) (by decide)).mp hdot)
  ne_dotdot hdots := h.ne_dotdot ((toLatin1_inj (p := "..") (by decide) (by decide)).mp hdots)

theorem IsName.noNul (h : IsName name) : NoNul name := fun hmem =>
  absurd (h.noControl _ hmem) (by decide)

theorem toLatin1_eq_nil : toLatin1 path = [] ↔ path = "" :=
  toLatin1_inj (p := "") (by decide) (by decide)

theorem toLatin1_eq_slash : toLatin1 path = [slash] ↔ path = "/" :=
  toLatin1_inj (p := "/") (by decide) (by decide)

theorem noNul_append {p q : QString} : NoNul (p ++ q) ↔ NoNul p ∧ NoNul q := by
  simp only [NoNul, String.toList_append, List.mem_append, not_or]

/-! ## The path of the child -/

theorem toLatin1_child : toLatin1 (path ++ "/" ++ name) = toLatin1 path ++ slash :: toLatin1 name := by
  have hslash : toLatin1 "/" = [slash] := by decide
  rw [toLatin1_append, toLatin1_append, hslash, List.append_assoc, List.singleton_append]

theorem noNul_child (hname : IsName name) (hpath : NoNul path) : NoNul (path ++ "/" ++ name) := by
  rw [noNul_append, noNul_append]
  exact ⟨⟨hpath, by decide⟩, hname.noNul⟩

/-- Behind the chroot, too, a path that takes children is not the root. -/
theorem TakesChildren.behind_ne (h : TakesChildren host path) :
    (hostChroot host).getD [] ++ toLatin1 path ≠ [slash] := by
  intro hroot
  rcases List.append_eq_singleton_iff.mp hroot with ⟨-, hslash⟩ | ⟨-, hnil⟩
  · exact h.ne_root (toLatin1_eq_slash.mp hslash)
  · exact h.ne_empty (toLatin1_eq_nil.mp hnil)

/-- What `addChildNode` asks for is a child of the node exactly if the path of the node
takes children. -/
theorem child_iff (flags : Nat) (hname : IsName name) :
    (isValidPath (prependString (hostChroot host) (constData (toLatin1 (path ++ "/" ++ name))))
        flags = true ∧
      parentPath (constData (toLatin1 (path ++ "/" ++ name))) = some (toLatin1 path)) ↔
    TakesChildren host path := by
  by_cases hnul : NoNul path
  · have hcomponent := hname.component
    have hlength : (toLatin1 path ++ slash :: toLatin1 name).length ≠ 1 := by
      have hpos := List.length_pos_of_ne_nil hcomponent.ne_nil
      rw [List.length_append, List.length_cons]
      omega
    rw [constData_toLatin1 (noNul_child hname hnul), toLatin1_child, prependString_eq hlength,
      ← List.append_assoc, parentPath_append hcomponent]
    by_cases hempty : path = ""
    · -- the child of the empty path is one of the root
      have hnot : ¬ TakesChildren host path := fun h => h.ne_empty hempty
      refine iff_of_false ?_ hnot
      rintro ⟨-, hparent⟩
      rw [toLatin1_eq_nil.mpr hempty] at hparent
      cases hparent
    · have hbytes : toLatin1 path ≠ [] := fun h => hempty (toLatin1_eq_nil.mp h)
      have hbehind : (hostChroot host).getD [] ++ toLatin1 path ≠ [] := by simp [hbytes]
      rw [if_neg hbytes, and_iff_left rfl, isValidPath_append hcomponent hbehind]
      constructor
      · rintro ⟨hroot, hvalid⟩
        refine ⟨hempty, ?_, hnul, hvalid⟩
        intro hslash
        rw [toLatin1_eq_slash.mpr hslash] at hroot hvalid
        -- the root behind a chroot ends in a slash
        have hchroot : (hostChroot host).getD [] ≠ [] := by
          intro h
          exact hroot (by rw [h, List.nil_append])
        rw [isValidPath_slash hchroot] at hvalid
        cases hvalid
      · intro h
        exact ⟨h.behind_ne, h.valid⟩
  · -- the request is cut off at the first U+0000
    refine iff_of_false ?_ fun h => hnul h.noNul
    rintro ⟨-, hparent⟩
    rcases mem_of_parentPath hparent (zero_mem_toLatin1.mpr hnul) with hslash | hmem
    · exact absurd hslash (by decide)
    · exact zero_not_mem_constData hmem

/-- The children of a path that takes children do so in their turn. -/
theorem TakesChildren.child (h : TakesChildren host path) (hname : IsName name) :
    TakesChildren host (childPath path name) := by
  have hcomponent := hname.component
  have hpos := List.length_pos_of_ne_nil hcomponent.ne_nil
  have hpath : childPath path name = path ++ "/" ++ name := if_neg h.ne_root
  have hbehind : (hostChroot host).getD [] ++ toLatin1 path ≠ [] := by
    intro hnil
    exact h.ne_empty (toLatin1_eq_nil.mp (List.append_eq_nil_iff.mp hnil).2)
  rw [hpath]
  refine ⟨?_, ?_, noNul_child hname h.noNul, ?_⟩
  · intro hempty
    have hbytes := toLatin1_eq_nil.mpr hempty
    simp [toLatin1_child] at hbytes
  · intro hroot
    have hlength := congrArg List.length (toLatin1_eq_slash.mpr hroot)
    rw [toLatin1_child, List.length_append, List.length_cons, List.length_singleton] at hlength
    omega
  · rw [toLatin1_child, ← List.append_assoc, isValidPath_append hcomponent hbehind]
    exact ⟨h.behind_ne, h.valid⟩

namespace Manager

theorem Submitted.args_eq {fn : LibFn} {args args' : LibArgs} (h : s.Submitted s' fn args)
    (h' : s.Submitted s' fn args') : args = args' := by
  have hcalls := h.symm.trans h'
  simpa using hcalls

theorem createNode_submitted (a : CreateArgs) (ret : Int) (ctx : CtxId) (n : NodeId)
    (hc : s.pool.contains a.path = false) :
    s.Submitted (s.createNode a ret ctx n).2 .zooAcreate a.request := by
  unfold createNode
  rw [if_neg (by simp [hc])]
  split <;> rfl

theorem not_asksForChild_self : ¬ s.AsksForChild s path type value :=
  fun ⟨_, hsub, _⟩ => not_submitted_self hsub

/-- Under a node that is not ephemeral the call asks for the child if the path takes
children, and only then. -/
theorem createNode_asks_iff (hname : IsName name) (hc : s.pool.contains (childPath path name) = false) :
    s.AsksForChild (s.createNode { type := type, path := path ++ "/" ++ name, value := value }
      ret ctx n).2 path type value ↔ TakesChildren s.session.host path := by
  by_cases hpooled : s.pool.contains (path ++ "/" ++ name) = true
  · -- this is not the path of the child then
    have hroot : path = "/" := by
      by_contra hroot
      rw [childPath, if_neg hroot, hpooled] at hc
      cases hc
    refine iff_of_false ?_ fun h => h.ne_root hroot
    rw [createNode, if_pos hpooled]
    exact not_asksForChild_self
  · have hmissing : s.pool.contains (path ++ "/" ++ name) = false := by simpa using hpooled
    have hsub := createNode_submitted
      { type := type, path := path ++ "/" ++ name, value := value } ret ctx n hmissing
    rw [← child_iff type.flag hname]
    constructor
    · rintro ⟨args, hargs, -, -, hvalid, hparent⟩
      obtain rfl := hsub.args_eq hargs
      exact ⟨hvalid, hparent⟩
    · rintro ⟨hvalid, hparent⟩
      exact ⟨_, hsub, rfl, rfl, hvalid, hparent⟩

/-- The test of `addChildNode` lets the types pass that are not ephemeral. -/
theorem addChildNode_eq (d : ZooKeeperNode) (unset : Option ZooKeeperNodeType)
    (type : ZooKeeperNodeType) (name : QString) (value : QByteArray) (ret : Int) (ctx : CtxId)
    (n : NodeId) (s : Manager) : s.addChildNode d unset type name value ret ctx n =
      if ∃ t ∈ d.type.or unset, t.isEphemeral = false then
        s.createNode { type := type, path := d.path ++ "/" ++ name, value := value } ret ctx n
      else (⟨none, none⟩, s) := by
  unfold addChildNode
  cases d.type.or unset with
  | none => simp
  | some t => cases t <;> simp [ZooKeeperNodeType.isEphemeral]

/-- A call of `addChildNode` is right exactly if the node was created as an ephemeral
one, or its type reads as another one and its path takes children. -/
theorem childAdded_iff (htype : d.type = created) (hname : IsName name)
    (hc : s.pool.contains (childPath d.path name) = false) :
    s.ChildAdded created d.path type value (s.addChildNode d unset type name value ret ctx n) ↔
      childJustified s.session.host created unset d.path := by
  rw [addChildNode_eq, htype]
  by_cases heph : ∃ t ∈ created, t.isEphemeral = true
  · obtain ⟨t, ht, hephemeral⟩ := heph
    have hnot : ¬ ∃ t ∈ created.or unset, t.isEphemeral = false := by
      rw [Option.mem_def.mp ht, Option.some_or]
      rintro ⟨t', ht', hother⟩
      cases ht'
      rw [hephemeral] at hother
      cases hother
    rw [if_neg hnot]
    refine iff_of_true ⟨fun _ => ⟨rfl, rfl⟩, ?_⟩ (.inl ⟨t, ht, hephemeral⟩)
    intro hother
    rw [hother t ht] at hephemeral
    cases hephemeral
  · have hother : ∀ t ∈ created, t.isEphemeral = false := by
      intro t ht
      rw [← Bool.not_eq_true]
      exact fun hephemeral => heph ⟨t, ht, hephemeral⟩
    rw [childJustified, or_iff_right heph]
    have hadded : ∀ r : Returned × Manager, s.ChildAdded created d.path type value r ↔
        s.AsksForChild r.2 d.path type value := fun r =>
      ⟨fun h => h.other hother, fun h => ⟨fun hephemeral => absurd hephemeral heph, fun _ => h⟩⟩
    rw [hadded]
    split
    · next hpass => rw [createNode_asks_iff hname hc, and_iff_right hpass]
    · next hpass => exact iff_of_false not_asksForChild_self fun h => hpass h.1

end Manager

/-- In every reachable state `addChildNode` on a pooled node is right exactly if the
node was created as an ephemeral one, or its type reads as another one and its path
takes children. -/
theorem addChildNode_right_iff (hx : typed.Reachable x) (hn : x.1.pool.pooled k = some (n, d))
    (hname : IsName name) (hc : x.1.pool.contains (childPath d.path name) = false) :
    x.1.ChildAdded (x.2 n) d.path type value
        (x.1.addChildNode d unset type name value ret ctx m) ↔
      childJustified x.1.session.host (x.2 n) unset d.path :=
  Manager.childAdded_iff ((typesRecorded_of_reachable hx).live n d (Pool.pooled_eq_some.mp hn).2)
    hname hc

/-- A node `/a` whose create was answered. -/
def parentCreated : List Label :=
  sessionOpen ++
    [.call (.createNode { type := .persistentNode, path := "/a" } 0 0 0),
     .deliver { ctx := 0, op := .create, path := "/a", node := some 0 } (.create 0 (some "/a"))]

/-- It gets a child `/a/b`. -/
theorem parentCreated_right :
    (typed.execGet parentCreated (by decide)).2.1.ChildAdded
      ((typed.execGet parentCreated (by decide)).2.2 0) "/a" .ephemeralNode []
      ((typed.execGet parentCreated (by decide)).2.1.addChildNode
        { path := "/a", exists_ := true, type := some .persistentNode } none .ephemeralNode "b" []
        0 1 1) :=
  (addChildNode_right_iff (k := "/a") (n := 0)
    (d := { path := "/a", exists_ := true, type := some .persistentNode })
    (reachable_execGet parentCreated (by decide)) (by decide) (by decide) (by decide)).mpr (by decide)

/-- A node for the root, which the server says exists. -/
def rootCreated : List Label :=
  sessionOpen ++
    [.call (.createNode { type := .persistentNode, path := "/" } 0 0 0),
     .deliver { ctx := 0, op := .create, path := "/", node := some 0 } (.create (-110) none)]

/-- The child of the root is asked for under `//a`. -/
theorem rootCreated_refused :
    ¬ ∀ (x : Manager × (NodeId → Option ZooKeeperNodeType)) (k name : QString) (n m : NodeId)
      (d : ZooKeeperNode) (unset : Option ZooKeeperNodeType) (type : ZooKeeperNodeType)
      (value : QByteArray) (ret : Int) (ctx : CtxId),
      typed.Reachable x → x.1.pool.pooled k = some (n, d) → d.exists_ = true → IsName name →
      x.1.pool.contains (childPath d.path name) = false →
      x.1.ChildAdded (x.2 n) d.path type value
        (x.1.addChildNode d unset type name value ret ctx m) := by
  intro h
  have hadded := h (typed.execGet rootCreated (by decide)).2 "/" "a" 0 1
    { path := "/", exists_ := true, type := some .persistentNode } none .persistentNode [] 0 1
    (reachable_execGet rootCreated (by decide)) (by decide) rfl (by decide) (by decide)
  have hjustified := (Manager.childAdded_iff (by decide) (by decide) (by decide)).mp hadded
  exact absurd hjustified (by decide)

end QtZooKeeper
