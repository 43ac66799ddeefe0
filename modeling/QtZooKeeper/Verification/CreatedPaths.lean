-- SUMMARY: When an asynchronous and a synchronous create give a node the path the server assigned, relative to the chroot.
import QtZooKeeper.Client.Addresses
import QtZooKeeper.Client.Chroot
import QtZooKeeper.Client.Decoding
import QtZooKeeper.Verification.Creation
import QtZooKeeper.Verification.PoolSafety

/-!
# The paths of created nodes

The server answers a create with the path of the new znode, which includes the
chroot. For `createNode` the client passes this path on as it is; for
`createNodeSync` it strips the chroot and copies the rest into a buffer of 1024
bytes. Nothing is created for a host string `zookeeper_init` makes no handle of.
-/

namespace QtZooKeeper

open FallibleSystem

/-- The chroot of the handle made for a host string. -/
def hostChroot (host : QString) : Option Bytes := chrootOf (constData (toLatin1 host))

/-- The server path a path stands for. -/
def serverPath (host p : QString) : Bytes :=
  prependString (hostChroot host) (constData (toLatin1 p))

/-- The server assigns `srv` to a create of `p`: the path asked for, with something
behind it for the sequence types. The client asks for no empty path. -/
structure Assigned (host : QString) (type : ZooKeeperNodeType) (p : QString) (srv : Bytes) : Prop where
  asked : serverPath host p ≠ []
  cString : 0 ∉ srv
  path : if type.isSequence then serverPath host p <+: srv else srv = serverPath host p

instance (host : QString) (type : ZooKeeperNodeType) (p : QString) (srv : Bytes) :
    Decidable (Assigned host type p srv) :=
  decidable_of_iff (serverPath host p ≠ [] ∧ 0 ∉ srv ∧
      if type.isSequence then serverPath host p <+: srv else srv = serverPath host p)
    ⟨fun h => ⟨h.1, h.2.1, h.2.2⟩, fun h => ⟨h.asked, h.cString, h.path⟩⟩

/-- The assigned path relative to the chroot. -/
def relativePath (host : QString) (srv : Bytes) : QString := fromUtf8 (subString (hostChroot host) srv)

/-- The path `createNodeSync` finds in its buffer. -/
def syncPath (host : QString) (srv : Bytes) : QString :=
  fromUtf8 (syncString (hostChroot host) 1024 srv)

/-- What `zookeeper_init` gets from outside: the addresses of a server, which of them
it copies, the numbers of `random`, and whether it leaves the order as it is. -/
structure Resolver (α : Type) where
  getaddrinfo : Bytes → Bytes → Option (List α)
  inet : α → Bool
  random : Nat → Nat
  disableConnPermute : Bool

/-- `zookeeper_init` makes a handle of the host string. -/
def Resolver.opens {α : Type} (resolver : Resolver α) (host : QString) : Bool :=
  (connectString resolver.getaddrinfo resolver.inet resolver.random resolver.disableConnPermute
    (constData (toLatin1 host))).isSome

/-- Both creates give the node the assigned path relative to the chroot and have it in
the pool under this path; without a number this is the path asked for; and it stands
for the new znode. -/
structure CreatedAlike (host : QString) (type : ZooKeeperNodeType) (p : QString) (srv : Bytes) :
    Prop where
  async : ∀ s s' r n, system.Reachable s → s.session.host = host →
    s.pool.lookup p = some (some n) → r.path = p →
    system.enabled (.deliver r (.create 0 (some (fromUtf8 srv)))) s →
    system.step (.deliver r (.create 0 (some (fromUtf8 srv)))) s = .ok s' →
    s'.pool.lookup (relativePath host srv) = some (some n) ∧
      ∃ d, s'.pool.nodes.Live n d ∧ d.path = relativePath host srv
  sync : ∀ s a n, system.Reachable s → s.session.host = host → a.type = type → a.path = p →
    s.pool.contains p = false →
    system.enabled (.call (.createNodeSync a 0 (syncPath host srv) n)) s →
    ∃ m d, (s.createNodeSync a 0 (syncPath host srv) n).1.node = some m ∧
      (s.createNodeSync a 0 (syncPath host srv) n).2.pool.lookup (relativePath host srv) =
        some (some m) ∧
      (s.createNodeSync a 0 (syncPath host srv) n).2.pool.nodes.Live m d ∧
      d.path = relativePath host srv
  unchanged : type.isSequence = false → relativePath host srv = p
  addresses : serverPath host (relativePath host srv) = srv

/-- The creates agree for every handle of the host string. -/
def CreatesAgree {α : Type} (resolver : Resolver α) (host : QString) (type : ZooKeeperNodeType)
    (p : QString) (srv : Bytes) : Prop :=
  resolver.opens host = true → CreatedAlike host type p srv

/-- There is no chroot, the assigned path is ASCII and fits into the buffer, and it
carries a number, so that it is not the path asked for. -/
structure PlainPath (host : QString) (type : ZooKeeperNodeType) (p : QString) (srv : Bytes) :
    Prop where
  noChroot : hostChroot host = none
  ascii : ∀ b ∈ srv, b.toNat < 128
  fits : srv.length < 1024
  sequence : type.isSequence = true
  numbered : fromUtf8 srv ≠ p

instance (host : QString) (type : ZooKeeperNodeType) (p : QString) (srv : Bytes) :
    Decidable (PlainPath host type p srv) :=
  haveI := List.decidableBAll (fun b : UInt8 => b.toNat < 128) srv
  decidable_of_iff (hostChroot host = none ∧ (∀ b ∈ srv, b.toNat < 128) ∧ srv.length < 1024 ∧
      type.isSequence = true ∧ fromUtf8 srv ≠ p)
    ⟨fun h => ⟨h.1, h.2.1, h.2.2.1, h.2.2.2.1, h.2.2.2.2⟩,
      fun h => ⟨h.noChroot, h.ascii, h.fits, h.sequence, h.numbered⟩⟩

variable {host p : QString} {type : ZooKeeperNodeType} {srv root : Bytes} {s s' : Manager}
variable {r : Request} {n : NodeId} {a : Manager.CreateArgs}

/-! ## Server paths and client paths -/

theorem Assigned.ne_nil (h : Assigned host type p srv) : srv ≠ [] := by
  rintro rfl
  have hpath := h.path
  split at hpath
  · exact h.asked (List.prefix_nil.mp hpath)
  · exact h.asked hpath.symm

theorem Assigned.chroot_prefix (h : Assigned host type p srv) (hroot : hostChroot host = some root) :
    root <+: srv := by
  have hserver : root <+: serverPath host p := by
    rw [serverPath, hroot, prependString]
    split
    · exact List.prefix_rfl
    · exact List.prefix_append _ _
  have hpath := h.path
  split at hpath
  · exact hserver.trans hpath
  · rwa [hpath]

theorem subString_none : subString none srv = srv := rfl

theorem relativePath_of_noChroot (h : hostChroot host = none) : relativePath host srv = fromUtf8 srv := by
  rw [relativePath, h, subString_none]

theorem subString_some (h : root <+: srv) : subString (some root) srv =
    if srv.length = root.length then [slash] else srv.drop root.length := by
  rw [subString, if_pos h]

theorem subString_spec (hz : 0 ∉ srv) (h : root <+: srv) :
    0 ∉ subString (some root) srv ∧ subString (some root) srv ≠ [] := by
  rw [subString_some h]
  split
  · exact ⟨by decide, by decide⟩
  · next hlength =>
    refine ⟨fun hmem => hz (List.mem_of_mem_drop hmem), ?_⟩
    intro hnil
    rw [List.drop_eq_nil_iff] at hnil
    have hle := h.length_le
    omega

/-- With a chroot the path relative to it is another string. -/
theorem decode_subString_ne {host : Bytes} (hroot : chrootOf host = some root) (h : root <+: srv) :
    Utf8.decode (subString (some root) srv) ≠ Utf8.decode srv := by
  obtain ⟨rest, rfl, hrest⟩ := eq_slash_cons_of_chrootOf hroot
  obtain ⟨tail, rfl⟩ := h
  have hslash : ('/').toNat.toUInt8 = slash := rfl
  intro heq
  rw [subString_some (List.prefix_append _ _)] at heq
  split at heq
  · next hlength =>
    -- the chroot itself
    have htail : tail = [] := by simpa using hlength
    have hroot' := Utf8.decode_ascii_cons (c := '/') (by decide) rest
    have hsingle := Utf8.decode_ascii_cons (c := '/') (by decide) []
    rw [hslash] at hroot' hsingle
    rw [htail, List.append_nil, hroot', hsingle, List.cons.injEq] at heq
    exact hrest (Utf8.decode_eq_nil.mp (heq.2.symm.trans rfl))
  · -- the slashes of the chroot are missing
    rw [List.drop_left] at heq
    have hcount := congrArg (List.count '/') heq
    rw [Utf8.count_decode (by decide), Utf8.count_decode (by decide), hslash, List.count_append,
      List.count_cons_self] at hcount
    omega

theorem relativePath_ne (h : Assigned host type p srv) (hroot : hostChroot host = some root) :
    relativePath host srv ≠ fromUtf8 srv ∧ relativePath host srv ≠ "" := by
  have hprefix := h.chroot_prefix hroot
  obtain ⟨hz, hne⟩ := subString_spec h.cString hprefix
  rw [relativePath, hroot]
  refine ⟨?_, fromUtf8_ne_empty hz hne⟩
  rw [Ne, fromUtf8_inj hz h.cString]
  exact decode_subString_ne hroot hprefix

/-! ## What the creates make of the answer -/

/-- The completion of a create moves its node to the server path. -/
theorem async_moves (hs : system.Reachable s) (hk : s.pool.lookup p = some (some n)) (hr : r.path = p)
    (hp : p ≠ "") (hsrv : fromUtf8 srv ≠ "")
    (hstep : system.step (.deliver r (.create 0 (some (fromUtf8 srv)))) s = .ok s') :
    s'.pool.lookup (fromUtf8 srv) = some (some n) ∧
      ∃ d, s'.pool.nodes.Live n d ∧ d.path = fromUtf8 srv := by
  subst hr
  have hpool := step_pool (l := .deliver r (.create 0 (some (fromUtf8 srv)))) hstep
  rcases Pool.completed_of_acreateCompletion (sound_of_reachable hs) hpool with
    ⟨hempty, -⟩ | ⟨-, m, d, hm, hc⟩
  · exact absurd hempty hp
  · have hnoError : ZooKeeperError.ofInt 0 = .noError := rfl
    have hreported : Pool.reportedPath (some (fromUtf8 srv)) r.path = fromUtf8 srv := by
      rw [Pool.reportedPath, Option.getD_some, if_neg hsrv]
    obtain ⟨hmk, -⟩ := Pool.pooled_eq_some.mp hm
    cases hk.symm.trans hmk
    rw [hreported] at hc
    have hpooled := Pool.pooled_of_completed hc
    rw [hnoError, if_pos (by rfl)] at hpooled
    obtain ⟨hlook, hlive⟩ := Pool.pooled_eq_some.mp hpooled
    exact ⟨hlook, _, hlive, rfl⟩

/-- The state in which a manager for `host` has asked for the node `p`. -/
def askedFor (host : QString) (a : Manager.CreateArgs) : Manager :=
  (({ session := ({} : Session).initializeHandle host 30000 (some 0) } : Manager).createNode a 0 0 0).2

theorem initialized_reachable (host : QString) :
    system.Reachable { session := ({} : Session).initializeHandle host 30000 (some 0) } := by
  have hinit : system.Reachable system.init := ⟨[], .nil⟩
  refine hinit.step (l := .call (.initializeHandle host 30000 (some 0))) ?_ rfl
  exact ⟨rfl, rfl, by simp [Call.newNode], by simp [Call.newCtx],
    by simp [Call.newHandle, system]⟩

theorem askedFor_reachable (host : QString) (a : Manager.CreateArgs) :
    system.Reachable (askedFor host a) := by
  refine (initialized_reachable host).step (l := .call (.createNode a 0 0 0)) ?_ rfl
  refine ⟨rfl, rfl, ?_, by simp [Call.newCtx], by simp [Call.newHandle]⟩
  intro n hn
  rfl

/-- In that state the create can be completed with any name. -/
theorem askedFor_completes (host : QString) (a : Manager.CreateArgs) (name : QString) :
    ∃ r, r.path = a.path ∧ (askedFor host a).session.host = host ∧
      (askedFor host a).pool.lookup a.path = some (some 0) ∧
      system.enabled (.deliver r (.create 0 (some name))) (askedFor host a) ∧
      ∃ s', system.step (.deliver r (.create 0 (some name))) (askedFor host a) = .ok s' := by
  have hcontains : ({} : Pool).contains a.path = false := rfl
  have hlook : (askedFor host a).pool.lookup a.path = some (some 0) := by
    simp [askedFor, Manager.createNode, hcontains, Manager.poolCreated, Pool.createNode,
      Manager.submitCreate, Manager.submit]
  refine ⟨{ ctx := 0, op := .create, path := a.path, value := a.value, node := some 0 }, rfl, rfl,
    hlook, ⟨?_, rfl⟩, ?_⟩
  · exact List.mem_singleton_self _
  · exact (deliver_create_ok_iff (sound_of_reachable (askedFor_reachable host a))).mpr
      (.inr ⟨0, hlook⟩)

/-- A synchronous create hands back a node with the path from its buffer, and pools it
under this path unless it is the path asked for. -/
theorem sync_path (host : QString) (srv : Bytes) (hc : s.pool.contains a.path = false) :
    (s.createNodeSync a 0 (syncPath host srv) n).1.node = some n ∧
      (s.createNodeSync a 0 (syncPath host srv) n).2.pool.lookup (syncPath host srv) =
        (if syncPath host srv = a.path then none else some (some n)) ∧
      ∃ d, (s.createNodeSync a 0 (syncPath host srv) n).2.pool.nodes.Live n d ∧
        d.path = syncPath host srv := by
  obtain ⟨hnode, hpool⟩ := Manager.createNodeSync_accepted (syncPath host srv) n hc
  refine ⟨hnode, ?_, ?_⟩
  · rw [hpool, Pool.lookup_createNodeSync, if_pos rfl]
  · rw [hpool]
    exact ⟨_, Pool.live_createNodeSync, rfl⟩

/-- What it does in the state after `initialize`. -/
theorem CreatedAlike.sync_initialized (h : CreatedAlike host type p srv) :
    syncPath host srv = relativePath host srv ∧ relativePath host srv ≠ p := by
  let a : Manager.CreateArgs := { type := type, path := p }
  let s : Manager := { session := ({} : Session).initializeHandle host 30000 (some 0) }
  have hs : system.Reachable s := initialized_reachable host
  have he : system.enabled (.call (.createNodeSync a 0 (syncPath host srv) 0)) s := by
    refine ⟨rfl, rfl, ?_, by simp [Call.newCtx], by simp [Call.newHandle]⟩
    intro n hn
    rfl
  obtain ⟨m, d, hm, hlook, hd, hpath⟩ := h.sync s a 0 hs rfl rfl rfl rfl he
  obtain ⟨hnode, hlook', d', hd', hpath'⟩ := sync_path (n := 0) (s := s) (a := a) host srv rfl
  obtain rfl : m = 0 := by
    rw [hnode] at hm
    exact (Option.some.inj hm).symm
  have heq : syncPath host srv = relativePath host srv := by
    rw [← hpath, ← hpath', hd.unique hd']
  refine ⟨heq, fun hp => ?_⟩
  rw [← heq, hlook', if_pos (heq.trans hp)] at hlook
  cases hlook

theorem syncPath_of_noChroot (h : hostChroot host = none) :
    syncPath host srv = fromUtf8 (srv.take (min (srv.length + 1) 1024 - 1)) := by
  rw [syncPath, syncString, h, subString_none]

/-! ## When the creates agree -/

/-- With a chroot the completion of a create leaves the node with another path. -/
theorem CreatedAlike.noChroot (h : CreatedAlike host type p srv) (ha : Assigned host type p srv) :
    hostChroot host = none := by
  cases hroot : hostChroot host with
  | none => rfl
  | some root =>
    obtain ⟨hne, hempty⟩ := relativePath_ne ha hroot
    obtain ⟨r, hr, hhost, hk, he, s', hstep⟩ :=
      askedFor_completes host { type := type, path := p } (fromUtf8 srv)
    have hs := askedFor_reachable host { type := type, path := p }
    obtain ⟨hlook, -⟩ := h.async _ s' r 0 hs hhost hk hr he hstep
    have hsound := sound_of_reachable (hs.step he hstep)
    by_cases hp : p = ""
    -- without a requested path the node is left alone
    · subst hp
      have hpool := step_pool (l := .deliver r (.create 0 (some (fromUtf8 srv)))) hstep
      simp only [Label.poolOp, hr] at hpool
      have hkept := Except.pure_eq_ok.mp hpool
      rw [← hkept] at hlook hsound
      exact absurd (hsound.injective hlook hk) hempty
    · have hsrv := fromUtf8_ne_empty ha.cString ha.ne_nil
      obtain ⟨hmoved, -⟩ := async_moves hs hk hr hp hsrv hstep
      exact absurd (hsound.injective hlook hmoved) hne

/-- Later operations reach the znode only if its path is ASCII. -/
theorem CreatedAlike.ascii (h : CreatedAlike host type p srv) (ha : Assigned host type p srv) :
    ∀ b ∈ srv, b.toNat < 128 := by
  have hnone := h.noChroot ha
  have haddresses := h.addresses
  rw [serverPath, relativePath_of_noChroot hnone, hnone] at haddresses
  rw [← toLatin1_fromUtf8_iff ha.cString, ← constData_toLatin1 (noNul_fromUtf8 ha.cString)]
  exact haddresses

/-- The synchronous create truncates a path that does not fit. -/
theorem CreatedAlike.fits (h : CreatedAlike host type p srv) (ha : Assigned host type p srv) :
    srv.length < 1024 := by
  have hnone := h.noChroot ha
  have hascii := h.ascii ha
  obtain ⟨heq, -⟩ := h.sync_initialized
  have htake : ∀ k, 0 ∉ srv.take k := fun k hmem => ha.cString (List.mem_of_mem_take hmem)
  rw [syncPath_of_noChroot hnone, relativePath_of_noChroot hnone,
    fromUtf8_inj (htake _) ha.cString, Utf8.decode_of_ascii hascii,
    Utf8.decode_of_ascii fun b hb => hascii b (List.mem_of_mem_take hb)] at heq
  have hlength := congrArg List.length heq
  rw [List.length_map, List.length_map, List.length_take] at hlength
  have hpos := List.length_pos_of_ne_nil ha.ne_nil
  omega

theorem PlainPath.agree (h : PlainPath host type p srv) (ha : Assigned host type p srv) :
    CreatedAlike host type p srv := by
  have hrel : relativePath host srv = fromUtf8 srv := relativePath_of_noChroot h.noChroot
  have hsync : syncPath host srv = fromUtf8 srv := by
    have hfits := h.fits
    rw [syncPath_of_noChroot h.noChroot, List.take_of_length_le (by omega)]
  have hsrv := fromUtf8_ne_empty ha.cString ha.ne_nil
  have hp : p ≠ "" := by
    rintro rfl
    have hasked := ha.asked
    rw [serverPath, h.noChroot] at hasked
    exact hasked rfl
  refine ⟨?_, ?_, ?_, ?_⟩
  · intro s s' r n hs _ hk hr _ hstep
    rw [hrel]
    exact async_moves hs hk hr hp hsrv hstep
  · rintro s a n - - - rfl hc -
    obtain ⟨hnode, hlook, d, hd, hpath⟩ := sync_path (n := n) host srv hc
    rw [hsync, if_neg h.numbered] at hlook
    refine ⟨n, d, hnode, ?_, hd, hpath.trans (hsync.trans hrel.symm)⟩
    rw [hrel, hsync]
    exact hlook
  · intro hseq
    simp [h.sequence] at hseq
  · rw [serverPath, h.noChroot, prependString, hrel,
      constData_toLatin1 (noNul_fromUtf8 ha.cString)]
    exact (toLatin1_fromUtf8_iff ha.cString).mpr h.ascii

theorem createdAlike_iff (ha : Assigned host type p srv) :
    CreatedAlike host type p srv ↔ PlainPath host type p srv := by
  constructor
  · intro h
    have hnone := h.noChroot ha
    obtain ⟨-, hne⟩ := h.sync_initialized
    refine ⟨hnone, h.ascii ha, h.fits ha, ?_, ?_⟩
    · rw [← Bool.not_eq_false]
      exact fun hseq => hne (h.unchanged hseq)
    · rwa [← relativePath_of_noChroot hnone]
  · intro h
    exact h.agree ha

/-- Both creates give the node the path relative to the chroot and keep it in the pool
exactly if there is no handle at all, or no chroot and the path is short, ASCII and
numbered. -/
theorem creates_agree_iff {α : Type} (resolver : Resolver α) (ha : Assigned host type p srv) :
    CreatesAgree resolver host type p srv ↔
      resolver.opens host = false ∨ PlainPath host type p srv := by
  rw [CreatesAgree, createdAlike_iff ha, ← Bool.not_eq_true, imp_iff_not_or]

/-- Every server can be looked up. -/
def resolved : Resolver (Bytes × Bytes) where
  getaddrinfo server port := some [(server, port)]
  inet _ := true
  random _ := 0
  disableConnPermute := false

/-- A numbered node without a chroot. -/
theorem creates_agree_sequence :
    CreatesAgree resolved "127.0.0.1:2181" .sequenceNode "/a-" (toUtf8 "/a-0000000001") :=
  (creates_agree_iff resolved (by decide)).mpr (.inr (by decide))

/-- Below the chroot `/app` the node of `createNode` gets the path `/app/a`. -/
theorem chroot_not_agree : ¬ ∀ host type p srv, Assigned host type p srv →
    CreatesAgree resolved host type p srv := by
  intro h
  have ha : Assigned "127.0.0.1:2181/app" .persistentNode "/a" (toUtf8 "/app/a") := by decide
  have hopens : resolved.opens "127.0.0.1:2181/app" = true := by decide
  have hnone := (h _ _ _ _ ha hopens).noChroot ha
  exact absurd hnone (by decide)

end QtZooKeeper
