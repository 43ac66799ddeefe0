-- SUMMARY: The records of the generated jute code that the client reads and writes, and their round trips.
import QtZooKeeper.Client.InputArchive

/-!
# Records

Each record of the protocol is written and read field by field. Records with the
same fields share one definition. A record is read back as it was written if its
strings are there and its booleans are 0 or 1 (`Complete`). A null string is written with
the length -1 and refused by the reader. The client has such strings at most in the ACLs
that it is given.
-/

namespace QtZooKeeper

/-! ## Vectors -/

/-- A `struct X_vector`: a negative count comes without elements. -/
structure JuteVector (α : Type) where
  count : Int32
  data : List α
  length_eq : data.length = count.toInt.toNat
  deriving DecidableEq, Repr

/-- `serialize_X_vector` -/
def serializeVector {α : Type} (elem : α → List ArchiveOp) (v : JuteVector α) : List ArchiveOp :=
  .int v.count :: v.data.flatMap elem

/-- The loop of `deserialize_X_vector` over zeroed memory. The first element that is
not read is left as far as it got (`cut`), and those behind it are `null`. -/
def readElements {α : Type} (elem : IArchive α) (cut : Bytes → α) (null : α) :
    Nat → Bytes → List α × Bytes
  | 0, bs => ([], bs)
  | n + 1, bs =>
    match elem bs with
    | (.ok a, rest) =>
      (a :: (readElements elem cut null n rest).1, (readElements elem cut null n rest).2)
    | (.error _, rest) => (cut bs :: List.replicate n null, rest)

section Vectors

variable {α : Type} {elem : IArchive α} {cut : Bytes → α} {null : α} {n : Nat} {bs : Bytes}

theorem length_readElements : (readElements elem cut null n bs).1.length = n := by
  induction n generalizing bs with
  | zero => rfl
  | succ n ih =>
    rw [readElements]
    split <;> simp [ih]

/-- `deserialize_X_vector`: without a count the code goes on with an unset one; the error
of an element is overwritten by the result of `end_vector`, which is 0. -/
def deserializeVector [Host] (elem : IArchive α) (cut : Bytes → α) (null : α) :
    IArchive (JuteVector α) := fun bs =>
  match iaDeserializeInt bs with
  | (.error _, rest) => (.error .indeterminate, rest)
  | (.ok count, rest) =>
    (.ok ⟨count, (readElements elem cut null count.toInt.toNat rest).1, length_readElements⟩,
      (readElements elem cut null count.toInt.toNat rest).2)

variable {ser : α → List ArchiveOp}

theorem readElements_decodes {data : List α} (rest : Bytes)
    (h : ∀ a ∈ data, elem.Decodes (wire (ser a)) a) :
    readElements elem cut null data.length (wire (data.flatMap ser) ++ rest) = (data, rest) := by
  induction data with
  | nil => rfl
  | cons a data ih =>
    have ha := h a List.mem_cons_self
    have hdata := ih fun a ha => h a (List.mem_cons_of_mem _ ha)
    rw [List.length_cons, List.flatMap_cons, wire_append, List.append_assoc, readElements, ha]
    simp only [hdata]

theorem decodes_vector [Host] {v : JuteVector α} (h : ∀ a ∈ v.data, elem.Decodes (wire (ser a)) a) :
    (deserializeVector elem cut null).Decodes (wire (serializeVector ser v)) v := by
  intro rest
  obtain ⟨count, data, hlen⟩ := v
  rw [serializeVector, wire_cons, List.append_assoc, deserializeVector, ArchiveOp.wire, decodes_int]
  simp only [← hlen, readElements_decodes rest h]

/-- A vector that is cut inside an element is accepted. The elements before the cut are
right, and those behind it are null. -/
theorem deserializeVector_of_cut [Host] (hstable : elem.Stable) {count : Int32} {pre post : List α}
    {a : α} {part missing : Bytes} (hcount : count.toInt.toNat = pre.length + (post.length + 1))
    (hpre : ∀ a ∈ pre, elem.Decodes (wire (ser a)) a)
    (ha : elem.Decodes (part ++ missing) a) (hcut : missing ≠ []) :
    ∃ v, (deserializeVector elem cut null
        (intWire count ++ (wire (pre.flatMap ser) ++ part))).1 = .ok v ∧
      v.count = count ∧ v.data = pre ++ cut part :: List.replicate post.length null := by
  have hread : (readElements elem cut null count.toInt.toNat (wire (pre.flatMap ser) ++ part)).1 =
      pre ++ cut part :: List.replicate post.length null := by
    rw [hcount]
    clear hcount
    induction pre with
    | nil =>
      obtain ⟨e, he⟩ := hstable.refuses ha hcut
      rw [List.length_nil, Nat.zero_add, List.flatMap_nil, wire_nil, List.nil_append, readElements]
      split
      · next h => rw [h] at he; cases he
      · rfl
    | cons b pre ih =>
      have hb := hpre b List.mem_cons_self
      have ih := ih fun a ha => hpre a (List.mem_cons_of_mem _ ha)
      rw [List.length_cons, Nat.add_right_comm, List.flatMap_cons, wire_append, List.append_assoc,
        readElements, hb]
      simp only [ih, List.cons_append]
  refine ⟨⟨count, _, length_readElements⟩, ?_, rfl, hread⟩
  rw [deserializeVector, decodes_int]

end Vectors

/-! ## Records of one shape -/

/-- A path: `SyncRequest`, `GetACLRequest`, `CreateResponse`. -/
structure PathRecord where
  path : CharPtr
  deriving DecidableEq, Repr

/-- A path and whether to watch it: `GetDataRequest`, `ExistsRequest`,
`GetChildrenRequest`, `GetChildren2Request`. -/
structure PathWatchRecord where
  path : CharPtr
  watch : Int32
  deriving DecidableEq, Repr

/-- A path and a version: `DeleteRequest`, `CheckVersionRequest`. -/
structure PathVersionRecord where
  path : CharPtr
  version : Int32
  deriving DecidableEq, Repr

abbrev SyncRequest := PathRecord
abbrev GetACLRequest := PathRecord
abbrev CreateResponse := PathRecord
abbrev GetDataRequest := PathWatchRecord
abbrev ExistsRequest := PathWatchRecord
abbrev GetChildrenRequest := PathWatchRecord
abbrev GetChildren2Request := PathWatchRecord
abbrev DeleteRequest := PathVersionRecord
abbrev CheckVersionRequest := PathVersionRecord

def serializePath (v : PathRecord) : List ArchiveOp := [.string v.path]

def serializePathWatch (v : PathWatchRecord) : List ArchiveOp := [.string v.path, .bool v.watch]

def serializePathVersion (v : PathVersionRecord) : List ArchiveOp :=
  [.string v.path, .int v.version]

def deserializePath [Host] : IArchive PathRecord := do
  let path ← iaDeserializeString
  return { path }

def deserializePathWatch [Host] : IArchive PathWatchRecord := do
  let path ← iaDeserializeString
  let watch ← iaDeserializeBool
  return { path, watch }

def deserializePathVersion [Host] : IArchive PathVersionRecord := do
  let path ← iaDeserializeString
  let version ← iaDeserializeInt
  return { path, version }

def serializeSyncRequest (v : SyncRequest) : List ArchiveOp := serializePath v
def serializeGetACLRequest (v : GetACLRequest) : List ArchiveOp := serializePath v
def serializeCreateResponse (v : CreateResponse) : List ArchiveOp := serializePath v
def serializeGetDataRequest (v : GetDataRequest) : List ArchiveOp := serializePathWatch v
def serializeExistsRequest (v : ExistsRequest) : List ArchiveOp := serializePathWatch v
def serializeGetChildrenRequest (v : GetChildrenRequest) : List ArchiveOp := serializePathWatch v
def serializeGetChildren2Request (v : GetChildren2Request) : List ArchiveOp := serializePathWatch v
def serializeDeleteRequest (v : DeleteRequest) : List ArchiveOp := serializePathVersion v
def serializeCheckVersionRequest (v : CheckVersionRequest) : List ArchiveOp := serializePathVersion v

def deserializeSyncRequest [Host] : IArchive SyncRequest := deserializePath
def deserializeGetACLRequest [Host] : IArchive GetACLRequest := deserializePath
def deserializeCreateResponse [Host] : IArchive CreateResponse := deserializePath
def deserializeGetDataRequest [Host] : IArchive GetDataRequest := deserializePathWatch
def deserializeExistsRequest [Host] : IArchive ExistsRequest := deserializePathWatch
def deserializeGetChildrenRequest [Host] : IArchive GetChildrenRequest := deserializePathWatch
def deserializeGetChildren2Request [Host] : IArchive GetChildren2Request := deserializePathWatch
def deserializeDeleteRequest [Host] : IArchive DeleteRequest := deserializePathVersion
def deserializeCheckVersionRequest [Host] : IArchive CheckVersionRequest := deserializePathVersion

/-! ## Records of requests and answers -/

/-- `struct Id` -/
structure Id where
  scheme : CharPtr
  id : CharPtr
  deriving DecidableEq, Repr

/-- `struct ACL` -/
structure ACL where
  perms : Int32
  id : Id
  deriving DecidableEq, Repr

/-- `struct Stat` -/
structure Stat where
  czxid : Int64
  mzxid : Int64
  ctime : Int64
  mtime : Int64
  version : Int32
  cversion : Int32
  aversion : Int32
  ephemeralOwner : Int64
  dataLength : Int32
  numChildren : Int32
  pzxid : Int64
  deriving DecidableEq, Repr

abbrev StringVector := JuteVector CharPtr

abbrev AclVector := JuteVector ACL

/-- `struct RequestHeader` -/
structure RequestHeader where
  xid : Int32
  type : Int32
  deriving DecidableEq, Repr

/-- `struct ReplyHeader` -/
structure ReplyHeader where
  xid : Int32
  zxid : Int64
  err : Int32
  deriving DecidableEq, Repr

/-- `struct MultiHeader` -/
structure MultiHeader where
  type : Int32
  done : Int32
  err : Int32
  deriving DecidableEq, Repr

/-- `struct AuthPacket` -/
structure AuthPacket where
  type : Int32
  scheme : CharPtr
  auth : Buffer
  deriving DecidableEq, Repr

/-- `struct SetWatches` -/
structure SetWatches where
  relativeZxid : Int64
  dataWatches : StringVector
  existWatches : StringVector
  childWatches : StringVector
  deriving DecidableEq, Repr

/-- `struct SetDataRequest` -/
structure SetDataRequest where
  path : CharPtr
  data : Buffer
  version : Int32
  deriving DecidableEq, Repr

/-- `struct CreateRequest` -/
structure CreateRequest where
  path : CharPtr
  data : Buffer
  acl : AclVector
  flags : Int32
  deriving DecidableEq, Repr

/-- `struct SetACLRequest` -/
structure SetACLRequest where
  path : CharPtr
  acl : AclVector
  version : Int32
  deriving DecidableEq, Repr

/-- `struct WatcherEvent` -/
structure WatcherEvent where
  type : Int32
  state : Int32
  path : CharPtr
  deriving DecidableEq, Repr

/-- `struct ErrorResponse` -/
structure ErrorResponse where
  err : Int32
  deriving DecidableEq, Repr

/-- `struct GetDataResponse` -/
structure GetDataResponse where
  data : Buffer
  stat : Stat
  deriving DecidableEq, Repr

/-- `struct GetChildrenResponse` -/
structure GetChildrenResponse where
  children : StringVector
  deriving DecidableEq, Repr

/-- `struct GetChildren2Response` -/
structure GetChildren2Response where
  children : StringVector
  stat : Stat
  deriving DecidableEq, Repr

/-- `struct GetACLResponse` -/
structure GetACLResponse where
  acl : AclVector
  stat : Stat
  deriving DecidableEq, Repr

/-! ## Writing -/

def serializeId (v : Id) : List ArchiveOp := [.string v.scheme, .string v.id]

def serializeACL (v : ACL) : List ArchiveOp := .int v.perms :: serializeId v.id

def serializeStat (v : Stat) : List ArchiveOp :=
  [.long v.czxid, .long v.mzxid, .long v.ctime, .long v.mtime, .int v.version, .int v.cversion,
    .int v.aversion, .long v.ephemeralOwner, .int v.dataLength, .int v.numChildren, .long v.pzxid]

def serializeStringVector (v : StringVector) : List ArchiveOp := serializeVector (fun s => [.string s]) v

def serializeAclVector (v : AclVector) : List ArchiveOp := serializeVector serializeACL v

def serializeRequestHeader (v : RequestHeader) : List ArchiveOp := [.int v.xid, .int v.type]

def serializeReplyHeader (v : ReplyHeader) : List ArchiveOp := [.int v.xid, .long v.zxid, .int v.err]

def serializeMultiHeader (v : MultiHeader) : List ArchiveOp := [.int v.type, .bool v.done, .int v.err]

def serializeAuthPacket (v : AuthPacket) : List ArchiveOp :=
  [.int v.type, .string v.scheme, .buffer v.auth]

def serializeSetWatches (v : SetWatches) : List ArchiveOp :=
  .long v.relativeZxid :: (serializeStringVector v.dataWatches ++
    (serializeStringVector v.existWatches ++ serializeStringVector v.childWatches))

def serializeSetDataRequest (v : SetDataRequest) : List ArchiveOp :=
  [.string v.path, .buffer v.data, .int v.version]

def serializeCreateRequest (v : CreateRequest) : List ArchiveOp :=
  .string v.path :: .buffer v.data :: (serializeAclVector v.acl ++ [.int v.flags])

def serializeSetACLRequest (v : SetACLRequest) : List ArchiveOp :=
  .string v.path :: (serializeAclVector v.acl ++ [.int v.version])

def serializeWatcherEvent (v : WatcherEvent) : List ArchiveOp :=
  [.int v.type, .int v.state, .string v.path]

def serializeErrorResponse (v : ErrorResponse) : List ArchiveOp := [.int v.err]

/-- `serialize_SetDataResponse`, whose only field is a `Stat`, as that of `ExistsResponse`
and `SetACLResponse` is. -/
def serializeSetDataResponse (v : Stat) : List ArchiveOp := serializeStat v

def serializeGetDataResponse (v : GetDataResponse) : List ArchiveOp :=
  .buffer v.data :: serializeStat v.stat

def serializeGetChildrenResponse (v : GetChildrenResponse) : List ArchiveOp :=
  serializeStringVector v.children

def serializeGetChildren2Response (v : GetChildren2Response) : List ArchiveOp :=
  serializeStringVector v.children ++ serializeStat v.stat

def serializeGetACLResponse (v : GetACLResponse) : List ArchiveOp :=
  serializeAclVector v.acl ++ serializeStat v.stat

/-! ## Reading -/

section Reading

variable [Host]

def deserializeId : IArchive Id := do
  let scheme ← iaDeserializeString
  let id ← iaDeserializeString
  return { scheme, id }

def deserializeACL : IArchive ACL := do
  let perms ← iaDeserializeInt
  let id ← deserializeId
  return { perms, id }

def deserializeStat : IArchive Stat := do
  let czxid ← iaDeserializeLong
  let mzxid ← iaDeserializeLong
  let ctime ← iaDeserializeLong
  let mtime ← iaDeserializeLong
  let version ← iaDeserializeInt
  let cversion ← iaDeserializeInt
  let aversion ← iaDeserializeInt
  let ephemeralOwner ← iaDeserializeLong
  let dataLength ← iaDeserializeInt
  let numChildren ← iaDeserializeInt
  let pzxid ← iaDeserializeLong
  return ⟨czxid, mzxid, ctime, mtime, version, cversion, aversion, ephemeralOwner, dataLength,
    numChildren, pzxid⟩

/-- An `ACL` nobody wrote to. -/
def ACL.null : ACL := ⟨0, none, none⟩

/-- What `deserialize_ACL` leaves of an element that it does not finish. -/
def cutACL (bs : Bytes) : ACL :=
  match iaDeserializeInt bs with
  | (.error _, _) => .null
  | (.ok perms, rest) =>
    match iaDeserializeString rest with
    | (.error _, _) => ⟨perms, none, none⟩
    | (.ok scheme, _) => ⟨perms, scheme, none⟩

def deserializeStringVector : IArchive StringVector :=
  deserializeVector iaDeserializeString (fun _ => none) none

def deserializeAclVector : IArchive AclVector := deserializeVector deserializeACL cutACL .null

def deserializeRequestHeader : IArchive RequestHeader := do
  let xid ← iaDeserializeInt
  let type ← iaDeserializeInt
  return { xid, type }

def deserializeReplyHeader : IArchive ReplyHeader := do
  let xid ← iaDeserializeInt
  let zxid ← iaDeserializeLong
  let err ← iaDeserializeInt
  return { xid, zxid, err }

def deserializeMultiHeader : IArchive MultiHeader := do
  let type ← iaDeserializeInt
  let done ← iaDeserializeBool
  let err ← iaDeserializeInt
  return { type, done, err }

def deserializeAuthPacket : IArchive AuthPacket := do
  let type ← iaDeserializeInt
  let scheme ← iaDeserializeString
  let auth ← iaDeserializeBuffer
  return { type, scheme, auth }

def deserializeSetWatches : IArchive SetWatches := do
  let relativeZxid ← iaDeserializeLong
  let dataWatches ← deserializeStringVector
  let existWatches ← deserializeStringVector
  let childWatches ← deserializeStringVector
  return { relativeZxid, dataWatches, existWatches, childWatches }

def deserializeSetDataRequest : IArchive SetDataRequest := do
  let path ← iaDeserializeString
  let data ← iaDeserializeBuffer
  let version ← iaDeserializeInt
  return { path, data, version }

def deserializeCreateRequest : IArchive CreateRequest := do
  let path ← iaDeserializeString
  let data ← iaDeserializeBuffer
  let acl ← deserializeAclVector
  let flags ← iaDeserializeInt
  return { path, data, acl, flags }

def deserializeSetACLRequest : IArchive SetACLRequest := do
  let path ← iaDeserializeString
  let acl ← deserializeAclVector
  let version ← iaDeserializeInt
  return { path, acl, version }

def deserializeWatcherEvent : IArchive WatcherEvent := do
  let type ← iaDeserializeInt
  let state ← iaDeserializeInt
  let path ← iaDeserializeString
  return { type, state, path }

def deserializeErrorResponse : IArchive ErrorResponse := do
  let err ← iaDeserializeInt
  return { err }

/-- `deserialize_SetDataResponse` -/
def deserializeSetDataResponse : IArchive Stat := deserializeStat

def deserializeGetDataResponse : IArchive GetDataResponse := do
  let data ← iaDeserializeBuffer
  let stat ← deserializeStat
  return { data, stat }

def deserializeGetChildrenResponse : IArchive GetChildrenResponse := do
  let children ← deserializeStringVector
  return { children }

def deserializeGetChildren2Response : IArchive GetChildren2Response := do
  let children ← deserializeStringVector
  let stat ← deserializeStat
  return { children, stat }

def deserializeGetACLResponse : IArchive GetACLResponse := do
  let acl ← deserializeAclVector
  let stat ← deserializeStat
  return { acl, stat }

end Reading

/-! ## Complete records -/

/-- The path is there. -/
def PathRecord.Complete (v : PathRecord) : Prop := v.path.isSome

/-- The path is there, and the flag is 0 or 1. -/
def PathWatchRecord.Complete (v : PathWatchRecord) : Prop :=
  v.path.isSome ∧ (v.watch = 0 ∨ v.watch = 1)

def PathVersionRecord.Complete (v : PathVersionRecord) : Prop := v.path.isSome

def Id.Complete (v : Id) : Prop := v.scheme.isSome ∧ v.id.isSome

def StringVector.Complete (v : StringVector) : Prop := ∀ s ∈ v.data, s.isSome

def AclVector.Complete (v : AclVector) : Prop := ∀ a ∈ v.data, a.id.Complete

def MultiHeader.Complete (v : MultiHeader) : Prop := v.done = 0 ∨ v.done = 1

def AuthPacket.Complete (v : AuthPacket) : Prop := v.scheme.isSome

def SetWatches.Complete (v : SetWatches) : Prop :=
  StringVector.Complete v.dataWatches ∧ StringVector.Complete v.existWatches ∧
    StringVector.Complete v.childWatches

def SetDataRequest.Complete (v : SetDataRequest) : Prop := v.path.isSome

def CreateRequest.Complete (v : CreateRequest) : Prop := v.path.isSome ∧ AclVector.Complete v.acl

def SetACLRequest.Complete (v : SetACLRequest) : Prop := v.path.isSome ∧ AclVector.Complete v.acl

def WatcherEvent.Complete (v : WatcherEvent) : Prop := v.path.isSome

/-! ## Round trips -/

section RoundTrips

variable [Host]

/-- A string that is there is read back. -/
theorem decodes_charPtr {s : CharPtr} (h : s.isSome) :
    iaDeserializeString.Decodes (ArchiveOp.string s).wire s := by
  obtain ⟨s, rfl⟩ := Option.isSome_iff_exists.mp h
  exact decodes_string

theorem decodes_path {v : PathRecord} (h : v.Complete) :
    deserializePath.Decodes (wire (serializePath v)) v :=
  (decodes_charPtr h).bind Reader.decodes_pure

theorem decodes_pathWatch {v : PathWatchRecord} (h : v.Complete) :
    deserializePathWatch.Decodes (wire (serializePathWatch v)) v :=
  (decodes_charPtr h.1).bind ((decodes_bool h.2).bind Reader.decodes_pure)

theorem decodes_pathVersion {v : PathVersionRecord} (h : v.Complete) :
    deserializePathVersion.Decodes (wire (serializePathVersion v)) v :=
  (decodes_charPtr h).bind (decodes_int.bind Reader.decodes_pure)

theorem decodes_id {v : Id} (h : v.Complete) : deserializeId.Decodes (wire (serializeId v)) v :=
  (decodes_charPtr h.1).bind ((decodes_charPtr h.2).bind Reader.decodes_pure)

theorem decodes_acl {v : ACL} (h : v.id.Complete) :
    deserializeACL.Decodes (wire (serializeACL v)) v :=
  decodes_int.bind (decodes_id h).bind_pure

theorem decodes_stat {v : Stat} : deserializeStat.Decodes (wire (serializeStat v)) v :=
  decodes_long.bind (decodes_long.bind (decodes_long.bind (decodes_long.bind (decodes_int.bind
    (decodes_int.bind (decodes_int.bind (decodes_long.bind (decodes_int.bind (decodes_int.bind
      (decodes_long.bind Reader.decodes_pure))))))))))

theorem decodes_stringVector {v : StringVector} (h : v.Complete) :
    deserializeStringVector.Decodes (wire (serializeStringVector v)) v :=
  decodes_vector fun s hs => by simpa using decodes_charPtr (h s hs)

theorem decodes_aclVector {v : AclVector} (h : v.Complete) :
    deserializeAclVector.Decodes (wire (serializeAclVector v)) v :=
  decodes_vector fun a ha => decodes_acl (h a ha)

theorem decodes_requestHeader {v : RequestHeader} :
    deserializeRequestHeader.Decodes (wire (serializeRequestHeader v)) v :=
  decodes_int.bind (decodes_int.bind Reader.decodes_pure)

theorem decodes_replyHeader {v : ReplyHeader} :
    deserializeReplyHeader.Decodes (wire (serializeReplyHeader v)) v :=
  decodes_int.bind (decodes_long.bind (decodes_int.bind Reader.decodes_pure))

theorem decodes_multiHeader {v : MultiHeader} (h : v.Complete) :
    deserializeMultiHeader.Decodes (wire (serializeMultiHeader v)) v :=
  decodes_int.bind ((decodes_bool h).bind (decodes_int.bind Reader.decodes_pure))

theorem decodes_authPacket {v : AuthPacket} (h : v.Complete) :
    deserializeAuthPacket.Decodes (wire (serializeAuthPacket v)) v :=
  decodes_int.bind ((decodes_charPtr h).bind (decodes_buffer.bind Reader.decodes_pure))

theorem decodes_setWatches {v : SetWatches} (h : v.Complete) :
    deserializeSetWatches.Decodes (wire (serializeSetWatches v)) v := by
  rw [serializeSetWatches, wire_cons, wire_append, wire_append]
  exact decodes_long.bind ((decodes_stringVector h.1).bind ((decodes_stringVector h.2.1).bind
    (decodes_stringVector h.2.2).bind_pure))

theorem decodes_setDataRequest {v : SetDataRequest} (h : v.Complete) :
    deserializeSetDataRequest.Decodes (wire (serializeSetDataRequest v)) v :=
  (decodes_charPtr h).bind (decodes_buffer.bind (decodes_int.bind Reader.decodes_pure))

theorem decodes_createRequest {v : CreateRequest} (h : v.Complete) :
    deserializeCreateRequest.Decodes (wire (serializeCreateRequest v)) v := by
  rw [serializeCreateRequest, wire_cons, wire_cons, wire_append]
  exact (decodes_charPtr h.1).bind (decodes_buffer.bind ((decodes_aclVector h.2).bind
    (decodes_int.bind Reader.decodes_pure)))

theorem decodes_setACLRequest {v : SetACLRequest} (h : v.Complete) :
    deserializeSetACLRequest.Decodes (wire (serializeSetACLRequest v)) v := by
  rw [serializeSetACLRequest, wire_cons, wire_append]
  exact (decodes_charPtr h.1).bind ((decodes_aclVector h.2).bind
    (decodes_int.bind Reader.decodes_pure))

theorem decodes_watcherEvent {v : WatcherEvent} (h : v.Complete) :
    deserializeWatcherEvent.Decodes (wire (serializeWatcherEvent v)) v :=
  decodes_int.bind (decodes_int.bind ((decodes_charPtr h).bind Reader.decodes_pure))

theorem decodes_errorResponse {v : ErrorResponse} :
    deserializeErrorResponse.Decodes (wire (serializeErrorResponse v)) v :=
  decodes_int.bind Reader.decodes_pure

theorem decodes_getDataResponse {v : GetDataResponse} :
    deserializeGetDataResponse.Decodes (wire (serializeGetDataResponse v)) v :=
  decodes_buffer.bind decodes_stat.bind_pure

theorem decodes_getChildrenResponse {v : GetChildrenResponse} (h : StringVector.Complete v.children) :
    deserializeGetChildrenResponse.Decodes (wire (serializeGetChildrenResponse v)) v :=
  (decodes_stringVector h).bind_pure

theorem decodes_getChildren2Response {v : GetChildren2Response} (h : StringVector.Complete v.children) :
    deserializeGetChildren2Response.Decodes (wire (serializeGetChildren2Response v)) v := by
  rw [serializeGetChildren2Response, wire_append]
  exact (decodes_stringVector h).bind decodes_stat.bind_pure

theorem decodes_getACLResponse {v : GetACLResponse} (h : AclVector.Complete v.acl) :
    deserializeGetACLResponse.Decodes (wire (serializeGetACLResponse v)) v := by
  rw [serializeGetACLResponse, wire_append]
  exact (decodes_aclVector h).bind decodes_stat.bind_pure

end RoundTrips

/-! ## Records without vectors notice that they were cut short -/

section Stability

variable [Host]

theorem stable_path : deserializePath.Stable := stable_string.bind fun _ => Reader.stable_pure

theorem stable_stat : deserializeStat.Stable :=
  stable_long.bind fun _ => stable_long.bind fun _ => stable_long.bind fun _ =>
    stable_long.bind fun _ => stable_int.bind fun _ => stable_int.bind fun _ =>
      stable_int.bind fun _ => stable_long.bind fun _ => stable_int.bind fun _ =>
        stable_int.bind fun _ => stable_long.bind fun _ => Reader.stable_pure

theorem stable_replyHeader : deserializeReplyHeader.Stable :=
  stable_int.bind fun _ => stable_long.bind fun _ => stable_int.bind fun _ => Reader.stable_pure

theorem stable_errorResponse : deserializeErrorResponse.Stable :=
  stable_int.bind fun _ => Reader.stable_pure

theorem stable_getDataResponse : deserializeGetDataResponse.Stable :=
  stable_buffer.bind fun _ => stable_stat.bind fun _ => Reader.stable_pure

end Stability

end QtZooKeeper
