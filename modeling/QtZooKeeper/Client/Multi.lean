-- SUMMARY: Several operations in one request: how they are packed, and how their results are told apart again.
import QtZooKeeper.Client.Handle
import QtZooKeeper.Client.Paths

/-!
# Multi operations

`zoo_amulti` puts several operations into one packet, each behind a header of its own, and
keeps a list of completions, one for each of them. The answer has a result for each behind
such a header again. `deserialize_multi` goes through both in step. It looks only at the
headers, not at the error of the answer as a whole, and not at what its readers return.
The paths of created nodes are given as the server has them.
-/

namespace QtZooKeeper

/-! ## Data -/

/-- `zoo_op_t`. The buffer for the path of a created node is there with its size, or not. -/
inductive ZooOp where
  | createOp (path : CStr) (data : Buffer) (acl : AclVector) (flags : Int32) (buf : Option Int32)
  | deleteOp (path : CStr) (version : Int32)
  | setDataOp (path : CStr) (data : Buffer) (version : Int32) (stat : Bool)
  | checkOp (path : CStr) (version : Int32)
  /-- A type that is no operation of a multi. -/
  | unlisted (type : Int32)
  deriving DecidableEq, Repr

/-- The record of an operation in the packet. -/
inductive SubRequest where
  | createOp (req : CreateRequest)
  | deleteOp (req : DeleteRequest)
  | setDataOp (req : SetDataRequest)
  | checkOp (req : CheckVersionRequest)
  deriving DecidableEq, Repr

/-- What `value` of a `zoo_op_result_t` points to: a C string, or a buffer of no size. -/
inductive ResultValue where
  | null
  | untouched
  | text (value : Bytes)
  deriving DecidableEq, Repr

/-- `zoo_op_result_t`, as far as the completion of the operation writes it. -/
inductive ZooOpResult where
  | string (err : Int32) (value : ResultValue)
  | void (err : Int32)
  | stat (err : Int32) (stat : Option Stat)
  deriving DecidableEq, Repr

/-- The completion of an operation, with what its result points to: a buffer for a path, or
whether there is a `struct Stat`. -/
inductive OpEntry where
  | string (buf : Option Int32)
  | void
  | stat (wanted : Bool)
  deriving DecidableEq, Repr

namespace SubRequest

/-- The codes of `proto.h`. -/
def type : SubRequest → Int32
  | createOp _ => 1
  | deleteOp _ => 2
  | setDataOp _ => 5
  | checkOp _ => 13

/-- The record behind its header. -/
def serialize : SubRequest → List ArchiveOp
  | createOp req => serializeMultiHeader ⟨1, 0, -1⟩ ++ serializeCreateRequest req
  | deleteOp req => serializeMultiHeader ⟨2, 0, -1⟩ ++ serializeDeleteRequest req
  | setDataOp req => serializeMultiHeader ⟨5, 0, -1⟩ ++ serializeSetDataRequest req
  | checkOp req => serializeMultiHeader ⟨13, 0, -1⟩ ++ serializeCheckVersionRequest req

/-- All strings are there. -/
def Complete : SubRequest → Prop
  | createOp req => req.Complete
  | deleteOp req => req.Complete
  | setDataOp req => req.Complete
  | checkOp req => req.Complete

end SubRequest

namespace ZooOp

/-- The path and the flags it is checked with. -/
def target : ZooOp → Option (CStr × Nat)
  | createOp path _ _ flags _ => some (path, flags.toUInt32.toNat)
  | deleteOp path _ | setDataOp path _ _ _ | checkOp path _ => some (path, 0)
  | unlisted _ => none

/-- The record of the operation, on the server path. -/
def record (path : CharPtr) : ZooOp → Option SubRequest
  | createOp _ data acl flags _ => some (.createOp { path, data, acl, flags })
  | deleteOp _ version => some (.deleteOp { path, version })
  | setDataOp _ data version _ => some (.setDataOp { path, data, version })
  | checkOp _ version => some (.checkOp { path, version })
  | unlisted _ => none

/-- The completion of the operation. -/
def entry : ZooOp → OpEntry
  | createOp _ _ _ _ buf => .string buf
  | deleteOp _ _ | checkOp _ _ | unlisted _ => .void
  | setDataOp _ _ _ stat => .stat stat

end ZooOp

/-! ## Requests -/

namespace Client

/-- `Request_path_init` -/
def requestPathInit (zh : Zhandle) (flags : Nat) (path : CStr) : ZooKeeperError × Bytes :=
  let pathOut := prependString zh.chroot path.bytes
  if isValidPath pathOut flags = false then (.badArguments, pathOut)
  else if zh.isUnrecoverable then (.invliadState, pathOut)
  else (.noError, pathOut)

/-- The loop of `zoo_amulti`: what is written, and the completions. -/
def serializeOps (zh : Zhandle) (rc : ZooKeeperError) :
    List ZooOp → Except HandleFault (ZooKeeperError × List SubRequest × List OpEntry)
  | [] => return (rc, [], [])
  | op :: ops =>
    match op.target with
    | none => return (.unimplemented, [], [])
    | some (path, flags) =>
      -- `req.path` has not been set, and is released
      if rc ≠ .noError then throw .indeterminate
      else
        match requestPathInit zh flags path with
        | (.noError, pathOut) => do
          let (rc, reqs, clist) ← serializeOps zh .noError ops
          return (rc, (op.record (charPtr pathOut)).toList ++ reqs, op.entry :: clist)
        | (rc, _) =>
          -- `req.path` has been released where it was refused
          if zh.chroot.isSome then throw .freedTwice
          else do
            let (rc, reqs, clist) ← serializeOps zh rc ops
            return (rc, reqs, op.entry :: clist)

/-- The packet of a multi. -/
def multiPacket (xid : Int32) (reqs : List SubRequest) : List ArchiveOp :=
  serializeRequestHeader ⟨xid, 14⟩ ++ (reqs.flatMap SubRequest.serialize ++
    serializeMultiHeader ⟨-1, 1, -1⟩)

/-- `zoo_amulti`: the return value, and what is queued. -/
def zooAmulti [Host] (zh : Zhandle) (xid : Int32) (ops : List ZooOp) :
    Except HandleFault (ZooKeeperError × Option (Bytes × List OpEntry)) := do
  let (rc, reqs, clist) ← serializeOps zh .noError ops
  if rc = .unimplemented then return (.unimplemented, none)
  else if rc ≠ .noError then return (.marshallingError, none)
  else
    let packet ← packetBytes (multiPacket xid reqs)
    if zh.closeRequested then return (.marshallingError, none)
    else return (.noError, some (packet, clist))

/-! ## Answers -/

/-- `op_result_string_completion`, for a result with a buffer -/
def opResultString (buf : Option Int32) (value : CharPtr) : ResultValue :=
  match buf, value with
  | some valuelen, some value =>
    let len := min (value.bytes.length + 1 : Int) valuelen.toInt
    if 0 < len then .text (value.bytes.take (len - 1).toNat) else .untouched
  | _, _ => .null

/-- `op_result_stat_completion` -/
def opResultStat (wanted : Bool) (err : Int32) (stat : Option Stat) : Option Stat :=
  if wanted ∧ err = 0 then stat else none

end Client

namespace OpEntry

/-- The type of the completion. -/
def type : OpEntry → CompletionType
  | string _ => .string
  | void => .void
  | stat _ => .stat

/-- The functions `op_result_*_completion`. -/
def complete (r : Response) : OpEntry → ZooOpResult
  | string buf =>
    .string r.rc (Client.opResultString buf (match r.res with | some (.string res) => res.path | _ => none))
  | void => .void r.rc
  | stat wanted =>
    .stat r.rc (Client.opResultStat wanted r.rc (match r.res with | some (.stat res) => some res | _ => none))

end OpEntry

namespace Client

/-- `deserialize_MultiHeader` into a header that keeps what is not read. -/
def readMultiHeader [Host] (mhdr : MultiHeader) (bs : Bytes) : MultiHeader × Bytes :=
  match iaDeserializeInt bs with
  | (.error _, bs) => (mhdr, bs)
  | (.ok type, bs) =>
    match iaDeserializeBool bs with
    | (.error _, bs) => ({ mhdr with type }, bs)
    | (.ok done, bs) =>
      match iaDeserializeInt bs with
      | (.error _, bs) => ({ mhdr with type, done }, bs)
      | (.ok err, bs) => ({ type, done, err }, bs)

/-- What `deserialize_multi` makes of the header of an error, and of its own `rc`. -/
def readError [Host] (mhdr : MultiHeader) (rc : Int32) (bs : Bytes) :
    Except HandleFault (MultiHeader × Int32 × Bytes) :=
  if mhdr.type = -1 then do
    let (er, bs) ← readFields (deserializeErrorResponse bs)
    return ({ mhdr with err := er.err },
      if rc = 0 ∧ er.err ≠ 0 ∧ er.err ≠ -2 then er.err else rc, bs)
  else return (mhdr, rc, bs)

/-- `deserialize_response` for the completion of an operation. A stat that was not read does
no harm where the completion does not copy it. -/
def deserializeOpResponse [Host] (mhdr : MultiHeader) (bs : Bytes) (entry : OpEntry) :
    Except HandleFault (ZooOpResult × Bytes) :=
  match deserializeResponse entry.type (mhdr.type == -1) mhdr.err bs with
  | (.ok r, bs) => return (entry.complete r, bs)
  | (.error _, bs) =>
    match entry with
    | .stat wanted =>
      if wanted ∧ mhdr.err = 0 then throw .indeterminate else return (.stat mhdr.err none, bs)
    | _ => throw .indeterminate

/-- The loop of `deserialize_multi`, behind the header `mhdr`. -/
def deserializeMultiLoop [Host] (mhdr : MultiHeader) (rc : Int32) (bs : Bytes) (clist : List OpEntry) :
    Except HandleFault (Int32 × List ZooOpResult) :=
  if mhdr.done ≠ 0 then return (rc, [])
  else
    match clist with
    | [] => throw .assertion
    | entry :: clist => do
      let (mhdr, rc, bs) ← readError mhdr rc bs
      let (result, bs) ← deserializeOpResponse mhdr bs entry
      let (mhdr, bs) := readMultiHeader mhdr bs
      let (rc, results) ← deserializeMultiLoop mhdr rc bs clist
      return (rc, result :: results)

/-- `deserialize_multi`: the return value, and the results of the operations. -/
def deserializeMulti [Host] (bs : Bytes) (clist : List OpEntry) :
    Except HandleFault (Int32 × List ZooOpResult) :=
  let (mhdr, bs) := readMultiHeader ⟨0, 0, 0⟩ bs
  deserializeMultiLoop mhdr 0 bs clist

end Client

end QtZooKeeper
