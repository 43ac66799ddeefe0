-- SUMMARY: The packets of the protocol: requests behind their header, answers behind theirs, and how a completion reads an answer.
import QtZooKeeper.Client.Jute

/-!
# Packets

A request is a header with a transaction number and an operation, and the record the
operation takes. An answer is a header with the number of the request, and a record
the client knows how to read from the type of the completion that waits for it.
-/

namespace QtZooKeeper

/-! ## Requests -/

/-- What the client sends, by operation. -/
inductive RequestBody where
  | createOp (req : CreateRequest)
  | deleteOp (req : DeleteRequest)
  | existsOp (req : ExistsRequest)
  | getDataOp (req : GetDataRequest)
  | setDataOp (req : SetDataRequest)
  | getACLOp (req : GetACLRequest)
  | setACLOp (req : SetACLRequest)
  | getChildrenOp (req : GetChildrenRequest)
  | syncOp (req : SyncRequest)
  | pingOp
  | getChildren2Op (req : GetChildren2Request)
  | closeOp
  | setAuthOp (req : AuthPacket)
  | setWatchesOp (req : SetWatches)
  deriving DecidableEq, Repr

namespace RequestBody

/-- The codes of `proto.h`. -/
def type : RequestBody → Int32
  | createOp _ => 1
  | deleteOp _ => 2
  | existsOp _ => 3
  | getDataOp _ => 4
  | setDataOp _ => 5
  | getACLOp _ => 6
  | setACLOp _ => 7
  | getChildrenOp _ => 8
  | syncOp _ => 9
  | pingOp => 11
  | getChildren2Op _ => 12
  | closeOp => -11
  | setAuthOp _ => 100
  | setWatchesOp _ => 101

/-- The record behind the header. -/
def serialize : RequestBody → List ArchiveOp
  | createOp req => serializeCreateRequest req
  | deleteOp req => serializeDeleteRequest req
  | existsOp req => serializeExistsRequest req
  | getDataOp req => serializeGetDataRequest req
  | setDataOp req => serializeSetDataRequest req
  | getACLOp req => serializeGetACLRequest req
  | setACLOp req => serializeSetACLRequest req
  | getChildrenOp req => serializeGetChildrenRequest req
  | syncOp req => serializeSyncRequest req
  | pingOp => []
  | getChildren2Op req => serializeGetChildren2Request req
  | closeOp => []
  | setAuthOp req => serializeAuthPacket req
  | setWatchesOp req => serializeSetWatches req

/-- All strings are there and all flags are 0 or 1. -/
def Complete : RequestBody → Prop
  | createOp req => req.Complete
  | deleteOp req => req.Complete
  | existsOp req => req.Complete
  | getDataOp req => req.Complete
  | setDataOp req => req.Complete
  | getACLOp req => req.Complete
  | setACLOp req => req.Complete
  | getChildrenOp req => req.Complete
  | syncOp req => req.Complete
  | pingOp => True
  | getChildren2Op req => req.Complete
  | closeOp => True
  | setAuthOp req => req.Complete
  | setWatchesOp req => req.Complete

end RequestBody

/-- What is queued for a request. -/
def requestPacket (xid : Int32) (body : RequestBody) : List ArchiveOp :=
  serializeRequestHeader ⟨xid, body.type⟩ ++ body.serialize

/-- The record of an operation, read back by the readers of the generated code. -/
def deserializeBody [Host] (type : Int32) : IArchive RequestBody :=
  if type = 1 then do return .createOp (← deserializeCreateRequest)
  else if type = 2 then do return .deleteOp (← deserializeDeleteRequest)
  else if type = 3 then do return .existsOp (← deserializeExistsRequest)
  else if type = 4 then do return .getDataOp (← deserializeGetDataRequest)
  else if type = 5 then do return .setDataOp (← deserializeSetDataRequest)
  else if type = 6 then do return .getACLOp (← deserializeGetACLRequest)
  else if type = 7 then do return .setACLOp (← deserializeSetACLRequest)
  else if type = 8 then do return .getChildrenOp (← deserializeGetChildrenRequest)
  else if type = 9 then do return .syncOp (← deserializeSyncRequest)
  else if type = 11 then return .pingOp
  else if type = 12 then do return .getChildren2Op (← deserializeGetChildren2Request)
  else if type = -11 then return .closeOp
  else if type = 100 then do return .setAuthOp (← deserializeAuthPacket)
  else if type = 101 then do return .setWatchesOp (← deserializeSetWatches)
  else Reader.fail .einval

/-- A request as its receiver reads it. -/
def deserializeRequest [Host] : IArchive (RequestHeader × RequestBody) := do
  let h ← deserializeRequestHeader
  let body ← deserializeBody h.type
  return (h, body)

/-! ## Answers -/

/-- `COMPLETION_*`, but for the results of a multi operation. -/
inductive CompletionType where
  | void
  | stat
  | data
  | stringlist
  | stringlistStat
  | acllist
  | string
  deriving DecidableEq, Repr

/-- The record of a successful answer. -/
inductive AnswerBody where
  | void
  | stat (res : Stat)
  | data (res : GetDataResponse)
  | stringlist (res : GetChildrenResponse)
  | stringlistStat (res : GetChildren2Response)
  | acllist (res : GetACLResponse)
  | string (res : CreateResponse)
  deriving DecidableEq, Repr

namespace AnswerBody

/-- The type of the completion that reads the record. -/
def type : AnswerBody → CompletionType
  | void => .void
  | stat _ => .stat
  | data _ => .data
  | stringlist _ => .stringlist
  | stringlistStat _ => .stringlistStat
  | acllist _ => .acllist
  | string _ => .string

def serialize : AnswerBody → List ArchiveOp
  | void => []
  | stat res => serializeSetDataResponse res
  | data res => serializeGetDataResponse res
  | stringlist res => serializeGetChildrenResponse res
  | stringlistStat res => serializeGetChildren2Response res
  | acllist res => serializeGetACLResponse res
  | string res => serializeCreateResponse res

/-- All strings are there. -/
def Complete : AnswerBody → Prop
  | void => True
  | stat _ => True
  | data _ => True
  | stringlist res => StringVector.Complete res.children
  | stringlistStat res => StringVector.Complete res.children
  | acllist res => AclVector.Complete res.acl
  | string res => res.Complete

end AnswerBody

/-- An answer with its record, if there is one. -/
def answerPacket (h : ReplyHeader) (body : AnswerBody) : List ArchiveOp :=
  serializeReplyHeader h ++ body.serialize

/-- What `deserialize_response` reads for a completion of the type. The results of the
readers are not checked, so a record that is cut short leaves fields unset that are
handed on. -/
def deserializeAnswer [Host] (type : CompletionType) : IArchive AnswerBody :=
  match type with
  | .void => return .void
  | .stat => do return .stat (← deserializeSetDataResponse)
  | .data => do return .data (← deserializeGetDataResponse)
  | .stringlist => do return .stringlist (← deserializeGetChildrenResponse)
  | .stringlistStat => do return .stringlistStat (← deserializeGetChildren2Response)
  | .acllist => do return .acllist (← deserializeGetACLResponse)
  | .string => do return .string (← deserializeCreateResponse)

/-- The completion that the `zoo_a*` function of the operation adds. The other operations
are sent by the client on its own account. -/
def RequestBody.completion : RequestBody → Option CompletionType
  | createOp _ => some .string
  | deleteOp _ => some .void
  | existsOp _ => some .stat
  | getDataOp _ => some .data
  | setDataOp _ => some .stat
  | getACLOp _ => some .acllist
  | setACLOp _ => some .void
  | getChildrenOp _ => some .stringlist
  | syncOp _ => some .string
  | getChildren2Op _ => some .stringlistStat
  | pingOp | closeOp | setAuthOp _ | setWatchesOp _ => none

/-- The arguments a callback gets. -/
structure Response where
  rc : Int32
  res : Option AnswerBody
  deriving DecidableEq, Repr

/-- `deserialize_response`, but for the results of a multi operation. -/
def deserializeResponse [Host] (type : CompletionType) (failed : Bool) (rc : Int32) :
    IArchive Response :=
  if failed then return ⟨rc, none⟩
  else do
    let res ← deserializeAnswer type
    return ⟨rc, some res⟩

/-- What `process_completions` reads from the buffer of a completion that waits for no
watch event. -/
def readResponse [Host] (type : CompletionType) : IArchive Response := do
  let hdr ← deserializeReplyHeader
  deserializeResponse type (hdr.err != 0) hdr.err

/-! ## Round trips -/

section RoundTrips

variable [Host]

theorem decodes_body {body : RequestBody} (h : body.Complete) :
    (deserializeBody body.type).Decodes (wire body.serialize) body := by
  cases body with
  | createOp req => exact (decodes_createRequest h).bind_pure
  | deleteOp req => exact (decodes_pathVersion h).bind_pure
  | existsOp req => exact (decodes_pathWatch h).bind_pure
  | getDataOp req => exact (decodes_pathWatch h).bind_pure
  | setDataOp req => exact (decodes_setDataRequest h).bind_pure
  | getACLOp req => exact (decodes_path h).bind_pure
  | setACLOp req => exact (decodes_setACLRequest h).bind_pure
  | getChildrenOp req => exact (decodes_pathWatch h).bind_pure
  | syncOp req => exact (decodes_path h).bind_pure
  | pingOp => exact Reader.decodes_pure
  | getChildren2Op req => exact (decodes_pathWatch h).bind_pure
  | closeOp => exact Reader.decodes_pure
  | setAuthOp req => exact (decodes_authPacket h).bind_pure
  | setWatchesOp req => exact (decodes_setWatches h).bind_pure

theorem decodes_request {xid : Int32} {body : RequestBody} (h : body.Complete) :
    deserializeRequest.Decodes (wire (requestPacket xid body)) (⟨xid, body.type⟩, body) := by
  rw [requestPacket, wire_append]
  exact decodes_requestHeader.bind (decodes_body h).bind_pure

theorem decodes_answer {body : AnswerBody} (h : body.Complete) :
    (deserializeAnswer body.type).Decodes (wire body.serialize) body := by
  cases body with
  | void => exact Reader.decodes_pure
  | stat res => exact decodes_stat.bind_pure
  | data res => exact decodes_getDataResponse.bind_pure
  | stringlist res => exact (decodes_getChildrenResponse h).bind_pure
  | stringlistStat res => exact (decodes_getChildren2Response h).bind_pure
  | acllist res => exact (decodes_getACLResponse h).bind_pure
  | string res => exact (decodes_path h).bind_pure

/-- The callback gets the record of a successful answer. -/
theorem decodes_response {h : ReplyHeader} {body : AnswerBody} (hbody : body.Complete)
    (herr : h.err = 0) :
    (readResponse body.type).Decodes (wire (answerPacket h body)) ⟨0, some body⟩ := by
  have hread : (deserializeResponse body.type (h.err != 0) h.err).Decodes (wire body.serialize)
      ⟨0, some body⟩ := by
    rw [deserializeResponse, herr, if_neg (by decide)]
    exact (decodes_answer hbody).bind_pure
  rw [answerPacket, wire_append]
  exact decodes_replyHeader.bind hread

/-- Of a failed answer only the header is read. -/
theorem decodes_failure {h : ReplyHeader} {type : CompletionType} (herr : h.err ≠ 0) :
    (readResponse type).Decodes (wire (serializeReplyHeader h)) ⟨h.err, none⟩ := by
  have hread : (deserializeResponse type (h.err != 0) h.err).Decodes [] ⟨h.err, none⟩ := by
    rw [deserializeResponse, if_pos (bne_iff_ne.mpr herr)]
    exact Reader.decodes_pure
  have hseq : (readResponse type).Decodes (wire (serializeReplyHeader h) ++ []) ⟨h.err, none⟩ :=
    decodes_replyHeader.bind hread
  rwa [List.append_nil] at hseq

end RoundTrips

/-! ## Answers that are cut short -/

namespace CompletionType

/-- The completion reads no vector. -/
def Plain (type : CompletionType) : Prop :=
  type = .void ∨ type = .stat ∨ type = .data ∨ type = .string

variable [Host]

/-- The fields of a `Stat`, in the order in which the generated code reads them. -/
def statFields : List (IArchive ArchiveOp) :=
  let int : IArchive ArchiveOp := do return .int (← iaDeserializeInt)
  let long : IArchive ArchiveOp := do return .long (← iaDeserializeLong)
  [long, long, long, long, int, int, int, long, int, int, long]

/-- The fields of the record that the completion reads, if there is no vector among them.
Behind the first one that is not read none is. -/
def fields : CompletionType → List (IArchive ArchiveOp)
  | void | stringlist | stringlistStat | acllist => []
  | stat => statFields
  | data => (do return .buffer (← iaDeserializeBuffer)) :: statFields
  | string => [do return .string (← iaDeserializeString)]

end CompletionType

theorem stable_answer [Host] {type : CompletionType} (h : type.Plain) :
    (deserializeAnswer type).Stable := by
  obtain rfl | rfl | rfl | rfl := h
  · exact Reader.stable_pure
  · exact stable_stat.bind fun _ => Reader.stable_pure
  · exact stable_getDataResponse.bind fun _ => Reader.stable_pure
  · exact stable_path.bind fun _ => Reader.stable_pure

/-- The fields of a record are read back, and each is refused that is not complete. -/
theorem fields_serialize [Host] {body : AnswerBody} (hplain : body.type.Plain) (hbody : body.Complete) :
    List.Forall₂ (fun r op => Reader.Stable r ∧ Reader.Decodes r op.wire op) body.type.fields
      body.serialize := by
  have hint (d : Int32) : Reader.Stable (do return .int (← iaDeserializeInt) : IArchive ArchiveOp) ∧
      Reader.Decodes (do return .int (← iaDeserializeInt) : IArchive ArchiveOp)
        (ArchiveOp.int d).wire (.int d) :=
    ⟨stable_int.bind fun _ => Reader.stable_pure, decodes_int.bind_pure⟩
  have hlong (d : Int64) : Reader.Stable (do return .long (← iaDeserializeLong) : IArchive ArchiveOp) ∧
      Reader.Decodes (do return .long (← iaDeserializeLong) : IArchive ArchiveOp)
        (ArchiveOp.long d).wire (.long d) :=
    ⟨stable_long.bind fun _ => Reader.stable_pure, decodes_long.bind_pure⟩
  have hstat (v : Stat) : List.Forall₂ (fun r op => Reader.Stable r ∧ Reader.Decodes r op.wire op)
      CompletionType.statFields (serializeStat v) :=
    .cons (hlong _) (.cons (hlong _) (.cons (hlong _) (.cons (hlong _) (.cons (hint _)
      (.cons (hint _) (.cons (hint _) (.cons (hlong _) (.cons (hint _) (.cons (hint _)
        (.cons (hlong _) .nil))))))))))
  cases body with
  | void => exact .nil
  | stat res => exact hstat res
  | data res =>
    exact .cons ⟨stable_buffer.bind fun _ => Reader.stable_pure, decodes_buffer.bind_pure⟩ (hstat _)
  | string res =>
    exact .cons ⟨stable_string.bind fun _ => Reader.stable_pure, (decodes_charPtr hbody).bind_pure⟩ .nil
  | stringlist res | stringlistStat res | acllist res => simp [CompletionType.Plain, AnswerBody.type] at hplain

theorem stable_response [Host] {type : CompletionType} (h : type.Plain) :
    (readResponse type).Stable := by
  refine stable_replyHeader.bind fun hdr => ?_
  rw [deserializeResponse]
  split
  · exact Reader.stable_pure
  · exact Reader.Stable.bind (stable_answer h) fun _ => Reader.stable_pure

end QtZooKeeper
