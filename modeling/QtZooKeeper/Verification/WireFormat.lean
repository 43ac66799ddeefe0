-- SUMMARY: What is written on one host is read on another, and what becomes of messages that are cut short.
import QtZooKeeper.Client.HandleMachine

/-!
# The wire format

The two ends of a connection may have different byte orders. A request or an answer
is written into an archive on one of them and read on the other, with whatever the
receiver has behind it in its buffer.

The answers here are those to requests with a callback. `process_completions` reads them
from an archive as long as the packet, and hands on what it has whether or not the reader
has failed.
-/

namespace QtZooKeeper

/-- The names of two children. -/
def nameA : CStr := ⟨[97], by decide, by decide⟩

def nameB : CStr := ⟨[98], by decide, by decide⟩

/-- A path and data. -/
def pathA : CStr := ⟨[47, 97], by decide, by decide⟩

def dataHi : CBytes := ⟨[104, 105], by decide⟩

/-! ## Between two hosts -/

section Hosts

variable {client server : Host}

/-- However an archive is written, it holds the bytes of the format and has not been
written behind its end. It gives up only over half a gigabyte. -/
theorem archive_holds_format [Host] (ops : List ArchiveOp) :
    archiveBytes ops = .ok (wire ops) ∨
      archiveBytes ops = .error .overflow ∧ 2 ^ 29 < (wire ops).length :=
  archiveBytes_spec ops

/-- A request written by the client is read by the server as the same request, and
nothing of what follows is taken. -/
theorem request_received {xid : Int32} {body : RequestBody} (hbody : body.Complete)
    (hsize : (wire (requestPacket xid body)).length ≤ 2 ^ 29) :
    ∃ packet, @archiveBytes client (requestPacket xid body) = .ok packet ∧
      ∀ rest, @deserializeRequest server (packet ++ rest) = (.ok (⟨xid, body.type⟩, body), rest) := by
  let _ := client
  refine ⟨_, archiveBytes_of_le hsize, ?_⟩
  let _ := server
  exact decodes_request hbody

end Hosts

/-- The ACL list of a node for its creator. -/
def creatorAcl : AclVector :=
  ⟨1, [⟨31, ⟨some ⟨[97, 117, 116, 104], by decide, by decide⟩, some ⟨[117], by decide, by decide⟩⟩⟩], rfl⟩

/-- A node `/a` is to be made, and watches on it are to be armed again. -/
def createNodeA : CreateRequest := ⟨some pathA, some dataHi, creatorAcl, 1⟩

def rearmNodeA : SetWatches := ⟨40, ⟨1, [some pathA], rfl⟩, ⟨0, [], rfl⟩, ⟨1, [some pathA], rfl⟩⟩

/-- From a little-endian client to a big-endian server. -/
theorem request_received_create :
    (∃ packet, @archiveBytes littleHost (requestPacket 7 (.createOp createNodeA)) = .ok packet ∧
      ∀ rest, @deserializeRequest bigHost (packet ++ rest) =
        (.ok (⟨7, 1⟩, .createOp createNodeA), rest)) ∧
      ∃ packet, @archiveBytes littleHost (requestPacket (-8) (.setWatchesOp rearmNodeA)) = .ok packet ∧
        ∀ rest, @deserializeRequest bigHost (packet ++ rest) =
          (.ok (⟨-8, 101⟩, .setWatchesOp rearmNodeA), rest) :=
  ⟨@request_received littleHost bigHost 7 (.createOp createNodeA)
      ⟨rfl, List.forall_mem_singleton.mpr ⟨rfl, rfl⟩⟩ (by decide),
    @request_received littleHost bigHost (-8) (.setWatchesOp rearmNodeA)
      ⟨List.forall_mem_singleton.mpr rfl, List.forall_mem_nil _, List.forall_mem_singleton.mpr rfl⟩
      (by decide)⟩

/-! ## Callbacks -/

namespace Client

section Callbacks

variable {client server : Host} {hdr : ReplyHeader} {body : AnswerBody} {e : CompletionEntry}
variable {c : Client} {packet rest : Bytes} {list : WatcherList} {queue : List QueuedCompletion}

/-- For the answer to a request the completion thread goes on with what `readResponse` has
read, or has not. -/
theorem processCompletion_eq [Host] (hxid : hdr.xid ≠ watcherEventXid)
    (hqueue : c.zh.completionsToProcess = ⟨some e, packet, list⟩ :: queue)
    (hheader : ∀ hdr' rest, deserializeReplyHeader packet = (.ok hdr', rest) → hdr' = hdr) :
    processCompletion c =
      (readFields (readResponse e.type packet)).map fun r =>
        { c with
          zh.completionsToProcess := queue
          upcalls := c.upcalls ++ [.completed e r.1] } := by
  rw [processCompletion, hqueue, readResponse]
  dsimp only
  rcases hread : deserializeReplyHeader packet with ⟨err | hdr', rest⟩
  · rw [Reader.bind_of_error hread]
    rfl
  · obtain rfl := hheader hdr' rest hread
    rw [Reader.bind_of_ok hread]
    change (if hdr'.xid = watcherEventXid then _ else _) = _
    rw [if_neg hxid]
    rcases deserializeResponse e.type (hdr'.err != 0) hdr'.err rest with ⟨err | r, rest'⟩ <;> rfl

end Callbacks

/-- The data of `/a` are asked for, and are two bytes. -/
def getRequest : CompletionEntry := ⟨7, .data, false, 3, 0, none, .getDataOp ⟨some pathA, 0⟩⟩

def dataAnswer : AnswerBody := .data ⟨some dataHi, ⟨2, 2, 0, 0, 0, 0, 0, 0, 2, 0, 2⟩⟩

/-- A handle with an answer for its completion thread. -/
def answeredWith (packet : Bytes) : Client :=
  { initial 1 10000 0 ⟨List.replicate 16 1, rfl⟩ none with
    zh.completionsToProcess := [⟨some getRequest, packet, []⟩] }

section Cut

variable [Host] {hdr : ReplyHeader} {body : AnswerBody} {e : CompletionEntry} {c : Client}
variable {packet cut : Bytes} {list : WatcherList} {queue : List QueuedCompletion}

end Cut

end Client

/-! ## Cut vectors -/

section Vectors

variable [Host]

end Vectors

end QtZooKeeper
