-- SUMMARY: The operations of a multi arrive in order, each gets its own result, and a result that is missing is not survived.
import QtZooKeeper.Client.Moves
import QtZooKeeper.Client.Multi
import QtZooKeeper.Verification.Completions
import QtZooKeeper.Verification.WireFormat

/-!
# Results of multi operations

The operations of a multi and its results are lists of records of different types on the
wire, each list ended by a header. What the client sends is read by a server as the list of
the operations (`multi_request_received`), and what the server answers reaches the results
of the operations one by one (`multi_answer_delivered`). The client relies on both lists
having the same length: an answer without all the results, such as the one that is made up
when a connection is lost, ends in a failed assertion or in a field that was not read
(`multi_cut`). Behind a refused path the packing itself goes wrong (`multi_refused_iff`).
-/

namespace QtZooKeeper

/-! ## What a server reads and answers -/

/-- The record behind a header of a multi, by the readers of the generated code. -/
def deserializeSubRequest [Host] (type : Int32) : IArchive SubRequest :=
  if type = 1 then do return .createOp (← deserializeCreateRequest)
  else if type = 2 then do return .deleteOp (← deserializeDeleteRequest)
  else if type = 5 then do return .setDataOp (← deserializeSetDataRequest)
  else if type = 13 then do return .checkOp (← deserializeCheckVersionRequest)
  else Reader.fail .einval

/-- The operations up to the header that ends them, if there are fewer than `n`. -/
def deserializeSubRequests [Host] : Nat → IArchive (List SubRequest)
  | 0 => Reader.fail .e2big
  | n + 1 => do
    let mhdr ← deserializeMultiHeader
    if mhdr.done ≠ 0 then return []
    else
      let req ← deserializeSubRequest mhdr.type
      let reqs ← deserializeSubRequests n
      return req :: reqs

namespace ZooOp

/-- The operation on the server path. -/
def serverRecord (chroot : Option Bytes) (op : ZooOp) : Option SubRequest :=
  op.target.bind fun target => op.record (Client.charPtr (prependString chroot target.1.bytes))

/-- The path has passed its check, and the session has not ended. -/
def Accepted (zh : Zhandle) (op : ZooOp) : Prop :=
  ∃ path flags, op.target = some (path, flags) ∧
    (Client.requestPathInit zh flags path).1 = .noError

/-- The path has not, or the session has. -/
def Refused (zh : Zhandle) (op : ZooOp) : Prop :=
  ∃ path flags, op.target = some (path, flags) ∧
    (Client.requestPathInit zh flags path).1 ≠ .noError

theorem accepted_or_refused (zh : Zhandle) {op : ZooOp} (h : op.target ≠ none) :
    op.Accepted zh ∨ op.Refused zh := by
  obtain ⟨target, htarget⟩ := Option.ne_none_iff_exists'.mp h
  by_cases hinit : (Client.requestPathInit zh target.2 target.1).1 = .noError
  · exact .inl ⟨_, _, htarget, hinit⟩
  · exact .inr ⟨_, _, htarget, hinit⟩

theorem Accepted.not_refused {zh : Zhandle} {op : ZooOp}
    (h : op.Accepted zh) : ¬ op.Refused zh := by
  obtain ⟨path, flags, htarget, hinit⟩ := h
  rintro ⟨path', flags', htarget', hinit'⟩
  obtain ⟨rfl, rfl⟩ := Prod.mk.inj (Option.some.inj (htarget.symm.trans htarget'))
  exact hinit' hinit

end ZooOp

/-- The first operation that cannot be sent is refused, and `post` is behind it. -/
inductive RefusedBefore (zh : Zhandle) : List ZooOp → List ZooOp → Prop where
  | refused {op post} (h : op.Refused zh) : RefusedBefore zh (op :: post) post
  | accepted {op ops post} (h : op.Accepted zh) (hrest : RefusedBefore zh ops post) :
    RefusedBefore zh (op :: ops) post

/-- What becomes of an operation. -/
inductive OpOutcome where
  | created (path : CStr)
  | deleted
  | dataSet (stat : Stat)
  | checked
  | failed (err : Int32)
  deriving DecidableEq, Repr

namespace OpOutcome

def err : OpOutcome → Int32
  | failed err => err
  | created _ | deleted | dataSet _ | checked => 0

/-- The record that an operation which has not failed comes with. -/
def res : OpOutcome → Option AnswerBody
  | created path => some (.string ⟨some path⟩)
  | deleted | checked => some .void
  | dataSet stat => some (.stat stat)
  | failed _ => none

def header : OpOutcome → MultiHeader
  | created _ => ⟨1, 0, 0⟩
  | deleted => ⟨2, 0, 0⟩
  | dataSet _ => ⟨5, 0, 0⟩
  | checked => ⟨13, 0, 0⟩
  | failed err => ⟨-1, 0, err⟩

/-- What is behind the header. -/
def record : OpOutcome → List ArchiveOp
  | created path => serializeCreateResponse ⟨some path⟩
  | deleted | checked => []
  | dataSet stat => serializeSetDataResponse stat
  | failed err => serializeErrorResponse ⟨err⟩

end OpOutcome

/-- The results of a multi, each behind its header. -/
def multiResults (outcomes : List OpOutcome) : List ArchiveOp :=
  outcomes.flatMap fun o => serializeMultiHeader o.header ++ o.record

/-- What is behind the header of the answer. -/
def multiAnswer (outcomes : List OpOutcome) : List ArchiveOp :=
  multiResults outcomes ++ serializeMultiHeader ⟨-1, 1, -1⟩

/-- An outcome of the operation that the completion is for. -/
def OpEntry.Fits : OpEntry → OpOutcome → Prop
  | .string _, o => (∃ path, o = .created path) ∨ ∃ err, o = .failed err
  | .void, o => o = .deleted ∨ o = .checked ∨ ∃ err, o = .failed err
  | .stat _, o => (∃ stat, o = .dataSet stat) ∨ ∃ err, o = .failed err

/-- The first error, where one is reported; an operation that was not tried because of
another one says `ZRUNTIMEINCONSISTENCY`. -/
def firstError (outcomes : List OpOutcome) : Int32 :=
  ((outcomes.map OpOutcome.err).find? fun err => err ≠ 0 ∧ err ≠ -2).getD 0

theorem OpEntry.Fits.plain {entry : OpEntry} {o : OpOutcome} (h : entry.Fits o) : entry.type.Plain := by
  cases entry with
  | string buf => exact .inr (.inr (.inr rfl))
  | void => exact .inl rfl
  | stat wanted => exact .inr (.inl rfl)

namespace Client

section Answers

variable [Host] {mhdr v : MultiHeader} {rc : Int32} {rest : Bytes} {o : OpOutcome} {entry : OpEntry}
variable {outcomes : List OpOutcome} {clist : List OpEntry}

theorem readMultiHeader_wire (h : v.Complete) :
    readMultiHeader mhdr (wire (serializeMultiHeader v) ++ rest) = (v, rest) := by
  have hwire : wire (serializeMultiHeader v) ++ rest =
      intWire v.type ++ ([if v.done = 0 then 0 else 1] ++ (intWire v.err ++ rest)) := by
    simp [serializeMultiHeader, wire, ArchiveOp.wire]
  rw [hwire, readMultiHeader, decodes_int]
  dsimp only
  rw [decodes_bool h]
  dsimp only
  rw [decodes_int]

/-- The return value of `deserialize_multi` behind another result. -/
def nextRc (rc : Int32) (o : OpOutcome) : Int32 :=
  if rc = 0 ∧ o.err ≠ 0 ∧ o.err ≠ -2 then o.err else rc

omit [Host] in
theorem nextRc_of_ok (h : o.err = 0) : nextRc rc o = rc := if_neg fun hne => hne.2.1 h

theorem readError_wire : readError o.header rc (wire o.record ++ rest) =
    .ok (o.header, nextRc rc o, wire (if o.res = none then [] else o.record) ++ rest) := by
  cases o with
  | failed err =>
    have hread : deserializeErrorResponse (wire (OpOutcome.failed err).record ++ rest) = _ :=
      decodes_errorResponse rest
    have htype : (OpOutcome.failed err).header.type = -1 := rfl
    rw [readError, if_pos htype, hread]
    rfl
  | created path => rw [nextRc_of_ok rfl]; rfl
  | deleted => rw [nextRc_of_ok rfl]; rfl
  | dataSet stat => rw [nextRc_of_ok rfl]; rfl
  | checked => rw [nextRc_of_ok rfl]; rfl

omit [Host] in
/-- An operation that has not failed answers with the record its completion reads. -/
theorem res_eq_some {body : AnswerBody} (h : entry.Fits o) (hres : o.res = some body) :
    body.Complete ∧ body.type = entry.type ∧ o.record = body.serialize := by
  cases entry with
  | string buf =>
    obtain ⟨path, rfl⟩ | ⟨err, rfl⟩ := h
    · obtain rfl := Option.some.inj hres
      exact ⟨rfl, rfl, rfl⟩
    · cases hres
  | void =>
    obtain rfl | rfl | ⟨err, rfl⟩ := h
    · obtain rfl := Option.some.inj hres
      exact ⟨trivial, rfl, rfl⟩
    · obtain rfl := Option.some.inj hres
      exact ⟨trivial, rfl, rfl⟩
    · cases hres
  | stat wanted =>
    obtain ⟨stat, rfl⟩ | ⟨err, rfl⟩ := h
    · obtain rfl := Option.some.inj hres
      exact ⟨trivial, rfl, rfl⟩
    · cases hres

omit [Host] in
theorem res_eq_none (hres : o.res = none) : ∃ err, o = .failed err := by
  cases o with
  | failed err => exact ⟨err, rfl⟩
  | _ => cases hres

omit [Host] in
theorem type_eq_of_res {body : AnswerBody} (hres : o.res = some body) :
    (o.header.type == -1) = false ∧ o.header.err = 0 ∧ o.err = 0 := by
  cases o with
  | failed err => cases hres
  | _ => exact ⟨rfl, rfl, rfl⟩

/-- The completion reads the result of its operation. -/
theorem deserializeResponse_wire (h : entry.Fits o) :
    deserializeResponse entry.type (o.header.type == -1) o.header.err
        (wire (if o.res = none then [] else o.record) ++ rest) = (.ok ⟨o.err, o.res⟩, rest) := by
  cases hres : o.res with
  | none =>
    obtain ⟨err, rfl⟩ := res_eq_none hres
    rfl
  | some body =>
    obtain ⟨hbody, htype, hrecord⟩ := res_eq_some h hres
    obtain ⟨hheader, herr, hrc⟩ := type_eq_of_res hres
    rw [hheader, herr, hrc, if_neg (by simp), hrecord, ← htype, deserializeResponse,
      if_neg (by decide), Reader.bind_of_ok (decodes_answer hbody rest)]
    rfl

omit [Host] in
theorem header_done : o.header.done = 0 := by
  cases o <;> rfl

theorem deserializeOpResponse_of_ok {r : Response} {bs : Bytes}
    (h : deserializeResponse entry.type (mhdr.type == -1) mhdr.err bs = (.ok r, rest)) :
    deserializeOpResponse mhdr bs entry = .ok (entry.complete r, rest) := by
  rw [deserializeOpResponse, h]
  rfl

theorem deserializeMultiLoop_cons (h : entry.Fits o) :
    deserializeMultiLoop o.header rc (wire o.record ++ rest) (entry :: clist) = (do
      let (mhdr, bs) := readMultiHeader o.header rest
      let (rc, results) ← deserializeMultiLoop mhdr (nextRc rc o) bs clist
      return (rc, entry.complete ⟨o.err, o.res⟩ :: results)) := by
  rw [deserializeMultiLoop, if_neg (not_not.mpr header_done), readError_wire, Except.ok_bind]
  dsimp only
  rw [deserializeOpResponse_of_ok (deserializeResponse_wire h)]
  rfl

omit [Host] in
theorem complete_header : o.header.Complete := .inl header_done

omit [Host] in
theorem wire_multiResults_cons : wire (multiResults (o :: outcomes)) ++ rest =
    wire (serializeMultiHeader o.header) ++ (wire o.record ++ (wire (multiResults outcomes) ++ rest)) := by
  simp [multiResults, wire_append]

omit [Host] in
theorem wire_multiAnswer : wire (multiAnswer outcomes) =
    wire (multiResults outcomes) ++ wire (serializeMultiHeader ⟨-1, 1, -1⟩) := wire_append

/-- In step with the completions the results are told apart, if what is behind them says that
it is the last header. -/
theorem deserializeMultiLoop_eq (h : List.Forall₂ OpEntry.Fits clist outcomes)
    (hend : ∀ mhdr, (readMultiHeader mhdr rest).1.done ≠ 0) :
    deserializeMultiLoop (readMultiHeader mhdr (wire (multiResults outcomes) ++ rest)).1 rc
        (readMultiHeader mhdr (wire (multiResults outcomes) ++ rest)).2 clist =
      .ok (outcomes.foldl nextRc rc,
        clist.zipWith (fun entry o => entry.complete ⟨o.err, o.res⟩) outcomes) := by
  induction h generalizing mhdr rc with
  | nil =>
    have hdone : (readMultiHeader mhdr (wire (multiResults []) ++ rest)).1.done ≠ 0 := hend mhdr
    rw [deserializeMultiLoop, if_pos hdone]
    rfl
  | @cons entry o clist outcomes hfits h ih =>
    rw [wire_multiResults_cons, readMultiHeader_wire complete_header]
    dsimp only
    rw [deserializeMultiLoop_cons hfits]
    dsimp only
    rw [ih]
    rfl

omit [Host] in
/-- The first error that is reported stays. -/
theorem foldl_nextRc : outcomes.foldl nextRc rc = if rc = 0 then firstError outcomes else rc := by
  induction outcomes generalizing rc with
  | nil =>
    rw [List.foldl_nil]
    split
    · next hrc => exact hrc
    · rfl
  | cons o outcomes ih =>
    rw [List.foldl_cons, ih]
    have hcons : firstError (o :: outcomes) =
        if o.err ≠ 0 ∧ o.err ≠ -2 then o.err else firstError outcomes := by
      rw [firstError, List.map_cons]
      by_cases herr : o.err ≠ 0 ∧ o.err ≠ -2
      · rw [List.find?_cons_of_pos (by simpa using herr), if_pos herr, Option.getD_some]
      · rw [List.find?_cons_of_neg (by simpa using herr), if_neg herr, firstError]
    rw [hcons]
    by_cases hrc : rc = 0
    · subst hrc
      by_cases herr : o.err ≠ 0 ∧ o.err ≠ -2
      · have hnext : nextRc 0 o = o.err := if_pos ⟨rfl, herr⟩
        rw [hnext, if_neg herr.1, if_pos rfl, if_pos herr]
      · have hnext : nextRc 0 o = 0 := if_neg fun h => herr h.2
        rw [hnext, if_pos rfl, if_pos rfl, if_neg herr]
    · have hnext : nextRc rc o = rc := if_neg fun h => hrc h.1
      rw [hnext, if_neg hrc, if_neg hrc]

/-! ## Answers that are cut short -/

theorem iaDeserializeInt_short (hrest : rest.length < 4) :
    iaDeserializeInt rest = (.error .e2big, rest) :=
  Reader.bind_of_error (Reader.take_of_lt hrest)

theorem readMultiHeader_short (hrest : rest.length < 4) : readMultiHeader mhdr rest = (mhdr, rest) := by
  rw [readMultiHeader, iaDeserializeInt_short hrest]

/-- A header that is not complete is not the last one. What is behind it is too short for
anything but a result without a record. -/
theorem readMultiHeader_cut {packet cut : Bytes} (h : packet ++ cut = wire (serializeMultiHeader v))
    (hcut : cut ≠ []) (hdone : mhdr.done = 0) (hv : v.done = 0 ∨ 4 < cut.length) :
    (readMultiHeader mhdr packet).1.done = 0 ∧ (readMultiHeader mhdr packet).2.length < 4 := by
  have hwire : packet ++ cut =
      intWire v.type ++ ([if v.done = 0 then 0 else 1] ++ intWire v.err) := by
    rw [h]
    simp [serializeMultiHeader, wire, ArchiveOp.wire]
  by_cases htype : packet.length < 4
  · rw [readMultiHeader_short htype]
    exact ⟨hdone, htype⟩
  · obtain ⟨missing, hmissing, hint, -⟩ | ⟨part, rfl, hpart⟩ := Reader.append_cut hwire
    · have hlen := congrArg List.length hint
      have hpos : 0 < missing.length := List.length_pos_iff.mpr hmissing
      rw [List.length_append, length_intWire] at hlen
      exact absurd hlen (by omega)
    · rw [readMultiHeader, decodes_int]
      dsimp only
      cases part with
      | nil => exact ⟨hdone, Nat.zero_lt_succ _⟩
      | cons d part =>
        obtain ⟨rfl, herr⟩ : _ ∧ part ++ cut = intWire v.err := List.cons.inj hpart
        have hlen := congrArg List.length herr
        have hpos : 0 < cut.length := List.length_pos_iff.mpr hcut
        rw [length_intWire, List.length_append] at hlen
        have hzero : v.done = 0 := hv.resolve_right (by omega)
        have hbool := decodes_bool (i := v.done) (.inl hzero) part
        rw [List.singleton_append] at hbool
        rw [hbool]
        dsimp only
        have hshort : part.length < 4 := by omega
        rw [iaDeserializeInt_short hshort]
        exact ⟨hzero, hshort⟩

theorem deserializeOpResponse_of_error {bs : Bytes} {e : ArchiveError} (hwanted : entry ≠ .stat false)
    (herr : mhdr.err = 0)
    (h : (deserializeResponse entry.type (mhdr.type == -1) mhdr.err bs).1 = .error e) :
    deserializeOpResponse mhdr bs entry = .error .indeterminate := by
  rw [deserializeOpResponse]
  rcases hread : deserializeResponse entry.type (mhdr.type == -1) mhdr.err bs with ⟨_ | r, rest⟩
  · cases entry with
    | stat wanted =>
      have hcopied : wanted = true := by
        cases wanted
        · exact absurd rfl hwanted
        · rfl
      exact if_pos ⟨hcopied, herr⟩
    | string buf => rfl
    | void => rfl
  · rw [hread] at h
    cases h

/-- With too few bytes for any field, a completion either reads nothing or is not survived. -/
theorem deserializeOpResponse_short (entry : OpEntry) (htype : mhdr.type ≠ -1) (hrest : rest.length < 4) :
    (∃ f, deserializeOpResponse mhdr rest entry = .error f) ∨
      ∃ result, deserializeOpResponse mhdr rest entry = .ok (result, rest) := by
  have hfailed : (mhdr.type == -1) = false := by simpa using htype
  rw [deserializeOpResponse, hfailed]
  cases entry with
  | string buf =>
    have hpath : deserializePath rest = (.error .e2big, rest) :=
      Reader.bind_of_error (Reader.bind_of_error (iaDeserializeInt_short hrest))
    have hread : deserializeResponse .string false mhdr.err rest = (.error .e2big, rest) :=
      Reader.bind_of_error (Reader.bind_of_error hpath)
    rw [OpEntry.type, hread]
    exact .inl ⟨_, rfl⟩
  | void => exact .inr ⟨_, rfl⟩
  | stat wanted =>
    have hlong : iaDeserializeLong rest = (.error .e2big, rest) :=
      Reader.bind_of_error (Reader.take_of_lt (by omega))
    have hread : deserializeResponse .stat false mhdr.err rest = (.error .e2big, rest) :=
      Reader.bind_of_error (Reader.bind_of_error (Reader.bind_of_error hlong))
    rw [OpEntry.type, hread]
    by_cases hcopied : wanted ∧ mhdr.err = 0
    · exact .inl ⟨.indeterminate, if_pos hcopied⟩
    · exact .inr ⟨_, if_neg hcopied⟩

/-- Without an error in front of it, the result of an operation is read at once. -/
theorem deserializeMultiLoop_of_type {bs : Bytes} (hdone : mhdr.done = 0) (htype : mhdr.type ≠ -1) :
    deserializeMultiLoop mhdr rc bs (entry :: clist) =
      (deserializeOpResponse mhdr bs entry >>= fun p =>
        deserializeMultiLoop (readMultiHeader mhdr p.2).1 rc (readMultiHeader mhdr p.2).2 clist >>= fun r =>
          pure (r.1, p.1 :: r.2)) := by
  rw [deserializeMultiLoop, if_neg (not_not.mpr hdone), readError, if_neg htype]
  rfl

/-- Behind a header that is not the last one, too few bytes for another one lead to no end. -/
theorem deserializeMultiLoop_starved (hdone : mhdr.done = 0) (hrest : rest.length < 4) :
    ∃ f, deserializeMultiLoop mhdr rc rest clist = .error f := by
  induction clist generalizing rc with
  | nil =>
    rw [deserializeMultiLoop, if_neg (not_not.mpr hdone)]
    exact ⟨_, rfl⟩
  | cons entry clist ih =>
    have hint := iaDeserializeInt_short hrest
    by_cases htype : mhdr.type = -1
    · have herr : deserializeErrorResponse rest = (.error .e2big, rest) := Reader.bind_of_error hint
      rw [deserializeMultiLoop, if_neg (not_not.mpr hdone), readError, if_pos htype, herr]
      exact ⟨_, rfl⟩
    · rw [deserializeMultiLoop_of_type hdone htype]
      obtain ⟨f, hf⟩ | ⟨result, hresult⟩ := deserializeOpResponse_short entry htype hrest
      · rw [hf]
        exact ⟨f, rfl⟩
      · obtain ⟨f, hf⟩ := @ih rc
        rw [hresult, Except.ok_bind, readMultiHeader_short hrest, hf]
        exact ⟨f, rfl⟩

/-- Neither does a record that is not complete, if it is used. -/
theorem deserializeMultiLoop_refuses {part missing : Bytes} (hfits : entry.Fits o)
    (hwanted : entry ≠ .stat false) (h : part ++ missing = wire o.record) (hmissing : missing ≠ []) :
    ∃ f, deserializeMultiLoop o.header rc part (entry :: clist) = .error f := by
  cases hres : o.res with
  | none =>
    obtain ⟨err, rfl⟩ := res_eq_none hres
    have hread : deserializeErrorResponse.Decodes (part ++ missing) ⟨err⟩ :=
      h ▸ decodes_errorResponse
    obtain ⟨e, he⟩ := Reader.Stable.refuses stable_errorResponse hread hmissing
    have htype : (OpOutcome.failed err).header.type = -1 := rfl
    rw [deserializeMultiLoop, if_neg (not_not.mpr header_done), readError, if_pos htype,
      readFields_error he]
    exact ⟨_, rfl⟩
  | some body =>
    obtain ⟨hcomplete, htype, hrecord⟩ := res_eq_some hfits hres
    obtain ⟨hfailed, herr, -⟩ := type_eq_of_res hres
    have hread : (deserializeAnswer entry.type).Decodes (part ++ missing) body := by
      rw [h, hrecord, ← htype]
      exact decodes_answer hcomplete
    obtain ⟨e, he⟩ := Reader.Stable.refuses (stable_answer hfits.plain) hread hmissing
    have hresponse : (deserializeResponse entry.type (o.header.type == -1) o.header.err part).1 =
        .error e := by
      rw [hfailed, deserializeResponse, if_neg (by decide), Reader.bind_fst_of_error he]
    rw [deserializeMultiLoop_of_type header_done (by simpa using hfailed),
      deserializeOpResponse_of_error hwanted herr hresponse]
    exact ⟨_, rfl⟩

/-- Without its last header, and so also without anything, an answer does not lead to an end. -/
theorem deserializeMultiLoop_cut {packet cut : Bytes} (hfits : List.Forall₂ OpEntry.Fits clist outcomes)
    (hwanted : .stat false ∉ clist) (h : packet ++ cut = wire (multiAnswer outcomes))
    (hcut : 4 < cut.length) (hdone : mhdr.done = 0) :
    ∃ f, deserializeMultiLoop (readMultiHeader mhdr packet).1 rc (readMultiHeader mhdr packet).2 clist =
      .error f := by
  have hne : cut ≠ [] := List.length_pos_iff.mp (by omega)
  induction hfits generalizing mhdr rc packet with
  | nil =>
    have hend : packet ++ cut = wire (serializeMultiHeader ⟨-1, 1, -1⟩) := h
    obtain ⟨hdone, hrest⟩ := readMultiHeader_cut hend hne hdone (.inr hcut)
    exact deserializeMultiLoop_starved hdone hrest
  | @cons entry o clist outcomes hfits _ ih =>
    rw [List.mem_cons, not_or] at hwanted
    have hwire : wire (multiAnswer (o :: outcomes)) = wire (serializeMultiHeader o.header) ++
        (wire o.record ++ wire (multiAnswer outcomes)) := by
      rw [wire_multiAnswer, wire_multiResults_cons, wire_multiAnswer]
    obtain ⟨missing, hmissing, hheader, -⟩ | ⟨part, rfl, hpart⟩ := Reader.append_cut (h.trans hwire)
    · obtain ⟨hdone, hrest⟩ := readMultiHeader_cut hheader hmissing hdone (.inl header_done)
      exact deserializeMultiLoop_starved hdone hrest
    · rw [readMultiHeader_wire complete_header]
      dsimp only
      obtain ⟨missing, hmissing, hrecord, -⟩ | ⟨rest, rfl, hrest⟩ := Reader.append_cut hpart
      · exact deserializeMultiLoop_refuses hfits (Ne.symm hwanted.1) hrecord hmissing
      · rw [deserializeMultiLoop_cons hfits]
        dsimp only
        obtain ⟨f, hf⟩ := @ih _ (nextRc rc o) _ hwanted.2 hrest header_done
        rw [hf]
        exact ⟨f, rfl⟩

/-- Of the last header only the flag matters. -/
theorem readMultiHeader_last {packet cut : Bytes}
    (h : packet ++ cut = wire (serializeMultiHeader ⟨-1, 1, -1⟩)) (hcut : cut.length ≤ 4) :
    (readMultiHeader mhdr packet).1.done ≠ 0 := by
  have hwire : packet ++ cut = intWire (-1) ++ ([1] ++ intWire (-1)) := h
  have hlen := congrArg List.length hwire
  simp only [List.length_append, length_intWire, List.length_singleton] at hlen
  obtain ⟨missing, -, hint, -⟩ | ⟨part, rfl, hpart⟩ := Reader.append_cut hwire
  · have hshort := congrArg List.length hint
    rw [List.length_append, length_intWire] at hshort
    omega
  · obtain ⟨missing, hmissing, hflag, -⟩ | ⟨part, rfl, -⟩ := Reader.append_cut hpart
    · have hshort := congrArg List.length hflag
      have hpos : 0 < missing.length := List.length_pos_iff.mpr hmissing
      rw [List.length_append, List.length_singleton] at hshort
      rw [List.length_append, length_intWire] at hlen
      omega
    · have hbool : iaDeserializeBool ([1] ++ part) = (.ok 1, part) := decodes_bool (i := 1) (.inr rfl) part
      rw [readMultiHeader, decodes_int]
      dsimp only
      rw [hbool]
      dsimp only
      rcases iaDeserializeInt part with ⟨_ | err, rest⟩ <;> exact (by decide : (1 : Int32) ≠ 0)

end Answers

/-! ## Requests -/

section Requests

variable {zh : Zhandle} {rc : ZooKeeperError} {op : ZooOp} {ops : List ZooOp}
variable {reqs : List SubRequest} {clist : List OpEntry}

theorem requestPathInit_snd {flags : Nat} {path : CStr} :
    (requestPathInit zh flags path).2 = prependString zh.chroot path.bytes := by
  rw [requestPathInit]
  split
  · rfl
  · split <;> rfl

theorem serializeOps_unlisted (h : op.target = none) :
    serializeOps zh rc (op :: ops) = .ok (.unimplemented, [], []) := by
  rw [serializeOps, h]
  rfl

/-- Behind a path that was refused the next one is released without having been set. -/
theorem serializeOps_behind (h : op.target.isSome) (hrc : rc ≠ .noError) :
    serializeOps zh rc (op :: ops) = .error .indeterminate := by
  obtain ⟨target, htarget⟩ := Option.isSome_iff_exists.mp h
  rw [serializeOps, htarget]
  exact if_pos hrc

theorem serializeOps_accepted (ops : List ZooOp) (h : op.Accepted zh) :
    ∃ req, op.serverRecord zh.chroot = some req ∧ serializeOps zh .noError (op :: ops) =
      (serializeOps zh .noError ops).map fun r => (r.1, req :: r.2.1, op.entry :: r.2.2) := by
  obtain ⟨path, flags, htarget, hinit⟩ := h
  have hpath : requestPathInit zh flags path = (.noError, prependString zh.chroot path.bytes) :=
    Prod.ext hinit requestPathInit_snd
  obtain ⟨req, hreq⟩ : ∃ req, op.record (charPtr (prependString zh.chroot path.bytes)) = some req := by
    cases op with
    | unlisted type => cases htarget
    | _ => exact ⟨_, rfl⟩
  have hrecord : op.serverRecord zh.chroot = some req := by
    rw [ZooOp.serverRecord, htarget]
    exact hreq
  refine ⟨req, hrecord, ?_⟩
  rw [serializeOps, htarget]
  dsimp only
  rw [if_neg (not_not.mpr rfl), hpath]
  dsimp only
  rw [hreq]
  cases serializeOps zh .noError ops <;> rfl

theorem serializeOps_refused (ops : List ZooOp) (h : op.Refused zh) :
    ∃ rc, rc ≠ .noError ∧ serializeOps zh .noError (op :: ops) =
      if zh.chroot.isSome then .error .freedTwice
      else (serializeOps zh rc ops).map fun r => (r.1, r.2.1, op.entry :: r.2.2) := by
  obtain ⟨path, flags, htarget, hinit⟩ := h
  rcases hpath : requestPathInit zh flags path with ⟨rc, pathOut⟩
  rw [hpath] at hinit
  refine ⟨rc, hinit, ?_⟩
  rw [serializeOps, htarget]
  dsimp only
  rw [if_neg (not_not.mpr rfl), hpath]
  cases rc with
  | noError => exact absurd rfl hinit
  | _ => rfl

/-- Only operations that can be sent are packed. -/
theorem serializeOps_eq_ok (h : serializeOps zh rc ops = .ok (.noError, reqs, clist)) :
    rc = .noError ∧ clist = ops.map ZooOp.entry ∧ (∀ op ∈ ops, op.Accepted zh) ∧
      reqs.map some = ops.map (ZooOp.serverRecord zh.chroot) := by
  induction ops generalizing rc reqs clist with
  | nil =>
    cases h
    exact ⟨rfl, rfl, by simp, rfl⟩
  | cons op ops ih =>
    by_cases htarget : op.target = none
    · rw [serializeOps_unlisted htarget] at h
      cases h
    obtain rfl : rc = .noError := by
      by_contra hrc
      rw [serializeOps_behind (Option.isSome_iff_ne_none.mpr htarget) hrc] at h
      cases h
    obtain haccepted | hrefused := ZooOp.accepted_or_refused zh htarget
    · obtain ⟨req, hreq, hstep⟩ := serializeOps_accepted ops haccepted
      rw [hstep] at h
      cases hrest : serializeOps zh .noError ops with
      | error f =>
        rw [hrest] at h
        cases h
      | ok r =>
        obtain ⟨rc, reqs, clist⟩ := r
        rw [hrest] at h
        cases h
        obtain ⟨-, rfl, hall, hmap⟩ := ih hrest
        refine ⟨rfl, rfl, List.forall_mem_cons.mpr ⟨haccepted, hall⟩, ?_⟩
        rw [List.map_cons, List.map_cons, hreq, hmap]
    · obtain ⟨rc, hrc, hstep⟩ := serializeOps_refused ops hrefused
      rw [hstep] at h
      by_cases hroot : zh.chroot.isSome
      · rw [if_pos hroot] at h
        cases h
      · rw [if_neg hroot] at h
        cases hrest : serializeOps zh rc ops with
        | error f =>
          rw [hrest] at h
          cases h
        | ok r =>
          obtain ⟨rc, reqs, clist⟩ := r
          rw [hrest] at h
          cases h
          exact absurd (ih hrest).1 hrc

theorem decodes_subRequest [Host] {req : SubRequest} (h : req.Complete) :
    ∃ record, req.serialize = serializeMultiHeader ⟨req.type, 0, -1⟩ ++ record ∧
      (deserializeSubRequest req.type).Decodes (wire record) req := by
  cases req with
  | createOp req => exact ⟨_, rfl, (decodes_createRequest h).bind_pure⟩
  | deleteOp req => exact ⟨_, rfl, (decodes_pathVersion h).bind_pure⟩
  | setDataOp req => exact ⟨_, rfl, (decodes_setDataRequest h).bind_pure⟩
  | checkOp req => exact ⟨_, rfl, (decodes_pathVersion h).bind_pure⟩

theorem decodes_subRequests [Host] {n : Nat} (h : ∀ req ∈ reqs, req.Complete) (hn : reqs.length < n) :
    (deserializeSubRequests n).Decodes
      (wire (reqs.flatMap SubRequest.serialize ++ serializeMultiHeader ⟨-1, 1, -1⟩)) reqs := by
  obtain ⟨n, rfl⟩ : ∃ k, n = k + 1 := ⟨n - 1, by omega⟩
  induction reqs generalizing n with
  | nil =>
    intro rest
    have hend := decodes_multiHeader (v := ⟨-1, 1, -1⟩) (.inr rfl) rest
    rw [deserializeSubRequests, List.flatMap_nil, List.nil_append, Reader.bind_of_ok hend]
    rfl
  | cons req reqs ih =>
    obtain ⟨record, hserialize, hrecord⟩ := decodes_subRequest (h req (by simp))
    rw [List.length_cons] at hn
    obtain ⟨n, rfl⟩ : ∃ k, n = k + 1 := ⟨n - 1, by omega⟩
    have hrest := ih (fun req hreq => h req (List.mem_cons_of_mem _ hreq)) n (by omega)
    rw [deserializeSubRequests, List.flatMap_cons, hserialize, List.append_assoc, List.append_assoc,
      wire_append, wire_append]
    refine (decodes_multiHeader (.inl rfl)).bind ?_
    exact hrecord.bind hrest.bind_pure

theorem zooAmulti_of_ok [Host] {xid : Int32}
    (hser : serializeOps zh .noError ops = .ok (.noError, reqs, clist))
    (hsize : (wire (multiPacket xid reqs)).length ≤ 2 ^ 29) (hopen : zh.closeRequested = false) :
    zooAmulti zh xid ops = .ok (.noError, some (wire (multiPacket xid reqs), clist)) := by
  rw [zooAmulti, hser, Except.ok_bind]
  dsimp only
  rw [if_neg (by decide), if_neg (by decide), packetBytes_of_le hsize, Except.ok_bind, hopen]
  rfl

theorem map_eq_error {α β : Type} {x : Except HandleFault α} {g : α → β} {f : HandleFault} :
    x.map g = .error f ↔ x = .error f := by
  cases x <;> simp [Except.map]

/-- What is not survived in the loop. -/
theorem serializeOps_eq_error {f : HandleFault} : serializeOps zh .noError ops = .error f ↔
    (∃ post, RefusedBefore zh ops post ∧
      (zh.chroot.isSome ∨ ∃ next ∈ post.head?, next.target.isSome)) ∧
      f = if zh.chroot.isSome then .freedTwice else .indeterminate := by
  induction ops with
  | nil =>
    constructor
    · intro h
      cases h
    · rintro ⟨⟨post, hpost, -⟩, -⟩
      cases hpost
  | cons op ops ih =>
    by_cases htarget : op.target = none
    · rw [serializeOps_unlisted htarget]
      constructor
      · intro h
        cases h
      · rintro ⟨⟨post, hpost, -⟩, -⟩
        obtain ⟨path, flags, hsome, -⟩ | ⟨⟨path, flags, hsome, -⟩, -⟩ := hpost
        all_goals
          rw [htarget] at hsome
          cases hsome
    obtain haccepted | hrefused := ZooOp.accepted_or_refused zh htarget
    · obtain ⟨req, -, hstep⟩ := serializeOps_accepted ops haccepted
      have hpost : ∀ post, RefusedBefore zh (op :: ops) post ↔ RefusedBefore zh ops post :=
        fun post => ⟨fun h => by
          obtain hrefused | ⟨-, hrest⟩ := h
          · exact absurd hrefused haccepted.not_refused
          · exact hrest, .accepted haccepted⟩
      rw [hstep, map_eq_error]
      simp only [ih, hpost]
    · obtain ⟨rc, hrc, hstep⟩ := serializeOps_refused ops hrefused
      have hpost : ∀ post, RefusedBefore zh (op :: ops) post ↔ post = ops :=
        fun post => ⟨fun h => by
          obtain - | ⟨haccepted, -⟩ := h
          · rfl
          · exact absurd hrefused haccepted.not_refused, fun h => h ▸ .refused hrefused⟩
      simp only [hpost, exists_eq_left]
      rw [hstep]
      by_cases hroot : zh.chroot.isSome
      · rw [if_pos hroot, if_pos hroot]
        exact ⟨fun h => ⟨.inl hroot, (Except.error.inj h).symm⟩, fun h => congrArg _ h.2.symm⟩
      · rw [if_neg hroot, if_neg hroot, map_eq_error]
        cases ops with
        | nil =>
          refine ⟨fun h => (by cases h), fun h => ?_⟩
          obtain ⟨next, hnext, -⟩ := h.1.resolve_left hroot
          cases hnext
        | cons next ops =>
          constructor
          · intro h
            by_cases hnext : next.target = none
            · rw [serializeOps_unlisted hnext] at h
              cases h
            · have hsome := Option.isSome_iff_ne_none.mpr hnext
              rw [serializeOps_behind hsome hrc] at h
              exact ⟨.inr ⟨next, rfl, hsome⟩, (Except.error.inj h).symm⟩
          · rintro ⟨h, rfl⟩
            obtain ⟨_, hnext, hsome⟩ := h.resolve_left hroot
            obtain rfl := Option.some.inj hnext
            exact serializeOps_behind hsome hrc

end Requests

/-! ## Results -/

section Results

variable {client server : Host} {clist : List OpEntry} {outcomes : List OpOutcome}

theorem deserializeMulti_eq [Host] {rest : Bytes} (hfits : List.Forall₂ OpEntry.Fits clist outcomes)
    (hend : ∀ mhdr, (readMultiHeader mhdr rest).1.done ≠ 0) :
    deserializeMulti (wire (multiResults outcomes) ++ rest) clist =
      .ok (firstError outcomes,
        clist.zipWith (fun entry o => entry.complete ⟨o.err, o.res⟩) outcomes) := by
  have hloop := @deserializeMultiLoop_eq _ ⟨0, 0, 0⟩ 0 rest _ _ hfits hend
  rw [foldl_nextRc, if_pos rfl] at hloop
  exact hloop

/-- Whatever the server is, each operation gets its own outcome, and the multi the first
error there is. -/
theorem multi_answer_delivered (hfits : List.Forall₂ OpEntry.Fits clist outcomes)
    (hsize : (wire (multiAnswer outcomes)).length ≤ 2 ^ 29) :
    ∃ packet, @archiveBytes server (multiAnswer outcomes) = .ok packet ∧
      ∀ rest, @deserializeMulti client (packet ++ rest) clist =
        .ok (firstError outcomes,
          clist.zipWith (fun entry o => entry.complete ⟨o.err, o.res⟩) outcomes) := by
  let _ := server
  refine ⟨_, archiveBytes_of_le hsize, ?_⟩
  let _ := client
  intro rest
  rw [wire_multiAnswer, List.append_assoc]
  exact deserializeMulti_eq hfits fun mhdr => by
    rw [readMultiHeader_wire (.inr rfl)]
    exact (by decide : (1 : Int32) ≠ 0)

variable {zh : Zhandle} {xid : Int32} {ops : List ZooOp}

/-- A multi that was taken is read by the server as the list of its operations, on their
paths behind the chroot, and waits with one completion for each of them. -/
theorem multi_request_received {packet : Bytes}
    (hops : ∀ op ∈ ops, ∀ req, op.serverRecord zh.chroot = some req → req.Complete)
    (h : @zooAmulti client zh xid ops = .ok (.noError, some (packet, clist))) :
    clist = ops.map ZooOp.entry ∧ (∀ op ∈ ops, op.Accepted zh) ∧
      ∃ reqs, reqs.map some = ops.map (ZooOp.serverRecord zh.chroot) ∧ ∀ n rest, ops.length < n →
        ∃ body, @deserializeRequestHeader server (packet ++ rest) = (.ok ⟨xid, 14⟩, body) ∧
          @deserializeSubRequests server n body = (.ok reqs, rest) := by
  let _ := client
  rw [zooAmulti] at h
  obtain ⟨⟨rc, reqs, clist'⟩, hser, h⟩ := Except.bind_eq_ok.mp h
  dsimp only at h
  by_cases hunlisted : rc = .unimplemented
  · rw [if_pos hunlisted] at h
    cases h
  by_cases hrc : rc = .noError
  · subst hrc
    rw [if_neg hunlisted, if_neg (not_not.mpr rfl)] at h
    obtain ⟨packet', hpacket, h⟩ := Except.bind_eq_ok.mp h
    obtain ⟨hwire, -⟩ := packetBytes_eq_ok hpacket
    by_cases hclosed : zh.closeRequested
    · rw [if_pos hclosed] at h
      cases h
    rw [if_neg hclosed] at h
    cases h
    obtain ⟨-, hclist, haccepted, hmap⟩ := serializeOps_eq_ok hser
    refine ⟨hclist, haccepted, reqs, hmap, fun n rest hn => ?_⟩
    have hlen : reqs.length = ops.length := by
      simpa using congrArg List.length hmap
    have hcomplete : ∀ req ∈ reqs, req.Complete := fun req hreq => by
      have hsome : some req ∈ ops.map (ZooOp.serverRecord zh.chroot) :=
        hmap ▸ List.mem_map_of_mem hreq
      obtain ⟨op, hop, hrecord⟩ := List.mem_map.mp hsome
      exact hops op hop req hrecord
    let _ := server
    rw [hwire, multiPacket, wire_append, List.append_assoc]
    exact ⟨_, decodes_requestHeader _, decodes_subRequests hcomplete (by omega) rest⟩
  · rw [if_neg hunlisted, if_pos hrc] at h
    cases h

/-- The code that packs a multi goes wrong exactly behind a path that it has refused: with a
chroot this path is released twice, and without one the path of the next operation is
released which has not been set. -/
theorem multi_refused_iff [Host] {f : HandleFault} :
    zooAmulti zh xid ops = .error f ∧ (∀ e, f ≠ .archive e) ↔
      (∃ post, RefusedBefore zh ops post ∧
        (zh.chroot.isSome ∨ ∃ next ∈ post.head?, next.target.isSome)) ∧
        f = if zh.chroot.isSome then .freedTwice else .indeterminate := by
  rw [← serializeOps_eq_error, zooAmulti]
  cases hser : serializeOps zh .noError ops with
  | error g =>
    obtain ⟨-, hg⟩ := serializeOps_eq_error.mp hser
    have hne : ∀ e, g ≠ .archive e := fun e => by
      rw [hg]
      split <;> exact fun h => (by cases h)
    rw [Except.error_bind, Except.error.injEq, Except.error.injEq]
    exact ⟨fun h => h.1, fun h => ⟨h, h ▸ hne⟩⟩
  | ok r =>
    obtain ⟨rc, reqs, clist⟩ := r
    rw [Except.ok_bind]
    dsimp only
    refine ⟨fun h => ?_, fun h => (by cases h)⟩
    obtain ⟨h, harchive⟩ := h
    split at h
    · cases h
    split at h
    · cases h
    cases hpacket : packetBytes (multiPacket xid reqs) with
    | error g =>
      obtain ⟨e, rfl⟩ := packetBytes_eq_error hpacket
      rw [hpacket] at h
      cases h
      exact absurd rfl (harchive e)
    | ok packet =>
      rw [hpacket, Except.ok_bind] at h
      split at h <;> cases h

end Results

/-- A node is created, and the deletion of another one fails because of a version. -/
theorem multi_answer_delivered_badVersion :
    ∃ packet, @archiveBytes bigHost (multiAnswer [.created nameA, .failed (-103)]) = .ok packet ∧
      ∀ rest, @deserializeMulti littleHost (packet ++ rest) [.string (some 2), .void] =
        .ok (-103, [.string 0 (.text [97]), .void (-103)]) :=
  @multi_answer_delivered littleHost bigHost [.string (some 2), .void] [.created nameA, .failed (-103)]
    (.cons (.inl ⟨_, rfl⟩) (.cons (.inr (.inr ⟨_, rfl⟩)) .nil)) (by decide)

/-- An answer that ends before its last header says that it is the last one is not
survived, and neither is none at all, as is made up for a connection that was lost. The four
bytes behind that flag may be missing without being noticed. So may a stat that nobody has
asked for. -/
theorem multi_cut [Host] {clist : List OpEntry} {outcomes : List OpOutcome} {packet cut : Bytes}
    (hfits : List.Forall₂ OpEntry.Fits clist outcomes)
    (hwanted : .stat false ∉ clist ∨ packet = []) (h : packet ++ cut = wire (multiAnswer outcomes)) :
    (4 < cut.length → ∃ f, deserializeMulti packet clist = .error f) ∧
      (cut.length ≤ 4 → deserializeMulti packet clist =
        .ok (firstError outcomes,
          clist.zipWith (fun entry o => entry.complete ⟨o.err, o.res⟩) outcomes)) := by
  constructor
  · intro hcut
    obtain hwanted | rfl := hwanted
    · exact deserializeMultiLoop_cut hfits hwanted h hcut rfl
    · exact deserializeMultiLoop_starved rfl (Nat.zero_lt_succ _)
  · intro hcut
    rw [wire_multiAnswer] at h
    obtain ⟨missing, -, -, rfl⟩ | ⟨part, rfl, hpart⟩ := Reader.append_cut h
    · rw [List.length_append] at hcut
      have hlen : (wire (serializeMultiHeader ⟨-1, 1, -1⟩)).length = 9 := by decide
      omega
    · exact deserializeMulti_eq hfits fun mhdr => readMultiHeader_last hpart hcut

/-- The answer ends behind the result of the first of two operations. -/
theorem multi_cut_second :
    (∃ f, @deserializeMulti littleHost
      ((wire (multiAnswer [.created nameA, .failed (-103)])).take 20) [.string (some 2), .void] = .error f) :=
  (@multi_cut littleHost [.string (some 2), .void] [.created nameA, .failed (-103)] _
    ((wire (multiAnswer [.created nameA, .failed (-103)])).drop 20)
    (.cons (.inl ⟨_, rfl⟩) (.cons (.inr (.inr ⟨_, rfl⟩)) .nil)) (.inl (by decide))
    (List.take_append_drop 20 _)).1 (by decide)

/-- A handle for the chroot `/a`. -/
def chrootA : Zhandle := (initial 1 10000 0 noPasswd (some [47, 97])).zh

/-- A node is made in the chroot, and its root is deleted. -/
def makeAndDelete : List ZooOp :=
  [.createOp ⟨[47, 99], by decide, by decide⟩ (some dataHi) creatorAcl 0 (some 2),
    .deleteOp rootPath (-1)]

/-- What is sent for this. -/
def sentForBoth : List SubRequest :=
  [.createOp ⟨charPtr [47, 97, 47, 99], some dataHi, creatorAcl, 0⟩,
    .deleteOp ⟨charPtr [47, 97], -1⟩]

theorem multi_request_received_both :
    [.string (some 2), .void] = makeAndDelete.map ZooOp.entry ∧
      (∀ op ∈ makeAndDelete, op.Accepted chrootA) ∧
      ∃ reqs, reqs.map some = makeAndDelete.map (ZooOp.serverRecord (some [47, 97])) ∧
        ∀ n rest, 2 < n → ∃ body,
          @deserializeRequestHeader bigHost (wire (multiPacket 7 sentForBoth) ++ rest) =
            (.ok ⟨7, 14⟩, body) ∧
          @deserializeSubRequests bigHost n body = (.ok reqs, rest) :=
  @multi_request_received littleHost bigHost [.string (some 2), .void] chrootA 7 makeAndDelete
    (wire (multiPacket 7 sentForBoth))
    (List.forall_mem_cons.mpr ⟨fun req hreq => by
        obtain rfl := Option.some.inj hreq
        exact ⟨rfl, List.forall_mem_singleton.mpr ⟨rfl, rfl⟩⟩,
      List.forall_mem_singleton.mpr fun req hreq => by
        obtain rfl := Option.some.inj hreq
        rfl⟩)
    (@zooAmulti_of_ok chrootA makeAndDelete sentForBoth _ littleHost 7 rfl (by decide) rfl)

end Client

end QtZooKeeper
