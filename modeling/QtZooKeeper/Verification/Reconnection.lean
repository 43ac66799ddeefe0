-- SUMMARY: Behind every handshake the credentials and the watches go before the requests that wait.
import QtZooKeeper.Verification.WatcherCalls

/-!
# Reconnection

A server that the client comes to after a loss knows nothing of its watches, and nothing of
its credentials. The end of the handshake puts both in front of the packets that have been
queued since the loss. A server of any byte order reads them as what they are, since the
keys of the watch tables are C strings (`Keyed`).
-/

namespace QtZooKeeper

namespace Client

/-- A server reads the packets as these requests. -/
def ReadAs (packets : List Bytes) (requests : List (RequestHeader × RequestBody)) : Prop :=
  ∀ server : Host, packets.map (fun p => (@deserializeRequest server p).1) = requests.map .ok

/-- The record lists the watched paths, and asks for all that has happened there since the
last transaction that the client has seen. -/
structure Rearms (zh : Zhandle) (req : SetWatches) : Prop where
  relativeZxid : req.relativeZxid = zh.lastZxid
  dataWatches : req.dataWatches.data.map (·.map CStr.bytes) =
    (zh.watches .activeNodeWatchers).keys.map some
  existWatches : req.existWatches.data.map (·.map CStr.bytes) =
    (zh.watches .activeExistWatchers).keys.map some
  childWatches : req.childWatches.data.map (·.map CStr.bytes) =
    (zh.watches .activeChildWatchers).keys.map some

/-! ## Keys -/

/-- The watched paths are C strings. -/
def Keyed (c : Client) : Prop := ∀ t, ∀ key ∈ (c.zh.watches t).keys, ∃ path : CStr, path.bytes = key

section Keys

variable {zh : WatchTables} {t : WatchTable} {ts : List WatchTable} {path key : Bytes}
variable {list : WatcherList} {wo : WatcherObject} {reg : Option WatcherRegistration} {rc type : Int32}

theorem mem_keys_insertWatcherObject {ht : ZkHashtable}
    (h : key ∈ (insertWatcherObject ht path wo).keys) : key = path ∨ key ∈ ht.keys := by
  unfold insertWatcherObject at h
  split at h <;> exact AList.mem_insert _ |>.mp h

theorem mem_keys_addForEvent {ht : ZkHashtable} (h : key ∈ (addForEvent ht path list).2.keys) :
    key ∈ ht.keys := by
  unfold addForEvent at h
  split at h
  · exact h
  · exact (AList.mem_erase.mp h).2

theorem mem_keys_moveWatchers (h : key ∈ ((moveWatchers path ts (list, zh)).2 t).keys) :
    key ∈ (zh t).keys := by
  induction ts generalizing list zh with
  | nil => exact h
  | cons t' ts ih =>
    have h := ih h
    by_cases ht : t = t'
    · subst ht
      rw [Function.update_self] at h
      exact mem_keys_addForEvent h
    · rwa [Function.update_of_ne ht] at h

theorem mem_keys_watchersFor (h : key ∈ ((watchersFor type path zh).2 t).keys) : key ∈ (zh t).keys := by
  rw [watchersFor] at h
  split at h
  · rw [collectWatchers] at h
    split at h
    · exact h
    · exact mem_keys_moveWatchers h
  · exact h

theorem keyed_activate (h : ∀ key ∈ (zh t).keys, ∃ path : CStr, path.bytes = key) :
    ∀ key ∈ (activate reg rc zh t).keys, ∃ path : CStr, path.bytes = key := by
  cases reg with
  | none => exact h
  | some reg =>
    unfold activate activateWatcher
    dsimp only
    cases reg.checker.table rc.toInt with
    | none => exact h
    | some t' =>
      dsimp only
      intro key hkey
      by_cases ht : t = t'
      · subst ht
        rw [Function.update_self] at hkey
        obtain rfl | hkey := mem_keys_insertWatcherObject hkey
        · exact ⟨reg.path, rfl⟩
        · exact h key hkey
      · rw [Function.update_of_ne ht] at hkey
        exact h key hkey

variable [Host] {ordered : Prop} {c c' : Client}

theorem Move.keyed (h : Move ordered c c') (hk : Keyed c) : Keyed c' := by
  cases h with
  | @accept e packet hopen htype hxid hpacket hgood =>
    rw [addCompletion, if_neg (by simp [hopen])]
    exact hk
  | reset hdisturbed hfd hrun hstate hprimer hrc =>
    rw [hdisturbed, handleError_eq]
    exact hk
  | @receive r₁ r₂ b down hfd hrun hrecv =>
    cases hib : c.zh.inputBuffer with
    | primer =>
      rw [setInBuffer_primer hib]
      exact hk
    | null | packet b' =>
      rw [setInBuffer_packet (by simp [hib])]
      exact hk
  | event hfirst hxid hevt hpath => exact fun t key hkey => hk t key (mem_keys_watchersFor hkey)
  | authAnswer hfirst hxid hauths => split <;> exact hk
  | answerAsync htaken heq hsync => exact fun t => keyed_activate (hk t)
  | answerSync halive htaken heq hsync hread => exact fun t => keyed_activate (hk t)
  | freeOnClose hclose =>
    rw [freeOnClose_eq]
    exact hk
  | destroy hfreed hidle =>
    rw [destroy_eq]
    exact fun t => List.forall_mem_nil _
  | server henabled hgood hstep hserver =>
    rw [step_server hstep hserver]
    exact hk
  | addAuth | sendAuth | ping | rewind | openSocket | connecting | prime | flush | receivePacket
  | handshake | skip | take | deliverEvent | deliverNothing | deliverAnswer | requestClose
  | peer => exact hk

end Keys

/-! ## Packets -/

section Packets

variable [Host] {zh : Zhandle} {ht : ZkHashtable} {v : StringVector} {packets : List Bytes}
variable {auths : List AuthInfo}

omit [Host] in
/-- The keys of a table are all there, as they are. -/
theorem collectKeys_eq_ok (h : collectKeys ht = .ok v)
    (hk : ∀ key ∈ ht.keys, ∃ path : CStr, path.bytes = key) :
    v.Complete ∧ v.data.map (·.map CStr.bytes) = ht.keys.map some ∧ (v.count = 0 ↔ ht.keys = []) := by
  have hkey : ∀ key ∈ ht.keys, ∃ path : CStr, charPtr key = some path ∧ path.bytes = key := by
    intro key hmem
    obtain ⟨path, rfl⟩ := hk key hmem
    exact ⟨path, dif_pos ⟨path.noZero, path.length_lt⟩, rfl⟩
  rw [collectKeys] at h
  split at h
  · next hlt =>
    have hcount : Int32.ofNat (ht.keys.map charPtr).length = 0 ↔ ht.keys = [] := by
      rw [← Int32.toInt_inj, Int32.toInt_ofNat_of_lt hlt, List.length_map, ← List.length_eq_zero_iff]
      exact Int.natCast_eq_zero
    cases h
    refine ⟨?_, ?_, hcount⟩
    · intro s hs
      obtain ⟨key, hmem, rfl⟩ := List.mem_map.mp hs
      obtain ⟨path, hpath, -⟩ := hkey key hmem
      rw [hpath]
      rfl
    · rw [List.map_map]
      refine List.map_congr_left fun key hmem => ?_
      obtain ⟨path, hpath, hbytes⟩ := hkey key hmem
      rw [Function.comp_apply, hpath, ← hbytes]
      rfl
  · cases h

/-- What goes to the server for the watches. -/
theorem readAs_setWatchesPackets (h : setWatchesPackets zh = .ok packets)
    (hk : ∀ t, ∀ key ∈ (zh.watches t).keys, ∃ path : CStr, path.bytes = key) :
    (packets = [] ∧ ∀ t, (zh.watches t).keys = []) ∨
      ∃ req, ReadAs packets [(⟨setWatchesXid, 101⟩, .setWatchesOp req)] ∧ Rearms zh req := by
  obtain ⟨req, hreq, h⟩ := Except.bind_eq_ok.mp h
  obtain ⟨dataWatches, hdata, hreq⟩ := Except.bind_eq_ok.mp hreq
  obtain ⟨existWatches, hexist, hreq⟩ := Except.bind_eq_ok.mp hreq
  obtain ⟨childWatches, hchild, hreq⟩ := Except.bind_eq_ok.mp hreq
  cases hreq
  obtain ⟨hcdata, hkdata, hndata⟩ := collectKeys_eq_ok hdata (hk _)
  obtain ⟨hcexist, hkexist, hnexist⟩ := collectKeys_eq_ok hexist (hk _)
  obtain ⟨hcchild, hkchild, hnchild⟩ := collectKeys_eq_ok hchild (hk _)
  split at h
  · next hnone =>
    cases h
    refine .inl ⟨rfl, fun t => ?_⟩
    cases t with
    | activeNodeWatchers => exact hndata.mp hnone.1
    | activeExistWatchers => exact hnexist.mp hnone.2.1
    | activeChildWatchers => exact hnchild.mp hnone.2.2
  · obtain ⟨packet, hpacket, h⟩ := Except.bind_eq_ok.mp h
    cases h
    obtain ⟨rfl, -⟩ := packetBytes_eq_ok hpacket
    refine .inr ⟨⟨zh.lastZxid, dataWatches, existWatches, childWatches⟩, fun server => ?_,
      ⟨rfl, hkdata, hkexist, hkchild⟩⟩
    have hread := @decodes_request server setWatchesXid
      (.setWatchesOp ⟨zh.lastZxid, dataWatches, existWatches, childWatches⟩) ⟨hcdata, hcexist, hcchild⟩
    exact congrArg ([·.1]) hread.eq_nil

/-- The packet of `send_info_packet`, as it is on the wire. -/
theorem authPackets_eq (h : auths.mapM authPacket = .ok packets) :
    packets = auths.map fun a => wire (requestPacket authXid (.setAuthOp ⟨0, some a.scheme, a.auth⟩)) := by
  induction auths generalizing packets with
  | nil =>
    cases h
    rfl
  | cons auth auths ih =>
    rw [List.mapM_cons] at h
    obtain ⟨packet, hpacket, h⟩ := Except.bind_eq_ok.mp h
    obtain ⟨rest, hrest, h⟩ := Except.bind_eq_ok.mp h
    cases h
    rw [ih hrest, (packetBytes_eq_ok hpacket).1, List.map_cons]

/-- What goes to the server for the authentications. -/
theorem readAs_authPackets (h : auths.mapM authPacket = .ok packets) :
    ReadAs packets (auths.map fun a => (⟨authXid, 100⟩, .setAuthOp ⟨0, some a.scheme, a.auth⟩)) := by
  have hpackets := authPackets_eq h
  intro server
  rw [hpackets, List.map_map, List.map_map]
  refine List.map_congr_left fun a _ => ?_
  have hread := @decodes_request server authXid (.setAuthOp ⟨0, some a.scheme, a.auth⟩) rfl
  exact congrArg (·.1) hread.eq_nil

end Packets

/-! ## Steps that bring a session up -/

section Steps

variable [Host] {c c' : Client} {rc : ZooKeeperError} {r : ZooKeeperError × Client}

omit [Host] in
theorem handleError_down : (handleError rc c).zh.state ≠ .connected := by
  rw [handleError_eq]
  dsimp only
  split
  · next hover => exact (live_of_isUnrecoverable hover).2.2
  · simp

theorem primeConnection_down {r₁ r₂ : SendResult} : (primeConnection r₁ r₂ c).2.zh.state ≠ .connected := by
  rw [primeConnection]
  split
  · exact handleError_down
  · split
    · exact handleError_down
    · simp

/-- Only the last byte of the connect response brings a session up. -/
theorem checkEvents_up {env : EventEnv} (h : checkEvents env c = .ok r) (hdown : c.zh.state ≠ .connected)
    (hup : r.2.zh.state = .connected) :
    ∃ b down, finishHandshake { c with zh.primerBuffer := b, socket.down := down } = .ok r := by
  rw [checkEvents] at h
  split at h
  · cases h
    exact absurd hup hdown
  · split at h
    · split at h <;> cases h
      · exact absurd hup primeConnection_down
      · exact absurd hup handleError_down
    · rw [if_neg fun h => hdown h.2] at h
      dsimp only at h
      rw [if_neg (by simp), List.append_nil] at h
      split at h
      · rw [readEvents] at h
        split at h
        · cases h
          exact absurd hup handleError_down
        · cases h
          cases hib : c.zh.inputBuffer <;> simp [setInBuffer, hib, hdown] at hup
        · next b down hrecv =>
          dsimp only at h
          cases hib : c.zh.inputBuffer with
          | primer =>
            rw [setInBuffer_primer hib] at h
            split at h
            · exact ⟨b, down, h⟩
            · next hnull => simp [hib] at hnull
            · next hpacket => simp [hib] at hpacket
          | null | packet b' =>
            rw [setInBuffer_packet (by simp [hib])] at h
            cases h
            exact absurd hup hdown
      · cases h
        exact absurd hup hdown

theorem submit_down {e : CompletionEntry} (h : submit e c = .ok r) : r.2.zh.state = c.zh.state := by
  obtain ⟨packet, -, h⟩ := Except.bind_eq_ok.mp h
  rw [addCompletion] at h
  split at h
  · next hadd =>
    split at hadd <;> cases hadd
    cases h
    rfl
  · next hadd =>
    split at hadd <;> cases hadd <;> cases h <;> rfl

theorem zooAddAuth_down {auth : AuthInfo} (h : zooAddAuth auth c = .ok r) :
    r.2.zh.state = c.zh.state := by
  rw [zooAddAuth] at h
  split at h
  · cases h
    rfl
  · split at h
    · cases h
      rfl
    · dsimp only at h
      split at h
      · obtain ⟨c', hsend, h⟩ := Except.bind_eq_ok.mp h
        cases h
        rw [sendLastAuthInfo, List.getLast?_concat] at hsend
        obtain ⟨packet, -, hsend⟩ := Except.bind_eq_ok.mp hsend
        cases hsend
        rfl
      · cases h
        rfl

omit [Host] in
theorem keepAlive_down {env : InterestEnv} (hdown : c.zh.state ≠ .connected) :
    (keepAlive env c).2.zh.state ≠ .connected := by
  rw [keepAlive]
  split
  · exact handleError_down
  · rw [if_neg fun h => hdown h.1]
    exact hdown

theorem openConnection_down {env : InterestEnv} (hdown : c.zh.state ≠ .connected) :
    (openConnection env c).2.zh.state ≠ .connected := by
  rw [openConnection]
  split
  · exact hdown
  · dsimp only
    split
    · split
      · exact handleError_down
      · simp
      · exact primeConnection_down
    · exact handleError_down

theorem zookeeperInterest_down {env : InterestEnv} (hdown : c.zh.state ≠ .connected) :
    (zookeeperInterest env c).2.zh.state ≠ .connected := by
  have hopen : (if c.zh.fd then (.noError, c) else openConnection env c).2.zh.state ≠ .connected := by
    split
    · exact hdown
    · exact openConnection_down hdown
  rw [zookeeperInterest]
  split
  · exact hdown
  · split
    · next heq =>
      rw [heq] at hopen
      split
      · exact keepAlive_down hopen
      · exact hopen
    · next heq =>
      rw [heq] at hopen
      exact hopen

theorem settleAnswer_down (hdown : c.zh.state ≠ .connected) (h : settleAnswer c = .ok c') :
    c'.zh.state ≠ .connected := by
  rw [settleAnswer] at h
  split at h
  · cases h
    exact hdown
  · dsimp only at h
    split at h
    · cases h
      exact handleError_down
    · split at h
      · obtain ⟨r, -, h⟩ := Except.bind_eq_ok.mp h
        cases h
        exact hdown
      · cases h
        exact hdown

omit [Host] in
theorem authCompletionFunc_down {rc : Int32} (hdown : c.zh.state ≠ .connected)
    (h : authCompletionFunc rc c = .ok c') : c'.zh.state ≠ .connected := by
  obtain ⟨-, ⟨-, rfl⟩ | ⟨-, rfl⟩⟩ := authCompletionFunc_eq_ok h
  · exact hdown
  · exact fun h => by cases h

theorem processPacket_down {behind : Bytes} (hdown : c.zh.state ≠ .connected)
    (h : processPacket behind c = .ok c') : c'.zh.state ≠ .connected := by
  rw [processPacket] at h
  split at h
  · cases h
    exact hdown
  · next packet toProcess hpackets =>
    obtain ⟨⟨hdr, rest⟩, -, h⟩ := Except.bind_eq_ok.mp h
    dsimp only at h
    rw [takePacket_eq] at h
    split at h
    · cases h
      exact hdown
    · split at h
      · obtain ⟨⟨evt, rest'⟩, -, h⟩ := Except.bind_eq_ok.mp h
        dsimp only at h
        split at h <;> cases h
        exact hdown
      · split at h
        · cases h
          exact hdown
        · split at h
          · obtain ⟨c₁, hcalled, h⟩ := Except.bind_eq_ok.mp h
            have hdown : (takePacket toProcess hdr.zxid c).zh.state ≠ .connected := hdown
            split at h
            · cases h
              exact handleError_down
            · cases h
              exact authCompletionFunc_down hdown hcalled
          · split at h
            · split at h <;> cases h
              exact hdown
            · cases h
              exact hdown

theorem processCompletion_down (h : processCompletion c = .ok c') : c'.zh.state = c.zh.state := by
  rw [processCompletion] at h
  split at h
  · cases h
    rfl
  · obtain ⟨⟨hdr, rest⟩, -, h⟩ := Except.bind_eq_ok.mp h
    dsimp only at h
    split at h
    · obtain ⟨⟨a, rest'⟩, -, h⟩ := Except.bind_eq_ok.mp h
      cases h
      rfl
    · split at h
      · cases h
        rfl
      · obtain ⟨⟨a, rest'⟩, -, h⟩ := Except.bind_eq_ok.mp h
        cases h
        rfl

/-- A session comes up where the IO thread looks at events. -/
theorem step_up {l : ClientLabel} (h : step l c = .ok c') (hdown : c.zh.state ≠ .connected)
    (hup : c'.zh.state = .connected) : ∃ env r, checkEvents env c = .ok r ∧ c' = r.2 := by
  cases l with
  | submit e =>
    obtain ⟨r, hr, rfl⟩ := Except.map_eq_ok.mp h
    exact absurd (submit_down hr ▸ hup) hdown
  | addAuth auth =>
    obtain ⟨r, hr, rfl⟩ := Except.map_eq_ok.mp h
    exact absurd (zooAddAuth_down hr ▸ hup) hdown
  | interest env =>
    cases h
    exact absurd hup (zookeeperInterest_down hdown)
  | events env =>
    obtain ⟨r, hr, rfl⟩ := Except.map_eq_ok.mp h
    exact ⟨env, r, hr, rfl⟩
  | process behind => exact absurd hup (processPacket_down hdown h)
  | settle => exact absurd hup (settleAnswer_down hdown h)
  | deliver => exact absurd (processCompletion_down h ▸ hup) hdown
  | freeOnClose =>
    cases h
    rw [freeOnClose_eq] at hup
    exact absurd hup hdown
  | destroy xid io =>
    cases h
    rw [destroy_sendClose, destroy_eq] at hup
    dsimp only at hup
    split at hup
    · cases hup
    · exact absurd hup hdown
  | serverAnswers zxid err res =>
    rw [step_server h trivial] at hup
    exact absurd hup hdown
  | requestClose | peerReads _ | peerSends _ | serverGreets _ | serverReads _ _ _ | serverNotifies _ _ =>
    cases h
    exact absurd hup hdown

end Steps

/-! ## Runs -/

section Runs

variable [Host] {ordered : Prop} {addrsCount : Nat} {recvTimeout : Int32} {clientId : Int64}
variable {passwd : Passwd} {chroot : Option Bytes} {c c' : Client}

theorem keyed_of_reachable
    (h : (clientSystem ordered addrsCount recvTimeout clientId passwd chroot).Reachable c) : Keyed c :=
  reachable_of_moves (fun _ => List.forall_mem_nil _) (fun _ _ _ hk hmove => hmove.keyed hk) h

/-- Whenever a session comes up, on a first connection or again, the queue begins with a
packet for each authentication, the last one first, and one that arms the watches of the
three tables if there are any. A server of any byte order reads them as that. The requests
that were queued follow. -/
theorem reconnect_restores {l : ClientLabel}
    (h : (clientSystem ordered addrsCount recvTimeout clientId passwd chroot).Reachable c)
    (hstep : step l c = .ok c') (hdown : c.zh.state ≠ .connected) (hup : c'.zh.state = .connected) :
    ∃ credentials watches,
      c'.zh.toSend = (credentials ++ watches).map (⟨·, 0⟩) ++ c.zh.toSend ∧
      ReadAs credentials
        (c.zh.auths.reverse.map fun a => (⟨authXid, 100⟩, .setAuthOp ⟨0, some a.scheme, a.auth⟩)) ∧
      ((watches = [] ∧ ∀ t, (c.zh.watches t).keys = []) ∨
        ∃ req, ReadAs watches [(⟨setWatchesXid, 101⟩, .setWatchesOp req)] ∧ Rearms c.zh req) ∧
      c'.zh.watches = c.zh.watches ∧ c'.zh.sentRequests = c.zh.sentRequests := by
  obtain ⟨env, r, hr, rfl⟩ := step_up hstep hdown hup
  obtain ⟨b, down, hr⟩ := checkEvents_up hr hdown hup
  obtain ⟨-, rfl⟩ | ⟨-, auths, watches, hauths, hwatches, rfl⟩ := finishHandshake_eq_ok hr
  · exact absurd hup handleError_down
  · have hread := readAs_authPackets hauths
    refine ⟨auths.reverse, watches, rfl, fun server => ?_,
      readAs_setWatchesPackets hwatches (keyed_of_reachable h), rfl, rfl⟩
    rw [List.map_reverse, hread server, List.map_reverse, List.map_reverse]

set_option maxRecDepth 4000 in
omit [Host] in
/-- The second session of a client with a watch, two authentications, and a request that
was made without a connection. -/
theorem reachable_lost :
    ∃ c c', (@clientSystem littleHost True 2 10000 0 noPasswd none).Reachable c ∧
      @step littleHost (.events readEnv) c = .ok c' ∧
      c.zh.auths.map (·.scheme) = [digestAuth.scheme, worldAuth.scheme] ∧
      (c.zh.watches .activeExistWatchers).keys = [rootPath.bytes] ∧
      c.zh.toSend = [⟨wire (requestPacket 6 (syncRequest 6 false).body), 0⟩] ∧
      c.zh.state = .assoctating ∧ c'.zh.state = .connected := by
  have hinit : (@clientSystem littleHost True 2 10000 0 noPasswd none).Reachable
      (initial 2 10000 0 noPasswd none) := ⟨[], .nil⟩
  have hsubmit := @reachable_submit littleHost _ _ _ _ _ _ _ existsRequest hinit rfl rfl
    (by decide) (fun _ => ⟨⟨rfl, .inr rfl⟩, by decide⟩) (by decide) rfl
  have hopen := hsubmit.step (l := ClientLabel.interest connectEnv)
    ⟨⟨rfl, rfl⟩, fun _ => ⟨Nat.le_refl 4, Nat.le_refl 44⟩⟩ rfl
  have hgreet := hopen.step (l := ClientLabel.serverGreets session7)
    ⟨⟨rfl, rfl, rfl, by decide, rfl⟩, fun _ => trivial⟩ rfl
  have hconnected := hgreet.step (l := ClientLabel.events readEnv)
    ⟨⟨rfl, rfl, rfl⟩, fun _ => ⟨trivial, trivial⟩⟩ rfl
  have hflush := hconnected.step (l := ClientLabel.events writeEnv)
    ⟨⟨rfl, rfl, rfl⟩, fun _ => ⟨trivial, trivial⟩⟩ rfl
  have hread := hflush.step
    (l := ClientLabel.serverReads (wire (requestPacket 5 existsRequest.body)) ⟨5, 3⟩ existsRequest.body)
    ⟨⟨rfl, rfl, rfl, by decide, ⟨[], rfl⟩, rfl⟩, fun _ => trivial⟩ rfl
  have hanswer := hread.step
    (l := ClientLabel.serverAnswers 40 (-101) (.stat ⟨0, 0, 0, 0, 0, 0, 0, 0, 0, 0, 0⟩))
    ⟨⟨rfl, rfl, _, rfl, rfl, trivial, by decide⟩, fun _ => trivial⟩ rfl
  have hreceive := hanswer.step (l := ClientLabel.events readEnv)
    ⟨⟨rfl, rfl, rfl⟩, fun _ => ⟨trivial, trivial⟩⟩ rfl
  have htake := hreceive.step (l := ClientLabel.process []) ⟨⟨rfl, rfl⟩, fun _ => trivial⟩ rfl
  have harmed := htake.step (l := ClientLabel.settle) ⟨⟨rfl, nofun⟩, fun _ => trivial⟩ rfl
  have hdigest := harmed.step (l := ClientLabel.addAuth digestAuth)
    ⟨⟨rfl, trivial⟩, fun _ _ h => by cases h⟩ rfl
  have hworld := hdigest.step (l := ClientLabel.addAuth worldAuth)
    ⟨⟨rfl, trivial⟩, fun _ _ h => by cases h; rfl⟩ rfl
  have hlost := hworld.step (l := ClientLabel.interest lateEnv)
    ⟨⟨rfl, rfl⟩, fun _ => ⟨trivial, trivial⟩⟩ rfl
  have hsync := @reachable_submit littleHost _ _ _ _ _ _ _ (syncRequest 6 false) hlost rfl rfl
    (by decide) (fun _ => ⟨rfl, by decide⟩) (by decide) rfl
  have hreopen := hsync.step (l := ClientLabel.interest connectEnv)
    ⟨⟨rfl, rfl⟩, fun _ => ⟨Nat.le_refl 4, Nat.le_refl 44⟩⟩ rfl
  have hagain := hreopen.step (l := ClientLabel.serverGreets session7)
    ⟨⟨rfl, rfl, rfl, by decide, rfl⟩, fun _ => trivial⟩ rfl
  exact ⟨_, _, hagain, rfl, rfl, rfl, rfl, rfl, rfl⟩

omit [Host] in
theorem reconnect_restores_digest :
    ∃ c c' : Client, c.zh.auths.map (·.scheme) = [digestAuth.scheme, worldAuth.scheme] ∧
      (c.zh.watches .activeExistWatchers).keys = [rootPath.bytes] ∧
      c.zh.toSend = [⟨wire (requestPacket 6 (syncRequest 6 false).body), 0⟩] ∧
      c'.zh.state = .connected ∧ ∃ credentials watches,
      c'.zh.toSend = (credentials ++ watches).map (⟨·, 0⟩) ++ c.zh.toSend ∧
      ReadAs credentials
        (c.zh.auths.reverse.map fun a => (⟨authXid, 100⟩, .setAuthOp ⟨0, some a.scheme, a.auth⟩)) ∧
      ((watches = [] ∧ ∀ t, (c.zh.watches t).keys = []) ∨
        ∃ req, ReadAs watches [(⟨setWatchesXid, 101⟩, .setWatchesOp req)] ∧ Rearms c.zh req) ∧
      c'.zh.watches = c.zh.watches ∧ c'.zh.sentRequests = c.zh.sentRequests := by
  obtain ⟨c, c', hc, hstep, hauths, hkeys, hsend, hdown, hup⟩ := reachable_lost
  exact ⟨c, c', hauths, hkeys, hsend, hup,
    @reconnect_restores littleHost _ _ _ _ _ _ _ _ _ hc hstep (by simp [hdown]) hup⟩

end Runs

end Client

end QtZooKeeper
