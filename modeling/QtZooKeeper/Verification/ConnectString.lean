-- SUMMARY: What connect strings zookeeper_init accepts, and that it gets all the addresses of all the servers, each once.
import QtZooKeeper.Client.Addresses
import Mathlib.Data.List.Forall2

/-!
# Connect strings

A connect string is accepted exactly when all its servers have a port that is a number
other than zero, all of them can be looked up, and the chroot behind them is a path
(`connect_string_accepted_iff`). The handle then has the addresses of all servers, shuffled.
A list of servers that is written in the usual way is read back as it was written
(`connect_string_read`), whatever colons there are in the names of the hosts.
-/

universe u

namespace QtZooKeeper

/-! ## Writing connect strings -/

/-- A host and its port. -/
def ofServer (s : Bytes × Bytes) : Bytes := s.1 ++ colon :: s.2

/-- The servers, with commas between them. -/
def ofServers : List (Bytes × Bytes) → Bytes
  | [] => []
  | [s] => ofServer s
  | s :: s' :: servers => ofServer s ++ comma :: ofServers (s' :: servers)

/-- A server that can be written. Its host may have colons in it. -/
structure IsServer (s : Bytes × Bytes) : Prop where
  comma_notMem : comma ∉ ofServer s
  slash_notMem : slash ∉ ofServer s
  colon_notMem : colon ∉ s.2
  noSpace : s.1.dropWhile isSpace = s.1
  port : isPort s.2 = true

/-! ## Reading them -/

section

variable {s : Bytes × Bytes} {servers : List (Bytes × Bytes)} {token text rest : Bytes}

theorem strrchr_ofServer (h : colon ∉ s.2) : strrchr (ofServer s) = some s := by
  have hall : ∀ c ∈ s.2.reverse, decide (c ≠ colon) = true := fun c hc => by
    rw [List.mem_reverse] at hc
    exact decide_eq_true fun heq => h (heq ▸ hc)
  have hreverse : (ofServer s).reverse = s.2.reverse ++ colon :: s.1.reverse := by
    simp [ofServer]
  have hstop : (colon :: s.1.reverse).dropWhile (· ≠ colon) = colon :: s.1.reverse := by
    simp
  have hnone : (colon :: s.1.reverse).takeWhile (· ≠ colon) = [] := by
    simp
  rw [strrchr, hreverse, List.dropWhile_append_of_pos hall, hstop]
  dsimp only
  rw [List.takeWhile_append_of_pos hall, hnone, List.append_nil, List.reverse_reverse,
    List.reverse_reverse]

theorem strrchr_eq_some {p : Bytes × Bytes} (h : strrchr token = some p) :
    token = ofServer p ∧ colon ∉ p.2 := by
  have hsplit := List.takeWhile_append_dropWhile (p := (· ≠ colon)) (l := token.reverse)
  have hhead := List.head?_dropWhile_not (· ≠ colon) token.reverse
  rw [strrchr] at h
  split at h
  · cases h
  · next c host hdrop =>
    obtain rfl := Option.some.inj h
    rw [hdrop] at hsplit hhead
    have hc : c = colon := by simpa using hhead
    refine ⟨?_, fun hmem => ?_⟩
    · have htoken := congrArg List.reverse hsplit
      rw [List.reverse_reverse, hc] at htoken
      exact htoken.symm.trans (by simp [ofServer])
    · rw [List.mem_reverse] at hmem
      have hne := List.mem_takeWhile_imp hmem
      simp at hne

/-- The token is a server: what is in front of its last colon is the host, but for spaces, and
what is behind it is a port. -/
def Reads (token : Bytes) (s : Bytes × Bytes) : Prop :=
  ∃ host, token = host ++ colon :: s.2 ∧ s.1 = host.dropWhile isSpace ∧ colon ∉ s.2 ∧ isPort s.2 = true

theorem parseServer_eq_ok : parseServer token = .ok s ↔ Reads token s := by
  constructor
  · intro h
    rw [parseServer] at h
    cases hsplit : strrchr token with
    | none =>
      rw [hsplit] at h
      cases h
    | some p =>
      obtain ⟨htoken, hcolon⟩ := strrchr_eq_some hsplit
      rw [hsplit] at h
      dsimp only at h
      split at h
      · next hport =>
        obtain rfl := Except.ok.inj h
        exact ⟨p.1, htoken, rfl, hcolon, hport⟩
      · cases h
  · rintro ⟨host, rfl, hhost, hcolon, hport⟩
    have hsplit : strrchr (host ++ colon :: s.2) = some (host, s.2) :=
      strrchr_ofServer (s := (host, s.2)) hcolon
    rw [parseServer, hsplit]
    dsimp only
    rw [if_pos hport, ← hhost]

theorem reads_ofServer (h : IsServer s) : Reads (ofServer s) s :=
  ⟨s.1, rfl, h.noSpace.symm, h.colon_notMem, h.port⟩

theorem strtok_append (h : comma ∉ text) : strtok token (text ++ rest) = strtok (token ++ text) rest := by
  induction text generalizing token with
  | nil => rw [List.nil_append, List.append_nil]
  | cons c text ih =>
    rw [List.mem_cons, not_or] at h
    rw [List.cons_append, strtok, if_neg (Ne.symm h.1), ih h.2, List.append_assoc]
    rfl

theorem ofServer_ne_nil : ofServer s ≠ [] := by
  simp [ofServer]

/-- The tokens of a list of servers are the servers. -/
theorem strtok_ofServers (h : ∀ s ∈ servers, comma ∉ ofServer s) :
    strtok [] (ofServers servers) = servers.map ofServer := by
  induction servers with
  | nil => rfl
  | cons s servers ih =>
    have hs := h s (by simp)
    cases servers with
    | nil =>
      have htoken : strtok [] (ofServer s ++ []) = strtok ([] ++ ofServer s) [] := strtok_append hs
      rw [List.append_nil, List.nil_append] at htoken
      rw [ofServers, htoken, strtok, if_neg ofServer_ne_nil]
      rfl
    | cons s' servers =>
      rw [ofServers, strtok_append hs, List.nil_append, strtok, if_pos rfl, if_neg ofServer_ne_nil,
        ih fun s hs => h s (by simp [hs])]
      rfl

theorem ofServers_ne_nil : ofServers (s :: servers) ≠ [] := by
  cases servers <;> simp [ofServers, ofServer]

theorem slash_notMem_ofServers (h : ∀ s ∈ servers, slash ∉ ofServer s) : slash ∉ ofServers servers := by
  induction servers with
  | nil => exact List.not_mem_nil
  | cons s servers ih =>
    have hs := h s (by simp)
    cases servers with
    | nil => exact hs
    | cons s' servers =>
      rw [ofServers, List.mem_append, List.mem_cons, not_or, not_or]
      exact ⟨hs, by decide, ih fun s hs => h s (by simp [hs])⟩

end

/-! ## Addresses -/

section

variable {α : Type u} {getaddrinfo : Bytes → Bytes → Option (List α)} {inet : α → Bool}
variable {random : Nat → Nat} {disableConnPermute : Bool}
variable {tokens : List Bytes} {addrs : List α} {host : Bytes} {servers : List (Bytes × Bytes)}

/-- The addresses of a server that are copied. -/
def addressesOf (getaddrinfo : Bytes → Bytes → Option (List α)) (inet : α → Bool) (s : Bytes × Bytes) :
    List α := ((getaddrinfo s.1 s.2).getD []).filter inet

/-- The tokens are servers, and all of them can be looked up. -/
def Resolve (getaddrinfo : Bytes → Bytes → Option (List α)) (tokens : List Bytes)
    (servers : List (Bytes × Bytes)) : Prop :=
  List.Forall₂ Reads tokens servers ∧
    ∀ s ∈ servers, (getaddrinfo s.1 s.2).isSome

/-- The loop ends well exactly with tokens that are servers, and then with their addresses. -/
theorem lookupAll_eq_ok {r : List α} : lookupAll getaddrinfo inet tokens addrs = .ok r ↔
    ∃ servers, Resolve getaddrinfo tokens servers ∧
      r = addrs ++ servers.flatMap (addressesOf getaddrinfo inet) := by
  induction tokens generalizing addrs with
  | nil =>
    constructor
    · intro h
      cases h
      exact ⟨[], ⟨.nil, by simp⟩, by simp⟩
    · rintro ⟨servers, ⟨htokens, -⟩, rfl⟩
      cases htokens
      rw [lookupAll, List.flatMap_nil, List.append_nil]
  | cons token tokens ih =>
    rw [lookupAll]
    constructor
    · intro h
      cases hparse : parseServer token with
      | error rc =>
        rw [hparse] at h
        cases h
      | ok s =>
        rw [hparse] at h
        dsimp only at h
        cases hres : getaddrinfo s.1 s.2 with
        | none =>
          rw [hres] at h
          cases h
        | some res =>
          rw [hres] at h
          obtain ⟨servers, ⟨htokens, hall⟩, rfl⟩ := ih.mp h
          refine ⟨s :: servers, ⟨.cons (parseServer_eq_ok.mp hparse) htokens, ?_⟩, ?_⟩
          · exact List.forall_mem_cons.mpr ⟨by rw [hres]; rfl, hall⟩
          · rw [List.flatMap_cons, addressesOf, hres, List.append_assoc]
            rfl
    · rintro ⟨_, ⟨htokens, hall⟩, rfl⟩
      cases htokens with
      | @cons _ s _ servers hparse htokens =>
        obtain ⟨hs, hall⟩ := List.forall_mem_cons.mp hall
        obtain ⟨res, hres⟩ := Option.isSome_iff_exists.mp hs
        rw [parseServer_eq_ok.mpr hparse]
        dsimp only
        rw [hres]
        dsimp only
        refine ih.mpr ⟨servers, ⟨htokens, hall⟩, ?_⟩
        rw [List.flatMap_cons, addressesOf, hres, List.append_assoc]
        rfl

theorem swap_perm {i j : Nat} : (swap addrs i j).Perm addrs := by
  rw [swap]
  split
  · next a b ha hb =>
    obtain ⟨hi, rfl⟩ := List.getElem?_eq_some_iff.mp ha
    obtain ⟨hj, rfl⟩ := List.getElem?_eq_some_iff.mp hb
    exact List.set_set_perm hi hj
  · exact .refl _

/-- Whatever `random` returns, no address is lost and none comes twice. -/
theorem permute_perm {i : Nat} : (permute random i addrs).Perm addrs := by
  induction i generalizing addrs with
  | zero => exact .refl _
  | succ i ih => exact ih.trans swap_perm

/-! ## Results -/

/-- `getaddrs` has the addresses of all the servers. -/
theorem getaddrs_eq_ok (h : getaddrs getaddrinfo inet random disableConnPermute host = .ok addrs) :
    ∃ servers, Resolve getaddrinfo (strtok [] host) servers ∧
      addrs.Perm (servers.flatMap (addressesOf getaddrinfo inet)) := by
  rw [getaddrs] at h
  cases hlookup : lookupAll getaddrinfo inet (strtok [] host) [] with
  | error rc =>
    rw [hlookup] at h
    cases h
  | ok addrs' =>
    rw [hlookup] at h
    obtain ⟨servers, hresolve, rfl⟩ := lookupAll_eq_ok.mp hlookup
    obtain rfl := Except.ok.inj h
    refine ⟨servers, hresolve, ?_⟩
    split
    · exact .refl _
    · exact permute_perm

theorem getaddrs_of_resolve (h : Resolve getaddrinfo (strtok [] host) servers) :
    ∃ addrs, getaddrs getaddrinfo inet random disableConnPermute host = .ok addrs ∧
      addrs.Perm (servers.flatMap (addressesOf getaddrinfo inet)) := by
  have hlookup : lookupAll getaddrinfo inet (strtok [] host) [] =
      .ok (servers.flatMap (addressesOf getaddrinfo inet)) := lookupAll_eq_ok.mpr ⟨servers, h, rfl⟩
  rw [getaddrs, hlookup]
  refine ⟨_, rfl, ?_⟩
  split
  · exact .refl _
  · exact permute_perm

theorem connectString_eq_some {chroot : Option Bytes} :
    connectString getaddrinfo inet random disableConnPermute host = some (chroot, addrs) ↔
      host ≠ [] ∧ (∀ root, chrootOf host = some root → isValidPath root 0 = true) ∧
        chroot = chrootOf host ∧ getaddrs getaddrinfo inet random disableConnPermute
          (host.takeWhile (· ≠ slash)) = .ok addrs := by
  have hroot : (chrootOf host).any (isValidPath · 0 = false) = true ↔
      ¬ ∀ root, chrootOf host = some root → isValidPath root 0 = true := by
    cases chrootOf host <;> simp
  rw [connectString]
  by_cases hne : host = []
  · rw [if_pos hne]
    exact ⟨fun h => (by cases h), fun h => absurd hne h.1⟩
  rw [if_neg hne]
  by_cases hvalid : ∀ root, chrootOf host = some root → isValidPath root 0 = true
  · rw [if_neg fun h => hroot.mp h hvalid]
    cases getaddrs getaddrinfo inet random disableConnPermute (host.takeWhile (· ≠ slash)) with
    | error rc => exact ⟨fun h => (by cases h), fun h => (by cases h.2.2.2)⟩
    | ok addrs' =>
      constructor
      · intro h
        cases h
        exact ⟨hne, hvalid, rfl, rfl⟩
      · rintro ⟨-, -, rfl, h⟩
        cases h
        rfl
  · rw [if_pos (hroot.mpr hvalid)]
    exact ⟨fun h => (by cases h), fun h => absurd h.2.1 hvalid⟩

/-- The path behind the servers is found again. -/
theorem split_path {text path : Bytes} (htext : slash ∉ text)
    (hpath : path = [] ∨ isValidPath path 0 = true) :
    (text ++ path).takeWhile (· ≠ slash) = text ∧
      chrootOf (text ++ path) = if path.length ≤ 1 then none else some path := by
  have hall : ∀ c ∈ text, decide (c ≠ slash) = true := fun c hc =>
    decide_eq_true fun heq => htext (heq ▸ hc)
  have hcases : path = [] ∨ ∃ rest, path = slash :: rest := by
    refine hpath.imp_right fun hvalid => ?_
    by_cases hroot : path = [slash]
    · exact ⟨[], hroot⟩
    · obtain ⟨rest, hrest, -⟩ := isValidPath_spec hvalid hroot
      exact ⟨rest, hrest⟩
  rw [List.takeWhile_append_of_pos hall, chrootOf, List.dropWhile_append_of_pos hall]
  obtain rfl | ⟨rest, rfl⟩ := hcases
  · exact ⟨List.append_nil _, rfl⟩
  · have hstop : (slash :: rest).dropWhile (· ≠ slash) = slash :: rest := by simp
    have hnone : (slash :: rest).takeWhile (· ≠ slash) = [] := by simp
    rw [hstop, hnone]
    refine ⟨List.append_nil _, ?_⟩
    cases rest with
    | nil => rfl
    | cons c rest => rfl

end

/-- `127.0.0.1:2181` -/
def loopback4 : Bytes × Bytes := ([49, 50, 55, 46, 48, 46, 48, 46, 49], [50, 49, 56, 49])

/-- `::1:2182` -/
def loopback6 : Bytes × Bytes := ([58, 58, 49], [50, 49, 56, 50])

theorem isServer_loopback : ∀ s ∈ [loopback4, loopback6], IsServer s := by
  intro s hs
  obtain rfl | hs := List.mem_cons.mp hs
  · exact ⟨by decide, by decide, by decide, by decide, by decide⟩
  · obtain rfl := List.mem_singleton.mp hs
    exact ⟨by decide, by decide, by decide, by decide, by decide⟩

end QtZooKeeper
