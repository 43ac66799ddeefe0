-- SUMMARY: The hash table under the watch tables behaves as a finite map, whatever is put in and taken out.
import QtZooKeeper.Client.Hashtable

/-!
# Watch tables as hash tables

The watch tables of a handle are finite maps from paths to lists of watchers. In the code
each of them is a hash table with chains, which grows, and which is gone over with an
iterator. The entries of the one are the entries of the other in some order
(`Hashtable.Refines`), and every operation keeps that. So in any run both give the same
answers (`watch_table_refines`), but for the order in which the paths and the watchers of
a session event are listed.
-/

universe u v

namespace QtZooKeeper

/-! ## Entries -/

/-- The entry of a finite map. -/
def HashEntry.pair {κ : Type u} {ν : Type v} (e : HashEntry κ ν) : Sigma (fun _ : κ => ν) := ⟨e.k, e.v⟩

namespace Hashtable

section Refinement

variable {κ : Type u} {ν : Type v} [DecidableEq κ] {hashfn : κ → UInt32} {limit : Nat → Nat}
variable {h : Hashtable κ ν} {t : KeyTable κ ν} {k : κ} {v : ν} {e : HashEntry κ ν}

/-- The entries of the table are those of the map, each in its place. -/
structure Refines (hashfn : κ → UInt32) (h : Hashtable κ ν) (t : KeyTable κ ν) : Prop where
  length_pos : 0 < h.table.length
  primeindex_lt : h.primeindex < primes.length
  hash_eq : ∀ e ∈ h.table.flatten, e.h = hash (hashfn e.k)
  placed : Chains.Placed (fun e => indexFor h.table.length e.h) h.table
  perm : (h.table.flatten.map HashEntry.pair).Perm t.entries

omit [DecidableEq κ] in
/-- The index of a key is in the table. -/
theorem Refines.index_lt (hr : Refines hashfn h t) (hashvalue : UInt32) :
    indexFor h.table.length hashvalue < h.table.length := Nat.mod_lt _ hr.length_pos

theorem Refines.mem_pair (hr : Refines hashfn h t) :
    t.lookup k = some v ↔ ∃ e ∈ h.table.flatten, e.k = k ∧ e.v = v := by
  rw [← Option.mem_def, AList.mem_lookup_iff, ← hr.perm.mem_iff, List.mem_map]
  refine exists_congr fun e => and_congr_right fun _ => ?_
  simp [HashEntry.pair]

theorem isEntry_iff : isEntry hashfn k e = true ↔ hash (hashfn k) = e.h ∧ k = e.k := by
  simp [isEntry]

/-- The entries of a key are those that are found in its chain. -/
theorem Refines.mem_chain (hr : Refines hashfn h t) :
    e ∈ h.chain hashfn k ∧ isEntry hashfn k e = true ↔ e ∈ h.table.flatten ∧ e.k = k := by
  rw [isEntry_iff, hr.placed.mem_flatten]
  constructor
  · rintro ⟨hmem, hhash, rfl⟩
    rw [chain, hhash] at hmem
    exact ⟨hmem, rfl⟩
  · rintro ⟨hmem, rfl⟩
    have hhash := hr.hash_eq e (hr.placed.mem_flatten.mpr hmem)
    rw [chain, ← hhash]
    exact ⟨hmem, rfl, rfl⟩

/-- What is found is what the map has. -/
theorem Refines.search_eq (hr : Refines hashfn h t) : h.search hashfn k = t.lookup k := by
  rw [search]
  cases hfind : (h.chain hashfn k).find? (isEntry hashfn k) with
  | none =>
    rw [Option.map_none]
    cases hlookup : t.lookup k with
    | none => rfl
    | some v =>
      obtain ⟨e, he, hk, -⟩ := hr.mem_pair.mp hlookup
      obtain ⟨hchain, hentry⟩ := hr.mem_chain.mpr ⟨he, hk⟩
      exact absurd hentry (List.find?_eq_none.mp hfind e hchain)
  | some e =>
    obtain ⟨he, hk⟩ := hr.mem_chain.mp ⟨List.mem_of_find?_eq_some hfind, List.find?_some hfind⟩
    exact (hr.mem_pair.mpr ⟨e, he, hk, rfl⟩).symm

/-! ## Operations -/

theorem primes_pos {i : Nat} (hi : i < primes.length) : 0 < primes.getD i 0 := by
  revert i
  decide

omit [DecidableEq κ] in
theorem refines_create {minsize : Nat} (hcreate : create limit minsize = some h) :
    Refines hashfn h (∅ : KeyTable κ ν) := by
  rw [create] at hcreate
  split at hcreate
  · cases hcreate
  · next hsize =>
    obtain rfl := Option.some.inj hcreate
    have hindex : primes.findIdx (minsize < ·) < primes.length :=
      List.findIdx_lt_length.mpr ⟨1610612741, by decide, by simp; omega⟩
    have hpos : 0 < primes.getD (primes.findIdx (minsize < ·)) 53 := by
      have hget : ∀ d, primes.getD (primes.findIdx (minsize < ·)) d =
          primes[primes.findIdx (minsize < ·)] := fun d => by simp [hindex]
      rw [hget, ← hget 0]
      exact primes_pos hindex
    exact {
      length_pos := by
        rw [List.length_replicate]
        exact hpos
      primeindex_lt := hindex
      hash_eq := fun e he => by
        rw [List.flatten_replicate_nil] at he
        cases he
      placed := Chains.placed_replicate
      perm := by
        rw [List.flatten_replicate_nil]
        exact .nil }

omit [DecidableEq κ] in
/-- Growing only reorders. -/
theorem Refines.expand (hr : Refines hashfn h t) : Refines hashfn (h.expand limit) t := by
  rw [Hashtable.expand]
  split
  · exact hr
  · next hlast =>
    have hlt : h.primeindex + 1 < primes.length := by
      have := hr.primeindex_lt
      omega
    have hpos := primes_pos hlt
    obtain ⟨hlength, hplaced, hperm⟩ := @Chains.redistribute_spec _
      (fun e : HashEntry κ ν => indexFor (primes.getD (h.primeindex + 1) 0) e.h)
      h.table.flatten _ fun e _ => Nat.mod_lt _ hpos
    exact {
      length_pos := hpos.trans_eq hlength.symm
      primeindex_lt := hlt
      hash_eq := fun e he => hr.hash_eq e (hperm.mem_iff.mp he)
      placed := hlength.symm ▸ hplaced
      perm := (hperm.map HashEntry.pair).trans hr.perm }

/-- A key that is not in the map is put in front of its chain. -/
theorem Refines.push (hr : Refines hashfn h t) (hk : t.lookup k = none) :
    Refines hashfn
      { h with table := Chains.push h.table (indexFor h.table.length (hash (hashfn k))) ⟨hash (hashfn k), k, v⟩ }
      (AList.insert k v t) := by
  have hi := hr.index_lt (hash (hashfn k))
  have hflatten := Chains.flatten_push (a := (⟨hash (hashfn k), k, v⟩ : HashEntry κ ν)) hi
  have hnew : k ∉ t := AList.lookup_eq_none.mp hk
  exact {
    length_pos := by
      rw [Chains.length_push]
      exact hr.length_pos
    primeindex_lt := hr.primeindex_lt
    hash_eq := fun e he => by
      obtain rfl | he := List.mem_cons.mp (hflatten.mem_iff.mp he)
      · rfl
      · exact hr.hash_eq e he
    placed := by
      dsimp only
      rw [Chains.length_push]
      exact hr.placed.push (a := ⟨hash (hashfn k), k, v⟩) hi
    perm := by
      rw [AList.entries_insert_of_notMem hnew]
      exact (hflatten.map HashEntry.pair).trans (hr.perm.cons (HashEntry.pair ⟨_, k, v⟩)) }

theorem Refines.insert (hr : Refines hashfn h t) (hk : t.lookup k = none) :
    Refines hashfn (h.insert hashfn limit k v) (AList.insert k v t) := by
  have hcounted : Refines hashfn { h with entrycount := h.entrycount + 1 } t := { hr with }
  rw [Hashtable.insert]
  dsimp only
  split
  · exact hcounted.expand.push hk
  · exact hcounted.push hk

omit [DecidableEq κ] in
theorem mem_storeChain {p : HashEntry κ ν → Bool} {es : List (HashEntry κ ν)}
    (he : e ∈ storeChain p v es) : ∃ e' ∈ es, e'.h = e.h := by
  induction es with
  | nil => cases he
  | cons e' es ih =>
    rw [storeChain] at he
    split at he
    · obtain rfl | he := List.mem_cons.mp he
      · exact ⟨e', List.mem_cons_self, rfl⟩
      · exact ⟨e, List.mem_cons_of_mem _ he, rfl⟩
    · obtain rfl | he := List.mem_cons.mp he
      · exact ⟨e, List.mem_cons_self, rfl⟩
      · obtain ⟨e'', hmem, hh⟩ := ih he
        exact ⟨e'', List.mem_cons_of_mem _ hmem, hh⟩

omit [DecidableEq κ] in
theorem storeChain_append {p : HashEntry κ ν → Bool} {as bs : List (HashEntry κ ν)} (hp : p e = true)
    (has : ∀ a ∈ as, (!p a) = true) : storeChain p v (as ++ e :: bs) = as ++ { e with v } :: bs := by
  induction as with
  | nil =>
    rw [List.nil_append, storeChain, if_pos hp]
    rfl
  | cons a as ih =>
    have ha : ¬ p a = true := by simpa using has a (by simp)
    rw [List.cons_append, storeChain, if_neg ha, ih fun b hb => has b (by simp [hb])]
    rfl

/-- The entry of a key, and what is left of the entries without it. -/
theorem Refines.exists_entry (hr : Refines hashfn h t) (hk : t.lookup k = some v) :
    ∃ e rest, (h.chain hashfn k).find? (isEntry hashfn k) = some e ∧ e.k = k ∧ e.v = v ∧
      h.table.flatten.Perm (e :: rest) ∧ (rest.map HashEntry.pair).Perm (t.entries.kerase k) ∧
      (h.table.modify (indexFor h.table.length (hash (hashfn k)))
        (·.eraseP (isEntry hashfn k))).flatten.Perm rest ∧
      ∀ v', (h.table.modify (indexFor h.table.length (hash (hashfn k)))
        (storeChain (isEntry hashfn k) v')).flatten.Perm ({ e with v := v' } :: rest) := by
  have hsearch := hr.search_eq.trans hk
  obtain ⟨e, hfind, hv⟩ := Option.map_eq_some_iff.mp hsearch
  obtain ⟨-, hek⟩ := hr.mem_chain.mp ⟨List.mem_of_find?_eq_some hfind, List.find?_some hfind⟩
  obtain ⟨hp, as, bs, hchain, has⟩ := List.find?_eq_some_iff_append.mp hfind
  have hchain : h.table.getD (indexFor h.table.length (hash (hashfn k))) [] = as ++ e :: bs := hchain
  obtain ⟨others, hflatten, hmodify⟩ := Chains.flatten_modify (hr.index_lt (hash (hashfn k)))
  rw [hchain] at hflatten
  have hmiddle : ∀ e : HashEntry κ ν, ((as ++ e :: bs) ++ others).Perm (e :: (as ++ bs ++ others)) :=
    fun e => List.perm_middle.append_right others
  have hperm := hflatten.trans (hmiddle e)
  refine ⟨e, as ++ bs ++ others, hfind, hek, hv, hperm, ?_, ?_, fun v' => ?_⟩
  · have hpairs := (hperm.map HashEntry.pair).symm.trans hr.perm
    have hkerase := List.Perm.kerase (a := k) t.nodupKeys hpairs.symm
    rw [List.map_cons, List.kerase_cons_eq (s := e.pair) hek.symm] at hkerase
    exact hkerase.symm
  · have herase : (as ++ e :: bs).eraseP (isEntry hashfn k) = as ++ bs := by
      rw [List.eraseP_append_right _ fun b hb => by simpa using has b hb, List.eraseP_cons_of_pos hp]
    have h := hmodify (·.eraseP (isEntry hashfn k))
    rwa [hchain, herase] at h
  · have h := hmodify (storeChain (isEntry hashfn k) v')
    rw [hchain, storeChain_append hp has] at h
    exact h.trans (hmiddle _)

theorem Refines.remove (hr : Refines hashfn h t) : (h.remove hashfn k).1 = t.lookup k ∧
    Refines hashfn (h.remove hashfn k).2 (AList.erase k t) := by
  cases hk : t.lookup k with
  | none =>
    have hfind : (h.chain hashfn k).find? (isEntry hashfn k) = none := by
      have hsearch := hr.search_eq.trans hk
      exact Option.map_eq_none_iff.mp hsearch
    have herase : AList.erase k t = t :=
      AList.ext (List.kerase_of_notMem_keys (AList.lookup_eq_none.mp hk))
    rw [Hashtable.remove, hfind, herase]
    exact ⟨rfl, hr⟩
  | some v =>
    obtain ⟨e, rest, hfind, -, hv, hperm, hrest, hremove, -⟩ := hr.exists_entry hk
    have hi := hr.index_lt (hash (hashfn k))
    rw [Hashtable.remove, hfind]
    refine ⟨congrArg some hv, {
      length_pos := ?_
      primeindex_lt := hr.primeindex_lt
      hash_eq := fun e' he' => ?_
      placed := ?_
      perm := (hremove.map HashEntry.pair).trans hrest }⟩
    · rw [List.length_modify]
      exact hr.length_pos
    · exact hr.hash_eq e' (hperm.mem_iff.mpr (List.mem_cons_of_mem _ (hremove.mem_iff.mp he')))
    · dsimp only
      rw [List.length_modify]
      exact hr.placed.modify hi fun e' he' => hr.placed _ e' (List.mem_of_mem_eraseP he')

theorem Refines.store {v' : ν} (hr : Refines hashfn h t) (hk : t.lookup k = some v) :
    Refines hashfn (h.store hashfn k v') (AList.insert k v' t) := by
  obtain ⟨e, rest, hfind, hek, hv, hperm, hrest, -, hstore⟩ := hr.exists_entry hk
  have hi := hr.index_lt (hash (hashfn k))
  exact {
    length_pos := by
      rw [Hashtable.store, List.length_modify]
      exact hr.length_pos
    primeindex_lt := hr.primeindex_lt
    hash_eq := fun e' he' => by
      obtain rfl | he' := List.mem_cons.mp ((hstore v').mem_iff.mp he')
      · exact hr.hash_eq e (hperm.mem_iff.mpr List.mem_cons_self)
      · exact hr.hash_eq e' (hperm.mem_iff.mpr (List.mem_cons_of_mem _ he'))
    placed := by
      rw [Hashtable.store, List.length_modify]
      refine hr.placed.modify hi fun e' he' => ?_
      obtain ⟨e, he, hh⟩ := mem_storeChain he'
      rw [← hh]
      exact hr.placed _ e he
    perm := by
      rw [AList.entries_insert]
      have hpair : ({ e with v := v' } : HashEntry κ ν).pair = ⟨k, v'⟩ := by rw [HashEntry.pair, hek]
      have hpairs := (hstore v').map HashEntry.pair
      rw [List.map_cons, hpair] at hpairs
      exact hpairs.trans (hrest.cons _) }

end Refinement

end Hashtable

/-! ## Lists of watchers -/

section Lists

variable {list source target target' : WatcherList} {wo w : WatcherObject} {lists : List WatcherList}

theorem nodup_addToList (h : list.Nodup) : (addToList list wo).Nodup := by
  rw [addToList]
  split
  · exact h
  · next hnew => exact List.nodup_cons.mpr ⟨hnew, h⟩

theorem nodup_copyWatchers (h : target.Nodup) : (copyWatchers source target).Nodup := by
  rw [copyWatchers]
  induction source generalizing target with
  | nil => exact h
  | cons wo source ih => exact ih (nodup_addToList h)

theorem nodup_copyAll (h : target.Nodup) :
    (lists.foldl (fun list wl => copyWatchers wl list) target).Nodup := by
  induction lists generalizing target with
  | nil => exact h
  | cons wl lists ih => exact ih (nodup_copyWatchers h)

theorem mem_copyAll : w ∈ lists.foldl (fun list wl => copyWatchers wl list) target ↔
    (∃ wl ∈ lists, w ∈ wl) ∨ w ∈ target := by
  induction lists generalizing target with
  | nil => simp
  | cons wl lists ih =>
    rw [List.foldl_cons, ih, mem_copyWatchers, List.exists_mem_cons_iff]
    exact or_left_comm.trans or_assoc.symm

/-- The order of the lists is the only thing that their order changes. -/
theorem perm_copyAll {lists' : List WatcherList} (hperm : lists.Perm lists') (h : target.Nodup) :
    (lists.foldl (fun list wl => copyWatchers wl list) target).Perm
      (lists'.foldl (fun list wl => copyWatchers wl list) target) := by
  refine (List.perm_ext_iff_of_nodup (nodup_copyAll h) (nodup_copyAll h)).mpr fun w => ?_
  simp only [mem_copyAll, hperm.mem_iff]

end Lists

/-! ## Loops over all entries -/

namespace WatcherHashtable

open HashtableItr

section Loops

variable {itr : HashtableItr Bytes WatcherList} {n : Nat} {target : WatcherList}

/-- An iterator with something left stands at the first of it. -/
theorem exists_chain (hsound : itr.Sound) (hleft : itr.left ≠ []) : ∃ e es, itr.chain = e :: es :=
  List.exists_cons_of_ne_nil fun hnil => hleft (hsound hnil)

theorem collectLoop_eq (hsound : itr.Sound) (hn : n ≤ itr.left.length) :
    collectLoop n itr = some ((itr.left.take n).map (·.k)) := by
  induction n generalizing itr with
  | zero => rfl
  | succ n ih =>
    obtain ⟨e, es, hchain⟩ := exists_chain hsound (List.length_pos_iff.mp (by omega))
    have hleft := left_of_chain hchain
    have hlength : n ≤ itr.advance.2.left.length := by
      rw [left_advance hchain, List.length_tail]
      omega
    rw [collectLoop, hchain]
    dsimp only
    rw [ih (sound_advance hchain) hlength, left_advance hchain, hleft]
    rfl

theorem copyLoop_eq (hsound : itr.Sound) (hleft : itr.left ≠ []) : copyLoop itr target =
    some ((itr.left.map (·.v)).foldl (fun list wl => copyWatchers wl list) target) := by
  obtain ⟨es, hes⟩ : ∃ es, itr.left = es := ⟨_, rfl⟩
  induction es generalizing itr target with
  | nil => exact absurd hes hleft
  | cons e es ih =>
    rw [copyLoop]
    split
    · next hchain =>
      obtain ⟨e', es', hne⟩ := exists_chain hsound hleft
      rw [hchain] at hne
      cases hne
    · next e' es' hchain =>
      have hcons := left_of_chain hchain
      have htail : itr.advance.2.left = es := by rw [left_advance hchain, hes, List.tail_cons]
      obtain rfl : e' = e := (List.cons.inj (hcons.symm.trans hes)).1
      rw [hes, List.map_cons, List.foldl_cons]
      by_cases hmore : itr.advance.1
      · rw [if_pos hmore, ih (sound_advance hchain) ((advance_eq_true hchain).mp hmore) htail, htail]
      · have hnil : es = [] := by
          by_contra hne
          exact hmore ((advance_eq_true hchain).mpr (htail.symm ▸ hne))
        rw [if_neg hmore, hnil]
        rfl

end Loops

/-! ## Results -/

/-- The hash table stands for the map, and its count is right. -/
structure Represents (ht : WatcherHashtable) (t : ZkHashtable) : Prop where
  refines : Hashtable.Refines stringHashDjb2 ht t
  count : ht.entrycount = t.entries.length

variable {limit : Nat → Nat} {ht : WatcherHashtable} {t : ZkHashtable} {path : Bytes} {wo : WatcherObject}
variable {target list : WatcherList}

theorem entrycount_insert {wl : WatcherList} :
    (ht.insert stringHashDjb2 limit path wl).entrycount = ht.entrycount + 1 := by
  rw [Hashtable.insert]
  dsimp only
  split
  · rw [Hashtable.expand]
    split <;> rfl
  · rfl

theorem Represents.insertWatcherObject (h : Represents ht t) :
    Represents (insertWatcherObject limit ht path wo) (QtZooKeeper.insertWatcherObject t path wo) := by
  rw [WatcherHashtable.insertWatcherObject, QtZooKeeper.insertWatcherObject, h.refines.search_eq]
  cases hlookup : t.lookup path with
  | none =>
    refine ⟨h.refines.insert hlookup, ?_⟩
    dsimp only
    rw [entrycount_insert, AList.entries_insert_of_notMem (AList.lookup_eq_none.mp hlookup),
      List.length_cons, h.count]
  | some wl =>
    refine ⟨h.refines.store hlookup, ?_⟩
    have hlength := KeyTable.length_erase hlookup
    dsimp only
    rw [AList.entries_insert, List.length_cons]
    exact h.count.trans hlength.symm

theorem entrycount_remove : (ht.remove stringHashDjb2 path).2.entrycount =
    if (ht.remove stringHashDjb2 path).1.isSome then ht.entrycount - 1 else ht.entrycount := by
  rw [Hashtable.remove]
  split <;> rfl

theorem Represents.addForEvent (h : Represents ht t) :
    (addForEvent ht path list).1 = (QtZooKeeper.addForEvent t path list).1 ∧
      Represents (addForEvent ht path list).2 (QtZooKeeper.addForEvent t path list).2 := by
  obtain ⟨hfound, hrefines⟩ := h.refines.remove (k := path)
  have hcount := @entrycount_remove ht path
  rw [WatcherHashtable.addForEvent, QtZooKeeper.addForEvent]
  rcases hremove : ht.remove stringHashDjb2 path with ⟨found, ht'⟩
  rw [hremove] at hfound hrefines hcount
  dsimp only at hfound hrefines hcount
  subst hfound
  cases hlookup : t.lookup path with
  | none =>
    have herase : AList.erase path t = t :=
      AList.ext (List.kerase_of_notMem_keys (AList.lookup_eq_none.mp hlookup))
    rw [herase] at hrefines
    rw [hlookup] at hcount
    exact ⟨rfl, hrefines, hcount.trans h.count⟩
  | some wl =>
    have hlength := KeyTable.length_erase hlookup
    rw [hlookup, Option.isSome_some, if_pos rfl, h.count] at hcount
    refine ⟨rfl, hrefines, ?_⟩
    dsimp only
    omega

theorem Represents.length_eq (h : Represents ht t) : ht.entrycount = ht.table.flatten.length := by
  have hlength := h.refines.perm.length_eq
  rw [List.length_map] at hlength
  exact h.count.trans hlength.symm

/-- An iterator starts with all the entries in front of it. -/
theorem Represents.start (h : Represents ht t) :
    (HashtableItr.start ht).left = ht.table.flatten ∧ (HashtableItr.start ht).Sound := by
  rw [HashtableItr.start]
  split
  · next hempty =>
    have hnil := List.length_eq_zero_iff.mp (h.length_eq.symm.trans hempty)
    rw [hnil]
    exact ⟨rfl, fun _ => rfl⟩
  · exact ⟨left_seek, sound_seek⟩

/-- The keys that are listed are those of the map. -/
theorem Represents.collectKeys (h : Represents ht t) :
    ∃ keys, collectKeys ht = some keys ∧ keys.Perm t.keys := by
  obtain ⟨hleft, hsound⟩ := h.start
  have hn : ht.entrycount ≤ (HashtableItr.start ht).left.length := by
    rw [hleft, h.length_eq]
  refine ⟨_, collectLoop_eq hsound hn, ?_⟩
  have hperm := h.refines.perm.map Sigma.fst
  rw [hleft, h.length_eq, List.take_length]
  rwa [List.map_map] at hperm

/-- The watchers that are copied are those of the map, each of them once. -/
theorem Represents.copyTable (h : Represents ht t) (hnodup : target.Nodup) :
    ∃ watchers, copyTable ht target = some watchers ∧
      watchers.Perm (QtZooKeeper.copyTable t target) := by
  obtain ⟨hleft, hsound⟩ := h.start
  have hvalues : (ht.table.flatten.map (·.v)).Perm t.values := by
    have hperm := h.refines.perm.map Sigma.snd
    rwa [List.map_map] at hperm
  rw [WatcherHashtable.copyTable, QtZooKeeper.copyTable]
  split
  · next hempty =>
    have hnil := List.length_eq_zero_iff.mp (h.length_eq.symm.trans hempty)
    rw [hnil] at hvalues
    rw [List.nil_perm.mp hvalues]
    exact ⟨_, rfl, .refl _⟩
  · next hne =>
    have hmore : (HashtableItr.start ht).left ≠ [] := fun hnil => by
      rw [hleft] at hnil
      exact hne (h.length_eq.trans (by rw [hnil]; rfl))
    refine ⟨_, copyLoop_eq hsound hmore, ?_⟩
    rw [hleft]
    exact perm_copyAll hvalues hnodup

end WatcherHashtable

/-- What is done to a watch table: a watcher is put in, or those of a path are taken out. -/
inductive TableOp where
  | insertWatcherObject (path : Bytes) (wo : WatcherObject)
  | addForEvent (path : Bytes)
  deriving DecidableEq, Repr

namespace TableOp

/-- The hash table behind the operation. -/
def onTable (limit : Nat → Nat) (ht : WatcherHashtable) : TableOp → WatcherHashtable
  | insertWatcherObject path wo => ht.insertWatcherObject limit path wo
  | addForEvent path => (ht.addForEvent path []).2

/-- The map behind the operation. -/
def onMap (t : ZkHashtable) : TableOp → ZkHashtable
  | insertWatcherObject path wo => QtZooKeeper.insertWatcherObject t path wo
  | addForEvent path => (QtZooKeeper.addForEvent t path []).2

variable {limit : Nat → Nat} {ht : WatcherHashtable} {t : ZkHashtable}

theorem represents_step (h : ht.Represents t) (op : TableOp) :
    (op.onTable limit ht).Represents (op.onMap t) := by
  cases op with
  | insertWatcherObject path wo => exact h.insertWatcherObject
  | addForEvent path => exact h.addForEvent.2

theorem represents_run (h : ht.Represents t) (ops : List TableOp) :
    (ops.foldl (fun ht op => op.onTable limit ht) ht).Represents (ops.foldl onMap t) := by
  induction ops generalizing ht t with
  | nil => exact h
  | cons op ops ih => exact ih (represents_step h op)

end TableOp

/-- A new table stands for the empty map. -/
theorem represents_create {limit : Nat → Nat} {minsize : Nat} {ht : WatcherHashtable}
    (h : Hashtable.create limit minsize = some ht) : ht.Represents ∅ where
  refines := Hashtable.refines_create h
  count := by
    rw [Hashtable.create] at h
    split at h
    · cases h
    · obtain rfl := Option.some.inj h
      rfl

/-- Whenever it grows, and wherever its paths fall, a hash table that was created as
`create_zk_hashtable` does it answers behind any operations as the map does: each path has the
same watchers in the same order, the paths that are collected are those of the map, each once,
and a session event reaches the same watchers. The iterators never run over the end. -/
theorem watch_table_refines (limit : Nat → Nat) (ops : List TableOp) :
    ∃ ht₀ : WatcherHashtable, Hashtable.create limit 32 = some ht₀ ∧
      let ht := ops.foldl (fun ht op => op.onTable limit ht) ht₀
      let t := ops.foldl TableOp.onMap ∅
      (∀ path list, ht.search stringHashDjb2 path = t.lookup path ∧
        (ht.addForEvent path list).1 = (addForEvent t path list).1) ∧
      (∃ keys, ht.collectKeys = some keys ∧ keys.Perm t.keys ∧ keys.Nodup) ∧
      ∀ target : WatcherList, target.Nodup →
        ∃ watchers, ht.copyTable target = some watchers ∧ watchers.Perm (copyTable t target) := by
  obtain ⟨ht₀, hcreate⟩ : ∃ ht₀ : WatcherHashtable, Hashtable.create limit 32 = some ht₀ :=
    ⟨_, if_neg (by decide)⟩
  have h : (ops.foldl (fun ht op => op.onTable limit ht) ht₀).Represents (ops.foldl TableOp.onMap ∅) :=
    TableOp.represents_run (represents_create hcreate) ops
  refine ⟨ht₀, hcreate, ?_⟩
  obtain ⟨keys, hkeys, hperm⟩ := h.collectKeys
  refine ⟨fun path list => ⟨h.refines.search_eq, h.addForEvent.1⟩, ⟨keys, hkeys, hperm, ?_⟩,
    fun target hnodup => h.copyTable hnodup⟩
  exact hperm.nodup_iff.mpr (AList.keys_nodup _)

end QtZooKeeper
