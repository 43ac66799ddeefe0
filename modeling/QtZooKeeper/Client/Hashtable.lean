-- SUMMARY: The hash table under the watch tables: chains, growing, iterating, and the functions of zk_hashtable.c over it.
import QtZooKeeper.Base.Chains
import QtZooKeeper.Client.Watches

/-!
# The hash table

`hashtable.c` keeps its entries in chains and moves them to a longer table when there are
too many of them, which also reverses their order. `zk_hashtable.c` looks paths up in it,
writes through what it has found, and goes over all entries with an iterator.

The functions are generic in the hash function. When to grow is decided in floating point;
any limit will do here. Memory does not run out.
-/

universe u v

namespace QtZooKeeper

/-- `primes` -/
def primes : List Nat :=
  [53, 97, 193, 389, 769, 1543, 3079, 6151, 12289, 24593, 49157, 98317, 196613, 393241, 786433,
    1572869, 3145739, 6291469, 12582917, 25165843, 50331653, 100663319, 201326611, 402653189,
    805306457, 1610612741]

/-- `struct entry` -/
structure HashEntry (κ : Type u) (ν : Type v) where
  h : UInt32
  k : κ
  v : ν

/-- `struct hashtable`, without its functions. The length of the table is that of its list. -/
structure Hashtable (κ : Type u) (ν : Type v) where
  table : List (List (HashEntry κ ν))
  primeindex : Nat
  entrycount : Nat
  loadlimit : Nat

/-- `struct hashtable_itr`: what is left of the chain it stands in, and the chains behind. -/
structure HashtableItr (κ : Type u) (ν : Type v) where
  chain : List (HashEntry κ ν)
  behind : List (List (HashEntry κ ν))

namespace Hashtable

variable {κ : Type u} {ν : Type v} [DecidableEq κ]

/-! ## hashtable.c -/

/-- `create_hashtable`, where `limit` is `ceil(size * max_load_factor)`. -/
def create (limit : Nat → Nat) (minsize : Nat) : Option (Hashtable κ ν) :=
  if 1 <<< 30 < minsize then none
  else
    let pindex := primes.findIdx (minsize < ·)
    let size := primes.getD pindex 53
    some { table := List.replicate size [], primeindex := pindex, entrycount := 0, loadlimit := limit size }

/-- `hash`, of what the hash function says about a key -/
def hash (i : UInt32) : UInt32 :=
  let i := i + ~~~(i <<< 9)
  let i := i ^^^ ((i >>> 14) ||| (i <<< 18))
  let i := i + (i <<< 4)
  i ^^^ ((i >>> 10) ||| (i <<< 22))

/-- `indexFor` -/
def indexFor (tablelength : Nat) (hashvalue : UInt32) : Nat := hashvalue.toNat % tablelength

/-- `hashtable_expand` -/
def expand (limit : Nat → Nat) (h : Hashtable κ ν) : Hashtable κ ν :=
  if h.primeindex = primes.length - 1 then h
  else
    let newsize := primes.getD (h.primeindex + 1) 0
    { h with
      table := Chains.redistribute (fun e => indexFor newsize e.h) newsize h.table.flatten
      primeindex := h.primeindex + 1
      loadlimit := limit newsize }

/-- `hashtable_insert` -/
def insert (hashfn : κ → UInt32) (limit : Nat → Nat) (k : κ) (v : ν) (h : Hashtable κ ν) :
    Hashtable κ ν :=
  let h := { h with entrycount := h.entrycount + 1 }
  let h := if h.loadlimit < h.entrycount then expand limit h else h
  { h with table := Chains.push h.table (indexFor h.table.length (hash (hashfn k))) ⟨hash (hashfn k), k, v⟩ }

/-- The chain where a key is looked for. -/
def chain (hashfn : κ → UInt32) (k : κ) (h : Hashtable κ ν) : List (HashEntry κ ν) :=
  h.table.getD (indexFor h.table.length (hash (hashfn k))) []

/-- The comparison in the loops over a chain. -/
def isEntry (hashfn : κ → UInt32) (k : κ) (e : HashEntry κ ν) : Bool :=
  hash (hashfn k) == e.h && k = e.k

/-- `hashtable_search` -/
def search (hashfn : κ → UInt32) (k : κ) (h : Hashtable κ ν) : Option ν :=
  ((h.chain hashfn k).find? (isEntry hashfn k)).map (·.v)

/-- `hashtable_remove` -/
def remove (hashfn : κ → UInt32) (k : κ) (h : Hashtable κ ν) : Option ν × Hashtable κ ν :=
  match (h.chain hashfn k).find? (isEntry hashfn k) with
  | none => (none, h)
  | some e =>
    (some e.v,
      { h with
        table := h.table.modify (indexFor h.table.length (hash (hashfn k))) (·.eraseP (isEntry hashfn k))
        entrycount := h.entrycount - 1 })

/-- Write to the first entry of a chain that is the one. -/
def storeChain (p : HashEntry κ ν → Bool) (v : ν) : List (HashEntry κ ν) → List (HashEntry κ ν)
  | [] => []
  | e :: es => if p e then { e with v } :: es else e :: storeChain p v es

/-- Write through what `hashtable_search` has returned. -/
def store (hashfn : κ → UInt32) (k : κ) (v : ν) (h : Hashtable κ ν) : Hashtable κ ν :=
  { h with
    table := h.table.modify (indexFor h.table.length (hash (hashfn k))) (storeChain (isEntry hashfn k) v) }

end Hashtable

/-! ## hashtable_itr.c -/

namespace HashtableItr

variable {κ : Type u} {ν : Type v}

/-- The first chain with an entry. -/
def seek : List (List (HashEntry κ ν)) → HashtableItr κ ν
  | [] => ⟨[], []⟩
  | [] :: behind => seek behind
  | (e :: es) :: behind => ⟨e :: es, behind⟩

/-- `hashtable_iterator` -/
def start (h : Hashtable κ ν) : HashtableItr κ ν :=
  if h.entrycount = 0 then ⟨[], []⟩ else seek h.table

/-- `hashtable_iterator_advance` -/
def advance (itr : HashtableItr κ ν) : Bool × HashtableItr κ ν :=
  match itr.chain with
  | [] => (false, itr)
  | _ :: e :: es => (true, { itr with chain := e :: es })
  | [_] => (!(seek itr.behind).chain.isEmpty, seek itr.behind)

/-- The entries from where the iterator stands. -/
def left (itr : HashtableItr κ ν) : List (HashEntry κ ν) := itr.chain ++ itr.behind.flatten

/-- It stands at an entry as long as there is one. -/
def Sound (itr : HashtableItr κ ν) : Prop := itr.chain = [] → itr.left = []

variable {itr : HashtableItr κ ν} {e : HashEntry κ ν} {es : List (HashEntry κ ν)}
variable {behind : List (List (HashEntry κ ν))}

theorem left_seek : (seek behind).left = behind.flatten := by
  induction behind with
  | nil => rfl
  | cons chain behind ih =>
    cases chain with
    | nil => exact ih
    | cons e es => rfl

theorem sound_seek : (seek behind).Sound := by
  induction behind with
  | nil => exact fun _ => rfl
  | cons chain behind ih =>
    cases chain with
    | nil => exact ih
    | cons e es => exact fun h => (by cases h)

/-- The next entry is the next one of those that are left. -/
theorem left_advance (h : itr.chain = e :: es) : itr.advance.2.left = itr.left.tail := by
  obtain ⟨chain, behind⟩ := itr
  obtain rfl : chain = e :: es := h
  cases es with
  | nil => exact left_seek
  | cons e' es => rfl

theorem sound_advance (h : itr.chain = e :: es) : itr.advance.2.Sound := by
  rw [advance, h]
  cases es with
  | nil => exact sound_seek
  | cons e' es => exact fun hnil => (by cases hnil)

/-- There is a next entry as long as something is left. -/
theorem advance_eq_true (h : itr.chain = e :: es) : itr.advance.1 = true ↔ itr.advance.2.left ≠ [] := by
  have hsound := sound_advance h
  have hchain : itr.advance.1 = true ↔ itr.advance.2.chain ≠ [] := by
    rw [advance, h]
    cases es with
    | nil => simp
    | cons e' es => simp
  rw [hchain]
  refine ⟨fun hne hnil => hne ?_, fun hne hnil => hne (hsound hnil)⟩
  exact (List.append_eq_nil_iff.mp hnil).1

theorem left_of_chain (h : itr.chain = e :: es) : itr.left = e :: itr.left.tail := by
  rw [left, h]
  rfl

end HashtableItr

/-! ## zk_hashtable.c -/

/-- `string_hash_djb2`: the characters have a sign. -/
def stringHashDjb2 (str : Bytes) : UInt32 :=
  str.foldl (fun hash c => ((hash <<< 5) + hash) + c.toInt8.toInt32.toUInt32) 5381

/-- `struct _zk_hashtable` with the table in it -/
abbrev WatcherHashtable := Hashtable Bytes WatcherList

namespace WatcherHashtable

/-- `insert_watcher_object` -/
def insertWatcherObject (limit : Nat → Nat) (ht : WatcherHashtable) (path : Bytes) (wo : WatcherObject) :
    WatcherHashtable :=
  match ht.search stringHashDjb2 path with
  | none => ht.insert stringHashDjb2 limit path [wo]
  | some wl => ht.store stringHashDjb2 path (addToList wl wo)

/-- `add_for_event` -/
def addForEvent (ht : WatcherHashtable) (path : Bytes) (list : WatcherList) :
    WatcherList × WatcherHashtable :=
  match ht.remove stringHashDjb2 path with
  | (none, ht) => (list, ht)
  | (some wl, ht) => (copyWatchers wl list, ht)

/-- The loop of `collect_keys`. An iterator at its end has no key. -/
def collectLoop : Nat → HashtableItr Bytes WatcherList → Option (List Bytes)
  | 0, _ => some []
  | n + 1, itr =>
    match itr.chain with
    | [] => none
    | e :: _ => (collectLoop n itr.advance.2).map (e.k :: ·)

/-- `collect_keys` -/
def collectKeys (ht : WatcherHashtable) : Option (List Bytes) :=
  collectLoop ht.entrycount (HashtableItr.start ht)

/-- The loop of `copy_table`. An iterator at its end has no value. -/
def copyLoop (itr : HashtableItr Bytes WatcherList) (target : WatcherList) : Option WatcherList :=
  match _h : itr.chain with
  | [] => none
  | e :: _ =>
    if itr.advance.1 then copyLoop itr.advance.2 (copyWatchers e.v target)
    else some (copyWatchers e.v target)
termination_by itr.left.length
decreasing_by
  rw [HashtableItr.left_advance _h, HashtableItr.left_of_chain _h]
  exact Nat.lt_succ_self _

/-- `copy_table` -/
def copyTable (source : WatcherHashtable) (target : WatcherList) : Option WatcherList :=
  if source.entrycount = 0 then some target else copyLoop (HashtableItr.start source) target

end WatcherHashtable

end QtZooKeeper
