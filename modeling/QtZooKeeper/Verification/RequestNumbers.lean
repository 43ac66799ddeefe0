-- SUMMARY: How many requests get their numbers from get_xid before one of them gets a number of the protocol.
import QtZooKeeper.Client.RequestNumbers

/-!
# Distinct request numbers

The client tells its own packets and the events of the server by four numbers from
the requests of the application. `get_xid` does not know of them: it counts up from
the time the library was loaded, and comes to the first of them at the end of its
range. Until then its three steps are as good as one, in whatever order the threads
take them, and the requests are as an `Ordered` run of the handle supposes.
-/

universe u

namespace QtZooKeeper

open FallibleSystem

variable {τ : Type u} {start k m n : Nat} {x : Int32}
variable {s s' : XidCounter τ} {l : XidLabel τ}

/-! ## Counting up -/

theorem int32_ofNat_inj (hm : m < 4294967296) (hn : n < 4294967296)
    (h : Int32.ofNat m = Int32.ofNat n) : m = n := by
  have hbits : (Int32.ofNat m).toBitVec.toNat = (Int32.ofNat n).toBitVec.toNat := by rw [h]
  rw [Int32.toBitVec_ofNat', Int32.toBitVec_ofNat', BitVec.toNat_ofNat, BitVec.toNat_ofNat] at hbits
  omega

theorem mem_reservedXids (hn : n < 4294967296) :
    Int32.ofNat n ∈ reservedXids ↔ n ∈ [4294967295, 4294967294, 4294967292, 4294967288] := by
  have hreserved : reservedXids =
      [4294967295, 4294967294, 4294967292, 4294967288].map Int32.ofNat := by decide
  rw [hreserved, List.mem_map]
  constructor
  · rintro ⟨m, hm, h⟩
    have hlt : m < 4294967296 := by
      simp only [List.mem_cons, List.not_mem_nil, or_false] at hm
      omega
    rwa [← int32_ofNat_inj hlt hn h]
  · exact fun h => ⟨n, h, rfl⟩

/-- The numbers behind the one that the constructor takes at the time `start`. -/
def numbers (start n : Nat) : List Int32 := (List.range n).map fun k => .ofNat (start + 1 + k)

/-- How many of them are in front of `SET_WATCHES_XID`. -/
def room (start : Nat) : Nat := 4294967288 - (start + 1)

@[simp] theorem length_numbers : (numbers start n).length = n := by simp [numbers]

theorem numbers_succ : numbers start (n + 1) = numbers start n ++ [.ofNat (start + 1 + n)] := by
  rw [numbers, List.range_succ, List.map_append]
  rfl

theorem nodup_numbers (hn : n ≤ room start) : (numbers start n).Nodup := by
  refine List.Nodup.map_on ?_ List.nodup_range
  intro k hk m hm h
  rw [List.mem_range] at hk hm
  rw [room] at hn
  have heq := int32_ofNat_inj (by omega) (by omega) h
  omega

theorem numbers_not_reserved (hn : n ≤ room start) (hx : x ∈ numbers start n) : x ∉ reservedXids := by
  obtain ⟨k, hk, rfl⟩ := List.mem_map.mp hx
  rw [List.mem_range] at hk
  rw [room] at hn
  rw [mem_reservedXids (by omega)]
  simp only [List.mem_cons, List.not_mem_nil, or_false]
  omega

/-! ## All threads -/

/-- What holds until the first number of the protocol is given. -/
structure Counting (start : Nat) (s : XidCounter τ) : Prop where
  fits : s.returned.length ≤ room start
  xid : s.xid = .ofNat (start + 1 + s.returned.length)
  returned : s.returned = numbers start s.returned.length
  /-- Nobody finds the counter to be -1. -/
  threads : ∀ t, s.threads t ≠ some .stamp

/-- A number of the protocol has been given. -/
structure Exhausted (start : Nat) (s : XidCounter τ) : Prop where
  beyond : room start < s.returned.length
  given : setWatchesXid ∈ s.returned

theorem Counting.xid_ne (hstart : start + 1 ≤ 4294967288) (h : Counting start s) : s.xid ≠ -1 := by
  intro hxid
  have hroom := h.fits
  rw [room] at hroom
  have heq : start + 1 + s.returned.length = 4294967295 :=
    int32_ofNat_inj (by omega) (by decide) (h.xid.symm.trans hxid)
  omega

variable [DecidableEq τ]

theorem counting_init : Counting start (xidSystem τ (.ofNat start)).init where
  fits := Nat.zero_le _
  xid := (Int32.ofNat_add start 1).symm
  returned := rfl
  threads := by
    intro t h
    cases h

theorem Counting.threads_update (h : Counting start s) {t : τ} {o : Option GetXid}
    (ho : o ≠ some .stamp) (t' : τ) : Function.update s.threads t o t' ≠ some .stamp := by
  have hall := (Function.forall_update_iff s.threads fun _ o => o ≠ some .stamp).mpr
    ⟨ho, fun t' (_ : t' ≠ t) => h.threads t'⟩
  exact hall t'

/-- While there is room, the comparison never succeeds and an addition gives the next number. -/
theorem Counting.step (hstart : start + 1 ≤ 4294967288) (h : Counting start s) (he : l.Enabled s)
    (hs : l.step s = .ok s') : Counting start s' ∨ Exhausted start s' := by
  cases l with
  | call t =>
    cases hs
    have hadd : some (if s.xid = -1 then GetXid.stamp else .add) ≠ some .stamp := by
      simp [h.xid_ne hstart]
    exact .inl ⟨h.fits, h.xid, h.returned, h.threads_update hadd⟩
  | stamp t now => exact absurd he (h.threads t)
  | add t =>
    cases hs
    have hlen : (s.returned ++ [s.xid]).length = s.returned.length + 1 := by simp
    rcases Nat.lt_or_ge s.returned.length (room start) with hlt | hge
    · have hfits : (s.returned ++ [s.xid]).length ≤ room start := by rwa [hlen]
      have hxid : s.xid + 1 = .ofNat (start + 1 + (s.returned ++ [s.xid]).length) := by
        rw [hlen, h.xid, ← Nat.add_assoc, Int32.ofNat_add (_ + _) 1]
        rfl
      have hreturned : s.returned ++ [s.xid] = numbers start (s.returned ++ [s.xid]).length := by
        rw [hlen, numbers_succ, ← h.returned, h.xid]
      exact .inl ⟨hfits, hxid, hreturned, h.threads_update (by simp)⟩
    -- the counter has come to the lowest of the four numbers
    · have heq : s.returned.length = room start := Nat.le_antisymm h.fits hge
      have hlast : s.xid = setWatchesXid := by
        rw [h.xid, heq, room, Nat.add_sub_cancel' hstart]
        rfl
      refine .inr ⟨?_, ?_⟩
      · simp [heq]
      · simp [hlast]

/-- Nothing that was given is taken back. -/
theorem Exhausted.step (h : Exhausted start s) (hs : l.step s = .ok s') : Exhausted start s' := by
  cases l with
  | call t =>
    cases hs
    exact ⟨h.beyond, h.given⟩
  | stamp t now =>
    cases hs
    exact ⟨h.beyond, h.given⟩
  | add t =>
    cases hs
    refine ⟨?_, List.mem_append_left _ h.given⟩
    have hbeyond := h.beyond
    simp only [List.length_append, List.length_singleton]
    omega

theorem counting_or_exhausted (hstart : start + 1 ≤ 4294967288)
    (h : (xidSystem τ (.ofNat start)).Reachable s) : Counting start s ∨ Exhausted start s := by
  refine Reachable.invariant (P := fun s => Counting start s ∨ Exhausted start s)
    (.inl counting_init) ?_ h
  intro s l s' hP he hs
  rcases hP with hcounting | hexhausted
  · exact hcounting.step hstart he hs
  · exact .inr (hexhausted.step hs)

end QtZooKeeper
