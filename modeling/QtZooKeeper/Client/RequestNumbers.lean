-- SUMMARY: get_xid, which the threads of an application call for the numbers of their requests.
import QtZooKeeper.Base.Runs
import QtZooKeeper.Client.Handle

/-!
# Request numbers

`get_xid` keeps its counter in a static variable. Only `fetch_and_add` is atomic:
between the comparison with -1, the assignment and the addition other threads can
run. `get_xid` is a constructor of the library, so one call is over before any
thread starts.
-/

universe u

namespace QtZooKeeper

open FallibleSystem

/-- `fetch_and_add`: what is returned, and the operand behind it. -/
def fetchAndAdd (operand incr : Int32) : Int32 × Int32 := (operand, operand + incr)

/-- `get_xid` if nothing happens in between: the number, and the counter behind it.
`now` is the time in seconds, cut to 32 bits. -/
def getXid (now xid : Int32) : Int32 × Int32 := fetchAndAdd (if xid = -1 then now else xid) 1

/-- How far a thread is in `get_xid`. -/
inductive GetXid where
  /-- The counter was -1. -/
  | stamp
  | add
  deriving DecidableEq, Repr

/-- The counter and the threads, of which `none` is not in `get_xid`. -/
structure XidCounter (τ : Type u) where
  xid : Int32
  threads : τ → Option GetXid
  /-- History: the numbers that were given, in the order of the additions. -/
  returned : List Int32

inductive XidLabel (τ : Type u) where
  /-- The call, up to the comparison. -/
  | call (t : τ)
  /-- `xid = time(0)` -/
  | stamp (t : τ) (now : Int32)
  | add (t : τ)

namespace XidLabel

variable {τ : Type u} [DecidableEq τ]

def Enabled : XidLabel τ → XidCounter τ → Prop
  | call t, s => s.threads t = none
  | stamp t _, s => s.threads t = some .stamp
  | add t, s => s.threads t = some .add

def step : XidLabel τ → XidCounter τ → Except Empty (XidCounter τ)
  | call t, s =>
    pure { s with threads := Function.update s.threads t (some (if s.xid = -1 then .stamp else .add)) }
  | stamp t now, s => pure { s with xid := now, threads := Function.update s.threads t (some .add) }
  | add t, s =>
    let (xid, next) := fetchAndAdd s.xid 1
    pure
      { s with
        xid := next
        threads := Function.update s.threads t none
        returned := s.returned ++ [xid] }

end XidLabel

section

variable {τ : Type u} [DecidableEq τ]

/-- The calls of `get_xid` behind that of the constructor, which was at the time `start`. -/
def xidSystem (τ : Type u) [DecidableEq τ] (start : Int32) :
    FallibleSystem (XidCounter τ) (XidLabel τ) Empty where
  init := { xid := (getXid start (-1)).2, threads := fun _ => none, returned := [] }
  enabled := XidLabel.Enabled
  step := XidLabel.step

/-- Without other threads in between, the steps make up the call. -/
theorem steps_getXid {start now : Int32} {s : XidCounter τ} {t : τ} (ht : s.threads t = none) :
    (xidSystem τ start).Steps s
      { s with
        xid := (getXid now s.xid).2
        returned := s.returned ++ [(getXid now s.xid).1] } := by
  have hback (f : τ → Option GetXid) (hf : ∀ t', t' ≠ t → f t' = s.threads t') :
      Function.update f t none = s.threads :=
    Function.update_eq_iff.mpr ⟨ht.symm, hf⟩
  have hcall : (xidSystem τ start).Steps s
      { s with threads := Function.update s.threads t (some (if s.xid = -1 then .stamp else .add)) } :=
    Steps.refl.tail (l := XidLabel.call t) ht rfl
  by_cases hxid : s.xid = -1
  · rw [if_pos hxid] at hcall
    have hstamp := hcall.tail (l := XidLabel.stamp t now) (Function.update_self t _ _) rfl
    have hadd := hstamp.tail (l := XidLabel.add t) (Function.update_self t _ _) rfl
    rw [hback _ fun t' ht' => by simp [ht']] at hadd
    simpa [getXid, fetchAndAdd, hxid] using hadd
  · rw [if_neg hxid] at hcall
    have hadd := hcall.tail (l := XidLabel.add t) (Function.update_self t _ _) rfl
    rw [hback _ fun t' ht' => by simp [ht']] at hadd
    simpa [getXid, fetchAndAdd, hxid] using hadd

end

end QtZooKeeper
