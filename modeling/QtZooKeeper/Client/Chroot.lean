-- SUMMARY: The chroot of a handle: client paths, server paths, and the way back.
import QtZooKeeper.Client.Codes
import Mathlib.Data.List.Infix

/-!
# The chroot

A handle can carry a chroot. Requests prepend it to the path they are given
(`prepend_string`), events strip it from the path they report (`sub_string`).
-/

namespace QtZooKeeper

/-- `/` -/
def slash : UInt8 := 47

/-- `prepend_string`: a path of one byte stands for the chroot itself. -/
def prependString (chroot : Option Bytes) (clientPath : Bytes) : Bytes :=
  match chroot with
  | none => clientPath
  | some root => if clientPath.length = 1 then root else root ++ clientPath

/-- `sub_string`: a path outside the chroot is returned as it is. -/
def subString (chroot : Option Bytes) (serverPath : Bytes) : Bytes :=
  match chroot with
  | none => serverPath
  | some root =>
    if root <+: serverPath then
      if serverPath.length = root.length then [slash] else serverPath.drop root.length
    else serverPath

/-- The chroot `zookeeper_init` takes from its host string: what follows the servers,
from the first slash on, unless that is the slash alone. -/
def chrootOf (host : Bytes) : Option Bytes :=
  match host.dropWhile (· ≠ slash) with
  | [] | [_] => none
  | root => some root

/-- The path `process_sync_completion` (`COMPLETION_STRING`) leaves in the buffer of
`strLen` bytes for a created znode. The asynchronous counterpart passes on the server
path itself. -/
def syncString (chroot : Option Bytes) (strLen : Nat) (serverPath : Bytes) : Bytes :=
  let clientPath := subString chroot serverPath
  let len := min (clientPath.length + 1) strLen
  clientPath.take (len - 1)

theorem mem_subString {chroot : Option Bytes} {p : Bytes} {b : UInt8} (h : b ∈ subString chroot p) :
    b = slash ∨ b ∈ p := by
  unfold subString at h
  split at h
  · exact .inr h
  · split at h
    · split at h
      · exact .inl (List.mem_singleton.mp h)
      · exact .inr (List.mem_of_mem_drop h)
    · exact .inr h

theorem length_subString_le (chroot : Option Bytes) (p : Bytes) :
    (subString chroot p).length ≤ max p.length 1 := by
  unfold subString
  split
  · exact le_max_left ..
  · split
    · split
      · exact le_max_right ..
      · exact (List.drop_sublist _ _).length_le.trans (le_max_left ..)
    · exact le_max_left ..

theorem zero_not_mem_syncString {chroot : Option Bytes} {size : Nat} {p : Bytes} (h : 0 ∉ p) :
    0 ∉ syncString chroot size p := by
  intro hmem
  obtain hslash | hmem := mem_subString (List.mem_of_mem_take hmem)
  · cases hslash
  · exact h hmem

theorem length_syncString_le (chroot : Option Bytes) (size : Nat) (p : Bytes) :
    (syncString chroot size p).length ≤ max p.length 1 :=
  (List.length_take_le' ..).trans (length_subString_le ..)

/-- A chroot starts with a slash and goes on behind it. -/
theorem eq_slash_cons_of_chrootOf {host root : Bytes} (h : chrootOf host = some root) :
    ∃ rest, root = slash :: rest ∧ rest ≠ [] := by
  have hhead := List.head?_dropWhile_not (· ≠ slash) host
  unfold chrootOf at h
  split at h
  · cases h
  · cases h
  · next hone hcons =>
    cases h
    cases hroot : host.dropWhile (· ≠ slash) with
    | nil => exact absurd hroot hone
    | cons b rest =>
      rw [hroot] at hhead
      refine ⟨rest, ?_, ?_⟩
      · simp at hhead
        rw [hhead]
      · rintro rfl
        exact hcons b hroot

/-- A path of more than one byte comes behind the chroot. -/
theorem prependString_eq {chroot : Option Bytes} {p : Bytes} (hp : p.length ≠ 1) :
    prependString chroot p = chroot.getD [] ++ p := by
  cases chroot with
  | none => rfl
  | some root => rw [prependString, if_neg hp, Option.getD_some]

/-- The path an event reports leads back to the znode it is about: the server
path of a request survives the round trip. -/
theorem prependString_subString (chroot : Option Bytes) (p : Bytes) :
    prependString chroot (subString chroot (prependString chroot p)) = prependString chroot p := by
  cases chroot with
  | none => rfl
  | some root =>
    by_cases hp : p.length = 1
    · simp [prependString, subString, hp]
    · cases p with
      | nil => simp [prependString, subString]
      | cons b p =>
        have hne : root.length + (p.length + 1) ≠ root.length := by omega
        have hp' : p.length ≠ 0 := by simpa using hp
        simp [prependString, subString, hp']

end QtZooKeeper
