-- SUMMARY: Messages behind their length in a byte stream, and what a reader of the stream gets to see of them.
import QtZooKeeper.Base.ByteOrder
import QtZooKeeper.Base.Reader

/-!
# Framing

A stream of bytes carries messages one after another, and whoever looks at it sees
any number of whole messages and a part of the next one. For messages that are read
by a stable reader, the whole messages are determined by the bytes
(`Reader.Stable.uncons`). Messages behind a length of four bytes are of this kind.
-/

universe u v

namespace Reader

variable {ε : Type u} {α : Type v} {r : Reader ε α} {code : α → Bytes}
variable {bs rest part : Bytes} {a : α} {as : List α}

/-- A message that has begun: some bytes are missing, maybe all of them. -/
def Begun (r : Reader ε α) (part : Bytes) : Prop :=
  ∃ missing a, missing ≠ [] ∧ r.Decodes (part ++ missing) a

theorem Stable.not_ok (hr : r.Stable) (hpart : r.Begun part) : (r part).1 ≠ .ok a := by
  obtain ⟨missing, b, hne, hd⟩ := hpart
  obtain ⟨e, he⟩ := hr.refuses hd hne
  rw [he]
  rintro ⟨⟩

/-- A message that is whole in the stream is the first of the messages sent. -/
theorem Stable.uncons (hr : r.Stable) (hcode : ∀ a ∈ as, r.Decodes (code a) a)
    (hpart : r.Begun part) (ha : r.Decodes bs a) (h : bs ++ rest = as.flatMap code ++ part) :
    ∃ as', as = a :: as' ∧ rest = as'.flatMap code ++ part := by
  cases as with
  | nil =>
    rw [List.flatMap_nil, List.nil_append] at h
    exact absurd (by rw [← h, ha rest]) (hr.not_ok hpart (a := a))
  | cons b as =>
    rw [List.flatMap_cons, List.append_assoc] at h
    obtain ⟨rfl, hrest⟩ := ha.inj (hcode b List.mem_cons_self) h
    exact ⟨as, rfl, hrest⟩

end Reader

/-! ## Behind a length -/

/-- The message behind its length in network order. -/
def frame (p : Bytes) : Bytes := networkBytes 4 p.length ++ p

/-- Messages one after another. -/
def frames (ps : List Bytes) : Bytes := ps.flatMap frame

/-- A length and that many bytes. -/
def readFrame : Reader Unit Bytes := do
  let len ← Reader.take 4 ()
  let p ← Reader.take (networkValue len.1) ()
  return p.1

section Frames

variable {p q rest part : Bytes} {ps qs : List Bytes} {n : Nat}

@[simp] theorem length_frame : (frame p).length = p.length + 4 := by
  rw [frame, List.length_append, length_networkBytes, Nat.add_comm]

@[simp] theorem frames_nil : frames [] = [] := rfl

@[simp] theorem frames_cons : frames (p :: ps) = frame p ++ frames ps := rfl

@[simp] theorem frames_append : frames (ps ++ qs) = frames ps ++ frames qs := List.flatMap_append

theorem frames_concat : frames (ps ++ [p]) = frames ps ++ frame p := by simp

theorem decodes_frame (h : p.length < 2 ^ 32) : readFrame.Decodes (frame p) p := by
  have hval : networkValue (networkBytes 4 p.length) = p.length := by
    rw [networkValue_networkBytes]
    exact Nat.mod_eq_of_lt h
  have hlen : p.length = networkValue (networkBytes 4 p.length) := hval.symm
  exact (Reader.decodes_take length_networkBytes).bind (Reader.decodes_take hlen).bind_pure

theorem stable_frame : readFrame.Stable :=
  Reader.stable_take.bind fun _ => Reader.stable_take.bind fun _ => Reader.stable_pure

theorem begun_take (h : p.length < 2 ^ 32) (hn : n < (frame p).length) :
    readFrame.Begun ((frame p).take n) := by
  refine ⟨(frame p).drop n, p, ?_, ?_⟩
  · rw [Ne, List.drop_eq_nil_iff]
    omega
  · rw [List.take_append_drop]
    exact decodes_frame h

theorem begun_nil : readFrame.Begun [] :=
  ⟨frame [], [], by decide, decodes_frame (by decide)⟩

/-- A whole frame in front of a stream is the first that was sent. -/
theorem frames_uncons (hp : p.length < 2 ^ 32) (hps : ∀ q ∈ ps, q.length < 2 ^ 32)
    (hpart : readFrame.Begun part) (h : frame p ++ rest = frames ps ++ part) :
    ∃ ps', ps = p :: ps' ∧ rest = frames ps' ++ part :=
  stable_frame.uncons (fun q hq => decodes_frame (hps q hq)) hpart (decodes_frame hp) h

end Frames
