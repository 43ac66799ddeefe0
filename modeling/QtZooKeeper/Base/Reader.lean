-- SUMMARY: Readers over byte strings: what they decode, and what more input can change.
import QtZooKeeper.Base.CString
import Mathlib.Data.List.Basic

/-!
# Readers

A reader takes a value off the front of a byte string or fails. What it leaves
is kept in both cases, because a caller may go on reading after a failure.

Two properties are packaged here with their rules for sequencing. `Decodes`
says that a byte string is read back as a value whatever follows it, and `Stable`
that more input does not change what has been read. A stable reader refuses every
proper prefix of what it decodes (`Stable.refuses`). Code that does not look at the refusal
goes on with what has been read before it (`collect`).
-/

universe u v

/-- A reader of values in `α` that can fail with an `ε`. -/
def Reader (ε : Type u) (α : Type v) : Type (max u v) := Bytes → Except ε α × Bytes

namespace Reader

variable {ε : Type u} {α β : Type v} {r : Reader ε α} {f : α → Reader ε β}
variable {bs cs rest : Bytes} {a : α} {b : β} {e : ε} {n : Nat}

instance : Monad (Reader ε) where
  pure a := fun bs => (.ok a, bs)
  bind r f := fun bs =>
    match r bs with
    | (.ok a, rest) => f a rest
    | (.error e, rest) => (.error e, rest)

/-- Fail without reading anything. -/
def fail (e : ε) : Reader ε α := fun bs => (.error e, bs)

/-- The number of bytes that are left. -/
def left : Reader ε Nat := fun bs => (.ok bs.length, bs)

/-- The next `n` bytes; fail with `e` when there are fewer. -/
def take (n : Nat) (e : ε) : Reader ε {bs : Bytes // bs.length = n} := fun bs =>
  if h : n ≤ bs.length then (.ok ⟨bs.take n, List.length_take_of_le h⟩, bs.drop n)
  else (.error e, bs)

theorem pure_apply : (pure a : Reader ε α) bs = (.ok a, bs) := rfl

theorem fail_apply : (fail e : Reader ε α) bs = (.error e, bs) := rfl

theorem left_apply : (left : Reader ε Nat) bs = (.ok bs.length, bs) := rfl

theorem bind_apply : (r >>= f) bs =
    match r bs with
    | (.ok a, rest) => f a rest
    | (.error e, rest) => (.error e, rest) := rfl

theorem bind_of_ok (h : r bs = (.ok a, rest)) : (r >>= f) bs = f a rest := by
  rw [bind_apply, h]

theorem bind_of_error (h : r bs = (.error e, rest)) : (r >>= f) bs = (.error e, rest) := by
  rw [bind_apply, h]

theorem bind_fst_of_error (h : (r bs).1 = .error e) : ((r >>= f) bs).1 = .error e := by
  rcases hr : r bs with ⟨e' | a, rest⟩
  · rw [hr] at h
    obtain rfl : e' = e := Except.error.inj h
    rw [bind_of_error hr]
  · rw [hr] at h
    cases h

/-- What a sequence of two readers accepts was accepted by both. -/
theorem bind_eq_ok : (r >>= f) bs = (.ok b, rest) ↔
    ∃ a cs, r bs = (.ok a, cs) ∧ f a cs = (.ok b, rest) := by
  rw [bind_apply]
  rcases h : r bs with ⟨_ | a, cs⟩ <;> simp

theorem take_of_le (h : n ≤ bs.length) :
    take n e bs = (.ok ⟨bs.take n, List.length_take_of_le h⟩, bs.drop n) := by
  rw [take, dif_pos h]

theorem take_of_lt (h : bs.length < n) : take n e bs = (.error e, bs) := by
  rw [take, dif_neg (by omega)]

/-! ## Decoding -/

/-- The byte string `bs` is read as `a`, whatever follows it. -/
def Decodes (r : Reader ε α) (bs : Bytes) (a : α) : Prop := ∀ rest, r (bs ++ rest) = (.ok a, rest)

theorem Decodes.eq_nil (h : r.Decodes bs a) : r bs = (.ok a, []) := by
  simpa using h []

theorem decodes_pure : Decodes (pure a : Reader ε α) [] a := fun _ => rfl

theorem Decodes.bind (hr : r.Decodes bs a) (hf : (f a).Decodes cs b) :
    (r >>= f).Decodes (bs ++ cs) b := by
  intro rest
  rw [List.append_assoc, bind_of_ok (hr (cs ++ rest)), hf rest]

/-- The last reader of a sequence may read nothing. -/
theorem Decodes.bind_pure {g : α → β} (hr : r.Decodes bs a) :
    (r >>= fun a => pure (g a)).Decodes bs (g a) := by
  simpa using hr.bind (f := fun a => pure (g a)) decodes_pure

theorem decodes_take (h : bs.length = n) : (take n e).Decodes bs ⟨bs, h⟩ := by
  subst h
  intro rest
  rw [take_of_le (by simp)]
  simp

/-- A value whose encoding is decoded is determined by any byte string that starts
with it. -/
theorem Decodes.inj {b : α} (ha : r.Decodes bs a) (hb : r.Decodes cs b) {s t : Bytes}
    (h : bs ++ s = cs ++ t) : a = b ∧ s = t := by
  have hst := (ha s).symm.trans (h ▸ hb t)
  simpa using hst

/-! ## More input -/

/-- A byte string that was cut short ends in its first part, or behind it. -/
theorem append_cut {cut : Bytes} (h : bs ++ cut = cs ++ rest) :
    (∃ missing, missing ≠ [] ∧ bs ++ missing = cs ∧ cut = missing ++ rest) ∨
      ∃ part, bs = cs ++ part ∧ part ++ cut = rest := by
  obtain ⟨missing, rfl, rfl⟩ | ⟨part, rfl, rfl⟩ := List.append_eq_append_iff.mp h
  · by_cases hmissing : missing = []
    · exact .inr ⟨[], by simp [hmissing], by simp [hmissing]⟩
    · exact .inl ⟨missing, hmissing, rfl, rfl⟩
  · exact .inr ⟨part, rfl, rfl⟩

/-- What the reader accepts it accepts whatever follows. -/
def Stable (r : Reader ε α) : Prop :=
  ∀ {bs a rest}, r bs = (.ok a, rest) → ∀ more, r (bs ++ more) = (.ok a, rest ++ more)

theorem stable_pure : Stable (pure a : Reader ε α) := by
  intro bs a' rest h more
  rw [pure_apply, Prod.mk.injEq] at h
  rw [pure_apply, h.1, h.2]

theorem stable_fail : Stable (fail e : Reader ε α) := by
  intro bs a' rest h
  cases h

theorem stable_take : Stable (take n e) := by
  intro bs a rest h more
  by_cases hn : n ≤ bs.length
  · have hdrop : (bs ++ more).drop n = bs.drop n ++ more := List.drop_append_of_le_length hn
    have htake : (bs ++ more).take n = bs.take n := List.take_append_of_le_length hn
    rw [take_of_le hn, Prod.mk.injEq, Except.ok.injEq] at h
    obtain ⟨rfl, rfl⟩ := h
    rw [take_of_le (by rw [List.length_append]; omega), hdrop]
    simp only [htake]
  · rw [take_of_lt (by omega)] at h
    cases h

theorem Stable.bind (hr : r.Stable) (hf : ∀ a, (f a).Stable) : (r >>= f).Stable := by
  intro bs b rest h more
  obtain ⟨a, cs, hbs, hcs⟩ := bind_eq_ok.mp h
  rw [bind_of_ok (hr hbs more)]
  exact hf a hcs more

/-- A stable reader accepts no proper prefix of what it decodes: it was cut short, and
that is noticed. -/
theorem Stable.refuses (hr : r.Stable) {cut : Bytes} (hd : r.Decodes (bs ++ cut) a) (hcut : cut ≠ []) :
    ∃ e, (r bs).1 = .error e := by
  rcases h : r bs with ⟨e | a', rest⟩
  · exact ⟨e, rfl⟩
  · have hmore := (hr h cut).symm.trans hd.eq_nil
    rw [Prod.mk.injEq, List.append_eq_nil_iff] at hmore
    exact absurd hmore.2.2 hcut

/-! ## Reading as far as it goes -/

/-- What the readers have read one after another when the first of them fails, or the last
one is through. -/
def collect : List (Reader ε α) → Bytes → List α
  | [], _ => []
  | r :: rs, bs =>
    match r bs with
    | (.ok a, rest) => a :: collect rs rest
    | (.error _, _) => []

theorem collect_of_ok {rs : List (Reader ε α)} (h : r bs = (.ok a, rest)) :
    collect (r :: rs) bs = a :: collect rs rest := by
  rw [collect, h]

theorem collect_of_error {rs : List (Reader ε α)} (h : (r bs).1 = .error e) :
    collect (r :: rs) bs = [] := by
  rcases hr : r bs with ⟨e' | a', rest⟩
  · rw [collect, hr]
  · rw [hr] at h
    cases h

/-- Where a sequence of encodings is cut short, the values in front of the cut are read, and
not the one that is cut into, nor those behind it. -/
theorem collect_cut {enc : α → Bytes} {rs : List (Reader ε α)} {as : List α} {cut : Bytes}
    (hrs : List.Forall₂ (fun r a => r.Stable ∧ r.Decodes (enc a) a) rs as)
    (h : bs ++ cut = as.flatMap enc) (hcut : cut ≠ []) :
    ∃ a unset, as = collect rs bs ++ a :: unset ∧ (unset.flatMap enc).length < cut.length ∧
      cut.length ≤ ((a :: unset).flatMap enc).length := by
  induction hrs generalizing bs with
  | nil => exact absurd (List.append_eq_nil_iff.mp h).2 hcut
  | @cons r a rs as hr _ ih =>
    obtain ⟨hstable, hdecodes⟩ := hr
    rw [List.flatMap_cons] at h
    obtain ⟨missing, hmissing, ha, rfl⟩ | ⟨part, rfl, hpart⟩ := append_cut h
    · obtain ⟨e, he⟩ := hstable.refuses (ha ▸ hdecodes) hmissing
      have hpos : 0 < missing.length := List.length_pos_iff.mpr hmissing
      have hlen := congrArg List.length ha
      rw [List.length_append] at hlen
      refine ⟨a, as, ?_, ?_, ?_⟩
      · rw [collect_of_error he, List.nil_append]
      · rw [List.length_append]
        omega
      · rw [List.flatMap_cons, List.length_append, List.length_append]
        omega
    · obtain ⟨b, unset, has, hbehind, hinside⟩ := ih hpart
      refine ⟨b, unset, ?_, hbehind, hinside⟩
      rw [collect_of_ok (hdecodes part), List.cons_append, ← has]

end Reader
