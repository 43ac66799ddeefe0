-- SUMMARY: Finite tables keyed by a decidable type, with the inserting index operator of C++ hash maps.
import Mathlib.Data.List.AList

/-!
# Key tables

A key table is an association list without repeated keys. Besides the
operations it takes over from `AList` it has `index`, the lookup that inserts a
default entry when the key is missing.
-/

universe u v

/-- A finite table from keys in `κ` to values in `ν`. -/
abbrev KeyTable (κ : Type u) (ν : Type v) : Type (max u v) := AList (fun _ : κ => ν)

namespace KeyTable

variable {κ : Type u} {ν : Type v} [DecidableEq κ] {t : KeyTable κ ν} {k k' : κ} {v : ν}

/-- Whether the table has an entry for `k`. -/
def contains (t : KeyTable κ ν) (k : κ) : Bool := (t.lookup k).isSome

/-- The value at `k`, or the default value when there is none. -/
def value [Inhabited ν] (t : KeyTable κ ν) (k : κ) : ν := (t.lookup k).getD default

/-- The value at `k` together with the table, to which an entry with the default
value is added when it has none for `k`. -/
def index [Inhabited ν] (t : KeyTable κ ν) (k : κ) : ν × KeyTable κ ν :=
  match t.lookup k with
  | some v => (v, t)
  | none => (default, t.insert k default)

/-- The values of all entries. -/
def values (t : KeyTable κ ν) : List ν := t.entries.map (·.2)

theorem contains_iff : t.contains k = true ↔ ∃ v, t.lookup k = some v := by
  simp [contains, Option.isSome_iff_exists]

theorem contains_eq_false_iff : t.contains k = false ↔ t.lookup k = none := by
  simp [contains]

theorem mem_values_iff : v ∈ t.values ↔ ∃ k, t.lookup k = some v := by
  simp only [values, List.mem_map]
  constructor
  · rintro ⟨⟨k, w⟩, hmem, rfl⟩
    exact ⟨k, AList.mem_lookup_iff.mpr hmem⟩
  · rintro ⟨k, hk⟩
    exact ⟨⟨k, v⟩, AList.mem_lookup_iff.mp hk, rfl⟩

/-- What holds of all entries, looked up or listed. -/
theorem forall_lookup_iff {P : κ → ν → Prop} :
    (∀ k v, t.lookup k = some v → P k v) ↔ ∀ e ∈ t.entries, P e.1 e.2 := by
  constructor
  · intro h e he
    exact h e.1 e.2 (AList.mem_lookup_iff.mpr he)
  · intro h k v hk
    exact h ⟨k, v⟩ (AList.mem_lookup_iff.mp hk)

/-- Where no value has two keys, none is listed twice. -/
theorem nodup_values (h : ∀ k k' v, t.lookup k = some v → t.lookup k' = some v → k = k') :
    t.values.Nodup := by
  refine t.nodupKeys.nodup.map_on ?_
  rintro ⟨k, v⟩ hx ⟨k', v'⟩ hy hv
  obtain rfl : v = v' := hv
  obtain rfl := h k k' v (AList.mem_lookup_iff.mpr hx) (AList.mem_lookup_iff.mpr hy)
  rfl

theorem lookup_insert_eq : (AList.insert k v t).lookup k' = if k' = k then some v else t.lookup k' := by
  split
  · next h => rw [h, AList.lookup_insert]
  · next h => rw [AList.lookup_insert_ne h]

theorem lookup_erase_eq : (AList.erase k t).lookup k' = if k' = k then none else t.lookup k' := by
  split
  · next h => rw [h, AList.lookup_erase]
  · next h => rw [AList.lookup_erase_ne h]

/-- A key that is there has one entry. -/
theorem length_erase (hk : t.lookup k = some v) : (AList.erase k t).entries.length + 1 = t.entries.length := by
  have hmem : ⟨k, v⟩ ∈ t.entries := AList.mem_lookup_iff.mp hk
  have herase : (AList.erase k t).entries.length = t.entries.length - 1 :=
    List.length_eraseP_of_mem hmem (by simp)
  have hpos := List.length_pos_of_mem hmem
  omega

variable [Inhabited ν]

theorem index_of_lookup (hk : t.lookup k = some v) : t.index k = (v, t) := by simp [index, hk]

theorem index_of_lookup_none (hk : t.lookup k = none) :
    t.index k = (default, t.insert k default) := by
  simp [index, hk]

theorem value_of_lookup (hk : t.lookup k = some v) : t.value k = v := by simp [value, hk]

end KeyTable
