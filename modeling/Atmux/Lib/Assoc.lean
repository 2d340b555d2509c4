/-
Hash maps as association lists: what is left under a key when entries are
dropped or changed, and how many keys have a property.
-/
import Mathlib.Data.List.AList

namespace Lib.Assoc

variable {K V : Type} [DecidableEq K]

/-- A map's entries by key. -/
abbrev Map (K V : Type) : Type := AList fun _ : K => V

/-- `HashMap::retain`. -/
def retain (p : K → V → Bool) (m : Map K V) : Map K V where
  entries := m.entries.filter fun entry => p entry.1 entry.2
  nodupKeys := m.nodupKeys.sublist List.filter_sublist

/-- Every value changed in its place. -/
def mapValues (f : K → V → V) (m : Map K V) : Map K V where
  entries := m.entries.map fun entry => ⟨entry.1, f entry.1 entry.2⟩
  nodupKeys := by
    have hkeys : (m.entries.map fun entry => (⟨entry.1, f entry.1 entry.2⟩ : Sigma fun _ : K => V)).keys = m.entries.keys := by
      simp only [List.keys, List.map_map]
      rfl
    rw [List.NodupKeys, hkeys]
    exact m.nodupKeys

/-- How many keys have a property. -/
def countKeys (p : K → Bool) (m : Map K V) : Nat := m.keys.countP p

variable {m : Map K V} {k k' : K} {v : V} {p : K → Bool} {n : Nat}

theorem lookup_retain (q : K → V → Bool) : (retain q m).lookup k = (m.lookup k).filter (q k) := by
  refine Option.ext fun v => ?_
  have hleft : (retain q m).lookup k = some v ↔ (⟨k, v⟩ : Sigma fun _ : K => V) ∈ (retain q m).entries := AList.mem_lookup_iff
  have hright : m.lookup k = some v ↔ (⟨k, v⟩ : Sigma fun _ : K => V) ∈ m.entries := AList.mem_lookup_iff
  rw [hleft, Option.filter_eq_some_iff, hright]
  exact List.mem_filter

theorem lookup_mapValues (f : K → V → V) : (mapValues f m).lookup k = (m.lookup k).map (f k) := by
  cases hlookup : m.lookup k with
  | none =>
    have hkeys : (mapValues f m).keys = m.keys := by
      simp only [AList.keys, mapValues, List.keys, List.map_map]
      rfl
    refine AList.lookup_eq_none.mpr fun hmem => AList.lookup_eq_none.mp hlookup ?_
    rw [AList.mem_keys] at hmem ⊢
    rwa [hkeys] at hmem
  | some v =>
    have hmem : (⟨k, v⟩ : Sigma fun _ : K => V) ∈ m.entries := AList.mem_lookup_iff.mp hlookup
    have hnew : f k v ∈ (mapValues f m).lookup k := AList.mem_lookup_iff.mpr (List.mem_map.mpr ⟨⟨k, v⟩, hmem, rfl⟩)
    exact hnew

theorem lookup_insert : (AList.insert k v m).lookup k' = if k' = k then some v else m.lookup k' := by
  by_cases h : k' = k
  · subst h
    rw [if_pos rfl, AList.lookup_insert]
  · rw [if_neg h, AList.lookup_insert_ne h]

omit [DecidableEq K] in
theorem countKeys_retain_le (q : K → V → Bool) : countKeys p (retain q m) ≤ countKeys p m :=
  (List.filter_sublist.map Sigma.fst).countP_le

omit [DecidableEq K] in
theorem countKeys_mapValues (f : K → V → V) : countKeys p (mapValues f m) = countKeys p m := by
  simp only [countKeys, AList.keys, mapValues, List.keys, List.map_map]
  rfl

/-- A value under a key that is there adds no key. -/
theorem countKeys_insert_of_some (h : (m.lookup k).isSome) : countKeys p (AList.insert k v m) = countKeys p m := by
  have hmem : k ∈ m.keys := AList.mem_keys.mp (AList.lookup_isSome.mp h)
  rw [countKeys, AList.keys_insert]
  exact ((List.perm_cons_erase hmem).countP_eq p).symm

theorem countKeys_insert_of_none (h : m.lookup k = none) :
    countKeys p (AList.insert k v m) = countKeys p m + if p k then 1 else 0 := by
  have hmem : k ∉ m.keys := fun hmem => AList.lookup_eq_none.mp h (AList.mem_keys.mpr hmem)
  rw [countKeys, AList.keys_insert, List.erase_of_not_mem hmem, List.countP_cons]
  rfl

end Lib.Assoc
