/-
Rows grouped by a key into a map of accumulators.

`Grouped` says what a map of groups is after some rows: each group's value
holds the rows of its key, and there is a group for each key that a row has.
One more row keeps it. What the groups add up to is then what the rows add up
to, and the order of the rows shows in no group.
-/
import Mathlib.Algebra.BigOperators.Group.List.Lemmas
import Atmux.Lib.Result
import Atmux.Lib.SortedMap

namespace Lib

variable {K V R : Type} {ε : Type} [LinearOrder K]

/-- The value under a key, or a first one, changed. -/
def SortedMap.change (m : SortedMap K V) (k : K) (first : V) (f : V → Except ε V) : Except ε (SortedMap K V) :=
  m.insert k <$> f ((m.find? k).getD first)

structure Grouped (key : R → Option K) (holds : V → List R → Prop) (m : SortedMap K V) (rows : List R) : Prop where
  keyed : ∀ row ∈ rows, ∃ k, key row = some k
  present : ∀ k, (m.find? k).isSome = true ↔ ∃ row ∈ rows, key row = some k
  held : ∀ k v, m.find? k = some v → holds v (rows.filter fun row => key row = some k)

variable {key : R → Option K} {holds : V → List R → Prop} {m m' : SortedMap K V} {rows rows' : List R} {row : R} {k : K}

theorem SortedMap.find?_insert {v : V} {k' : K} : (m.insert k v).find? k' = if k' = k then some v else m.find? k' :=
  Entries.find?_insert

theorem SortedMap.mem_entries {v : V} : (k, v) ∈ m.entries ↔ m.find? k = some v :=
  ⟨Entries.find?_of_mem m.ascending, Entries.mem_of_find?⟩

theorem SortedMap.keys_nodup (m : SortedMap K V) : (Entries.keys m.entries).Nodup :=
  List.pairwise_map.2 (m.ascending.imp fun h => ne_of_lt h)

theorem SortedMap.change_ne_error {m : SortedMap K V} {first : V} {f : V → Except ε V} {e : ε}
    (h : f ((m.find? k).getD first) ≠ .error e) : m.change k first f ≠ .error e := fun hchange => h (map_error hchange)

namespace Grouped

theorem empty : Grouped key holds (SortedMap.empty : SortedMap K V) [] where
  keyed := fun _ h => (by cases h)
  present := fun k => by simp [SortedMap.empty, SortedMap.find?, Entries.find?]
  held := fun _ _ h => (by cases h)

/-- However the rows of a key are picked out, its group holds them. -/
theorem held_filter (h : Grouped key holds m rows) {v : V} (hfind : m.find? k = some v) (p : R → Bool)
    (hp : ∀ row, p row = true ↔ key row = some k) : holds v (rows.filter p) := by
  have hsame : rows.filter p = rows.filter fun row => key row = some k :=
    List.filter_congr fun row _ => by rw [Bool.eq_iff_iff, hp row, decide_eq_true_iff]
  rw [hsame]
  exact h.held k v hfind

/-- The group of a key holds the rows of the key, also when there is none yet. -/
theorem held_getD (h : Grouped key holds m rows) {first : V} (hfirst : holds first []) (k : K) :
    holds ((m.find? k).getD first) (rows.filter fun row => key row = some k) := by
  cases hfind : m.find? k with
  | some v => exact h.held k v hfind
  | none =>
    have hnone : (rows.filter fun row => key row = some k) = [] := by
      refine List.filter_eq_nil_iff.2 fun row hrow hkey => ?_
      have hsome := (h.present k).2 ⟨row, hrow, by simpa using hkey⟩
      rw [hfind] at hsome
      cases hsome
    rw [hnone]
    exact hfirst

/-- One more row goes to the group of its key. -/
theorem change {first : V} {f : V → Except ε V} (h : Grouped key holds m rows) (hkey : key row = some k)
    (hfirst : holds first [])
    (hstep : ∀ v v' group, holds v group → f v = .ok v' → holds v' (group ++ [row]))
    (hok : m.change k first f = .ok m') : Grouped key holds m' (rows ++ [row]) := by
  obtain ⟨v, hv, rfl⟩ := map_ok hok
  have hnew : holds v ((rows ++ [row]).filter fun row => key row = some k) := by
    have hone : [row].filter (fun row => key row = some k) = [row] := by simp [hkey]
    rw [List.filter_append, hone]
    exact hstep _ _ _ (h.held_getD hfirst k) hv
  have hother : ∀ k', k' ≠ k →
      ((rows ++ [row]).filter fun row => key row = some k') = rows.filter fun row => key row = some k' := by
    intro k' hne
    have hnot : ¬ key row = some k' := fun heq => hne (Option.some.inj (heq.symm.trans hkey))
    have hnone : [row].filter (fun row => key row = some k') = [] := by simp [hnot]
    rw [List.filter_append, hnone, List.append_nil]
  refine ⟨?_, fun k' => ?_, fun k' v' hfind => ?_⟩
  · intro other hother
    rcases List.mem_append.1 hother with hmem | hlast
    · exact h.keyed other hmem
    · obtain rfl := List.mem_singleton.1 hlast
      exact ⟨k, hkey⟩
  · rw [SortedMap.find?_insert]
    split
    next heq =>
      subst heq
      exact ⟨fun _ => ⟨row, List.mem_append_right _ List.mem_cons_self, hkey⟩, fun _ => rfl⟩
    next hne =>
      rw [h.present k']
      constructor
      · rintro ⟨found, hmem, hfound⟩
        exact ⟨found, List.mem_append_left _ hmem, hfound⟩
      · rintro ⟨found, hmem, hfound⟩
        rcases List.mem_append.1 hmem with hbefore | hlast
        · exact ⟨found, hbefore, hfound⟩
        · obtain rfl := List.mem_singleton.1 hlast
          exact absurd (Option.some.inj (hfound.symm.trans hkey)) hne
  · rw [SortedMap.find?_insert] at hfind
    split at hfind
    next heq =>
      obtain rfl := Option.some.inj hfind
      rw [heq]
      exact hnew
    next hne =>
      rw [hother k' hne]
      exact h.held k' v' hfind

/-! ## Sums -/

theorem sum_indicator {M : Type} [AddCommMonoid M] {keys : List K} (hnodup : keys.Nodup) (hmem : k ∈ keys) (a : M) :
    (keys.map fun k' => if k = k' then a else 0).sum = a := by
  induction keys with
  | nil => cases hmem
  | cons first keys ih =>
    obtain ⟨hfirst, hrest⟩ := List.nodup_cons.1 hnodup
    rw [List.map_cons, List.sum_cons]
    by_cases heq : k = first
    · have hzero : (keys.map fun k' => if k = k' then a else 0) = keys.map fun _ => 0 := by
        refine List.map_congr_left fun k' hk' => if_neg ?_
        rintro rfl
        exact hfirst (heq ▸ hk')
      rw [if_pos heq, hzero]
      simp
    · rw [if_neg heq, zero_add]
      exact ih hrest ((List.mem_cons.1 hmem).resolve_left heq)

/-- A sum over rows is the sum, over their keys, of the sums over the rows of each. -/
theorem sum_fibers {M : Type} [AddCommMonoid M] (weight : R → M) {keys : List K} (hnodup : keys.Nodup)
    (hrows : ∀ row ∈ rows, ∃ k ∈ keys, key row = some k) :
    (keys.map fun k => ((rows.filter fun row => key row = some k).map weight).sum).sum = (rows.map weight).sum := by
  induction rows with
  | nil => simp
  | cons row rows ih =>
    obtain ⟨k, hk, hkey⟩ := hrows row List.mem_cons_self
    have hsplit : ∀ k', (((row :: rows).filter fun row => key row = some k').map weight).sum =
        (if k = k' then weight row else 0) + ((rows.filter fun row => key row = some k').map weight).sum := by
      intro k'
      rw [List.filter_cons, hkey]
      by_cases heq : k = k'
      · simp [heq]
      · simp [heq]
    rw [List.map_congr_left fun k' _ => hsplit k', List.sum_map_add, sum_indicator hnodup hk, List.map_cons, List.sum_cons,
      ih fun row hrow => hrows row (List.mem_cons_of_mem _ hrow)]

/-- The groups add up to what the rows add up to. -/
theorem sum {M : Type} [AddCommMonoid M] (weight : R → M) (size : V → M) (h : Grouped key holds m rows)
    (hsize : ∀ v group, holds v group → size v = (group.map weight).sum) :
    (m.values.map size).sum = (rows.map weight).sum := by
  have hentries : m.values.map size =
      (Entries.keys m.entries).map fun k => ((rows.filter fun row => key row = some k).map weight).sum := by
    rw [SortedMap.values, Entries.keys, List.map_map, List.map_map]
    refine List.map_congr_left fun entry hentry => ?_
    exact hsize _ _ (h.held entry.1 entry.2 (SortedMap.mem_entries.1 hentry))
  rw [hentries]
  refine sum_fibers weight m.keys_nodup fun row hrow => ?_
  obtain ⟨k, hkey⟩ := h.keyed row hrow
  exact ⟨k, SortedMap.contains_iff.1 ((h.present k).2 ⟨row, hrow, hkey⟩), hkey⟩

/-! ## Order -/

/-- Rows in another order make the same groups, as far as a measure of a group does not see that order. -/
theorem perm {M : Type} (measure : K → V → M) (h : Grouped key holds m rows) (h' : Grouped key holds m' rows')
    (hrows : rows.Perm rows')
    (hmeasure : ∀ k v v' group group', holds v group → holds v' group' → group.Perm group' →
      measure k v = measure k v') :
    (m.entries.map fun entry => (entry.1, measure entry.1 entry.2)).Perm
      (m'.entries.map fun entry => (entry.1, measure entry.1 entry.2)) := by
  have hnodup : ∀ m : SortedMap K V, (m.entries.map fun entry => (entry.1, measure entry.1 entry.2)).Nodup := by
    intro m
    refine List.Nodup.of_map Prod.fst ?_
    rw [List.map_map]
    exact m.keys_nodup
  have hkeeps : ∀ {m m' : SortedMap K V} {rows rows' : List R}, Grouped key holds m rows → Grouped key holds m' rows' →
      rows.Perm rows' → ∀ a ∈ m.entries.map (fun entry => (entry.1, measure entry.1 entry.2)),
        a ∈ m'.entries.map fun entry => (entry.1, measure entry.1 entry.2) := by
    intro m m' rows rows' h h' hrows a ha
    obtain ⟨⟨k, v⟩, hentry, rfl⟩ := List.mem_map.1 ha
    have hfind := SortedMap.mem_entries.1 hentry
    obtain ⟨row, hrow, hkey⟩ := (h.present k).1 (by rw [hfind]; rfl)
    obtain ⟨v', hfind'⟩ := Option.isSome_iff_exists.1 ((h'.present k).2 ⟨row, hrows.subset hrow, hkey⟩)
    refine List.mem_map.2 ⟨(k, v'), SortedMap.mem_entries.2 hfind', ?_⟩
    rw [hmeasure k v v' _ _ (h.held k v hfind) (h'.held k v' hfind') (hrows.filter _)]
  exact (List.perm_ext_iff_of_nodup (hnodup m) (hnodup m')).2 fun a =>
    ⟨hkeeps h h' hrows a, hkeeps h' h hrows.symm a⟩

end Grouped

end Lib
