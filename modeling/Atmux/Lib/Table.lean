/-
A database table: rows by their primary key, and queries over them.

An insert files a row under its own key, so a table cannot hold a row twice or
under another's key. `orderBy` is `ORDER BY` on columns that tell the selected
rows apart (`orderBy_ascending`), and it does not matter whether `WHERE` drops
rows before or after it (`orderBy_filter`).
-/
import Mathlib.Data.List.Sort
import Atmux.Lib.SortedMap

namespace Lib

variable {K V R : Type} [LinearOrder K]

/-- Rows by primary key. -/
structure Table (key : R → K) extends SortedMap K R where
  keyed : ∀ a ∈ entries, a.1 = key a.2

namespace Table

variable {key : R → K}

def empty : Table key := ⟨.empty, fun _ hmem => (by cases hmem)⟩

def rows (table : Table key) : List R := table.values

/-- `INSERT`, in place of the row with the key. -/
def upsert (table : Table key) (row : R) : Table key where
  toSortedMap := table.insert (key row) row
  keyed a ha := by
    rcases Entries.mem_insert ha with rfl | ha
    · rfl
    · exact table.keyed a ha

variable {table : Table key} {row : R} {k : K}

theorem mem_rows : row ∈ table.rows ↔ table.find? (key row) = some row := by
  refine ⟨fun h => ?_, fun h => List.mem_map.mpr ⟨_, Entries.mem_of_find? h, rfl⟩⟩
  obtain ⟨a, ha, rfl⟩ := List.mem_map.mp h
  have hkey : (key a.2, a.2) ∈ table.entries := table.keyed a ha ▸ ha
  exact Entries.find?_of_mem table.ascending hkey

theorem key_of_find? (h : table.find? k = some row) : key row = k := (table.keyed _ (Entries.mem_of_find? h)).symm

theorem find?_upsert : (table.upsert row).find? k = if k = key row then some row else table.find? k :=
  Entries.find?_insert

@[simp] theorem find?_upsert_self : (table.upsert row).find? (key row) = some row := by
  rw [find?_upsert, if_pos rfl]

theorem find?_upsert_of_ne (h : k ≠ key row) : (table.upsert row).find? k = table.find? k := by
  rw [find?_upsert, if_neg h]

/-- No key is lost. -/
theorem isSome_upsert (h : (table.find? k).isSome) : ((table.upsert row).find? k).isSome := by
  rw [find?_upsert]
  split
  · rfl
  · exact h

theorem mem_upsert {a : R} (h : a ∈ (table.upsert row).rows) : a = row ∨ a ∈ table.rows := by
  rw [mem_rows, find?_upsert] at h
  split at h
  · exact .inl (Option.some.inj h).symm
  · exact .inr (mem_rows.mpr h)

theorem length_rows_upsert_le : (table.upsert row).rows.length ≤ table.rows.length + 1 := by
  simpa [rows, SortedMap.values, upsert] using Entries.insert_length_le

/-- A row that is replaced is not one more. -/
theorem length_rows_upsert (h : (table.find? (key row)).isSome) : (table.upsert row).rows.length = table.rows.length := by
  have hmem := SortedMap.contains_iff.mp h
  simpa [rows, SortedMap.values, upsert] using Entries.length_insert_of_mem table.ascending hmem

/-- `DELETE` of the rows that `p` does not select. -/
def filter (p : R → Bool) (table : Table key) : Table key where
  entries := table.entries.filter fun a => p a.2
  ascending := List.Pairwise.filter _ table.ascending
  keyed a ha := table.keyed a (List.mem_of_mem_filter ha)

theorem rows_filter {p : R → Bool} : (table.filter p).rows = table.rows.filter p := by
  show (table.entries.filter _).map Prod.snd = (table.entries.map Prod.snd).filter p
  rw [List.filter_map]
  rfl

theorem filter_eq_self {p : R → Bool} (h : ∀ row ∈ table.rows, p row = true) : table.filter p = table := by
  have hentries : table.entries.filter (fun a => p a.2) = table.entries :=
    List.filter_eq_self.mpr fun a ha => h a.2 (List.mem_map_of_mem ha)
  obtain ⟨⟨entries, ascending⟩, keyed⟩ := table
  simp only [filter, mk.injEq]
  exact (SortedMap.mk.injEq ..).mpr hentries

/-- `UPDATE`, of columns that are not the key. -/
def update (f : R → R) (hf : ∀ row, key (f row) = key row) (table : Table key) : Table key where
  entries := table.entries.map fun a => (a.1, f a.2)
  ascending := List.pairwise_map.mpr (table.ascending.imp fun h => h)
  keyed a ha := by
    obtain ⟨b, hb, rfl⟩ := List.mem_map.mp ha
    rw [hf]
    exact table.keyed b hb

theorem rows_update {f : R → R} {hf : ∀ row, key (f row) = key row} : (table.update f hf).rows = table.rows.map f := by
  show (table.entries.map _).map Prod.snd = (table.entries.map Prod.snd).map f
  rw [List.map_map, List.map_map]
  rfl

theorem mem_update {f : R → R} {hf : ∀ row, key (f row) = key row} :
    row ∈ (table.update f hf).rows ↔ ∃ old ∈ table.rows, f old = row := by
  rw [rows_update, List.mem_map]

theorem eq_of_key {a b : R} (ha : a ∈ table.rows) (hb : b ∈ table.rows) (h : key a = key b) : a = b := by
  rw [mem_rows] at ha hb
  rw [h, hb] at ha
  exact (Option.some.inj ha).symm

/-- Rows are told apart by their key. -/
theorem rows_pairwise (table : Table key) : table.rows.Pairwise fun a b => key a < key b := by
  refine List.pairwise_map.mpr (table.ascending.imp_of_mem fun {a b} ha hb hlt => ?_)
  rwa [← table.keyed a ha, ← table.keyed b hb]

end Table

/-! ## Order -/

/-- `ORDER BY`. -/
def orderBy (column : R → K) (rows : List R) : List R := rows.insertionSort fun a b => column a ≤ column b

variable {column : R → K} {rows : List R}

theorem mem_orderBy {row : R} : row ∈ orderBy column rows ↔ row ∈ rows := List.mem_insertionSort _

/-- `LIMIT 1`. -/
theorem head?_orderBy {row : R} (h : (orderBy column rows).head? = some row) :
    row ∈ rows ∧ ∀ other ∈ rows, column row ≤ column other := by
  obtain ⟨rest, hrest⟩ := List.head?_eq_some_iff.mp h
  have hle : (orderBy column rows).Pairwise fun a b => column a ≤ column b :=
    List.pairwise_insertionSort (fun a b : R => column a ≤ column b) rows
  refine ⟨mem_orderBy.mp (hrest ▸ List.mem_cons_self), fun other hother => ?_⟩
  rw [hrest] at hle
  rcases List.mem_cons.mp (hrest ▸ mem_orderBy.mpr hother) with rfl | hother
  · exact le_refl _
  · exact (List.pairwise_cons.mp hle).1 other hother

theorem orderBy_ascending (h : (rows.map column).Nodup) : (orderBy column rows).Pairwise fun a b => column a < column b := by
  have hle : (orderBy column rows).Pairwise fun a b => column a ≤ column b :=
    List.pairwise_insertionSort (fun a b : R => column a ≤ column b) rows
  have hperm : ((orderBy column rows).map column).Nodup :=
    (((List.perm_insertionSort (fun a b : R => column a ≤ column b) rows).map column).nodup_iff).mpr h
  exact hle.imp₂ (fun _ _ hle hne => lt_of_le_of_ne hle hne) (List.pairwise_map.mp hperm)

/-- The columns tell the rows apart, so there is one order. -/
theorem orderBy_filter (h : (rows.map column).Nodup) (p : R → Bool) :
    orderBy column (rows.filter p) = (orderBy column rows).filter p := by
  have hfilter : ((rows.filter p).map column).Nodup := h.sublist (List.filter_sublist.map column)
  refine List.Perm.eq_of_pairwise (fun a b _ _ hab hba => absurd hab (lt_asymm hba)) (orderBy_ascending hfilter)
    (List.Pairwise.filter p (orderBy_ascending h)) ?_
  exact (List.perm_insertionSort _ _).trans ((List.perm_insertionSort _ _).filter p).symm

/-- The first rows of an order are those that few others are before. -/
theorem mem_take_iff (h : rows.Pairwise fun a b => column a < column b) {n : Nat} {row : R} :
    row ∈ rows.take n ↔ row ∈ rows ∧ (rows.filter fun other => column other < column row).length < n := by
  induction rows generalizing n with
  | nil => simp
  | cons first rows ih =>
    obtain ⟨hfirst, hrest⟩ := List.pairwise_cons.mp h
    cases n with
    | zero => simp
    | succ n =>
      rw [List.take_succ_cons, List.mem_cons, List.mem_cons, ih hrest]
      constructor
      · rintro (rfl | ⟨hmem, hlt⟩)
        · have hnone : (rows.filter fun other => decide (column other < column row)) = [] := by
            rw [List.filter_eq_nil_iff]
            intro other hother
            simpa using (hfirst other hother).le
          refine ⟨.inl rfl, ?_⟩
          rw [List.filter_cons, if_neg (by simp), hnone]
          exact Nat.succ_pos _
        · refine ⟨.inr hmem, ?_⟩
          rw [List.filter_cons, if_pos (by simpa using hfirst row hmem)]
          exact Nat.succ_lt_succ hlt
      · rintro ⟨rfl | hmem, hlt⟩
        · exact .inl rfl
        · rw [List.filter_cons, if_pos (by simpa using hfirst row hmem)] at hlt
          exact .inr ⟨hmem, Nat.lt_of_succ_lt_succ hlt⟩

theorem mem_take_orderBy (h : (rows.map column).Nodup) {n : Nat} {row : R} :
    row ∈ (orderBy column rows).take n ↔ row ∈ rows ∧ (rows.filter fun other => column other < column row).length < n := by
  rw [mem_take_iff (orderBy_ascending h), mem_orderBy]
  rw [((List.perm_insertionSort (fun a b : R => column a ≤ column b) rows).filter _).length_eq.symm]
  rfl

/-- What follows the first rows of an order lies beyond the last of them. -/
theorem filter_beyond_last (h : rows.Pairwise fun a b => column a < column b) {n : Nat} {last : R}
    (hlast : (rows.take n).getLast? = some last) :
    rows.filter (fun row => Entries.beyond (some (column last)) (column row)) = rows.drop n := by
  have hs : Entries.Ascending (rows.map fun row => (column row, row)) := List.pairwise_map.mpr h
  have hlast' : ((rows.map fun row => (column row, row)).take n).getLast? = some (column last, last) := by
    rw [← List.map_take, List.getLast?_map, hlast]
    rfl
  have habove := congrArg (List.map Prod.snd) (Entries.above_eq_drop hs hlast')
  simpa [Entries.above, List.filter_map, Function.comp_def, ← List.map_drop] using habove

end Lib
