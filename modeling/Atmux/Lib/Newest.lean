/-
Thinning the rows of a table to the newest of each partition.

`thin` is a `DELETE` of the rows of a range whose `ROW_NUMBER` in their
partition is above one. It leaves a newest row in place of each that it drops
(`thin_covers`), of the partition itself and of any that it refines, so
however often a history is thinned on the way, what thinning it at the end
leaves of a partition is the newest of all the rows there ever were
(`Covers.newest_iff`).
-/
import Mathlib.Data.List.MinMax
import Mathlib.Order.Lattice

namespace Lib

variable {R P Q K : Type} [DecidableEq P] [LinearOrder K] {part : R → P} {coarse : R → Q} {column : R → K}
  {range p : R → Bool} {rows all kept : List R} {row other : R}

/-- `ROW_NUMBER() OVER (PARTITION BY part ORDER BY column DESC)`, for a column
that tells the rows apart. -/
def rowNumber (part : R → P) (column : R → K) (rows : List R) (row : R) : Nat :=
  (rows.filter fun other => part other = part row ∧ column row < column other).length + 1

/-- Drops the rows of a range that are not the first of their partition. -/
def thin (range : R → Bool) (part : R → P) (column : R → K) (rows : List R) : List R :=
  rows.filter fun row => !(range row && decide (1 < rowNumber part column (rows.filter range) row))

/-- No row of the list that `p` selects is newer. -/
def Newest (column : R → K) (rows : List R) (p : R → Bool) (row : R) : Prop :=
  row ∈ rows ∧ p row = true ∧ ∀ other ∈ rows, p other = true → column other ≤ column row

theorem rowNumber_le_one : rowNumber part column rows row ≤ 1 ↔
    ∀ other ∈ rows, part other = part row → column other ≤ column row := by
  have hzero : ∀ n, n + 1 ≤ 1 ↔ n = 0 := fun n => by omega
  rw [rowNumber, hzero, List.length_eq_zero_iff, List.filter_eq_nil_iff]
  simp only [decide_eq_true_eq, not_and, not_lt]

/-- What is left of a range is the newest of each partition. -/
theorem mem_thin : row ∈ thin range part column rows ↔ row ∈ rows ∧
    (range row = true → ∀ other ∈ rows, range other = true → part other = part row → column other ≤ column row) := by
  have hrank : ¬ 1 < rowNumber part column (rows.filter range) row ↔
      ∀ other ∈ rows, range other = true → part other = part row → column other ≤ column row := by
    rw [not_lt, rowNumber_le_one]
    simp only [List.mem_filter, and_imp]
  rw [thin, List.mem_filter, ← hrank]
  simp [imp_iff_not_or]

/-- Some row is the newest where there is one. -/
theorem exists_newest (hrow : row ∈ rows) (hp : p row = true) :
    ∃ newest, Newest column rows p newest ∧ column row ≤ column newest := by
  have hmem : row ∈ rows.filter p := List.mem_filter.mpr ⟨hrow, hp⟩
  cases hmax : (rows.filter p).argmax column with
  | none =>
    rw [List.argmax_eq_none.mp hmax] at hmem
    cases hmem
  | some newest =>
    obtain ⟨hnewest, hpnewest⟩ := List.mem_filter.mp (List.argmax_mem hmax)
    refine ⟨newest, ⟨hnewest, hpnewest, fun other hother hpother => ?_⟩, List.le_of_mem_argmax hmem hmax⟩
    exact List.le_of_mem_argmax (List.mem_filter.mpr ⟨hother, hpother⟩) hmax

/-- For each row that `p` selects there is one as new, of its partition, that
was kept. -/
def Covers (part : R → P) (column : R → K) (p : R → Bool) (all kept : List R) : Prop :=
  ∀ row ∈ all, p row = true → ∃ newer ∈ kept, part newer = part row ∧ column row ≤ column newer

/-- **Thinning by a partition covers every partition that it refines**, within
rows that keep their range. -/
theorem Covers.thin (h : Covers coarse column p all kept) (hrefines : ∀ a b, range a = true → part a = part b → coarse a = coarse b) :
    Covers coarse column p all (thin range part column kept) := by
  intro row hrow hp
  obtain ⟨newer, hnewer, hcoarse, hle⟩ := h row hrow hp
  cases hrange : range newer with
  | false =>
    refine ⟨newer, mem_thin.mpr ⟨hnewer, fun hrange' => ?_⟩, hcoarse, hle⟩
    rw [hrange] at hrange'
    cases hrange'
  | true =>
    have hselect : (range newer && decide (part newer = part newer)) = true := by simp [hrange]
    obtain ⟨newest, ⟨hmem, hselected, hnewest⟩, hle'⟩ : ∃ newest, Newest column kept
        (fun other => range other && decide (part other = part newer)) newest ∧ column newer ≤ column newest :=
      exists_newest hnewer hselect
    rw [Bool.and_eq_true, decide_eq_true_eq] at hselected
    refine ⟨newest, mem_thin.mpr ⟨hmem, fun _ other hother hrange' hpart => ?_⟩,
      (hrefines newest newer hselected.1 hselected.2).trans hcoarse, hle.trans hle'⟩
    exact hnewest other hother (by simp [hrange', hpart, hselected.2])

omit [DecidableEq P] in
/-- Dropping rows that no covered partition has keeps a cover. -/
theorem Covers.apart [DecidableEq Q] (h : Covers part column p all kept) (hapart : ∀ row ∈ all, p row = true → ∀ other ∈ kept,
    part other = part row → range other = false) : Covers part column p all (Lib.thin range coarse column kept) := by
  intro row hrow hp
  obtain ⟨newer, hnewer, hpart, hle⟩ := h row hrow hp
  refine ⟨newer, mem_thin.mpr ⟨hnewer, fun hrange => ?_⟩, hpart, hle⟩
  rw [hapart row hrow hp newer hnewer hpart] at hrange
  cases hrange

omit [DecidableEq P] in
theorem Covers.cons (h : Covers part column p all kept) (row : R) {kept' : List R} (hkept : ∀ other, other ∈ kept' ↔ other = row ∨ other ∈ kept) :
    Covers part column p (row :: all) kept' := by
  intro old hold hp
  rcases List.mem_cons.mp hold with rfl | hold
  · exact ⟨old, (hkept old).mpr (.inl rfl), rfl, le_refl _⟩
  · obtain ⟨newer, hnewer, hpart, hle⟩ := h old hold hp
    exact ⟨newer, (hkept newer).mpr (.inr hnewer), hpart, hle⟩

/-- **What thinning leaves of a partition within its range is the newest of all
there ever was.** -/
theorem Covers.newest_iff (h : Covers part column p all kept) (hkept : kept ⊆ all) {k : P}
    (hp : ∀ row ∈ all, part row = k → p row = true) (hrange : ∀ row ∈ all, part row = k → range row = true)
    (hcolumn : ∀ a ∈ all, ∀ b ∈ all, column a = column b → a = b) :
    row ∈ Lib.thin range part column kept ∧ part row = k ↔ Newest column all (fun other => part other = k) row := by
  constructor
  · rintro ⟨hrow, rfl⟩
    obtain ⟨hmem, hthin⟩ := mem_thin.mp hrow
    refine ⟨hkept hmem, by simp, fun other hother hpart => ?_⟩
    rw [decide_eq_true_eq] at hpart
    obtain ⟨newer, hnewer, hpart', hle⟩ := h other hother (hp other hother hpart)
    have hsame := hpart'.trans hpart
    exact hle.trans (hthin (hrange row (hkept hmem) rfl) newer hnewer (hrange newer (hkept hnewer) hsame) hsame)
  · rintro ⟨hrow, hpart, hnewest⟩
    rw [decide_eq_true_eq] at hpart
    obtain ⟨newer, hnewer, hpart', hle⟩ := h row hrow (hp row hrow hpart)
    have hsame := hpart'.trans hpart
    obtain rfl := hcolumn newer (hkept hnewer) row hrow (le_antisymm (hnewest newer (hkept hnewer) (by simp [hsame])) hle)
    refine ⟨mem_thin.mpr ⟨hnewer, fun _ other hother _ hpart'' => ?_⟩, hsame⟩
    exact hnewest other (hkept hother) (by simp [hpart'', hsame])

/-- Thinning drops nothing of what was thinned. -/
theorem thin_eq_self {thinned : List R} (h : thinned ⊆ thin range part column rows) : thin range part column thinned = thinned := by
  have hall : ∀ row ∈ thinned, (!(range row && decide (1 < rowNumber part column (thinned.filter range) row))) = true := by
    intro row hrow
    have hmem : row ∈ thin range part column thinned := mem_thin.mpr ⟨hrow, fun hrange other hother hrange' hpart =>
      (mem_thin.mp (h hrow)).2 hrange other (mem_thin.mp (h hother)).1 hrange' hpart⟩
    exact (List.mem_filter.mp hmem).2
  exact List.filter_eq_self.mpr hall

omit [DecidableEq P] in
theorem Newest.congr {q : R → Bool} (h : ∀ row ∈ rows, p row = q row) : Newest column rows p row ↔ Newest column rows q row := by
  unfold Newest
  refine and_congr_right fun hrow => ?_
  rw [h row hrow]
  refine and_congr_right fun _ => forall_congr' fun other => imp_congr_right fun hother => ?_
  rw [h other hother]

/-! ## The first of each partition -/

/-- The first row of each partition, in order. -/
def firsts (part : R → P) : List R → List R
  | [] => []
  | row :: rows => row :: (firsts part rows).filter fun other => part other ≠ part row

theorem firsts_sublist : (firsts part rows).Sublist rows := by
  induction rows with
  | nil => exact .slnil
  | cons row rows ih => exact .cons_cons row (List.filter_sublist.trans ih)

theorem firsts_pairwise : (firsts part rows).Pairwise fun a b => part a ≠ part b := by
  induction rows with
  | nil => exact .nil
  | cons row rows ih =>
    refine List.pairwise_cons.mpr ⟨fun other hother => ?_, ih.filter _⟩
    exact (of_decide_eq_true (List.mem_filter.mp hother).2).symm

/-- Of one partition there is one first row. -/
theorem length_firsts_le_one (h : ∀ row ∈ rows, ∀ other ∈ rows, p row = true → p other = true → part row = part other) :
    ((firsts part rows).filter p).length ≤ 1 := by
  have hapart := (@firsts_pairwise _ _ _ part rows).filter p
  have hmem : ∀ row ∈ (firsts part rows).filter p, row ∈ rows ∧ p row = true := fun row hrow =>
    (List.mem_filter.mp hrow).imp_left fun hrow => firsts_sublist.subset hrow
  generalize (firsts part rows).filter p = selected at hapart hmem ⊢
  cases selected with
  | nil => exact Nat.zero_le _
  | cons row selected =>
    cases selected with
    | nil => exact le_refl _
    | cons other selected =>
      obtain ⟨hrow, hprow⟩ := hmem row List.mem_cons_self
      obtain ⟨hother, hpother⟩ := hmem other (List.mem_cons_of_mem _ List.mem_cons_self)
      exact absurd (h row hrow other hother hprow hpother) ((List.pairwise_cons.mp hapart).1 other List.mem_cons_self)

/-- In the order of a column the first of a partition is its newest. -/
theorem mem_firsts (h : rows.Pairwise fun a b => part a = part b → column b < column a) :
    row ∈ firsts part rows ↔ Newest column rows (fun other => part other = part row) row := by
  induction rows with
  | nil => exact ⟨fun hmem => (by cases hmem), fun hnewest => (by cases hnewest.1)⟩
  | cons first rows ih =>
    obtain ⟨hfirst, h⟩ := List.pairwise_cons.mp h
    simp only [firsts, List.mem_cons, List.mem_filter, ih h, Newest, decide_eq_true_eq, true_and]
    constructor
    · rintro (rfl | ⟨⟨hmem, hnewest⟩, hpart⟩)
      · refine ⟨.inl rfl, fun other hother hsame => ?_⟩
        rcases hother with rfl | hother
        · exact le_refl _
        · exact (hfirst other hother hsame.symm).le
      · refine ⟨.inr hmem, fun other hother hsame => ?_⟩
        rcases hother with rfl | hother
        · exact absurd hsame.symm hpart
        · exact hnewest other hother hsame
    · rintro ⟨hmem, hnewest⟩
      by_cases hpart : part row = part first
      · refine .inl ?_
        rcases hmem with hmem | hmem
        · exact hmem
        · exact absurd (hnewest first (.inl rfl) hpart.symm) (not_le.mpr (hfirst row hmem hpart.symm))
      · rcases hmem with rfl | hmem
        · exact absurd rfl hpart
        · exact .inr ⟨⟨hmem, fun other hother hsame => hnewest other (.inr hother) hsame⟩, hpart⟩

/-- A fold that adds what it makes of the first row of each partition, and
nothing for the others. -/
theorem foldl_firsts {A V : Type} {step : A → R → A} {make : R → V} {I : A → Prop} (view : A → List V) (partOf : V → P)
    (hmake : ∀ row, partOf (make row) = part row)
    (hstep : ∀ a row, I a → I (step a row) ∧
      view (step a row) = if part row ∈ (view a).map partOf then view a else view a ++ [make row])
    {a : A} (ha : I a) (rows : List R) :
    view (rows.foldl step a) = view a ++ ((firsts part rows).filter fun row => part row ∉ (view a).map partOf).map make := by
  induction rows generalizing a with
  | nil => simp [firsts]
  | cons row rows ih =>
    obtain ⟨hnext, hview⟩ := hstep a row ha
    rw [List.foldl_cons, ih hnext, hview, firsts, List.filter_cons, List.filter_filter]
    by_cases hmem : part row ∈ (view a).map partOf
    · rw [if_pos hmem, if_neg (by simpa using hmem)]
      -- another row of a partition that is there is dropped anyway
      refine congrArg (fun rows => view a ++ List.map make rows) (List.filter_congr fun other _ => ?_)
      by_cases hpart : part other = part row
      · have hold : part other ∈ (view a).map partOf := hpart ▸ hmem
        simp only [hold, not_true_eq_false, decide_false, Bool.false_and]
      · simp [hpart]
    · rw [if_neg hmem, if_pos (by simpa using hmem), List.append_assoc, List.map_cons]
      refine congrArg (fun rows => view a ++ make row :: List.map make rows) (List.filter_congr fun other _ => ?_)
      rw [List.map_append, Bool.eq_iff_iff, Bool.and_eq_true, decide_eq_true_eq, decide_eq_true_eq, decide_eq_true_eq,
        List.mem_append, not_or, List.map_cons, List.map_nil, List.mem_singleton, hmake]

end Lib
