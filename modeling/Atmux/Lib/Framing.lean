/-
A stream cut into records, each ending with a separator.

`terminated` are the records that are complete and `remainder` is what follows
the last of them. They are the only way to cut the stream so (`terminated_eq`,
`remainder_eq`), which is what makes cutting it piece by piece the same as
cutting it whole: a piece is cut together with the remainder before it
(`terminated_append`, `remainder_append`).
-/
import Mathlib.Data.List.Basic

namespace Lib.Framing

variable {α : Type} [DecidableEq α] {sep : α} {items other : List α} {records : List (List α)} {record rest : List α}

/-- `slice::split_inclusive`: the pieces of a list, each ending with its
separator, the last possibly without one. -/
def splitInclusive (sep : α) : List α → List (List α)
  | [] => []
  | a :: items =>
    if a = sep then [a] :: splitInclusive sep items
    else
      match splitInclusive sep items with
      | [] => [[a]]
      | piece :: pieces => (a :: piece) :: pieces

/-- The pieces up to the first without its separator. -/
def terminated (sep : α) (items : List α) : List (List α) :=
  (splitInclusive sep items).takeWhile fun piece => piece.getLast? = some sep

def remainder (sep : α) (items : List α) : List α := items.drop (terminated sep items).flatten.length

/-- A separator after items that are none. -/
def IsRecord (sep : α) (record : List α) : Prop := ∃ body, sep ∉ body ∧ record = body ++ [sep]

omit [DecidableEq α] in
theorem IsRecord.getLast? (h : IsRecord sep record) : record.getLast? = some sep := by
  obtain ⟨body, -, rfl⟩ := h
  simp

theorem splitInclusive_append (h : IsRecord sep record) (items : List α) :
    splitInclusive sep (record ++ items) = record :: splitInclusive sep items := by
  obtain ⟨body, hbody, rfl⟩ := h
  induction body with
  | nil => simp [splitInclusive]
  | cons a body ih =>
    have ha : a ≠ sep := fun ha => hbody (by simp [ha])
    rw [List.cons_append, List.cons_append, splitInclusive, if_neg ha, ih fun hsep => hbody (by simp [hsep])]

theorem splitInclusive_of_not_mem (h : sep ∉ rest) : ∀ piece ∈ splitInclusive sep rest, sep ∉ piece := by
  induction rest with
  | nil => simp [splitInclusive]
  | cons a rest ih =>
    have ha : a ≠ sep := fun ha => h (by simp [ha])
    have hrest := ih fun hsep => h (by simp [hsep])
    rw [splitInclusive, if_neg ha]
    cases hsplit : splitInclusive sep rest with
    | nil => simpa using ha.symm
    | cons piece pieces =>
      rw [hsplit] at hrest
      intro other hother
      rcases List.mem_cons.1 hother with rfl | hother
      · simpa [ha.symm] using hrest piece (by simp)
      · exact hrest other (by simp [hother])

/-- Records and a rest without separators are what the stream of them is cut into. -/
theorem terminated_eq (hrecords : ∀ record ∈ records, IsRecord sep record) (hrest : sep ∉ rest) :
    terminated sep (records.flatten ++ rest) = records := by
  induction records with
  | nil =>
    rw [List.flatten_nil, List.nil_append, terminated]
    cases hsplit : splitInclusive sep rest with
    | nil => rfl
    | cons piece pieces =>
      have hpiece := splitInclusive_of_not_mem hrest piece (by simp [hsplit])
      rw [List.takeWhile_cons, if_neg]
      simp only [decide_eq_true_eq]
      exact fun hlast => hpiece (List.mem_of_getLast? hlast)
  | cons record records ih =>
    have hrecord := hrecords record (by simp)
    rw [List.flatten_cons, List.append_assoc, terminated, splitInclusive_append hrecord, List.takeWhile_cons,
      if_pos (by simp [hrecord.getLast?])]
    exact congrArg (record :: ·) (ih fun record hmem => hrecords record (by simp [hmem]))

theorem remainder_eq (hrecords : ∀ record ∈ records, IsRecord sep record) (hrest : sep ∉ rest) :
    remainder sep (records.flatten ++ rest) = rest := by
  rw [remainder, terminated_eq hrecords hrest, List.drop_left]

/-- Every stream is records and a rest without separators. -/
theorem exists_records (sep : α) (items : List α) : ∃ (records : List (List α)) (rest : List α), items = records.flatten ++ rest ∧
    (∀ record ∈ records, IsRecord sep record) ∧ sep ∉ rest := by
  induction items with
  | nil => exact ⟨[], [], by simp⟩
  | cons a items ih =>
    obtain ⟨records, rest, rfl, hrecords, hrest⟩ := ih
    by_cases ha : a = sep
    · refine ⟨[a] :: records, rest, by simp, fun record hrecord => ?_, hrest⟩
      rcases List.mem_cons.1 hrecord with rfl | hrecord
      · exact ⟨[], by simp, by simp [ha]⟩
      · exact hrecords record hrecord
    · cases records with
      | nil => exact ⟨[], a :: rest, by simp, by simp, by simp [hrest, Ne.symm ha]⟩
      | cons record records =>
        refine ⟨(a :: record) :: records, rest, by simp, fun other hother => ?_, hrest⟩
        rcases List.mem_cons.1 hother with rfl | hother
        · obtain ⟨body, hbody, rfl⟩ := hrecords record (by simp)
          exact ⟨a :: body, by simp [hbody, Ne.symm ha], rfl⟩
        · exact hrecords other (by simp [hother])

theorem isRecord_of_mem (h : record ∈ terminated sep items) : IsRecord sep record := by
  obtain ⟨records, rest, rfl, hrecords, hrest⟩ := exists_records sep items
  rw [terminated_eq hrecords hrest] at h
  exact hrecords record h

theorem not_mem_remainder (sep : α) (items : List α) : sep ∉ remainder sep items := by
  obtain ⟨records, rest, rfl, hrecords, hrest⟩ := exists_records sep items
  rw [remainder_eq hrecords hrest]
  exact hrest

theorem terminated_flatten (sep : α) (items : List α) :
    (terminated sep items).flatten ++ remainder sep items = items := by
  obtain ⟨records, rest, rfl, hrecords, hrest⟩ := exists_records sep items
  rw [terminated_eq hrecords hrest, remainder_eq hrecords hrest]

theorem terminated_record (h : IsRecord sep record) (items : List α) :
    terminated sep (record ++ items) = record :: terminated sep items := by
  obtain ⟨records, rest, rfl, hrecords, hrest⟩ := exists_records sep items
  have hall : ∀ other ∈ record :: records, IsRecord sep other := List.forall_mem_cons.2 ⟨h, hrecords⟩
  rw [terminated_eq hrecords hrest, ← List.append_assoc, ← List.flatten_cons, terminated_eq hall hrest]

theorem remainder_record (h : IsRecord sep record) (items : List α) :
    remainder sep (record ++ items) = remainder sep items := by
  obtain ⟨records, rest, rfl, hrecords, hrest⟩ := exists_records sep items
  have hall : ∀ other ∈ record :: records, IsRecord sep other := List.forall_mem_cons.2 ⟨h, hrecords⟩
  rw [remainder_eq hrecords hrest, ← List.append_assoc, ← List.flatten_cons, remainder_eq hall hrest]

omit [DecidableEq α] in
theorem isRecord_nil (sep : α) : ∀ record ∈ ([] : List (List α)), IsRecord sep record := fun _ h => (by cases h)

theorem terminated_of_not_mem (h : sep ∉ rest) : terminated sep rest = [] := terminated_eq (isRecord_nil sep) h

theorem remainder_of_not_mem (h : sep ∉ rest) : remainder sep rest = rest := remainder_eq (isRecord_nil sep) h

@[simp] theorem terminated_nil : terminated sep [] = [] := rfl

@[simp] theorem remainder_nil : remainder sep [] = [] := rfl

variable (sep items) in
theorem remainder_length_le : (remainder sep items).length ≤ items.length := by
  rw [remainder, List.length_drop]
  omega

variable (sep) in
/-- The records of both parts: those of the second are cut with the remainder
of the first before it. -/
theorem append_records (items other : List α) :
    (∀ record ∈ terminated sep items ++ terminated sep (remainder sep items ++ other), IsRecord sep record) ∧
      (terminated sep items ++ terminated sep (remainder sep items ++ other)).flatten ++
        remainder sep (remainder sep items ++ other) = items ++ other := by
  refine ⟨fun record hrecord => ?_, ?_⟩
  · rcases List.mem_append.1 hrecord with hrecord | hrecord
    · exact isRecord_of_mem hrecord
    · exact isRecord_of_mem hrecord
  · rw [List.flatten_append, List.append_assoc, terminated_flatten, ← List.append_assoc, terminated_flatten]

theorem terminated_append (items other : List α) :
    terminated sep (items ++ other) = terminated sep items ++ terminated sep (remainder sep items ++ other) := by
  obtain ⟨hrecords, hflatten⟩ := append_records sep items other
  rw [← hflatten, terminated_eq hrecords (not_mem_remainder sep _)]

theorem remainder_append (items other : List α) :
    remainder sep (items ++ other) = remainder sep (remainder sep items ++ other) := by
  obtain ⟨hrecords, hflatten⟩ := append_records sep items other
  rw [← hflatten, remainder_eq hrecords (not_mem_remainder sep _)]

end Lib.Framing
