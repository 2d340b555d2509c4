/-
Lists cut at a separator: into all their fields, and into so many fields with
a free last one.

`split_append` and `splitn_joined` read back what was joined; a field that was
cut short reads as a shorter field.
-/
import Mathlib.Data.List.Basic
import Atmux.Lib.Text

namespace Lib.Fields

variable {α : Type*} [DecidableEq α] {sep : α}

/-- `slice::split`: the fields between the separators, at least one. -/
def split (sep : α) : List α → List (List α)
  | [] => [[]]
  | a :: items =>
    if a = sep then [] :: split sep items
    else
      match split sep items with
      | [] => [[a]]
      | field :: fields => (a :: field) :: fields

/-- `slice::splitn`: at most so many fields, the last with what is left. -/
def splitn (sep : α) : Nat → List α → List (List α)
  | 0, _ => []
  | 1, items => [items]
  | n + 2, items =>
    match Text.cut sep items with
    | none => [items]
    | some (field, rest) => field :: splitn sep (n + 1) rest

theorem split_ne_nil {items : List α} : split sep items ≠ [] := by
  cases items with
  | nil => simp [split]
  | cons a items =>
    rw [split]
    split
    · simp
    · split <;> simp

theorem split_eq_singleton {items : List α} (h : sep ∉ items) : split sep items = [items] := by
  induction items with
  | nil => rfl
  | cons a items ih =>
    simp only [List.mem_cons, not_or] at h
    rw [split, if_neg (Ne.symm h.1), ih h.2]

/-- A separator parts the fields before it from those after it. -/
theorem split_append (sep : α) (before after : List α) :
    split sep (before ++ sep :: after) = split sep before ++ split sep after := by
  induction before with
  | nil => simp [split]
  | cons a before ih =>
    rw [List.cons_append, split, split, ih]
    split
    · rfl
    · cases hfields : split sep before with
      | nil => exact absurd hfields split_ne_nil
      | cons field fields => rfl

/-- The fields, each with a separator after it. -/
def terminated (sep : α) (fields : List (List α)) : List α := fields.flatMap fun field => field ++ [sep]

theorem split_terminated {fields : List (List α)} (h : ∀ field ∈ fields, sep ∉ field) (rest : List α) :
    split sep (terminated sep fields ++ rest) = fields ++ split sep rest := by
  induction fields with
  | nil => rfl
  | cons field fields ih =>
    have hfield := split_eq_singleton (h field List.mem_cons_self)
    rw [terminated, List.flatMap_cons, List.append_assoc, List.append_assoc, List.singleton_append, split_append, hfield]
    rw [terminated] at ih
    rw [ih fun field hmem => h field (List.mem_cons_of_mem _ hmem)]
    rfl

/-- Fields and a last one, which may have separators in it, are read back. -/
theorem splitn_joined {fields : List (List α)} (h : ∀ field ∈ fields, sep ∉ field) (last : List α) :
    splitn sep (fields.length + 1) (terminated sep fields ++ last) = fields ++ [last] := by
  induction fields with
  | nil => rfl
  | cons field fields ih =>
    have hcut : Text.cut sep (terminated sep (field :: fields) ++ last) = some (field, terminated sep fields ++ last) := by
      rw [terminated, List.flatMap_cons, List.append_assoc, List.append_assoc, List.singleton_append]
      exact Text.cut_append (h field List.mem_cons_self) _
    rw [List.length_cons, splitn, hcut]
    simp only [ih fun field hmem => h field (List.mem_cons_of_mem _ hmem), List.cons_append]

end Lib.Fields
