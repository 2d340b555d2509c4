/-
The item a comparison puts last: `Iterator::max_by`.

`maxBy_spec` needs of the comparison that it decides a relation that is
reflexive and transitive, nothing of the order of the list, so an item that is
unique in its class is found in any order.
-/
import Mathlib.Data.List.Basic

namespace Lib

variable {α : Type}

/-- The greatest item, the last of equal ones. -/
def maxBy (compare : α → α → Ordering) : List α → Option α
  | [] => none
  | a :: items => some (items.foldl (fun best item => if compare best item = .gt then best else item) a)

variable {compare : α → α → Ordering} {dominates : α → α → Prop} {items : List α} {a : α}

variable (items a) in
theorem foldl_max (hrefl : ∀ a, dominates a a) (htrans : ∀ a b c, dominates a b → dominates b c → dominates a c)
    (hgt : ∀ a b, compare a b = .gt → dominates a b) (hle : ∀ a b, compare a b ≠ .gt → dominates b a) :
    let best := items.foldl (fun best item => if compare best item = .gt then best else item) a
    (best = a ∨ best ∈ items) ∧ dominates best a ∧ ∀ item ∈ items, dominates best item := by
  induction items generalizing a with
  | nil => exact ⟨.inl rfl, hrefl a, by simp⟩
  | cons item items ih =>
    rw [List.foldl_cons]
    by_cases h : compare a item = .gt
    · rw [if_pos h]
      obtain ⟨hmem, ha, hitems⟩ := ih a
      refine ⟨hmem.imp_right (List.mem_cons_of_mem _), ha, List.forall_mem_cons.2 ⟨?_, hitems⟩⟩
      exact htrans _ _ _ ha (hgt a item h)
    · rw [if_neg h]
      obtain ⟨hmem, hitem, hitems⟩ := ih item
      refine ⟨.inr ?_, htrans _ _ _ hitem (hle a item h), List.forall_mem_cons.2 ⟨hitem, hitems⟩⟩
      rcases hmem with hmem | hmem
      · rw [hmem]
        exact List.mem_cons_self
      · exact List.mem_cons_of_mem _ hmem

theorem maxBy_spec (hrefl : ∀ a, dominates a a) (htrans : ∀ a b c, dominates a b → dominates b c → dominates a c)
    (hgt : ∀ a b, compare a b = .gt → dominates a b) (hle : ∀ a b, compare a b ≠ .gt → dominates b a)
    (h : maxBy compare items = some a) : a ∈ items ∧ ∀ item ∈ items, dominates a item := by
  cases items with
  | nil => cases h
  | cons first items =>
    obtain rfl := Option.some.inj h
    obtain ⟨hmem, hfirst, hitems⟩ := foldl_max items first hrefl htrans hgt hle
    exact ⟨List.mem_cons.2 hmem, List.forall_mem_cons.2 ⟨hfirst, hitems⟩⟩

theorem maxBy_eq_none : maxBy compare items = none ↔ items = [] := by
  cases items with
  | nil => exact ⟨fun _ => rfl, fun _ => rfl⟩
  | cons => exact ⟨fun h => (by cases h), fun h => (by cases h)⟩

end Lib
