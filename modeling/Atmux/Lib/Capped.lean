/-
A list that is cut from the front whenever it gets too long.

`place n` is how long the list is when its item number `n` comes: it counts up
to the limit and starts again at what a cut leaves. Items that are no further
apart than a cut takes away have different places (`place_ne`), so numbering
them by the list's length tells them apart. The second part is about the last
separator of a list, which is the same however the list is taken apart.
-/
import Mathlib.Data.List.Basic
import Mathlib.Tactic.Common

namespace Lib.Capped

/-! ## Places -/

section Places

variable {limit kept : Nat}

/-- The list after one more item. -/
def cap {α : Type*} (limit kept : Nat) (items : List α) : List α :=
  if limit < items.length then items.drop (items.length - kept) else items

/-- How long the list is when so many items have come. -/
def place (limit kept : Nat) : Nat → Nat
  | 0 => 0
  | n + 1 => if limit < place limit kept n + 1 then kept else place limit kept n + 1

theorem length_cap {α : Type*} (hkept : kept ≤ limit) (items : List α) :
    (cap limit kept items).length = if limit < items.length then kept else items.length := by
  unfold cap
  split
  · rw [List.length_drop]
    omega
  · rfl

theorem cap_suffix {α : Type*} (limit kept : Nat) (items : List α) : ∃ n, cap limit kept items = items.drop n := by
  unfold cap
  split
  · exact ⟨_, rfl⟩
  · exact ⟨0, rfl⟩

theorem place_le (hkept : kept ≤ limit) (n : Nat) : place limit kept n ≤ limit := by
  cases n with
  | zero => exact Nat.zero_le limit
  | succ n =>
    rw [place]
    split
    · exact hkept
    · omega

/-- The places of the items that come next, until the list is cut a second time. -/
theorem place_add (hkept : kept ≤ limit) (n : Nat) {d : Nat} (h : d ≤ limit - kept) :
    place limit kept (n + d) =
      if place limit kept n + d ≤ limit then place limit kept n + d else kept + (place limit kept n + d - limit - 1) := by
  have hplace := place_le hkept n
  induction d with
  | zero => simp only [Nat.add_zero, if_pos hplace]
  | succ d ih =>
    have ih := ih (by omega)
    rw [← Nat.add_assoc, place, ih]
    by_cases hbelow : place limit kept n + d ≤ limit
    · rw [if_pos hbelow]
      by_cases hnext : place limit kept n + (d + 1) ≤ limit
      · rw [if_neg (by omega), if_pos hnext, Nat.add_assoc]
      · rw [if_pos (by omega), if_neg hnext]
        omega
    · rw [if_neg hbelow, if_neg (by omega), if_neg (by omega)]
      omega

/-- Items no further apart than a cut takes away have different places. -/
theorem place_ne (hkept : kept ≤ limit) {n m : Nat} (hlt : n < m) (hnear : m - n ≤ limit - kept) :
    place limit kept n ≠ place limit kept m := by
  have hplace := place_le hkept n
  have hadd := place_add hkept n hnear
  rw [Nat.add_sub_cancel' (Nat.le_of_lt hlt)] at hadd
  rw [hadd]
  split <;> omega

end Places

/-! ## The last item of a kind -/

/-- Changes the last item that has a property, if there is one. -/
def modifyLast? {α : Type*} (p : α → Bool) (f : α → α) : List α → Option (List α)
  | [] => none
  | a :: items =>
    match modifyLast? p f items with
    | some changed => some (a :: changed)
    | none => if p a then some (f a :: items) else none

section ModifyLast

variable {α : Type*} {p : α → Bool} {f : α → α} {items changed : List α}

theorem modifyLast?_isSome : (modifyLast? p f items).isSome = items.any p := by
  induction items with
  | nil => rfl
  | cons a items ih =>
    rw [modifyLast?, List.any_cons, ← ih]
    cases modifyLast? p f items with
    | some changed => simp
    | none => cases hp : p a <;> simp

/-- What the change keeps of an item is kept of all of them. -/
theorem map_modifyLast? {β : Type*} {g : α → β} (hg : ∀ a, g (f a) = g a) (h : modifyLast? p f items = some changed) :
    changed.map g = items.map g := by
  induction items generalizing changed with
  | nil => cases h
  | cons a items ih =>
    rw [modifyLast?] at h
    split at h
    next rest hrest =>
      obtain rfl := Option.some.inj h
      rw [List.map_cons, List.map_cons, ih hrest]
    next hrest =>
      split at h
      · obtain rfl := Option.some.inj h
        rw [List.map_cons, List.map_cons, hg]
      · cases h

end ModifyLast

/-! ## The last separator -/

/-- A list is parted at its last separator in one way only. -/
theorem append_sep_inj {α : Type*} {sep : α} {front front' back back' : List α} (hback : sep ∉ back) (hback' : sep ∉ back')
    (h : front ++ sep :: back = front' ++ sep :: back') : front = front' ∧ back = back' := by
  induction front generalizing front' with
  | nil =>
    cases front' with
    | nil => exact ⟨rfl, (List.cons.inj h).2⟩
    | cons a front' =>
      have hmem : sep ∈ back := by
        rw [(List.cons.inj h).2]
        simp
      exact absurd hmem hback
  | cons a front ih =>
    cases front' with
    | nil =>
      have hmem : sep ∈ back' := by
        rw [← (List.cons.inj h).2]
        simp
      exact absurd hmem hback'
    | cons b front' =>
      obtain ⟨rfl, htail⟩ := List.cons.inj h
      obtain ⟨rfl, rfl⟩ := ih htail
      exact ⟨rfl, rfl⟩

end Lib.Capped
