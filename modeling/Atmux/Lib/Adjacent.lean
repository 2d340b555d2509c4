/-
Runs of alike neighbours, each cut to its first.

In a list that is in order, whatever was cut has the one that was kept before it
(`dedup_covers`). Alike elements with another between them are both kept, so only
a list that has its alike elements together comes out with one of each.
-/
import Mathlib.Data.List.Nodup

namespace Lib.Adjacent

variable {α : Type*} (same : α → α → Bool)

/-- What is kept after `kept`. -/
def dedupAfter (kept : α) : List α → List α
  | [] => []
  | next :: rest => if same kept next then dedupAfter kept rest else next :: dedupAfter next rest

/-- `dedup_by`: of each run of alike neighbours the first. -/
def dedup : List α → List α
  | [] => []
  | first :: rest => first :: dedupAfter same first rest

variable {same}

theorem dedupAfter_sublist (kept : α) (l : List α) : (dedupAfter same kept l).Sublist l := by
  induction l generalizing kept with
  | nil => exact .slnil
  | cons next rest ih =>
    rw [dedupAfter]
    split
    · exact (ih kept).cons _
    · exact (ih next).cons_cons _

theorem dedup_sublist (l : List α) : (dedup same l).Sublist l := by
  cases l with
  | nil => exact .slnil
  | cons first rest => exact (dedupAfter_sublist first rest).cons_cons _

theorem dedupAfter_covers {le : α → α → Prop} {kept : α} {l : List α} (h : (kept :: l).Pairwise le) :
    ∀ b ∈ l, ∃ a ∈ kept :: dedupAfter same kept l, a = b ∨ same a b = true ∧ le a b := by
  induction l generalizing kept with
  | nil => exact fun b hb => absurd hb List.not_mem_nil
  | cons next rest ih =>
    intro b hb
    obtain ⟨hkept, hrest⟩ := List.pairwise_cons.mp h
    rw [dedupAfter]
    split
    next hsame =>
      rcases List.mem_cons.mp hb with rfl | hb
      · exact ⟨kept, List.mem_cons_self, .inr ⟨hsame, hkept b List.mem_cons_self⟩⟩
      · have hskip : (kept :: rest).Pairwise le :=
          List.pairwise_cons.mpr ⟨fun c hc => hkept c (List.mem_cons_of_mem _ hc), (List.pairwise_cons.mp hrest).2⟩
        exact ih hskip b hb
    · rcases List.mem_cons.mp hb with rfl | hb
      · exact ⟨b, by simp, .inl rfl⟩
      · obtain ⟨a, ha, hab⟩ := ih hrest b hb
        exact ⟨a, List.mem_cons_of_mem _ ha, hab⟩

/-- **Nothing is lost for good**: what is cut comes after one that is like it. -/
theorem dedup_covers {le : α → α → Prop} {l : List α} (h : l.Pairwise le) {b : α} (hb : b ∈ l) :
    ∃ a ∈ dedup same l, a = b ∨ same a b = true ∧ le a b := by
  cases l with
  | nil => cases hb
  | cons first rest =>
    rcases List.mem_cons.mp hb with rfl | hb
    · exact ⟨b, List.mem_cons_self, .inl rfl⟩
    · exact dedupAfter_covers h b hb

end Lib.Adjacent
