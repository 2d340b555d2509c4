/-
Finite maps filled from lists: what `collect::<HashMap<_, _>>()` and a loop
of `insert` or `remove` calls leave under each key.

`insertAll` files every item of a list under its key, the later of two items
with one key replacing the earlier; `eraseAll` removes every key of a list.
A lookup afterwards is decided by membership alone when the keys are
distinct (`getElem?_insertAll_of_mem`, `getElem?_insertAll_of_not_mem`).
-/
import Mathlib.Data.List.Nodup
import Mathlib.Data.List.Perm.Subperm

namespace Lib.Index

variable {κ α : Type*} [Ord κ] [Std.TransOrd κ]

/-- Files every item under its key, over what the map holds already. -/
def insertAll (f : α → κ) (m : Std.ExtTreeMap κ α) (l : List α) : Std.ExtTreeMap κ α :=
  l.foldl (fun m a => m.insert (f a) a) m

/-- The items of a list by key. -/
def indexBy (f : α → κ) (l : List α) : Std.ExtTreeMap κ α := insertAll f ∅ l

/-- What the map holds, in the order of its keys. -/
def values (m : Std.ExtTreeMap κ α) : List α := m.toList.map Prod.snd

/-- Removes every key of a list. -/
def eraseAll (m : Std.ExtTreeMap κ α) (ks : List κ) : Std.ExtTreeMap κ α :=
  ks.foldl (fun m k => m.erase k) m

variable {f : α → κ} {m : Std.ExtTreeMap κ α} {l : List α} {k : κ} {a : α}

@[simp] theorem insertAll_nil : insertAll f m [] = m := rfl

@[simp] theorem insertAll_cons : insertAll f m (a :: l) = insertAll f (m.insert (f a) a) l := rfl

@[simp] theorem eraseAll_cons {ks : List κ} : eraseAll m (k :: ks) = eraseAll (m.erase k) ks := rfl

variable [Std.LawfulEqOrd κ]

theorem getElem?_insertAll_of_not_mem (h : ∀ a ∈ l, f a ≠ k) : (insertAll f m l)[k]? = m[k]? := by
  induction l generalizing m with
  | nil => rfl
  | cons a l ih =>
    have hne : compare (f a) k ≠ .eq := by
      simpa using h a (by simp)
    rw [insertAll_cons, ih fun b hb => h b (by simp [hb]), Std.ExtTreeMap.getElem?_insert, if_neg hne]

theorem getElem?_insertAll_of_mem (hd : (l.map f).Nodup) (h : a ∈ l) :
    (insertAll f m l)[f a]? = some a := by
  induction l generalizing m with
  | nil => simp at h
  | cons b l ih =>
    simp only [List.map_cons, List.nodup_cons, List.mem_map, not_exists, not_and] at hd
    simp only [List.mem_cons] at h
    rcases h with rfl | h
    · rw [insertAll_cons, getElem?_insertAll_of_not_mem hd.1, Std.ExtTreeMap.getElem?_insert_self]
    · exact ih hd.2 h

/-- Whatever the keys, a lookup finds an item of the list under its own key
when there is one, and what the map held otherwise. -/
theorem getElem?_insertAll_cases :
    (∀ a ∈ l, f a ≠ k) ∧ (insertAll f m l)[k]? = m[k]? ∨
      ∃ a ∈ l, f a = k ∧ (insertAll f m l)[k]? = some a := by
  induction l generalizing m with
  | nil => exact .inl ⟨by simp, rfl⟩
  | cons a l ih =>
    rw [insertAll_cons]
    rcases ih (m := m.insert (f a) a) with ⟨hn, h⟩ | ⟨b, hb, hk, h⟩
    · rw [h, Std.ExtTreeMap.getElem?_insert]
      by_cases hak : f a = k
      · exact .inr ⟨a, by simp, hak, by simp [hak]⟩
      · refine .inl ⟨?_, if_neg (by simpa using hak)⟩
        simp only [List.mem_cons, forall_eq_or_imp]
        exact ⟨hak, hn⟩
    · exact .inr ⟨b, by simp [hb], hk, h⟩

theorem getElem?_indexBy_of_mem (hd : (l.map f).Nodup) (h : a ∈ l) : (indexBy f l)[f a]? = some a :=
  getElem?_insertAll_of_mem hd h

theorem mem_of_getElem?_indexBy (h : (indexBy f l)[k]? = some a) : a ∈ l ∧ f a = k := by
  rcases getElem?_insertAll_cases (f := f) (m := ∅) (l := l) (k := k) with ⟨-, hc⟩ | ⟨b, hb, hk, hc⟩
  · rw [indexBy, hc] at h
    simp at h
  · rw [indexBy, hc] at h
    simp only [Option.some.injEq] at h
    exact h ▸ ⟨hb, hk⟩

theorem isSome_getElem?_indexBy : (indexBy f l)[k]?.isSome ↔ ∃ a ∈ l, f a = k := by
  constructor
  · intro h
    obtain ⟨a, ha⟩ := Option.isSome_iff_exists.mp h
    exact ⟨a, mem_of_getElem?_indexBy ha⟩
  · rintro ⟨a, ha, hk⟩
    rcases getElem?_insertAll_cases (f := f) (m := ∅) (l := l) (k := k) with ⟨hn, -⟩ | ⟨b, -, -, hc⟩
    · exact absurd hk (hn a ha)
    · simp [indexBy, hc]

theorem getElem?_eraseAll_of_not_mem {ks : List κ} (h : k ∉ ks) : (eraseAll m ks)[k]? = m[k]? := by
  induction ks generalizing m with
  | nil => rfl
  | cons x ks ih =>
    simp only [List.mem_cons, not_or] at h
    rw [eraseAll_cons, ih h.2, Std.ExtTreeMap.getElem?_erase, if_neg (by simpa using Ne.symm h.1)]

theorem getElem?_eraseAll_of_mem {ks : List κ} (h : k ∈ ks) : (eraseAll m ks)[k]? = none := by
  induction ks generalizing m with
  | nil => simp at h
  | cons x ks ih =>
    rw [eraseAll_cons]
    by_cases hk : k ∈ ks
    · exact ih hk
    · obtain rfl : k = x := by simpa [hk] using h
      rw [getElem?_eraseAll_of_not_mem hk, Std.ExtTreeMap.getElem?_erase_self]

theorem getElem?_eraseAll {ks : List κ} (h : (eraseAll m ks)[k]? = some a) : m[k]? = some a := by
  by_cases hk : k ∈ ks
  · rw [getElem?_eraseAll_of_mem hk] at h
    cases h
  · rwa [getElem?_eraseAll_of_not_mem hk] at h

theorem mem_values : a ∈ values m ↔ ∃ k : κ, m[k]? = some a := by
  simp only [values, List.mem_map, Prod.exists, exists_eq_right, Std.ExtTreeMap.mem_toList_iff_getElem?_eq_some]

/-- A field that determines the key takes distinct values over the map. -/
theorem nodup_values {β : Type*} {f : α → β} {g : κ → β} (hg : ∀ {j k}, g j = g k → j = k)
    (h : ∀ {k : κ} {a : α}, m[k]? = some a → f a = g k) : ((values m).map f).Nodup := by
  have hkeys : (values m).map f = m.keys.map g := by
    rw [values, ← Std.ExtTreeMap.map_fst_toList_eq_keys, List.map_map, List.map_map]
    exact List.map_congr_left fun ⟨k, a⟩ hka => h (Std.ExtTreeMap.mem_toList_iff_getElem?_eq_some.mp hka)
  rw [hkeys]
  exact Std.ExtTreeMap.nodup_keys.map fun _ _ => hg

/-! ## Maps that correspond -/

section
variable {β : Type*} {g : α → β} {f' : β → κ} {m' : Std.ExtTreeMap κ β}

omit [Std.LawfulEqOrd κ] in
/-- Filing the images of a list, over corresponding maps. -/
theorem getElem?_insertAll_map (hkey : ∀ a, f' (g a) = f a) (h : ∀ k : κ, m'[k]? = m[k]?.map g) (k : κ) :
    (insertAll f' m' (l.map g))[k]? = (insertAll f m l)[k]?.map g := by
  induction l generalizing m m' with
  | nil => exact h k
  | cons a l ih =>
    rw [List.map_cons, insertAll_cons, insertAll_cons]
    refine ih fun j => ?_
    rw [hkey, Std.ExtTreeMap.getElem?_insert, Std.ExtTreeMap.getElem?_insert]
    split
    · rfl
    · exact h j

theorem getElem?_eraseAll_map {ks : List κ} (h : ∀ k : κ, m'[k]? = m[k]?.map g) (k : κ) :
    (eraseAll m' ks)[k]? = (eraseAll m ks)[k]?.map g := by
  by_cases hk : k ∈ ks
  · rw [getElem?_eraseAll_of_mem hk, getElem?_eraseAll_of_mem hk]
    rfl
  · rw [getElem?_eraseAll_of_not_mem hk, getElem?_eraseAll_of_not_mem hk, h]

end

/-- Two lists of one length, the second without repetitions under `f` and
within the first under `f`, are the same under `f` up to order. -/
theorem perm_of_matched {β : Type*} {f : α → β} {l l' : List α} (hlen : l.length = l'.length)
    (hd : (l'.map f).Nodup) (h : ∀ a ∈ l', ∃ b ∈ l, f b = f a) : (l.map f).Perm (l'.map f) := by
  have hsub : l'.map f ⊆ l.map f := by
    intro x hx
    obtain ⟨a, ha, rfl⟩ := List.mem_map.mp hx
    obtain ⟨b, hb, heq⟩ := h a ha
    exact List.mem_map.mpr ⟨b, hb, heq⟩
  exact ((List.Nodup.subperm hd hsub).perm_of_length_le (by simp [hlen])).symm

/-- Lists whose every later item is matched by key with an earlier one hold
the same readings up to order exactly where matched items read the same. -/
theorem perm_iff_of_matched {β : Type*} {g : α → β} {l l' : List α} (hg : ∀ {a b}, g a = g b → f a = f b)
    (hlen : l.length = l'.length) (hd : (l'.map f).Nodup) (hfound : ∀ a ∈ l', ∃ b, (indexBy f l)[f a]? = some b) :
    (l.map g).Perm (l'.map g) ↔ ∀ a ∈ l', ∀ b, (indexBy f l)[f a]? = some b → g b = g a := by
  constructor
  · intro hperm a ha b hget
    obtain ⟨hb, hkey⟩ := mem_of_getElem?_indexBy hget
    have hmem : g b ∈ l'.map g := hperm.mem_iff.mp (List.mem_map.mpr ⟨b, hb, rfl⟩)
    obtain ⟨a', ha', heq⟩ := List.mem_map.mp hmem
    have hsame : a' = a := List.inj_on_of_nodup_map hd ha' ha ((hg heq).trans hkey)
    rw [← heq, hsame]
  · intro h
    have hnodup : (l'.map g).Nodup :=
      (hd.of_map f).map_on fun a ha b hb heq => List.inj_on_of_nodup_map hd ha hb (hg heq)
    refine perm_of_matched hlen hnodup fun a ha => ?_
    obtain ⟨b, hget⟩ := hfound a ha
    exact ⟨b, (mem_of_getElem?_indexBy hget).1, h a ha b hget⟩

/-! ## Filtering by key -/

theorem filter_eq_singleton {β : Type*} [DecidableEq β] {f : α → β} (hd : (l.map f).Nodup) (h : a ∈ l) :
    (l.filter fun b => f b = f a) = [a] := by
  induction l with
  | nil => simp at h
  | cons b l ih =>
    simp only [List.map_cons, List.nodup_cons, List.mem_map, not_exists, not_and] at hd
    rcases List.mem_cons.mp h with rfl | h
    · rw [List.filter_cons_of_pos (by simp), List.filter_eq_nil_iff.mpr fun c hc => by simpa using hd.1 c hc]
    · have hne : f b ≠ f a := fun heq => hd.1 a h heq.symm
      rw [List.filter_cons_of_neg (by simpa using hne), ih hd.2 h]

/-- Of the values of a map whose items know their key, those of one key. -/
theorem filter_values [DecidableEq κ] (h : ∀ {k : κ} {a : α}, m[k]? = some a → f a = k) (k : κ) :
    ((values m).filter fun a => f a = k) = m[k]?.toList := by
  cases hget : m[k]? with
  | none =>
    refine List.filter_eq_nil_iff.mpr fun a ha => ?_
    obtain ⟨j, hj⟩ := mem_values.mp ha
    have hkey : f a = j := h hj
    rintro hk
    obtain rfl : f a = k := by simpa using hk
    rw [hkey, hj] at hget
    cases hget
  | some a =>
    obtain rfl := h hget
    exact filter_eq_singleton (nodup_values (g := id) (fun heq => heq) h) (mem_values.mpr ⟨_, hget⟩)

theorem flatMap_filter {β : Type*} {p : β → Bool} {q : α → Bool} {g : α → List β}
    (h : ∀ a ∈ l, ∀ b ∈ g a, p b = q a) : (l.flatMap g).filter p = (l.filter q).flatMap g := by
  induction l with
  | nil => rfl
  | cons a l ih =>
    rw [List.flatMap_cons, List.filter_append, ih fun b hb => h b (by simp [hb])]
    by_cases hq : q a = true
    · rw [List.filter_cons_of_pos hq, List.flatMap_cons, List.filter_eq_self.mpr fun b hb => ?_]
      exact (h a (by simp) b hb).trans hq
    · rw [List.filter_cons_of_neg hq, List.filter_eq_nil_iff.mpr fun b hb => ?_, List.nil_append]
      rw [h a (by simp) b hb]
      exact hq

end Lib.Index
