/-
`BTreeMap` as its entries in the order of their keys.

What a map bounded to its least keys keeps of an unbounded one is a prefix of
the entries: `take_insert_of_mem`, `take_insert_of_room`,
`take_insert_of_evict` and `take_insert_of_skip` say what an insert into the
unbounded map does to the prefix. `drop_eq_filter` is the rest of it by the
last key of the prefix.
-/
import Mathlib.Order.Lattice
import Mathlib.Data.List.Pairwise

namespace Lib

variable {K V : Type} [LinearOrder K]

/-! ## Entries -/

namespace Entries

def keys (l : List (K × V)) : List K := l.map Prod.fst

def find? (k : K) : List (K × V) → Option V
  | [] => none
  | (k', v) :: l => if k = k' then some v else find? k l

/-- Files a value under a key, in place of the one that is there. -/
def insert (k : K) (v : V) : List (K × V) → List (K × V)
  | [] => [(k, v)]
  | (k', v') :: l => if k < k' then (k, v) :: (k', v') :: l else if k = k' then (k, v) :: l else (k', v') :: insert k v l

/-- Keys in strictly ascending order. -/
def Ascending (l : List (K × V)) : Prop := l.Pairwise fun a b => a.1 < b.1

variable {l : List (K × V)} {k : K} {v : V} {a : K × V}

omit [LinearOrder K] in
theorem mem_keys : k ∈ keys l ↔ ∃ v, (k, v) ∈ l := by
  simp [keys]

theorem mem_insert (h : a ∈ insert k v l) : a = (k, v) ∨ a ∈ l := by
  induction l with
  | nil => exact .inl (List.mem_singleton.mp h)
  | cons b l ih =>
    rw [insert] at h
    split at h
    · exact List.mem_cons.mp h
    · split at h
      · rcases List.mem_cons.mp h with h | h
        · exact .inl h
        · exact .inr (List.mem_cons_of_mem _ h)
      · rcases List.mem_cons.mp h with rfl | h
        · exact .inr List.mem_cons_self
        · exact (ih h).imp_right (List.mem_cons_of_mem _)

theorem Ascending.insert (h : Ascending l) (k : K) (v : V) : Ascending (insert k v l) := by
  induction l with
  | nil => exact List.pairwise_singleton _ _
  | cons b l ih =>
    obtain ⟨hb, hl⟩ := List.pairwise_cons.mp h
    rw [Entries.insert]
    split
    next hlt =>
      refine List.pairwise_cons.mpr ⟨fun a ha => ?_, h⟩
      rcases List.mem_cons.mp ha with rfl | ha
      · exact hlt
      · exact hlt.trans (hb a ha)
    · split
      next heq =>
        refine List.pairwise_cons.mpr ⟨fun a ha => ?_, hl⟩
        rw [heq]
        exact hb a ha
      next hnlt hne =>
        refine List.pairwise_cons.mpr ⟨fun a ha => ?_, ih hl⟩
        rcases mem_insert ha with rfl | ha
        · exact lt_of_le_of_ne (not_lt.mp hnlt) fun heq => hne heq.symm
        · exact hb a ha

theorem insert_length_le : (insert k v l).length ≤ l.length + 1 := by
  induction l with
  | nil => exact le_rfl
  | cons b l ih =>
    rw [insert]
    split
    · exact le_rfl
    · split
      · simp
      · simpa using ih

theorem length_insert_of_mem (hs : Ascending l) (h : k ∈ keys l) : (insert k v l).length = l.length := by
  induction l with
  | nil => cases h
  | cons b l ih =>
    obtain ⟨hb, hl⟩ := List.pairwise_cons.mp hs
    rw [insert]
    split
    next hlt =>
      rcases List.mem_cons.mp h with rfl | h
      · exact absurd hlt (lt_irrefl _)
      · obtain ⟨v', hmem⟩ := mem_keys.mp h
        exact absurd (hlt.trans (hb _ hmem)) (lt_irrefl _)
    · split
      · rfl
      next hne =>
        rcases List.mem_cons.mp h with rfl | h
        · exact absurd rfl hne
        · simp [ih hl h]

theorem length_insert_of_not_mem (h : k ∉ keys l) : (insert k v l).length = l.length + 1 := by
  induction l with
  | nil => rfl
  | cons b l ih =>
    rw [keys, List.map_cons, List.mem_cons, not_or] at h
    rw [insert]
    split
    · rfl
    · rw [if_neg h.1]
      simp [ih h.2]

theorem find?_eq_none (h : k ∉ keys l) : find? k l = none := by
  induction l with
  | nil => rfl
  | cons b l ih =>
    rw [keys, List.map_cons, List.mem_cons, not_or] at h
    rw [find?, if_neg h.1]
    exact ih h.2

theorem isSome_find? (h : k ∈ keys l) : (find? k l).isSome = true := by
  induction l with
  | nil => cases h
  | cons b l ih =>
    rw [find?]
    split
    · rfl
    next hne =>
      rcases List.mem_cons.mp h with heq | h
      · exact absurd heq hne
      · exact ih h

theorem find?_insert {k' : K} : find? k' (insert k v l) = if k' = k then some v else find? k' l := by
  induction l with
  | nil => rfl
  | cons b l ih =>
    rw [insert]
    split
    · rw [find?]
    · split
      next heq =>
        rw [find?, find?, ← heq]
        split <;> rfl
      next hne =>
        rw [find?, ih, find?]
        by_cases hb : k' = b.1
        · rw [if_pos hb, if_pos hb, if_neg fun heq => hne (heq.symm.trans hb)]
        · rw [if_neg hb, if_neg hb]

theorem find?_of_mem (hs : Ascending l) (h : (k, v) ∈ l) : find? k l = some v := by
  induction l with
  | nil => cases h
  | cons b l ih =>
    obtain ⟨hb, hl⟩ := List.pairwise_cons.mp hs
    rw [find?]
    rcases List.mem_cons.mp h with rfl | h
    · exact if_pos rfl
    · rw [if_neg (hb _ h).ne', ih hl h]

theorem mem_of_find? (h : find? k l = some v) : (k, v) ∈ l := by
  induction l with
  | nil => cases h
  | cons b l ih =>
    rw [find?] at h
    split at h
    next heq =>
      obtain rfl := Option.some.inj h
      rw [heq]
      exact List.mem_cons_self
    · exact List.mem_cons_of_mem _ (ih h)

/-! ## Prefixes -/

theorem find?_take {n : Nat} (h : k ∈ keys (l.take n)) : find? k (l.take n) = find? k l := by
  induction l generalizing n with
  | nil => rw [List.take_nil]
  | cons b l ih =>
    cases n with
    | zero => cases h
    | succ n =>
      rw [List.take_succ_cons] at h ⊢
      rw [find?, find?]
      split
      · rfl
      next hne =>
        rcases List.mem_cons.mp h with heq | h
        · exact absurd heq hne
        · exact ih h

/-- A key above the first of the entries goes in behind it. -/
theorem insert_cons_of_lt {b : K × V} (h : b.1 < k) : insert k v (b :: l) = b :: insert k v l := by
  rw [insert, if_neg (lt_asymm h), if_neg h.ne']

theorem take_insert_of_mem {n : Nat} (hs : Ascending l) (h : k ∈ keys (l.take n)) :
    (insert k v l).take n = insert k v (l.take n) := by
  induction l generalizing n with
  | nil => simp [keys] at h
  | cons b l ih =>
    obtain ⟨hb, hl⟩ := List.pairwise_cons.mp hs
    cases n with
    | zero => cases h
    | succ n =>
      rw [List.take_succ_cons] at h ⊢
      rcases List.mem_cons.mp h with rfl | h
      · simp [insert]
      · obtain ⟨v', hmem⟩ := mem_keys.mp h
        have hlt : b.1 < k := hb _ (List.mem_of_mem_take hmem)
        rw [insert_cons_of_lt hlt, insert_cons_of_lt hlt, List.take_succ_cons, ih hl h]

theorem take_insert_of_room {n : Nat} (h : l.length < n) : (insert k v l).take n = insert k v (l.take n) := by
  have hle : (insert k v l).length ≤ n := insert_length_le.trans h
  rw [List.take_of_length_le hle, List.take_of_length_le h.le]

/-- A key below the last of a full prefix takes its place among them. -/
theorem take_insert_of_evict {n : Nat} {last : K × V} (hs : Ascending l) (h : k ∉ keys (l.take n))
    (hn : n ≤ l.length) (hlast : (l.take n).getLast? = some last) (hlt : k < last.1) :
    (insert k v l).take n = insert k v (l.take n).dropLast := by
  induction l generalizing n with
  | nil => simp at hlast
  | cons b l ih =>
    obtain ⟨hb, hl⟩ := List.pairwise_cons.mp hs
    cases n with
    | zero => simp at hlast
    | succ n =>
      rw [List.take_succ_cons] at h hlast ⊢
      rw [keys, List.map_cons, List.mem_cons, not_or] at h
      have hlen : (l.take n).length = n := by
        simpa using hn
      rcases lt_or_gt_of_ne h.1 with hbelow | habove
      · -- before all of them
        rw [insert, if_pos hbelow, List.take_succ_cons]
        cases n with
        | zero =>
          simp [insert]
        | succ n =>
          have hne : l.take (n + 1) ≠ [] := by
            intro heq
            simp [heq] at hlen
          rw [List.dropLast_cons_of_ne_nil hne, insert, if_pos hbelow, List.take_succ_cons,
            List.dropLast_eq_take, hlen, List.take_take, Nat.add_sub_cancel, Nat.min_eq_left (Nat.le_succ n)]
      · have hne : l.take n ≠ [] := by
          intro heq
          rw [heq] at hlast
          obtain rfl := Option.some.inj hlast
          exact absurd hlt (lt_asymm habove)
        rw [List.getLast?_cons_of_ne_nil hne] at hlast
        rw [insert_cons_of_lt habove, List.take_succ_cons, List.dropLast_cons_of_ne_nil hne, insert_cons_of_lt habove,
          ih hl h.2 (by simpa using hn) hlast]

/-- A key above a full prefix leaves it as it is. -/
theorem take_insert_of_skip {n : Nat} (h : ∀ a ∈ l.take n, a.1 < k) (hn : n ≤ l.length) :
    (insert k v l).take n = l.take n := by
  induction l generalizing n with
  | nil =>
    obtain rfl := Nat.le_zero.mp hn
    rfl
  | cons b l ih =>
    cases n with
    | zero => rfl
    | succ n =>
      rw [List.take_succ_cons] at h ⊢
      rw [insert_cons_of_lt (h b List.mem_cons_self), List.take_succ_cons,
        ih (fun a ha => h a (List.mem_cons_of_mem _ ha)) (by simpa using hn)]

theorem le_getLast {last : K × V} (hs : Ascending l) (hlast : l.getLast? = some last) (h : a ∈ l) : a.1 ≤ last.1 := by
  obtain ⟨front, rfl⟩ := List.getLast?_eq_some_iff.mp hlast
  rcases List.mem_append.mp h with h | h
  · exact ((List.pairwise_append.mp hs).2.2 a h last (List.mem_singleton.mpr rfl)).le
  · rw [List.mem_singleton.mp h]

/-- The rest of the entries lies above a prefix. -/
theorem last_lt_of_mem_drop {n : Nat} {last : K × V} (hs : Ascending l) (hlast : (l.take n).getLast? = some last)
    (h : a ∈ l.drop n) : last.1 < a.1 := by
  rw [← List.take_append_drop n l] at hs
  exact (List.pairwise_append.mp hs).2.2 last (List.mem_of_getLast? hlast) a h

theorem not_mem_keys_of_lt_last {n : Nat} {last : K × V} (hs : Ascending l) (h : k ∉ keys (l.take n))
    (hlast : (l.take n).getLast? = some last) (hlt : k < last.1) : k ∉ keys l := by
  intro hmem
  rw [← List.take_append_drop n l, keys, List.map_append, List.mem_append] at hmem
  rcases hmem with hmem | hmem
  · exact h hmem
  · obtain ⟨v, hv⟩ := mem_keys.mp hmem
    exact lt_asymm hlt (last_lt_of_mem_drop hs hlast hv)

/-- With a key that a full prefix lacks, there are more entries than it has. -/
theorem lt_length_insert {n : Nat} (hs : Ascending l) (h : k ∉ keys (l.take n)) (hn : n ≤ l.length) :
    n < (insert k v l).length := by
  by_cases hmem : k ∈ keys l
  · rw [length_insert_of_mem hs hmem]
    refine lt_of_le_of_ne hn fun heq => h ?_
    rwa [heq, List.take_length]
  · rw [length_insert_of_not_mem hmem]
    omega

/-! ## What follows a key -/

/-- Above a bound, when there is one. -/
def beyond (bound : Option K) (k : K) : Bool := bound.all fun b => decide (b < k)

theorem beyond_trans {bound : Option K} {k k' : K} (h : beyond bound k = true) (hlt : k < k') :
    beyond bound k' = true := by
  cases bound with
  | none => rfl
  | some b =>
    simp only [beyond, Option.all_some, decide_eq_true_eq] at h ⊢
    exact h.trans hlt

/-- The entries above a bound. -/
def above (bound : Option K) (l : List (K × V)) : List (K × V) := l.filter fun a => beyond bound a.1

theorem above_none (l : List (K × V)) : above none l = l := by
  simp [above, beyond]

theorem above_cons (bound : Option K) (a : K × V) (l : List (K × V)) :
    above bound (a :: l) = if beyond bound a.1 then a :: above bound l else above bound l := List.filter_cons

theorem Ascending.above (h : Ascending l) (bound : Option K) : Ascending (above bound l) := List.Pairwise.filter _ h

theorem above_insert {bound : Option K} (h : beyond bound k = true) :
    above bound (insert k v l) = insert k v (above bound l) := by
  induction l with
  | nil => simp [above, insert, h]
  | cons b l ih =>
    rw [insert]
    split
    next hlt =>
      have hb := beyond_trans h hlt
      rw [above_cons, if_pos h, above_cons, if_pos hb, insert, if_pos hlt]
    · split
      next hnlt heq =>
        have hb : beyond bound b.1 = true := heq ▸ h
        rw [above_cons, if_pos h, above_cons, if_pos hb, insert, if_neg hnlt, if_pos heq]
      next hnlt hne =>
        rw [above_cons, above_cons, ih]
        split
        · rw [insert, if_neg hnlt, if_neg hne]
        · rfl

theorem above_insert_of_not {bound : Option K} (h : beyond bound k = false) :
    above bound (insert k v l) = above bound l := by
  induction l with
  | nil => simp [above, insert, h]
  | cons b l ih =>
    rw [insert]
    split
    · simp [above_cons, h]
    · split
      next heq =>
        have hb : beyond bound b.1 = false := heq ▸ h
        simp [above_cons, h, hb]
      · rw [above_cons, above_cons, ih]

theorem find?_above {bound : Option K} (h : beyond bound k = true) : find? k (above bound l) = find? k l := by
  induction l with
  | nil => rfl
  | cons b l ih =>
    rw [above_cons, find?]
    split
    · rw [find?, ih]
    next hb =>
      have hne : k ≠ b.1 := fun heq => hb (heq ▸ h)
      rw [if_neg hne, ih]

/-- What follows a full prefix is what stands above its last key. -/
theorem above_eq_drop {n : Nat} {last : K × V} (hs : Ascending l) (hlast : (l.take n).getLast? = some last) :
    above (some last.1) l = l.drop n := by
  have hbelow : ∀ a ∈ l.take n, ¬ last.1 < a.1 := fun a ha =>
    not_lt.mpr (le_getLast (List.Pairwise.sublist (List.take_sublist n l) hs) hlast ha)
  have htaken : above (some last.1) (l.take n) = [] := by
    refine List.filter_eq_nil_iff.mpr fun a ha => ?_
    simpa [beyond] using hbelow a ha
  have hdropped : above (some last.1) (l.drop n) = l.drop n := by
    refine List.filter_eq_self.mpr fun a ha => ?_
    simpa [beyond] using last_lt_of_mem_drop hs hlast ha
  calc above (some last.1) l
      = above (some last.1) (l.take n) ++ above (some last.1) (l.drop n) := by
        conv_lhs => rw [← List.take_append_drop n l]
        exact List.filter_append ..
    _ = l.drop n := by rw [htaken, hdropped, List.nil_append]

/-- A bound beyond another leaves what is above both. -/
theorem above_above {bound : Option K} {last : K} (h : beyond bound last = true) :
    above (some last) (above bound l) = above (some last) l := by
  simp only [above, List.filter_filter]
  refine List.filter_congr fun a _ => ?_
  cases hlast : beyond (some last) a.1 with
  | false => rfl
  | true =>
    have hlt : last < a.1 := by simpa [beyond] using hlast
    rw [beyond_trans h hlt, Bool.and_self]

/-! ## Lists of values -/

/-- A value put at the end of its key's list is put somewhere in all of them. -/
theorem flatMap_insert_append {α : Type} {l : List (K × List α)} {a : α} (hs : Ascending l) :
    (insert k ((find? k l).getD [] ++ [a]) l).flatMap Prod.snd |>.Perm (l.flatMap Prod.snd ++ [a]) := by
  induction l with
  | nil => exact .refl _
  | cons b l ih =>
    obtain ⟨hb, hl⟩ := List.pairwise_cons.mp hs
    rw [insert]
    split
    next hlt =>
      have hnone : find? k (b :: l) = none := by
        refine find?_eq_none fun hmem => ?_
        obtain ⟨v', hv⟩ := mem_keys.mp hmem
        rcases List.mem_cons.mp hv with rfl | hv
        · exact lt_irrefl _ hlt
        · exact lt_asymm hlt (hb _ hv)
      rw [hnone, List.flatMap_cons]
      exact List.perm_append_comm
    · split
      next heq =>
        rw [find?, if_pos heq, List.flatMap_cons, List.flatMap_cons]
        simp only [Option.getD_some, List.append_assoc]
        exact (List.perm_append_comm).append_left _
      next hne =>
        rw [find?, if_neg hne, List.flatMap_cons, List.flatMap_cons, List.append_assoc]
        exact (ih hl).append_left _

end Entries

/-! ## Maps -/

/-- Entries in the order of their keys, one for each. -/
structure SortedMap (K V : Type) [LinearOrder K] where
  entries : List (K × V)
  ascending : Entries.Ascending entries
deriving DecidableEq

namespace SortedMap

variable (m : SortedMap K V) (k : K) (v : V)

def empty : SortedMap K V := ⟨[], List.Pairwise.nil⟩

def find? : Option V := Entries.find? k m.entries

def contains : Bool := (m.find? k).isSome

def size : Nat := m.entries.length

def values : List V := m.entries.map Prod.snd

def insert : SortedMap K V := ⟨Entries.insert k v m.entries, m.ascending.insert k v⟩

def remove : SortedMap K V := ⟨m.entries.filter fun a => a.1 ≠ k, List.Pairwise.filter _ m.ascending⟩

/-- Keeps the entries under such keys. -/
def retain (p : K → Bool) : SortedMap K V := ⟨m.entries.filter fun a => p a.1, List.Pairwise.filter _ m.ascending⟩

def last? : Option (K × V) := m.entries.getLast?

def popLast : SortedMap K V := ⟨m.entries.dropLast, m.ascending.sublist (List.dropLast_sublist _)⟩

@[simp] theorem entries_insert : (m.insert k v).entries = Entries.insert k v m.entries := rfl

@[simp] theorem entries_popLast : m.popLast.entries = m.entries.dropLast := rfl

variable {m k}

theorem contains_iff : m.contains k = true ↔ k ∈ Entries.keys m.entries := by
  refine ⟨fun h => ?_, Entries.isSome_find?⟩
  obtain ⟨v, hv⟩ := Option.isSome_iff_exists.mp h
  exact Entries.mem_keys.mpr ⟨v, Entries.mem_of_find? hv⟩

end SortedMap

end Lib
