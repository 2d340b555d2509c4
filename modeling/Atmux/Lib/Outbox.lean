/-
Documents sent at least once and applied exactly once.

A sender keeps one page of documents at a time. It sends them in order, each
until it hears that it was applied, and turns to another page when all of them
were; stopped and started again it begins with the page's first document. What
was sent may arrive at any time and any number of times, and the receiver
applies a document unless it has applied one with its id. `Sound` is what a
step preserves: whatever was sent and stopped, the receiver has applied the
pages in order, up to some document of the last one.
-/
import Mathlib.Data.List.Nodup
import Mathlib.Data.List.Infix

namespace Lib

/-- A sender, its receiver, and what was sent from one to the other. -/
structure Outbox (D : Type) where
  /-- The documents of the pages before. -/
  done : List D
  page : List D
  /-- How many of the page the sender has heard of since it last started. -/
  acked : Nat
  sent : List D
  applied : List D

namespace Outbox

variable {D I : Type} {id : D → I} {o o' : Outbox D} {d : D}

inductive Step (id : D → I) : Outbox D → Outbox D → Prop
  | prepare {o : Outbox D} (page : List D) : o.page = [] → ((o.done ++ page).map id).Nodup →
      Step id o { o with page, acked := 0 }
  | send {o : Outbox D} {d : D} : o.page[o.acked]? = some d → Step id o { o with sent := d :: o.sent }
  | apply {o : Outbox D} {d : D} : d ∈ o.sent → id d ∉ o.applied.map id → Step id o { o with applied := o.applied ++ [d] }
  | acknowledge {o : Outbox D} {d : D} : o.page[o.acked]? = some d → id d ∈ o.applied.map id →
      Step id o { o with acked := o.acked + 1 }
  | restart {o : Outbox D} : Step id o { o with acked := 0 }
  | commit {o : Outbox D} : o.acked = o.page.length → Step id o { o with done := o.done ++ o.page, page := [], acked := 0 }

/-- The receiver has applied the pages before and the first `k` of this one,
the sender knows of no more of them, and has sent at most one more. -/
structure Sound (id : D → I) (o : Outbox D) : Prop where
  ids : ((o.done ++ o.page).map id).Nodup
  applied : ∃ k, o.acked ≤ k ∧ o.applied = o.done ++ o.page.take k ∧ ∀ d ∈ o.sent, d ∈ o.done ++ o.page.take (k + 1)

namespace Sound

theorem start : Sound id ⟨[], [], 0, [], []⟩ := ⟨by simp, 0, le_rfl, rfl, by simp⟩

/-- Of the documents that are there no two have one id. -/
theorem eq_of_id (h : Sound id o) {d' : D} (hd : d ∈ o.done ++ o.page) (hd' : d' ∈ o.done ++ o.page) (hid : id d = id d') :
    d = d' :=
  List.inj_on_of_nodup_map h.ids hd hd' hid

theorem applied_prefix (h : Sound id o) : o.applied <+: o.done ++ o.page := by
  obtain ⟨k, -, happlied, -⟩ := h.applied
  rw [happlied]
  exact List.prefix_append_right_inj _ |>.mpr (List.take_prefix k o.page)

/-- The pages before were applied as a whole. -/
theorem done_prefix (h : Sound id o) : o.done <+: o.applied := by
  obtain ⟨k, -, happlied, -⟩ := h.applied
  rw [happlied]
  exact List.prefix_append _ _

theorem mem_of_applied (h : Sound id o) (hd : d ∈ o.applied) : d ∈ o.done ++ o.page := h.applied_prefix.subset hd

/-- Nothing is applied twice. -/
theorem applied_nodup (h : Sound id o) : (o.applied.map id).Nodup :=
  h.ids.sublist (h.applied_prefix.sublist.map id)

theorem mem_of_sent (h : Sound id o) (hd : d ∈ o.sent) : d ∈ o.done ++ o.page := by
  obtain ⟨k, -, -, hsent⟩ := h.applied
  rcases List.mem_append.mp (hsent d hd) with hd | hd
  · exact List.mem_append_left _ hd
  · exact List.mem_append_right _ (List.mem_of_mem_take hd)

/-- A document of the page that was applied is among the first that were. -/
theorem lt_of_applied (h : Sound id o) {k n : Nat} (happlied : o.applied = o.done ++ o.page.take k)
    (hd : o.page[n]? = some d) (hmem : id d ∈ o.applied.map id) : n < k := by
  obtain ⟨d', hd', hid⟩ := List.mem_map.mp hmem
  have hdpage : d ∈ o.page := List.mem_of_getElem? hd
  obtain rfl := h.eq_of_id (h.mem_of_applied hd') (List.mem_append_right _ hdpage) hid
  have hnodup : (o.done ++ o.page).Nodup := h.ids.of_map
  obtain ⟨-, hpage, hdisjoint⟩ := List.nodup_append'.mp hnodup
  rw [happlied] at hd'
  rcases List.mem_append.mp hd' with hd' | hd'
  · exact absurd hdpage (hdisjoint hd')
  · obtain ⟨i, hi, hget⟩ := List.mem_take_iff_getElem.mp hd'
    obtain ⟨hn, hget'⟩ := List.getElem?_eq_some_iff.mp hd
    have heq : i = n := (hpage.getElem_inj_iff).mp (hget.trans hget'.symm)
    omega

/-- What is still to be applied is the document after the last that was. -/
theorem next_of_sent {k : Nat} (happlied : o.applied = o.done ++ o.page.take k)
    (hmem : d ∈ o.done ++ o.page.take (k + 1)) (hnew : id d ∉ o.applied.map id) : o.page[k]? = some d := by
  rw [List.take_add_one, ← List.append_assoc, ← happlied] at hmem
  rcases List.mem_append.mp hmem with hmem | hmem
  · exact absurd (List.mem_map_of_mem hmem) hnew
  · simpa using hmem

/-- **A step keeps what was applied a prefix of the pages.** -/
theorem step (h : Sound id o) (hstep : Step id o o') : Sound id o' := by
  obtain ⟨k, hk, happlied, hsent⟩ := h.applied
  cases hstep with
  | prepare page hpage hids =>
    refine ⟨hids, 0, le_rfl, ?_, fun d hd => List.mem_append_left _ ?_⟩
    · rw [happlied, hpage, List.take_nil, List.take_zero]
    · have hmem := hsent d hd
      rwa [hpage, List.take_nil, List.append_nil] at hmem
  | send hd =>
    refine ⟨h.ids, k, hk, happlied, fun d' hd' => ?_⟩
    rcases List.mem_cons.mp hd' with rfl | hd'
    · refine List.mem_append_right _ (List.mem_take_iff_getElem.mpr ⟨o.acked, ?_, ?_⟩)
      · have hlt := (List.getElem?_eq_some_iff.mp hd).1
        exact Nat.lt_min.mpr ⟨Nat.lt_succ_of_le hk, hlt⟩
      · exact (List.getElem?_eq_some_iff.mp hd).2
    · exact hsent d' hd'
  | apply hd hnew =>
    have hnext := next_of_sent happlied (hsent _ hd) hnew
    refine ⟨h.ids, k + 1, hk.trans (Nat.le_succ k), ?_, fun d' hd' => ?_⟩
    · show o.applied ++ _ = o.done ++ o.page.take (k + 1)
      rw [happlied, List.take_add_one, hnext, List.append_assoc]
      rfl
    · rcases List.mem_append.mp (hsent d' hd') with hd' | hd'
      · exact List.mem_append_left _ hd'
      · exact List.mem_append_right _ ((List.take_subset_take_left _ (Nat.le_succ (k + 1))) hd')
  | acknowledge hd hmem => exact ⟨h.ids, k, h.lt_of_applied happlied hd hmem, happlied, hsent⟩
  | restart => exact ⟨h.ids, k, Nat.zero_le k, happlied, hsent⟩
  | commit hall =>
    have hwhole : ∀ n, k ≤ n → o.page.take n = o.page := fun n hn => List.take_of_length_le (by omega)
    refine ⟨by simpa using h.ids, 0, le_rfl, ?_, fun d hd => ?_⟩
    · rw [happlied, hwhole k le_rfl, List.take_nil, List.append_nil]
    · have hmem := hsent d hd
      rw [hwhole (k + 1) (Nat.le_succ k)] at hmem
      exact List.mem_append_left _ hmem

/-- With every document of the page heard of, all of it was applied. -/
theorem applied_of_acked (h : Sound id o) (hall : o.acked = o.page.length) : o.applied = o.done ++ o.page := by
  obtain ⟨k, hk, happlied, -⟩ := h.applied
  rw [happlied, List.take_of_length_le (by omega)]

/-- Without a page the receiver has applied what the sender has done. -/
theorem applied_of_empty (h : Sound id o) (hpage : o.page = []) : o.applied = o.done := by
  obtain ⟨k, -, happlied, -⟩ := h.applied
  rw [happlied, hpage, List.take_nil, List.append_nil]

end Sound

end Outbox

end Lib
