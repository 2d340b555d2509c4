/-
The rows that a machine has reported.

`UsageRows` are the snapshots between two cursors, `SteadyRows` those of a
sweep's token rows that did not change: a page of either begins where the one
before ended, so pages put together are again one.
-/
import Atmux.Pulse.Reporter

namespace Atmux.Pulse

open Lib

/-! ## A page in its order -/

section
variable {K R : Type} [LinearOrder K] {column : R → K} {rows : List R} {n : Nat} {last row : R}

/-- No row up to a page's last is left out of it. -/
theorem mem_page_of_le (h : (rows.map column).Nodup) (hlast : ((orderBy column rows).take n).getLast? = some last)
    (hrow : row ∈ rows) (hle : column row ≤ column last) : row ∈ (orderBy column rows).take n := by
  have hascending := orderBy_ascending h
  have hmem : row ∈ orderBy column rows := mem_orderBy.mpr hrow
  rw [← List.take_append_drop n (orderBy column rows)] at hmem
  rcases List.mem_append.mp hmem with hmem | hmem
  · exact hmem
  · rw [← filter_beyond_last hascending hlast, List.mem_filter] at hmem
    simp only [Entries.beyond, Option.all_some, decide_eq_true_eq] at hmem
    exact absurd hle (not_le.mpr hmem.2)

theorem page_empty (hn : 0 < n) (hlast : ((orderBy column rows).take n).getLast? = none) : rows = [] := by
  rw [List.getLast?_eq_none_iff, List.take_eq_nil_iff] at hlast
  rcases hlast with hlast | hlast
  · omega
  · exact List.eq_nil_iff_forall_not_mem.mpr fun row hrow => by
      have hmem : row ∈ orderBy column rows := mem_orderBy.mpr hrow
      rw [hlast] at hmem
      cases hmem

/-- A page's last row is the greatest of it. -/
theorem le_page_last (h : (rows.map column).Nodup) (hlast : ((orderBy column rows).take n).getLast? = some last)
    (hrow : row ∈ (orderBy column rows).take n) : column row ≤ column last := by
  have hascending : ((orderBy column rows).take n).Pairwise fun a b => column a < column b :=
    (orderBy_ascending h).sublist (List.take_sublist _ _)
  obtain ⟨front, hfront⟩ := List.getLast?_eq_some_iff.mp hlast
  rw [hfront] at hrow hascending
  rcases List.mem_append.mp hrow with hrow | hrow
  · exact ((List.pairwise_append.mp hascending).2.2 row hrow last (List.mem_singleton.mpr rfl)).le
  · rw [List.mem_singleton.mp hrow]

end

/-! ## Snapshots -/

/-- A snapshot that is stored has an id of its own. -/
theorem later_of_insertSnapshot {tables tables' : Tables} {snapshot : UsageSnapshot}
    (h : tables.insertSnapshot snapshot = .ok tables') : tables.Later tables' := by
  obtain ⟨hrefers, hroom, rfl⟩ := Tables.insertSnapshot_ok h
  refine ⟨Nat.le_succ _, fun stored hstored => ?_⟩
  rcases Table.mem_upsert hstored with rfl | hold
  · exact .inr (Nat.lt_succ_self _)
  · exact .inl hold

/-- So has one that stays when others are thinned out. -/
theorem later_of_filter {tables tables' : Tables} {keep : StoredUsageSnapshot → Bool}
    (husage : tables'.usage = tables.usage.filter keep) (hsequence : tables'.usageSequence = tables.usageSequence) :
    tables.Later tables' := by
  refine ⟨hsequence.ge, fun stored hstored => ?_⟩
  rw [husage, Table.rows_filter] at hstored
  exact .inl (List.mem_filter.mp hstored).1

/-- The machine's snapshots with ids above one cursor and up to another, of
those that the tables have ever had. -/
structure UsageRows (machine : MachineName) (tables : Tables) (seen : List StoredUsageSnapshot) (after upto : Int)
    (rows : List StoredUsageSnapshot) : Prop where
  own : ∀ stored ∈ rows, stored ∈ seen ∧ stored.snapshot.machine = machine
  ascending : rows.Pairwise fun a b => a.id < b.id
  within : ∀ stored ∈ rows, after < stored.id ∧ (stored.id : Int) ≤ upto
  covers : ∀ stored ∈ tables.usage.rows, stored.snapshot.machine = machine → after < stored.id → (stored.id : Int) ≤ upto →
    stored ∈ rows
  le : after ≤ upto
  sequence : upto ≤ tables.usageSequence

namespace UsageRows

variable {machine : MachineName} {tables tables' : Tables} {seen seen' rows rows' : List StoredUsageSnapshot}
  {after middle upto : Int}

theorem nil (h : after ≤ tables.usageSequence) : UsageRows machine tables seen after after [] where
  own _ hmem := by cases hmem
  ascending := .nil
  within _ hmem := by cases hmem
  covers _ _ _ hlt hle := by omega
  le := le_rfl
  sequence := h

theorem append (h : UsageRows machine tables seen after middle rows) (h' : UsageRows machine tables seen middle upto rows') :
    UsageRows machine tables seen after upto (rows ++ rows') where
  own stored hmem := by
    rcases List.mem_append.mp hmem with hmem | hmem
    · exact h.own stored hmem
    · exact h'.own stored hmem
  ascending := by
    refine List.pairwise_append.mpr ⟨h.ascending, h'.ascending, fun a ha b hb => ?_⟩
    have hbelow := (h.within a ha).2
    have habove := (h'.within b hb).1
    omega
  within stored hmem := by
    have hle := h.le
    have hle' := h'.le
    rcases List.mem_append.mp hmem with hmem | hmem
    · have := h.within stored hmem
      omega
    · have := h'.within stored hmem
      omega
  covers stored hmem hmachine hafter hupto := by
    rcases le_or_gt (stored.id : Int) middle with hmiddle | hmiddle
    · exact List.mem_append_left _ (h.covers stored hmem hmachine hafter hmiddle)
    · exact List.mem_append_right _ (h'.covers stored hmem hmachine hmiddle hupto)
  le := h.le.trans h'.le
  sequence := h'.sequence

/-- New snapshots are above every cursor there is. -/
theorem later (h : UsageRows machine tables seen after upto rows) (hlater : tables.Later tables') (hseen : seen ⊆ seen') :
    UsageRows machine tables' seen' after upto rows where
  own stored hmem := ⟨hseen (h.own stored hmem).1, (h.own stored hmem).2⟩
  ascending := h.ascending
  within := h.within
  covers stored hmem hmachine hafter hupto := by
    rcases hlater.2 stored hmem with hold | hnew
    · exact h.covers stored hold hmachine hafter hupto
    · have hsequence := h.sequence
      omega
  le := h.le
  sequence := h.sequence.trans (Int.ofNat_le.mpr hlater.1)

end UsageRows

theorem nodup_ids (tables : Tables) (p : StoredUsageSnapshot → Bool) :
    ((tables.usage.rows.filter p).map StoredUsageSnapshot.id).Nodup := by
  have hids : (tables.usage.rows.map StoredUsageSnapshot.id).Pairwise (· < ·) := List.pairwise_map.mpr tables.usage.rows_pairwise
  exact (hids.imp fun hlt => ne_of_lt hlt).sublist (List.filter_sublist.map _)

/-- What is read beyond a cursor are the snapshots up to the last of them. -/
theorem usageRows_of_page {machine : MachineName} {store : ReporterStore} {after : Int} {rows : List StoredUsageSnapshot}
    {last : StoredUsageSnapshot} {seen : List StoredUsageSnapshot} (hseen : store.tables.usage.rows ⊆ seen)
    (h : store.localReporterUsagePage machine after coordinatorPageRows = .ok rows) (hlast : rows.getLast? = some last) :
    UsageRows machine store.tables seen after last.id rows := by
  unfold ReporterStore.localReporterUsagePage at h
  split at h
  · cases h
  · obtain rfl := Except.ok.inj h
    have hnodup := nodup_ids store.tables fun stored => stored.snapshot.machine = machine ∧ after < stored.id
    have hlastmem := mem_orderBy.mp (List.mem_of_mem_take (List.mem_of_getLast? hlast))
    simp only [List.mem_filter, decide_eq_true_eq] at hlastmem
    obtain ⟨hlastmem, -, hlastafter⟩ := hlastmem
    refine ⟨fun stored hmem => ?_, (orderBy_ascending hnodup).sublist (List.take_sublist _ _), fun stored hmem => ?_, ?_,
      by omega, ?_⟩
    · have hrow := mem_orderBy.mp (List.mem_of_mem_take hmem)
      simp only [List.mem_filter, decide_eq_true_eq] at hrow
      exact ⟨hseen hrow.1, hrow.2.1⟩
    · have hle := le_page_last hnodup hlast hmem
      have hrow := mem_orderBy.mp (List.mem_of_mem_take hmem)
      simp only [List.mem_filter, decide_eq_true_eq] at hrow
      exact ⟨hrow.2.2, Int.ofNat_le.mpr hle⟩
    · intro stored hmem hmachine hafter hupto
      refine mem_page_of_le hnodup hlast ?_ (Int.ofNat_le.mp hupto)
      simp only [List.mem_filter, decide_eq_true_eq]
      exact ⟨hmem, hmachine, hafter⟩
    · exact Int.ofNat_le.mpr (store.tables.usage_ids last hlastmem).2

/-! ## Token rows -/

/-- The place of a row in the order of positions. -/
def placeOf (grain : TokenGrain) : WithBot (List String) := height (some (.fromGrain grain))

theorem placeOf_eq (grain : TokenGrain) : placeOf grain = ((ReporterTokenPosition.fromGrain grain).columns : List String) := rfl

/-- The rows between two positions, of those that have not changed. -/
structure SteadyRows (steady : List TokenGrain) (after upto : Option ReporterTokenPosition) (rows : List TokenGrain) : Prop where
  covers : ∀ grain ∈ steady, height after < placeOf grain → placeOf grain ≤ height upto → grain ∈ rows
  le : height after ≤ height upto

namespace SteadyRows

variable {steady steady' : List TokenGrain} {after middle upto : Option ReporterTokenPosition} {rows rows' : List TokenGrain}

theorem nil : SteadyRows steady after after [] where
  covers _ _ hlt hle := absurd hlt (not_lt.mpr hle)
  le := le_rfl

theorem append (h : SteadyRows steady after middle rows) (h' : SteadyRows steady middle upto rows') :
    SteadyRows steady after upto (rows ++ rows') where
  covers grain hmem hafter hupto := by
    rcases le_or_gt (placeOf grain) (height middle) with hmiddle | hmiddle
    · exact List.mem_append_left _ (h.covers grain hmem hafter hmiddle)
    · exact List.mem_append_right _ (h'.covers grain hmem hmiddle hupto)
  le := h.le.trans h'.le

theorem mono (h : SteadyRows steady after upto rows) (hsub : steady' ⊆ steady) : SteadyRows steady' after upto rows where
  covers grain hmem := h.covers grain (hsub hmem)
  le := h.le

end SteadyRows

/-- A machine's rows differ in their positions. -/
theorem nodup_positions (machine : MachineName) (tables : Tables) (p : TokenGrain → Bool) :
    ((tables.tokens.rows.filter fun grain => grain.machine = machine ∧ p grain = true).map fun grain =>
      (ReporterTokenPosition.fromGrain grain).columns).Nodup := by
  rw [List.Nodup, List.pairwise_map]
  have hkeys : tables.tokens.rows.Pairwise fun a b => a.primaryKey ≠ b.primaryKey :=
    tables.tokens.rows_pairwise.imp fun hlt => ne_of_lt hlt
  refine (hkeys.filter _).imp_of_mem fun ha hb hne heq => hne ?_
  simp only [List.mem_filter, decide_eq_true_eq] at ha hb
  have hmachine : _ = _ := ha.2.1.trans hb.2.1.symm
  simp only [ReporterTokenPosition.columns, ReporterTokenPosition.fromGrain, List.cons.injEq, and_true] at heq
  obtain ⟨hprofile, hsession, hmodel, hsettings, hday, hsource⟩ := heq
  simp only [TokenGrain.primaryKey, hprofile, hmachine, hsession, hmodel, hsettings, hday, hsource]

theorem mem_tokenRows {machine : MachineName} {tables : Tables} {grain : TokenGrain} :
    grain ∈ Sender.tokenRows machine tables ↔ grain ∈ tables.tokens.rows ∧ grain.machine = machine := by
  simp [Sender.tokenRows]

/-- Beyond a position, of the machine's rows. -/
theorem mem_beyond {machine : MachineName} {tables : Tables} {after : Option ReporterTokenPosition} {grain : TokenGrain}
    (hgrain : grain ∈ Sender.tokenRows machine tables) (hafter : height after < placeOf grain) :
    grain ∈ tables.tokens.rows.filter fun grain =>
      grain.machine = machine ∧ tokenBefore after (some (.fromGrain grain)) = true := by
  obtain ⟨hmem, hmachine⟩ := mem_tokenRows.mp hgrain
  simp only [List.mem_filter, decide_eq_true_eq]
  exact ⟨hmem, hmachine, height_lt_iff.mp hafter⟩

/-- What is read beyond a position are the rows up to the last of them. -/
theorem steadyRows_of_page {machine : MachineName} {store : ReporterStore} {after : Option ReporterTokenPosition}
    {steady : List TokenGrain} {last : TokenGrain} (hsteady : ∀ grain ∈ steady, grain ∈ Sender.tokenRows machine store.tables)
    (hlast : (store.localReporterTokenPage machine after coordinatorPageRows).getLast? = some last) :
    SteadyRows steady after (some (.fromGrain last)) (store.localReporterTokenPage machine after coordinatorPageRows) where
  covers grain hmem hafter hupto :=
    mem_page_of_le (nodup_positions machine store.tables _) hlast (mem_beyond (hsteady grain hmem) hafter)
      (WithBot.coe_le_coe.mp hupto)
  le := by
    have hmem := mem_orderBy.mp (List.mem_of_mem_take (List.mem_of_getLast? hlast))
    simp only [List.mem_filter, decide_eq_true_eq] at hmem
    exact (height_lt_iff.mpr hmem.2.2).le

/-- Where nothing is read, nothing is beyond the position. -/
theorem le_of_page_empty {machine : MachineName} {store : ReporterStore} {after : Option ReporterTokenPosition}
    (hlast : (store.localReporterTokenPage machine after coordinatorPageRows).getLast? = none) {grain : TokenGrain}
    (hgrain : grain ∈ Sender.tokenRows machine store.tables) : placeOf grain ≤ height after := by
  have hempty := page_empty (by decide) hlast
  refine not_lt.mp fun hafter => ?_
  have hmem := mem_beyond hgrain hafter
  rw [hempty] at hmem
  cases hmem

end Atmux.Pulse
