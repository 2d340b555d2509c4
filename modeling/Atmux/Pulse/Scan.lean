/-
Paging through the export from no cursor until there is none.

The tables may change between two pages. A page has the first of the rows
beyond its cursor as they then are, and the next cursor stands at the last of
them (`localPage_advances`), so the rows of all pages go up, and a row that is
there at every page is passed by none (`scan_complete`).
-/
import Atmux.Pulse.Progress

namespace Atmux.Pulse

open Lib

/-! ## One page -/

/-- Where a cursor stands. -/
def cursorBound (crates : FederationCrates) (cursor : Option OpaqueCursor) : PulseResult (Option ExportOrder) := do
  let after ← parseExportCursor crates cursor
  cursorOrder after

section
variable {crates : FederationCrates} {source : StoreFederationSource} {accountId : AccountId} {machine : MachineName}
  {cursor : Option OpaqueCursor} {limit : Nat} {bound : Option ExportOrder}

theorem rest_eq (h : cursorBound crates cursor = .ok bound) :
    source.rest crates ⟨accountId, machine, cursor, limit⟩ =
      .ok (rowsAfter (source.store accountId) source.localMachine bound) := by
  simp only [cursorBound, bind, Except.bind] at h
  simp only [StoreFederationSource.rest, bind, Except.bind, pure, Except.pure]
  split at h
  · cases h
  · simp only [h]

theorem exported_of_forall₂ {rows : List LocalRow} {records : List LocalFederationRecord}
    (h : List.Forall₂ (fun row record => LocalRow.record crates row = .ok record) rows records) :
    records.map (·.row) = rows.map LocalRow.exported := by
  induction h with
  | nil => rfl
  | cons hrow _ ih => rw [List.map_cons, List.map_cons, ih, (record_ok hrow).2]

/-- **A page has the first of the rows beyond the cursor**, and the next
cursor stands before the others, unless there are none. -/
theorem localPage_advances {page : LocalFederationPage} (hcrates : crates.RoundTrips) (hlimit : limit ≠ 0)
    (hbound : cursorBound crates cursor = .ok bound)
    (h : source.localPage crates ⟨accountId, machine, cursor, limit⟩ = .ok page) :
    ∃ sent left bound', rowsAfter (source.store accountId) source.localMachine bound = sent ++ left ∧
      List.Forall₂ (fun row record => LocalRow.record crates row = .ok record) sent page.records ∧
      sent.length ≤ limit ∧ cursorBound crates page.nextCursor = .ok bound' ∧
      (page.nextCursor = none ∧ left = [] ∨
        page.nextCursor.isSome ∧ left = rowsAfter (source.store accountId) source.localMachine bound' ∧
          ∃ last, sent.getLast? = some last ∧ bound' = some last.order) := by
  obtain ⟨rest, hrest, hrows, hend⟩ := localPage_ok h
  obtain rfl := Except.ok.inj (hrest.symm.trans (rest_eq hbound))
  simp only at hrows hend
  refine ⟨(rowsAfter (source.store accountId) source.localMachine bound).take limit,
    (rowsAfter (source.store accountId) source.localMachine bound).drop limit, ?_⟩
  rcases hend with ⟨hlength, hnone⟩ | ⟨-, record, next, hlast, hsome, hexported⟩
  · have hdrop : (rowsAfter (source.store accountId) source.localMachine bound).drop limit = [] :=
      List.drop_of_length_le (hlength.resolve_right hlimit)
    refine ⟨none, (List.take_append_drop _ _).symm, hrows, List.length_take_le _ _, ?_, .inl ⟨hnone, hdrop⟩⟩
    rw [hnone]
    rfl
  · obtain ⟨row, hrow, hrecord⟩ := getLast?_of_forall₂ hrows hlast
    have hposition := (record_ok hrecord).1
    have hparse := parseExportCursor_exportCursor (hcrates _) hexported
    have hmem := (mem_rest hrest (List.mem_of_mem_take (List.mem_of_getLast? hrow))).1
    have hnext : cursorBound crates (some next) = .ok (some row.order) := by
      simp only [cursorBound, hparse, bind, Except.bind]
      exact cursorOrder_row hmem hposition
    have hleft := (rest_next hrest hrow hposition hparse).symm.trans (rest_eq hnext)
    refine ⟨some row.order, (List.take_append_drop _ _).symm, hrows, List.length_take_le _ _, ?_, .inr ⟨?_, ?_, row, hrow, rfl⟩⟩
    · rw [hsome]
      exact hnext
    · rw [hsome]
      rfl
    · exact Except.ok.inj hleft

end

/-! ## All pages -/

/-- Asks for pages from a cursor on, the tables as they are at each request. -/
def scan (crates : FederationCrates) (accountId : AccountId) (machine : MachineName) (limit : Nat)
    (cursor : Option OpaqueCursor) : List Tables → PulseResult (List LocalFederationPage)
  | [] => .ok []
  | tables :: later => do
    let source : StoreFederationSource := ⟨fun _ => tables, [accountId], machine⟩
    let page ← source.localPage crates ⟨accountId, machine, cursor, limit⟩
    match page.nextCursor with
    | none => pure [page]
    | some next => (page :: ·) <$> scan crates accountId machine limit (some next) later

/-- The scan has come to its end. -/
def Ended (pages : List LocalFederationPage) : Prop := ∃ page, pages.getLast? = some page ∧ page.nextCursor = none

/-! ## The rows there are -/

namespace LocalRow

/-- A row of the tables. -/
def Stored (tables : Tables) : LocalRow → Prop
  | machine row => row ∈ tables.machines.rows
  | profile row => row ∈ tables.profiles.rows
  | usage row => row ∈ tables.usage.rows
  | context row => row ∈ tables.contexts.rows
  | token row => row ∈ tables.tokens.rows

/-- A row of the local machine, or a profile of local origin. -/
def Own (localMachine : MachineName) : LocalRow → Prop
  | machine row => row.name = localMachine
  | profile row => row.origin = .local
  | usage row => row.snapshot.machine = localMachine
  | context row => row.machine = localMachine
  | token row => row.machine = localMachine

/-- Rows of one phase with one natural key. -/
def SamePlace (a b : LocalRow) : Prop := a.phase = b.phase ∧ a.values = b.values

end LocalRow

variable {tables tables' : Tables} {machine : MachineName} {a b row : LocalRow}

/-- A phase's rows, by the column and the condition of its query. -/
theorem mem_query {R C : Type} [LinearOrder C] {rows : List R} {column : R → C} {p : R → Prop} [DecidablePred p]
    {wrap : R → LocalRow} : row ∈ (orderBy column (rows.filter fun a => p a)).map wrap ↔
      ∃ a, wrap a = row ∧ a ∈ rows ∧ p a := by
  simp only [List.mem_map, mem_orderBy, List.mem_filter, decide_eq_true_eq]
  exact ⟨fun ⟨a, ha, h⟩ => ⟨a, h, ha⟩, fun ⟨a, h, ha⟩ => ⟨a, ha, h⟩⟩

theorem mem_machineRows : row ∈ machineRows tables machine ↔
    ∃ a, LocalRow.machine a = row ∧ a ∈ tables.machines.rows ∧ a.name = machine := by
  simp only [machineRows, List.mem_map, Option.mem_toList]
  refine ⟨fun ⟨a, ha, h⟩ => ⟨a, h, ?_⟩, fun ⟨a, h, ha, hname⟩ => ⟨a, ?_, h⟩⟩
  · have hkey : a.primaryKey = machine.value := Table.key_of_find? ha
    have hname := ValidatedString.value_injective hkey
    refine ⟨Table.mem_rows.mpr ?_, hname⟩
    rwa [hkey]
  · rw [← hname]
    exact Table.mem_rows.mp ha

/-- **The export is the rows of the local machine and the profiles of local
origin.** -/
theorem mem_exportRows : row ∈ exportRows tables machine ↔ row.Stored tables ∧ row.Own machine := by
  have hphases : row ∈ exportRows tables machine ↔ row ∈ phaseRows tables machine row.phase := by
    refine ⟨fun h => ?_, fun h => List.mem_flatMap.mpr ⟨row.phase, by cases row <;> simp [LocalRow.phase], h⟩⟩
    obtain ⟨phase, -, hmem⟩ := List.mem_flatMap.mp h
    rwa [phase_of_mem hmem]
  rw [hphases]
  cases row with
  | machine a =>
    refine mem_machineRows.trans ⟨?_, fun h => ⟨a, rfl, h⟩⟩
    rintro ⟨_, h, ha⟩
    exact LocalRow.machine.inj h ▸ ha
  | profile a =>
    refine mem_query.trans ⟨?_, fun h => ⟨a, rfl, h⟩⟩
    rintro ⟨_, h, ha⟩
    exact LocalRow.profile.inj h ▸ ha
  | usage a =>
    refine mem_query.trans ⟨?_, fun h => ⟨a, rfl, h⟩⟩
    rintro ⟨_, h, ha⟩
    exact LocalRow.usage.inj h ▸ ha
  | context a =>
    refine mem_query.trans ⟨?_, fun h => ⟨a, rfl, h⟩⟩
    rintro ⟨_, h, ha⟩
    exact LocalRow.context.inj h ▸ ha
  | token a =>
    refine mem_query.trans ⟨?_, fun h => ⟨a, rfl, h⟩⟩
    rintro ⟨_, h, ha⟩
    exact LocalRow.token.inj h ▸ ha

theorem toString_inj {n m : Nat} : toString n = toString m ↔ n = m := by
  refine ⟨fun h => ?_, fun h => h ▸ rfl⟩
  have hn := @Text.parseUnsigned_toString (max n m + 1) n (by omega)
  have hm := @Text.parseUnsigned_toString (max n m + 1) m (by omega)
  rw [h, hm] at hn
  exact (Option.some.inj hn).symm

theorem order_of_samePlace (h : a.SamePlace b) : a.order = b.order := by
  obtain ⟨hphase, hvalues⟩ := h
  rw [LocalRow.order, LocalRow.order, toLex_inj, Prod.mk.injEq]
  refine ⟨hphase, ?_⟩
  cases a with
  | machine a =>
    cases b with
    | machine b => rfl
    | _ => cases hphase
  | usage a =>
    cases b with
    | usage b =>
      have hid : a.id = b.id := toString_inj.mp (List.cons.inj hvalues).1
      rw [LocalRow.sub, LocalRow.sub, hid]
    | _ => cases hphase
  | profile a =>
    cases b with
    | profile b => exact congrArg (fun values => toLex (0, values)) hvalues
    | _ => cases hphase
  | context a =>
    cases b with
    | context b => exact congrArg (fun values => toLex (0, values)) hvalues
    | _ => cases hphase
  | token a =>
    cases b with
    | token b => exact congrArg (fun values => toLex (0, values)) hvalues
    | _ => cases hphase

/-- Own rows stand at one place in the order when they have one natural key. -/
theorem order_eq_iff (ha : a.Own machine) (hb : b.Own machine) : a.order = b.order ↔ a.SamePlace b := by
  refine ⟨fun h => ?_, order_of_samePlace⟩
  rw [LocalRow.order, LocalRow.order, toLex_inj, Prod.mk.injEq] at h
  obtain ⟨hphase, hsub⟩ := h
  refine ⟨hphase, ?_⟩
  cases a with
  | machine a =>
    cases b with
    | machine b =>
      have hname : a.name = b.name := Eq.trans ha (Eq.symm hb)
      rw [LocalRow.values, LocalRow.values, hname]
    | _ => cases hphase
  | usage a =>
    cases b with
    | usage b =>
      have hid : a.id = b.id := Int.natCast_inj.mp (Prod.mk.inj (toLex.injective hsub)).1
      rw [LocalRow.values, LocalRow.values, hid]
    | _ => cases hphase
  | profile a =>
    cases b with
    | profile b => exact (Prod.mk.inj (toLex.injective hsub)).2
    | _ => cases hphase
  | context a =>
    cases b with
    | context b => exact (Prod.mk.inj (toLex.injective hsub)).2
    | _ => cases hphase
  | token a =>
    cases b with
    | token b => exact (Prod.mk.inj (toLex.injective hsub)).2
    | _ => cases hphase

/-! ## Completeness -/

section
variable {crates : FederationCrates} {accountId : AccountId} {limit : Nat}

/-- One request of a scan, and the rest. -/
theorem scan_cons {cursor : Option OpaqueCursor} {later : List Tables} {pages : List LocalFederationPage}
    (h : scan crates accountId machine limit cursor (tables :: later) = .ok pages) :
    ∃ page, StoreFederationSource.localPage crates ⟨fun _ => tables, [accountId], machine⟩
        ⟨accountId, machine, cursor, limit⟩ = .ok page ∧
      (page.nextCursor = none ∧ pages = [page] ∨ page.nextCursor.isSome ∧
        ∃ pages', scan crates accountId machine limit page.nextCursor later = .ok pages' ∧ pages = page :: pages') := by
  rw [scan] at h
  obtain ⟨page, hpage, h⟩ := bind_ok h
  refine ⟨page, hpage, ?_⟩
  cases hnext : page.nextCursor with
  | none =>
    rw [hnext] at h
    exact .inl ⟨rfl, (Except.ok.inj h).symm⟩
  | some next =>
    rw [hnext] at h
    obtain ⟨pages', hpages, h⟩ := map_ok h
    exact .inr ⟨rfl, pages', hpages, h.symm⟩

/-- What a scan from a bound returns, and what it leaves. -/
structure Scanned (crates : FederationCrates) (machine : MachineName) (limit : Nat) (bound : Option ExportOrder)
    (schedule : List Tables) (pages : List LocalFederationPage) (rows : List LocalRow) : Prop where
  records : List.Forall₂ (fun row record => LocalRow.record crates row = .ok record) rows (pages.flatMap (·.records))
  ascending : rows.Pairwise fun a b => a.order < b.order
  beyond : ∀ row ∈ rows, Entries.beyond bound row.order = true
  exported : ∀ row ∈ rows, ∃ tables ∈ schedule, row ∈ exportRows tables machine
  bounded : ∀ page ∈ pages, page.records.length ≤ limit
  complete : Ended pages → ∀ order, Entries.beyond bound order = true →
    (∀ tables ∈ schedule, ∃ row ∈ exportRows tables machine, row.order = order) → ∃ row ∈ rows, row.order = order
  last : Ended pages → ∃ tables, schedule[pages.length - 1]? = some tables ∧
    ∀ row ∈ exportRows tables machine, Entries.beyond bound row.order = true → ∃ row' ∈ rows, row.order ≤ row'.order

theorem le_last {rows : List LocalRow} {last : LocalRow} (h : rows.Pairwise fun a b => a.order < b.order)
    (hlast : rows.getLast? = some last) : ∀ row ∈ rows, row.order ≤ last.order := by
  obtain ⟨front, rfl⟩ := List.getLast?_eq_some_iff.mp hlast
  intro row hrow
  rcases List.mem_append.mp hrow with hrow | hrow
  · exact ((List.pairwise_append.mp h).2.2 row hrow last (List.mem_singleton.mpr rfl)).le
  · rw [List.mem_singleton.mp hrow]

theorem scan_scanned (hcrates : crates.RoundTrips) (hlimit : limit ≠ 0) {schedule : List Tables}
    {cursor : Option OpaqueCursor} {bound : Option ExportOrder} {pages : List LocalFederationPage}
    (hbound : cursorBound crates cursor = .ok bound) (h : scan crates accountId machine limit cursor schedule = .ok pages) :
    ∃ rows, Scanned crates machine limit bound schedule pages rows := by
  induction schedule generalizing cursor bound pages with
  | nil =>
    obtain rfl := Except.ok.inj h
    have hended : ¬ Ended [] := fun ⟨_, hlast, _⟩ => by cases hlast
    refine ⟨[], .nil, .nil, ?_, ?_, ?_, fun hend => absurd hend hended, fun hend => absurd hend hended⟩
    · exact fun _ hmem => (by cases hmem)
    · exact fun _ hmem => (by cases hmem)
    · exact fun _ hmem => (by cases hmem)
  | cons tables later ih =>
    obtain ⟨page, hpage, hend⟩ := scan_cons h
    obtain ⟨sent, left, bound', hrows, hsent, hlength, hbound', hnext⟩ := localPage_advances hcrates hlimit hbound hpage
    have hascending : (sent ++ left).Pairwise fun a b => a.order < b.order := by
      rw [← hrows]
      exact (exportRows_ascending tables machine).filter _
    have hmem : ∀ row, row ∈ sent ++ left ↔ row ∈ exportRows tables machine ∧ Entries.beyond bound row.order = true := by
      intro row
      rw [← hrows]
      exact List.mem_filter
    have hbounded : page.records.length ≤ limit := hsent.length_eq ▸ hlength
    rcases hend with ⟨hnone, rfl⟩ | ⟨hsome, pages', hpages', rfl⟩
    · -- the scan ends with this page
      rcases hnext with ⟨-, rfl⟩ | ⟨hsome, -⟩
      · rw [List.append_nil] at hmem hascending
        refine ⟨sent, ?_, hascending, fun row hrow => ((hmem row).mp hrow).2,
          fun row hrow => ⟨tables, List.mem_cons_self, ((hmem row).mp hrow).1⟩, ?_, ?_, ?_⟩
        · rw [List.flatMap_singleton]
          exact hsent
        · intro page' hpage'
          obtain rfl := List.mem_singleton.mp hpage'
          exact hbounded
        · intro _ order hbeyond hthere
          obtain ⟨row, hrow, rfl⟩ := hthere tables List.mem_cons_self
          exact ⟨row, (hmem row).mpr ⟨hrow, hbeyond⟩, rfl⟩
        · intro _
          exact ⟨tables, rfl, fun row hrow hbeyond => ⟨row, (hmem row).mpr ⟨hrow, hbeyond⟩, le_rfl⟩⟩
      · rw [hnone] at hsome
        cases hsome
    · rcases hnext with ⟨hnone, -⟩ | ⟨-, rfl, last, hlast, rfl⟩
      · rw [hnone] at hsome
        cases hsome
      obtain ⟨rows, hscanned⟩ := ih hbound' hpages'
      have hlastmem : last ∈ sent := List.mem_of_getLast? hlast
      have hle := le_last (List.pairwise_append.mp hascending).1 hlast
      have hafter : ∀ row ∈ rows, last.order < row.order := fun row hrow => by
        simpa [Entries.beyond] using hscanned.beyond row hrow
      have hended : Ended (page :: pages') → pages' ≠ [] ∧ Ended pages' := by
        rintro ⟨page', hlast', hnone⟩
        cases pages' with
        | nil =>
          have hpage' : page = page' := Option.some.inj hlast'
          rw [hpage', hnone] at hsome
          cases hsome
        | cons page'' pages'' => exact ⟨List.cons_ne_nil _ _, page', hlast', hnone⟩
      refine ⟨sent ++ rows, ?_, ?_, ?_, ?_, ?_, ?_, ?_⟩
      · exact List.rel_append hsent hscanned.records
      · refine List.pairwise_append.mpr ⟨(List.pairwise_append.mp hascending).1, hscanned.ascending, ?_⟩
        exact fun a ha b hb => (hle a ha).trans_lt (hafter b hb)
      · intro row hrow
        rcases List.mem_append.mp hrow with hrow | hrow
        · exact ((hmem row).mp (List.mem_append_left _ hrow)).2
        · have hbeyond := ((hmem last).mp (List.mem_append_left _ hlastmem)).2
          exact Entries.beyond_trans hbeyond (hafter row hrow)
      · intro row hrow
        rcases List.mem_append.mp hrow with hrow | hrow
        · exact ⟨tables, List.mem_cons_self, ((hmem row).mp (List.mem_append_left _ hrow)).1⟩
        · obtain ⟨tables', htables', hrow⟩ := hscanned.exported row hrow
          exact ⟨tables', List.mem_cons_of_mem _ htables', hrow⟩
      · intro page' hpage'
        rcases List.mem_cons.mp hpage' with rfl | hpage'
        · exact hbounded
        · exact hscanned.bounded page' hpage'
      · intro hend order hbeyond hthere
        obtain ⟨row, hrow, rfl⟩ := hthere tables List.mem_cons_self
        rcases List.mem_append.mp ((hmem row).mpr ⟨hrow, hbeyond⟩) with hsentmem | hleft
        · exact ⟨row, List.mem_append_left _ hsentmem, rfl⟩
        · have hbeyond' := (List.mem_filter.mp hleft).2
          obtain ⟨row', hrow', heq⟩ := hscanned.complete (hended hend).2 row.order hbeyond'
            fun tables' htables' => hthere tables' (List.mem_cons_of_mem _ htables')
          exact ⟨row', List.mem_append_right _ hrow', heq⟩
      · intro hend
        obtain ⟨hne, hend⟩ := hended hend
        obtain ⟨tables', htables', hcovers⟩ := hscanned.last hend
        have hlength : (page :: pages').length - 1 = pages'.length - 1 + 1 := by
          have hpos := List.length_pos_iff.mpr hne
          rw [List.length_cons]
          omega
        refine ⟨tables', by rw [hlength, List.getElem?_cons_succ, htables'], fun row hrow _ => ?_⟩
        by_cases hbelow : row.order ≤ last.order
        · exact ⟨last, List.mem_append_left _ hlastmem, hbelow⟩
        · obtain ⟨row', hrow', hle'⟩ := hcovers row hrow (by simpa [Entries.beyond] using hbelow)
          exact ⟨row', List.mem_append_right _ hrow', hle'⟩

/-- Own rows at one position stand at one place. -/
theorem order_eq_of_position {position : FederationExportPosition} (ha : a.Own machine) (hb : b.Own machine)
    (hposition : IsPosition position a) (hposition' : IsPosition position b) : a.order = b.order :=
  (order_eq_iff ha hb).mpr ⟨hposition.1.symm.trans hposition'.1, hposition.2.symm.trans hposition'.2⟩

/-- **A scan returns what is there all along once, and nothing twice**, only
own rows as they were at one of the requests, no more than asked for at a
time, and ends when nothing is left behind the last of them. -/
theorem scan_complete (hcrates : crates.RoundTrips) (hlimit : 0 < limit) {schedule : List Tables}
    {pages : List LocalFederationPage} (h : scan crates accountId machine limit none schedule = .ok pages)
    (hended : Ended pages) :
    ((pages.flatMap (·.records)).map (·.position)).Nodup ∧
      (∀ record ∈ pages.flatMap (·.records), ∃ tables ∈ schedule, ∃ row : LocalRow, row.Stored tables ∧
        row.Own machine ∧ IsPosition record.position row ∧ record.row = row.exported) ∧
      (∀ place : LocalRow, (∀ tables ∈ schedule, ∃ row : LocalRow, row.Stored tables ∧ row.Own machine ∧
          row.SamePlace place) →
        ∃ record ∈ pages.flatMap (·.records), ∃ tables ∈ schedule, ∃ row : LocalRow, row.Stored tables ∧
          row.Own machine ∧ row.SamePlace place ∧ IsPosition record.position row ∧ record.row = row.exported) ∧
      (∀ page ∈ pages, page.records.length ≤ limit) ∧
      ∃ tables, schedule[pages.length - 1]? = some tables ∧ ∀ row : LocalRow, row.Stored tables → row.Own machine →
        ∃ record ∈ pages.flatMap (·.records), ∃ row' : LocalRow, IsPosition record.position row' ∧
          row.order ≤ row'.order := by
  obtain ⟨rows, hscanned⟩ := scan_scanned hcrates hlimit.ne' (show cursorBound crates none = .ok none from rfl) h
  have hrecord : ∀ row ∈ rows, ∃ record ∈ pages.flatMap (·.records), IsPosition record.position row ∧
      record.row = row.exported := by
    intro row hrow
    obtain ⟨record, hmem, hrecord⟩ := exists_of_forall₂ hscanned.records hrow
    exact ⟨record, hmem, record_ok hrecord⟩
  have hown : ∀ row ∈ rows, ∃ tables ∈ schedule, row.Stored tables ∧ row.Own machine := by
    intro row hrow
    obtain ⟨tables, htables, hmem⟩ := hscanned.exported row hrow
    exact ⟨tables, htables, mem_exportRows.mp hmem⟩
  refine ⟨?_, ?_, ?_, hscanned.bounded, ?_⟩
  · have hpairs := (List.forall₂_and_left _ _).mpr ⟨fun row hrow => (show row.Own machine from by
      obtain ⟨-, -, -, hown⟩ := hown row hrow
      exact hown), hscanned.records⟩
    refine List.pairwise_map.mpr (pairwise_of_forall₂ hpairs hscanned.ascending ?_)
    intro row row' record record' hrecord hrecord' hlt heq
    have hposition' := (record_ok hrecord'.2).1
    rw [← heq] at hposition'
    exact hlt.ne (order_eq_of_position hrecord.1 hrecord'.1 (record_ok hrecord.2).1 hposition')
  · intro record hmem
    obtain ⟨row, hrow, hrecord⟩ := exists_of_forall₂ hscanned.records.flip hmem
    obtain ⟨tables, htables, hstored, hown⟩ := hown row hrow
    exact ⟨tables, htables, row, hstored, hown, record_ok hrecord⟩
  · intro place hthere
    obtain ⟨row, hrow, horder⟩ := hscanned.complete hended place.order rfl fun tables htables => by
      obtain ⟨row, hstored, hown, hplace⟩ := hthere tables htables
      exact ⟨row, mem_exportRows.mpr ⟨hstored, hown⟩, order_of_samePlace hplace⟩
    obtain ⟨tables, htables, hstored, hown⟩ := hown row hrow
    obtain ⟨there, -, hthereown, hplace⟩ := hthere tables htables
    obtain ⟨record, hmem, hposition, hexported⟩ := hrecord row hrow
    have hsame := (order_eq_iff hown hthereown).mp (horder.trans (order_of_samePlace hplace).symm)
    exact ⟨record, hmem, tables, htables, row, hstored, hown, ⟨hsame.1.trans hplace.1, hsame.2.trans hplace.2⟩,
      hposition, hexported⟩
  · obtain ⟨tables, htables, hcovers⟩ := hscanned.last hended
    refine ⟨tables, htables, fun row hstored hown => ?_⟩
    obtain ⟨row', hrow', hle⟩ := hcovers row (mem_exportRows.mpr ⟨hstored, hown⟩) rfl
    obtain ⟨record, hmem, hposition, -⟩ := hrecord row' hrow'
    exact ⟨record, hmem, row', hposition, hle⟩

end

/-- Three pages of a machine, a profile and five usage rows. -/
theorem three_pages : ∃ pages, scan sampleCrates ⟨1, by decide⟩ sampleMachine.name 3 none
      [sampleTables, sampleTables, sampleTables] = .ok pages ∧
    ((pages.flatMap (·.records)).map (·.position)).Nodup ∧
    ∃ record ∈ pages.flatMap (·.records), IsPosition record.position (.usage ⟨13, sampleSnapshot 13⟩) := by
  have hscan : (fun pages => pages.getLast?.map (·.nextCursor)) <$> scan sampleCrates ⟨1, by decide⟩ sampleMachine.name 3
      none [sampleTables, sampleTables, sampleTables] = .ok (some none) := by decide +kernel
  obtain ⟨pages, hpages, hlast⟩ := map_ok hscan
  obtain ⟨page, hlast, hnone⟩ := Option.map_eq_some_iff.mp hlast
  obtain ⟨hnodup, -, hpresent, -⟩ := scan_complete (knownCrates_roundTrips (by decide) (by decide))
    (show 0 < 3 by decide) hpages ⟨page, hlast, hnone⟩
  refine ⟨pages, hpages, hnodup, ?_⟩
  have hthere : ∀ tables ∈ [sampleTables, sampleTables, sampleTables], ∃ row : LocalRow, row.Stored tables ∧
      row.Own sampleMachine.name ∧ row.SamePlace (.usage ⟨13, sampleSnapshot 13⟩) := by
    intro tables htables
    obtain rfl : tables = sampleTables := by simpa using htables
    exact ⟨.usage ⟨13, sampleSnapshot 13⟩, show _ ∈ sampleTables.usage.rows by decide, rfl, rfl, rfl⟩
  obtain ⟨record, hmem, tables, htables, row, -, -, hplace, hposition, -⟩ := hpresent _ hthere
  exact ⟨record, hmem, hposition.1.trans hplace.1, hposition.2.trans hplace.2⟩

end Atmux.Pulse
