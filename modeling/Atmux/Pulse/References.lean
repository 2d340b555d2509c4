/-
What a page refers to, when the node writes while it is pulled.

The phases send a profile before the rows that refer to it, as long as nothing
is written behind the cursor (`references_arrive`). A profile created behind it
is not sent in this generation, and a row for it that is written ahead of it
is: the coordinator refuses its page for the foreign key, and asks for the same
page again (`row_before_profile`).
-/
import Atmux.Lib.Runs
import Atmux.Pulse.Apply

namespace Atmux.Pulse

open Lib

/-- Rows are told apart by their fingerprints. -/
def FederationCrates.Distinguishes (crates : FederationCrates) (rows : List FederatedPulseRow) : Prop :=
  ∀ row ∈ rows, ∀ row' ∈ rows, crates.rowDigest row = crates.rowDigest row' → row = row'

theorem FederationCrates.Distinguishes.mono {crates : FederationCrates} {rows rows' : List FederatedPulseRow}
    (h : crates.Distinguishes rows) (hsubset : rows' ⊆ rows) : crates.Distinguishes rows' :=
  fun row hrow row' hrow' => h row (hsubset hrow) row' (hsubset hrow')

/-! ## Writes -/

/-- The profile and the machine that a row refers to. -/
def LocalRow.references (row : LocalRow) : Option (ProfileName × MachineName) := row.exported.references

/-- The rows that the node exports are for profiles of its own. -/
def LocalProfiles (machine : MachineName) (tables : Tables) : Prop :=
  ∀ row ∈ exportRows tables machine, ∀ profile name, row.references = some (profile, name) →
    ∃ p ∈ tables.profiles.rows, p.name = profile ∧ p.origin = .local

/-- What a row refers to is at the coordinator, or ahead of the cursor. -/
def Provided (machine : MachineName) (coordinator node : Tables) (bound : Option ExportOrder) (row : LocalRow) : Prop :=
  ∀ profile name, row.references = some (profile, name) →
    ((coordinator.profiles.find? profile.value).isSome ∨
        ∃ p, .profile p ∈ rowsAfter node machine bound ∧ p.name = profile) ∧
      ((coordinator.machines.find? name.value).isSome ∨
        ∃ m, .machine m ∈ rowsAfter node machine bound ∧ m.name = name)

namespace PullState

/-- What the node writes is for profiles of its own. -/
def LocalWrite (machine : MachineName) : PullStep → Prop
  | .write tables => LocalProfiles machine tables
  | _ => True

/-- What a row that is written ahead of the cursor refers to is at the
coordinator, or ahead of the cursor too. -/
def Prepared (crates : FederationCrates) (machine : MachineName) (state : PullState) : PullStep → Prop
  | .write tables => ∀ bound, cursorBound crates state.store.peer.cursor = .ok bound →
      ∀ row ∈ rowsAfter tables machine bound,
        (¬ ∃ old ∈ exportRows state.node machine, old.order = row.order ∧ old.references = row.references) →
        Provided machine state.store.tables tables bound row
  | _ => True

end PullState

/-! ## One page -/

section
variable {machine : MachineName} {tables node coordinator coordinator' : Tables} {bound : Option ExportOrder}
  {row : LocalRow}

theorem mem_rowsAfter : row ∈ rowsAfter tables machine bound ↔
    row ∈ exportRows tables machine ∧ Entries.beyond bound row.order = true := List.mem_filter

theorem rowsAfter_none : rowsAfter tables machine none = exportRows tables machine :=
  List.filter_eq_self.mpr fun _ _ => rfl

/-- A row's own machine, and the foreign keys of its table. -/
theorem refers_of_mem {profile : ProfileName} {name : MachineName} (h : row ∈ exportRows tables machine)
    (hreferences : row.references = some (profile, name)) : name = machine ∧ tables.Refers profile name := by
  obtain ⟨hstored, hown⟩ := mem_exportRows.mp h
  cases row with
  | usage row =>
    obtain ⟨rfl, rfl⟩ := Prod.mk.inj (Option.some.inj hreferences)
    exact ⟨hown, tables.usage_refers _ hstored⟩
  | context row =>
    obtain ⟨rfl, rfl⟩ := Prod.mk.inj (Option.some.inj hreferences)
    exact ⟨hown, tables.context_refers _ hstored⟩
  | token row =>
    obtain ⟨rfl, rfl⟩ := Prod.mk.inj (Option.some.inj hreferences)
    exact ⟨hown, tables.token_refers _ hstored⟩
  | _ => cases hreferences

theorem profile_order {a b : Profile} (h : a.name = b.name) : (LocalRow.profile a).order = (LocalRow.profile b).order :=
  order_of_samePlace ⟨rfl, by rw [LocalRow.values, LocalRow.values, h]⟩

/-- The machine's row is exported when a row refers to it. -/
theorem machine_exported {profile : ProfileName} {name : MachineName} (h : row ∈ exportRows tables machine)
    (hreferences : row.references = some (profile, name)) : ∃ m, .machine m ∈ exportRows tables machine ∧ m.name = name := by
  obtain ⟨rfl, -, hmachine⟩ := refers_of_mem h hreferences
  obtain ⟨m, hfind⟩ := Option.isSome_iff_exists.mp hmachine
  have hkey : m.primaryKey = name.value := Table.key_of_find? hfind
  have hname := ValidatedString.value_injective hkey
  refine ⟨m, mem_exportRows.mpr ⟨Table.mem_rows.mpr ?_, hname⟩, hname⟩
  rwa [hkey]

theorem profile_exported {profile : ProfileName} {name : MachineName} (hlocal : LocalProfiles machine tables)
    (h : row ∈ exportRows tables machine) (hreferences : row.references = some (profile, name)) :
    ∃ p, .profile p ∈ exportRows tables machine ∧ p.name = profile := by
  obtain ⟨p, hp, hname, horigin⟩ := hlocal row h profile name hreferences
  exact ⟨p, mem_exportRows.mpr ⟨hp, horigin⟩, hname⟩

/-- With no cursor everything is still to come. -/
theorem provided_start (hlocal : LocalProfiles machine tables) (h : row ∈ exportRows tables machine) :
    Provided machine coordinator tables none row := by
  intro profile name hreferences
  rw [rowsAfter_none]
  exact ⟨.inr (profile_exported hlocal h hreferences), .inr (machine_exported h hreferences)⟩

/-- A row that was there before a write, at its place. -/
theorem Provided.write {old : LocalRow} (hlocal : LocalProfiles machine tables) (hrow : row ∈ exportRows tables machine)
    (hreferences : old.references = row.references) (h : Provided machine coordinator node bound old) :
    Provided machine coordinator tables bound row := by
  intro profile name hrefers
  obtain ⟨hprofile, hmachine⟩ := h profile name (hreferences.trans hrefers)
  refine ⟨hprofile.imp_right ?_, hmachine.imp_right ?_⟩
  · rintro ⟨p, hp, hname⟩
    obtain ⟨p', hp', hname'⟩ := profile_exported hlocal hrow hrefers
    refine ⟨p', mem_rowsAfter.mpr ⟨hp', ?_⟩, hname'⟩
    rw [profile_order (hname'.trans hname.symm)]
    exact (mem_rowsAfter.mp hp).2
  · rintro ⟨m, hm, hname⟩
    obtain ⟨m', hm', hname'⟩ := machine_exported hrow hrefers
    refine ⟨m', mem_rowsAfter.mpr ⟨hm', ?_⟩, hname'⟩
    exact (mem_rowsAfter.mp hm).2

/-- What was ahead of the cursor is at the coordinator once it is sent. -/
theorem Provided.pull {sent left : List LocalRow} {bound' : Option ExportOrder}
    (hrows : rowsAfter node machine bound = sent ++ left) (hleft : left = rowsAfter node machine bound')
    (hkeeps : Tables.Keeps coordinator coordinator') (hhas : ∀ row ∈ sent, coordinator'.Has row.exported)
    (h : Provided machine coordinator node bound row) : Provided machine coordinator' node bound' row := by
  intro profile name hrefers
  obtain ⟨hprofile, hmachine⟩ := h profile name hrefers
  rw [hrows] at hprofile hmachine
  rw [← hleft]
  refine ⟨?_, ?_⟩
  · rcases hprofile with hstored | ⟨p, hp, rfl⟩
    · exact .inl (hkeeps.profiles _ hstored)
    · rcases List.mem_append.mp hp with hp | hp
      · exact .inl (hhas _ hp)
      · exact .inr ⟨p, hp, rfl⟩
  · rcases hmachine with hstored | ⟨m, hm, rfl⟩
    · exact .inl (hkeeps.machines _ hstored)
    · rcases List.mem_append.mp hm with hm | hm
      · exact .inl (hhas _ hm)
      · exact .inr ⟨m, hm, rfl⟩

/-- Rows that are provided arrive in the order of the phases. -/
theorem arrived_of_provided {sent left : List LocalRow} (hrows : rowsAfter node machine bound = sent ++ left)
    (h : ∀ row ∈ rowsAfter node machine bound, Provided machine coordinator node bound row) :
    Tables.Arrived coordinator (sent.map LocalRow.exported) := by
  intro before row after hsplit profile name hreferences
  obtain ⟨before', rest, rfl, rfl, hrest⟩ := List.map_eq_append_iff.mp hsplit
  obtain ⟨row', after', rfl, rfl, rfl⟩ := List.map_eq_cons_iff.mp hrest
  have hascending : (before' ++ (row' :: after' ++ left)).Pairwise fun a b => a.order < b.order := by
    rw [← List.append_assoc, ← hrows]
    exact (exportRows_ascending node machine).filter _
  have hmem : row' ∈ rowsAfter node machine bound := by simp [hrows]
  -- what comes before the row in the order comes before it in the page
  have hbefore : ∀ named ∈ rowsAfter node machine bound, named.phase < row'.phase → named.exported ∈ before'.map LocalRow.exported := by
    intro named hnamed hphase
    rw [hrows, List.append_assoc] at hnamed
    rcases List.mem_append.mp hnamed with hnamed | hnamed
    · exact List.mem_map_of_mem hnamed
    · have hlt : named.order < row'.order := Prod.Lex.toLex_lt_toLex.mpr (.inl hphase)
      obtain ⟨hafter, -⟩ := List.pairwise_cons.mp (List.pairwise_append.mp hascending).2.1
      rcases List.mem_cons.mp hnamed with rfl | hnamed
      · exact absurd hlt (lt_irrefl _)
      · exact absurd hlt (lt_asymm (hafter named hnamed))
  have hphase : 1 < row'.phase := by
    cases row' with
    | machine _ | profile _ => cases hreferences
    | _ => simp [LocalRow.phase]
  obtain ⟨hprofile, hmachine⟩ := h row' hmem profile name hreferences
  refine ⟨hprofile.imp_right ?_, hmachine.imp_right ?_⟩
  · rintro ⟨p, hp, rfl⟩
    exact ⟨p.forExport, hbefore _ hp hphase, rfl⟩
  · rintro ⟨m, hm, rfl⟩
    exact ⟨m, hbefore _ hm (Nat.zero_lt_of_lt hphase), rfl⟩

end

/-! ## Runs -/

namespace PullState

section
variable {rowCrates : Crates} {crates : FederationCrates} {accountId : AccountId} {machine : MachineName}
  {state state' : PullState}

/-- A record on file was received. -/
def Recorded (crates : FederationCrates) (state : PullState) : Prop :=
  ∀ key fingerprint, state.store.records.find? key = some fingerprint →
    ∃ row ∈ state.received, crates.rowDigest row = fingerprint

/-- What a prepared run keeps. -/
structure Ready (crates : FederationCrates) (machine : MachineName) (state : PullState) : Prop where
  node : LocalProfiles machine state.node
  provided : ∃ bound, cursorBound crates state.store.peer.cursor = .ok bound ∧
    ∀ row ∈ rowsAfter state.node machine bound, Provided machine state.store.tables state.node bound row
  received : ∀ row ∈ state.received, state.store.tables.Has row
  records : state.Recorded crates

theorem ready_new {node tables : Tables} (hnode : LocalProfiles machine node) : (PullState.new node tables).Ready crates machine where
  node := hnode
  provided := ⟨none, rfl, fun _ hrow => provided_start hnode (mem_rowsAfter.mp hrow).1⟩
  received _ hmem := (by cases hmem)
  records _ _ hfind := (by cases hfind)

theorem Ready.write (h : state.Ready crates machine) {tables : Tables} (hlocal : LocalProfiles machine tables)
    (hprepared : state.Prepared crates machine (.write tables)) :
    Ready crates machine { state with node := tables } := by
  obtain ⟨bound, hbound, hprovided⟩ := h.provided
  refine ⟨hlocal, ⟨bound, hbound, fun row hrow => ?_⟩, h.received, h.records⟩
  by_cases hold : ∃ old ∈ exportRows state.node machine, old.order = row.order ∧ old.references = row.references
  · obtain ⟨old, hmem, horder, hreferences⟩ := hold
    obtain ⟨hexported, hbeyond⟩ := mem_rowsAfter.mp hrow
    have holdmem := mem_rowsAfter.mpr ⟨hmem, horder ▸ hbeyond⟩
    exact (hprovided old holdmem).write hlocal hexported hreferences
  · exact hprepared bound hbound row hrow hold

theorem Ready.begin (h : state.Ready crates machine) :
    Ready crates machine { state with store := beginFederationSync state.store } := by
  unfold beginFederationSync
  split
  · exact ⟨h.node, ⟨none, rfl, fun _ hrow => provided_start h.node (mem_rowsAfter.mp hrow).1⟩, h.received, h.records⟩
  · exact h

/-- A node's rows go up by phase, so the page is in the order of its
application. -/
theorem inOrder_eq {records : List FederatedRecord} {sent left : List LocalRow} {bound : Option ExportOrder}
    (hrows : rowsAfter state.node machine bound = sent ++ left) (hmap : records.map (·.row) = sent.map LocalRow.exported) :
    inOrder records = records := by
  have hascending : (sent ++ left).Pairwise fun a b => a.order < b.order := by
    rw [← hrows]
    exact (exportRows_ascending state.node machine).filter _
  have hpriority : ∀ row : LocalRow, row.exported.applyPriority = row.phase := fun row => by cases row <;> rfl
  have hsorted : (records.map (·.row)).Pairwise fun a b => a.applyPriority ≤ b.applyPriority := by
    rw [hmap]
    refine List.pairwise_map.mpr ((List.pairwise_append.mp hascending).1.imp fun {a b} hlt => ?_)
    rw [hpriority, hpriority]
    exact (Prod.Lex.monotone_fst _ _ hlt.le)
  have hrecords : records.Pairwise fun a b => a.row.applyPriority ≤ b.row.applyPriority :=
    (List.pairwise_map (f := fun record : FederatedRecord => record.row)).mp hsorted
  exact hrecords.insertionSort_eq

/-- The rows of a page that are not on file, and those that are. -/
theorem pending_of_page {page : FederationPage} {pending : List FederatedRecord} (h : state.Recorded crates)
    (hdigests : crates.Distinguishes (state.received ++ page.records.map (·.row)))
    (hpending : pendingRecords crates state.store.records page.records = .ok pending) :
    pending = page.records.filter (fun record => (state.store.records.find? record.key).isNone) ∧
      ∀ record ∈ page.records, (state.store.records.find? record.key).isNone = false → record.row ∈ state.received := by
  obtain ⟨hfilter, hknown⟩ := pendingRecords_ok hpending
  refine ⟨hfilter, fun record hrecord hsome => ?_⟩
  obtain ⟨fingerprint, hfind⟩ := Option.isSome_iff_exists.mp (by simpa using hsome)
  obtain ⟨row, hrow, hdigest⟩ := h _ _ hfind
  have hsame := hdigests row (List.mem_append_left _ hrow) record.row
    (List.mem_append_right _ (List.mem_map_of_mem hrecord)) (hdigest.trans (hknown record hrecord _ hfind))
  rwa [← hsame]

/-- The page's records go on file with it. -/
theorem Recorded.file {page : FederationPage} {store : FederationStore} (h : state.Recorded crates)
    (happly : state.applyPage rowCrates crates accountId machine page = .ok store) :
    Recorded crates { state with store, received := state.received ++ page.records.map (·.row) } := by
  obtain ⟨pending, hpending, -, -, -, -, -, hrecords⟩ := applyFederationPage_ok happly
  intro key fingerprint hfind
  rw [hrecords] at hfind
  rcases find?_filed hfind with hold | ⟨record, hrecord, hdigest⟩
  · obtain ⟨row, hrow, hdigest⟩ := h key fingerprint hold
    exact ⟨row, List.mem_append_left _ hrow, hdigest⟩
  · rw [(pendingRecords_ok hpending).1] at hrecord
    have hmem := (List.perm_insertionSort _ _).mem_iff.mp (List.mem_of_mem_filter hrecord)
    exact ⟨record.row, List.mem_append_right _ (List.mem_map_of_mem hmem), hdigest⟩

/-- What a page has of the node's rows. -/
structure Honest (crates : FederationCrates) (machine : MachineName) (state : PullState) (page : FederationPage)
    (sent left : List LocalRow) (bound bound' : Option ExportOrder) : Prop where
  cursor : cursorBound crates state.store.peer.cursor = .ok bound
  next : cursorBound crates page.nextCursor = .ok bound'
  rows : rowsAfter state.node machine bound = sent ++ left
  sent : page.records.map (·.row) = sent.map LocalRow.exported
  left : page.nextCursor = none ∧ left = [] ∨ page.nextCursor.isSome ∧ left = rowsAfter state.node machine bound'

/-- An applied page leaves its rows with the coordinator. -/
theorem Ready.apply {page : FederationPage} {store : FederationStore} {sent left : List LocalRow}
    {bound bound' : Option ExportOrder} (h : state.Ready crates machine) (hpage : Honest crates machine state page sent left bound bound')
    (hprovided : ∀ row ∈ rowsAfter state.node machine bound, Provided machine state.store.tables state.node bound row)
    (hdigests : crates.Distinguishes (state.received ++ page.records.map (·.row)))
    (happly : state.applyPage rowCrates crates accountId machine page = .ok store) :
    Ready crates machine { state with store, received := state.received ++ page.records.map (·.row) } := by
  have hrecorded := h.records.file happly
  obtain ⟨pending, hpending, happly, -, hcursor, -⟩ := applyFederationPage_ok happly
  rw [inOrder_eq hpage.rows hpage.sent] at hpending
  obtain ⟨rfl, hskipped⟩ := pending_of_page h.records hdigests hpending
  obtain ⟨hkeeps, happlied⟩ := Tables.applyRows_keeps happly
  have hhas : ∀ row ∈ page.records.map (·.row), store.tables.Has row := by
    intro row hrow
    obtain ⟨record, hrecord, rfl⟩ := List.mem_map.mp hrow
    cases hnone : (state.store.records.find? record.key).isNone with
    | true => exact happlied _ (List.mem_map_of_mem (List.mem_filter.mpr ⟨hrecord, hnone⟩))
    | false => exact hkeeps.has (h.received _ (hskipped record hrecord hnone))
  refine ⟨h.node, ⟨bound', by rw [hcursor]; exact hpage.next, fun row hrow => ?_⟩, fun row hrow => ?_, hrecorded⟩
  · rcases hpage.left with ⟨hnone, -⟩ | ⟨-, hleft⟩
    · obtain rfl : none = bound' := Except.ok.inj (show cursorBound crates none = .ok bound' from hnone ▸ hpage.next)
      exact provided_start h.node (mem_rowsAfter.mp hrow).1
    · have hbefore : row ∈ rowsAfter state.node machine bound := by
        rw [hpage.rows, hleft]
        exact List.mem_append_right _ hrow
      refine (hprovided row hbefore).pull hpage.rows hleft hkeeps fun row' hrow' => hhas _ ?_
      rw [hpage.sent]
      exact List.mem_map_of_mem hrow'
  · rcases List.mem_append.mp hrow with hrow | hrow
    · exact hkeeps.has (h.received row hrow)
    · exact hhas row hrow

/-- What a step received is kept. -/
theorem received_subset (step : PullStep) :
    state.received ⊆ (state.step rowCrates crates accountId machine step).received := by
  cases step with
  | write tables => exact fun _ h => h
  | begin => exact fun _ h => h
  | pull limit =>
    rw [PullState.step]
    split
    · exact fun _ h => h
    · split
      · exact fun _ h => h
      · exact List.subset_append_left _ _

theorem Ready.step {step : PullStep} (hcrates : crates.RoundTrips) (h : state.Ready crates machine)
    (hlocal : LocalWrite machine step) (hprepared : state.Prepared crates machine step)
    (hdigests : crates.Distinguishes (state.step rowCrates crates accountId machine step).received) :
    (state.step rowCrates crates accountId machine step).Ready crates machine := by
  cases step with
  | write tables => exact h.write hlocal hprepared
  | begin => exact h.begin
  | pull limit =>
    rw [PullState.step] at hdigests ⊢
    obtain ⟨bound, hbound, hprovided⟩ := h.provided
    cases hpage : state.nextPage crates accountId machine limit with
    | error e => exact h
    | ok page =>
      simp only [hpage] at hdigests ⊢
      obtain ⟨sent, left, bound', hrows, -, hsent, hbound', hleft⟩ := nextPage_ok hcrates hbound hpage
      cases happly : state.applyPage rowCrates crates accountId machine page with
      | error e => exact h
      | ok store =>
        simp only [happly] at hdigests
        exact h.apply ⟨hbound, hbound', hrows, hsent, hleft⟩ hprovided hdigests happly

/-- A run of a node that writes for its own profiles, each step prepared. -/
abbrev PreparedRun (rowCrates : Crates) (crates : FederationCrates) (accountId : AccountId) (machine : MachineName) :=
  Run fun state step state' => LocalWrite machine step ∧ Prepared crates machine state step ∧
    state' = state.step rowCrates crates accountId machine step

theorem run_subset {steps : List PullStep} (hrun : PreparedRun rowCrates crates accountId machine state steps state') :
    state.received ⊆ state'.received := by
  induction hrun with
  | nil => exact fun _ h => h
  | cons hstep _ ih =>
    obtain ⟨-, -, rfl⟩ := hstep
    exact fun _ h => ih (received_subset _ h)

theorem ready_run {steps : List PullStep} (hcrates : crates.RoundTrips) (h : state.Ready crates machine)
    (hrun : PreparedRun rowCrates crates accountId machine state steps state')
    (hdigests : crates.Distinguishes state'.received) : state'.Ready crates machine := by
  induction hrun with
  | nil => exact h
  | cons hstep hrest ih =>
    obtain ⟨hlocal, hprepared, rfl⟩ := hstep
    exact ih (h.step hcrates hlocal hprepared (hdigests.mono (run_subset hrest))) hdigests

end

end PullState

/-- **In a prepared run a page never refers to what has not been sent**, so the
foreign keys do not refuse it, and an applied page moves the cursor on. -/
theorem references_arrive {rowCrates : Crates} {crates : FederationCrates} {accountId : AccountId} {machine : MachineName}
    {node tables : Tables} {steps : List PullStep} {state : PullState} (hcrates : crates.RoundTrips)
    (hnode : LocalProfiles machine node)
    (hrun : PullState.PreparedRun rowCrates crates accountId machine (.new node tables) steps state) {limit : Nat}
    {page : FederationPage} (hpage : state.nextPage crates accountId machine limit = .ok page)
    (hdigests : crates.Distinguishes (state.received ++ page.records.map (·.row))) :
    Tables.Arrived state.store.tables (page.records.map (·.row)) ∧
      state.applyPage rowCrates crates accountId machine page ≠ .error sqlError ∧
      ∀ store, state.applyPage rowCrates crates accountId machine page = .ok store →
        store.peer.cursor = page.nextCursor ∧ store.peer.complete = page.nextCursor.isNone := by
  have hready := PullState.ready_run hcrates (PullState.ready_new hnode) hrun (hdigests.mono (List.subset_append_left _ _))
  obtain ⟨bound, hbound, hprovided⟩ := hready.provided
  obtain ⟨sent, left, bound', hrows, -, hsent, -, -⟩ := PullState.nextPage_ok hcrates hbound hpage
  have harrived : Tables.Arrived state.store.tables (page.records.map (·.row)) := by
    rw [hsent]
    exact arrived_of_provided hrows hprovided
  refine ⟨harrived, applyFederationPage_ne_sqlError fun pending hpending => ?_, fun store happly => ?_⟩
  · rw [PullState.inOrder_eq hrows hsent] at hpending
    obtain ⟨rfl, hskipped⟩ := PullState.pending_of_page hready.records hdigests hpending
    exact harrived.filter fun record hrecord hsome => hready.received _ (hskipped record hrecord hsome)
  · obtain ⟨-, -, -, -, hcursor, hcomplete, -⟩ := applyFederationPage_ok happly
    exact ⟨hcursor, hcomplete⟩

/-! ## A profile behind the cursor -/

/-- What tells the rows of the sample apart. -/
def sampleText : FederatedPulseRow → String
  | .machine row => "machine/" ++ row.name.value
  | .profile row => "profile/" ++ row.name.value ++ "/" ++ toString row.hidden
  | .usage row => "usage/" ++ row.profile.value ++ "/" ++ toString row.polledAt
  | .context row => "context/" ++ row.profile.value ++ "/" ++ row.sessionId.value
  | .token row => "token/" ++ row.profile.value ++ "/" ++ row.sessionId.value ++ "/" ++ row.day

def pulledCrates : FederationCrates where
  __ := knownCrates [((1, ["work"]), "eyJwaGFzZSI6MSwidmFsdWVzIjpbIndvcmsiXX0")]
  recordDigest position row := "/".intercalate position.values ++ row.elim "" sampleText
  rowDigest := sampleText

theorem pulledCrates_roundTrips : pulledCrates.RoundTrips :=
  @knownCrates_roundTrips [((1, ["work"]), "eyJwaGFzZSI6MSwidmFsdWVzIjpbIndvcmsiXX0")] (by decide) (by decide)

/-- The machine, a profile, and a usage row for it. -/
def oneProfile : Tables where
  __ := Tables.empty
  machines := Table.empty.upsert sampleMachine
  profiles := Table.empty.upsert sampleProfile
  usage := Table.empty.upsert ⟨1, sampleSnapshot 1⟩
  usageSequence := 1
  usage_ids := by decide
  sequence_bounded := by decide
  usage_refers := by decide
  context_refers _ hmem := (by cases hmem)
  token_refers _ hmem := (by cases hmem)

/-- A profile that comes before the other one. -/
def earlierProfile : Profile := { sampleProfile with name := ⟨"alpha", by decide⟩ }

def earlierSnapshot : UsageSnapshot := { sampleSnapshot 2 with profile := earlierProfile.name }

/-- The tables with the profile, and a usage row for it. -/
def twoProfiles : Tables where
  __ := Tables.empty
  machines := Table.empty.upsert sampleMachine
  profiles := (Table.empty.upsert sampleProfile).upsert earlierProfile
  usage := (Table.empty.upsert ⟨1, sampleSnapshot 1⟩).upsert ⟨2, earlierSnapshot⟩
  usageSequence := 2
  usage_ids := by decide
  sequence_bounded := by decide
  usage_refers := by decide
  context_refers _ hmem := (by cases hmem)
  token_refers _ hmem := (by cases hmem)

/-- Every text is a date, and settings are told apart by nothing. -/
def sampleRowCrates : Crates := ⟨fun _ => Vector.replicate 32 0, fun _ => none⟩

namespace PullState

def sampleStep (state : PullState) (step : PullStep) : PullState :=
  state.step sampleRowCrates pulledCrates firstAccount sampleMachine.name step

/-- After the machine and its profile. -/
def samplePulled : PullState := (PullState.new oneProfile .empty).sampleStep (.pull 2)

/-- The node has since written a profile and a usage row for it. -/
def sampleWritten : PullState := samplePulled.sampleStep (.write twoProfiles)

end PullState

theorem localProfiles_oneProfile : LocalProfiles sampleMachine.name oneProfile := by
  have hrows : exportRows oneProfile sampleMachine.name =
      [.machine sampleMachine, .profile sampleProfile, .usage ⟨1, sampleSnapshot 1⟩] := by decide +kernel
  intro row hrow profile name hreferences
  rw [hrows] at hrow
  simp only [List.mem_cons, List.not_mem_nil, or_false] at hrow
  rcases hrow with rfl | rfl | rfl
  · cases hreferences
  · cases hreferences
  · obtain ⟨rfl, rfl⟩ := Prod.mk.inj (Option.some.inj hreferences)
    exact ⟨sampleProfile, by decide, rfl, rfl⟩

theorem localProfiles_twoProfiles : LocalProfiles sampleMachine.name twoProfiles := by
  have hrows : exportRows twoProfiles sampleMachine.name = [.machine sampleMachine, .profile earlierProfile,
      .profile sampleProfile, .usage ⟨1, sampleSnapshot 1⟩, .usage ⟨2, earlierSnapshot⟩] := by decide +kernel
  intro row hrow profile name hreferences
  rw [hrows] at hrow
  simp only [List.mem_cons, List.not_mem_nil, or_false] at hrow
  rcases hrow with rfl | rfl | rfl | rfl | rfl
  · cases hreferences
  · cases hreferences
  · cases hreferences
  · obtain ⟨rfl, rfl⟩ := Prod.mk.inj (Option.some.inj hreferences)
    exact ⟨sampleProfile, by decide, rfl, rfl⟩
  · obtain ⟨rfl, rfl⟩ := Prod.mk.inj (Option.some.inj hreferences)
    exact ⟨earlierProfile, by decide, rfl, rfl⟩

/-- The page with the usage row comes before its profile, and is refused. -/
theorem row_before_profile : ∃ (steps : List PullStep) (state : PullState) (page : FederationPage),
    Run (fun (state : PullState) step state' => PullState.LocalWrite sampleMachine.name step ∧
        state' = state.sampleStep step) (.new oneProfile .empty) steps state ∧
    state.nextPage pulledCrates ⟨1, by decide⟩ sampleMachine.name 2 = .ok page ∧
    ¬ Tables.Arrived state.store.tables (page.records.map (·.row)) ∧
    state.applyPage sampleRowCrates pulledCrates ⟨1, by decide⟩ sampleMachine.name page = .error sqlError := by
  have hrows : (fun page => page.records.map (·.row)) <$>
      PullState.sampleWritten.nextPage pulledCrates ⟨1, by decide⟩ sampleMachine.name 2 =
        .ok [.usage (sampleSnapshot 1), .usage earlierSnapshot] := by decide +kernel
  have happly : (PullState.sampleWritten.nextPage pulledCrates ⟨1, by decide⟩ sampleMachine.name 2 >>= fun page =>
      (fun _ => ()) <$> PullState.sampleWritten.applyPage sampleRowCrates pulledCrates ⟨1, by decide⟩ sampleMachine.name page) =
        .error sqlError := by decide +kernel
  obtain ⟨page, hpage, hrows⟩ := map_ok hrows
  rw [hpage] at happly
  refine ⟨[.pull 2, .write twoProfiles], PullState.sampleWritten, page, ?_, hpage, fun harrived => ?_, map_error happly⟩
  · exact .cons ⟨trivial, rfl⟩ (.cons ⟨localProfiles_twoProfiles, rfl⟩ (.nil _))
  · have hprofile := (harrived [.usage (sampleSnapshot 1)] (.usage earlierSnapshot) [] hrows _ _ rfl).1
    rcases hprofile with hstored | ⟨row, hrow, -⟩
    · exact absurd hstored (by decide +kernel)
    · cases List.mem_singleton.mp hrow

/-- Without the write the same page is not refused. -/
theorem page_after_profile : ∃ page,
    PullState.samplePulled.nextPage pulledCrates ⟨1, by decide⟩ sampleMachine.name 2 = .ok page ∧
    Tables.Arrived PullState.samplePulled.store.tables (page.records.map (·.row)) := by
  have hrows : (fun page => page.records.map (·.row)) <$>
      PullState.samplePulled.nextPage pulledCrates ⟨1, by decide⟩ sampleMachine.name 2 =
        .ok [.usage (sampleSnapshot 1)] := by decide +kernel
  have hreceived : PullState.samplePulled.received = [.machine sampleMachine, .profile sampleProfile.forExport] := by
    decide +kernel
  obtain ⟨page, hpage, hrows⟩ := map_ok hrows
  have hdigests : pulledCrates.Distinguishes (PullState.samplePulled.received ++ page.records.map (·.row)) := by
    rw [hreceived, hrows]
    unfold FederationCrates.Distinguishes
    decide +kernel
  have hrun : PullState.PreparedRun sampleRowCrates pulledCrates ⟨1, by decide⟩ sampleMachine.name
      (.new oneProfile .empty) [.pull 2] PullState.samplePulled := .single ⟨trivial, trivial, rfl⟩
  exact ⟨page, hpage, (references_arrive pulledCrates_roundTrips localProfiles_oneProfile hrun hpage hdigests).1⟩

end Atmux.Pulse
