/-
How a coordinator pulls a node's rows.

A page goes from the node's tables through `exportPage` and the coordinator's
own checks to `applyFederationPage`, which applies it whole or not at all. A
record whose key and fingerprint are on file from an earlier page is not
applied again.
-/
import Atmux.Pulse.Scan

namespace Atmux.Pulse

open Lib

/-! ## Records -/

def maxOriginHops : Nat := 8

def PulseOrigin.validateDirect (origin : PulseOrigin) (expected : MachineName) : PulseResult Unit :=
  if origin.path.length ≠ 1 ∨ maxOriginHops < origin.path.length ∨ origin.machine ≠ expected ∨
      origin.path.head? ≠ some expected then
    .error ⟨.conflict, "a Pulse peer attempted to re-export mirrored data"⟩
  else .ok ()

namespace FederatedPulseRow

def accountId : FederatedPulseRow → AccountId
  | machine row => row.accountId
  | profile row => row.accountId
  | usage row => row.accountId
  | context row => row.accountId
  | token row => row.accountId

def applyPriority : FederatedPulseRow → Nat
  | machine _ => 0
  | profile _ => 1
  | usage _ => 2
  | context _ => 3
  | token _ => 4

end FederatedPulseRow

def originMismatch : PulseError :=
  ⟨.conflict, "Pulse federation row machine did not match its authenticated origin"⟩

def isKeyChar (c : Char) : Bool := c.isAlphanum || "-_.:/".toList.contains c

def FederatedRecord.validate (accountId : AccountId) (expected : MachineName) (record : FederatedRecord) :
    PulseResult Unit := do
  if record.key = "" ∨ 192 < record.key.utf8ByteSize ∨ !record.key.toList.all isKeyChar then
    throw (.invalidInput "Pulse federation record key is invalid")
  record.origin.validateDirect expected
  if record.row.accountId ≠ accountId then
    throw ⟨.conflict, "Pulse federation row crossed its requested account boundary"⟩
  match record.row with
  | .machine row => if row.name ≠ expected then throw originMismatch
  | .profile row =>
    if row.origin ≠ .reported ∨ !row.validate.isOk then
      throw ⟨.conflict, "Pulse federation profile exposed local-only metadata"⟩
  | .usage row => if row.machine ≠ expected then throw originMismatch
  | .context row => if row.machine ≠ expected then throw originMismatch
  | .token row => if row.machine ≠ expected then throw originMismatch

/-! ## The durable state -/

/-- Per-machine resume state. -/
structure FederationState where
  cursor : Option OpaqueCursor
  generation : Nat
  pagesApplied : Nat
  recordsApplied : Nat
  complete : Bool
deriving DecidableEq

/-- A coordinator's rows of one account, and what it keeps of one peer. -/
structure FederationStore where
  tables : Tables
  peer : FederationState
  /-- The fingerprints of the records received, by key. -/
  records : SortedMap String String

def FederationStore.new (tables : Tables) : FederationStore := ⟨tables, ⟨none, 0, 0, 0, false⟩, .empty⟩

def beginFederationSync (store : FederationStore) : FederationStore :=
  if store.peer.complete then
    { store with peer := { store.peer with cursor := none, generation := store.peer.generation + 1, complete := false } }
  else store

/-! ## Applying a page -/

/-- Each record is valid, and no key comes twice. -/
def checkRecords (accountId : AccountId) (source : MachineName) (keys : List String) :
    List FederatedRecord → PulseResult Unit
  | [] => .ok ()
  | record :: records => do
    record.validate accountId source
    if record.key ∈ keys then
      throw ⟨.conflict, "Pulse federation page repeated a record key"⟩
    checkRecords accountId source (record.key :: keys) records

/-- The records that are not on file. -/
def pendingRecords (crates : FederationCrates) (known : SortedMap String String) :
    List FederatedRecord → PulseResult (List FederatedRecord)
  | [] => .ok []
  | record :: records =>
    match known.find? record.key with
    | some fingerprint =>
      if fingerprint = crates.rowDigest record.row then pendingRecords crates known records
      else .error ⟨.conflict, "Pulse federation stable key changed its fingerprint"⟩
    | none => (record :: ·) <$> pendingRecords crates known records

/-- `apply_sqlite_federated_row`. -/
def Tables.applyRow (tables : Tables) : FederatedPulseRow → PulseResult Tables
  | .machine row => tables.upsertMachine row
  | .profile row => tables.upsertReportedProfile row
  | .usage row => tables.insertSnapshot row
  | .context row => tables.upsertContext row
  | .token _ => .ok tables

def FederatedPulseRow.grain? : FederatedPulseRow → Option TokenGrain
  | token row => some row
  | _ => none

/-- The rows but the tokens in turn, then the tokens. -/
def Tables.applyRows (rowCrates : Crates) (tables : Tables) (rows : List FederatedPulseRow) : PulseResult Tables := do
  let tables ← (rows.filter fun row => row.grain?.isNone).foldlM Tables.applyRow tables
  tables.upsertTokenBatch rowCrates (rows.filterMap FederatedPulseRow.grain?)

def applyFederationPage (rowCrates : Crates) (crates : FederationCrates) (store : FederationStore)
    (accountId : AccountId) (source : MachineName) (expected next : Option OpaqueCursor)
    (records : List FederatedRecord) : PulseResult FederationStore := do
  checkRecords accountId source [] records
  let records := records.insertionSort fun a b => a.row.applyPriority ≤ b.row.applyPriority
  if store.peer.cursor ≠ expected ∨ store.peer.complete then
    throw ⟨.conflict, "Pulse federation cursor no longer matches durable state"⟩
  let pending ← pendingRecords crates store.records records
  let tables ← store.tables.applyRows rowCrates (pending.map (·.row))
  pure {
    tables
    peer := { store.peer with
      cursor := next
      pagesApplied := store.peer.pagesApplied + 1
      recordsApplied := store.peer.recordsApplied + pending.length
      complete := next.isNone }
    records := pending.foldl (fun known record => known.insert record.key (crates.rowDigest record.row)) store.records }

/-! ## Pages -/

def federationVersion : Nat := 2

/-- One bounded page produced by a direct peer. -/
structure FederationPage where
  version : Nat
  sourceMachine : MachineName
  records : List FederatedRecord
  nextCursor : Option OpaqueCursor
deriving DecidableEq

def FederationPage.validate (page : FederationPage) (accountId : AccountId) (expected : MachineName)
    (requestedLimit : Nat) : PulseResult Unit := do
  if page.version ≠ federationVersion ∨ page.sourceMachine ≠ expected then
    throw ⟨.conflict, "Pulse federation peer identity or version did not match"⟩
  if min requestedLimit maxPageRows < page.records.length then
    throw ⟨.upstream, "Pulse federation page exceeded its row bound"⟩
  page.records.forM (FederatedRecord.validate accountId expected)
  if page.records = [] ∧ page.nextCursor.isSome then
    throw ⟨.upstream, "Pulse federation peer returned a non-advancing cursor"⟩

/-- `DirectFederationExporter::page`. -/
def exportPage (crates : FederationCrates) (source : StoreFederationSource) (accountId : AccountId)
    (cursor : Option OpaqueCursor) (limit : Nat) : PulseResult FederationPage := do
  if limit = 0 ∨ maxPageRows < limit then
    throw (.invalidInput "Pulse federation page limit is out of bounds")
  let page ← source.localPage crates ⟨accountId, source.localMachine, cursor, limit⟩
  if limit < page.records.length then
    throw ⟨.storage, "Pulse federation source exceeded its row bound"⟩
  let page := ⟨federationVersion, source.localMachine, page.records.map (·.send source.localMachine), page.nextCursor⟩
  FederationPage.validate page accountId source.localMachine limit
  pure page

/-- What reaches the coordinator of the peer's answer. -/
def fetchPage (crates : FederationCrates) (source : StoreFederationSource) (accountId : AccountId)
    (cursor : Option OpaqueCursor) (limit : Nat) : PulseResult FederationPage :=
  match exportPage crates source accountId cursor (max 1 (min limit maxPageRows)) with
  | .ok page => .ok page
  | .error _ => .error ⟨.offline, "Pulse peer is unavailable"⟩

/-! ## Runs -/

/-- A node, a coordinator that pulls from it, and the rows of the pages that
it has applied, in order. -/
structure PullState where
  node : Tables
  store : FederationStore
  received : List FederatedPulseRow

/-- A write to the node's tables, the start of a sync, or one page of it. -/
inductive PullStep
  | write (tables : Tables)
  | begin
  | pull (limit : Nat)

namespace PullState

def new (node tables : Tables) : PullState := ⟨node, .new tables, []⟩

section
variable (rowCrates : Crates) (crates : FederationCrates) (accountId : AccountId) (machine : MachineName)
  (state : PullState)

def source : StoreFederationSource := ⟨fun _ => state.node, [accountId], machine⟩

/-- The page that `sync_machine` hands on to be applied. -/
def nextPage (limit : Nat) : PulseResult FederationPage := do
  let page ← fetchPage crates (state.source accountId machine) accountId state.store.peer.cursor limit
  page.validate accountId machine limit
  validateCursorProgress crates state.store.peer.cursor page.nextCursor page.records
  pure page

def applyPage (page : FederationPage) : PulseResult FederationStore :=
  applyFederationPage rowCrates crates state.store accountId machine state.store.peer.cursor page.nextCursor page.records

/-- A page that is on its way when the node writes was read before the write;
one that is not applied leaves everything as it was. -/
def step : PullStep → PullState
  | .write tables => { state with node := tables }
  | .begin => { state with store := beginFederationSync state.store }
  | .pull limit =>
    match state.nextPage crates accountId machine limit with
    | .error _ => state
    | .ok page =>
      match state.applyPage rowCrates crates accountId machine page with
      | .error _ => state
      | .ok store => { state with store, received := state.received ++ page.records.map (·.row) }

end

end PullState

/-! ## What a page has -/

section
variable {crates : FederationCrates} {accountId : AccountId} {machine : MachineName} {state : PullState}
  {page : FederationPage} {limit : Nat} {bound : Option ExportOrder}

theorem exportPage_ok {source : StoreFederationSource} {cursor : Option OpaqueCursor}
    (h : exportPage crates source accountId cursor limit = .ok page) :
    ∃ local', source.localPage crates ⟨accountId, source.localMachine, cursor, limit⟩ = .ok local' ∧
      page.records = local'.records.map (·.send source.localMachine) ∧ page.nextCursor = local'.nextCursor := by
  simp only [exportPage, bind, Except.bind, pure, Except.pure] at h
  split at h
  · cases h
  split at h
  · cases h
  next local' hlocal =>
    split at h
    · cases h
    split at h
    · cases h
    obtain rfl := Except.ok.inj h
    exact ⟨local', hlocal, rfl, rfl⟩

/-- The page that is applied has the first of the rows beyond the cursor, and
its next cursor stands before the others, unless there are none. -/
theorem PullState.nextPage_ok (hcrates : crates.RoundTrips)
    (hbound : cursorBound crates state.store.peer.cursor = .ok bound)
    (h : state.nextPage crates accountId machine limit = .ok page) :
    ∃ sent left bound', rowsAfter state.node machine bound = sent ++ left ∧
      sent.length ≤ max 1 (min limit maxPageRows) ∧
      page.records.map (·.row) = sent.map LocalRow.exported ∧
      cursorBound crates page.nextCursor = .ok bound' ∧
      (page.nextCursor = none ∧ left = [] ∨ page.nextCursor.isSome ∧ left = rowsAfter state.node machine bound') := by
  simp only [nextPage, fetchPage, bind, Except.bind, pure, Except.pure] at h
  split at h
  · cases h
  next page' hfetch =>
    split at h
    · cases h
    split at h
    · cases h
    obtain rfl := Except.ok.inj h
    split at hfetch
    next page'' hexport =>
      obtain rfl := Except.ok.inj hfetch
      have hlimit : max 1 (min limit maxPageRows) ≠ 0 := by omega
      obtain ⟨local', hlocal, hrecords, hnext⟩ := exportPage_ok hexport
      obtain ⟨sent, left, bound', hrows, hsent, hlength, hbound', hend⟩ := localPage_advances hcrates hlimit hbound hlocal
      refine ⟨sent, left, bound', hrows, hlength, ?_, ?_, ?_⟩
      · rw [hrecords, List.map_map, ← exported_of_forall₂ hsent]
        rfl
      · rw [hnext]
        exact hbound'
      · rw [hnext]
        rcases hend with hend | ⟨hsome, hleft, -⟩
        · exact .inl hend
        · exact .inr ⟨hsome, hleft⟩
    · cases hfetch

theorem checkRecords_ok {keys : List String} {records : List FederatedRecord}
    (h : checkRecords accountId machine keys records = .ok ()) : ∀ record ∈ records, record.row.accountId = accountId := by
  induction records generalizing keys with
  | nil => exact fun _ hmem => (by cases hmem)
  | cons record records ih =>
    unfold checkRecords at h
    obtain ⟨_, hvalid, h⟩ := bind_ok h
    simp only [bind, Except.bind] at h
    split at h
    · cases h
    intro record' hmem
    rcases List.mem_cons.mp hmem with rfl | hmem
    · unfold FederatedRecord.validate at hvalid
      simp only [bind, Except.bind] at hvalid
      split at hvalid
      · cases hvalid
      split at hvalid
      · cases hvalid
      split at hvalid
      · cases hvalid
      next haccount => exact not_not.mp haccount
    · exact ih h record' hmem

end

end Atmux.Pulse
