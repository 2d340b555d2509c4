/-
What a node exports to a coordinator, page by page.

`localFederationPage` is the source's sequence of queries, one for each phase
while there is room; `localPage` asks it for one row more than the page takes,
to know whether there are more.
-/
import Mathlib.Data.Prod.Lex
import Mathlib.Data.Finset.Insert
import Atmux.Pulse.Store

namespace Atmux.Pulse

open Lib

/-! ## Positions and cursors -/

/-- Stable SQL keyset position: natural-key components for one row class. -/
structure FederationExportPosition where
  phase : Nat
  values : List String
  bounded : ¬ (4 < phase ∨ values = [] ∨ 8 < values.length ∨ values.any fun value => 512 < value.utf8ByteSize)
deriving DecidableEq

namespace FederationExportPosition

def new (phase : Nat) (values : List String) : PulseResult FederationExportPosition :=
  if h : 4 < phase ∨ values = [] ∨ 8 < values.length ∨ values.any fun value => 512 < value.utf8ByteSize then
    .error ⟨.storage, "Pulse federation export position is invalid"⟩
  else .ok ⟨phase, values, h⟩

/-- The derived order: the phase, then the values in turn. -/
def fields (position : FederationExportPosition) : ℕ ×ₗ List String := toLex (position.phase, position.values)

theorem fields_injective : Function.Injective fields := by
  rintro ⟨phase, values, _⟩ ⟨phase', values', _⟩ h
  obtain ⟨hphase, hvalues⟩ := Prod.mk.inj (toLex.injective h)
  exact (FederationExportPosition.mk.injEq ..).mpr ⟨hphase, hvalues⟩

instance : LinearOrder FederationExportPosition := LinearOrder.lift' fields fields_injective

end FederationExportPosition

def maxCursorBytes : Nat := 2048

def isUrlSafe (c : Char) : Bool := c.isAlphanum || "-_.~".toList.contains c

/-- Server-issued, bounded cursor. -/
structure OpaqueCursor where
  value : String
  valid : ¬ (value = "" ∨ maxCursorBytes < value.utf8ByteSize ∨ ¬ value.toList.all isUrlSafe)
deriving DecidableEq

def OpaqueCursor.new (value : String) : PulseResult OpaqueCursor :=
  if h : value = "" ∨ maxCursorBytes < value.utf8ByteSize ∨ ¬ value.toList.all isUrlSafe then
    .error (.invalidInput "Pulse federation cursor is not bounded URL-safe text")
  else .ok ⟨value, h⟩

/-- Account-scoped Pulse rows allowed over pull federation. -/
inductive FederatedPulseRow
  | machine (row : Machine)
  | profile (row : Profile)
  | usage (row : UsageSnapshot)
  | context (row : ContextSession)
  | token (row : TokenGrain)
deriving DecidableEq

/-- What federation asks of other packages. -/
structure FederationCrates where
  /-- A position's JSON in URL-safe base64. -/
  encodePosition : FederationExportPosition → String
  decodePosition : String → Option (Nat × List String)
  /-- The SHA-256 of a position's JSON and, when there is one, a row's. -/
  recordDigest : FederationExportPosition → Option FederatedPulseRow → String
  /-- The SHA-256 of a row's JSON. -/
  rowDigest : FederatedPulseRow → String

/-- Decoding gives back what was encoded. -/
def FederationCrates.RoundTrips (crates : FederationCrates) : Prop :=
  ∀ position, crates.decodePosition (crates.encodePosition position) = some (position.phase, position.values)

def exportCursor (crates : FederationCrates) (position : FederationExportPosition) : PulseResult OpaqueCursor :=
  OpaqueCursor.new ("v2." ++ crates.encodePosition position)

def parseExportCursor (crates : FederationCrates) :
    Option OpaqueCursor → PulseResult (Option FederationExportPosition)
  | none => .ok none
  | some cursor =>
    match Text.strip "v2.".toList cursor.value.toList with
    | none => .error (.invalidInput "Pulse federation cursor version is invalid")
    | some value =>
      match crates.decodePosition (String.ofList value) with
      | none => .error (.invalidInput "Pulse federation cursor is invalid")
      | some (phase, values) => some <$> FederationExportPosition.new phase values

/-- A cursor that was exported parses back. -/
theorem parseExportCursor_exportCursor {crates : FederationCrates} {position : FederationExportPosition}
    {cursor : OpaqueCursor}
    (hdecodes : crates.decodePosition (crates.encodePosition position) = some (position.phase, position.values))
    (h : exportCursor crates position = .ok cursor) :
    parseExportCursor crates (some cursor) = .ok (some position) := by
  unfold exportCursor OpaqueCursor.new at h
  split at h
  · cases h
  next hvalid =>
    obtain rfl := Except.ok.inj h
    have hstrip : Text.strip "v2.".toList ("v2." ++ crates.encodePosition position).toList =
        some (crates.encodePosition position).toList := by
      simp [Text.strip, String.toList_append]
    simp only [parseExportCursor, hstrip, String.ofList_toList, hdecodes]
    rw [FederationExportPosition.new, dif_neg position.bounded]
    rfl

/-! ## Rows -/

/-- A row of a local table. -/
inductive LocalRow
  | machine (row : Machine)
  | profile (row : Profile)
  | usage (row : StoredUsageSnapshot)
  | context (row : ContextSession)
  | token (row : TokenGrain)
deriving DecidableEq

/-- A profile without what is for its own machine only. -/
def Profile.forExport (profile : Profile) : Profile :=
  { profile with configDir := none, apiKeyEnv := none, apiKeyFile := none, refresh := .never, origin := .reported }

namespace LocalRow

def phase : LocalRow → Nat
  | machine _ => 0
  | profile _ => 1
  | usage _ => 2
  | context _ => 3
  | token _ => 4

/-- The natural key that the cursor after the row carries. -/
def values : LocalRow → List String
  | machine row => [row.name.value]
  | profile row => [row.name.value]
  | usage row => [toString row.id]
  | context row => [row.profile.value, row.sessionId.value]
  | token row =>
    [row.profile.value, row.sessionId.value, row.model, row.settingsHash, row.day, row.source.json]

def exported : LocalRow → FederatedPulseRow
  | machine row => .machine row
  | profile row => .profile row.forExport
  | usage row => .usage row.snapshot
  | context row => .context row
  | token row => .token row

end LocalRow

/-- Origin-free source row. -/
structure LocalFederationRecord where
  key : String
  row : FederatedPulseRow
  position : FederationExportPosition
deriving DecidableEq

def LocalFederationRecord.new (crates : FederationCrates) (position : FederationExportPosition)
    (row : FederatedPulseRow) : LocalFederationRecord where
  key :=
    let version := match row with
      | .usage _ => none
      | row => some row
    String.singleton (Char.ofNat ('a'.toNat + position.phase)) ++ "/" ++ crates.recordDigest position version
  row := row
  position := position

def LocalRow.record (crates : FederationCrates) (row : LocalRow) : PulseResult LocalFederationRecord := do
  let position ← FederationExportPosition.new row.phase row.values
  pure (.new crates position row.exported)

/-! ## A page of local rows -/

def maxPageRows : Nat := 500

def federationQueryLimit (limit : Nat) : PulseResult Nat :=
  if limit = 0 ∨ maxPageRows + 1 < limit then
    .error (.invalidInput "Pulse federation export page limit is out of bounds")
  else .ok limit

/-- The values of a cursor that stands in a phase, `arity` of them. -/
def cursorValues (after : Option FederationExportPosition) (phase arity : Nat) (name : String) :
    PulseResult (Option (List String)) :=
  match after with
  | none => .ok none
  | some position =>
    if position.phase ≠ phase then .ok none
    else if position.values.length ≠ arity then
      .error (.invalidInput ("Pulse federation " ++ name ++ " cursor is invalid"))
    else .ok (some position.values)

/-- The rows of one phase, when there is room and the cursor is not past it. -/
def exportPhase (crates : FederationCrates) (limit afterPhase phase : Nat) (records : List LocalFederationRecord)
    (query : PulseResult (List LocalRow)) : PulseResult (List LocalFederationRecord) :=
  if records.length < limit ∧ afterPhase ≤ phase then do
    let rows ← query
    let more ← (rows.take (limit - records.length)).mapM (LocalRow.record crates)
    pure (records ++ more)
  else .ok records

section
variable (tables : Tables) (localMachine : MachineName) (after : Option FederationExportPosition)

def profileQuery : PulseResult (List LocalRow) := do
  let values ← cursorValues after 1 1 "profile"
  let afterName := (values.getD [""]).headD ""
  pure ((orderBy (fun profile => profile.name.value) (tables.profiles.rows.filter fun profile =>
    profile.origin = .local ∧ afterName < profile.name.value)).map .profile)

def usageQuery : PulseResult (List LocalRow) := do
  let values ← cursorValues after 2 1 "usage"
  let afterId ← match values with
    | none => pure 0
    | some values =>
      match Text.parseSigned (2 ^ 63) (values.headD "").toList with
      | none => throw (.invalidInput "Pulse federation usage cursor is invalid")
      | some id => pure id
  pure ((orderBy (fun stored => stored.id) (tables.usage.rows.filter fun stored =>
    stored.snapshot.machine = localMachine ∧ afterId < stored.id)).map .usage)

def contextQuery : PulseResult (List LocalRow) := do
  let values ← cursorValues after 3 2 "context"
  let after := values.getD ["", ""]
  pure ((orderBy (fun session => [session.profile.value, session.sessionId.value])
    (tables.contexts.rows.filter fun session => session.machine = localMachine ∧
      after < [session.profile.value, session.sessionId.value])).map .context)

def tokenQuery : PulseResult (List LocalRow) := do
  let values ← cursorValues after 4 6 "token"
  let after := values.getD ["", "", "", "", "", ""]
  pure ((orderBy (fun grain => (LocalRow.token grain).values) (tables.tokens.rows.filter fun grain =>
    grain.machine = localMachine ∧ after < (LocalRow.token grain).values)).map .token)

/-- The machine's row, on the first page, and the phases after it. -/
def exportPhases (crates : FederationCrates) (limit : Nat) : PulseResult (List LocalFederationRecord) := do
  let afterPhase := after.elim 0 (·.phase)
  let machine := if after.isNone then (tables.machines.find? localMachine.value).toList else []
  let records ← (machine.map LocalRow.machine).mapM (LocalRow.record crates)
  let records ← exportPhase crates limit afterPhase 1 records (profileQuery tables after)
  let records ← exportPhase crates limit afterPhase 2 records (usageQuery tables localMachine after)
  let records ← exportPhase crates limit afterPhase 3 records (contextQuery tables localMachine after)
  exportPhase crates limit afterPhase 4 records (tokenQuery tables localMachine after)

/-- `sqlite_local_federation_page`. -/
def localFederationPage (crates : FederationCrates) (limit : Nat) : PulseResult (List LocalFederationRecord) := do
  let limit ← federationQueryLimit limit
  exportPhases tables localMachine after crates limit

end

/-! ## The page of a request -/

structure FederationRequest where
  accountId : AccountId
  machine : MachineName
  cursor : Option OpaqueCursor
  limit : Nat

structure LocalFederationPage where
  records : List LocalFederationRecord
  nextCursor : Option OpaqueCursor

/-- Store-backed source that exposes only rows produced by this node. -/
structure StoreFederationSource where
  store : AccountId → Tables
  accounts : List AccountId
  localMachine : MachineName

def StoreFederationSource.localPage (crates : FederationCrates) (source : StoreFederationSource)
    (request : FederationRequest) : PulseResult LocalFederationPage := do
  if request.accountId ∉ source.accounts ∨ request.machine ≠ source.localMachine then
    throw ⟨.notFound, "Pulse federation account was not found"⟩
  let after ← parseExportCursor crates request.cursor
  let page ← localFederationPage (source.store request.accountId) source.localMachine after crates (request.limit + 1)
  let records := page.take request.limit
  let nextCursor ←
    if request.limit < page.length then records.getLast?.mapM fun record => exportCursor crates record.position
    else pure none
  pure { records, nextCursor }

end Atmux.Pulse
