/-
Batches that other machines push, and the tables they go to.

The tables are those of one account. A request is remembered with the digest of
its body when its rows are stored, in the same transaction: the next one under
its id is answered from there and stores nothing.
-/
import Atmux.Pulse.Apply

namespace Atmux.Pulse

open Lib

/-! ## Rows -/

/-- A finite number between 0 and 1, zero of either sign. -/
structure Fraction where
  value : F64
  bounded : value ≤ 0x3ff0000000000000 ∨ value = 0x8000000000000000
deriving DecidableEq

/-- Account-scoped Gemini quota for one model bucket. -/
structure GeminiQuota where
  accountId : AccountId
  modelId : String
  remainingFraction : Fraction
  remainingAmount : Option String
  resetsAt : Option Int
  collectedAt : Int
deriving DecidableEq

def GeminiQuota.primaryKey (quota : GeminiQuota) : String := quota.modelId

def GeminiQuota.validate (quota : GeminiQuota) : PulseResult Unit :=
  validateText "Gemini model id" quota.modelId maxModelNameBytes

/-- Per-account caps enforced transactionally before any ingest write. -/
structure IngestLimits where
  maxRowsPerRequest : Nat
  maxProfiles : Nat
  maxUsageSnapshots : Nat
  maxTokenRows : Nat
  maxContextSessions : Nat
  maxGeminiModels : Nat

def defaultIngestLimits : IngestLimits where
  maxRowsPerRequest := 5000
  maxProfiles := 256
  maxUsageSnapshots := 200000
  maxTokenRows := 200000
  maxContextSessions := 5000
  maxGeminiModels := 512

/-- All rows in one authenticated ingest request. -/
structure IngestBatch where
  profiles : List Profile
  snapshots : List UsageSnapshot
  tokenGrains : List TokenGrain
  contextSessions : List ContextSession
  geminiQuotas : List GeminiQuota
deriving DecidableEq

def IngestBatch.rowCount (batch : IngestBatch) : Nat :=
  batch.snapshots.length + batch.profiles.length + batch.tokenGrains.length + batch.contextSessions.length +
    batch.geminiQuotas.length

structure IngestReplay where
  requestId : String
  payloadFingerprint : String
deriving DecidableEq

/-- The rows of each kind that a request had. -/
structure IngestResult where
  snapshots : Nat
  tokenGrains : Nat
  contextSessions : Nat
  geminiQuotas : Nat
deriving DecidableEq

structure IdempotentIngestResult where
  result : IngestResult
  replayed : Bool
deriving DecidableEq

def IngestBatch.result (batch : IngestBatch) : IngestResult :=
  ⟨batch.snapshots.length, batch.tokenGrains.length, batch.contextSessions.length, batch.geminiQuotas.length⟩

/-- A row of `ingest_replays`. -/
structure StoredReplay where
  machine : MachineName
  replay : IngestReplay
  result : IngestResult

def StoredReplay.primaryKey (stored : StoredReplay) : List String := [stored.machine.value, stored.replay.requestId]

structure IngestStore where
  tables : Tables
  gemini : Table GeminiQuota.primaryKey
  replays : Table StoredReplay.primaryKey

/-! ## Checks -/

/-- A request's identifier. -/
def isRequestId (value : String) : Bool :=
  value ≠ "" && value.utf8ByteSize ≤ 128 && value.toList.all fun c => c.isAlphanum || c == '.' || c == '_' || c == '-'

def validateReplay (replay : IngestReplay) : PulseResult Unit := do
  if !isRequestId replay.requestId then
    throw (.invalidInput "ingest request id must be a stable ASCII identifier")
  if !isSha256Hex replay.payloadFingerprint then
    throw (.invalidInput "ingest token hash must be lowercase SHA-256 hex")

/-- The rows carry the token's account and, but for profiles and Gemini quotas,
its machine. -/
def IngestBatch.inScope (batch : IngestBatch) (accountId : AccountId) (machine : MachineName) : Prop :=
  (∀ row ∈ batch.profiles, row.accountId = accountId ∧ row.origin = .reported) ∧
    (∀ row ∈ batch.snapshots, row.accountId = accountId ∧ row.machine = machine) ∧
    (∀ row ∈ batch.tokenGrains, row.accountId = accountId ∧ row.machine = machine) ∧
    (∀ row ∈ batch.contextSessions, row.accountId = accountId ∧ row.machine = machine) ∧
    ∀ row ∈ batch.geminiQuotas, row.accountId = accountId

instance (batch : IngestBatch) (accountId : AccountId) (machine : MachineName) :
    Decidable (batch.inScope accountId machine) := inferInstanceAs (Decidable (_ ∧ _))

def validateIngestScope (accountId : AccountId) (machine : MachineName) (batch : IngestBatch) (limits : IngestLimits) :
    PulseResult Unit := do
  if limits.maxRowsPerRequest < batch.rowCount then
    throw (.invalidInput "ingest request exceeds its row limit")
  if ¬ batch.inScope accountId machine then
    throw ⟨.conflict, "ingest rows must match the token-authoritative account and machine"⟩
  batch.profiles.forM (·.validate)

/-- The keys that a table does not have, each counted once. -/
def newKeys {K V : Type} [LinearOrder K] (table : SortedMap K V) (keys : List K) : Nat :=
  (keys.dedup.filter fun key => (table.find? key).isNone).length

def maxIngestReplaysPerAccount : Nat := 200000

namespace IngestStore

variable (crates : Crates) (store : IngestStore)

def enforceIngestCaps (batch : IngestBatch) (limits : IngestLimits) : PulseResult Unit :=
  if limits.maxProfiles < store.tables.profiles.rows.length +
        newKeys store.tables.profiles.toSortedMap (batch.profiles.map Profile.primaryKey) ∨
      limits.maxUsageSnapshots < store.tables.usage.rows.length + batch.snapshots.length ∨
      limits.maxTokenRows < store.tables.tokens.rows.length +
        newKeys store.tables.tokens.toSortedMap (batch.tokenGrains.map TokenGrain.primaryKey) ∨
      limits.maxContextSessions < store.tables.contexts.rows.length +
        newKeys store.tables.contexts.toSortedMap (batch.contextSessions.map ContextSession.primaryKey) ∨
      limits.maxGeminiModels < store.gemini.rows.length +
        newKeys store.gemini.toSortedMap (batch.geminiQuotas.map GeminiQuota.primaryKey) then
    .error ⟨.conflict, "ingest would exceed an account row cap"⟩
  else .ok ()

/-! ## Storing -/

/-- `DO UPDATE … WHERE`: an older collection changes nothing. -/
def upsertGemini (gemini : Table GeminiQuota.primaryKey) (quota : GeminiQuota) : PulseResult (Table GeminiQuota.primaryKey) := do
  quota.validate
  if (gemini.find? quota.primaryKey).any fun old => decide (quota.collectedAt < old.collectedAt) then pure gemini
  else pure (gemini.upsert quota)

/-- The rows of a batch, kind after kind. -/
def storeBatch (batch : IngestBatch) : PulseResult IngestStore := do
  let tables ← batch.profiles.foldlM Tables.upsertReportedProfile store.tables
  let tables ← batch.snapshots.foldlM Tables.insertSnapshot tables
  let tables ← tables.upsertTokenBatch crates batch.tokenGrains
  let tables ← batch.contextSessions.foldlM Tables.upsertContext tables
  let gemini ← batch.geminiQuotas.foldlM upsertGemini store.gemini
  pure { store with tables, gemini }

/-- What is remembered under the machine's request id. -/
def replayed (machine : MachineName) (requestId : String) : Option StoredReplay :=
  store.replays.find? [machine.value, requestId]

def ingestBatchOnce (accountId : AccountId) (machine : MachineName) (batch : IngestBatch) (limits : IngestLimits)
    (replay : IngestReplay) : PulseResult (IngestStore × IdempotentIngestResult) := do
  validateIngestScope accountId machine batch limits
  validateReplay replay
  match store.replayed machine replay.requestId with
  | some existing =>
    if existing.replay.payloadFingerprint ≠ replay.payloadFingerprint then
      throw ⟨.conflict, "ingest request id was reused with a different payload"⟩
    pure (store, ⟨existing.result, true⟩)
  | none =>
    if maxIngestReplaysPerAccount ≤ store.replays.rows.length then
      throw ⟨.conflict, "ingest replay keys reached the account cap"⟩
    store.enforceIngestCaps batch limits
    let stored ← store.storeBatch crates batch
    -- the foreign key of the row that is remembered
    if (stored.tables.machines.find? machine.value).isNone then throw sqlError
    pure ({ stored with replays := stored.replays.upsert ⟨machine, replay, batch.result⟩ }, ⟨batch.result, false⟩)

end IngestStore

end Atmux.Pulse
