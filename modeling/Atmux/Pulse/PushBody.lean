/-
The bodies that reporters push.

A body is read within its bounds, and what it says of its account and its
machine gives way to what the token says, row after row, before the rows are
checked (`decodePushBody`).
-/
import Atmux.Pulse.Ingest
import Atmux.Pulse.Json

namespace Atmux.Pulse

open Lib

/-! ## Documents -/

/-- Secret-free remote profile discovery metadata. -/
structure ReportedProfile where
  name : ProfileName
  vendor : Vendor
  pollIntervalMinutes : Nat
  monthlyBudgetUsd : Option F64
deriving DecidableEq

/-- Rows in one reporter chunk. -/
structure PushBatch where
  profiles : List ReportedProfile
  snapshots : List UsageSnapshot
  tokenGrains : List TokenGrain
  contextSessions : List ContextSession
  geminiQuotas : List GeminiQuota
deriving DecidableEq

def PushBatch.empty : PushBatch := ⟨[], [], [], [], []⟩

def PushBatch.rowCount (batch : PushBatch) : Nat :=
  batch.profiles.length + batch.snapshots.length + batch.tokenGrains.length + batch.contextSessions.length +
    batch.geminiQuotas.length

/-- Versioned reporter wire document. -/
structure PushEnvelope where
  version : Nat
  requestId : String
  reporterVersion : String
  /-- Informational, as the machine is. -/
  accountId : Option AccountId
  machine : Option MachineName
  batch : PushBatch
deriving DecidableEq

/-- What pushing asks of other packages besides. -/
structure PushCrates extends Crates where
  /-- The SHA-256 digest of a body. -/
  digest : List UInt8 → Vector UInt8 32
  parseJson : List UInt8 → Option Json
  decodeEnvelope : Json → Option PushEnvelope

def sha256Hex (crates : PushCrates) (value : List UInt8) : String :=
  String.ofList ((crates.digest value).toList.flatMap hexByte)

def pushVersion : Nat := 1
def maxPushBodyBytes : Nat := 1024 * 1024
def maxPushRows : Nat := 10000
def maxJsonDepth : Nat := 16
def maxJsonNodes : Nat := 100000
def maxJsonStringBytes : Nat := 8 * 1024
def maxSettingsEntries : Nat := 32
def maxSettingsKeyBytes : Nat := 128
def maxSettingsValueBytes : Nat := 256
def maxGeminiAmountBytes : Nat := 256

/-! ## Checks -/

/-- Checks the values of a stack, the first of which is popped next, with
`nodes` of them still allowed. -/
def checkShape : Nat → List (Json × Nat) → PulseResult Unit
  | _, [] => .ok ()
  | 0, _ :: _ => .error (.invalidInput "Pulse push JSON exceeds structural bounds")
  | nodes + 1, (value, depth) :: stack =>
    if maxJsonDepth < depth then .error (.invalidInput "Pulse push JSON exceeds structural bounds")
    else match value with
      | .string text =>
        if maxJsonStringBytes < text.utf8ByteSize then
          .error (.invalidInput "Pulse push JSON contains an oversized string")
        else checkShape nodes stack
      | .array items => checkShape nodes ((items.map fun item => (item, depth + 1)).reverse ++ stack)
      | .object entries =>
        if entries.any fun entry => maxSettingsKeyBytes < entry.1.utf8ByteSize then
          .error (.invalidInput "Pulse push JSON contains an oversized field name")
        else checkShape nodes ((entries.map fun entry => (entry.2, depth + 1)).reverse ++ stack)
      | _ => checkShape nodes stack

def validateJsonShape (root : Json) : PulseResult Unit := checkShape maxJsonNodes [(root, 1)]

def validateSafeText (value : String) (max : Nat) (label : String) : PulseResult Unit :=
  if value = "" ∨ max < value.utf8ByteSize ∨ Text.trim value.toList ≠ value.toList ∨ value.toList.any isControl then
    .error (.invalidInput (label ++ " is invalid"))
  else .ok ()

def validateSettings (settings : AgentSettings) : PulseResult Unit := do
  if maxSettingsEntries < settings.additional.entries.length then
    throw (.invalidInput "Pulse agent settings contain too many fields")
  (settings.serviceTier.toList ++ settings.effort.toList).forM fun value =>
    validateSafeText value maxSettingsValueBytes "agent setting"
  settings.additional.entries.forM fun entry => do
    validateSafeText entry.1 maxSettingsKeyBytes "agent setting key"
    validateSafeText entry.2 maxSettingsValueBytes "agent setting value"

def validateRequestId (value : String) : PulseResult Unit :=
  if isRequestId value then .ok ()
  else .error (.invalidInput "Pulse request id must be a bounded ASCII identifier")

def validateReporterVersion (value : String) : PulseResult Unit := validateSafeText value 128 "Pulse reporter version"

/-! ## Reading a body -/

def ReportedProfile.intoDomain (accountId : AccountId) (reported : ReportedProfile) : PulseResult Profile := do
  let profile : Profile :=
    { accountId
      name := reported.name
      vendor := reported.vendor
      configDir := none
      pollIntervalMinutes := reported.pollIntervalMinutes
      monthlyBudgetUsd := reported.monthlyBudgetUsd
      apiKeyEnv := none
      apiKeyFile := none
      refresh := .inMemory
      hidden := false
      origin := .reported }
  profile.validate
  pure profile

section
variable (crates : PushCrates) (accountId : AccountId) (machine : MachineName)

def decodeSnapshot (reporterVersion : String) (row : UsageSnapshot) : PulseResult UsageSnapshot := do
  let snapshot := { row with accountId, machine, reporterVersion := some reporterVersion }
  if 4 < snapshot.windows.length then
    throw (.invalidInput "Pulse snapshot contains too many windows")
  snapshot.validate
  pure snapshot

def decodeGrain (row : TokenGrain) : PulseResult TokenGrain := do
  let grain := { row with accountId, machine, source := .ingest }
  validateSettings grain.settings
  grain.validate crates.toCrates
  pure grain

def decodeSession (row : ContextSession) : PulseResult ContextSession := do
  let session := { row with accountId, machine }
  validateSettings session.settings
  session.validate
  pure session

def decodeQuota (row : GeminiQuota) : PulseResult GeminiQuota := do
  let quota := { row with accountId }
  if quota.remainingAmount.any fun amount => maxGeminiAmountBytes < amount.utf8ByteSize || amount.toList.any isControl then
    throw (.invalidInput "Gemini remaining amount is invalid")
  quota.validate
  pure quota

structure DecodedPush where
  batch : IngestBatch
  replay : IngestReplay

/-- The rows of a document, each under the token's account and machine. -/
def decodeBatch (reporterVersion : String) (batch : PushBatch) : PulseResult IngestBatch := do
  let profiles ← batch.profiles.mapM (·.intoDomain accountId)
  let snapshots ← batch.snapshots.mapM (decodeSnapshot accountId machine reporterVersion)
  let tokenGrains ← batch.tokenGrains.mapM (decodeGrain crates accountId machine)
  let contextSessions ← batch.contextSessions.mapM (decodeSession accountId machine)
  let geminiQuotas ← batch.geminiQuotas.mapM (decodeQuota accountId)
  pure { profiles, snapshots, tokenGrains, contextSessions, geminiQuotas }

def decodePushBody (limits : IngestLimits) (body : List UInt8) : PulseResult DecodedPush := do
  if body = [] ∨ maxPushBodyBytes < body.length then
    throw (.invalidInput "Pulse push body must be between 1 byte and 1 MiB")
  let some value := crates.parseJson body | throw (.invalidInput "Pulse push body is not valid JSON")
  validateJsonShape value
  let some envelope := crates.decodeEnvelope value | throw (.invalidInput "Pulse push document is invalid")
  if envelope.version ≠ pushVersion then
    throw (.invalidInput "Pulse push protocol version is unsupported")
  validateRequestId envelope.requestId
  validateReporterVersion envelope.reporterVersion
  if maxPushRows < envelope.batch.rowCount ∨ limits.maxRowsPerRequest < envelope.batch.rowCount then
    throw (.invalidInput "Pulse push document exceeds its row limit")
  let batch ← decodeBatch crates accountId machine envelope.reporterVersion envelope.batch
  pure ⟨batch, ⟨envelope.requestId, sha256Hex crates body⟩⟩

end

end Atmux.Pulse
