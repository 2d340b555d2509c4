/-
The durable outbox of a reporter.

What a machine pushes to one destination is read page by page beyond a cursor,
written down as the exact documents of the page, sent, and committed: the
cursor moves on and the page goes. `validateReporterTransition` says which
cursors follow one another, and every one that does is above the one before
(`rank_lt_of_transition`).
-/
import Mathlib
import Atmux.Pulse.PushBody

namespace Atmux.Pulse

open Lib

/-! ## Cursors -/

/-- Stable natural-key position for one local token export page. -/
structure ReporterTokenPosition where
  profile : String
  sessionId : String
  model : String
  settingsHash : String
  day : String
  sourceJson : String
deriving DecidableEq

namespace ReporterTokenPosition

/-- The columns that positions are compared by, in their order. -/
def columns (position : ReporterTokenPosition) : List String :=
  [position.profile, position.sessionId, position.model, position.settingsHash, position.day, position.sourceJson]

def fromGrain (grain : TokenGrain) : ReporterTokenPosition where
  profile := grain.profile.value
  sessionId := grain.sessionId.value
  model := grain.model
  settingsHash := grain.settingsHash
  day := grain.day
  sourceJson := grain.source.json

end ReporterTokenPosition

/-- `PartialOrd` of an `Option`: none is before any position. -/
def tokenBefore : Option ReporterTokenPosition → Option ReporterTokenPosition → Bool
  | _, none => false
  | none, some _ => true
  | some a, some b => a.columns < b.columns

/-- Durable per-destination progress for bounded local push reporting. -/
structure ReporterCursorState where
  usageAfterId : Int
  tokenAfter : Option ReporterTokenPosition
  tokenGeneration : Nat
deriving DecidableEq

/-- A destination that nothing was reported to. -/
def ReporterCursorState.default : ReporterCursorState := ⟨0, none, 0⟩

inductive ReporterStreamKind
  | usage
  | token
deriving DecidableEq, Repr

/-- One exact, secret-free HTTP document retained for crash replay. -/
structure ReporterPendingChunk where
  requestId : String
  body : List UInt8
  rows : Nat
deriving DecidableEq

/-- Proposed outbox page, persisted before its first network send. -/
structure ReporterPendingDraft where
  kind : ReporterStreamKind
  expected : ReporterCursorState
  next : ReporterCursorState
  chunks : List ReporterPendingChunk
deriving DecidableEq

structure ReporterPendingPage where
  id : Nat
  draft : ReporterPendingDraft
deriving DecidableEq

/-- What makes a request's id. -/
structure PendingIdentity where
  accountId : AccountId
  machine : MachineName
  kind : ReporterStreamKind
  expected : ReporterCursorState
  next : ReporterCursorState
  index : Nat
  batch : PushBatch
deriving DecidableEq

/-- What reporting asks of other packages besides: the JSON of its documents. -/
structure ReporterCrates extends PushCrates where
  envelopeJson : PushEnvelope → Option (List UInt8)
  batchJson : PushBatch → Option (List UInt8)
  identityJson : PendingIdentity → Option (List UInt8)

/-- Reading a document. -/
def ReporterCrates.fromSlice (crates : ReporterCrates) (body : List UInt8) : Option PushEnvelope :=
  (crates.parseJson body).bind crates.decodeEnvelope

/-- JSON keeps what it is written from, and an identity is an array where a
batch is an object. -/
structure ReporterCrates.Lossless (crates : ReporterCrates) : Prop where
  envelope : ∀ envelope body, crates.envelopeJson envelope = some body → crates.fromSlice body = some envelope
  batch : ∀ batch batch' json, crates.batchJson batch = some json → crates.batchJson batch' = some json → batch = batch'
  identity : ∀ i i' json, crates.identityJson i = some json → crates.identityJson i' = some json → i = i'
  apart : ∀ i batch json, crates.identityJson i = some json → crates.batchJson batch ≠ some json

/-! ## Checks -/

def validateReporterTransition (expected next : ReporterCursorState) : PulseResult Unit :=
  if expected.usageAfterId < 0 ∨ next.usageAfterId < expected.usageAfterId ∨
      next.tokenGeneration < expected.tokenGeneration ∨
      expected.tokenGeneration < next.tokenGeneration ∧ expected.tokenGeneration + 1 ≠ next.tokenGeneration then
    .error (.invalidInput "Pulse reporter cursor transition is invalid")
  else if expected.tokenGeneration < next.tokenGeneration then
    if next.usageAfterId ≠ expected.usageAfterId ∨ next.tokenAfter.isSome then
      .error (.invalidInput "Pulse reporter token resync transition is invalid")
    else .ok ()
  else if expected.tokenAfter.isSome ∧ next.tokenAfter = none then
    .error (.invalidInput "Pulse reporter token cursor cannot reset without a new generation")
  else if expected.tokenAfter = next.tokenAfter then
    if expected.usageAfterId < next.usageAfterId then .ok ()
    else .error (.invalidInput "Pulse reporter cursor did not advance")
  else if tokenBefore expected.tokenAfter next.tokenAfter = true ∧ ¬ expected.usageAfterId < next.usageAfterId then .ok ()
  else .error (.invalidInput "Pulse reporter cursor transition advanced incompatible streams")

def maxReporterPendingChunks : Nat := 64
def maxReporterPendingBytes : Nat := 8 * 1024 * 1024
def maxReporterDestinationsPerAccount : Nat := 64

def reporterVersion : String := "atmux/0.2.0"

/-- `PushEnvelope::encode`. -/
def PushEnvelope.encode (crates : ReporterCrates) (envelope : PushEnvelope) : PulseResult (List UInt8) := do
  validateRequestId envelope.requestId
  validateReporterVersion envelope.reporterVersion
  if envelope.version ≠ pushVersion ∨ maxPushRows < envelope.batch.rowCount then
    throw (.invalidInput "Pulse reporter document exceeds protocol bounds")
  let some bytes := crates.envelopeJson envelope | throw ⟨.internal, "failed to encode Pulse reporter document"⟩
  if maxPushBodyBytes < bytes.length then
    throw (.invalidInput "Pulse reporter document exceeds 1 MiB")
  pure bytes

namespace ReporterPendingDraft

/-- The page moves its own stream and no other. -/
def StreamMatches : ReporterStreamKind → ReporterCursorState → ReporterCursorState → Prop
  | .usage, expected, next =>
    expected.usageAfterId < next.usageAfterId ∧ next.tokenAfter = expected.tokenAfter ∧
      next.tokenGeneration = expected.tokenGeneration
  | .token, expected, next =>
    next.usageAfterId = expected.usageAfterId ∧ tokenBefore expected.tokenAfter next.tokenAfter = true ∧
      next.tokenGeneration = expected.tokenGeneration

instance : (kind : ReporterStreamKind) → (expected next : ReporterCursorState) → Decidable (StreamMatches kind expected next)
  | .usage, _, _ => inferInstanceAs (Decidable (_ ∧ _))
  | .token, _, _ => inferInstanceAs (Decidable (_ ∧ _))

/-- The document has rows of the stream and of nothing else. -/
def KindMatches : ReporterStreamKind → PushBatch → Prop
  | .usage, batch =>
    batch.snapshots ≠ [] ∧ batch.profiles = [] ∧ batch.tokenGrains = [] ∧ batch.contextSessions = [] ∧
      batch.geminiQuotas = []
  | .token, batch =>
    batch.snapshots = [] ∧ batch.profiles = [] ∧ batch.tokenGrains ≠ [] ∧ batch.contextSessions = [] ∧
      batch.geminiQuotas = []

instance : (kind : ReporterStreamKind) → (batch : PushBatch) → Decidable (KindMatches kind batch)
  | .usage, _ => inferInstanceAs (Decidable (_ ∧ _))
  | .token, _ => inferInstanceAs (Decidable (_ ∧ _))

variable (crates : ReporterCrates) (accountId : AccountId) (machine : MachineName)

/-- The bytes up to a chunk, when the chunk is right. -/
def checkChunk (kind : ReporterStreamKind) (before : Nat) (chunk : ReporterPendingChunk) : PulseResult Nat := do
  let total := before + chunk.body.length
  if chunk.rows = 0 ∨ chunk.body = [] ∨ maxPushBodyBytes < chunk.body.length ∨ maxReporterPendingBytes < total then
    throw (.invalidInput "Pulse reporter outbox page exceeds its bounds")
  let some envelope := crates.fromSlice chunk.body | throw ⟨.storage, "Pulse reporter outbox contains an invalid document"⟩
  let .ok canonical := envelope.encode crates | throw ⟨.storage, "Pulse reporter outbox contains an invalid document"⟩
  if ¬ (envelope.batch.rowCount = chunk.rows ∧ envelope.requestId = chunk.requestId ∧ envelope.accountId = some accountId ∧
      envelope.machine = some machine ∧ canonical = chunk.body) ∨ ¬ KindMatches kind envelope.batch then
    throw ⟨.storage, "Pulse reporter outbox document does not match its scope"⟩
  pure total

def validate (draft : ReporterPendingDraft) : PulseResult Unit := do
  validateReporterTransition draft.expected draft.next
  if ¬ StreamMatches draft.kind draft.expected draft.next ∨ draft.chunks = [] ∨ maxReporterPendingChunks < draft.chunks.length then
    throw (.invalidInput "Pulse reporter outbox page is invalid")
  discard <| draft.chunks.foldlM (checkChunk crates accountId machine draft.kind) 0

end ReporterPendingDraft

/-! ## The order of cursors -/

/-- A position among all, with none below them. -/
def height : Option ReporterTokenPosition → WithBot (List String)
  | none => ⊥
  | some position => position.columns

theorem height_lt_iff {a b : Option ReporterTokenPosition} : height a < height b ↔ tokenBefore a b = true := by
  cases a <;> cases b <;> simp [height, tokenBefore]

/-- The two streams of a cursor, and of the second its sweep first. -/
def ReporterCursorState.rank (state : ReporterCursorState) : Int × (Nat ×ₗ WithBot (List String)) :=
  (state.usageAfterId, toLex (state.tokenGeneration, height state.tokenAfter))

/-- A cursor is followed by one above it only. -/
theorem rank_lt_of_transition {expected next : ReporterCursorState} (h : validateReporterTransition expected next = .ok ()) :
    expected.rank < next.rank := by
  unfold validateReporterTransition at h
  split at h
  · cases h
  next hbounds =>
    simp only [not_or, not_lt, not_and, ne_eq, not_not] at hbounds
    obtain ⟨-, husage, hgeneration, -⟩ := hbounds
    split at h
    next hresync =>
      split at h
      · cases h
      next hsame =>
        simp only [not_or, ne_eq, not_not] at hsame
        exact Prod.mk_lt_mk.mpr (.inr ⟨hsame.1.ge, Prod.Lex.toLex_lt_toLex.mpr (.inl hresync)⟩)
    next hresync =>
      have heq : expected.tokenGeneration = next.tokenGeneration := by omega
      split at h
      · cases h
      split at h
      next htoken =>
        split at h
        next hmore =>
          refine Prod.mk_lt_mk.mpr (.inl ⟨hmore, ?_⟩)
          rw [heq, htoken]
        · cases h
      · split at h
        next hmore =>
          refine Prod.mk_lt_mk.mpr (.inr ⟨husage, Prod.Lex.toLex_lt_toLex.mpr (.inr ⟨heq, ?_⟩)⟩)
          exact height_lt_iff.mpr hmore.1
        · cases h

end Atmux.Pulse
