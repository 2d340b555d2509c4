/-
Token rows of one account, profile and machine, and the revisions that order
their writes.

A scan takes a revision before it starts, and what it finds is written under
that revision where the row's own is lower. A plain upsert takes a revision
when it writes, and writes whatever the row's own revision is; a row that
already has the grain it leaves alone. The profile and the machine are there,
as the foreign keys want them.
-/
import Atmux.Pulse.Store
import Atmux.Pulse.Tally

namespace Atmux.Pulse

open Lib

/-! ## Rows -/

/-- What the revisions are taken for. -/
structure TokenScope where
  accountId : AccountId
  profile : ProfileName
  machine : MachineName
deriving DecidableEq

def TokenGrain.scope (grain : TokenGrain) : TokenScope := ⟨grain.accountId, grain.profile, grain.machine⟩

/-- A row of `token_usage`. -/
structure TokenRow where
  grain : TokenGrain
  writeRevision : Nat
deriving DecidableEq

def TokenRow.primaryKey (row : TokenRow) : List String := row.grain.primaryKey

abbrev TokenRows := Table TokenRow.primaryKey

structure TokenSourceGeneration where
  value : String
deriving DecidableEq

def TokenSourceGeneration.validate (generation : TokenSourceGeneration) : PulseResult Unit :=
  if isSha256Hex generation.value then .ok () else .error (.invalidInput "Pulse token source generation is invalid")

/-- Durable progress of a scope's backfill. -/
structure TokenBackfillState where
  scope : TokenScope
  generation : Nat
  sourceGeneration : TokenSourceGeneration
  writeRevision : Nat
  cursor : Option TokenTallyCursor
  complete : Bool
deriving DecidableEq

/-- Rows and a next cursor that are written together. -/
structure TokenBackfillPage where
  expected : TokenBackfillState
  rows : List TokenGrain
  nextCursor : Option TokenTallyCursor
  complete : Bool

/-- A revision that was taken before a source was scanned. -/
structure TokenWriteObservation where
  scope : TokenScope
  revision : Nat
deriving DecidableEq

/-- A scope's part of the tables; `revision` is the one taken last. -/
structure TokenWrites where
  scope : TokenScope
  rows : TokenRows
  revision : Nat
  backfill : Option TokenBackfillState

/-! ## Validation -/

def TokenWriteObservation.validate (observation : TokenWriteObservation) : PulseResult Unit :=
  if observation.revision = 0 then .error (.invalidInput "Pulse token observation revision is invalid") else .ok ()

def TokenBackfillState.validate (crates : Crates) (state : TokenBackfillState) : PulseResult Unit := do
  if state.generation = 0 then
    throw (.invalidInput "Pulse token backfill generation is invalid")
  state.sourceGeneration.validate
  state.cursor.elim (.ok ()) (TokenTallyCursor.validate crates)

def tokenSourceOrder : TokenSource → Nat
  | .local => 0
  | .ingest => 1

/-- The order of cursors: by these in turn. -/
def TokenTallyCursor.columns (cursor : TokenTallyCursor) : String ×ₗ String ×ₗ String ×ₗ String ×ₗ Nat :=
  toLex (cursor.day, toLex (cursor.sessionId, toLex (cursor.model, toLex (cursor.settingsHash, tokenSourceOrder cursor.source))))

def maxTokenBackfillPageRows : Nat := 5000

namespace TokenBackfillPage

variable (crates : Crates)

/-- One row, after the one at `last`. -/
def validateRow (expected : TokenBackfillState) (last : Option TokenTallyCursor) (row : TokenGrain) :
    PulseResult (Option TokenTallyCursor) := do
  row.validate crates
  if row.scope ≠ expected.scope ∨ row.source ≠ .local then
    throw ⟨.conflict, "Pulse token backfill row is outside its account scope"⟩
  if last.any fun prior => decide ((TokenTallyCursor.fromGrain row).columns ≤ prior.columns) then
    throw (.invalidInput "Pulse token backfill rows are not strictly ordered")
  pure (some (.fromGrain row))

def validate (page : TokenBackfillPage) : PulseResult Unit := do
  page.expected.validate crates
  if page.expected.complete ∨ maxTokenBackfillPageRows < page.rows.length ∨ (page.rows = [] ∧ ¬ page.complete) then
    throw (.invalidInput "Pulse token backfill page is invalid")
  let last ← page.rows.foldlM (validateRow crates page.expected) page.expected.cursor
  if page.nextCursor ≠ last ∨ (¬ page.complete ∧ page.nextCursor = none) then
    throw (.invalidInput "Pulse token backfill next cursor does not match its rows")

end TokenBackfillPage

def validateTokenObservation (crates : Crates) (observation : TokenWriteObservation) (grain : TokenGrain) :
    PulseResult Unit := do
  observation.validate
  grain.validate crates
  if grain.scope ≠ observation.scope ∨ grain.source ≠ .local then
    throw ⟨.conflict, "Pulse token observation is outside its reserved local scope"⟩

/-! ## Writes -/

/-- `INSERT … ON CONFLICT DO UPDATE`, when conditional of a row with a lower
revision alone. -/
def upsertTokenAtRevision (crates : Crates) (revision : Nat) (conditional : Bool) (rows : TokenRows) (grain : TokenGrain) :
    PulseResult TokenRows := do
  grain.validate crates
  Tables.tokenCounts grain
  if conditional && (rows.find? grain.primaryKey).any fun old => decide (revision ≤ old.writeRevision) then pure rows
  else pure (rows.upsert ⟨grain, revision⟩)

namespace TokenWrites

variable (crates : Crates) (writes : TokenWrites)

def allocateTokenRevision : PulseResult Nat :=
  if writes.revision + 1 < 2 ^ 63 then .ok (writes.revision + 1) else .error ⟨.storage, "token write revision overflowed"⟩

/-- `token_matches`, for a grain that `tokenCounts` admits. -/
def tokenMatches (grain : TokenGrain) : Bool :=
  (writes.rows.find? grain.primaryKey).any fun old => old.grain.accountId = grain.accountId ∧
    old.grain.settings = grain.settings ∧ old.grain.tokensIn = grain.tokensIn ∧ old.grain.tokensOut = grain.tokensOut ∧
    old.grain.cacheWrite5m = grain.cacheWrite5m ∧ old.grain.cacheWrite1h = grain.cacheWrite1h ∧
    old.grain.cacheRead = grain.cacheRead

/-- The grains that are not what their rows have. -/
def changed (grains : List TokenGrain) : List TokenGrain := grains.filter fun grain => !writes.tokenMatches grain

/-- The scope's share of a batch. -/
def upsertScope (grains : List TokenGrain) : PulseResult TokenWrites := do
  grains.forM Tables.tokenCounts
  if writes.changed grains = [] then pure writes
  else
    let revision ← writes.allocateTokenRevision
    let rows ← (writes.changed grains).foldlM (upsertTokenAtRevision crates revision false) writes.rows
    pure { writes with rows, revision }

/-- The scope's grains of a batch. -/
def ofBatch (grains : List TokenGrain) : List TokenGrain := grains.filter fun grain => grain.scope = writes.scope

/-- `others` is what comes of the other scopes' shares, which are written in
the same transaction. -/
def upsertTokenBatch (others : PulseResult Unit) (grains : List TokenGrain) : PulseResult TokenWrites := do
  grains.forM (·.validate crates)
  let writes' ← writes.upsertScope crates (writes.ofBatch grains)
  others
  pure writes'

/-! ## Observations -/

def beginTokenObservation : PulseResult (TokenWrites × TokenWriteObservation) := do
  let revision ← writes.allocateTokenRevision
  pure ({ writes with revision }, ⟨writes.scope, revision⟩)

def upsertObservedTokenGrain (observation : TokenWriteObservation) (grain : TokenGrain) : PulseResult TokenWrites := do
  validateTokenObservation crates observation grain
  if 2 ^ 63 ≤ observation.revision then
    throw ⟨.storage, "token observation revision overflowed"⟩
  if writes.revision ≠ observation.revision then
    throw ⟨.conflict, "Pulse token observation is no longer current"⟩
  let rows ← upsertTokenAtRevision crates observation.revision true writes.rows grain
  pure { writes with rows }

/-! ## Backfills -/

def loadTokenBackfill : PulseResult (Option TokenBackfillState) := do
  writes.backfill.elim (.ok ()) (TokenBackfillState.validate crates)
  pure writes.backfill

/-- The revision is taken for a first backfill, for a source that changed, and
to do a complete one again. -/
def beginTokenBackfill (sourceGeneration : TokenSourceGeneration) (restartCompleted : Bool) :
    PulseResult (TokenWrites × TokenBackfillState) := do
  sourceGeneration.validate
  match ← writes.loadTokenBackfill crates with
  | none =>
    let revision ← writes.allocateTokenRevision
    let state := ⟨writes.scope, 1, sourceGeneration, revision, none, false⟩
    state.validate crates
    pure ({ writes with revision, backfill := some state }, state)
  | some state =>
    if state.sourceGeneration ≠ sourceGeneration ∨ (state.complete ∧ restartCompleted) then
      let revision ← writes.allocateTokenRevision
      if 2 ^ 63 ≤ state.generation + 1 then
        throw ⟨.storage, "backfill generation overflowed"⟩
      let state := { state with
        generation := state.generation + 1, sourceGeneration, writeRevision := revision, cursor := none, complete := false }
      pure ({ writes with revision, backfill := some state }, state)
    else pure (writes, state)

def applyTokenBackfillPage (page : TokenBackfillPage) : PulseResult (TokenWrites × TokenBackfillState) := do
  page.validate crates
  match ← writes.loadTokenBackfill crates with
  | none => throw ⟨.conflict, "backfill cursor is missing"⟩
  | some current =>
    if current ≠ page.expected then
      throw ⟨.conflict, "backfill cursor changed concurrently"⟩
    if 2 ^ 63 ≤ page.expected.writeRevision then
      throw ⟨.storage, "backfill write revision overflowed"⟩
    let rows ← page.rows.foldlM (upsertTokenAtRevision crates page.expected.writeRevision true) writes.rows
    let next := { page.expected with cursor := page.nextCursor, complete := page.complete }
    pure ({ writes with rows, backfill := some next }, next)

end TokenWrites

end Atmux.Pulse
