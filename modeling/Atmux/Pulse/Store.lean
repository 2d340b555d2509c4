/-
The store's rows of one account.

Every statement on these tables names its account, so the account's rows are a
store of their own. A table's key is its primary key without the account, and
a row refers to a profile and a machine that are there, as the foreign keys
have it: what would file another is refused with `sqlError`.
-/
import Mathlib.Data.List.Lex
import Atmux.Lib.Table
import Atmux.Pulse.Model

namespace Atmux.Pulse

open Lib

/-! ## Tables -/

/-- The text a source is stored as. -/
def TokenSource.json : TokenSource → String
  | .local => "\"local\""
  | .ingest => "\"ingest\""

structure StoredUsageSnapshot where
  id : Nat
  snapshot : UsageSnapshot
deriving DecidableEq

def Machine.primaryKey (machine : Machine) : String := machine.name.value

def Profile.primaryKey (profile : Profile) : String := profile.name.value

def ContextSession.primaryKey (session : ContextSession) : List String :=
  [session.profile.value, session.machine.value, session.sessionId.value]

def TokenGrain.primaryKey (grain : TokenGrain) : List String :=
  [grain.profile.value, grain.machine.value, grain.sessionId.value, grain.model, grain.settingsHash, grain.day,
    grain.source.json]

/-- The foreign keys of a row. -/
def Refers (machines : Table Machine.primaryKey) (profiles : Table Profile.primaryKey) (profile : ProfileName)
    (machine : MachineName) : Prop :=
  (profiles.find? profile.value).isSome ∧ (machines.find? machine.value).isSome

instance (machines : Table Machine.primaryKey) (profiles : Table Profile.primaryKey) (profile : ProfileName)
    (machine : MachineName) : Decidable (Refers machines profiles profile machine) :=
  inferInstanceAs (Decidable (_ ∧ _))

/-- No id was given out. -/
theorem no_id_bounded : 0 < 2 ^ 63 := by decide

structure Tables where
  machines : Table Machine.primaryKey
  profiles : Table Profile.primaryKey
  usage : Table StoredUsageSnapshot.id
  contexts : Table ContextSession.primaryKey
  tokens : Table TokenGrain.primaryKey
  /-- The largest id that a snapshot has ever had. -/
  usageSequence : Nat
  usage_ids : ∀ stored ∈ usage.rows, 0 < stored.id ∧ stored.id ≤ usageSequence
  sequence_bounded : usageSequence < 2 ^ 63
  usage_refers : ∀ stored ∈ usage.rows, Refers machines profiles stored.snapshot.profile stored.snapshot.machine
  context_refers : ∀ session ∈ contexts.rows, Refers machines profiles session.profile session.machine
  token_refers : ∀ grain ∈ tokens.rows, Refers machines profiles grain.profile grain.machine

def Tables.empty : Tables where
  machines := .empty
  profiles := .empty
  usage := .empty
  contexts := .empty
  tokens := .empty
  usageSequence := 0
  usage_ids _ hmem := (by cases hmem)
  sequence_bounded := no_id_bounded
  usage_refers _ hmem := (by cases hmem)
  context_refers _ hmem := (by cases hmem)
  token_refers _ hmem := (by cases hmem)

/-- What `sql_error` makes of a constraint that does not hold. -/
def sqlError : PulseError := ⟨.conflict, "Pulse SQLite operation failed"⟩

/-! ## Rows put in place -/

theorem Refers.putMachine {machines : Table Machine.primaryKey} {profiles : Table Profile.primaryKey}
    {profile : ProfileName} {machine : MachineName} (h : Refers machines profiles profile machine) (row : Machine) :
    Refers (machines.upsert row) profiles profile machine := ⟨h.1, Table.isSome_upsert h.2⟩

theorem Refers.putProfile {machines : Table Machine.primaryKey} {profiles : Table Profile.primaryKey}
    {profile : ProfileName} {machine : MachineName} (h : Refers machines profiles profile machine) (row : Profile) :
    Refers machines (profiles.upsert row) profile machine := ⟨Table.isSome_upsert h.1, h.2⟩

namespace Tables

variable (tables : Tables)

/-- The store has the profile and the machine that a row refers to. -/
abbrev Refers (profile : ProfileName) (machine : MachineName) : Prop :=
  Pulse.Refers tables.machines tables.profiles profile machine

def putMachine (row : Machine) : Tables where
  __ := tables
  machines := tables.machines.upsert row
  usage_refers stored h := (tables.usage_refers stored h).putMachine row
  context_refers session h := (tables.context_refers session h).putMachine row
  token_refers grain h := (tables.token_refers grain h).putMachine row

def putProfile (row : Profile) : Tables where
  __ := tables
  profiles := tables.profiles.upsert row
  usage_refers stored h := (tables.usage_refers stored h).putProfile row
  context_refers session h := (tables.context_refers session h).putProfile row
  token_refers grain h := (tables.token_refers grain h).putProfile row

/-- A snapshot under the next id. -/
def putSnapshot (snapshot : UsageSnapshot) (hrefers : tables.Refers snapshot.profile snapshot.machine)
    (hroom : tables.usageSequence + 1 < 2 ^ 63) : Tables where
  __ := tables
  usage := tables.usage.upsert ⟨tables.usageSequence + 1, snapshot⟩
  usageSequence := tables.usageSequence + 1
  usage_ids stored h := by
    rcases Table.mem_upsert h with rfl | h
    · exact ⟨Nat.succ_pos _, le_rfl⟩
    · exact ⟨(tables.usage_ids stored h).1, (tables.usage_ids stored h).2.trans (Nat.le_succ _)⟩
  sequence_bounded := hroom
  usage_refers stored h := by
    rcases Table.mem_upsert h with rfl | h
    · exact hrefers
    · exact tables.usage_refers stored h

def putContext (session : ContextSession) (hrefers : tables.Refers session.profile session.machine) : Tables where
  __ := tables
  contexts := tables.contexts.upsert session
  context_refers a h := by
    rcases Table.mem_upsert h with rfl | h
    · exact hrefers
    · exact tables.context_refers a h

def putToken (grain : TokenGrain) (hrefers : tables.Refers grain.profile grain.machine) : Tables where
  __ := tables
  tokens := tables.tokens.upsert grain
  token_refers a h := by
    rcases Table.mem_upsert h with rfl | h
    · exact hrefers
    · exact tables.token_refers a h

/-! ## Statements -/

def upsertMachine (machine : Machine) : PulseResult Tables :=
  if machine.lastSeen < machine.firstSeen then .error (.invalidInput "machine last_seen cannot precede first_seen")
  else match tables.machines.find? machine.primaryKey with
    | none => .ok (tables.putMachine machine)
    | some old => .ok (tables.putMachine
        { old with firstSeen := min old.firstSeen machine.firstSeen, lastSeen := max old.lastSeen machine.lastSeen })

def upsertReportedProfile (profile : Profile) : PulseResult Tables := do
  profile.validate
  if profile.origin ≠ .reported then
    throw (.invalidInput "reported profile must have reported origin")
  match tables.profiles.find? profile.primaryKey with
  | none => pure (tables.putProfile { profile with configDir := none, apiKeyEnv := none, apiKeyFile := none })
  | some existing =>
    if existing.vendor ≠ profile.vendor then
      throw ⟨.conflict, "reported profile vendor conflicts with the stored profile"⟩
    else if existing.origin = .local then pure tables
    else pure (tables.putProfile { existing with
      vendor := profile.vendor
      pollIntervalMinutes := profile.pollIntervalMinutes
      monthlyBudgetUsd := profile.monthlyBudgetUsd
      hidden := profile.hidden
      origin := profile.origin })

def insertSnapshot (snapshot : UsageSnapshot) : PulseResult Tables := do
  snapshot.validate
  if hroom : tables.usageSequence + 1 < 2 ^ 63 then
    if hrefers : tables.Refers snapshot.profile snapshot.machine then
      pure (tables.putSnapshot snapshot hrefers hroom)
    else throw sqlError
  else throw ⟨.storage, "Pulse SQLite operation failed"⟩

def asI64 (value : Nat) (field : String) : PulseResult Unit :=
  if value < 2 ^ 63 then .ok () else .error (.invalidInput (field ++ " exceeds SQLite INTEGER"))

/-- The counts that SQLite has to take. -/
def contextCounts (session : ContextSession) : PulseResult Unit := do
  session.contextTokens.elim (.ok ()) fun value => asI64 value "context_tokens"
  session.effectiveLimit.elim (.ok ()) fun value => asI64 value "effective_limit"

def upsertContext (session : ContextSession) : PulseResult Tables := do
  session.validate
  contextCounts session
  if hrefers : tables.Refers session.profile session.machine then
    -- `DO UPDATE … WHERE`: an older observation changes nothing
    if (tables.contexts.find? session.primaryKey).any fun old => decide (session.collectedAt < old.collectedAt) then
      pure tables
    else pure (tables.putContext session hrefers)
  else throw sqlError

/-- As `contextCounts`. -/
def tokenCounts (grain : TokenGrain) : PulseResult Unit := do
  asI64 grain.tokensIn "tokens_in"
  asI64 grain.tokensOut "tokens_out"
  asI64 grain.cacheWrite5m "cache_write_5m"
  asI64 grain.cacheWrite1h "cache_write_1h"
  asI64 grain.cacheRead "cache_read"

/-- `token_matches`, for a grain that `tokenCounts` admits. -/
def tokenMatches (grain : TokenGrain) : Bool :=
  (tables.tokens.find? grain.primaryKey).any fun old => old.accountId = grain.accountId ∧
    old.settings = grain.settings ∧ old.tokensIn = grain.tokensIn ∧ old.tokensOut = grain.tokensOut ∧
    old.cacheWrite5m = grain.cacheWrite5m ∧ old.cacheWrite1h = grain.cacheWrite1h ∧ old.cacheRead = grain.cacheRead

def upsertToken (grain : TokenGrain) : PulseResult Tables :=
  if hrefers : tables.Refers grain.profile grain.machine then .ok (tables.putToken grain hrefers)
  else .error sqlError

/-- The grains that differ from the rows there are. -/
def upsertScope (rows : List TokenGrain) : PulseResult Tables := do
  rows.forM tokenCounts
  (rows.filter fun grain => !tables.tokenMatches grain).foldlM upsertToken tables

end Tables

/-- Grains by profile and machine. -/
def byScope (grains : List TokenGrain) : SortedMap (List String) (List TokenGrain) :=
  grains.foldl (fun scopes grain =>
    let scope := [grain.profile.value, grain.machine.value]
    scopes.insert scope ((scopes.find? scope).getD [] ++ [grain])) .empty

def Tables.upsertTokenBatch (crates : Crates) (tables : Tables) (grains : List TokenGrain) : PulseResult Tables := do
  grains.forM (·.validate crates)
  (byScope grains).values.foldlM upsertScope tables

end Atmux.Pulse
