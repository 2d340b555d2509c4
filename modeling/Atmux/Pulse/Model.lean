/-
The rows of Pulse and the text they are made of.

An identifier is text that `validateText` admits at its length, so a row
cannot carry another. What a third party computes is a field of `Crates`: the
SHA-256 of the settings' JSON, and whether a day is a date. A floating-point
number is the 64 bits it is stored as, and a time its milliseconds.
-/
import Mathlib.Algebra.Ring.Int.Defs
import Mathlib.Data.String.Basic
import Atmux.Lib.SortedMap
import Atmux.Lib.Text

namespace Atmux.Pulse

open Lib

/-- Stable categories shared by collectors, stores, and API adapters. -/
inductive PulseErrorKind
  | invalidInput
  | notFound
  | conflict
  | offline
  | authentication
  | rateLimited
  | upstream
  | storage
  | configuration
  | internal
deriving DecidableEq, Repr

structure PulseError where
  kind : PulseErrorKind
  message : String
deriving DecidableEq, Repr

abbrev PulseResult := Except PulseError

def PulseError.configuration (message : String) : PulseError := ⟨.configuration, message⟩

def PulseError.invalidInput (message : String) : PulseError := ⟨.invalidInput, message⟩

/-! ## Text -/

/-- `char::is_control`. -/
def isControl (c : Char) : Bool := c.toNat < 0x20 || (0x7f ≤ c.toNat && c.toNat ≤ 0x9f)

def validateText (kind value : String) (maxBytes : Nat) : PulseResult Unit :=
  if value = "" then .error (.invalidInput (kind ++ " cannot be empty"))
  else if maxBytes < value.utf8ByteSize then
    .error (.invalidInput (kind ++ " exceeds " ++ toString maxBytes ++ " bytes"))
  else if Text.trim value.toList ≠ value.toList then
    .error (.invalidInput (kind ++ " cannot start or end with whitespace"))
  else if value.toList.any isControl then
    .error (.invalidInput (kind ++ " cannot contain control characters"))
  else .ok ()

theorem validateText_ok {kind value : String} {maxBytes : Nat} :
    validateText kind value maxBytes = .ok () ↔ value ≠ "" ∧ value.utf8ByteSize ≤ maxBytes ∧
      Text.trim value.toList = value.toList ∧ value.toList.any isControl = false := by
  unfold validateText
  by_cases hempty : value = ""
  · simp [hempty]
  by_cases hlong : maxBytes < value.utf8ByteSize
  · simp [hempty, hlong]
  by_cases htrim : Text.trim value.toList = value.toList
  · simp [hempty, hlong, htrim]
    omega
  · simp [hempty, hlong, htrim]

/-- A validated identifier. -/
structure ValidatedString (label : String) (maxBytes : Nat) where
  value : String
  valid : validateText label value maxBytes = .ok ()
deriving DecidableEq

namespace ValidatedString

variable {label : String} {maxBytes : Nat}

def new (label : String) (maxBytes : Nat) (value : String) : PulseResult (ValidatedString label maxBytes) :=
  match h : validateText label value maxBytes with
  | .ok () => .ok ⟨value, h⟩
  | .error e => .error e

/-- An identifier's text makes it again. -/
theorem new_value (id : ValidatedString label maxBytes) : new label maxBytes id.value = .ok id := by
  unfold new
  split
  · rfl
  next e h =>
    rw [id.valid] at h
    cases h

end ValidatedString

abbrev ProfileName := ValidatedString "profile name" 128
abbrev MachineName := ValidatedString "machine name" 255
abbrev SessionId := ValidatedString "session id" 512

def maxModelNameBytes : Nat := 256

/-- Positive database identity of one Pulse account. -/
structure AccountId where
  value : Int
  positive : 0 < value
deriving DecidableEq

/-! ## Tokens -/

inductive TokenSource
  | local
  | ingest
deriving DecidableEq, Repr

/-- Model settings that can affect price or token behavior. -/
structure AgentSettings where
  serviceTier : Option String
  effort : Option String
  additional : SortedMap String String
deriving DecidableEq

/-- What a row's validation asks of other packages. -/
structure Crates where
  /-- The SHA-256 digest of the settings' JSON. -/
  settingsDigest : AgentSettings → Vector UInt8 32
  /-- Why a text is no date. -/
  dateError : String → Option String

/-- A byte as two lowercase hexadecimal digits. -/
def hexByte (byte : UInt8) : List Char := [Nat.digitChar (byte.toNat / 16), Nat.digitChar (byte.toNat % 16)]

def AgentSettings.sha256 (crates : Crates) (settings : AgentSettings) : String :=
  String.ofList ((crates.settingsDigest settings).toList.flatMap hexByte)

/-- 64 lowercase hexadecimal digits. -/
def isSha256Hex (value : String) : Bool :=
  value.utf8ByteSize == 64 && value.toList.all fun c => c.isDigit || ('a' ≤ c && c ≤ 'f')

theorem hexByte_digits (byte : UInt8) : ∀ c ∈ hexByte byte, (c.isDigit || ('a' ≤ c && c ≤ 'f')) = true ∧ c.utf8Size = 1 := by
  have hall : ∀ n < 16, ((Nat.digitChar n).isDigit || ('a' ≤ Nat.digitChar n && Nat.digitChar n ≤ 'f')) = true ∧
      (Nat.digitChar n).utf8Size = 1 := by decide
  have hlt := byte.toNat_lt
  intro c hc
  rcases List.mem_cons.mp hc with rfl | hc
  · exact hall _ (by omega)
  · obtain rfl := List.mem_singleton.mp hc
    exact hall _ (by omega)

/-- A digest is written in hexadecimal. -/
theorem AgentSettings.isSha256Hex_sha256 (crates : Crates) (settings : AgentSettings) :
    isSha256Hex (settings.sha256 crates) = true := by
  have hdigits : ∀ c ∈ (crates.settingsDigest settings).toList.flatMap hexByte,
      (c.isDigit || ('a' ≤ c && c ≤ 'f')) = true ∧ c.utf8Size = 1 := by
    intro c hc
    obtain ⟨byte, -, hc⟩ := List.mem_flatMap.mp hc
    exact hexByte_digits byte c hc
  have hlength : ((crates.settingsDigest settings).toList.flatMap hexByte).length = 64 := by
    simp [List.length_flatMap, hexByte]
  simp only [isSha256Hex, AgentSettings.sha256, Text.utf8ByteSize_ofList fun c hc => (hdigits c hc).2, hlength,
    String.toList_ofList, beq_self_eq_true, Bool.true_and, List.all_eq_true]
  exact fun c hc => (hdigits c hc).1

/-- Fine token usage at the profile/machine/session/model/settings/day grain. -/
structure TokenGrain where
  accountId : AccountId
  profile : ProfileName
  machine : MachineName
  sessionId : SessionId
  model : String
  settings : AgentSettings
  settingsHash : String
  day : String
  tokensIn : Nat
  tokensOut : Nat
  cacheWrite5m : Nat
  cacheWrite1h : Nat
  cacheRead : Nat
  source : TokenSource
deriving DecidableEq

def TokenGrain.validate (crates : Crates) (grain : TokenGrain) : PulseResult Unit := do
  validateText "model" grain.model maxModelNameBytes
  if let some error := crates.dateError grain.day then
    throw (.invalidInput ("invalid token day: " ++ error))
  if grain.settingsHash ≠ grain.settings.sha256 crates then
    throw (.invalidInput "settings_hash does not match settings")

theorem TokenGrain.validate_ok {crates : Crates} {grain : TokenGrain} : grain.validate crates = .ok () ↔
    validateText "model" grain.model maxModelNameBytes = .ok () ∧ crates.dateError grain.day = none ∧
      grain.settingsHash = grain.settings.sha256 crates := by
  unfold TokenGrain.validate
  cases validateText "model" grain.model maxModelNameBytes with
  | error e => simp [bind, Except.bind]
  | ok =>
    cases crates.dateError grain.day with
    | some error => simp [bind, Except.bind, throw, throwThe, MonadExceptOf.throw]
    | none =>
      by_cases hhash : grain.settingsHash = grain.settings.sha256 crates
      · simp [hhash, bind, Except.bind, pure, Except.pure]
      · simp [hhash, bind, Except.bind, throw, throwThe, MonadExceptOf.throw]

/-! ## Profiles -/

/-- The bits of an `f64`. -/
abbrev F64 := UInt64

namespace F64

def isFinite (x : F64) : Bool := (x >>> 52) &&& 0x7ff != 0x7ff

/-- Above zero, when it is a number. -/
def isPositive (x : F64) : Bool := x >>> 63 == 0 && x != 0

end F64

inductive Vendor
  | anthropicOauth
  | openaiCodex
  | deepseekBalance
  | xaiGrok
  | gemini
  | antigravity
deriving DecidableEq, Repr

inductive RefreshPolicy
  | never
  | inMemory
  | persist
deriving DecidableEq, Repr

/-- Trust boundary for an account-scoped provider profile. -/
inductive ProfileOrigin
  | local
  | reported
deriving DecidableEq, Repr

/-- One machine contributing data to an account. -/
structure Machine where
  accountId : AccountId
  name : MachineName
  firstSeen : Int
  lastSeen : Int
deriving DecidableEq

/-- Account-scoped provider profile. -/
structure Profile where
  accountId : AccountId
  name : ProfileName
  vendor : Vendor
  configDir : Option String
  pollIntervalMinutes : Nat
  monthlyBudgetUsd : Option F64
  apiKeyEnv : Option String
  apiKeyFile : Option String
  refresh : RefreshPolicy
  hidden : Bool
  origin : ProfileOrigin
deriving DecidableEq

def minProfilePollMinutes : Nat := 5
def maxProfilePollMinutes : Nat := 7 * 24 * 60

def validateEnvironmentName (value : String) : PulseResult Unit :=
  let validFirst := value.toList.head?.any fun c => c == '_' || c.isAlpha
  if validFirst && value.toList.tail.all fun c => c == '_' || c.isAlphanum then .ok ()
  else .error (.configuration "credential environment variable name is invalid")

/-- What a profile with its origin may refer to. -/
def Profile.validateOrigin (profile : Profile) : PulseResult Unit :=
  match profile.origin with
  | .reported =>
    if profile.configDir.isSome ∨ profile.apiKeyEnv.isSome ∨ profile.apiKeyFile.isSome ∨ profile.refresh = .persist then
      .error (.configuration
        "reported profiles cannot contain local paths, credential references, or persistent refresh")
    else .ok ()
  | .local =>
    if profile.vendor = .deepseekBalance ∧ profile.monthlyBudgetUsd = none then
      .error (.configuration "DeepSeek profiles require monthly_budget_usd")
    else if profile.vendor = .deepseekBalance ∧ profile.apiKeyEnv = none ∧ profile.apiKeyFile = none then
      .error (.configuration "DeepSeek profiles require api_key_env or api_key_file")
    else .ok ()

def Profile.validate (profile : Profile) : PulseResult Unit := do
  if profile.pollIntervalMinutes < minProfilePollMinutes ∨ maxProfilePollMinutes < profile.pollIntervalMinutes then
    throw (.configuration ("profile poll interval must be between " ++ toString minProfilePollMinutes ++ " and " ++
      toString maxProfilePollMinutes ++ " minutes"))
  if profile.apiKeyEnv.isSome ∧ profile.apiKeyFile.isSome then
    throw (.configuration "configure only one of api_key_env or api_key_file")
  if let some name := profile.apiKeyEnv then
    validateEnvironmentName name
  if profile.apiKeyFile.any fun path => !path.startsWith "/" then
    throw (.configuration "api_key_file must be an absolute path")
  if profile.monthlyBudgetUsd.any fun budget => !(budget.isFinite && budget.isPositive) then
    throw (.configuration "monthly_budget_usd must be finite and greater than zero")
  profile.validateOrigin

/-! ## Usage -/

inductive QuotaWindowKind
  | fiveHour
  | rollingSevenDay
  | fixedWeekly
  | monthlyBudget
deriving DecidableEq, Repr

/-- Whether a quota window has the right semantics for this vendor. -/
def Vendor.allowsWindow : Vendor → QuotaWindowKind → Bool
  | .anthropicOauth, .fiveHour | .anthropicOauth, .rollingSevenDay => true
  | .openaiCodex, .fiveHour | .openaiCodex, .fixedWeekly => true
  | .xaiGrok, .fixedWeekly => true
  | .deepseekBalance, .monthlyBudget => true
  | _, _ => false

/-- Whether this provider emits subscription rate-limit snapshots. -/
def Vendor.emitsUsageSnapshots : Vendor → Bool
  | .gemini | .antigravity => false
  | _ => true

/-- A finite percentage in the inclusive range 0–100, zero of either sign. -/
structure Percent where
  value : F64
  bounded : value ≤ 0x4059000000000000 ∨ value = 0x8000000000000000
deriving DecidableEq

structure QuotaWindow where
  kind : QuotaWindowKind
  usedPercent : Percent
  resetsAt : Int
deriving DecidableEq

/-- Secret-free outcome of a collection attempt. -/
inductive CollectionOutcome
  | success
  | disabled (code : String)
  | authenticationFailed (code : String)
  | rateLimited (retryAt : Option Int)
  | unavailable (code : String)
  | invalidResponse (code : String)
deriving DecidableEq, Repr

def CollectionOutcome.validate : CollectionOutcome → PulseResult Unit
  | .success | .rateLimited _ => .ok ()
  | .disabled code | .authenticationFailed code | .unavailable code | .invalidResponse code =>
    if code ≠ "" ∧ code.utf8ByteSize ≤ 64 ∧ code.toList.all fun c => c.isLower || c.isDigit || "_-.".toList.contains c then .ok ()
    else .error (.invalidInput "collection outcome code must be a stable lowercase identifier")

/-- An append-only provider usage observation. -/
structure UsageSnapshot where
  accountId : AccountId
  profile : ProfileName
  machine : MachineName
  vendor : Vendor
  windows : List QuotaWindow
  outcome : CollectionOutcome
  polledAt : Int
  reporterVersion : Option String
deriving DecidableEq

def UsageSnapshot.validate (snapshot : UsageSnapshot) : PulseResult Unit := do
  snapshot.outcome.validate
  if !snapshot.vendor.emitsUsageSnapshots then
    throw (.invalidInput "this vendor does not emit subscription usage snapshots")
  if snapshot.outcome = .success ∧ snapshot.windows = [] then
    throw (.invalidInput "a successful usage snapshot must contain a quota window")
  if snapshot.windows.any fun window => !snapshot.vendor.allowsWindow window.kind then
    throw (.invalidInput "usage snapshot contains a window that is invalid for its vendor")
  if ¬ (snapshot.windows.map QuotaWindow.kind).Nodup then
    throw (.invalidInput "usage snapshot contains a duplicate quota window")
  if let some version := snapshot.reporterVersion then
    validateText "reporter version" version 128

/-! ## Contexts -/

/-- Live context usage for one local agent session. -/
structure ContextSession where
  accountId : AccountId
  profile : ProfileName
  machine : MachineName
  sessionId : SessionId
  model : Option String
  settings : AgentSettings
  contextTokens : Option Nat
  contextPercent : Option Percent
  effectiveLimit : Option Nat
  lastActiveAt : Int
  lastResetAt : Option Int
  collectedAt : Int
deriving DecidableEq

def ContextSession.validate (session : ContextSession) : PulseResult Unit := do
  if let some model := session.model then
    validateText "model" model maxModelNameBytes
  if session.contextTokens.any fun tokens => session.effectiveLimit.any fun limit => decide (limit < tokens) then
    throw (.invalidInput "context token count cannot exceed its effective limit")
  if session.effectiveLimit = some 0 then
    throw (.invalidInput "context effective limit must be greater than zero")
  if session.contextPercent.isSome ∧ (session.contextTokens = none ∨ session.effectiveLimit = none) then
    throw (.invalidInput "context percentage requires tokens and effective limit")

/-! ## Samples -/

def firstAccount : AccountId := ⟨1, by decide⟩

def workProfile : ProfileName := ⟨"work", by decide⟩

def laptop : MachineName := ⟨"laptop", by decide⟩

end Atmux.Pulse
