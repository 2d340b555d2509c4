/-
The credential store of a Claude profile.

The store is a JSON document that other programs write as well, so all of it
but three fields goes through a refresh untouched (`update_get?`,
`update_oauth`), and what is read back has the tokens of the grant
(`tokensFromDocument_update`). What a caller does with the document that it
has read under the lock is its `decision`.
-/
import Atmux.Pulse.Json
import Atmux.Pulse.Model
import Atmux.Lib.Result

namespace Atmux.Credentials

open Lib Pulse

/-! ## Tokens -/

def isSecret (value : String) : Bool :=
  value ≠ "" && value.utf8ByteSize ≤ 64 * 1024 && !value.toList.any isControl

/-- A secret that is never logged. -/
structure SecretString where
  expose : String
  valid : isSecret expose = true
deriving DecidableEq

def SecretString.new (value : String) : PulseResult SecretString :=
  if h : isSecret value = true then .ok ⟨value, h⟩ else .error ⟨.authentication, "credential value is invalid"⟩

theorem SecretString.new_expose (secret : SecretString) : SecretString.new secret.expose = .ok secret := by
  unfold SecretString.new
  rw [dif_pos secret.valid]

/-- `byte.is_ascii_control() || byte.is_ascii_whitespace()` of no byte. -/
def isScope (scope : String) : Bool :=
  scope ≠ "" && scope.utf8ByteSize ≤ 128 && !scope.toList.any fun c => c.toNat ≤ 0x20 || c.toNat = 0x7f

/-- Milliseconds that an `i64` holds. -/
abbrev Millis := { n : Int // -2 ^ 63 ≤ n ∧ n < 2 ^ 63 }

/-- Claude OAuth credentials projected out of the provider store. -/
structure ClaudeOauthTokens where
  accessToken : SecretString
  refreshToken : Option SecretString
  expiresAtMillis : Int
  scopes : List String
  subscriptionType : Option String
  rateLimitTier : Option String
deriving DecidableEq

def expirySkewMillis : Int := 60000

def saturatingAddI64 (a b : Int) : Int := max (-2 ^ 63) (min (2 ^ 63 - 1) (a + b))

namespace ClaudeOauthTokens

def new (accessToken : String) (refreshToken : Option String) (expiresAtMillis : Int) (scopes : List String) :
    PulseResult ClaudeOauthTokens := do
  if scopes.any fun scope => !isScope scope then throw ⟨.authentication, "credential scopes are invalid"⟩
  let accessToken ← SecretString.new accessToken
  let refreshToken ← refreshToken.mapM SecretString.new
  return ⟨accessToken, refreshToken, expiresAtMillis, scopes, none, none⟩

def hasScope (tokens : ClaudeOauthTokens) (scope : String) : Bool := tokens.scopes.contains scope

def canRefresh (tokens : ClaudeOauthTokens) : Bool := tokens.refreshToken.isSome

def isExpired (tokens : ClaudeOauthTokens) (nowMillis : Int) : Bool :=
  tokens.expiresAtMillis < saturatingAddI64 nowMillis expirySkewMillis

theorem new_ok {accessToken : String} {refreshToken : Option String} {expiresAtMillis : Int} {scopes : List String}
    {tokens : ClaudeOauthTokens} (h : new accessToken refreshToken expiresAtMillis scopes = .ok tokens) :
    (scopes.any fun scope => !isScope scope) = false ∧ tokens.accessToken.expose = accessToken ∧
      tokens.expiresAtMillis = expiresAtMillis ∧ tokens.scopes = scopes := by
  unfold new at h
  obtain ⟨hscopes, h⟩ := guard_ok h
  obtain ⟨access, haccess, h⟩ := bind_ok h
  obtain ⟨refresh, -, h⟩ := bind_ok h
  obtain rfl := Except.ok.inj h
  refine ⟨Bool.eq_false_iff.mpr hscopes, ?_, rfl, rfl⟩
  unfold SecretString.new at haccess
  split at haccess
  · exact congrArg SecretString.expose (Except.ok.inj haccess).symm
  · cases haccess

/-- Secrets that were checked once make tokens. -/
theorem new_secrets {access refresh : SecretString} {expiresAtMillis : Int} {scopes : List String}
    (h : (scopes.any fun scope => !isScope scope) = false) :
    new access.expose (some refresh.expose) expiresAtMillis scopes =
      .ok ⟨access, some refresh, expiresAtMillis, scopes, none, none⟩ := by
  unfold new
  rw [if_neg (Bool.eq_false_iff.mp h), SecretString.new_expose]
  change (do let refreshToken ← Option.some <$> SecretString.new refresh.expose; _) = _
  rw [SecretString.new_expose]
  rfl

end ClaudeOauthTokens

/-! ## The document -/

/-- The record in the document that holds the tokens. -/
structure OauthBlob where
  accessToken : Option String
  refreshToken : Option String
  expiresAt : Option Int
  scopes : List String
  subscriptionType : Option String
  rateLimitTier : Option String

/-- What `serde` makes of a field that may be absent or null. -/
def optional {α : Type} (read : Json → Option α) : Option Json → Option (Option α)
  | none | some .null => some none
  | some value => (read value).map some

/-- What `serde` makes of a list that is empty by default. -/
def stringList : Option Json → Option (List String)
  | none => some []
  | some (.array items) => items.mapM Json.asStr
  | some _ => none

def OauthBlob.decode (accessToken refreshToken expiresAt scopes subscriptionType rateLimitTier : Option Json) :
    Option OauthBlob := do
  let accessToken ← optional Json.asStr accessToken
  let refreshToken ← optional Json.asStr refreshToken
  let expiresAt ← optional Json.asI64 expiresAt
  let scopes ← stringList scopes
  let subscriptionType ← optional Json.asStr subscriptionType
  let rateLimitTier ← optional Json.asStr rateLimitTier
  return ⟨accessToken, refreshToken, expiresAt, scopes, subscriptionType, rateLimitTier⟩

theorem OauthBlob.decode_eq_some {accessToken refreshToken expiresAt scopes subscriptionType rateLimitTier : Option Json}
    {blob : OauthBlob} :
    decode accessToken refreshToken expiresAt scopes subscriptionType rateLimitTier = some blob ↔
      optional Json.asStr accessToken = some blob.accessToken ∧ optional Json.asStr refreshToken = some blob.refreshToken ∧
        optional Json.asI64 expiresAt = some blob.expiresAt ∧ stringList scopes = some blob.scopes ∧
        optional Json.asStr subscriptionType = some blob.subscriptionType ∧
        optional Json.asStr rateLimitTier = some blob.rateLimitTier := by
  simp only [decode, Option.bind_eq_bind, Option.bind_eq_some_iff, Option.pure_def, Option.some.injEq]
  constructor
  · rintro ⟨_, haccess, _, hrefresh, _, hexpires, _, hscopes, _, hsubscription, _, hrate, rfl⟩
    exact ⟨haccess, hrefresh, hexpires, hscopes, hsubscription, hrate⟩
  · rintro ⟨haccess, hrefresh, hexpires, hscopes, hsubscription, hrate⟩
    exact ⟨_, haccess, _, hrefresh, _, hexpires, _, hscopes, _, hsubscription, _, hrate, rfl⟩

/-- The fields may also come as an array of all of them. -/
def oauthBlob (document : Json) : Option OauthBlob :=
  match document.get? "claudeAiOauth" with
  | some (.object entries) =>
    OauthBlob.decode (Entries.find? "accessToken" entries) (Entries.find? "refreshToken" entries)
      (Entries.find? "expiresAt" entries) (Entries.find? "scopes" entries)
      (Entries.find? "subscriptionType" entries) (Entries.find? "rateLimitTier" entries)
  | some (.array [accessToken, refreshToken, expiresAt, scopes, subscriptionType, rateLimitTier]) =>
    OauthBlob.decode (some accessToken) (some refreshToken) (some expiresAt) (some scopes) (some subscriptionType)
      (some rateLimitTier)
  | _ => none

def OauthBlob.tokens (blob : OauthBlob) : PulseResult ClaudeOauthTokens := do
  let some accessToken := blob.accessToken | throw ⟨.authentication, "credential store has no access token"⟩
  let some expiresAt := blob.expiresAt | throw ⟨.authentication, "credential store has no token expiry"⟩
  let tokens ← ClaudeOauthTokens.new accessToken blob.refreshToken expiresAt blob.scopes
  return { tokens with subscriptionType := blob.subscriptionType, rateLimitTier := blob.rateLimitTier }

def tokensFromDocument (document : Json) : PulseResult ClaudeOauthTokens :=
  match oauthBlob document with
  | none => .error ⟨.authentication, "credential store has no usable OAuth record"⟩
  | some blob => blob.tokens

/-- What a grant returns. -/
structure RefreshGrant where
  accessToken : SecretString
  refreshToken : SecretString
  expiresAtMillis : Millis
deriving DecidableEq

/-- The record with the tokens of a grant filed in it. -/
def fileGrant (oauth : List (String × Json)) (grant : RefreshGrant) : List (String × Json) :=
  Entries.insert "expiresAt" (.number (toString grant.expiresAtMillis.val))
    (Entries.insert "refreshToken" (.string grant.refreshToken.expose)
      (Entries.insert "accessToken" (.string grant.accessToken.expose) oauth))

def updateDocumentTokens (document : Json) (grant : RefreshGrant) : PulseResult Json :=
  match document, document.get? "claudeAiOauth" with
  | .object entries, some (.object oauth) =>
    .ok (.object (Entries.insert "claudeAiOauth" (.object (fileGrant oauth grant)) entries))
  | _, _ => .error ⟨.authentication, "credential store has no usable OAuth record"⟩

/-- The tokens of a grant, with what else the store says of the current ones. -/
def ClaudeOauthTokens.granted (current : ClaudeOauthTokens) (grant : RefreshGrant) : PulseResult ClaudeOauthTokens := do
  let tokens ← ClaudeOauthTokens.new grant.accessToken.expose (some grant.refreshToken.expose)
    grant.expiresAtMillis.val current.scopes
  return { tokens with subscriptionType := current.subscriptionType, rateLimitTier := current.rateLimitTier }

/-- What a caller that holds the lock does next. -/
inductive Decision
  /-- The store holds tokens that serve. -/
  | adopt (current : ClaudeOauthTokens)
  | spend (current : ClaudeOauthTokens) (refreshToken : SecretString)

/-- Of the policies, on Linux. -/
def ensureRefreshGrantIsDurable : RefreshPolicy → PulseResult Unit
  | .persist => .ok ()
  | .never => .error ⟨.authentication, "credential refresh is disabled"⟩
  | .inMemory => .error (.configuration "rotating credential refresh requires durable Linux persistence")

/-- What `cooperative_refresh_with` decides under the lock. -/
def decision (policy : RefreshPolicy) (rejected : ClaudeOauthTokens) (force : Bool) (nowMillis : Int) (document : Json) :
    PulseResult Decision := do
  let current ← tokensFromDocument document
  let siblingChanged := decide (current.accessToken ≠ rejected.accessToken)
  if !current.isExpired nowMillis && (!force || siblingChanged) then return .adopt current
  ensureRefreshGrantIsDurable policy
  let some refreshToken := current.refreshToken | throw ⟨.authentication, "credential has no refresh capability"⟩
  return .spend current refreshToken

/-- Whether a refresh adopted a sibling value or performed a durable grant. -/
inductive RefreshSource
  | adopted
  | grantedAndPersisted
  | grantedUnpersisted
deriving DecidableEq, Repr

structure RefreshResult where
  tokens : ClaudeOauthTokens
  source : RefreshSource
deriving DecidableEq

variable {document document' : Json} {oauth : List (String × Json)} {grant : RefreshGrant} {key : String}
  {current rejected tokens : ClaudeOauthTokens} {force : Bool} {nowMillis : Int} {refreshToken : SecretString}
  {policy : RefreshPolicy}

/-! ## What a refresh leaves of the document -/

theorem find?_fileGrant (hkey : key ∉ ["accessToken", "refreshToken", "expiresAt"]) :
    Entries.find? key (fileGrant oauth grant) = Entries.find? key oauth := by
  simp only [List.mem_cons, List.not_mem_nil, or_false, not_or] at hkey
  unfold fileGrant
  rw [Entries.find?_insert, if_neg hkey.2.2, Entries.find?_insert, if_neg hkey.2.1, Entries.find?_insert,
    if_neg hkey.1]

theorem update_ok (h : updateDocumentTokens document grant = .ok document') : ∃ entries oauth,
    document = .object entries ∧ Entries.find? "claudeAiOauth" entries = some (.object oauth) ∧
      document' = .object (Entries.insert "claudeAiOauth" (.object (fileGrant oauth grant)) entries) := by
  unfold updateDocumentTokens at h
  split at h
  next entries oauth hoauth => exact ⟨entries, oauth, rfl, hoauth, (Except.ok.inj h).symm⟩
  · cases h

/-- A document that differs from another in the three token fields at most. -/
def OnlyTokensDiffer (document document' : Json) : Prop :=
  (∀ key, key ≠ "claudeAiOauth" → document'.get? key = document.get? key) ∧
    ∃ oauth oauth', document.get? "claudeAiOauth" = some (.object oauth) ∧
      document'.get? "claudeAiOauth" = some (.object oauth') ∧
      ∀ key, key ∉ ["accessToken", "refreshToken", "expiresAt"] →
        Entries.find? key oauth' = Entries.find? key oauth

theorem onlyTokensDiffer_update (h : updateDocumentTokens document grant = .ok document') :
    OnlyTokensDiffer document document' := by
  obtain ⟨entries, oauth, rfl, hoauth, rfl⟩ := update_ok h
  refine ⟨fun key hkey => ?_, oauth, fileGrant oauth grant, hoauth, ?_, fun key hkey => find?_fileGrant hkey⟩
  · rw [Json.get?_insert, if_neg hkey]
  · rw [Json.get?_insert, if_pos rfl]

/-- The record reads back as it was, with the tokens of the grant. -/
theorem oauthBlob_update {blob : OauthBlob} (hblob : oauthBlob document = some blob)
    (h : updateDocumentTokens document grant = .ok document') :
    oauthBlob document' = some { blob with
      accessToken := some grant.accessToken.expose
      refreshToken := some grant.refreshToken.expose
      expiresAt := some grant.expiresAtMillis.val } := by
  obtain ⟨entries, oauth, rfl, hoauth, rfl⟩ := update_ok h
  have hget : (Json.object entries).get? "claudeAiOauth" = some (.object oauth) := hoauth
  have haccess : Entries.find? "accessToken" (fileGrant oauth grant) = some (.string grant.accessToken.expose) := by
    simp [fileGrant, Entries.find?_insert]
  have hrefresh : Entries.find? "refreshToken" (fileGrant oauth grant) = some (.string grant.refreshToken.expose) := by
    simp [fileGrant, Entries.find?_insert]
  have hexpires : Entries.find? "expiresAt" (fileGrant oauth grant) =
      some (.number (toString grant.expiresAtMillis.val)) := by
    simp [fileGrant, Entries.find?_insert]
  have hmillis := Json.asI64_toString grant.expiresAtMillis.property.1 grant.expiresAtMillis.property.2
  unfold oauthBlob at hblob ⊢
  rw [hget] at hblob
  rw [Json.get?_insert, if_pos rfl]
  dsimp only at hblob ⊢
  obtain ⟨-, -, -, hscopes, hsubscription, hrate⟩ := OauthBlob.decode_eq_some.mp hblob
  refine OauthBlob.decode_eq_some.mpr ⟨?_, ?_, ?_, ?_, ?_, ?_⟩
  · rw [haccess]
    rfl
  · rw [hrefresh]
    rfl
  · rw [hexpires, optional, hmillis]
    · rfl
    · exact Json.noConfusion
  · rwa [find?_fileGrant (by decide)]
  · rwa [find?_fileGrant (by decide)]
  · rwa [find?_fileGrant (by decide)]

theorem tokens_ok {blob : OauthBlob} (h : blob.tokens = .ok current) :
    (current.scopes.any fun scope => !isScope scope) = false ∧ current.scopes = blob.scopes ∧
      current.subscriptionType = blob.subscriptionType ∧ current.rateLimitTier = blob.rateLimitTier := by
  unfold OauthBlob.tokens at h
  split at h
  · split at h
    · obtain ⟨tokens, htokens, h⟩ := bind_ok h
      obtain rfl := Except.ok.inj h
      obtain ⟨hvalid, -, -, hscopes⟩ := ClaudeOauthTokens.new_ok htokens
      exact ⟨hscopes ▸ hvalid, hscopes, rfl, rfl⟩
    · cases h
  · cases h

/-- What is read of the store can be granted anew. -/
theorem granted_ok (hcurrent : tokensFromDocument document = .ok current) (grant : RefreshGrant) :
    current.granted grant = .ok { current with
      accessToken := grant.accessToken
      refreshToken := some grant.refreshToken
      expiresAtMillis := grant.expiresAtMillis.val } := by
  unfold tokensFromDocument at hcurrent
  split at hcurrent
  · cases hcurrent
  · unfold ClaudeOauthTokens.granted
    rw [ClaudeOauthTokens.new_secrets (tokens_ok hcurrent).1]
    rfl

/-- A grant's tokens are what the store has from then on. -/
theorem tokensFromDocument_update (hcurrent : tokensFromDocument document = .ok current)
    (h : updateDocumentTokens document grant = .ok document') :
    tokensFromDocument document' = current.granted grant := by
  rw [granted_ok hcurrent]
  unfold tokensFromDocument at hcurrent
  split at hcurrent
  · cases hcurrent
  next blob hblob =>
    obtain ⟨hvalid, hscopes, hsubscription, hrate⟩ := tokens_ok hcurrent
    unfold tokensFromDocument
    rw [oauthBlob_update hblob h]
    dsimp only [OauthBlob.tokens]
    rw [← hscopes, ClaudeOauthTokens.new_secrets hvalid, hsubscription, hrate]
    rfl

/-! ## What is decided -/

theorem decision_spend (h : decision policy rejected force nowMillis document = .ok (.spend current refreshToken)) :
    tokensFromDocument document = .ok current ∧ current.refreshToken = some refreshToken := by
  obtain ⟨tokens, htokens, h⟩ := bind_ok h
  dsimp only at h
  split at h
  · cases h
  · obtain ⟨_, _, h⟩ := bind_ok h
    split at h
    next token htoken =>
      obtain ⟨rfl, rfl⟩ := Decision.spend.inj (Except.ok.inj h)
      exact ⟨htokens, htoken⟩
    · cases h

/-- Tokens that serve and that the caller does not reject are adopted. -/
theorem decision_adopt (hcurrent : tokensFromDocument document = .ok current)
    (hexpired : current.isExpired nowMillis = false) (hne : current.accessToken ≠ rejected.accessToken) :
    decision policy rejected force nowMillis document = .ok (.adopt current) := by
  unfold decision
  rw [hcurrent]
  change (if _ then _ else _) = _
  rw [if_pos]
  · rfl
  · simp [hexpired, hne]

/-- The refresh token that a document holds. -/
def refreshTokenOf (document : Json) : Option SecretString :=
  match tokensFromDocument document with
  | .ok tokens => tokens.refreshToken
  | .error _ => none

theorem refreshTokenOf_eq (h : tokensFromDocument document = .ok current) :
    refreshTokenOf document = current.refreshToken := by
  unfold refreshTokenOf
  rw [h]

end Atmux.Credentials
