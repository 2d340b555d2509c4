/-
The receiver of pushed batches.

A request runs three transactions: one looks its token up, one stores its
batch, one notes that the token was used. Between them other connections write,
and any of the three may fail (`Meanwhile`).
-/
import Atmux.Pulse.PushBody

namespace Atmux.Pulse

open Lib

/-! ## Tokens -/

structure IngestToken where
  id : Int
  accountId : AccountId
  machine : MachineName
  tokenHash : String
  createdAt : Int
  lastUsedAt : Option Int
  revokedAt : Option Int
deriving DecidableEq

/-- The database, each account's rows in a store of their own. -/
structure Database where
  tokens : Table IngestToken.id
  stores : AccountId → IngestStore

namespace Database

variable (database : Database)

def getIngestToken (accountId : AccountId) (tokenId : Int) : Option IngestToken :=
  (database.tokens.find? tokenId).filter fun token => token.accountId = accountId

/-- Whether there was a row to note the use in. -/
def touchIngestToken (accountId : AccountId) (tokenId usedAt : Int) : Database × Bool :=
  match (database.getIngestToken accountId tokenId).filter fun token => token.revokedAt = none with
  | some token =>
    let lastUsedAt := max (token.lastUsedAt.getD usedAt) usedAt
    ({ database with tokens := database.tokens.upsert { token with lastUsedAt := some lastUsedAt } }, true)
  | none => (database, false)

def revokeIngestToken (accountId : AccountId) (tokenId revokedAt : Int) : Database × Bool :=
  match database.getIngestToken accountId tokenId with
  | some token =>
    let revokedAt := token.revokedAt.getD revokedAt
    ({ database with tokens := database.tokens.upsert { token with revokedAt := some revokedAt } }, true)
  | none => (database, false)

def setStore (accountId : AccountId) (store : IngestStore) : Database :=
  { database with stores := Function.update database.stores accountId store }

end Database

/-! ## Authentication -/

def authenticationFailed : PulseError := ⟨.authentication, "Pulse ingest authentication failed"⟩

def rateLimited : PulseError := ⟨.rateLimited, "Pulse ingest request rate exceeded"⟩

def tokenPrefix : String := "atmux-pulse-v1"
def maxBearerBytes : Nat := 256
def tokenRandomTextBytes : Nat := 43

def parseTokenLocator (value : String) : PulseResult (AccountId × Int) :=
  if maxBearerBytes < value.utf8ByteSize ∨ value.toList.any Text.isWhitespace then .error authenticationFailed
  else match Text.split '.' value.toList with
    | [start, account, id, random] =>
      if start ≠ tokenPrefix.toList ∨ random.length ≠ tokenRandomTextBytes ∨
          !random.all fun c => c.isAlphanum || c == '-' || c == '_' then .error authenticationFailed
      else match Text.parseSigned (2 ^ 63) account, Text.parseSigned (2 ^ 63) id with
        | some account, some id =>
          if haccount : 0 < account then
            if 0 < id then .ok (⟨account, haccount⟩, id) else .error authenticationFailed
          else .error authenticationFailed
        | _, _ => .error authenticationFailed
    | _ => .error authenticationFailed

structure AuthenticatedIngestToken where
  id : Int
  accountId : AccountId
  machine : MachineName

/-- `fault` is what the lookup ends in when the store fails it. -/
def authenticate (crates : PushCrates) (database : Database) (fault : Option PulseError) (plaintext : String) :
    PulseResult AuthenticatedIngestToken := do
  let (accountId, tokenId) ← parseTokenLocator plaintext
  if let some e := fault then throw e
  match database.getIngestToken accountId tokenId with
  | none => throw authenticationFailed
  | some stored =>
    if stored.revokedAt.isSome then throw authenticationFailed
    if sha256Hex crates plaintext.toUTF8.data.toList ≠ stored.tokenHash then throw authenticationFailed
    pure ⟨stored.id, stored.accountId, stored.machine⟩

/-! ## Requests -/

inductive ReceiverTransport
  | tls
  | plaintext
deriving DecidableEq, Repr

structure ReceiverRequest where
  loopback : Bool
  transport : ReceiverTransport
  bearer : String
  body : List UInt8
  receivedAt : Int

structure IngestReceiver where
  enabled : Bool
  limits : IngestLimits
  limits_rows : 0 < limits.maxRowsPerRequest ∧ limits.maxRowsPerRequest ≤ maxPushRows

/-- What happens while a request is served: what the limiters say, what other
connections write before its second and its third transaction, and the error
that a transaction ends in when the store fails it. -/
structure Meanwhile where
  ipAllowed : Bool
  tokenAllowed : Bool
  lookupFault : Option PulseError
  beforeIngest : Database → Database
  ingestFault : Option PulseError
  beforeTouch : Database → Database
  touchFault : Option PulseError

/-- A request's answer, the database that its batch found and left, and the
one in the end. -/
structure Received where
  answer : PulseResult IdempotentIngestResult
  found : Database
  left : Database
  last : Database

namespace IngestReceiver

variable (receiver : IngestReceiver) (crates : PushCrates)

/-- The checks before a request's batch is stored. -/
def accept (database : Database) (request : ReceiverRequest) (meanwhile : Meanwhile) :
    PulseResult (AuthenticatedIngestToken × DecodedPush) := do
  if !receiver.enabled then
    throw ⟨.notFound, "Pulse push receiver is disabled"⟩
  if request.transport = .plaintext ∧ !request.loopback then
    throw ⟨.authentication, "Pulse push ingest requires HTTPS outside loopback"⟩
  if !meanwhile.ipAllowed then throw rateLimited
  let authenticated ← authenticate crates database meanwhile.lookupFault request.bearer
  if !meanwhile.tokenAllowed then throw rateLimited
  let decoded ← decodePushBody crates authenticated.accountId authenticated.machine receiver.limits request.body
  pure (authenticated, decoded)

/-- The transaction that stores the batch. -/
def ingest (found : Database) (meanwhile : Meanwhile) (authenticated : AuthenticatedIngestToken) (decoded : DecodedPush) :
    PulseResult (Database × IdempotentIngestResult) := do
  if let some e := meanwhile.ingestFault then throw e
  let (store, result) ← (found.stores authenticated.accountId).ingestBatchOnce crates.toCrates authenticated.accountId
    authenticated.machine decoded.batch receiver.limits decoded.replay
  pure (found.setStore authenticated.accountId store, result)

/-- The transaction that notes the token's use. -/
def touch (touching : Database) (meanwhile : Meanwhile) (authenticated : AuthenticatedIngestToken) (usedAt : Int) :
    PulseResult Database := do
  if let some e := meanwhile.touchFault then throw e
  let (last, touched) := touching.touchIngestToken authenticated.accountId authenticated.id usedAt
  if !touched then throw authenticationFailed
  pure last

def receive (database : Database) (request : ReceiverRequest) (meanwhile : Meanwhile) : Received :=
  match receiver.accept crates database request meanwhile with
  | .error e => ⟨.error e, database, database, database⟩
  | .ok (authenticated, decoded) =>
    let found := meanwhile.beforeIngest database
    match receiver.ingest crates found meanwhile authenticated decoded with
    | .error e => ⟨.error e, found, found, found⟩
    | .ok (left, result) =>
      match touch (meanwhile.beforeTouch left) meanwhile authenticated request.receivedAt with
      | .error e => ⟨.error e, found, left, meanwhile.beforeTouch left⟩
      | .ok last => ⟨.ok result, found, left, last⟩

end IngestReceiver

end Atmux.Pulse
