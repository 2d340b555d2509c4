/-
Report cycles of one machine to one destination.

`Sender` is the machine: its store, with the rows that other connections write
meanwhile, and the cycle that runs, which calls the store and the network in
turn and may stop anywhere. `Push` adds the network, which keeps what was sent
and delivers it in any order any number of times, and the receiver. What a
sender has read and done, and what the receiver has stored, is kept beside
them.
-/
import Atmux.Pulse.Chunks
import Atmux.Pulse.Receipts

namespace Atmux.Pulse

open Lib

/-! ## The store -/

structure ReporterStore where
  tables : Tables
  /-- The destinations of the account. -/
  destinations : Nat
  cursor : Option ReporterCursorState
  pending : ReporterStreamKind → Option ReporterPendingPage
  /-- The largest id that a page has ever had. -/
  sequence : Nat

namespace ReporterStore

def outboxConflict (message : String) : PulseError := ⟨.conflict, message⟩

variable (crates : ReporterCrates) (accountId : AccountId) (machine : MachineName) (store : ReporterStore)

def loadReporterCursor : PulseResult (ReporterStore × ReporterCursorState) :=
  match store.cursor with
  | some state => .ok (store, state)
  | none =>
    if maxReporterDestinationsPerAccount ≤ store.destinations then
      .error (outboxConflict "Pulse reporter destination limit was reached for this account")
    else if (store.tables.machines.find? machine.value).isNone then .error sqlError
    else .ok ({ store with destinations := store.destinations + 1, cursor := some .default }, .default)

def localReporterUsagePage (afterId : Int) (limit : Nat) : PulseResult (List StoredUsageSnapshot) :=
  if afterId < 0 then .error (.invalidInput "Pulse reporter usage cursor is invalid")
  else .ok ((orderBy StoredUsageSnapshot.id (store.tables.usage.rows.filter fun stored =>
    stored.snapshot.machine = machine ∧ afterId < stored.id)).take limit)

def localReporterTokenPage (after : Option ReporterTokenPosition) (limit : Nat) : List TokenGrain :=
  (orderBy (fun grain => (ReporterTokenPosition.fromGrain grain).columns) (store.tables.tokens.rows.filter fun grain =>
    grain.machine = machine ∧ tokenBefore after (some (.fromGrain grain)) = true)).take limit

def advanceReporterCursor (expected next : ReporterCursorState) : PulseResult (ReporterStore × ReporterCursorState) := do
  validateReporterTransition expected next
  if 2 ^ 63 ≤ expected.tokenGeneration ∨ 2 ^ 63 ≤ next.tokenGeneration then
    throw (.invalidInput "Pulse reporter generation is too large")
  if store.cursor ≠ some expected then
    throw (outboxConflict "Pulse reporter cursor changed concurrently")
  pure ({ store with cursor := some next }, next)

def loadReporterPending (kind : ReporterStreamKind) : PulseResult (Option ReporterPendingPage) :=
  match store.pending kind with
  | none => .ok none
  | some page => do
    page.draft.validate crates accountId machine
    pure (some page)

def putPending (kind : ReporterStreamKind) (page : Option ReporterPendingPage) : ReporterStore :=
  { store with pending := Function.update store.pending kind page }

def prepareReporterPending (draft : ReporterPendingDraft) : PulseResult (ReporterStore × ReporterPendingPage) := do
  draft.validate crates accountId machine
  match ← store.loadReporterPending crates accountId machine draft.kind with
  | some existing => pure (store, existing)
  | none =>
    let other := match draft.kind with
      | .usage => ReporterStreamKind.token
      | .token => .usage
    if (store.pending other).isSome then
      throw (outboxConflict "Pulse reporter outbox still holds another stream's page")
    match store.cursor with
    | none => throw (outboxConflict "Pulse reporter cursor was not initialized")
    | some current =>
      if current ≠ draft.expected then
        throw (outboxConflict "Pulse reporter cursor changed before outbox preparation")
      let page := ⟨store.sequence + 1, draft⟩
      pure ({ store.putPending draft.kind (some page) with sequence := store.sequence + 1 }, page)

def commitReporterPending (kind : ReporterStreamKind) (pendingId : Nat) :
    PulseResult (ReporterStore × ReporterCursorState) := do
  match ← store.loadReporterPending crates accountId machine kind with
  | none => throw (outboxConflict "Pulse reporter outbox page is missing")
  | some pending =>
    if pending.id ≠ pendingId then
      throw (outboxConflict "Pulse reporter outbox page changed concurrently")
    if store.cursor ≠ some pending.draft.expected then
      throw (outboxConflict "Pulse reporter cursor changed before outbox commit")
    if 2 ^ 63 ≤ pending.draft.next.tokenGeneration then
      throw (.invalidInput "Pulse reporter generation is too large")
    pure ({ store.putPending kind none with cursor := some pending.draft.next }, pending.draft.next)

end ReporterStore

/-- What other connections may do to the rows: a snapshot stays what it is or
goes, and a new one has an id that none had before. -/
def Tables.Later (old new : Tables) : Prop :=
  old.usageSequence ≤ new.usageSequence ∧
    ∀ stored ∈ new.usage.rows, stored ∈ old.usage.rows ∨ old.usageSequence < stored.id

instance (old new : Tables) : Decidable (old.Later new) := inferInstanceAs (Decidable (_ ∧ _))

/-! ## Cycles -/

def coordinatorPageRows : Nat := 500
def maxCoordinatorPagesPerKind : Nat := 32

/-- The rows of a page. -/
structure PageRows where
  usage : List StoredUsageSnapshot
  tokens : List TokenGrain

def PageRows.none : PageRows := ⟨[], []⟩

def PageRows.batch (rows : PageRows) : PushBatch :=
  { PushBatch.empty with snapshots := rows.usage.map StoredUsageSnapshot.snapshot, tokenGrains := rows.tokens }

/-- Where a cycle is: `drains` are the streams whose pages it still looks for
first, `pages` those that its loops still turn to. -/
inductive Stage
  | idle
  | metadata (rest : List (List UInt8))
  | turn (drains pages : List ReporterStreamKind)
  | reading (kind : ReporterStreamKind) (pages : List ReporterStreamKind)
  | preparing (draft : ReporterPendingDraft) (read : PageRows) (pages : List ReporterStreamKind)
  | advancing (next : ReporterCursorState) (pages : List ReporterStreamKind)
  | sending (page : ReporterPendingPage) (rest : List ReporterPendingChunk) (drains pages : List ReporterStreamKind)

/-- A document on its way. -/
inductive Packet
  | metadata (body : List UInt8)
  | page (chunk : ReporterPendingChunk)
deriving DecidableEq

def Packet.body : Packet → List UInt8
  | .metadata body => body
  | .page chunk => chunk.body

def Packet.page? : Packet → Option ReporterPendingChunk
  | .metadata _ => none
  | .page chunk => some chunk

/-- The machine, and what it has seen and done. -/
structure Sender where
  store : ReporterStore
  stage : Stage
  /-- The cursor that the cycle holds. -/
  state : ReporterCursorState
  /-- How the last cycle ended, when a call of its own ended it. -/
  ended : Option PulseError
  /-- The snapshots that the tables have had. -/
  seen : List StoredUsageSnapshot
  /-- What request ids were made from. -/
  hashed : List (List UInt8)
  /-- The documents of the pages that were committed, and the rows of these. -/
  done : List ReporterPendingChunk
  doneRows : PageRows
  pendingRows : PageRows
  /-- The token rows that were there when the sweep began and have not changed,
  and how many were done before. -/
  steady : List TokenGrain
  sweepFrom : Nat

namespace Sender

/-- What a sender takes a turn at. -/
inductive Label
  | write (tables : Tables)
  | start (profiles : List ReportedProfile) (contexts : List ContextSession) (quotas : List GeminiQuota)
  | call
  | acknowledged
  | stop

variable (crates : ReporterCrates) (accountId : AccountId) (machine : MachineName)

/-- The rows of the machine. -/
def tokenRows (machine : MachineName) (tables : Tables) : List TokenGrain :=
  tables.tokens.rows.filter fun grain => grain.machine = machine

/-- A machine before its first cycle. -/
def initial (tables : Tables) (destinations : Nat) : Sender where
  store := ⟨tables, destinations, none, fun _ => none, 0⟩
  stage := .idle
  state := .default
  ended := none
  seen := tables.usage.rows
  hashed := []
  done := []
  doneRows := .none
  pendingRows := .none
  steady := tokenRows machine tables
  sweepFrom := 0

/-- What the ids of metadata documents are made from. -/
def metadataHashed (bodies : List (List UInt8)) : List (List UInt8) :=
  bodies.filterMap fun body => (crates.fromSlice body).bind fun envelope => crates.batchJson envelope.batch

/-- What the ids of a page's documents are made from. -/
def draftHashed (draft : ReporterPendingDraft) : List (List UInt8) :=
  draft.chunks.zipIdx.filterMap fun entry => (crates.fromSlice entry.1.body).bind fun envelope =>
    crates.identityJson ⟨accountId, machine, draft.kind, draft.expected, draft.next, entry.2, envelope.batch⟩

variable (sender : Sender)

/-- A cycle that a call of its own ends. -/
def fail (e : PulseError) : Sender := { sender with stage := .idle, ended := some e }

/-- `ensure_pending_expected`, and the documents are sent. -/
def takePage (page : ReporterPendingPage) (drains pages : List ReporterStreamKind) : Sender :=
  if page.draft.expected ≠ sender.state then
    sender.fail (ReporterStore.outboxConflict "Pulse reporter outbox does not match its durable cursor")
  else { sender with stage := .sending page page.draft.chunks drains pages }

/-- The page of some rows: a new one, under the cursor that follows. -/
def draftPage (kind : ReporterStreamKind) (next : ReporterCursorState) (read : PageRows) (pages : List ReporterStreamKind) :
    Sender :=
  match reporterPendingDraft crates accountId machine kind sender.state next read.batch with
  | .error e => sender.fail e
  | .ok draft =>
    { sender with
      stage := .preparing draft read pages
      hashed := sender.hashed ++ draftHashed crates accountId machine draft }

/-- The next call of the cycle and what it goes on with. A loop that breaks
leaves out what is left of its stream. -/
def call : Option Sender :=
  match sender.stage with
  | .idle => none
  | .metadata (_ :: _) => none
  | .metadata [] =>
    match sender.store.loadReporterCursor machine with
    | .error e => some (sender.fail e)
    | .ok (store, state) =>
      some { sender with
        store
        state
        stage := .turn [.usage, .token]
          (.replicate maxCoordinatorPagesPerKind .usage ++ .replicate maxCoordinatorPagesPerKind .token) }
  | .turn (kind :: drains) pages =>
    match sender.store.loadReporterPending crates accountId machine kind with
    | .error e => some (sender.fail e)
    | .ok none => some { sender with stage := .turn drains pages }
    | .ok (some page) => some (sender.takePage page drains pages)
  | .turn [] [] => some { sender with stage := .idle, ended := none }
  | .turn [] (kind :: pages) =>
    match sender.store.loadReporterPending crates accountId machine kind with
    | .error e => some (sender.fail e)
    | .ok none => some { sender with stage := .reading kind pages }
    | .ok (some page) => some (sender.takePage page [] pages)
  | .reading .usage pages =>
    match sender.store.localReporterUsagePage machine sender.state.usageAfterId coordinatorPageRows with
    | .error e => some (sender.fail e)
    | .ok rows =>
      match rows.getLast? with
      | none => some { sender with stage := .turn [] (pages.dropWhile (· = .usage)) }
      | some last =>
        some (sender.draftPage crates accountId machine .usage { sender.state with usageAfterId := last.id } ⟨rows, []⟩ pages)
  | .reading .token pages =>
    let rows := sender.store.localReporterTokenPage machine sender.state.tokenAfter coordinatorPageRows
    match rows.getLast? with
    | none =>
      if sender.state.tokenAfter.isSome then
        let next :=
          { sender.state with tokenAfter := none, tokenGeneration := min (sender.state.tokenGeneration + 1) (2 ^ 64 - 1) }
        some { sender with stage := .advancing next (pages.dropWhile (· = .token)) }
      else some { sender with stage := .turn [] (pages.dropWhile (· = .token)) }
    | some last =>
      some (sender.draftPage crates accountId machine .token { sender.state with tokenAfter := some (.fromGrain last) }
        ⟨[], rows⟩ pages)
  | .preparing draft read pages =>
    match sender.store.prepareReporterPending crates accountId machine draft with
    | .error e => some (sender.fail e)
    | .ok (store, page) => some ({ sender with store, pendingRows := read }.takePage page [] pages)
  | .advancing next pages =>
    match sender.store.advanceReporterCursor sender.state next with
    | .error e => some (sender.fail e)
    | .ok (store, state) =>
      some { sender with
        store
        state
        stage := .turn [] pages
        steady := tokenRows machine sender.store.tables
        sweepFrom := sender.doneRows.tokens.length }
  | .sending _ (_ :: _) _ _ => none
  | .sending page [] drains pages =>
    match sender.store.commitReporterPending crates accountId machine page.draft.kind page.id with
    | .error e => some (sender.fail e)
    | .ok (store, state) =>
      some { sender with
        store
        state
        stage := .turn drains pages
        done := sender.done ++ page.draft.chunks
        doneRows := ⟨sender.doneRows.usage ++ sender.pendingRows.usage, sender.doneRows.tokens ++ sender.pendingRows.tokens⟩
        pendingRows := .none }

/-- The document that is sent, and sent again. -/
def current : Option Packet :=
  match sender.stage with
  | .metadata (body :: _) => some (.metadata body)
  | .sending _ (chunk :: _) _ _ => some (.page chunk)
  | _ => none

/-- The cycle goes on to the next document. -/
def acknowledged : Option Sender :=
  match sender.stage with
  | .metadata (_ :: rest) => some { sender with stage := .metadata rest }
  | .sending page (_ :: rest) drains pages => some { sender with stage := .sending page rest drains pages }
  | _ => none

/-- A cycle begins with the documents of the metadata. -/
def begin (profiles : List ReportedProfile) (contexts : List ContextSession) (quotas : List GeminiQuota) : Option Sender :=
  match sender.stage with
  | .idle =>
    match deterministicChunks crates accountId machine ⟨profiles, [], [], contexts, quotas⟩ with
    | .error e => some (sender.fail e)
    | .ok chunks =>
      let bodies := chunks.map Prod.fst
      some { sender with stage := .metadata bodies, hashed := sender.hashed ++ metadataHashed crates bodies }
  | _ => none

def write (tables : Tables) : Option Sender :=
  if sender.store.tables.Later tables then
    some { sender with
      store := { sender.store with tables }
      seen := sender.seen ++ tables.usage.rows
      steady := sender.steady.filter fun grain => grain ∈ tables.tokens.rows }
  else none

def step : Label → Option Sender
  | .write tables => sender.write tables
  | .start profiles contexts quotas => sender.begin crates accountId machine profiles contexts quotas
  | .call => sender.call crates accountId machine
  | .acknowledged => sender.acknowledged
  | .stop => some { sender with stage := .idle, ended := none }

end Sender

/-! ## The network and the receiver -/

/-- The replays that the receiver has of a machine. -/
def ownReplays (machine : MachineName) (store : IngestStore) : List IngestReplay :=
  (store.replays.rows.filter fun stored => stored.machine = machine).map StoredReplay.replay

/-- Whom the receiver takes the documents to be from, and its limits. -/
structure Destination where
  accountId : AccountId
  machine : MachineName
  limits : IngestLimits

structure Push where
  sender : Sender
  receiver : IngestStore
  sent : List Packet
  /-- What the receiver has answered to without an error. -/
  answered : List Packet
  /-- What the receiver has stored, in its order, and the rows of it. -/
  stored : List Packet
  storedUsage : List UsageSnapshot
  storedTokens : List TokenGrain

namespace Push

inductive Label
  | sender (label : Sender.Label)
  | send
  | deliver (packet : Packet)
  /-- Another connection's transaction at the receiver. -/
  | others (receiver : IngestStore)

variable (crates : ReporterCrates) (accountId : AccountId) (machine : MachineName) (destination : Destination)

def initial (sender : Sender) (receiver : IngestStore) : Push := ⟨sender, receiver, [], [], [], [], []⟩

variable (push : Push)

/-- A document arrives. -/
def deliver (packet : Packet) : Push :=
  match decodePushBody crates.toPushCrates destination.accountId destination.machine destination.limits packet.body with
  | .error _ => push
  | .ok decoded =>
    match push.receiver.ingestBatchOnce crates.toCrates destination.accountId destination.machine decoded.batch
        destination.limits decoded.replay with
    | .error _ => push
    | .ok (receiver, outcome) =>
      if outcome.replayed then { push with receiver, answered := packet :: push.answered }
      else
        { push with
          receiver
          answered := packet :: push.answered
          stored := push.stored ++ [packet]
          storedUsage := push.storedUsage ++ decoded.batch.snapshots
          storedTokens := push.storedTokens ++ decoded.batch.tokenGrains }

/-- A cycle hears that its document was taken only if the receiver said so. -/
def heard : Sender.Label → Bool
  | .acknowledged => push.sender.current.any fun packet => decide (packet ∈ push.answered)
  | _ => true

def step : Label → Option Push
  | .sender label =>
    if push.heard label then (push.sender.step crates accountId machine label).map fun sender => { push with sender }
    else none
  | .send => push.sender.current.map fun packet => { push with sent := packet :: push.sent }
  | .deliver packet => if packet ∈ push.sent then some (push.deliver crates destination packet) else none
  | .others receiver =>
    if ownReplays destination.machine receiver = ownReplays destination.machine push.receiver then some { push with receiver }
    else none

end Push

end Atmux.Pulse
