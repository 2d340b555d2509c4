/-
What a request leaves behind, however it ends.

The batch and the request's id are stored in one transaction, so a request that
fails before it has stored nothing. The use of the token is noted in another,
later one, and a failure there is answered like the others although the batch
is stored (`receive_lawful_iff`).
-/
import Atmux.Pulse.Stored
import Atmux.Pulse.Receiver

namespace Atmux.Pulse

open Lib

namespace IngestStore

variable {crates : Crates} {accountId : AccountId} {machine : MachineName} {store store' : IngestStore} {batch : IngestBatch}
  {limits : IngestLimits} {replay : IngestReplay} {outcome : IdempotentIngestResult}

/-! ## One batch -/

theorem validateIngestScope_ok (h : validateIngestScope accountId machine batch limits = .ok ()) :
    batch.inScope accountId machine := by
  unfold validateIngestScope at h
  obtain ⟨-, h⟩ := guard_ok h
  obtain ⟨hscope, -⟩ := guard_ok h
  exact not_not.mp hscope

/-- A request is answered from what is remembered, or stored and remembered. -/
theorem ingestBatchOnce_ok
    (h : store.ingestBatchOnce crates accountId machine batch limits replay = .ok (store', outcome)) :
    batch.inScope accountId machine ∧
      ((∃ existing, store.replayed machine replay.requestId = some existing ∧
          existing.replay.payloadFingerprint = replay.payloadFingerprint ∧ store' = store ∧
          outcome = ⟨existing.result, true⟩) ∨
        store.replayed machine replay.requestId = none ∧ store.replays.rows.length < maxIngestReplaysPerAccount ∧
          store.enforceIngestCaps batch limits = .ok () ∧ ∃ stored, store.storeBatch crates batch = .ok stored ∧
            store' = { stored with replays := stored.replays.upsert ⟨machine, replay, batch.result⟩ } ∧
            outcome = ⟨batch.result, false⟩) := by
  obtain ⟨_, hscope, h⟩ := bind_ok h
  obtain ⟨_, -, h⟩ := bind_ok h
  refine ⟨validateIngestScope_ok hscope, ?_⟩
  split at h
  next existing hfind =>
    obtain ⟨hsame, h⟩ := guard_ok h
    obtain ⟨rfl, rfl⟩ := Prod.mk.inj (Except.ok.inj h)
    exact .inl ⟨existing, hfind, not_not.mp hsame, rfl, rfl⟩
  next hfind =>
    obtain ⟨hroom, h⟩ := guard_ok h
    obtain ⟨_, hcaps, h⟩ := bind_ok h
    obtain ⟨stored, hstored, h⟩ := bind_ok h
    obtain ⟨-, h⟩ := guard_ok h
    obtain ⟨rfl, rfl⟩ := Prod.mk.inj (Except.ok.inj h)
    exact .inr ⟨hfind, not_le.mp hroom, hcaps, stored, hstored, rfl, rfl⟩

/-- What was stored or answered is remembered. -/
theorem replayed_of_ingestBatchOnce
    (h : store.ingestBatchOnce crates accountId machine batch limits replay = .ok (store', outcome)) :
    ∃ existing, store'.replayed machine replay.requestId = some existing ∧
      existing.replay.payloadFingerprint = replay.payloadFingerprint ∧ existing.result = outcome.result := by
  obtain ⟨-, ⟨existing, hfind, hsame, rfl, rfl⟩ | ⟨-, -, -, stored, -, rfl, rfl⟩⟩ := ingestBatchOnce_ok h
  · exact ⟨existing, hfind, hsame, rfl⟩
  · exact ⟨⟨machine, replay, batch.result⟩, Table.find?_upsert_self, rfl, rfl⟩

/-- Under an id that is remembered nothing is stored. -/
theorem ingestBatchOnce_remembered {existing : StoredReplay} (hfind : store.replayed machine replay.requestId = some existing)
    (h : store.ingestBatchOnce crates accountId machine batch limits replay = .ok (store', outcome)) :
    store' = store ∧ outcome = ⟨existing.result, true⟩ ∧
      existing.replay.payloadFingerprint = replay.payloadFingerprint := by
  obtain ⟨-, ⟨other, hother, hsame, rfl, rfl⟩ | ⟨hnone, -⟩⟩ := ingestBatchOnce_ok h
  · obtain rfl := Option.some.inj (hfind.symm.trans hother)
    exact ⟨rfl, rfl, hsame⟩
  · rw [hfind] at hnone
    cases hnone

/-- A batch that was stored before is answered from what is remembered. -/
theorem ingestBatchOnce_again {before after : IngestStore} {first : IdempotentIngestResult} {existing : StoredReplay}
    (hfirst : before.ingestBatchOnce crates accountId machine batch limits replay = .ok (after, first))
    (hfind : store.replayed machine replay.requestId = some existing)
    (hsame : existing.replay.payloadFingerprint = replay.payloadFingerprint) :
    store.ingestBatchOnce crates accountId machine batch limits replay = .ok (store, ⟨existing.result, true⟩) := by
  obtain ⟨⟨⟩, hscope, hfirst⟩ := bind_ok hfirst
  obtain ⟨⟨⟩, hreplay, -⟩ := bind_ok hfirst
  simp [ingestBatchOnce, hscope, hreplay, hfind, hsame, bind, Except.bind, pure, Except.pure]

/-! ## Caps -/

/-- An account's rows are within their caps. -/
structure WithinCaps (limits : IngestLimits) (store : IngestStore) : Prop where
  profiles : store.tables.profiles.rows.length ≤ limits.maxProfiles
  snapshots : store.tables.usage.rows.length ≤ limits.maxUsageSnapshots
  tokens : store.tables.tokens.rows.length ≤ limits.maxTokenRows
  contexts : store.tables.contexts.rows.length ≤ limits.maxContextSessions
  gemini : store.gemini.rows.length ≤ limits.maxGeminiModels
  replays : store.replays.rows.length ≤ maxIngestReplaysPerAccount

theorem length_rows_upsert_le {K R : Type} [LinearOrder K] {key : R → K} {table : Table key} {row : R} :
    (table.upsert row).rows.length ≤ table.rows.length + 1 := by
  have hadds : Adds (fun _ => True) table [key row] (table.upsert row) := adds_upsert trivial
  have hone : newKeys table.toSortedMap [key row] ≤ 1 := List.length_filter_le _ _
  exact hadds.length_rows_le.trans (Nat.add_le_add_left hone _)

theorem Grows.withinCaps (h : store.Grows accountId machine batch store') (hcaps : store.enforceIngestCaps batch limits = .ok ())
    (hroom : store.replays.rows.length < maxIngestReplaysPerAccount) (row : StoredReplay) :
    WithinCaps limits { store' with replays := store'.replays.upsert row } := by
  unfold enforceIngestCaps at hcaps
  split at hcaps
  · cases hcaps
  next hwithin =>
    simp only [not_or, not_lt] at hwithin
    obtain ⟨hprofiles, hsnapshots, htokens, hcontexts, hgemini⟩ := hwithin
    have hreplays : store'.replays.rows.length < maxIngestReplaysPerAccount := h.replays ▸ hroom
    exact {
      profiles := h.tables.profiles.length_rows_le.trans hprofiles
      snapshots := h.tables.snapshots.trans hsnapshots
      tokens := h.tables.tokens.length_rows_le.trans htokens
      contexts := h.tables.contexts.length_rows_le.trans hcontexts
      gemini := h.gemini.length_rows_le.trans hgemini
      replays := length_rows_upsert_le.trans hreplays }

end IngestStore

/-! ## One request -/

/-- The token's use can be noted once the batch is stored: it is still there
and not revoked, and the store does not fail. -/
def Meanwhile.Touchable (meanwhile : Meanwhile) (token : AuthenticatedIngestToken) (left : Database) : Prop :=
  meanwhile.touchFault = none ∧
    (((meanwhile.beforeTouch left).getIngestToken token.accountId token.id).filter fun stored => stored.revokedAt = none).isSome

/-- No row is there that was not, and none was changed. -/
def SameRows (found left : Database) : Prop :=
  ∀ accountId, (left.stores accountId).tables = (found.stores accountId).tables ∧
    (left.stores accountId).gemini = (found.stores accountId).gemini

/-- What was written is the token's. -/
structure Confined (token : AuthenticatedIngestToken) (limits : IngestLimits) (found left : Database) : Prop where
  accounts : ∀ accountId, accountId ≠ token.accountId → left.stores accountId = found.stores accountId
  snapshots : ∀ stored ∈ (left.stores token.accountId).tables.usage.rows,
    stored ∈ (found.stores token.accountId).tables.usage.rows ∨
      stored.snapshot.accountId = token.accountId ∧ stored.snapshot.machine = token.machine
  tokens : ∀ row ∈ (left.stores token.accountId).tables.tokens.rows,
    row ∈ (found.stores token.accountId).tables.tokens.rows ∨
      row.accountId = token.accountId ∧ row.machine = token.machine
  contexts : ∀ row ∈ (left.stores token.accountId).tables.contexts.rows,
    row ∈ (found.stores token.accountId).tables.contexts.rows ∨
      row.accountId = token.accountId ∧ row.machine = token.machine
  locals : ∀ profile ∈ (found.stores token.accountId).tables.profiles.rows, profile.origin = .local →
    profile ∈ (left.stores token.accountId).tables.profiles.rows
  caps : left.stores token.accountId = found.stores token.accountId ∨
    (left.stores token.accountId).WithinCaps limits

namespace IngestReceiver

variable (receiver : IngestReceiver) (crates : PushCrates)

/-- A request under an id that is remembered as it was left, from a reporter of
the same account and machine. -/
def Repeats (token : AuthenticatedIngestToken) (requestId : String) (left later : Database) (request : ReceiverRequest)
    (meanwhile : Meanwhile) (token' : AuthenticatedIngestToken) : Prop :=
  ∃ decoded, receiver.accept crates later request meanwhile = .ok (token', decoded) ∧
    token'.accountId = token.accountId ∧ token'.machine = token.machine ∧ decoded.replay.requestId = requestId ∧
    ((meanwhile.beforeIngest later).stores token.accountId).replayed token.machine requestId =
      (left.stores token.accountId).replayed token.machine requestId

/-- A request that repeats another one changes nothing. With the other's bytes
it gets its counts, and with bytes of another digest it is refused. -/
structure Once (token : AuthenticatedIngestToken) (requestId : String) (body : List UInt8) (result : IngestResult)
    (left later : Database) (request : ReceiverRequest) (meanwhile : Meanwhile) (token' : AuthenticatedIngestToken) : Prop where
  nothing : (receiver.receive crates later request meanwhile).left = (receiver.receive crates later request meanwhile).found
  answered : request.body = body → meanwhile.ingestFault = none →
    meanwhile.Touchable token' (meanwhile.beforeIngest later) →
    (receiver.receive crates later request meanwhile).answer = .ok ⟨result, true⟩
  refused : sha256Hex crates request.body ≠ sha256Hex crates body →
    ∃ e, (receiver.receive crates later request meanwhile).answer = .error e

/-- All or nothing, once, and within the token's scope. -/
structure Lawful (database : Database) (request : ReceiverRequest) (meanwhile : Meanwhile) (received : Received) : Prop where
  nothing : ∀ e, received.answer = .error e → SameRows received.found received.left
  stored : ∀ result, received.answer = .ok result → ∃ token decoded,
    receiver.accept crates database request meanwhile = .ok (token, decoded) ∧
      Confined token receiver.limits received.found received.left ∧
      ∀ later request' meanwhile' token',
        receiver.Repeats crates token decoded.replay.requestId received.left later request' meanwhile' token' →
        receiver.Once crates token decoded.replay.requestId request.body result.result received.left later request'
          meanwhile' token'

/-- The request's batch is stored, and leaves the account's store other than it was. -/
def Commits (database : Database) (request : ReceiverRequest) (meanwhile : Meanwhile) (token : AuthenticatedIngestToken)
    (store : IngestStore) : Prop :=
  meanwhile.ingestFault = none ∧ ∃ decoded, receiver.accept crates database request meanwhile = .ok (token, decoded) ∧
    let found := (meanwhile.beforeIngest database).stores token.accountId
    ∃ result, found.ingestBatchOnce crates.toCrates token.accountId token.machine decoded.batch receiver.limits
        decoded.replay = .ok (store, result) ∧
      ¬ (store.tables = found.tables ∧ store.gemini = found.gemini)

variable {receiver crates} {database : Database} {request : ReceiverRequest} {meanwhile : Meanwhile}
  {token : AuthenticatedIngestToken} {decoded : DecodedPush}

theorem accept_ok (h : receiver.accept crates database request meanwhile = .ok (token, decoded)) :
    decodePushBody crates token.accountId token.machine receiver.limits request.body = .ok decoded := by
  unfold accept at h
  obtain ⟨-, h⟩ := guard_ok h
  obtain ⟨-, h⟩ := guard_ok h
  obtain ⟨-, h⟩ := guard_ok h
  obtain ⟨authenticated, -, h⟩ := bind_ok h
  obtain ⟨-, h⟩ := guard_ok h
  obtain ⟨decoded', hdecoded, h⟩ := bind_ok h
  obtain ⟨rfl, rfl⟩ := Prod.mk.inj (Except.ok.inj h)
  exact hdecoded

theorem fingerprint_of_decodePushBody {limits : IngestLimits} {body : List UInt8} {accountId : AccountId}
    {machine : MachineName} (h : decodePushBody crates accountId machine limits body = .ok decoded) :
    decoded.replay.payloadFingerprint = sha256Hex crates body := by
  unfold decodePushBody at h
  obtain ⟨-, h⟩ := guard_ok h
  split at h
  case h_2 => cases h
  obtain ⟨_, -, h⟩ := bind_ok h
  split at h
  case h_2 => cases h
  obtain ⟨-, h⟩ := guard_ok h
  obtain ⟨_, -, h⟩ := bind_ok h
  obtain ⟨_, -, h⟩ := bind_ok h
  obtain ⟨-, h⟩ := guard_ok h
  obtain ⟨_, -, h⟩ := bind_ok h
  obtain rfl := Except.ok.inj h
  rfl

theorem ingest_ok {found left : Database} {result : IdempotentIngestResult}
    (h : receiver.ingest crates found meanwhile token decoded = .ok (left, result)) :
    meanwhile.ingestFault = none ∧ ∃ store, left = found.setStore token.accountId store ∧
      (found.stores token.accountId).ingestBatchOnce crates.toCrates token.accountId token.machine decoded.batch
        receiver.limits decoded.replay = .ok (store, result) := by
  unfold ingest at h
  split at h
  · cases h
  next hfault =>
    obtain ⟨⟨store, result'⟩, hstore, h⟩ := bind_ok h
    obtain ⟨rfl, rfl⟩ := Prod.mk.inj (Except.ok.inj h)
    exact ⟨Option.eq_none_iff_forall_ne_some.mpr hfault, store, rfl, hstore⟩

theorem touch_ok_iff {left : Database} (usedAt : Int) :
    (∃ last, touch (meanwhile.beforeTouch left) meanwhile token usedAt = .ok last) ↔ meanwhile.Touchable token left := by
  unfold touch Meanwhile.Touchable Database.touchIngestToken
  cases meanwhile.touchFault with
  | some e => simp [throw, throwThe, MonadExceptOf.throw, bind, Except.bind]
  | none =>
    cases ((meanwhile.beforeTouch left).getIngestToken token.accountId token.id).filter fun stored =>
      stored.revokedAt = none with
    | none => simp [throw, throwThe, MonadExceptOf.throw, bind, Except.bind]
    | some stored => simp [pure, Except.pure]

variable (receiver crates database request meanwhile) in
/-- A request ends before its batch is stored, or stores it and ends as the
use of its token does. -/
theorem receive_cases :
    ((∃ e, (receiver.receive crates database request meanwhile).answer = .error e) ∧
        (receiver.receive crates database request meanwhile).left = (receiver.receive crates database request meanwhile).found ∧
        ∀ token decoded stored, meanwhile.ingestFault = none →
          receiver.accept crates database request meanwhile = .ok (token, decoded) →
          ((meanwhile.beforeIngest database).stores token.accountId).ingestBatchOnce crates.toCrates token.accountId
            token.machine decoded.batch receiver.limits decoded.replay ≠ .ok stored) ∨
      ∃ token decoded store result, meanwhile.ingestFault = none ∧
        receiver.accept crates database request meanwhile = .ok (token, decoded) ∧
        ((meanwhile.beforeIngest database).stores token.accountId).ingestBatchOnce crates.toCrates token.accountId
          token.machine decoded.batch receiver.limits decoded.replay = .ok (store, result) ∧
        (receiver.receive crates database request meanwhile).found = meanwhile.beforeIngest database ∧
        (receiver.receive crates database request meanwhile).left =
          (meanwhile.beforeIngest database).setStore token.accountId store ∧
        (meanwhile.Touchable token ((meanwhile.beforeIngest database).setStore token.accountId store) ∧
            (receiver.receive crates database request meanwhile).answer = .ok result ∨
          ¬ meanwhile.Touchable token ((meanwhile.beforeIngest database).setStore token.accountId store) ∧
            ∃ e, (receiver.receive crates database request meanwhile).answer = .error e) := by
  unfold receive
  split
  next e haccept =>
    refine .inl ⟨⟨e, rfl⟩, rfl, ?_⟩
    intro token decoded stored _ hdecoded
    rw [haccept] at hdecoded
    cases hdecoded
  next token decoded haccept =>
    dsimp only
    split
    next e hingest =>
      refine .inl ⟨⟨e, rfl⟩, rfl, ?_⟩
      intro token' decoded' stored hfault haccept' hok
      obtain ⟨rfl, rfl⟩ := Prod.mk.inj (Except.ok.inj (haccept.symm.trans haccept'))
      simp [ingest, hfault, hok, bind, Except.bind, pure, Except.pure] at hingest
    next left result hingest =>
      obtain ⟨hfault, store, rfl, hstore⟩ := ingest_ok hingest
      refine .inr ⟨token, decoded, store, result, hfault, haccept, hstore, ?_⟩
      rw [← touch_ok_iff request.receivedAt]
      split
      next e htouch => exact ⟨rfl, rfl, .inr ⟨fun ⟨last, hlast⟩ => (by rw [htouch] at hlast; cases hlast), e, rfl⟩⟩
      next last htouch => exact ⟨rfl, rfl, .inl ⟨⟨last, htouch⟩, rfl⟩⟩

/-! ## Lawful requests -/

variable {found : Database} {store : IngestStore} {result : IdempotentIngestResult}

theorem stores_setStore {accountId : AccountId} : (found.setStore accountId store).stores accountId = store :=
  Function.update_self ..

theorem confined_of_ingestBatchOnce
    (h : (found.stores token.accountId).ingestBatchOnce crates.toCrates token.accountId token.machine decoded.batch
      receiver.limits decoded.replay = .ok (store, result)) :
    Confined token receiver.limits found (found.setStore token.accountId store) := by
  have hothers : ∀ accountId, accountId ≠ token.accountId →
      (found.setStore token.accountId store).stores accountId = found.stores accountId :=
    fun accountId hne => Function.update_of_ne hne ..
  obtain ⟨hscope, ⟨existing, -, -, rfl, -⟩ | ⟨-, hroom, hcaps, stored, hstored, rfl, -⟩⟩ := IngestStore.ingestBatchOnce_ok h
  · refine ⟨hothers, ?_, ?_, ?_, ?_, .inl stores_setStore⟩ <;> rw [stores_setStore]
    · exact fun _ h => .inl h
    · exact fun _ h => .inl h
    · exact fun _ h => .inl h
    · exact fun _ h _ => h
  · have hgrows := IngestStore.storeBatch_grows hscope hstored
    refine ⟨hothers, ?_, ?_, ?_, ?_, .inr ?_⟩ <;> rw [stores_setStore]
    · exact hgrows.tables.usage
    · exact hgrows.tables.tokens.mem
    · exact hgrows.tables.contexts.mem
    · exact hgrows.tables.locals
    · exact hgrows.withinCaps hcaps hroom _

/-- A store that is put back is the one that is there. -/
theorem setStore_self {accountId : AccountId} : found.setStore accountId (found.stores accountId) = found := by
  simp [Database.setStore]

theorem once_of_repeats {left later : Database} {request' : ReceiverRequest} {meanwhile' : Meanwhile}
    {token' : AuthenticatedIngestToken} (haccept : receiver.accept crates database request meanwhile = .ok (token, decoded))
    (h : (found.stores token.accountId).ingestBatchOnce crates.toCrates token.accountId token.machine decoded.batch
      receiver.limits decoded.replay = .ok (store, result)) (hleft : left.stores token.accountId = store)
    (hrepeats : receiver.Repeats crates token decoded.replay.requestId left later request' meanwhile' token') :
    receiver.Once crates token decoded.replay.requestId request.body result.result left later request' meanwhile' token' := by
  obtain ⟨decoded', haccept', haccount, hmachine, hid, hremembered⟩ := hrepeats
  obtain ⟨existing, hexisting, hfingerprint, hresult⟩ := IngestStore.replayed_of_ingestBatchOnce h
  rw [hleft, hexisting, ← hid, ← haccount, ← hmachine] at hremembered
  have hbody := fingerprint_of_decodePushBody (accept_ok haccept)
  have hbody' := fingerprint_of_decodePushBody (accept_ok haccept')
  -- the same bytes are the same batch, which is answered from what is remembered
  have hagain (hrequest : request'.body = request.body) :
      (((meanwhile'.beforeIngest later).stores token'.accountId).ingestBatchOnce crates.toCrates token'.accountId
        token'.machine decoded'.batch receiver.limits decoded'.replay) =
        .ok ((meanwhile'.beforeIngest later).stores token'.accountId, ⟨existing.result, true⟩) := by
    have hdecoded := accept_ok haccept'
    rw [hrequest, haccount, hmachine, accept_ok haccept] at hdecoded
    obtain rfl := Except.ok.inj hdecoded
    rw [haccount, hmachine] at hremembered ⊢
    exact IngestStore.ingestBatchOnce_again h hremembered hfingerprint
  rcases receive_cases receiver crates later request' meanwhile' with
    ⟨herror, hsame, hnone⟩ | ⟨token'', decoded'', store', result', -, haccept'', hstore', hfound, hleft', hanswer⟩
  · refine ⟨hsame, fun hrequest hfault _ => ?_, fun _ => herror⟩
    exact absurd (hagain hrequest) (hnone token' decoded' _ hfault haccept')
  · obtain ⟨rfl, rfl⟩ := Prod.mk.inj (Except.ok.inj (haccept'.symm.trans haccept''))
    obtain ⟨rfl, rfl, hsame⟩ := IngestStore.ingestBatchOnce_remembered hremembered hstore'
    rw [setStore_self] at hleft' hanswer
    refine ⟨hleft'.trans hfound.symm, fun _ _ htouch => ?_, fun hdiffers => ?_⟩
    · rcases hanswer with ⟨-, hanswer⟩ | ⟨hrevoked, -⟩
      · rw [hanswer, hresult]
      · exact absurd htouch hrevoked
    · exact absurd (hbody'.symm.trans (hsame.symm.trans (hfingerprint.trans hbody))) hdiffers

/-- **A request is lawful unless its token is lost once its batch is stored.** -/
theorem receive_lawful_iff (receiver : IngestReceiver) (crates : PushCrates) (database : Database) (request : ReceiverRequest)
    (meanwhile : Meanwhile) :
    receiver.Lawful crates database request meanwhile (receiver.receive crates database request meanwhile) ↔
      ∀ token store, receiver.Commits crates database request meanwhile token store →
        meanwhile.Touchable token ((meanwhile.beforeIngest database).setStore token.accountId store) := by
  constructor
  · rintro hlawful token store ⟨hfault, decoded, haccept, result, hstore, hchanges⟩
    rcases receive_cases receiver crates database request meanwhile with
      ⟨-, -, hnone⟩ | ⟨token', decoded', store', result', -, haccept', hstore', hfound, hleft, ⟨htouch, -⟩ | ⟨-, e, herror⟩⟩
    · exact absurd hstore (hnone token decoded _ hfault haccept)
    · obtain ⟨rfl, rfl⟩ := Prod.mk.inj (Except.ok.inj (haccept.symm.trans haccept'))
      obtain ⟨rfl, rfl⟩ := Prod.mk.inj (Except.ok.inj (hstore.symm.trans hstore'))
      exact htouch
    · obtain ⟨rfl, rfl⟩ := Prod.mk.inj (Except.ok.inj (haccept.symm.trans haccept'))
      obtain ⟨rfl, rfl⟩ := Prod.mk.inj (Except.ok.inj (hstore.symm.trans hstore'))
      have hsame := hlawful.nothing e herror token.accountId
      rw [hleft, hfound, stores_setStore] at hsame
      exact absurd hsame hchanges
  · intro htouchable
    rcases receive_cases receiver crates database request meanwhile with
      ⟨⟨e, herror⟩, hsame, -⟩ | ⟨token, decoded, store, result, hfault, haccept, hstore, hfound, hleft,
        ⟨-, hanswer⟩ | ⟨hlost, e, herror⟩⟩
    · refine ⟨fun _ _ accountId => (by rw [hsame]; exact ⟨rfl, rfl⟩), fun result hresult => ?_⟩
      rw [herror] at hresult
      cases hresult
    · refine ⟨fun e herror => ?_, fun result' hresult => ⟨token, decoded, haccept, ?_, ?_⟩⟩
      · rw [hanswer] at herror
        cases herror
      · rw [hleft, hfound]
        exact confined_of_ingestBatchOnce hstore
      · rw [hanswer] at hresult
        obtain rfl := Except.ok.inj hresult
        exact fun later request' meanwhile' token' =>
          once_of_repeats haccept hstore (by rw [hleft, stores_setStore])
    · refine ⟨fun _ _ accountId => ?_, fun result' hresult => ?_⟩
      · by_cases hsame : store.tables = ((meanwhile.beforeIngest database).stores token.accountId).tables ∧
            store.gemini = ((meanwhile.beforeIngest database).stores token.accountId).gemini
        · rw [hleft, hfound]
          by_cases haccount : accountId = token.accountId
          · rw [haccount, stores_setStore]
            exact hsame
          · rw [(confined_of_ingestBatchOnce hstore).accounts accountId haccount]
            exact ⟨rfl, rfl⟩
        · exact absurd (htouchable token store ⟨hfault, decoded, haccept, result, hstore, hsame⟩) hlost
      · rw [herror] at hresult
        cases hresult

/-! A request whose token is revoked while it is served. -/

private def quota : GeminiQuota := ⟨firstAccount, "gemini-pro", ⟨0, .inl (Nat.zero_le _)⟩, none, none, 7⟩

private def onlyQuota : PushCrates where
  settingsDigest _ := .replicate 32 0
  dateError _ := none
  digest _ := .replicate 32 0
  parseJson _ := some .null
  decodeEnvelope _ := some ⟨pushVersion, "r1", "atmux/1", none, none, { PushBatch.empty with geminiQuotas := [quota] }⟩

private def listening : IngestReceiver := ⟨true, defaultIngestLimits, ⟨Nat.succ_pos _, by decide⟩⟩

private def issued : Database where
  tokens := Table.empty.upsert ⟨1, firstAccount, laptop, String.ofList (.replicate 64 '0'), 1, none, none⟩
  stores _ := ⟨Tables.empty.putMachine ⟨firstAccount, laptop, 1, 1⟩, .empty, .empty⟩

private def pushed : ReceiverRequest := ⟨true, .tls, "atmux-pulse-v1.1.1." ++ String.ofList (.replicate 43 'a'), [123, 125], 9⟩

private def revokedMeanwhile : Meanwhile where
  ipAllowed := true
  tokenAllowed := true
  lookupFault := none
  beforeIngest database := database
  ingestFault := none
  beforeTouch database := (database.revokeIngestToken firstAccount 1 8).1
  touchFault := none

/-- A request whose token is revoked once its batch is stored is answered with
an error, and the batch stays. -/
theorem revoked_after_store :
    ¬ listening.Lawful onlyQuota issued pushed revokedMeanwhile (listening.receive onlyQuota issued pushed revokedMeanwhile) := by
  have herror : (listening.receive onlyQuota issued pushed revokedMeanwhile).answer = .error authenticationFailed := by decide +kernel
  have hrows : ((listening.receive onlyQuota issued pushed revokedMeanwhile).left.stores firstAccount).gemini.rows = [quota] ∧
      ((listening.receive onlyQuota issued pushed revokedMeanwhile).found.stores firstAccount).gemini.rows = [] := by decide +kernel
  intro hlawful
  have hsame := (hlawful.nothing _ herror firstAccount).2
  rw [hsame, hrows.2] at hrows
  cases hrows.1

end IngestReceiver

end Atmux.Pulse
