/-
What a receiver has stored of a machine's snapshots and token rows.

A turn of the machine is a step of `Lib.Outbox` or leaves its documents alone
(`Sender.outbox_step`), and so is one of the network (`Push.Kept.step`). What
the receiver has stored is then a prefix of the pages in their order, however
cycles were stopped and documents lost, repeated and delayed.
-/
import Atmux.Lib.Runs
import Atmux.Pulse.Delivery

namespace Atmux.Pulse

open Lib

variable {crates : ReporterCrates} {accountId : AccountId} {machine : MachineName}

namespace Sender

variable {sender sender' : Sender}

/-! ## Turns of the machine -/

/-- What a call does to the documents: nothing, or it puts a page in place of
none, or it is done with the page. -/
inductive Turned (sender sender' : Sender) : Prop
  | same (done : sender'.done = sender.done) (page : sender'.page = sender.page) (acked : sender'.acked = 0)
  | prepared (draft : ReporterPendingDraft) (read : PageRows) (pages : List ReporterStreamKind)
      (stage : sender.stage = .preparing draft read pages) (done : sender'.done = sender.done)
      (page : sender'.page = draft.chunks) (acked : sender'.acked = 0)
  | committed (page : ReporterPendingPage) (drains pages : List ReporterStreamKind)
      (stage : sender.stage = .sending page [] drains pages) (done : sender'.done = sender.done ++ page.draft.chunks)
      (empty : sender'.page = []) (acked : sender'.acked = 0)

theorem takePage_turned (h : sender.Data crates accountId machine) {kind : ReporterStreamKind} {page : ReporterPendingPage}
    (hcursor : sender.store.cursor = some sender.state) (hpage : sender.store.pending kind = some page)
    (drains pages : List ReporterStreamKind) : (sender.takePage page drains pages).done = sender.done ∧
      (sender.takePage page drains pages).page = sender.page ∧ (sender.takePage page drains pages).acked = 0 := by
  obtain ⟨-, hexpected, -⟩ := h.pending kind page hpage
  have hsame : page.draft.expected = sender.state := Option.some.inj (hexpected.symm.trans hcursor)
  rw [Sender.takePage, if_neg (not_not.mpr hsame)]
  exact ⟨rfl, rfl, Nat.sub_self _⟩

theorem draftPage_turned (kind : ReporterStreamKind) (next : ReporterCursorState) (read : PageRows)
    (pages : List ReporterStreamKind) : Turned sender (sender.draftPage crates accountId machine kind next read pages) := by
  unfold Sender.draftPage
  split
  · exact .same rfl rfl rfl
  · exact .same rfl rfl rfl

theorem Kept.turned (h : sender.Kept crates accountId machine) (hstep : sender.call crates accountId machine = some sender') :
    Turned sender sender' ∨ sender' = { sender with stage := .idle, ended := sender'.ended } := by
  have hstage := h.stage
  unfold Sender.call at hstep
  split at hstep
  next => cases hstep
  next => cases hstep
  next hcase =>
    split at hstep
    next e he =>
      obtain rfl := Option.some.inj hstep
      exact .inr rfl
    next store state hload =>
      obtain rfl := Option.some.inj hstep
      refine .inl (.same rfl ?_ rfl)
      obtain ⟨-, hpending, -⟩ := loadReporterCursor_ok hload
      simp only [Sender.page, hpending]
  next kind drains pages hcase =>
    rw [hcase] at hstage
    rw [h.data.load kind] at hstep
    cases hpage : sender.store.pending kind with
    | none =>
      rw [hpage] at hstep
      obtain rfl := Option.some.inj hstep
      exact .inl (.same rfl rfl rfl)
    | some page =>
      rw [hpage] at hstep
      obtain rfl := Option.some.inj hstep
      obtain ⟨hdone, hsame, hacked⟩ := takePage_turned h.data hstage.1 hpage drains pages
      exact .inl (.same hdone hsame hacked)
  next hcase =>
    obtain rfl := Option.some.inj hstep
    exact .inr rfl
  next kind pages hcase =>
    rw [hcase] at hstage
    rw [h.data.load kind] at hstep
    cases hpage : sender.store.pending kind with
    | none =>
      rw [hpage] at hstep
      obtain rfl := Option.some.inj hstep
      exact .inl (.same rfl rfl rfl)
    | some page =>
      rw [hpage] at hstep
      obtain rfl := Option.some.inj hstep
      obtain ⟨hdone, hsame, hacked⟩ := takePage_turned h.data hstage.1 hpage [] pages
      exact .inl (.same hdone hsame hacked)
  next pages hcase =>
    split at hstep
    next e he =>
      obtain rfl := Option.some.inj hstep
      exact .inr rfl
    next rows hrows =>
      split at hstep
      · obtain rfl := Option.some.inj hstep
        exact .inl (.same rfl rfl rfl)
      · obtain rfl := Option.some.inj hstep
        exact .inl (draftPage_turned _ _ _ _)
  next pages hcase =>
    dsimp only at hstep
    split at hstep
    · split at hstep <;>
      · obtain rfl := Option.some.inj hstep
        exact .inl (.same rfl rfl rfl)
    · obtain rfl := Option.some.inj hstep
      exact .inl (draftPage_turned _ _ _ _)
  next draft read pages hcase =>
    rw [hcase] at hstage
    obtain ⟨hcursor, hempty, hexpected, hdrafted⟩ := hstage
    have hcursor' : sender.store.cursor = some draft.expected := hexpected ▸ hcursor
    rw [prepare_eq hdrafted.valid hempty hcursor'] at hstep
    obtain rfl := Option.some.inj hstep
    have hdata := h.data.prepared hempty hcursor' hdrafted
    have hpage : ({ sender.store.putPending draft.kind (some ⟨sender.store.sequence + 1, draft⟩) with
        sequence := sender.store.sequence + 1 } : ReporterStore).pending draft.kind =
        some ⟨sender.store.sequence + 1, draft⟩ := by
      simp [ReporterStore.putPending]
    obtain ⟨hdone, hsame, hacked⟩ := takePage_turned hdata hcursor hpage [] pages
    exact .inl (.prepared draft read pages hcase hdone (hsame.trans (hdata.page_eq hpage)) hacked)
  next next pages hcase =>
    split at hstep
    next e he =>
      obtain rfl := Option.some.inj hstep
      exact .inr rfl
    next store state hadvance =>
      obtain rfl := Option.some.inj hstep
      obtain ⟨rfl, rfl, -⟩ := advance_ok hadvance
      exact .inl (.same rfl rfl rfl)
  next => cases hstep
  next page drains pages hcase =>
    rw [hcase] at hstage
    obtain ⟨hcursor, hpage, -⟩ := hstage
    rw [commit_eq h.data hpage] at hstep
    split at hstep
    next e he =>
      obtain rfl := Option.some.inj hstep
      exact .inr rfl
    next store state hcommit =>
      split at hcommit
      · cases hcommit
      · obtain ⟨rfl, rfl⟩ := Prod.mk.inj (Except.ok.inj hcommit)
        obtain rfl := Option.some.inj hstep
        refine .inl (.committed page drains pages hcase rfl (Empty.page fun kind => ?_) rfl)
        exact (h.data.committed hpage (.turn drains pages)).2 kind

/-- **A turn of the machine is a step of the outbox**, or does not touch the
documents. -/
theorem outbox_step (hlossless : crates.Lossless) {label : Label} {sent applied : List ReporterPendingChunk}
    (h : sender.Kept crates accountId machine) (hfree : CollisionFree crates sender.hashed)
    (hsound : Outbox.Sound ReporterPendingChunk.requestId (sender.outbox sent applied))
    (hheard : label = .acknowledged → ∀ chunk, sender.current = some (.page chunk) →
      chunk.requestId ∈ applied.map ReporterPendingChunk.requestId)
    (hstep : sender.step crates accountId machine label = some sender') :
    sender'.outbox sent applied = sender.outbox sent applied ∨
      Outbox.Step ReporterPendingChunk.requestId (sender.outbox sent applied) (sender'.outbox sent applied) := by
  have hstop : ∀ ended, Outbox.Step ReporterPendingChunk.requestId (sender.outbox sent applied)
      (Sender.outbox { sender with stage := .idle, ended } sent applied) := fun _ => .restart
  cases label with
  | write tables =>
    simp only [Sender.step, Sender.write] at hstep
    split at hstep
    · obtain rfl := Option.some.inj hstep
      exact .inl rfl
    · cases hstep
  | start profiles contexts quotas =>
    simp only [Sender.step, Sender.begin] at hstep
    split at hstep
    next hcase =>
      have hacked : sender.acked = 0 := by rw [acked, hcase]
      split at hstep
      · obtain rfl := Option.some.inj hstep
        exact .inr (hstop _)
      · obtain rfl := Option.some.inj hstep
        refine .inl ?_
        simp only [outbox, hacked]
        rfl
    · cases hstep
  | stop =>
    obtain rfl := Option.some.inj hstep
    exact .inr (hstop _)
  | acknowledged =>
    have hstage := h.stage
    simp only [Sender.step, Sender.acknowledged] at hstep
    split at hstep
    next body rest hcase =>
      obtain rfl := Option.some.inj hstep
      refine .inl ?_
      simp only [outbox, acked, hcase]
      rfl
    next page chunk rest drains pages hcase =>
      obtain rfl := Option.some.inj hstep
      rw [hcase] at hstage
      obtain ⟨-, hpage, before, hsuffix⟩ := hstage
      have hchunks := h.data.page_eq hpage
      have hlength : page.draft.chunks.length = before.length + (rest.length + 1) := by
        rw [← hsuffix, List.length_append, List.length_cons]
      have hacked : sender.acked = before.length := by
        rw [acked, hcase]
        simp only [List.length_cons]
        omega
      have hnext : (Sender.acked { sender with stage := .sending page rest drains pages }) = sender.acked + 1 := by
        rw [hacked]
        show page.draft.chunks.length - rest.length = _
        omega
      refine .inr ?_
      have hget : (sender.outbox sent applied).page[(sender.outbox sent applied).acked]? = some chunk := by
        show sender.page[sender.acked]? = some chunk
        rw [hchunks, hacked, ← hsuffix, List.getElem?_append_right le_rfl, Nat.sub_self, List.getElem?_cons_zero]
      have hmem := hheard rfl chunk (by rw [current, hcase])
      show Outbox.Step _ _ ⟨sender.done, sender.page, Sender.acked _, sent, applied⟩
      rw [hnext]
      exact .acknowledge hget hmem
    next => cases hstep
  | call =>
    rcases h.turned hstep with hturned | heq
    · cases hturned with
      | same hdone hpage hacked =>
        have heq : sender'.outbox sent applied = { sender.outbox sent applied with acked := 0 } := by
          simp only [outbox, hdone, hpage, hacked]
        rw [heq]
        exact .inr .restart
      | prepared draft read pages hcase hdone hpage hacked =>
        have hstage := h.stage
        rw [hcase] at hstage
        obtain ⟨hcursor, hempty, hexpected, hdrafted⟩ := hstage
        have heq : sender'.outbox sent applied = { sender.outbox sent applied with page := draft.chunks, acked := 0 } := by
          simp only [outbox, hdone, hpage, hacked]
        rw [heq]
        refine .inr (.prepare draft.chunks (Empty.page hempty) ?_)
        refine nodup_requestIds hlossless h.data hfree (hexpected ▸ hcursor) hdrafted ?_
        exact hsound.ids.sublist ((List.sublist_append_left _ _).map _)
      | committed page drains pages hcase hdone hpage hacked =>
        have hstage := h.stage
        rw [hcase] at hstage
        have hchunks := h.data.page_eq hstage.2.1
        have heq : sender'.outbox sent applied =
            { sender.outbox sent applied with done := sender.done ++ sender.page, page := [], acked := 0 } := by
          simp only [outbox, hdone, hpage, hacked, hchunks]
        rw [heq]
        refine .inr (.commit ?_)
        show sender.acked = sender.page.length
        rw [acked, hcase, hchunks]
        rfl
    · rw [heq]
      exact .inr (hstop _)

end Sender

/-! ## What a body is decoded to -/

/-- A snapshot as the receiver stores it. -/
def Destination.snapshot (destination : Destination) (row : UsageSnapshot) : UsageSnapshot :=
  { row with
    accountId := destination.accountId
    machine := destination.machine
    reporterVersion := some Pulse.reporterVersion }

/-- A token row as the receiver stores it. -/
def Destination.grain (destination : Destination) (row : TokenGrain) : TokenGrain :=
  { row with accountId := destination.accountId, machine := destination.machine, source := .ingest }

theorem mapM_map {α β ε : Type} {f : α → Except ε β} {g : α → β} {l : List α} {l' : List β} (h : l.mapM f = .ok l')
    (hf : ∀ a b, f a = .ok b → b = g a) : l' = l.map g := by
  have hread := mapM_ok h
  clear h
  induction hread with
  | nil => rfl
  | cons hab _ ih => rw [List.map_cons, hf _ _ hab, ih]

section
variable {destination : Destination} {decoded : DecodedPush} {body : List UInt8} {batch : PushBatch} {requestId : String}

theorem decodeSnapshot_ok {row row' : UsageSnapshot}
    (h : decodeSnapshot destination.accountId destination.machine Pulse.reporterVersion row = .ok row') :
    row' = destination.snapshot row := by
  unfold decodeSnapshot at h
  obtain ⟨-, h⟩ := guard_ok h
  obtain ⟨_, -, h⟩ := bind_ok h
  exact (Except.ok.inj h).symm

theorem decodeGrain_ok {row row' : TokenGrain}
    (h : decodeGrain crates.toPushCrates destination.accountId destination.machine row = .ok row') :
    row' = destination.grain row := by
  obtain ⟨_, -, h⟩ := bind_ok h
  obtain ⟨_, -, h⟩ := bind_ok h
  exact (Except.ok.inj h).symm

/-- A document of the reporter, as the receiver has it. -/
theorem decodePushBody_ok
    (hread : crates.fromSlice body = some (envelopeOf accountId machine requestId batch))
    (h : decodePushBody crates.toPushCrates destination.accountId destination.machine destination.limits body = .ok decoded) :
    decoded.replay = ⟨requestId, sha256Hex crates.toPushCrates body⟩ ∧
      decoded.batch.snapshots = batch.snapshots.map destination.snapshot ∧
      decoded.batch.tokenGrains = batch.tokenGrains.map destination.grain := by
  unfold decodePushBody at h
  obtain ⟨-, h⟩ := guard_ok h
  obtain ⟨value, hvalue, henvelope⟩ := Option.bind_eq_some_iff.mp hread
  rw [hvalue] at h
  obtain ⟨_, -, h⟩ := bind_ok h
  rw [henvelope] at h
  obtain ⟨-, h⟩ := guard_ok h
  obtain ⟨_, -, h⟩ := bind_ok h
  obtain ⟨_, -, h⟩ := bind_ok h
  obtain ⟨-, h⟩ := guard_ok h
  obtain ⟨rows, hrows, h⟩ := bind_ok h
  obtain rfl := Except.ok.inj h
  obtain ⟨_, -, hrows⟩ := bind_ok hrows
  obtain ⟨snapshots, hsnapshots, hrows⟩ := bind_ok hrows
  obtain ⟨grains, hgrains, hrows⟩ := bind_ok hrows
  obtain ⟨_, -, hrows⟩ := bind_ok hrows
  obtain ⟨_, -, hrows⟩ := bind_ok hrows
  obtain rfl := Except.ok.inj hrows
  exact ⟨rfl, mapM_map hsnapshots fun _ _ => decodeSnapshot_ok, mapM_map hgrains fun _ _ => decodeGrain_ok⟩

end

/-! ## What the receiver remembers -/

section
variable {store store' : IngestStore} {id : String} {existing : StoredReplay}

theorem mem_ownReplays {replay : IngestReplay} :
    replay ∈ ownReplays machine store ↔ ∃ stored, store.replayed machine replay.requestId = some stored ∧ stored.replay = replay := by
  simp only [ownReplays, List.mem_map, List.mem_filter, decide_eq_true_eq, IngestStore.replayed]
  constructor
  · rintro ⟨stored, ⟨hmem, rfl⟩, rfl⟩
    exact ⟨stored, Table.mem_rows.mp hmem, rfl⟩
  · rintro ⟨stored, hfind, rfl⟩
    have hkey := Table.key_of_find? hfind
    simp only [StoredReplay.primaryKey, List.cons.injEq, and_true] at hkey
    have hmachine : stored.machine = machine := by
      cases hstored : stored.machine
      cases machine
      simp only [hstored] at hkey
      simp only [hkey]
    refine ⟨stored, ⟨Table.mem_rows.mpr ?_, hmachine⟩, rfl⟩
    rw [StoredReplay.primaryKey, hmachine]
    exact hfind

/-- What a machine has pushed is what it is known by. -/
theorem replayed_fingerprint (h : store.replayed machine id = some existing) :
    ⟨id, existing.replay.payloadFingerprint⟩ ∈ ownReplays machine store := by
  have hkey := Table.key_of_find? h
  simp only [StoredReplay.primaryKey, List.cons.injEq, and_true] at hkey
  refine mem_ownReplays.mpr ⟨existing, h, ?_⟩
  rw [← hkey.2]

/-- A request that is stored is known from then on, and nothing else is. -/
theorem mem_ownReplays_upsert {replay replay' : IngestReplay} {result : IngestResult} {stored : IngestStore}
    (hreplays : stored.replays = store.replays) (hnew : store.replayed machine replay.requestId = none) :
    replay' ∈ ownReplays machine { stored with replays := stored.replays.upsert ⟨machine, replay, result⟩ } ↔
      replay' = replay ∨ replay' ∈ ownReplays machine store := by
  simp only [mem_ownReplays, IngestStore.replayed, hreplays, Table.find?_upsert, StoredReplay.primaryKey, List.cons.injEq,
    true_and, and_true]
  constructor
  · rintro ⟨found, hfound, rfl⟩
    split at hfound
    · obtain rfl := Option.some.inj hfound
      exact .inl rfl
    · exact .inr ⟨found, hfound, rfl⟩
  · rintro (rfl | ⟨found, hfound, rfl⟩)
    · exact ⟨_, if_pos rfl, rfl⟩
    · refine ⟨found, ?_, rfl⟩
      rw [if_neg]
      · exact hfound
      · intro hsame
        rw [IngestStore.replayed, ← hsame, hfound] at hnew
        cases hnew

end

namespace Sender

variable {sender sender' : Sender}

/-! ## What a machine has made -/

theorem Data.made (h : sender.Data crates accountId machine) {chunk : ReporterPendingChunk}
    (hchunk : chunk ∈ sender.done ++ sender.page) :
    Readable crates accountId machine chunk ∧ ∃ identity, Issued crates sender.hashed identity chunk := by
  rcases List.mem_append.mp hchunk with hchunk | hchunk
  · obtain ⟨identity, -, hissued⟩ := h.issued chunk hchunk
    exact ⟨h.readable chunk hchunk, identity, hissued⟩
  · have hpending : ∃ kind page, sender.store.pending kind = some page := by
      by_contra hnone
      push Not at hnone
      have hempty : sender.Empty := fun kind => Option.eq_none_iff_forall_ne_some.mpr (hnone kind)
      rw [hempty.page] at hchunk
      cases hchunk
    obtain ⟨kind, page, hpage⟩ := hpending
    obtain ⟨-, -, hdrafted⟩ := h.pending kind page hpage
    rw [h.page_eq hpage] at hchunk
    obtain ⟨i, hi⟩ := List.mem_iff_getElem?.mp hchunk
    obtain ⟨batch, hissued⟩ := hdrafted.issued i chunk hi
    exact ⟨hdrafted.readable chunk hchunk, _, hissued⟩

/-- What was hashed stays. -/
theorem step_hashed {label : Label} (hstep : sender.step crates accountId machine label = some sender') :
    sender.hashed ⊆ sender'.hashed := by
  have htake : ∀ (s : Sender) page drains pages, (s.takePage page drains pages).hashed = s.hashed := by
    intro s page drains pages
    unfold Sender.takePage
    split <;> rfl
  have hdraft : ∀ kind next read pages,
      sender.hashed ⊆ (sender.draftPage crates accountId machine kind next read pages).hashed := by
    intro kind next read pages
    unfold Sender.draftPage
    split
    · exact List.Subset.refl _
    · exact List.subset_append_left _ _
  cases label with
  | write tables =>
    simp only [Sender.step, Sender.write] at hstep
    split at hstep <;> cases hstep
    exact List.Subset.refl _
  | start profiles contexts quotas =>
    simp only [Sender.step, Sender.begin] at hstep
    split at hstep
    · split at hstep <;> cases hstep
      · exact List.Subset.refl _
      · exact List.subset_append_left _ _
    · cases hstep
  | stop =>
    cases hstep
    exact List.Subset.refl _
  | acknowledged =>
    simp only [Sender.step, Sender.acknowledged] at hstep
    split at hstep <;> cases hstep <;> exact List.Subset.refl _
  | call =>
    simp only [Sender.step, Sender.call] at hstep
    repeat' split at hstep
    all_goals cases hstep
    all_goals
      first
      | exact List.Subset.refl _
      | exact hdraft _ _ _ _
      | (rw [htake]; exact List.Subset.refl _)

end Sender

/-! ## What a push keeps -/

/-- The id that a document goes under. -/
def Packet.requestId (crates : ReporterCrates) : Packet → String
  | .metadata body => (crates.fromSlice body).elim "" PushEnvelope.requestId
  | .page chunk => chunk.requestId

/-- The documents of pages among others. -/
def pagesOf (packets : List Packet) : List ReporterPendingChunk := packets.filterMap Packet.page?

theorem mem_pagesOf {packets : List Packet} {chunk : ReporterPendingChunk} :
    chunk ∈ pagesOf packets ↔ .page chunk ∈ packets := by
  simp only [pagesOf, List.mem_filterMap]
  constructor
  · rintro ⟨packet, hmem, hpage⟩
    cases packet with
    | metadata body => cases hpage
    | page other =>
      obtain rfl := Option.some.inj hpage
      exact hmem
  · exact fun hmem => ⟨_, hmem, rfl⟩

namespace Push

variable {destination : Destination} {push push' : Push}

/-- The machine, the network and the receiver as an outbox. -/
def outbox (push : Push) : Outbox ReporterPendingChunk := push.sender.outbox (pagesOf push.sent) (pagesOf push.stored)

/-- What the receiver knows of the machine is what it has stored, and that are
documents that were sent. -/
structure Kept (crates : ReporterCrates) (accountId : AccountId) (machine : MachineName) (destination : Destination)
    (push : Push) : Prop where
  sender : push.sender.Kept crates accountId machine
  sound : Outbox.Sound ReporterPendingChunk.requestId push.outbox
  metadata : ∀ body, .metadata body ∈ push.sent → MetadataDocument crates accountId machine push.sender.hashed body
  stored : push.stored ⊆ push.sent
  known : ∀ replay, replay ∈ ownReplays destination.machine push.receiver ↔
    ∃ packet ∈ push.stored, replay = ⟨packet.requestId crates, sha256Hex crates.toPushCrates packet.body⟩
  answered : ∀ chunk, .page chunk ∈ push.answered → chunk.requestId ∈ (pagesOf push.stored).map ReporterPendingChunk.requestId
  usage : push.storedUsage = (pagesOf push.stored).flatMap fun chunk => (snapshotsOf crates chunk).map destination.snapshot
  tokens : push.storedTokens = (pagesOf push.stored).flatMap fun chunk => (grainsOf crates chunk).map destination.grain

namespace Kept

/-- A document that was sent reads back under its id, which is a digest of
what was hashed. -/
theorem read (hlossless : crates.Lossless) (h : push.Kept crates accountId machine destination) {packet : Packet}
    (hsent : packet ∈ push.sent) : ∃ batch,
      crates.fromSlice packet.body = some (envelopeOf accountId machine (packet.requestId crates) batch) ∧
        (packet.page? = none → batch.snapshots = [] ∧ batch.tokenGrains = []) := by
  cases packet with
  | metadata body =>
    obtain ⟨batch, canonical, hbody, -, -, hrows⟩ := h.metadata body hsent
    have hread := hlossless.envelope _ _ hbody
    refine ⟨batch, ?_, fun _ => hrows⟩
    rw [Packet.requestId, Packet.body, hread]
    rfl
  | page chunk =>
    have hmem := h.sound.mem_of_sent (mem_pagesOf.mpr hsent)
    obtain ⟨⟨batch, hread⟩, -⟩ := h.sender.data.made hmem
    exact ⟨batch, hread, fun hnone => by cases hnone⟩

/-- **One id, one document**: what was sent under one id is the same, byte for
byte. -/
theorem body_eq (hlossless : crates.Lossless) (h : push.Kept crates accountId machine destination)
    (hfree : CollisionFree crates push.sender.hashed) {packet packet' : Packet} (hsent : packet ∈ push.sent)
    (hsent' : packet' ∈ push.sent) (hid : packet.requestId crates = packet'.requestId crates) : packet = packet' := by
  have hmixed : ∀ body chunk, Packet.metadata body ∈ push.sent → Packet.page chunk ∈ push.sent →
      (Packet.metadata body).requestId crates ≠ chunk.requestId := by
    intro body chunk hbody hchunk heq
    obtain ⟨batch, canonical, hencoded, hjson, hmem, -⟩ := h.metadata body hbody
    obtain ⟨-, identity, canonical', hjson', hmem', hrequest⟩ :=
      h.sender.data.made (h.sound.mem_of_sent (mem_pagesOf.mpr hchunk))
    rw [Packet.requestId, hlossless.envelope _ _ hencoded, hrequest] at heq
    obtain rfl := hfree _ hmem _ hmem' heq
    exact hlossless.apart _ _ _ hjson' hjson
  cases packet with
  | metadata body =>
    cases packet' with
    | metadata body' =>
      obtain ⟨batch, canonical, hencoded, hjson, hmem, -⟩ := h.metadata body hsent
      obtain ⟨batch', canonical', hencoded', hjson', hmem', -⟩ := h.metadata body' hsent'
      rw [Packet.requestId, Packet.requestId, hlossless.envelope _ _ hencoded, hlossless.envelope _ _ hencoded'] at hid
      obtain rfl := hfree _ hmem _ hmem' hid
      obtain rfl := hlossless.batch _ _ _ hjson hjson'
      rw [hencoded] at hencoded'
      rw [Option.some.inj hencoded']
    | page chunk => exact absurd hid (hmixed body chunk hsent hsent')
  | page chunk =>
    cases packet' with
    | metadata body => exact absurd hid.symm (hmixed body chunk hsent' hsent)
    | page chunk' =>
      have hmem := h.sound.mem_of_sent (mem_pagesOf.mpr hsent)
      have hmem' := h.sound.mem_of_sent (mem_pagesOf.mpr hsent')
      exact congrArg Packet.page (h.sound.eq_of_id hmem hmem' hid)

/-- A turn of the machine. -/
theorem turn (hlossless : crates.Lossless) {label : Sender.Label} {sender : Sender}
    (h : push.Kept crates accountId machine destination) (hfree : CollisionFree crates push.sender.hashed)
    (hheard : push.heard label = true) (hstep : push.sender.step crates accountId machine label = some sender) :
    Kept crates accountId machine destination { push with sender } := by
  have hack : label = .acknowledged → ∀ chunk, push.sender.current = some (.page chunk) →
      chunk.requestId ∈ (pagesOf push.stored).map ReporterPendingChunk.requestId := by
    rintro rfl chunk hcurrent
    rw [heard, hcurrent, Option.any_some, decide_eq_true_eq] at hheard
    exact h.answered chunk hheard
  have hsound : Outbox.Sound ReporterPendingChunk.requestId (Push.outbox { push with sender }) := by
    rcases Sender.outbox_step hlossless h.sender hfree h.sound hack hstep with hsame | hturn
    · rw [outbox, hsame]
      exact h.sound
    · exact h.sound.step hturn
  have hhashed := Sender.step_hashed hstep
  exact ⟨h.sender.step hlossless hstep, hsound, fun body hbody => (h.metadata body hbody).mono hhashed, h.stored, h.known,
    h.answered, h.usage, h.tokens⟩

/-- The document at hand is one that the machine has made. -/
theorem send (h : push.Kept crates accountId machine destination) {packet : Packet}
    (hcurrent : push.sender.current = some packet) :
    Kept crates accountId machine destination { push with sent := packet :: push.sent } := by
  have hstage := h.sender.stage
  have hsub : push.stored ⊆ packet :: push.sent := fun _ hmem => List.mem_cons_of_mem _ (h.stored hmem)
  unfold Sender.current at hcurrent
  split at hcurrent
  next body rest hcase =>
    obtain rfl := Option.some.inj hcurrent
    rw [hcase] at hstage
    refine ⟨h.sender, h.sound, fun other hother => ?_, hsub, h.known, h.answered, h.usage, h.tokens⟩
    rcases List.mem_cons.mp hother with heq | hother
    · obtain rfl := Packet.metadata.inj heq
      exact hstage other List.mem_cons_self
    · exact h.metadata other hother
  next page chunk rest drains pages hcase =>
    obtain rfl := Option.some.inj hcurrent
    rw [hcase] at hstage
    obtain ⟨-, hpage, before, hsuffix⟩ := hstage
    refine ⟨h.sender, h.sound.step (.send ?_), fun other hother => ?_, hsub, h.known, h.answered, h.usage, h.tokens⟩
    · have hlength : page.draft.chunks.length = before.length + (rest.length + 1) := by
        rw [← hsuffix, List.length_append, List.length_cons]
      have hacked : push.sender.acked = before.length := by
        rw [Sender.acked, hcase]
        simp only [List.length_cons]
        omega
      show push.sender.page[push.sender.acked]? = some chunk
      rw [h.sender.data.page_eq hpage, hacked, ← hsuffix, List.getElem?_append_right le_rfl, Nat.sub_self,
        List.getElem?_cons_zero]
    · rcases List.mem_cons.mp hother with heq | hother
      · cases heq
      · exact h.metadata other hother
  next => cases hcurrent

/-- **A document that arrives is stored unless it is known.** -/
theorem deliver (hlossless : crates.Lossless) (h : push.Kept crates accountId machine destination)
    (hfree : CollisionFree crates push.sender.hashed) {packet : Packet} (hsent : packet ∈ push.sent) :
    (push.deliver crates destination packet).Kept crates accountId machine destination := by
  obtain ⟨batch, hread, hmetadata⟩ := h.read hlossless hsent
  unfold Push.deliver
  split
  · exact h
  next decoded hdecoded =>
    obtain ⟨hreplay, hsnapshots, hgrains⟩ := decodePushBody_ok hread hdecoded
    split
    · exact h
    next receiver outcome hingest =>
      obtain ⟨hscope, hcases⟩ := IngestStore.ingestBatchOnce_ok hingest
      rw [hreplay] at hcases
      obtain ⟨existing, hfind, -, rfl, rfl⟩ | ⟨hnew, -, -, stored, hstored, rfl, rfl⟩ := hcases
      · -- the receiver knows the id, of a document that it has stored
        rw [if_pos rfl]
        refine ⟨h.sender, h.sound, h.metadata, h.stored, h.known, fun chunk hchunk => ?_, h.usage, h.tokens⟩
        rcases List.mem_cons.mp hchunk with rfl | hchunk
        · obtain ⟨known, hknown, hsame⟩ := (h.known _).mp (replayed_fingerprint hfind)
          have hid : known.requestId crates = chunk.requestId := (congrArg IngestReplay.requestId hsame).symm
          obtain rfl := h.body_eq hlossless hfree (h.stored hknown) hsent hid
          exact List.mem_map_of_mem (mem_pagesOf.mpr hknown)
        · exact h.answered chunk hchunk
      · rw [if_neg Bool.false_ne_true]
        have hreplays := (IngestStore.storeBatch_grows hscope hstored).replays
        have hunknown : packet.requestId crates ∉ push.stored.map (Packet.requestId crates) := by
          intro hmem
          obtain ⟨known, hknown, hid⟩ := List.mem_map.mp hmem
          obtain ⟨found, hfound, -⟩ := mem_ownReplays.mp ((h.known _).mpr ⟨known, hknown, rfl⟩)
          rw [hid, hnew] at hfound
          cases hfound
        have hpages : pagesOf (push.stored ++ [packet]) = pagesOf push.stored ++ packet.page?.toList := by
          rw [pagesOf, List.filterMap_append]
          cases packet <;> rfl
        refine ⟨h.sender, ?_, h.metadata, ?_, fun replay => ?_, fun chunk hchunk => ?_, ?_, ?_⟩
        · rw [outbox, hpages]
          cases packet with
          | metadata body =>
            rw [show (Packet.metadata body).page?.toList = [] from rfl, List.append_nil]
            exact h.sound
          | page chunk =>
            refine h.sound.step (.apply (mem_pagesOf.mpr hsent) fun hmem => hunknown ?_)
            obtain ⟨known, hknown, hid⟩ := List.mem_map.mp hmem
            exact List.mem_map.mpr ⟨_, mem_pagesOf.mp hknown, hid⟩
        · intro other hother
          rcases List.mem_append.mp hother with hother | hother
          · exact h.stored hother
          · rwa [List.mem_singleton.mp hother]
        · rw [mem_ownReplays_upsert hreplays hnew, h.known]
          simp only [List.mem_append, List.mem_singleton, or_and_right, exists_or, exists_eq_left]
          exact or_comm
        · rw [hpages, List.map_append, List.mem_append]
          rcases List.mem_cons.mp hchunk with rfl | hchunk
          · exact .inr (by simp [Packet.page?])
          · exact .inl (h.answered chunk hchunk)
        · rw [hpages, List.flatMap_append, ← h.usage, hsnapshots]
          cases packet with
          | metadata body => simp [(hmetadata rfl).1, Packet.page?]
          | page chunk => simp [Packet.page?, snapshotsOf, show crates.fromSlice chunk.body = _ from hread, envelopeOf]
        · rw [hpages, List.flatMap_append, ← h.tokens, hgrains]
          cases packet with
          | metadata body => simp [(hmetadata rfl).2, Packet.page?]
          | page chunk => simp [Packet.page?, grainsOf, show crates.fromSlice chunk.body = _ from hread, envelopeOf]

/-- **A step keeps what the receiver has a prefix of the pages.** -/
theorem step (hlossless : crates.Lossless) {label : Label} (h : push.Kept crates accountId machine destination)
    (hfree : CollisionFree crates push.sender.hashed)
    (hstep : push.step crates accountId machine destination label = some push') :
    push'.Kept crates accountId machine destination := by
  cases label with
  | sender label =>
    simp only [Push.step] at hstep
    split at hstep
    next hheard =>
      obtain ⟨sender, hsender, rfl⟩ := Option.map_eq_some_iff.mp hstep
      exact h.turn hlossless hfree hheard hsender
    next => cases hstep
  | send =>
    obtain ⟨packet, hpacket, rfl⟩ := Option.map_eq_some_iff.mp hstep
    exact h.send hpacket
  | deliver packet =>
    simp only [Push.step] at hstep
    split at hstep
    next hsent =>
      obtain rfl := Option.some.inj hstep
      exact h.deliver hlossless hfree hsent
    next => cases hstep
  | others receiver =>
    simp only [Push.step] at hstep
    split at hstep
    next hsame =>
      obtain rfl := Option.some.inj hstep
      exact ⟨h.sender, h.sound, h.metadata, h.stored, fun replay => hsame ▸ h.known replay, h.answered, h.usage, h.tokens⟩
    next => cases hstep

theorem initial {tables : Tables} {destinations : Nat} {receiver : IngestStore}
    (hfresh : ownReplays destination.machine receiver = []) :
    (Push.initial (Sender.initial machine tables destinations) receiver).Kept crates accountId machine destination where
  sender := Sender.kept_initial tables destinations
  sound := .start
  metadata := fun _ hbody => by cases hbody
  stored := fun _ hmem => hmem
  known := fun replay => by simp [Push.initial, hfresh]
  answered := fun _ hchunk => by cases hchunk
  usage := rfl
  tokens := rfl

end Kept

end Push

/-! ## Runs -/

namespace Sender

/-- The rows of the pages, done and pending, and the documents that have them. -/
theorem Data.rows {sender : Sender} (h : sender.Data crates accountId machine) :
    (∃ upto, UsageRows machine sender.store.tables sender.seen 0 upto (sender.doneRows.usage ++ sender.pendingRows.usage)) ∧
      sender.page.flatMap (snapshotsOf crates) = sender.pendingRows.usage.map StoredUsageSnapshot.snapshot ∧
      sender.page.flatMap (grainsOf crates) = sender.pendingRows.tokens := by
  by_cases hempty : sender.Empty
  · rw [hempty.page, h.settled hempty]
    refine ⟨⟨sender.cursor.usageAfterId, ?_⟩, rfl, rfl⟩
    rw [PageRows.none, List.append_nil]
    exact h.doneUsage
  · obtain ⟨kind, hkind⟩ := not_forall.mp hempty
    obtain ⟨page, hpage⟩ := Option.ne_none_iff_exists'.mp hkind
    obtain ⟨-, hcursor, hdrafted⟩ := h.pending kind page hpage
    have husage := h.doneUsage
    rw [Sender.cursor, hcursor, Option.getD_some] at husage
    rw [h.page_eq hpage]
    exact ⟨⟨_, husage.append hdrafted.usage⟩, hdrafted.snapshots, hdrafted.grains⟩

end Sender

theorem flatMap_take_prefix {α β : Type} (f : α → List β) (l : List α) (n : Nat) : (l.take n).flatMap f <+: l.flatMap f := by
  conv_rhs => rw [← List.take_append_drop n l, List.flatMap_append]
  exact List.prefix_append _ _

namespace Push

variable {destination : Destination} {push push' : Push} {label : Label} {labels : List Label} {tables : Tables}
  {destinations : Nat} {receiver : IngestStore}

/-- A run of a machine that has not reported and a receiver that has nothing of it. -/
def Runs (crates : ReporterCrates) (accountId : AccountId) (machine : MachineName) (destination : Destination)
    (tables : Tables) (destinations : Nat) (receiver : IngestStore) (labels : List Label) (push : Push) : Prop :=
  Run (fun push label push' => Push.step crates accountId machine destination push label = some push')
    (.initial (.initial machine tables destinations) receiver) labels push

theorem step_sender (hstep : push.step crates accountId machine destination label = some push') :
    push'.sender = push.sender ∨ ∃ label, push.sender.step crates accountId machine label = some push'.sender := by
  cases label with
  | sender label =>
    simp only [Push.step] at hstep
    split at hstep
    · obtain ⟨sender, hsender, rfl⟩ := Option.map_eq_some_iff.mp hstep
      exact .inr ⟨label, hsender⟩
    · cases hstep
  | send =>
    obtain ⟨packet, -, rfl⟩ := Option.map_eq_some_iff.mp hstep
    exact .inl rfl
  | deliver packet =>
    simp only [Push.step] at hstep
    split at hstep
    · obtain rfl := Option.some.inj hstep
      refine .inl ?_
      unfold Push.deliver
      split
      · rfl
      · split
        · rfl
        · split <;> rfl
    · cases hstep
  | others receiver =>
    simp only [Push.step] at hstep
    split at hstep
    · obtain rfl := Option.some.inj hstep
      exact .inl rfl
    · cases hstep

theorem hashed_step (hstep : push.step crates accountId machine destination label = some push') :
    push.sender.hashed ⊆ push'.sender.hashed := by
  rcases step_sender hstep with hsame | ⟨label, hturn⟩
  · rw [hsame]
    exact List.Subset.refl _
  · exact Sender.step_hashed hturn

theorem Runs.sender (hlossless : crates.Lossless)
    (h : Runs crates accountId machine destination tables destinations receiver labels push) :
    push.sender.Kept crates accountId machine := by
  refine Run.invariant (I := fun push => push.sender.Kept crates accountId machine) (fun hkept hstep => ?_) h
    (Sender.kept_initial tables destinations)
  rcases step_sender hstep with hsame | ⟨label, hturn⟩
  · rw [hsame]
    exact hkept
  · exact hkept.step hlossless hturn

theorem Runs.kept (hlossless : crates.Lossless)
    (h : Runs crates accountId machine destination tables destinations receiver labels push)
    (hfresh : ownReplays destination.machine receiver = []) (hfree : CollisionFree crates push.sender.hashed) :
    push.Kept crates accountId machine destination := by
  refine Run.invariant
    (I := fun push => CollisionFree crates push.sender.hashed → push.Kept crates accountId machine destination)
    (fun hkept hstep hfree => ?_) h (fun _ => .initial hfresh) hfree
  have hbefore : CollisionFree crates _ := fun a ha b hb => hfree a (hashed_step hstep ha) b (hashed_step hstep hb)
  exact (hkept hbefore).step hlossless hbefore hstep

private def observed : UsageSnapshot :=
  ⟨firstAccount, workProfile, laptop, .anthropicOauth, [], .rateLimited none, 5, none⟩

private def defaultSettings : AgentSettings := ⟨none, none, .empty⟩

private def burned : TokenGrain :=
  ⟨firstAccount, workProfile, laptop, ⟨"review", by decide⟩, "opus", defaultSettings, String.ofList (.replicate 64 '0'), "2026-01-01",
    7, 8, 0, 0, 0, .local⟩

private def observedBatch : PushBatch := { PushBatch.empty with snapshots := [observed] }

private def burnedBatch : PushBatch := { PushBatch.empty with tokenGrains := [burned] }

private def idOf (byte : String) : String := "push-" ++ String.join (.replicate 16 byte)

/-- The documents that the machine makes, each as the byte it is encoded to. -/
private def documents : List (UInt8 × PushEnvelope) :=
  [(11, envelopeOf firstAccount laptop (idOf "03") observedBatch), (12, envelopeOf firstAccount laptop (idOf "04") observedBatch),
    (21, envelopeOf firstAccount laptop (idOf "05") burnedBatch), (22, envelopeOf firstAccount laptop (idOf "06") burnedBatch)]

private def afterUsage : ReporterCursorState := ⟨1, none, 0⟩

private def afterTokens : ReporterCursorState := ⟨1, some (.fromGrain burned), 0⟩

private def usageIdentity : PendingIdentity := ⟨firstAccount, laptop, .usage, .default, afterUsage, 0, observedBatch⟩

private def tokenIdentity : PendingIdentity := ⟨firstAccount, laptop, .token, afterUsage, afterTokens, 0, burnedBatch⟩

private def byteCrates : ReporterCrates where
  settingsDigest _ := .replicate 32 0
  dateError _ := none
  digest input := .replicate 32 (input.headD 0)
  parseJson body := body.head?.map fun byte => .number (toString byte.toNat)
  decodeEnvelope
    | .number text => (documents.find? fun document => toString document.1.toNat = text).map Prod.snd
    | _ => none
  envelopeJson envelope := (documents.find? fun document => document.2 = envelope).map fun document => [document.1]
  batchJson batch := if batch = observedBatch then some [3] else if batch = burnedBatch then some [5] else none
  identityJson identity := if identity = usageIdentity then some [4] else if identity = tokenIdentity then some [6] else none

private def filled : Tables :=
  ((((Tables.empty.putMachine ⟨firstAccount, laptop, 1, 1⟩).putProfile
    ⟨firstAccount, workProfile, .anthropicOauth, none, 5, none, none, none, .never, false, .local⟩).insertSnapshot observed).bind
      fun tables => tables.upsertTokenBatch byteCrates.toCrates [burned]).toOption.getD .empty

private def receiving : IngestStore where
  tables := (Tables.empty.putMachine ⟨firstAccount, laptop, 1, 1⟩).putProfile
    ⟨firstAccount, workProfile, .anthropicOauth, none, 5, none, none, none, .never, false, .reported⟩
  gemini := .empty
  replays := .empty

private def hub : Destination := ⟨firstAccount, laptop, defaultIngestLimits⟩

private def call : Label := .sender .call

/-- One cycle up to the end of the sweep, each document delivered twice. -/
private def cycle : List Label :=
  [.sender (.start [] [] []), call, call, call, call, call, call, .send,
    .deliver (.page ⟨idOf "04", [12], 1⟩), .deliver (.page ⟨idOf "04", [12], 1⟩), .sender .acknowledged, call,
    call, call, call, call, call, .send,
    .deliver (.page ⟨idOf "06", [22], 1⟩), .deliver (.page ⟨idOf "06", [22], 1⟩), .sender .acknowledged, call,
    call, call]

private def reported : Option Push :=
  cycle.foldlM (Push.step byteCrates firstAccount laptop hub) (.initial (.initial laptop filled 0) receiving)

private def endsSweep (push : Push) : Bool :=
  match push.sender.stage with
  | .advancing _ _ => true
  | _ => false

private theorem byteCrates_lossless : byteCrates.Lossless where
  envelope envelope body h := by
    obtain ⟨document, hfind, rfl⟩ := Option.map_eq_some_iff.mp h
    have hmem := List.mem_of_find?_eq_some hfind
    obtain rfl : document.2 = envelope := by simpa using List.find?_some hfind
    simp only [documents, List.mem_cons, List.not_mem_nil, or_false] at hmem
    rcases hmem with rfl | rfl | rfl | rfl <;> decide +kernel
  batch batch batch' json h h' := by
    simp only [byteCrates] at h h'
    grind
  identity i i' json h h' := by
    simp only [byteCrates] at h h'
    grind
  apart i batch json h h' := by
    simp only [byteCrates] at h h'
    grind

/-- The cycle runs to the end of its sweep, and both rows were stored once. -/
private theorem reported_state : reported.map (fun push => (push.sender.hashed, endsSweep push,
    push.storedUsage.length, push.storedTokens.length)) = some ([[4], [6]], true, 1, 1) := by
  decide +kernel

private theorem reported_free : CollisionFree byteCrates [[4], [6]] := by
  unfold CollisionFree
  decide +kernel

end Push

end Atmux.Pulse
