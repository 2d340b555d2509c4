/-
What a report cycle keeps.

Between its calls to the store a cycle holds the cursor that the store has, and
the store holds at most one page, made at that cursor (`Sender.Kept`): every
call finds what the one before left, however the cycles before were stopped.
-/
import Atmux.Lib.Outbox
import Atmux.Pulse.OutboxRows

namespace Atmux.Pulse

open Lib

variable {crates : ReporterCrates} {accountId : AccountId} {machine : MachineName}

/-! ## Documents -/

def snapshotsOf (crates : ReporterCrates) (chunk : ReporterPendingChunk) : List UsageSnapshot :=
  (crates.fromSlice chunk.body).elim [] fun envelope => envelope.batch.snapshots

def grainsOf (crates : ReporterCrates) (chunk : ReporterPendingChunk) : List TokenGrain :=
  (crates.fromSlice chunk.body).elim [] fun envelope => envelope.batch.tokenGrains

/-- The document's id is made from the identity. -/
def Issued (crates : ReporterCrates) (hashed : List (List UInt8)) (identity : PendingIdentity) (chunk : ReporterPendingChunk) :
    Prop :=
  ∃ canonical, crates.identityJson identity = some canonical ∧ canonical ∈ hashed ∧
    chunk.requestId = contentRequestId crates canonical

/-- The document reads back under its id. -/
def Readable (crates : ReporterCrates) (accountId : AccountId) (machine : MachineName) (chunk : ReporterPendingChunk) : Prop :=
  ∃ batch, crates.fromSlice chunk.body = some (envelopeOf accountId machine chunk.requestId batch)

/-- A document of the metadata: it has neither snapshots nor token rows. -/
def MetadataDocument (crates : ReporterCrates) (accountId : AccountId) (machine : MachineName) (hashed : List (List UInt8))
    (body : List UInt8) : Prop :=
  ∃ batch canonical, crates.envelopeJson (envelopeOf accountId machine (contentRequestId crates canonical) batch) = some body ∧
    crates.batchJson batch = some canonical ∧ canonical ∈ hashed ∧ batch.snapshots = [] ∧ batch.tokenGrains = []

theorem Issued.mono {hashed hashed' : List (List UInt8)} {identity : PendingIdentity} {chunk : ReporterPendingChunk}
    (h : Issued crates hashed identity chunk) (hsub : hashed ⊆ hashed') : Issued crates hashed' identity chunk := by
  obtain ⟨canonical, hjson, hmem, hid⟩ := h
  exact ⟨canonical, hjson, hsub hmem, hid⟩

theorem MetadataDocument.mono {hashed hashed' : List (List UInt8)} {body : List UInt8}
    (h : MetadataDocument crates accountId machine hashed body) (hsub : hashed ⊆ hashed') :
    MetadataDocument crates accountId machine hashed' body := by
  obtain ⟨batch, canonical, hbody, hjson, hmem, hrows⟩ := h
  exact ⟨batch, canonical, hbody, hjson, hsub hmem, hrows⟩

/-- No two inputs that were hashed have one id. -/
def CollisionFree (crates : ReporterCrates) (hashed : List (List UInt8)) : Prop :=
  ∀ a ∈ hashed, ∀ b ∈ hashed, contentRequestId crates a = contentRequestId crates b → a = b

/-- Two documents under one id are of one identity. -/
theorem Issued.identity_eq (hlossless : crates.Lossless) {hashed : List (List UInt8)} (hfree : CollisionFree crates hashed)
    {i i' : PendingIdentity} {chunk chunk' : ReporterPendingChunk} (h : Issued crates hashed i chunk)
    (h' : Issued crates hashed i' chunk') (hid : chunk.requestId = chunk'.requestId) : i = i' := by
  obtain ⟨canonical, hjson, hmem, hrequest⟩ := h
  obtain ⟨canonical', hjson', hmem', hrequest'⟩ := h'
  rw [hrequest, hrequest'] at hid
  obtain rfl := hfree _ hmem _ hmem' hid
  exact hlossless.identity _ _ _ hjson hjson'

/-! ## Drafts -/

section
variable {kind : ReporterStreamKind} {expected next : ReporterCursorState} {start : Nat} {parts : List (List PushRow)}
  {pending : List ReporterPendingChunk} {chunk : ReporterPendingChunk}

theorem Placed.read (hlossless : crates.Lossless) {part : List PushRow} {index : Nat}
    (h : Placed crates accountId machine kind expected next part index chunk) :
    crates.fromSlice chunk.body = some (envelopeOf accountId machine chunk.requestId (batchFromRows part)) :=
  hlossless.envelope _ _ (encode_ok h.encoded).1

/-- The documents have the rows of their parts. -/
theorem PlacedFrom.rows (hlossless : crates.Lossless)
    (h : PlacedFrom crates accountId machine kind expected next start parts pending) :
    pending.flatMap (snapshotsOf crates) = parts.flatten.filterMap PushRow.snapshot? ∧
      pending.flatMap (grainsOf crates) = parts.flatten.filterMap PushRow.token? := by
  induction parts generalizing start pending with
  | nil =>
    cases h
    exact ⟨rfl, rfl⟩
  | cons part parts ih =>
    rw [PlacedFrom, List.zipIdx_cons] at h
    cases h with
    | cons hfirst hrest =>
      obtain ⟨hsnapshots, hgrains⟩ := ih hrest
      constructor
      · rw [List.flatMap_cons, hsnapshots, List.flatten_cons, List.filterMap_append, snapshotsOf, hfirst.read hlossless]
        simp only [Option.elim_some, envelopeOf, snapshots_batchFromRows]
      · rw [List.flatMap_cons, hgrains, List.flatten_cons, List.filterMap_append, grainsOf, hfirst.read hlossless]
        simp only [Option.elim_some, envelopeOf, tokenGrains_batchFromRows]

theorem PlacedFrom.getElem? (h : PlacedFrom crates accountId machine kind expected next start parts pending) {i : Nat}
    (hchunk : pending[i]? = some chunk) :
    ∃ part, Placed crates accountId machine kind expected next part (start + i) chunk := by
  induction parts generalizing start pending i with
  | nil =>
    cases h
    cases hchunk
  | cons part parts ih =>
    rw [PlacedFrom, List.zipIdx_cons] at h
    cases h with
    | cons hfirst hrest =>
      cases i with
      | zero =>
        obtain rfl := Option.some.inj hchunk
        exact ⟨part, hfirst⟩
      | succ i =>
        rw [Nat.add_succ, ← Nat.succ_add]
        exact ih hrest hchunk

end

theorem snapshots_rows (read : PageRows) :
    read.batch.rows.filterMap PushRow.snapshot? = read.usage.map StoredUsageSnapshot.snapshot := by
  simp [PushBatch.rows, PageRows.batch, PushBatch.empty, List.filterMap_map, Function.comp_def, PushRow.snapshot?]

theorem grains_rows (read : PageRows) : read.batch.rows.filterMap PushRow.token? = read.tokens := by
  simp [PushBatch.rows, PageRows.batch, PushBatch.empty, List.filterMap_map, Function.comp_def, PushRow.token?]

/-- A page that was made from the rows between its cursors. -/
structure Drafted (crates : ReporterCrates) (accountId : AccountId) (machine : MachineName) (tables : Tables)
    (seen : List StoredUsageSnapshot) (steady : List TokenGrain) (hashed : List (List UInt8)) (draft : ReporterPendingDraft) (read : PageRows) : Prop where
  valid : draft.validate crates accountId machine = .ok ()
  usage : UsageRows machine tables seen draft.expected.usageAfterId draft.next.usageAfterId read.usage
  tokens : SteadyRows steady draft.expected.tokenAfter draft.next.tokenAfter read.tokens
  snapshots : draft.chunks.flatMap (snapshotsOf crates) = read.usage.map StoredUsageSnapshot.snapshot
  grains : draft.chunks.flatMap (grainsOf crates) = read.tokens
  issued : ∀ i chunk, draft.chunks[i]? = some chunk →
    ∃ batch, Issued crates hashed ⟨accountId, machine, draft.kind, draft.expected, draft.next, i, batch⟩ chunk
  readable : ∀ chunk ∈ draft.chunks, Readable crates accountId machine chunk

namespace Drafted

variable {tables tables' : Tables} {seen seen' : List StoredUsageSnapshot} {steady steady' : List TokenGrain} {hashed hashed' : List (List UInt8)}
  {draft : ReporterPendingDraft} {read : PageRows} {kind : ReporterStreamKind} {expected next : ReporterCursorState}

theorem of_reporterPendingDraft (hlossless : crates.Lossless)
    (h : reporterPendingDraft crates accountId machine kind expected next read.batch = .ok draft)
    (husage : UsageRows machine tables seen expected.usageAfterId next.usageAfterId read.usage)
    (htokens : SteadyRows steady expected.tokenAfter next.tokenAfter read.tokens) :
    Drafted crates accountId machine tables seen steady (hashed ++ Sender.draftHashed crates accountId machine draft) draft read := by
  obtain ⟨hvalid, rfl, rfl, rfl, parts, hparts, hplaced⟩ := reporterPendingDraft_ok hlossless h
  obtain ⟨hsnapshots, hgrains⟩ := hplaced.rows hlossless
  refine ⟨hvalid, husage, htokens, ?_, ?_, fun i chunk hchunk => ?_, fun chunk hchunk => ?_⟩
  · rw [hsnapshots, hparts, snapshots_rows]
  · rw [hgrains, hparts, grains_rows]
  · obtain ⟨part, hpart⟩ := hplaced.getElem? hchunk
    rw [Nat.zero_add] at hpart
    obtain ⟨canonical, hjson, hid⟩ := hpart.identity
    refine ⟨batchFromRows part, canonical, hjson, List.mem_append_right _ ?_, hid⟩
    refine List.mem_filterMap.mpr ⟨(chunk, i), List.mem_zipIdx_iff_getElem?.mpr hchunk, ?_⟩
    rw [hpart.read hlossless]
    exact hjson
  · obtain ⟨i, hi⟩ := List.mem_iff_getElem?.mp hchunk
    obtain ⟨part, hpart⟩ := hplaced.getElem? hi
    exact ⟨_, hpart.read hlossless⟩

theorem later (h : Drafted crates accountId machine tables seen steady hashed draft read) (hlater : tables.Later tables')
    (hseen : seen ⊆ seen') (hsteady : steady' ⊆ steady) : Drafted crates accountId machine tables' seen' steady' hashed draft read :=
  { h with usage := h.usage.later hlater hseen, tokens := h.tokens.mono hsteady }

theorem mono (h : Drafted crates accountId machine tables seen steady hashed draft read) (hsub : hashed ⊆ hashed') :
    Drafted crates accountId machine tables seen steady hashed' draft read := by
  refine { h with issued := fun i chunk hchunk => ?_ }
  obtain ⟨batch, hissued⟩ := h.issued i chunk hchunk
  exact ⟨batch, hissued.mono hsub⟩

/-- A page is above the cursor that it was made at. -/
theorem rank_lt (h : Drafted crates accountId machine tables seen steady hashed draft read) :
    draft.expected.rank < draft.next.rank := by
  obtain ⟨⟨⟩, htransition, -⟩ := bind_ok h.valid
  exact rank_lt_of_transition htransition

end Drafted

/-! ## What a cycle keeps -/

namespace Sender

/-- The cursor of the destination. -/
def cursor (sender : Sender) : ReporterCursorState := sender.store.cursor.getD .default

/-- The store's page, its cursor, and what is known of the rows before it. -/
structure Data (crates : ReporterCrates) (accountId : AccountId) (machine : MachineName) (sender : Sender) : Prop where
  pending : ∀ kind page, sender.store.pending kind = some page → page.draft.kind = kind ∧
    sender.store.cursor = some page.draft.expected ∧
    Drafted crates accountId machine sender.store.tables sender.seen sender.steady sender.hashed page.draft sender.pendingRows
  single : sender.store.pending .usage = none ∨ sender.store.pending .token = none
  settled : (∀ kind, sender.store.pending kind = none) → sender.pendingRows = .none
  doneUsage : UsageRows machine sender.store.tables sender.seen 0 sender.cursor.usageAfterId sender.doneRows.usage
  doneTokens : SteadyRows sender.steady none sender.cursor.tokenAfter (sender.doneRows.tokens.drop sender.sweepFrom)
  sweepFrom : sender.sweepFrom ≤ sender.doneRows.tokens.length
  snapshots : sender.done.flatMap (snapshotsOf crates) = sender.doneRows.usage.map StoredUsageSnapshot.snapshot
  grains : sender.done.flatMap (grainsOf crates) = sender.doneRows.tokens
  issued : ∀ chunk ∈ sender.done, ∃ identity, identity.expected.rank < sender.cursor.rank ∧
    Issued crates sender.hashed identity chunk
  readable : ∀ chunk ∈ sender.done, Readable crates accountId machine chunk
  seen : sender.store.tables.usage.rows ⊆ sender.seen
  steady : ∀ grain ∈ sender.steady, grain ∈ tokenRows machine sender.store.tables

/-- Nothing is pending. -/
def Empty (sender : Sender) : Prop := ∀ kind, sender.store.pending kind = none

/-- What the cycle holds, where it is. -/
def AtStage (crates : ReporterCrates) (accountId : AccountId) (machine : MachineName) (sender : Sender) : Stage → Prop
  | .idle => True
  | .metadata rest => ∀ body ∈ rest, MetadataDocument crates accountId machine sender.hashed body
  | .turn drains _ => sender.store.cursor = some sender.state ∧ ∀ kind, sender.store.pending kind ≠ none → kind ∈ drains
  | .reading _ _ => sender.store.cursor = some sender.state ∧ sender.Empty
  | .preparing draft read _ => sender.store.cursor = some sender.state ∧ sender.Empty ∧ draft.expected = sender.state ∧
      Drafted crates accountId machine sender.store.tables sender.seen sender.steady sender.hashed draft read
  | .advancing next _ => sender.store.cursor = some sender.state ∧ sender.Empty ∧
      next.usageAfterId = sender.state.usageAfterId ∧ next.tokenAfter = none ∧
      ∀ grain ∈ sender.steady, placeOf grain ≤ height sender.state.tokenAfter
  | .sending page rest _ _ => sender.store.cursor = some sender.state ∧
      sender.store.pending page.draft.kind = some page ∧ rest <:+ page.draft.chunks

/-- The conflicts that a cycle may end in: there are too many destinations, or
the machine is not in the store. -/
def Refused (e : PulseError) : Prop :=
  e = ReporterStore.outboxConflict "Pulse reporter destination limit was reached for this account" ∨ e = sqlError

structure Kept (crates : ReporterCrates) (accountId : AccountId) (machine : MachineName) (sender : Sender) : Prop where
  data : sender.Data crates accountId machine
  stage : sender.AtStage crates accountId machine sender.stage
  ended : ∀ e, sender.ended = some e → e.kind = .conflict → Refused e

variable {sender sender' : Sender}

namespace Data

/-- Where a cycle is says nothing of the store. -/
theorem moved (h : sender.Data crates accountId machine) (stage : Stage) (state : ReporterCursorState)
    (ended : Option PulseError) : Data crates accountId machine { sender with stage, state, ended } :=
  ⟨h.pending, h.single, h.settled, h.doneUsage, h.doneTokens, h.sweepFrom, h.snapshots, h.grains, h.issued, h.readable,
    h.seen, h.steady⟩

theorem load (h : sender.Data crates accountId machine) (kind : ReporterStreamKind) :
    sender.store.loadReporterPending crates accountId machine kind = .ok (sender.store.pending kind) := by
  rw [ReporterStore.loadReporterPending]
  split
  next hnone => rw [hnone]
  next page hpage =>
    rw [(h.pending kind page hpage).2.2.valid, hpage]
    rfl

theorem other (h : sender.Data crates accountId machine) {kind other : ReporterStreamKind} {page : ReporterPendingPage}
    (hpage : sender.store.pending kind = some page) (hne : other ≠ kind) : sender.store.pending other = none := by
  rcases h.single with hnone | hnone <;> cases kind <;> cases other <;>
    first
    | exact absurd rfl hne
    | exact hnone
    | (rw [hnone] at hpage; cases hpage)

/-- Other documents may be hashed. -/
theorem hash (h : sender.Data crates accountId machine) (hashed : List (List UInt8)) (stage : Stage) :
    Data crates accountId machine { sender with hashed := sender.hashed ++ hashed, stage } where
  pending kind page hpage := by
    obtain ⟨hkind, hcursor, hdrafted⟩ := h.pending kind page hpage
    exact ⟨hkind, hcursor, hdrafted.mono (List.subset_append_left _ _)⟩
  single := h.single
  settled := h.settled
  doneUsage := h.doneUsage
  doneTokens := h.doneTokens
  sweepFrom := h.sweepFrom
  snapshots := h.snapshots
  grains := h.grains
  issued chunk hchunk := by
    obtain ⟨identity, hrank, hissued⟩ := h.issued chunk hchunk
    exact ⟨identity, hrank, hissued.mono (List.subset_append_left _ _)⟩
  readable := h.readable
  seen := h.seen
  steady := h.steady

end Data

/-- What is still there of the steady rows. -/
theorem steady_later {tables : Tables} (h : sender.Data crates accountId machine) :
    ∀ grain ∈ sender.steady.filter fun grain => grain ∈ tables.tokens.rows, grain ∈ tokenRows machine tables := by
  intro grain hgrain
  obtain ⟨hmem, hrow⟩ := List.mem_filter.mp hgrain
  exact mem_tokenRows.mpr ⟨of_decide_eq_true hrow, (mem_tokenRows.mp (h.steady grain hmem)).2⟩

theorem Kept.write {tables : Tables} (h : sender.Kept crates accountId machine) (hstep : sender.write tables = some sender') :
    sender'.Kept crates accountId machine := by
  unfold Sender.write at hstep
  split at hstep
  next hlater =>
    obtain rfl := Option.some.inj hstep
    have hsub : (sender.steady.filter fun grain => grain ∈ tables.tokens.rows) ⊆ sender.steady :=
      fun _ hmem => (List.mem_filter.mp hmem).1
    have hseen : sender.seen ⊆ sender.seen ++ tables.usage.rows := List.subset_append_left _ _
    refine ⟨?_, ?_, h.ended⟩
    · exact {
        pending := fun kind page hpage => by
          obtain ⟨hkind, hcursor, hdrafted⟩ := h.data.pending kind page hpage
          exact ⟨hkind, hcursor, hdrafted.later hlater hseen hsub⟩
        single := h.data.single
        settled := h.data.settled
        doneUsage := h.data.doneUsage.later hlater hseen
        doneTokens := h.data.doneTokens.mono hsub
        sweepFrom := h.data.sweepFrom
        snapshots := h.data.snapshots
        grains := h.data.grains
        issued := h.data.issued
        readable := h.data.readable
        seen := List.subset_append_right _ _
        steady := steady_later h.data }
    · have hstage := h.stage
      simp only at hstage ⊢
      cases hcase : sender.stage with
      | preparing draft read pages =>
        rw [hcase] at hstage
        obtain ⟨hcursor, hempty, hexpected, hdrafted⟩ := hstage
        exact ⟨hcursor, hempty, hexpected, hdrafted.later hlater hseen hsub⟩
      | advancing next pages =>
        rw [hcase] at hstage
        obtain ⟨hcursor, hempty, husage, htoken, hsteady⟩ := hstage
        exact ⟨hcursor, hempty, husage, htoken, fun grain hgrain => hsteady grain (hsub hgrain)⟩
      | _ =>
        rw [hcase] at hstage
        exact hstage
  next => cases hstep

/-- A cycle ended by one of its calls, or from outside. -/
theorem Kept.idle (h : sender.Kept crates accountId machine) {ended : Option PulseError}
    (hended : ∀ e, ended = some e → e.kind = .conflict → Refused e) :
    Kept crates accountId machine { sender with stage := .idle, ended } :=
  ⟨h.data.moved .idle sender.state ended, trivial, hended⟩

theorem Kept.fail (h : sender.Kept crates accountId machine) {e : PulseError} (hcalm : e.kind = .conflict → Refused e) :
    (sender.fail e).Kept crates accountId machine :=
  h.idle fun e' he' hconflict => by
    obtain rfl := Option.some.inj he'
    exact hcalm hconflict

theorem Kept.acknowledged (h : sender.Kept crates accountId machine) (hstep : sender.acknowledged = some sender') :
    sender'.Kept crates accountId machine := by
  have hstage := h.stage
  unfold Sender.acknowledged at hstep
  split at hstep
  next body rest hcase =>
    obtain rfl := Option.some.inj hstep
    rw [hcase] at hstage
    exact ⟨h.data.moved _ sender.state sender.ended, fun body hbody => hstage body (List.mem_cons_of_mem _ hbody), h.ended⟩
  next page chunk rest drains pages hcase =>
    obtain rfl := Option.some.inj hstep
    rw [hcase] at hstage
    obtain ⟨hcursor, hpending, hsuffix⟩ := hstage
    exact ⟨h.data.moved _ sender.state sender.ended, ⟨hcursor, hpending, (List.suffix_cons _ _).trans hsuffix⟩, h.ended⟩
  next => cases hstep

/-! ## The calls of a cycle -/

theorem Kept.cursor_eq (hcursor : sender.store.cursor = some sender.state) : sender.cursor = sender.state := by
  rw [Sender.cursor, hcursor, Option.getD_some]

/-- The page that is found was made at the cursor that the cycle holds. -/
theorem Data.takePage (h : sender.Data crates accountId machine) (hended : ∀ e, sender.ended = some e → e.kind = .conflict → Refused e)
    {kind : ReporterStreamKind} {page : ReporterPendingPage} (hcursor : sender.store.cursor = some sender.state)
    (hpage : sender.store.pending kind = some page) (drains pages : List ReporterStreamKind) :
    sender.takePage page drains pages = { sender with stage := .sending page page.draft.chunks drains pages } ∧
      (sender.takePage page drains pages).Kept crates accountId machine := by
  obtain ⟨hkind, hexpected, -⟩ := h.pending kind page hpage
  have hsame : page.draft.expected = sender.state := Option.some.inj (hexpected.symm.trans hcursor)
  have htake : sender.takePage page drains pages = { sender with stage := .sending page page.draft.chunks drains pages } := by
    rw [Sender.takePage, if_neg (not_not.mpr hsame)]
  refine ⟨htake, ?_⟩
  rw [htake]
  exact ⟨h.moved _ sender.state sender.ended, ⟨hcursor, hkind ▸ hpage, List.suffix_rfl⟩, hended⟩

theorem Kept.draftPage (hlossless : crates.Lossless) (h : sender.Kept crates accountId machine)
    (hcursor : sender.store.cursor = some sender.state) (hempty : sender.Empty) {kind : ReporterStreamKind}
    {next : ReporterCursorState} {read : PageRows} (pages : List ReporterStreamKind)
    (husage : UsageRows machine sender.store.tables sender.seen sender.state.usageAfterId next.usageAfterId read.usage)
    (htokens : SteadyRows sender.steady sender.state.tokenAfter next.tokenAfter read.tokens) :
    (sender.draftPage crates accountId machine kind next read pages).Kept crates accountId machine := by
  unfold Sender.draftPage
  split
  next e he => exact h.fail fun hconflict => absurd hconflict (calm_reporterPendingDraft _ _ _ _ e he)
  next draft hdraft =>
    obtain ⟨-, -, hexpected, -⟩ := reporterPendingDraft_ok hlossless hdraft
    exact ⟨h.data.hash _ _, ⟨hcursor, hempty, hexpected, .of_reporterPendingDraft hlossless hdraft husage htokens⟩, h.ended⟩

/-- The store's tables do not matter to where a cycle turns next. -/
theorem Kept.turn (h : sender.Kept crates accountId machine) (hcursor : sender.store.cursor = some sender.state)
    {drains : List ReporterStreamKind} (hdrains : ∀ kind, sender.store.pending kind ≠ none → kind ∈ drains)
    (pages : List ReporterStreamKind) : Kept crates accountId machine { sender with stage := .turn drains pages } :=
  ⟨h.data.moved _ sender.state sender.ended, ⟨hcursor, hdrains⟩, h.ended⟩

theorem Kept.turn_empty (h : sender.Kept crates accountId machine) (hcursor : sender.store.cursor = some sender.state)
    (hempty : sender.Empty) (pages : List ReporterStreamKind) :
    Kept crates accountId machine { sender with stage := .turn [] pages } :=
  h.turn hcursor (fun kind hkind => absurd (hempty kind) hkind) pages

/-- A cursor is made for a destination that has none. -/
theorem loadReporterCursor_ok {store store' : ReporterStore} {state : ReporterCursorState}
    (h : store.loadReporterCursor machine = .ok (store', state)) : store'.tables = store.tables ∧
      store'.pending = store.pending ∧ store'.cursor = some state ∧ store.cursor.getD .default = state := by
  unfold ReporterStore.loadReporterCursor at h
  split at h
  next found hfound =>
    obtain ⟨rfl, rfl⟩ := Prod.mk.inj (Except.ok.inj h)
    exact ⟨rfl, rfl, hfound, by rw [hfound, Option.getD_some]⟩
  next hnone =>
    split at h
    · cases h
    split at h
    · cases h
    obtain ⟨rfl, rfl⟩ := Prod.mk.inj (Except.ok.inj h)
    exact ⟨rfl, rfl, rfl, by rw [hnone, Option.getD_none]⟩

theorem loadReporterCursor_error {store : ReporterStore} {e : PulseError} (h : store.loadReporterCursor machine = .error e) :
    Refused e := by
  unfold ReporterStore.loadReporterCursor at h
  split at h
  · cases h
  split at h
  · exact .inl (Except.error.inj h).symm
  split at h
  · exact .inr (Except.error.inj h).symm
  · cases h

/-- A store with the same tables and pages, and the cursor written down. -/
theorem Data.load_cursor (h : sender.Data crates accountId machine) {store : ReporterStore} {state : ReporterCursorState}
    (hload : sender.store.loadReporterCursor machine = .ok (store, state)) (stage : Stage) :
    Data crates accountId machine { sender with store, state, stage } := by
  obtain ⟨htables, hpending, hcursor, hstate⟩ := loadReporterCursor_ok hload
  have hsame : Sender.cursor { sender with store, state, stage } = sender.cursor := by
    rw [Sender.cursor, Sender.cursor, hcursor, Option.getD_some, hstate]
  refine ⟨fun kind page hpage => ?_, ?_, ?_, ?_, ?_, h.sweepFrom, h.snapshots, h.grains, ?_, h.readable, ?_, ?_⟩
  · obtain ⟨hkind, hexpected, hdrafted⟩ := h.pending kind page (hpending ▸ hpage)
    refine ⟨hkind, ?_, ?_⟩
    · rw [hexpected, Option.getD_some] at hstate
      rw [hcursor, hstate]
    · show Drafted crates accountId machine store.tables sender.seen sender.steady sender.hashed page.draft sender.pendingRows
      rw [htables]
      exact hdrafted
  · show store.pending .usage = none ∨ store.pending .token = none
    rw [hpending]
    exact h.single
  · show (∀ kind, store.pending kind = none) → _
    rw [hpending]
    exact h.settled
  · rw [hsame]
    show UsageRows machine store.tables _ _ _ _
    rw [htables]
    exact h.doneUsage
  · rw [hsame]
    exact h.doneTokens
  · rw [hsame]
    exact h.issued
  · show store.tables.usage.rows ⊆ sender.seen
    rw [htables]
    exact h.seen
  · show ∀ grain ∈ sender.steady, grain ∈ tokenRows machine store.tables
    rw [htables]
    exact h.steady

/-- With nothing pending at the cursor a draft is put there. -/
theorem prepare_eq {store : ReporterStore} {draft : ReporterPendingDraft} (hvalid : draft.validate crates accountId machine = .ok ())
    (hempty : ∀ kind, store.pending kind = none) (hcursor : store.cursor = some draft.expected) :
    store.prepareReporterPending crates accountId machine draft =
      .ok ({ store.putPending draft.kind (some ⟨store.sequence + 1, draft⟩) with sequence := store.sequence + 1 },
        ⟨store.sequence + 1, draft⟩) := by
  have hload : store.loadReporterPending crates accountId machine draft.kind = .ok none := by
    rw [ReporterStore.loadReporterPending, hempty]
  unfold ReporterStore.prepareReporterPending
  rw [hvalid, hload]
  cases draft.kind <;> simp [bind, Except.bind, hempty, hcursor, pure, Except.pure]

/-- The page that is pending at the cursor is committed, or its generation is
too large. -/
theorem commit_eq (h : sender.Data crates accountId machine) {kind : ReporterStreamKind} {page : ReporterPendingPage}
    (hpage : sender.store.pending kind = some page) :
    sender.store.commitReporterPending crates accountId machine kind page.id =
      if 2 ^ 63 ≤ page.draft.next.tokenGeneration then .error (.invalidInput "Pulse reporter generation is too large")
      else .ok ({ sender.store.putPending kind none with cursor := some page.draft.next }, page.draft.next) := by
  obtain ⟨-, hcursor, -⟩ := h.pending kind page hpage
  unfold ReporterStore.commitReporterPending
  rw [h.load kind, hpage]
  simp only [bind, Except.bind, hcursor, ne_eq, not_true_eq_false, if_false, pure, Except.pure]
  rfl

/-- A page that is put where nothing was pending. -/
theorem Data.prepared (h : sender.Data crates accountId machine) {draft : ReporterPendingDraft} {read : PageRows}
    (hempty : sender.Empty) (hcursor : sender.store.cursor = some draft.expected)
    (hdrafted : Drafted crates accountId machine sender.store.tables sender.seen sender.steady sender.hashed draft read) :
    Data crates accountId machine { sender with
      store := { sender.store.putPending draft.kind (some ⟨sender.store.sequence + 1, draft⟩) with
        sequence := sender.store.sequence + 1 }
      pendingRows := read } := by
  refine ⟨fun kind page hpage => ?_, ?_, fun hnone => ?_, h.doneUsage, h.doneTokens, h.sweepFrom, h.snapshots, h.grains,
    h.issued, h.readable, h.seen, h.steady⟩
  · simp only [ReporterStore.putPending, Function.update_apply] at hpage
    split at hpage
    next hkind =>
      obtain rfl := Option.some.inj hpage
      exact ⟨hkind.symm, hcursor, hdrafted⟩
    next => rw [hempty kind] at hpage; cases hpage
  · have husage := hempty .usage
    have htoken := hempty .token
    cases hkind : draft.kind <;> simp [ReporterStore.putPending, husage, htoken]
  · have hsome := hnone draft.kind
    simp [ReporterStore.putPending] at hsome

/-- A page that is committed becomes rows that are done. -/
theorem Data.committed (h : sender.Data crates accountId machine) {page : ReporterPendingPage}
    (hpage : sender.store.pending page.draft.kind = some page) (stage : Stage) :
    Data crates accountId machine { sender with
      store := { sender.store.putPending page.draft.kind none with cursor := some page.draft.next }
      state := page.draft.next
      stage
      done := sender.done ++ page.draft.chunks
      doneRows := ⟨sender.doneRows.usage ++ sender.pendingRows.usage, sender.doneRows.tokens ++ sender.pendingRows.tokens⟩
      pendingRows := .none } ∧ ∀ kind, (sender.store.putPending page.draft.kind none).pending kind = none := by
  obtain ⟨-, hcursor, hdrafted⟩ := h.pending _ page hpage
  have hexpected : sender.cursor = page.draft.expected := by
    rw [Sender.cursor, hcursor, Option.getD_some]
  have hempty : ∀ kind, (sender.store.putPending page.draft.kind none).pending kind = none := by
    intro kind
    simp only [ReporterStore.putPending, Function.update_apply]
    split
    · rfl
    next hother => exact h.other hpage hother
  refine ⟨⟨fun kind page' hpage' => ?_, .inl (hempty .usage), fun _ => rfl, ?_, ?_, ?_, ?_, ?_, fun chunk hchunk => ?_,
    fun chunk hchunk => ?_, h.seen, h.steady⟩, hempty⟩
  · rw [show _ = _ from hempty kind] at hpage'
    cases hpage'
  · have husage := h.doneUsage
    rw [hexpected] at husage
    exact husage.append hdrafted.usage
  · have htokens := h.doneTokens
    rw [hexpected] at htokens
    show SteadyRows sender.steady none page.draft.next.tokenAfter (List.drop _ (_ ++ _))
    rw [List.drop_append_of_le_length h.sweepFrom]
    exact htokens.append hdrafted.tokens
  · exact h.sweepFrom.trans (by simp)
  · show (sender.done ++ page.draft.chunks).flatMap _ = List.map _ (_ ++ _)
    rw [List.flatMap_append, List.map_append, h.snapshots, hdrafted.snapshots]
  · show (sender.done ++ page.draft.chunks).flatMap _ = _ ++ _
    rw [List.flatMap_append, h.grains, hdrafted.grains]
  · have hrank : sender.cursor.rank < page.draft.next.rank := hexpected ▸ hdrafted.rank_lt
    rcases List.mem_append.mp hchunk with hchunk | hchunk
    · obtain ⟨identity, hbelow, hissued⟩ := h.issued chunk hchunk
      exact ⟨identity, hbelow.trans hrank, hissued⟩
    · obtain ⟨i, hi⟩ := List.mem_iff_getElem?.mp hchunk
      obtain ⟨batch, hissued⟩ := hdrafted.issued i chunk hi
      exact ⟨_, hdrafted.rank_lt, hissued⟩
  · rcases List.mem_append.mp hchunk with hchunk | hchunk
    · exact h.readable chunk hchunk
    · exact hdrafted.readable chunk hchunk

theorem advance_calm {store : ReporterStore} {expected next : ReporterCursorState} (hcursor : store.cursor = some expected) :
    Calm (store.advanceReporterCursor expected next) := by
  refine .bind (calm_validateReporterTransition _ _) fun _ _ => .ite (fun _ => .throw_bind (by decide) _) fun _ => ?_
  exact .ite (fun hne => absurd hcursor hne) fun _ => .ok _

theorem advance_ok {store store' : ReporterStore} {expected next state : ReporterCursorState}
    (h : store.advanceReporterCursor expected next = .ok (store', state)) :
    store' = { store with cursor := some next } ∧ state = next ∧ validateReporterTransition expected next = .ok () := by
  obtain ⟨⟨⟩, hvalid, h⟩ := bind_ok h
  obtain ⟨-, h⟩ := guard_ok h
  obtain ⟨-, h⟩ := guard_ok h
  obtain ⟨rfl, rfl⟩ := Prod.mk.inj (Except.ok.inj h)
  exact ⟨rfl, rfl, hvalid⟩

/-- With the end of a sweep the rows that are there are those of the next. -/
theorem Data.advanced (h : sender.Data crates accountId machine) {next : ReporterCursorState}
    (hcursor : sender.store.cursor = some sender.state) (hempty : sender.Empty)
    (husage : next.usageAfterId = sender.state.usageAfterId) (htoken : next.tokenAfter = none)
    (hvalid : validateReporterTransition sender.state next = .ok ()) (stage : Stage) :
    Data crates accountId machine { sender with
      store := { sender.store with cursor := some next }
      state := next
      stage
      steady := tokenRows machine sender.store.tables
      sweepFrom := sender.doneRows.tokens.length } := by
  have hsame := Kept.cursor_eq hcursor
  refine ⟨fun kind page hpage => ?_, .inl (hempty .usage), h.settled, ?_, ?_, le_rfl, h.snapshots, h.grains,
    fun chunk hchunk => ?_, h.readable, h.seen, fun _ hgrain => hgrain⟩
  · rw [show _ = _ from hempty kind] at hpage
    cases hpage
  · show UsageRows machine sender.store.tables sender.seen 0 next.usageAfterId sender.doneRows.usage
    rw [husage, ← hsame]
    exact h.doneUsage
  · show SteadyRows _ none next.tokenAfter (sender.doneRows.tokens.drop sender.doneRows.tokens.length)
    rw [htoken, List.drop_length]
    exact .nil
  · obtain ⟨identity, hrank, hissued⟩ := h.issued chunk hchunk
    rw [hsame] at hrank
    exact ⟨identity, hrank.trans (rank_lt_of_transition hvalid), hissued⟩

/-- **A call finds what the calls before left**, whatever it is. -/
theorem Kept.call (hlossless : crates.Lossless) (h : sender.Kept crates accountId machine)
    (hstep : sender.call crates accountId machine = some sender') : sender'.Kept crates accountId machine := by
  have hstage := h.stage
  unfold Sender.call at hstep
  split at hstep
  next => cases hstep
  next => cases hstep
  next hcase =>
    split at hstep
    next e he =>
      obtain rfl := Option.some.inj hstep
      exact h.fail fun _ => loadReporterCursor_error he
    next store state hload =>
      obtain rfl := Option.some.inj hstep
      refine ⟨h.data.load_cursor hload _, ⟨(loadReporterCursor_ok hload).2.2.1, fun kind _ => ?_⟩, h.ended⟩
      cases kind <;> simp
  next kind drains pages hcase =>
    rw [hcase] at hstage
    obtain ⟨hcursor, hdrains⟩ := hstage
    rw [h.data.load kind] at hstep
    cases hpage : sender.store.pending kind with
    | none =>
      rw [hpage] at hstep
      obtain rfl := Option.some.inj hstep
      refine h.turn hcursor (fun other hother => ?_) pages
      rcases List.mem_cons.mp (hdrains other hother) with rfl | hmem
      · exact absurd hpage hother
      · exact hmem
    | some page =>
      rw [hpage] at hstep
      obtain rfl := Option.some.inj hstep
      exact (h.data.takePage h.ended hcursor hpage drains pages).2
  next hcase =>
    obtain rfl := Option.some.inj hstep
    exact h.idle fun e he => by cases he
  next kind pages hcase =>
    rw [hcase] at hstage
    obtain ⟨hcursor, hdrains⟩ := hstage
    have hempty : sender.Empty := fun kind => by
      by_contra hne
      cases hdrains kind hne
    rw [h.data.load kind, hempty kind] at hstep
    obtain rfl := Option.some.inj hstep
    exact ⟨h.data.moved _ sender.state sender.ended, ⟨hcursor, hempty⟩, h.ended⟩
  next pages hcase =>
    rw [hcase] at hstage
    obtain ⟨hcursor, hempty⟩ := hstage
    split at hstep
    next e he =>
      obtain rfl := Option.some.inj hstep
      refine h.fail fun hconflict => ?_
      unfold ReporterStore.localReporterUsagePage at he
      split at he
      · obtain rfl := Except.error.inj he
        cases hconflict
      · cases he
    next rows hrows =>
      split at hstep
      · obtain rfl := Option.some.inj hstep
        exact h.turn_empty hcursor hempty _
      next last hlast =>
        obtain rfl := Option.some.inj hstep
        exact h.draftPage hlossless hcursor hempty pages (usageRows_of_page h.data.seen hrows hlast) .nil
  next pages hcase =>
    rw [hcase] at hstage
    obtain ⟨hcursor, hempty⟩ := hstage
    dsimp only at hstep
    split at hstep
    next hlast =>
      split at hstep
      · obtain rfl := Option.some.inj hstep
        refine ⟨h.data.moved _ sender.state sender.ended, ⟨hcursor, hempty, rfl, rfl, fun grain hgrain => ?_⟩, h.ended⟩
        exact le_of_page_empty hlast (h.data.steady grain hgrain)
      · obtain rfl := Option.some.inj hstep
        exact h.turn_empty hcursor hempty _
    next last hlast =>
      obtain rfl := Option.some.inj hstep
      have husage := h.data.doneUsage.sequence
      rw [Kept.cursor_eq hcursor] at husage
      exact h.draftPage hlossless hcursor hempty pages (.nil husage) (steadyRows_of_page h.data.steady hlast)
  next draft read pages hcase =>
    rw [hcase] at hstage
    obtain ⟨hcursor, hempty, hexpected, hdrafted⟩ := hstage
    rw [← hexpected] at hcursor
    rw [prepare_eq hdrafted.valid hempty hcursor] at hstep
    obtain rfl := Option.some.inj hstep
    have hdata := h.data.prepared hempty hcursor hdrafted
    have hpage : (sender.store.putPending draft.kind (some ⟨sender.store.sequence + 1, draft⟩)).pending draft.kind =
        some ⟨sender.store.sequence + 1, draft⟩ := by
      simp [ReporterStore.putPending]
    exact (hdata.takePage h.ended (hexpected ▸ hcursor) hpage [] pages).2
  next next pages hcase =>
    rw [hcase] at hstage
    obtain ⟨hcursor, hempty, husage, htoken, hsteady⟩ := hstage
    split at hstep
    next e he =>
      obtain rfl := Option.some.inj hstep
      exact h.fail fun hconflict => absurd hconflict (advance_calm hcursor e he)
    next store state hadvance =>
      obtain rfl := Option.some.inj hstep
      obtain ⟨rfl, rfl, hvalid⟩ := advance_ok hadvance
      exact ⟨h.data.advanced hcursor hempty husage htoken hvalid _, ⟨rfl, fun kind hkind => absurd (hempty kind) hkind⟩, h.ended⟩
  next => cases hstep
  next page drains pages hcase =>
    rw [hcase] at hstage
    obtain ⟨hcursor, hpage, -⟩ := hstage
    rw [commit_eq h.data hpage] at hstep
    split at hstep
    next e he =>
      obtain rfl := Option.some.inj hstep
      refine h.fail fun hconflict => ?_
      split at he
      · obtain rfl := Except.error.inj he
        cases hconflict
      · cases he
    next store state hcommit =>
      split at hcommit
      · cases hcommit
      · obtain ⟨rfl, rfl⟩ := Prod.mk.inj (Except.ok.inj hcommit)
        obtain rfl := Option.some.inj hstep
        obtain ⟨hdata, hnone⟩ := h.data.committed hpage (.turn drains pages)
        exact ⟨hdata, ⟨rfl, fun kind hkind => absurd (hnone kind) hkind⟩, h.ended⟩

/-! ## A cycle begins -/

/-- Rows that are neither snapshots nor token rows make documents of the metadata. -/
theorem metadataDocument_of_chunks (hlossless : crates.Lossless) {rows : List PushRow} {chunks : List (List UInt8 × Nat)}
    (h : appendRowChunks crates accountId machine rows = .ok chunks) (hsnapshots : ∀ row ∈ rows, row.snapshot? = none)
    (htokens : ∀ row ∈ rows, row.token? = none) {bodies : List (List UInt8)} (hbodies : chunks.map Prod.fst ⊆ bodies)
    (hashed : List (List UInt8)) :
    ∀ body ∈ chunks.map Prod.fst,
      MetadataDocument crates accountId machine (hashed ++ metadataHashed crates bodies) body := by
  obtain ⟨parts, rfl, hforall⟩ := appendRowChunks_ok h
  intro body hbody
  obtain ⟨chunk, hchunk, rfl⟩ := List.mem_map.mp hbody
  obtain ⟨part, hpart, hchunked⟩ := exists_of_forall₂ hforall.flip hchunk
  obtain ⟨canonical, hjson, hencode⟩ := hchunked.encoded
  have hread := hlossless.envelope _ _ (encode_ok hencode).1
  refine ⟨batchFromRows part, canonical, (encode_ok hencode).1, hjson, List.mem_append_right _ ?_, ?_, ?_⟩
  · refine List.mem_filterMap.mpr ⟨chunk.1, hbodies hbody, ?_⟩
    rw [hread]
    exact hjson
  · rw [snapshots_batchFromRows, List.filterMap_eq_nil_iff]
    exact fun row hrow => hsnapshots row (List.mem_flatten.mpr ⟨part, hpart, hrow⟩)
  · rw [tokenGrains_batchFromRows, List.filterMap_eq_nil_iff]
    exact fun row hrow => htokens row (List.mem_flatten.mpr ⟨part, hpart, hrow⟩)

theorem Kept.begin (hlossless : crates.Lossless) {profiles : List ReportedProfile} {contexts : List ContextSession}
    {quotas : List GeminiQuota} (h : sender.Kept crates accountId machine)
    (hstep : sender.begin crates accountId machine profiles contexts quotas = some sender') :
    sender'.Kept crates accountId machine := by
  unfold Sender.begin at hstep
  split at hstep
  next hcase =>
    split at hstep
    next e he =>
      obtain rfl := Option.some.inj hstep
      exact h.fail fun hconflict => absurd hconflict (calm_deterministicChunks _ e he)
    next chunks hchunks =>
      obtain rfl := Option.some.inj hstep
      refine ⟨h.data.hash _ _, ?_, h.ended⟩
      obtain ⟨first, hfirst, hchunks⟩ := bind_ok hchunks
      obtain ⟨snapshots, hsnapshots, hchunks⟩ := bind_ok hchunks
      obtain ⟨upserts, hupserts, hchunks⟩ := bind_ok hchunks
      obtain rfl := Except.ok.inj hchunks
      obtain rfl : snapshots = [] := by
        cases mapM_ok hsnapshots
        rfl
      intro body hbody
      rw [List.flatten_nil, List.append_nil, List.map_append] at hbody
      have hsub : (first ++ [].flatten ++ upserts).map Prod.fst = first.map Prod.fst ++ upserts.map Prod.fst := by simp
      rcases List.mem_append.mp hbody with hbody | hbody
      · refine metadataDocument_of_chunks hlossless hfirst ?_ ?_ (hsub ▸ List.subset_append_left _ _) _ body hbody <;>
          simp [PushRow.snapshot?, PushRow.token?]
      · refine metadataDocument_of_chunks hlossless hupserts ?_ ?_ (hsub ▸ List.subset_append_right _ _) _ body hbody <;>
          simp only [List.map_nil, List.nil_append, List.mem_append, List.mem_map] <;>
          rintro row (⟨a, -, rfl⟩ | ⟨a, -, rfl⟩) <;> rfl
  next => cases hstep

/-- **A turn of the machine keeps what its cycle needs.** -/
theorem Kept.step (hlossless : crates.Lossless) {label : Label} (h : sender.Kept crates accountId machine)
    (hstep : sender.step crates accountId machine label = some sender') : sender'.Kept crates accountId machine := by
  cases label with
  | write tables => exact h.write hstep
  | start profiles contexts quotas => exact h.begin hlossless hstep
  | call => exact h.call hlossless hstep
  | acknowledged => exact h.acknowledged hstep
  | stop =>
    obtain rfl := Option.some.inj hstep
    exact h.idle fun e he => by cases he

theorem kept_initial (tables : Tables) (destinations : Nat) :
    (Sender.initial machine tables destinations).Kept crates accountId machine where
  data := {
    pending := fun _ _ hpage => by cases hpage
    single := .inl rfl
    settled := fun _ => rfl
    doneUsage := .nil (Int.natCast_nonneg _)
    doneTokens := .nil
    sweepFrom := le_rfl
    snapshots := rfl
    grains := rfl
    issued := fun _ hchunk => by cases hchunk
    readable := fun _ hchunk => by cases hchunk
    seen := fun _ hstored => hstored
    steady := fun _ hgrain => hgrain }
  stage := trivial
  ended := fun _ he => by cases he

/-! ## The documents -/

/-- How many of the page's documents the cycle has heard of. -/
def acked (sender : Sender) : Nat :=
  match sender.stage with
  | .sending page rest _ _ => page.draft.chunks.length - rest.length
  | _ => 0

/-- The documents of the page that is pending. -/
def page (sender : Sender) : List ReporterPendingChunk :=
  ((sender.store.pending .usage).or (sender.store.pending .token)).elim [] fun page => page.draft.chunks

/-- The machine as an outbox. -/
def outbox (sender : Sender) (sent applied : List ReporterPendingChunk) : Outbox ReporterPendingChunk :=
  ⟨sender.done, sender.page, sender.acked, sent, applied⟩

theorem Empty.page (h : sender.Empty) : sender.page = [] := by
  rw [Sender.page, h .usage, h .token]
  rfl

theorem Data.page_eq (h : sender.Data crates accountId machine) {kind : ReporterStreamKind} {page : ReporterPendingPage}
    (hpage : sender.store.pending kind = some page) : sender.page = page.draft.chunks := by
  rw [Sender.page]
  cases kind with
  | usage =>
    rw [hpage]
    rfl
  | token =>
    rw [hpage, h.other hpage (by decide : ReporterStreamKind.usage ≠ .token)]
    rfl

/-- A page made at the cursor has ids of its own. -/
theorem nodup_requestIds (hlossless : crates.Lossless) (h : sender.Data crates accountId machine)
    (hfree : CollisionFree crates sender.hashed) {draft : ReporterPendingDraft} {read : PageRows}
    (hcursor : sender.store.cursor = some draft.expected)
    (hdrafted : Drafted crates accountId machine sender.store.tables sender.seen sender.steady sender.hashed draft read)
    (hdone : (sender.done.map ReporterPendingChunk.requestId).Nodup) :
    ((sender.done ++ draft.chunks).map ReporterPendingChunk.requestId).Nodup := by
  have hexpected : sender.cursor = draft.expected := by
    rw [Sender.cursor, hcursor, Option.getD_some]
  rw [List.map_append]
  refine List.nodup_append.mpr ⟨hdone, ?_, fun id hid id' hid' heq => ?_⟩
  · rw [List.nodup_iff_injective_getElem]
    intro i j hij
    simp only [List.getElem_map] at hij
    have hi : i.val < draft.chunks.length := by simpa using i.isLt
    have hj : j.val < draft.chunks.length := by simpa using j.isLt
    obtain ⟨batch, hissued⟩ := hdrafted.issued i.val _ (List.getElem?_eq_getElem hi)
    obtain ⟨batch', hissued'⟩ := hdrafted.issued j.val _ (List.getElem?_eq_getElem hj)
    have hidentity := hissued.identity_eq hlossless hfree hissued' hij
    exact Fin.ext (congrArg PendingIdentity.index hidentity)
  · obtain ⟨chunk, hchunk, rfl⟩ := List.mem_map.mp hid
    obtain ⟨chunk', hchunk', rfl⟩ := List.mem_map.mp hid'
    obtain ⟨identity, hrank, hissued⟩ := h.issued chunk hchunk
    obtain ⟨i, hi⟩ := List.mem_iff_getElem?.mp hchunk'
    obtain ⟨batch, hissued'⟩ := hdrafted.issued i chunk' hi
    obtain rfl := hissued.identity_eq hlossless hfree hissued' heq
    rw [hexpected] at hrank
    exact lt_irrefl _ hrank

end Sender

end Atmux.Pulse
