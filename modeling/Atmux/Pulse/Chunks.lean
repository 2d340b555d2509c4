/-
The documents of a page.

Rows go into documents in their order, as many of them into one as fit: a start
of the rows that is too large is halved. `appendRowChunks_ok` says what comes
of it, and `reporterPendingDraft_ok` what the outbox gets: every document reads
back as its part of the rows, under an id made of the page, its place in it and
the rows.
-/
import Atmux.Lib.Errors
import Atmux.Pulse.Outbox

namespace Atmux.Pulse

open Lib

/-! ## Rows -/

inductive PushRow
  | profile (row : ReportedProfile)
  | snapshot (row : UsageSnapshot)
  | token (row : TokenGrain)
  | context (row : ContextSession)
  | gemini (row : GeminiQuota)
deriving DecidableEq

def PushBatch.push (batch : PushBatch) : PushRow → PushBatch
  | .profile row => { batch with profiles := batch.profiles ++ [row] }
  | .snapshot row => { batch with snapshots := batch.snapshots ++ [row] }
  | .token row => { batch with tokenGrains := batch.tokenGrains ++ [row] }
  | .context row => { batch with contextSessions := batch.contextSessions ++ [row] }
  | .gemini row => { batch with geminiQuotas := batch.geminiQuotas ++ [row] }

def batchFromRows (rows : List PushRow) : PushBatch := rows.foldl PushBatch.push .empty

namespace PushRow

def snapshot? : PushRow → Option UsageSnapshot
  | .snapshot row => some row
  | _ => none

def token? : PushRow → Option TokenGrain
  | .token row => some row
  | _ => none

end PushRow

theorem foldl_push (batch : PushBatch) (rows : List PushRow) :
    (rows.foldl PushBatch.push batch).snapshots = batch.snapshots ++ rows.filterMap PushRow.snapshot? ∧
      (rows.foldl PushBatch.push batch).tokenGrains = batch.tokenGrains ++ rows.filterMap PushRow.token? := by
  induction rows generalizing batch with
  | nil => simp
  | cons row rows ih =>
    obtain ⟨hsnapshots, htokens⟩ := ih (batch.push row)
    rw [List.foldl_cons, hsnapshots, htokens]
    cases row <;> simp [PushBatch.push, List.filterMap_cons, PushRow.snapshot?, PushRow.token?]

theorem snapshots_batchFromRows (rows : List PushRow) : (batchFromRows rows).snapshots = rows.filterMap PushRow.snapshot? := by
  rw [batchFromRows, (foldl_push _ _).1]
  exact List.nil_append _

theorem tokenGrains_batchFromRows (rows : List PushRow) :
    (batchFromRows rows).tokenGrains = rows.filterMap PushRow.token? := by
  rw [batchFromRows, (foldl_push _ _).2]
  exact List.nil_append _

/-! ## Documents -/

section
variable (crates : ReporterCrates) (accountId : AccountId) (machine : MachineName)

def contentRequestId (canonical : List UInt8) : String :=
  "push-" ++ String.ofList (((crates.digest canonical).toList.take 16).flatMap hexByte)

def envelopeMarginBytes : Nat := 1024

/-- The first of `more + 1` rows that fit in a document, found by halving, with
their batch and its JSON. -/
def fitRows (rows : List PushRow) (more : Nat) : PulseResult (Nat × List UInt8) := do
  let some canonical := crates.batchJson (batchFromRows (rows.take (more + 1)))
    | throw ⟨.internal, "failed to encode Pulse reporter batch"⟩
  if maxPushBodyBytes - envelopeMarginBytes < canonical.length then
    if more = 0 then throw (.invalidInput "one Pulse reporter row exceeds the request bound")
    -- half of `more + 1`, rounded up, is `more / 2 + 1`
    else fitRows rows (more / 2)
  else pure (more, canonical)
termination_by more

/-- The document of some rows. -/
def envelopeOf (requestId : String) (batch : PushBatch) : PushEnvelope where
  version := pushVersion
  requestId := requestId
  reporterVersion := reporterVersion
  accountId := some accountId
  machine := some machine
  batch := batch

/-- The rows' documents, each with the number of its rows. -/
def appendRowChunks (rows : List PushRow) : PulseResult (List (List UInt8 × Nat)) :=
  match rows with
  | [] => .ok []
  | first :: rest => do
    let (more, canonical) ← fitRows crates (first :: rest) (min (first :: rest).length maxPushRows - 1)
    let batch := batchFromRows ((first :: rest).take (more + 1))
    let body ← (envelopeOf accountId machine (contentRequestId crates canonical) batch).encode crates
    let chunks ← appendRowChunks (rest.drop more)
    pure ((body, more + 1) :: chunks)
termination_by rows.length
decreasing_by
  simp only [List.length_drop, List.length_cons]
  omega

def PushBatch.rows (batch : PushBatch) : List PushRow :=
  batch.profiles.map .profile ++ batch.snapshots.map .snapshot ++ batch.tokenGrains.map .token ++
    batch.contextSessions.map .context ++ batch.geminiQuotas.map .gemini

def deterministicPageChunks (batch : PushBatch) : PulseResult (List (List UInt8 × Nat)) :=
  appendRowChunks crates accountId machine batch.rows

/-- Profiles, then each snapshot in a document of its own, then the rest. -/
def deterministicChunks (batch : PushBatch) : PulseResult (List (List UInt8 × Nat)) := do
  let profiles ← appendRowChunks crates accountId machine (batch.profiles.map .profile)
  let snapshots ← batch.snapshots.mapM fun row => appendRowChunks crates accountId machine [.snapshot row]
  let upserts ← appendRowChunks crates accountId machine
    (batch.tokenGrains.map .token ++ batch.contextSessions.map .context ++ batch.geminiQuotas.map .gemini)
  pure (profiles ++ snapshots.flatten ++ upserts)

/-! ## Pages -/

def pendingRequestId (identity : PendingIdentity) : PulseResult String := do
  let some canonical := crates.identityJson identity
    | throw ⟨.internal, "failed to encode a Pulse reporter outbox identity"⟩
  pure (contentRequestId crates canonical)

/-- A document under its place in the outbox. -/
def pendingChunk (kind : ReporterStreamKind) (expected next : ReporterCursorState) (index : Nat)
    (chunk : List UInt8 × Nat) : PulseResult ReporterPendingChunk := do
  let some envelope := crates.fromSlice chunk.1
    | throw ⟨.internal, "failed to decode a generated Pulse reporter document"⟩
  let requestId ← pendingRequestId crates ⟨accountId, machine, kind, expected, next, index, envelope.batch⟩
  let body ← { envelope with requestId }.encode crates
  pure ⟨requestId, body, chunk.2⟩

def reporterPendingDraft (kind : ReporterStreamKind) (expected next : ReporterCursorState) (batch : PushBatch) :
    PulseResult ReporterPendingDraft := do
  let chunks ← deterministicPageChunks crates accountId machine batch
  let pending ← chunks.zipIdx.mapM fun entry => pendingChunk crates accountId machine kind expected next entry.2 entry.1
  let draft := ⟨kind, expected, next, pending⟩
  draft.validate crates accountId machine
  pure draft

end

/-! ## What the documents are -/

section
variable {crates : ReporterCrates} {accountId : AccountId} {machine : MachineName}

theorem encode_ok {envelope : PushEnvelope} {body : List UInt8} (h : envelope.encode crates = .ok body) :
    crates.envelopeJson envelope = some body ∧ body.length ≤ maxPushBodyBytes ∧ envelope.batch.rowCount ≤ maxPushRows := by
  obtain ⟨_, -, h⟩ := bind_ok h
  obtain ⟨_, -, h⟩ := bind_ok h
  obtain ⟨hbounds, h⟩ := guard_ok h
  simp only [not_or, not_lt] at hbounds
  cases hjson : crates.envelopeJson envelope with
  | none =>
    rw [hjson] at h
    cases h
  | some bytes =>
    rw [hjson] at h
    obtain ⟨hlength, h⟩ := guard_ok h
    obtain rfl := Except.ok.inj h
    exact ⟨rfl, not_lt.mp hlength, hbounds.2⟩

theorem fitRows_ok {rows : List PushRow} {more fit : Nat} {canonical : List UInt8}
    (h : fitRows crates rows more = .ok (fit, canonical)) :
    fit ≤ more ∧ crates.batchJson (batchFromRows (rows.take (fit + 1))) = some canonical ∧
      canonical.length ≤ maxPushBodyBytes - envelopeMarginBytes := by
  induction more using Nat.strong_induction_on with
  | _ more ih =>
    rw [fitRows] at h
    cases hjson : crates.batchJson (batchFromRows (rows.take (more + 1))) with
    | none =>
      rw [hjson] at h
      cases h
    | some json =>
      simp only [hjson] at h
      split at h
      · split at h
        · cases h
        next hmore =>
          obtain ⟨hle, hrest⟩ := ih (more / 2) (by omega) h
          exact ⟨by omega, hrest⟩
      next hfits =>
        obtain ⟨rfl, rfl⟩ := Prod.mk.inj (Except.ok.inj h)
        exact ⟨le_rfl, hjson, not_lt.mp hfits⟩

/-- A document of some rows, before it has a place. -/
structure Chunked (crates : ReporterCrates) (accountId : AccountId) (machine : MachineName) (part : List PushRow)
    (chunk : List UInt8 × Nat) : Prop where
  nonempty : part ≠ []
  rows : chunk.2 = part.length
  encoded : ∃ canonical, crates.batchJson (batchFromRows part) = some canonical ∧
    (envelopeOf accountId machine (contentRequestId crates canonical) (batchFromRows part)).encode crates = .ok chunk.1

/-- **The documents have the rows in their order**, every row in one of them. -/
theorem appendRowChunks_ok {rows : List PushRow} {chunks : List (List UInt8 × Nat)}
    (h : appendRowChunks crates accountId machine rows = .ok chunks) :
    ∃ parts, parts.flatten = rows ∧ List.Forall₂ (Chunked crates accountId machine) parts chunks := by
  induction hlength : rows.length using Nat.strong_induction_on generalizing rows chunks with
  | _ n ih =>
    cases rows with
    | nil =>
      rw [appendRowChunks] at h
      obtain rfl := Except.ok.inj h
      exact ⟨[], rfl, .nil⟩
    | cons first rest =>
      rw [appendRowChunks] at h
      obtain ⟨⟨more, canonical⟩, hfit, h⟩ := bind_ok h
      obtain ⟨body, hbody, h⟩ := bind_ok h
      obtain ⟨others, hothers, h⟩ := bind_ok h
      obtain rfl := Except.ok.inj h
      obtain ⟨hmore, hjson, -⟩ := fitRows_ok hfit
      obtain ⟨parts, hparts, hchunks⟩ := ih (rest.drop more).length (by simp at hlength ⊢; omega) hothers rfl
      refine ⟨(first :: rest).take (more + 1) :: parts, ?_, .cons ⟨by simp, ?_, canonical, hjson, hbody⟩ hchunks⟩
      · rw [List.flatten_cons, hparts, List.take_succ_cons, List.cons_append, List.take_append_drop]
      · have hmin : min (first :: rest).length maxPushRows ≤ (first :: rest).length := Nat.min_le_left _ _
        rw [List.length_take]
        simp only [List.length_cons] at hmore hmin ⊢
        omega

/-- A document of the outbox: it reads back as its part of the rows, under an
id made of the page, its place and the rows. -/
structure Placed (crates : ReporterCrates) (accountId : AccountId) (machine : MachineName) (kind : ReporterStreamKind)
    (expected next : ReporterCursorState) (part : List PushRow) (index : Nat) (chunk : ReporterPendingChunk) : Prop where
  nonempty : part ≠ []
  rows : chunk.rows = part.length
  identity : ∃ canonical,
    crates.identityJson ⟨accountId, machine, kind, expected, next, index, batchFromRows part⟩ = some canonical ∧
      chunk.requestId = contentRequestId crates canonical
  encoded : (envelopeOf accountId machine chunk.requestId (batchFromRows part)).encode crates = .ok chunk.body

theorem pendingChunk_ok (hlossless : crates.Lossless) {kind : ReporterStreamKind} {expected next : ReporterCursorState}
    {index : Nat} {part : List PushRow} {chunk : List UInt8 × Nat} {pending : ReporterPendingChunk}
    (hchunk : Chunked crates accountId machine part chunk)
    (h : pendingChunk crates accountId machine kind expected next index chunk = .ok pending) :
    Placed crates accountId machine kind expected next part index pending := by
  obtain ⟨canonical, -, hencode⟩ := hchunk.encoded
  rw [pendingChunk, hlossless.envelope _ _ (encode_ok hencode).1] at h
  obtain ⟨requestId, hrequest, h⟩ := bind_ok h
  obtain ⟨body, hbody, h⟩ := bind_ok h
  obtain rfl := Except.ok.inj h
  rw [pendingRequestId] at hrequest
  simp only [envelopeOf] at hrequest
  cases hjson : crates.identityJson ⟨accountId, machine, kind, expected, next, index, batchFromRows part⟩ with
  | none =>
    rw [hjson] at hrequest
    cases hrequest
  | some json =>
    rw [hjson] at hrequest
    exact ⟨hchunk.nonempty, hchunk.rows, ⟨json, hjson, (Except.ok.inj hrequest).symm⟩, hbody⟩

/-- Documents under their places, from `start` on. -/
def PlacedFrom (crates : ReporterCrates) (accountId : AccountId) (machine : MachineName) (kind : ReporterStreamKind)
    (expected next : ReporterCursorState) (start : Nat) (parts : List (List PushRow)) (pending : List ReporterPendingChunk) :
    Prop :=
  List.Forall₂ (fun entry chunk => Placed crates accountId machine kind expected next entry.1 entry.2 chunk)
    (parts.zipIdx start) pending

theorem mapM_pendingChunk (hlossless : crates.Lossless) {kind : ReporterStreamKind} {expected next : ReporterCursorState}
    {start : Nat} {parts : List (List PushRow)} {chunks : List (List UInt8 × Nat)} {pending : List ReporterPendingChunk}
    (hchunks : List.Forall₂ (Chunked crates accountId machine) parts chunks)
    (h : (chunks.zipIdx start).mapM (fun entry => pendingChunk crates accountId machine kind expected next entry.2 entry.1) =
      .ok pending) : PlacedFrom crates accountId machine kind expected next start parts pending := by
  have hread := mapM_ok h
  clear h
  induction hchunks generalizing start pending with
  | nil =>
    cases hread
    exact .nil
  | cons hchunk _ ih =>
    rw [List.zipIdx_cons] at hread
    cases hread with
    | cons hfirst hrest => exact .cons (pendingChunk_ok hlossless hchunk hfirst) (ih hrest)

/-- **A page's documents are its rows**: the outbox gets a draft that passes its
check, whose documents have the rows in their order. -/
theorem reporterPendingDraft_ok (hlossless : crates.Lossless) {kind : ReporterStreamKind}
    {expected next : ReporterCursorState} {batch : PushBatch} {draft : ReporterPendingDraft}
    (h : reporterPendingDraft crates accountId machine kind expected next batch = .ok draft) :
    draft.validate crates accountId machine = .ok () ∧ draft.kind = kind ∧ draft.expected = expected ∧ draft.next = next ∧
      ∃ parts, parts.flatten = batch.rows ∧
        PlacedFrom crates accountId machine kind expected next 0 parts draft.chunks := by
  obtain ⟨chunks, hchunks, h⟩ := bind_ok h
  obtain ⟨pending, hpending, h⟩ := bind_ok h
  obtain ⟨⟨⟩, hvalid, h⟩ := bind_ok h
  obtain rfl := Except.ok.inj h
  obtain ⟨parts, hparts, hforall⟩ := appendRowChunks_ok hchunks
  exact ⟨hvalid, rfl, rfl, rfl, parts, hparts, mapM_pendingChunk hlossless hforall hpending⟩

end

/-! ## No conflict in a draft -/

/-- The computation ends in no conflict. -/
abbrev Calm {α : Type} (a : PulseResult α) : Prop := Fails (fun e : PulseError => e.kind ≠ .conflict) a

section
variable {crates : ReporterCrates} {accountId : AccountId} {machine : MachineName}

theorem calm_validateReporterTransition (expected next : ReporterCursorState) : Calm (validateReporterTransition expected next) := by
  unfold validateReporterTransition
  split
  · exact .error (by decide)
  split
  · split
    · exact .error (by decide)
    · exact .ok ()
  split
  · exact .error (by decide)
  split
  · split
    · exact .ok ()
    · exact .error (by decide)
  split
  · exact .ok ()
  · exact .error (by decide)

theorem calm_encode (envelope : PushEnvelope) : Calm (envelope.encode crates) := by
  refine .bind ?_ fun _ _ => .bind ?_ fun _ _ => .ite (fun _ => .throw_bind (by decide) _) fun _ => ?_
  · unfold validateRequestId
    exact .ite (fun _ => .ok ()) fun _ => .error (by decide)
  · unfold validateReporterVersion validateSafeText
    exact .ite (fun _ => .error (fun h => by cases h)) fun _ => .ok ()
  · split
    · exact .ite (fun _ => .throw_bind (by decide) _) fun _ => .ok _
    · exact .error (by decide)

theorem calm_fitRows (rows : List PushRow) (more : Nat) : Calm (fitRows crates rows more) := by
  induction more using Nat.strong_induction_on with
  | _ more ih =>
    rw [fitRows]
    split
    · refine .ite (fun _ => .ite (fun _ => .error (by decide)) fun hmore => ih _ (by omega)) fun _ => .ok _
    · exact .error (by decide)

theorem calm_appendRowChunks (rows : List PushRow) : Calm (appendRowChunks crates accountId machine rows) := by
  induction hlength : rows.length using Nat.strong_induction_on generalizing rows with
  | _ n ih =>
    cases rows with
    | nil =>
      rw [appendRowChunks]
      exact .ok []
    | cons first rest =>
      rw [appendRowChunks]
      refine .bind (calm_fitRows _ _) fun fit _ => .bind (calm_encode _) fun body _ => .bind ?_ fun chunks _ => .ok _
      exact ih _ (by simp at hlength ⊢; omega) _ rfl

theorem calm_pendingChunk (kind : ReporterStreamKind) (expected next : ReporterCursorState) (index : Nat)
    (chunk : List UInt8 × Nat) : Calm (pendingChunk crates accountId machine kind expected next index chunk) := by
  unfold pendingChunk
  split
  · refine .bind ?_ fun requestId _ => .bind (calm_encode _) fun body _ => .ok _
    unfold pendingRequestId
    split
    · exact .ok _
    · exact .error (by decide)
  · exact .error (by decide)

theorem calm_checkChunk (kind : ReporterStreamKind) (before : Nat) (chunk : ReporterPendingChunk) :
    Calm (ReporterPendingDraft.checkChunk crates accountId machine kind before chunk) := by
  unfold ReporterPendingDraft.checkChunk
  refine .ite (fun _ => .throw_bind (by decide) _) fun _ => ?_
  split
  · split
    · exact .ite (fun _ => .throw_bind (by decide) _) fun _ => .ok _
    · exact .error (by decide)
  · exact .error (by decide)

theorem calm_validate (draft : ReporterPendingDraft) : Calm (draft.validate crates accountId machine) := by
  refine .bind (calm_validateReporterTransition _ _) fun _ _ => .ite (fun _ => .throw_bind (by decide) _) fun _ => ?_
  exact .bind (.foldlM (fun before chunk _ => calm_checkChunk _ before chunk) 0) fun _ _ => .ok _

theorem calm_reporterPendingDraft (kind : ReporterStreamKind) (expected next : ReporterCursorState) (batch : PushBatch) :
    Calm (reporterPendingDraft crates accountId machine kind expected next batch) := by
  refine .bind (calm_appendRowChunks _) fun chunks _ => .bind (.mapM fun entry _ => ?_) fun pending _ => ?_
  · exact calm_pendingChunk _ _ _ _ _
  · exact .bind (calm_validate _) fun _ _ => .ok _

theorem calm_deterministicChunks (batch : PushBatch) : Calm (deterministicChunks crates accountId machine batch) := by
  refine .bind (calm_appendRowChunks _) fun profiles _ => .bind (.mapM fun row _ => calm_appendRowChunks _) fun snapshots _ => ?_
  exact .bind (calm_appendRowChunks _) fun upserts _ => .ok _

end

end Atmux.Pulse
