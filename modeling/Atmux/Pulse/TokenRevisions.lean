/-
Scans and upserts that write one scope's token rows, in any order.

A scan's reservation can be used while the backfill that holds it goes on, or
while it is the revision taken last. What is written behind a scan raises the
row to a revision the scan's does not exceed, so the scan leaves the row alone
(`later_writes_kept`). An upsert that finds the row as it is takes no revision,
and the scan still writes over it (`repeated_write_undone`).
-/
import Atmux.Lib.Result
import Atmux.Lib.Runs
import Atmux.Pulse.TokenWrites

namespace Atmux.Pulse

open Lib

/-! ## Runs -/

inductive TokenWriteEvent
  /-- An operation that is ordered after the revision has succeeded for the key. -/
  | wrote (key : List String) (revision : Nat)
  /-- A scan that reserved the revision has changed the key's value. -/
  | changed (key : List String) (reserved : Nat)
deriving DecidableEq

/-- The tables, the observations that were begun, and what has happened, the
latest first. -/
structure TokenWriteState where
  writes : TokenWrites
  observations : List TokenWriteObservation
  log : List TokenWriteEvent

inductive TokenWriteStep
  | beginObservation
  | upsertObserved (observation : TokenWriteObservation) (grain : TokenGrain)
  | beginBackfill (sourceGeneration : TokenSourceGeneration) (restartCompleted : Bool)
  | applyPage (page : TokenBackfillPage)
  | upsert (others : PulseResult Unit) (grains : List TokenGrain)

/-- What a key's row says. -/
def TokenWrites.value (writes : TokenWrites) (key : List String) : Option TokenGrain :=
  (writes.rows.find? key).map TokenRow.grain

/-- The keys that have another value. -/
def TokenWrites.differing (writes writes' : TokenWrites) : List (List String) :=
  (writes'.rows.rows.filter fun row => writes.value row.primaryKey ≠ some row.grain).map TokenRow.primaryKey

namespace TokenWriteState

variable (crates : Crates)

def new (writes : TokenWrites) : TokenWriteState := ⟨writes, [], []⟩

/-- A scan's grains were written under the revision it had reserved, so after
the revision before. -/
def scanned (state : TokenWriteState) (reserved : Nat) (grains : List TokenGrain) (writes' : TokenWrites) : TokenWriteState where
  writes := writes'
  observations := state.observations
  log := grains.map (fun grain => .wrote grain.primaryKey (reserved - 1)) ++
    (state.writes.differing writes').map (.changed · reserved) ++ state.log

/-- A plain upsert is ordered after the revision that was taken last. -/
def upserted (state : TokenWriteState) (grains : List TokenGrain) (writes' : TokenWrites) : TokenWriteState where
  writes := writes'
  observations := state.observations
  log := grains.map (fun grain => .wrote grain.primaryKey state.writes.revision) ++ state.log

def step (state : TokenWriteState) : TokenWriteStep → TokenWriteState
  | .beginObservation =>
    match state.writes.beginTokenObservation with
    | .error _ => state
    | .ok (writes, observation) => { state with writes, observations := observation :: state.observations }
  | .upsertObserved observation grain =>
    if observation ∈ state.observations then
      match state.writes.upsertObservedTokenGrain crates observation grain with
      | .error _ => state
      | .ok writes => state.scanned observation.revision [grain] writes
    else state
  | .beginBackfill sourceGeneration restartCompleted =>
    match state.writes.beginTokenBackfill crates sourceGeneration restartCompleted with
    | .error _ => state
    | .ok (writes, _) => { state with writes }
  | .applyPage page =>
    match state.writes.applyTokenBackfillPage crates page with
    | .error _ => state
    | .ok (writes, _) => state.scanned page.expected.writeRevision page.rows writes
  | .upsert others grains =>
    match state.writes.upsertTokenBatch crates others grains with
    | .error _ => state
    | .ok writes => state.upserted (state.writes.ofBatch grains) writes

/-- A backfill that goes on has reserved the revision. -/
def Backfilling (state : TokenWriteState) (revision : Nat) : Prop :=
  ∃ backfill, state.writes.backfill = some backfill ∧ ¬ backfill.complete ∧ backfill.writeRevision = revision

/-- An observation has reserved the revision, and it is the last one. -/
def Observing (state : TokenWriteState) (revision : Nat) : Prop :=
  state.writes.revision = revision ∧ ∃ observation ∈ state.observations, observation.revision = revision

/-- An upsert that leaves a row as it is finds the row at the revision of every
scan that could still write it: of the backfill that goes on and, when it
leaves all of its rows as they are, of the last observation. -/
def Apart (state : TokenWriteState) : TokenWriteStep → Prop
  | .upsert others grains => ∀ writes', state.writes.upsertTokenBatch crates others grains = .ok writes' →
      ∀ grain ∈ state.writes.ofBatch grains,
        (∀ other ∈ state.writes.changed (state.writes.ofBatch grains), other.primaryKey ≠ grain.primaryKey) →
        ∀ row, state.writes.rows.find? grain.primaryKey = some row →
          (∀ revision, state.Backfilling revision → revision ≤ row.writeRevision) ∧
            (state.writes.changed (state.writes.ofBatch grains) = [] →
              ∀ revision, state.Observing revision → revision ≤ row.writeRevision)
  | _ => True

end TokenWriteState

/-! ## What is asked of a run -/

/-- No row is lost, and none goes back to an earlier revision. -/
def RevisionsRise (rows rows' : TokenRows) : Prop :=
  ∀ key row, rows.find? key = some row → ∃ row', rows'.find? key = some row' ∧ row.writeRevision ≤ row'.writeRevision

/-- A scan that changes a key has reserved a later revision than those which
the key was written after. -/
def NeverUndone (log : List TokenWriteEvent) : Prop :=
  log.Pairwise fun later earlier => ∀ key reserved revision, later = .changed key reserved → earlier = .wrote key revision →
    revision < reserved

/-- No row and no backfill is ahead of the revision that was taken last. -/
structure TokenWrites.Bounded (writes : TokenWrites) : Prop where
  rows : ∀ row ∈ writes.rows.rows, row.writeRevision ≤ writes.revision
  backfill : ∀ backfill, writes.backfill = some backfill → backfill.writeRevision ≤ writes.revision

theorem RevisionsRise.refl (rows : TokenRows) : RevisionsRise rows rows := fun _ row hrow => ⟨row, hrow, le_refl _⟩

theorem RevisionsRise.trans {rows rows' rows'' : TokenRows} (h : RevisionsRise rows rows') (h' : RevisionsRise rows' rows'') :
    RevisionsRise rows rows'' := by
  intro key row hrow
  obtain ⟨row', hrow', hle⟩ := h key row hrow
  obtain ⟨row'', hrow'', hle'⟩ := h' key row' hrow'
  exact ⟨row'', hrow'', hle.trans hle'⟩

/-! ## One write -/

section
variable {crates : Crates} {revision : Nat} {conditional : Bool} {rows rows' rows'' : TokenRows} {grain : TokenGrain}
  {grains grains' : List TokenGrain}

theorem upsertTokenAtRevision_ok (h : upsertTokenAtRevision crates revision conditional rows grain = .ok rows') :
    (conditional = true ∧ rows' = rows ∧ ∃ old, rows.find? grain.primaryKey = some old ∧ revision ≤ old.writeRevision) ∨
      (rows' = rows.upsert ⟨grain, revision⟩ ∧
        (conditional = true → ∀ old, rows.find? grain.primaryKey = some old → old.writeRevision < revision)) := by
  unfold upsertTokenAtRevision at h
  obtain ⟨-, -, h⟩ := bind_ok h
  obtain ⟨-, -, h⟩ := bind_ok h
  split at h
  next hcond =>
    obtain rfl := Except.ok.inj h
    rw [Bool.and_eq_true, Option.any_eq_true] at hcond
    obtain ⟨hconditional, old, hold, hle⟩ := hcond
    exact .inl ⟨hconditional, rfl, old, hold, of_decide_eq_true hle⟩
  next hcond =>
    obtain rfl := Except.ok.inj h
    refine .inr ⟨rfl, fun hconditional old hold => ?_⟩
    rw [hconditional, hold] at hcond
    simpa using hcond

/-- What became of the rows when grains were written under a revision. -/
structure Written (revision : Nat) (conditional : Bool) (rows : TokenRows) (grains : List TokenGrain) (rows' : TokenRows) :
    Prop where
  rises : conditional = true ∨ (∀ row ∈ rows.rows, row.writeRevision ≤ revision) → RevisionsRise rows rows'
  mem : ∀ row ∈ rows'.rows, row ∈ rows.rows ∨ row.writeRevision = revision
  reached : ∀ grain ∈ grains, ∃ row, rows'.find? grain.primaryKey = some row ∧ revision ≤ row.writeRevision
  others : ∀ key, (∀ grain ∈ grains, grain.primaryKey ≠ key) → rows'.find? key = rows.find? key
  kept : conditional = true → ∀ key row, rows.find? key = some row → revision ≤ row.writeRevision → rows'.find? key = some row

theorem Written.nil : Written revision conditional rows [] rows :=
  ⟨fun _ => .refl rows, fun _ h => .inl h, fun _ h => (by cases h), fun _ _ => rfl, fun _ _ _ h _ => h⟩

theorem upsert_written (h : conditional = true → ∀ old, rows.find? grain.primaryKey = some old → old.writeRevision < revision) :
    Written revision conditional rows [grain] (rows.upsert ⟨grain, revision⟩) := by
  have hself : (rows.upsert ⟨grain, revision⟩).find? grain.primaryKey = some ⟨grain, revision⟩ := Table.find?_upsert_self
  refine ⟨fun hle key row hrow => ?_, fun row hrow => ?_, fun other hother => ?_, fun key hkey => ?_,
    fun hconditional key row hrow hle => ?_⟩
  · by_cases hkey : key = grain.primaryKey
    · subst hkey
      refine ⟨_, hself, ?_⟩
      rcases hle with hconditional | hle
      · exact (h hconditional row hrow).le
      · refine hle row (Table.mem_rows.mpr ?_)
        rwa [Table.key_of_find? hrow]
    · have hne : key ≠ TokenRow.primaryKey ⟨grain, revision⟩ := hkey
      exact ⟨row, (Table.find?_upsert_of_ne hne).trans hrow, le_refl _⟩
  · rcases Table.mem_upsert hrow with rfl | hrow
    · exact .inr rfl
    · exact .inl hrow
  · obtain rfl := List.mem_singleton.mp hother
    exact ⟨_, hself, le_refl _⟩
  · exact Table.find?_upsert_of_ne (hkey grain (List.mem_singleton.mpr rfl)).symm
  · have hne : key ≠ TokenRow.primaryKey ⟨grain, revision⟩ := by
      rintro rfl
      have hlt := h hconditional row hrow
      omega
    exact (Table.find?_upsert_of_ne hne).trans hrow

theorem upsertTokenAtRevision_written (h : upsertTokenAtRevision crates revision conditional rows grain = .ok rows') :
    Written revision conditional rows [grain] rows' := by
  obtain ⟨-, rfl, old, hold, hle⟩ | ⟨rfl, hlower⟩ := upsertTokenAtRevision_ok h
  · refine ⟨fun _ => .refl _, fun _ h => .inl h, fun other hother => ?_, fun _ _ => rfl, fun _ _ _ h _ => h⟩
    obtain rfl := List.mem_singleton.mp hother
    exact ⟨old, hold, hle⟩
  · exact upsert_written hlower

/-- A row that a write has reached stays so. -/
theorem Written.append (h : Written revision conditional rows grains rows') (h' : Written revision conditional rows' grains' rows'') :
    Written revision conditional rows (grains ++ grains') rows'' := by
  have hle (hbound : conditional = true ∨ ∀ row ∈ rows.rows, row.writeRevision ≤ revision) :
      conditional = true ∨ ∀ row ∈ rows'.rows, row.writeRevision ≤ revision :=
    hbound.imp_right fun hbound row hrow => (h.mem row hrow).elim (hbound row) le_of_eq
  refine ⟨fun hbound => (h.rises hbound).trans (h'.rises (hle hbound)), fun row hrow => ?_, fun grain hgrain => ?_,
    fun key hkey => ?_, fun hconditional key row hrow hle => ?_⟩
  · rcases h'.mem row hrow with hrow | hrow
    · exact h.mem row hrow
    · exact .inr hrow
  · rcases List.mem_append.mp hgrain with hgrain | hgrain
    · obtain ⟨row, hrow, hrevision⟩ := h.reached grain hgrain
      by_cases hkey : ∃ other ∈ grains', other.primaryKey = grain.primaryKey
      · obtain ⟨other, hother, heq⟩ := hkey
        exact heq ▸ h'.reached other hother
      · refine ⟨row, ?_, hrevision⟩
        rwa [h'.others _ fun other hother heq => hkey ⟨other, hother, heq⟩]
    · exact h'.reached grain hgrain
  · rw [h'.others key fun grain hgrain => hkey grain (List.mem_append_right _ hgrain)]
    exact h.others key fun grain hgrain => hkey grain (List.mem_append_left _ hgrain)
  · exact h'.kept hconditional key row (h.kept hconditional key row hrow hle) hle

theorem foldlM_written (h : grains.foldlM (upsertTokenAtRevision crates revision conditional) rows = .ok rows') :
    Written revision conditional rows grains rows' := by
  induction grains generalizing rows with
  | nil =>
    obtain rfl := Except.ok.inj h
    exact .nil
  | cons grain grains ih =>
    rw [List.foldlM_cons] at h
    obtain ⟨between, hwrite, h⟩ := bind_ok h
    exact (upsertTokenAtRevision_written hwrite).append (ih h)

end

/-! ## Operations -/

section
variable {crates : Crates} {writes writes' : TokenWrites} {revision : Nat} {grain : TokenGrain} {grains : List TokenGrain}

theorem allocateTokenRevision_ok (h : writes.allocateTokenRevision = .ok revision) : revision = writes.revision + 1 := by
  unfold TokenWrites.allocateTokenRevision at h
  split at h
  · exact (Except.ok.inj h).symm
  · cases h

theorem beginTokenObservation_ok {observation : TokenWriteObservation}
    (h : writes.beginTokenObservation = .ok (writes', observation)) :
    writes' = { writes with revision := writes.revision + 1 } ∧ observation.revision = writes.revision + 1 := by
  obtain ⟨revision, hrevision, h⟩ := bind_ok h
  obtain rfl := allocateTokenRevision_ok hrevision
  obtain ⟨rfl, rfl⟩ := Prod.mk.inj (Except.ok.inj h)
  exact ⟨rfl, rfl⟩

theorem upsertObservedTokenGrain_ok {observation : TokenWriteObservation}
    (h : writes.upsertObservedTokenGrain crates observation grain = .ok writes') :
    writes.revision = observation.revision ∧
      ∃ rows, Written observation.revision true writes.rows [grain] rows ∧ writes' = { writes with rows } := by
  unfold TokenWrites.upsertObservedTokenGrain at h
  obtain ⟨-, -, h⟩ := bind_ok h
  obtain ⟨-, h⟩ := guard_ok h
  obtain ⟨hcurrent, h⟩ := guard_ok h
  obtain ⟨rows, hrows, h⟩ := bind_ok h
  obtain rfl := Except.ok.inj h
  exact ⟨not_not.mp hcurrent, rows, upsertTokenAtRevision_written hrows, rfl⟩

theorem loadTokenBackfill_ok {backfill : Option TokenBackfillState} (h : writes.loadTokenBackfill crates = .ok backfill) :
    backfill = writes.backfill := by
  obtain ⟨-, -, h⟩ := bind_ok h
  exact (Except.ok.inj h).symm

theorem beginTokenBackfill_ok {sourceGeneration : TokenSourceGeneration} {restartCompleted : Bool} {state : TokenBackfillState}
    (h : writes.beginTokenBackfill crates sourceGeneration restartCompleted = .ok (writes', state)) :
    writes' = writes ∨ state.writeRevision = writes.revision + 1 ∧
      writes' = { writes with revision := writes.revision + 1, backfill := some state } := by
  unfold TokenWrites.beginTokenBackfill at h
  obtain ⟨-, -, h⟩ := bind_ok h
  obtain ⟨backfill, -, h⟩ := bind_ok h
  cases backfill with
  | none =>
    obtain ⟨revision, hrevision, h⟩ := bind_ok h
    obtain rfl := allocateTokenRevision_ok hrevision
    obtain ⟨-, -, h⟩ := bind_ok h
    obtain ⟨rfl, rfl⟩ := Prod.mk.inj (Except.ok.inj h)
    exact .inr ⟨rfl, rfl⟩
  | some current =>
    simp only at h
    split at h
    · obtain ⟨revision, hrevision, h⟩ := bind_ok h
      obtain rfl := allocateTokenRevision_ok hrevision
      obtain ⟨-, h⟩ := guard_ok h
      obtain ⟨rfl, rfl⟩ := Prod.mk.inj (Except.ok.inj h)
      exact .inr ⟨rfl, rfl⟩
    · obtain ⟨rfl, rfl⟩ := Prod.mk.inj (Except.ok.inj h)
      exact .inl rfl

theorem TokenBackfillPage.validate_ok {page : TokenBackfillPage} (h : page.validate crates = .ok ()) :
    ¬ page.expected.complete := by
  obtain ⟨-, -, h⟩ := bind_ok h
  obtain ⟨hvalid, -⟩ := guard_ok h
  exact fun hcomplete => hvalid (.inl hcomplete)

theorem applyTokenBackfillPage_ok {page : TokenBackfillPage} {next : TokenBackfillState}
    (h : writes.applyTokenBackfillPage crates page = .ok (writes', next)) :
    writes.backfill = some page.expected ∧ ¬ page.expected.complete ∧ next.writeRevision = page.expected.writeRevision ∧
      ∃ rows, Written page.expected.writeRevision true writes.rows page.rows rows ∧
        writes' = { writes with rows, backfill := some next } := by
  unfold TokenWrites.applyTokenBackfillPage at h
  obtain ⟨⟨⟩, hvalid, h⟩ := bind_ok h
  obtain ⟨backfill, hload, h⟩ := bind_ok h
  obtain rfl := loadTokenBackfill_ok hload
  split at h
  · cases h
  next current hcurrent =>
    obtain ⟨heq, h⟩ := guard_ok h
    obtain ⟨-, h⟩ := guard_ok h
    obtain ⟨rows, hrows, h⟩ := bind_ok h
    obtain ⟨rfl, rfl⟩ := Prod.mk.inj (Except.ok.inj h)
    refine ⟨?_, TokenBackfillPage.validate_ok hvalid, rfl, rows, foldlM_written hrows, rfl⟩
    rw [hcurrent, not_not.mp heq]

theorem upsertTokenBatch_ok {others : PulseResult Unit} (h : writes.upsertTokenBatch crates others grains = .ok writes') :
    (writes.changed (writes.ofBatch grains) = [] ∧ writes' = writes) ∨
      ∃ rows, Written (writes.revision + 1) false writes.rows (writes.changed (writes.ofBatch grains)) rows ∧
        writes' = { writes with rows, revision := writes.revision + 1 } := by
  obtain ⟨-, -, h⟩ := bind_ok h
  obtain ⟨between, hscope, h⟩ := bind_ok h
  obtain ⟨-, -, h⟩ := bind_ok h
  obtain rfl := Except.ok.inj h
  obtain ⟨-, -, hscope⟩ := bind_ok hscope
  split at hscope
  next hnone => exact .inl ⟨hnone, (Except.ok.inj hscope).symm⟩
  · obtain ⟨revision, hrevision, hscope⟩ := bind_ok hscope
    obtain rfl := allocateTokenRevision_ok hrevision
    obtain ⟨rows, hrows, hscope⟩ := bind_ok hscope
    exact .inr ⟨rows, foldlM_written hrows, (Except.ok.inj hscope).symm⟩

/-- A grain that a batch leaves alone has a row. -/
theorem find?_of_unchanged (hmem : grain ∈ grains) (h : grain ∉ writes.changed grains) :
    ∃ row, writes.rows.find? grain.primaryKey = some row := by
  have hmatches : writes.tokenMatches grain = true := by
    by_contra hmatches
    exact h (List.mem_filter.mpr ⟨hmem, by simpa using hmatches⟩)
  obtain ⟨row, hrow, -⟩ := (Option.any_eq_true _ _).mp hmatches
  exact ⟨row, hrow⟩

/-- What a scan changes was behind the scan's revision. -/
theorem lt_of_differing (h : Written revision true writes.rows grains writes'.rows) {key : List String}
    (hkey : key ∈ writes.differing writes') {row : TokenRow} (hrow : writes.rows.find? key = some row) :
    row.writeRevision < revision := by
  by_contra hle
  obtain ⟨row', hrow', rfl⟩ := List.mem_map.mp hkey
  obtain ⟨hmem, hdiffers⟩ := List.mem_filter.mp hrow'
  have hkept := h.kept rfl _ row hrow (by omega)
  rw [Table.mem_rows, hkept] at hmem
  obtain rfl := Option.some.inj hmem
  rw [TokenWrites.value, hrow] at hdiffers
  simp at hdiffers

end

/-! ## What holds along a run -/

namespace TokenWriteState

variable {crates : Crates} {state state' : TokenWriteState} {writes' : TokenWrites} {reserved : Nat} {grains : List TokenGrain}

/-- A scan that holds the revision may still write. -/
def Open (state : TokenWriteState) (revision : Nat) : Prop := state.Backfilling revision ∨ state.Observing revision

/-- The key has a row, and the scans that may still write it and were begun
before the revision are not ahead of the row. -/
def Passed (state : TokenWriteState) (key : List String) (revision : Nat) : Prop :=
  ∃ row, state.writes.rows.find? key = some row ∧ ∀ reserved, state.Open reserved → reserved ≤ revision →
    reserved ≤ row.writeRevision

/-- Nothing is ahead of the revision that was taken last. -/
structure Bounded (state : TokenWriteState) : Prop where
  writes : state.writes.Bounded
  observations : ∀ observation ∈ state.observations, observation.revision ≤ state.writes.revision

structure Sound (state : TokenWriteState) : Prop where
  bounded : state.Bounded
  wrote : ∀ key revision, .wrote key revision ∈ state.log → revision ≤ state.writes.revision ∧ state.Passed key revision
  kept : NeverUndone state.log

/-- What has been written stays so, when the rows rise and whoever may write
could do so before or has begun since. -/
theorem Sound.carries (h : state.Sound) (hrevision : state.writes.revision ≤ state'.writes.revision)
    (hrises : RevisionsRise state.writes.rows state'.writes.rows)
    (hopen : ∀ reserved, state'.Open reserved → state.Open reserved ∨ state.writes.revision < reserved)
    {key : List String} {revision : Nat} (hwrote : .wrote key revision ∈ state.log) :
    revision ≤ state'.writes.revision ∧ state'.Passed key revision := by
  obtain ⟨hle, row, hrow, hpassed⟩ := h.wrote key revision hwrote
  obtain ⟨row', hrow', hrise⟩ := hrises key row hrow
  refine ⟨hle.trans hrevision, row', hrow', fun reserved hreserved hbefore => ?_⟩
  rcases hopen reserved hreserved with hreserved | hlater
  · exact (hpassed reserved hreserved hbefore).trans hrise
  · omega

/-! ### Scans -/

theorem Bounded.scanned (h : state.Bounded) (hopen : state.Open reserved)
    (hwritten : Written reserved true state.writes.rows grains writes'.rows)
    (hrevision : writes'.revision = state.writes.revision)
    (hbackfill : ∀ backfill, writes'.backfill = some backfill → backfill.writeRevision ≤ state.writes.revision) :
    (state.scanned reserved grains writes').Bounded := by
  have hreserved : reserved ≤ state.writes.revision := by
    rcases hopen with ⟨backfill, hbackfill, -, rfl⟩ | ⟨rfl, -⟩
    · exact h.writes.backfill backfill hbackfill
    · exact le_refl _
  refine ⟨⟨fun row hrow => ?_, fun backfill hnext => ?_⟩, fun observation hmem => ?_⟩
  · show row.writeRevision ≤ writes'.revision
    rcases hwritten.mem row hrow with hrow | hrow
    · exact hrevision ▸ h.writes.rows row hrow
    · exact hrevision ▸ hrow ▸ hreserved
  · show backfill.writeRevision ≤ writes'.revision
    exact hrevision ▸ hbackfill backfill hnext
  · show observation.revision ≤ writes'.revision
    exact hrevision ▸ h.observations observation hmem

theorem Sound.scanned (h : state.Sound) (hopen : state.Open reserved)
    (hwritten : Written reserved true state.writes.rows grains writes'.rows)
    (hbounded : (state.scanned reserved grains writes').Bounded)
    (hrevision : writes'.revision = state.writes.revision)
    (hopens : ∀ other, (state.scanned reserved grains writes').Open other → state.Open other) :
    (state.scanned reserved grains writes').Sound := by
  have hreserved : reserved ≤ state.writes.revision := by
    rcases hopen with ⟨backfill, hbackfill, -, rfl⟩ | ⟨rfl, -⟩
    · exact h.bounded.writes.backfill backfill hbackfill
    · exact le_refl _
  refine ⟨hbounded, fun key revision hwrote => ?_, ?_⟩
  · rcases List.mem_append.mp hwrote with hnew | hold
    · rcases List.mem_append.mp hnew with hnew | hnew
      · obtain ⟨grain, hgrain, heq⟩ := List.mem_map.mp hnew
        obtain ⟨rfl, rfl⟩ := (TokenWriteEvent.wrote.injEq ..).mp heq
        obtain ⟨row, hrow, hreached⟩ := hwritten.reached grain hgrain
        refine ⟨?_, row, hrow, fun other _ hbefore => by omega⟩
        show reserved - 1 ≤ writes'.revision
        omega
      · obtain ⟨_, _, heq⟩ := List.mem_map.mp hnew
        cases heq
    · refine h.carries ?_ (hwritten.rises (.inl rfl)) (fun other hother => .inl (hopens other hother)) hold
      show state.writes.revision ≤ writes'.revision
      omega
  · -- what changed, the scan was open to write
    refine List.pairwise_append.mpr ⟨List.pairwise_append.mpr ⟨?_, ?_, ?_⟩, h.kept, ?_⟩
    · refine List.pairwise_map.mpr (List.pairwise_of_forall fun _ _ _ _ _ hlater => ?_)
      cases hlater
    · refine List.pairwise_map.mpr (List.pairwise_of_forall fun _ _ _ _ _ _ hearlier => ?_)
      cases hearlier
    · intro later hlater _ _ _ _ _ heq
      obtain ⟨_, _, rfl⟩ := List.mem_map.mp hlater
      cases heq
    · rintro later hlater earlier hearlier key reserved' revision rfl rfl
      rcases List.mem_append.mp hlater with hlater | hlater
      · obtain ⟨_, _, heq⟩ := List.mem_map.mp hlater
        cases heq
      · obtain ⟨_, hkey, heq⟩ := List.mem_map.mp hlater
        obtain ⟨rfl, rfl⟩ := (TokenWriteEvent.changed.injEq ..).mp heq
        obtain ⟨-, row, hrow, hpassed⟩ := h.wrote _ revision hearlier
        have hlt := lt_of_differing hwritten hkey hrow
        by_contra hle
        have hle' := hpassed reserved hopen (by omega)
        omega

/-! ### Upserts -/

theorem Bounded.upserted {others : PulseResult Unit} (h : state.Bounded)
    (hupsert : state.writes.upsertTokenBatch crates others grains = .ok writes') :
    (state.upserted (state.writes.ofBatch grains) writes').Bounded ∧ RevisionsRise state.writes.rows writes'.rows := by
  obtain ⟨-, rfl⟩ | ⟨rows, hwritten, rfl⟩ := upsertTokenBatch_ok hupsert
  · exact ⟨⟨h.writes, h.observations⟩, .refl _⟩
  · have hrows (row : TokenRow) (hrow : row ∈ state.writes.rows.rows) : row.writeRevision ≤ state.writes.revision + 1 :=
      (h.writes.rows row hrow).trans (Nat.le_succ _)
    refine ⟨⟨⟨fun row hrow => ?_, fun backfill hbackfill => ?_⟩, fun observation hmem => ?_⟩, hwritten.rises (.inr hrows)⟩
    · exact (hwritten.mem row hrow).elim (hrows row) le_of_eq
    · exact (h.writes.backfill backfill hbackfill).trans (Nat.le_succ _)
    · exact (h.observations observation hmem).trans (Nat.le_succ _)

theorem Sound.upserted {others : PulseResult Unit} (h : state.Sound) (hapart : state.Apart crates (.upsert others grains))
    (hupsert : state.writes.upsertTokenBatch crates others grains = .ok writes') :
    (state.upserted (state.writes.ofBatch grains) writes').Sound := by
  obtain ⟨hbounded, hrises⟩ := h.bounded.upserted hupsert
  have hopens (other : Nat) (hother : (state.upserted (state.writes.ofBatch grains) writes').Open other) :
      state.Backfilling other ∨ state.writes.changed (state.writes.ofBatch grains) = [] ∧ state.Observing other := by
    obtain ⟨hnone, rfl⟩ | ⟨rows, -, rfl⟩ := upsertTokenBatch_ok hupsert
    · exact hother.imp_right fun hother => ⟨hnone, hother⟩
    · rcases hother with hother | ⟨hlast, observation, hmem, hobservation⟩
      · exact .inl hother
      · have hle := h.bounded.observations observation hmem
        have hlast' : state.writes.revision + 1 = other := hlast
        omega
  have hrevision : state.writes.revision ≤ writes'.revision := by
    obtain ⟨-, rfl⟩ | ⟨rows, -, rfl⟩ := upsertTokenBatch_ok hupsert
    · exact le_refl _
    · exact Nat.le_succ _
  refine ⟨hbounded, fun key revision hwrote => ?_, ?_⟩
  · rcases List.mem_append.mp hwrote with hnew | hold
    · obtain ⟨grain, hgrain, heq⟩ := List.mem_map.mp hnew
      obtain ⟨rfl, rfl⟩ := (TokenWriteEvent.wrote.injEq ..).mp heq
      refine ⟨hrevision, ?_⟩
      by_cases hkey : ∀ other ∈ state.writes.changed (state.writes.ofBatch grains), other.primaryKey ≠ grain.primaryKey
      · -- the row is left as it is
        obtain ⟨row, hrow⟩ := find?_of_unchanged hgrain fun hchanged => hkey grain hchanged rfl
        obtain ⟨hbackfilling, hobserving⟩ := hapart writes' hupsert grain hgrain hkey row hrow
        have hrow' : writes'.rows.find? grain.primaryKey = some row := by
          obtain ⟨-, rfl⟩ | ⟨rows, hwritten, rfl⟩ := upsertTokenBatch_ok hupsert
          · exact hrow
          · exact (hwritten.others _ hkey).trans hrow
        refine ⟨row, hrow', fun other hother _ => ?_⟩
        rcases hopens other hother with hother | ⟨hnone, hother⟩
        · exact hbackfilling other hother
        · exact hobserving hnone other hother
      · -- the row has the revision that the batch took
        push Not at hkey
        obtain ⟨other, hother, hkey⟩ := hkey
        obtain ⟨hnone, -⟩ | ⟨rows, hwritten, rfl⟩ := upsertTokenBatch_ok hupsert
        · rw [hnone] at hother
          cases hother
        · obtain ⟨row, hrow, hreached⟩ := hwritten.reached other hother
          exact ⟨row, hkey ▸ hrow, fun reserved _ hbefore => by omega⟩
    · refine h.carries hrevision hrises (fun other hother => .inl ?_) hold
      exact (hopens other hother).imp_right And.right
  · refine List.pairwise_append.mpr ⟨?_, h.kept, ?_⟩
    · refine List.pairwise_map.mpr (List.pairwise_of_forall fun _ _ _ _ _ hlater => ?_)
      cases hlater
    · intro later hlater _ _ _ _ _ heq
      obtain ⟨_, _, rfl⟩ := List.mem_map.mp hlater
      cases heq

/-! ### Reservations -/

/-- A revision that is taken is ahead of all that has been written. -/
theorem Sound.begun (h : state.Sound) (hbounded : state'.Bounded) (hlog : state'.log = state.log)
    (hrevision : state.writes.revision ≤ state'.writes.revision) (hrows : state'.writes.rows = state.writes.rows)
    (hopen : ∀ other, state'.Open other → state.Open other ∨ state.writes.revision < other) : state'.Sound := by
  refine ⟨hbounded, fun key revision hwrote => ?_, hlog ▸ h.kept⟩
  exact h.carries hrevision (hrows ▸ .refl _) hopen (hlog ▸ hwrote)

theorem Bounded.step (h : state.Bounded) (step : TokenWriteStep) :
    (state.step crates step).Bounded ∧ RevisionsRise state.writes.rows (state.step crates step).writes.rows := by
  cases step with
  | beginObservation =>
    rw [TokenWriteState.step]
    split
    · exact ⟨h, .refl _⟩
    next writes observation hbegin =>
      obtain ⟨rfl, hrevision⟩ := beginTokenObservation_ok hbegin
      refine ⟨⟨⟨fun row hrow => ?_, fun backfill hbackfill => ?_⟩, fun other hother => ?_⟩, .refl _⟩
      · exact (h.writes.rows row hrow).trans (Nat.le_succ _)
      · exact (h.writes.backfill backfill hbackfill).trans (Nat.le_succ _)
      · rcases List.mem_cons.mp hother with rfl | hother
        · exact hrevision.le
        · exact (h.observations other hother).trans (Nat.le_succ _)
  | upsertObserved observation grain =>
    rw [TokenWriteState.step]
    split
    next hmem =>
      split
      · exact ⟨h, .refl _⟩
      next writes hwrite =>
        obtain ⟨hcurrent, rows, hwritten, rfl⟩ := upsertObservedTokenGrain_ok hwrite
        have hopen : state.Open observation.revision := .inr ⟨hcurrent, observation, hmem, rfl⟩
        exact ⟨h.scanned hopen hwritten rfl h.writes.backfill, hwritten.rises (.inl rfl)⟩
    · exact ⟨h, .refl _⟩
  | beginBackfill sourceGeneration restartCompleted =>
    rw [TokenWriteState.step]
    split
    · exact ⟨h, .refl _⟩
    next writes backfill hbegin =>
      obtain rfl | ⟨hrevision, rfl⟩ := beginTokenBackfill_ok hbegin
      · exact ⟨h, .refl _⟩
      · refine ⟨⟨⟨fun row hrow => ?_, fun other hother => ?_⟩, fun other hother => ?_⟩, .refl _⟩
        · exact (h.writes.rows row hrow).trans (Nat.le_succ _)
        · obtain rfl := Option.some.inj hother
          exact hrevision.le
        · exact (h.observations other hother).trans (Nat.le_succ _)
  | applyPage page =>
    rw [TokenWriteState.step]
    split
    · exact ⟨h, .refl _⟩
    next writes next happly =>
      obtain ⟨hcurrent, hgoes, hnext, rows, hwritten, rfl⟩ := applyTokenBackfillPage_ok happly
      have hopen : state.Open page.expected.writeRevision := .inl ⟨_, hcurrent, hgoes, rfl⟩
      refine ⟨h.scanned hopen hwritten rfl fun backfill hbackfill => ?_, hwritten.rises (.inl rfl)⟩
      obtain rfl := Option.some.inj hbackfill
      exact hnext ▸ h.writes.backfill _ hcurrent
  | upsert others grains =>
    rw [TokenWriteState.step]
    split
    · exact ⟨h, .refl _⟩
    next writes hupsert => exact h.upserted hupsert

theorem Sound.step (h : state.Sound) {step : TokenWriteStep} (hapart : state.Apart crates step) :
    (state.step crates step).Sound := by
  have hbounded : (state.step crates step).Bounded := (h.bounded.step step).1
  cases step with
  | beginObservation =>
    rw [TokenWriteState.step] at hbounded ⊢
    split
    · exact h
    next writes observation hbegin =>
      rw [hbegin] at hbounded
      obtain ⟨rfl, hrevision⟩ := beginTokenObservation_ok hbegin
      refine h.begun hbounded rfl (Nat.le_succ _) rfl fun other hother => ?_
      rcases hother with hother | ⟨hlast, -⟩
      · exact .inl (.inl hother)
      · exact .inr (hlast ▸ Nat.lt_succ_self _)
  | upsertObserved observation grain =>
    rw [TokenWriteState.step] at hbounded ⊢
    split
    next hmem =>
      rw [if_pos hmem] at hbounded
      split
      · exact h
      next writes hwrite =>
        rw [hwrite] at hbounded
        obtain ⟨hcurrent, rows, hwritten, rfl⟩ := upsertObservedTokenGrain_ok hwrite
        exact h.scanned (.inr ⟨hcurrent, observation, hmem, rfl⟩) hwritten hbounded rfl fun other hother => hother
    · exact h
  | beginBackfill sourceGeneration restartCompleted =>
    rw [TokenWriteState.step] at hbounded ⊢
    split
    · exact h
    next writes backfill hbegin =>
      rw [hbegin] at hbounded
      obtain rfl | ⟨hrevision, rfl⟩ := beginTokenBackfill_ok hbegin
      · exact h
      · refine h.begun hbounded rfl (Nat.le_succ _) rfl fun other hother => .inr ?_
        rcases hother with ⟨current, hcurrent, -, rfl⟩ | ⟨hlast, -⟩
        · obtain rfl := Option.some.inj hcurrent
          exact hrevision ▸ Nat.lt_succ_self _
        · exact hlast ▸ Nat.lt_succ_self _
  | applyPage page =>
    rw [TokenWriteState.step] at hbounded ⊢
    split
    · exact h
    next writes next happly =>
      rw [happly] at hbounded
      obtain ⟨hcurrent, hgoes, hnext, rows, hwritten, rfl⟩ := applyTokenBackfillPage_ok happly
      have hbackfilling : state.Backfilling page.expected.writeRevision := ⟨_, hcurrent, hgoes, rfl⟩
      refine h.scanned (.inl hbackfilling) hwritten hbounded rfl fun other hother => ?_
      rcases hother with ⟨current, hcurrent', -, rfl⟩ | hother
      · obtain rfl := Option.some.inj hcurrent'
        exact .inl (hnext ▸ hbackfilling)
      · exact .inr hother
  | upsert others grains =>
    rw [TokenWriteState.step]
    split
    · exact h
    next writes hupsert => exact h.upserted hapart hupsert

theorem sound_new {writes : TokenWrites} (h : writes.Bounded) : (new writes).Sound :=
  ⟨⟨h, fun _ hmem => (by cases hmem)⟩, fun _ _ hmem => (by cases hmem), .nil⟩

/-- Steps in any order. -/
abbrev AnyRun (crates : Crates) := Run fun state step state' => state' = TokenWriteState.step crates state step

/-- A run whose upserts leave no row alone that a scan ahead of it may still
write. -/
abbrev ApartRun (crates : Crates) := Run fun state step state' =>
  TokenWriteState.Apart crates state step ∧ state' = TokenWriteState.step crates state step

theorem AnyRun.rises {steps : List TokenWriteStep} (hrun : AnyRun crates state steps state') (h : state.Bounded) :
    state'.Bounded ∧ RevisionsRise state.writes.rows state'.writes.rows := by
  induction hrun with
  | nil => exact ⟨h, .refl _⟩
  | @cons _ _ _ step _ hstep _ ih =>
    subst hstep
    obtain ⟨hbounded, hrises⟩ : (TokenWriteState.step crates _ step).Bounded ∧ _ := h.step step
    obtain ⟨hbounded', hrises'⟩ := ih hbounded
    exact ⟨hbounded', hrises.trans hrises'⟩

end TokenWriteState

/-- **A later token write is not undone by an earlier scan** in a run whose
upserts leave alone no row that a scan ahead of it may still write, and
revisions rise in every run. -/
theorem later_writes_kept {crates : Crates} {writes : TokenWrites} {before after : List TokenWriteStep}
    {state state' : TokenWriteState} (hbounded : writes.Bounded)
    (hbefore : TokenWriteState.AnyRun crates (.new writes) before state) (hafter : TokenWriteState.AnyRun crates state after state') :
    RevisionsRise state.writes.rows state'.writes.rows ∧
      (TokenWriteState.ApartRun crates (.new writes) (before ++ after) state' → NeverUndone state'.log) := by
  have hnew := TokenWriteState.sound_new hbounded
  refine ⟨(hafter.rises (hbefore.rises hnew.bounded).1).2, fun hrun => ?_⟩
  have hsound : state'.Sound := by
    refine hrun.invariant ?_ hnew
    rintro _ _ _ h ⟨hapart, rfl⟩
    exact h.step hapart
  exact hsound.kept

/-! ## A repeated value -/

/-- The digest of no settings at all. -/
def noSettingsCrates : Crates where
  settingsDigest _ := #v[0x74, 0xdb, 0xd8, 0xc9, 0x4b, 0x88, 0xcb, 0xb3, 0x8c, 0x58, 0x36, 0xde, 0xcf, 0xe7, 0x84, 0xf9,
    0x36, 0x35, 0x97, 0x0f, 0x86, 0x86, 0xaa, 0x94, 0x42, 0x28, 0x0f, 0xbf, 0x95, 0x2b, 0x6d, 0x4d]
  dateError _ := none

def sampleTokenGrain (tokensIn : Nat) : TokenGrain where
  accountId := firstAccount
  profile := workProfile
  machine := ⟨"forge", by decide⟩
  sessionId := ⟨"s1", by decide⟩
  model := "gpt-5"
  settings := ⟨none, none, .empty⟩
  settingsHash := "74dbd8c94b88cbb38c5836decfe784f93635970f8686aa9442280fbf952b6d4d"
  day := "2026-08-01"
  tokensIn := tokensIn
  tokensOut := 0
  cacheWrite5m := 0
  cacheWrite1h := 0
  cacheRead := 0
  source := .local

def sampleSourceGeneration : TokenSourceGeneration := ⟨"e3b0c44298fc1c149afbf4c8996fb92427ae41e4649b934ca495991b7852b855"⟩

def TokenWrites.empty (scope : TokenScope) : TokenWrites := ⟨scope, .empty, 0, none⟩

/-- The scan's only page has three tokens where the upserts have five. -/
def samplePage : TokenBackfillPage where
  expected := ⟨(sampleTokenGrain 3).scope, 1, sampleSourceGeneration, 2, none, false⟩
  rows := [sampleTokenGrain 3]
  nextCursor := some (.fromGrain (sampleTokenGrain 3))
  complete := true

def sampleWrite : TokenWriteStep := .upsert (.ok ()) [sampleTokenGrain 5]

def sampleScan : List TokenWriteStep := [.beginBackfill sampleSourceGeneration false, sampleWrite, .applyPage samplePage]

/-- The second upsert finds its value there, and the scan that was begun before
it takes it away. -/
theorem repeated_write_undone : ∃ (steps : List TokenWriteStep) (state : TokenWriteState),
    TokenWriteState.AnyRun noSettingsCrates (.new (.empty (sampleTokenGrain 5).scope)) steps state ∧ ¬ NeverUndone state.log := by
  refine ⟨sampleWrite :: sampleScan, (sampleWrite :: sampleScan).foldl (TokenWriteState.step noSettingsCrates)
    (.new (.empty (sampleTokenGrain 5).scope)), .cons rfl (.cons rfl (.cons rfl (.cons rfl (.nil _)))), fun h => ?_⟩
  have hlog : ((sampleWrite :: sampleScan).foldl (TokenWriteState.step noSettingsCrates)
      (.new (.empty (sampleTokenGrain 5).scope))).log = [.wrote (sampleTokenGrain 3).primaryKey 1,
        .changed (sampleTokenGrain 3).primaryKey 2, .wrote (sampleTokenGrain 5).primaryKey 2,
        .wrote (sampleTokenGrain 5).primaryKey 0] := by decide +kernel
  rw [hlog] at h
  have hundone := (List.pairwise_cons.mp (List.pairwise_cons.mp h).2).1 _ List.mem_cons_self
  exact absurd (hundone _ _ _ rfl rfl) (by decide)

/-- A write, and a scan behind it. -/
theorem written_and_scanned : ∃ state : TokenWriteState,
    TokenWriteState.AnyRun noSettingsCrates (.new (.empty (sampleTokenGrain 5).scope)) [sampleWrite,
      .beginBackfill sampleSourceGeneration false, .applyPage samplePage] state ∧ NeverUndone state.log := by
  have hbounded : (TokenWrites.empty (sampleTokenGrain 5).scope).Bounded :=
    ⟨fun _ hmem => (by cases hmem), fun _ hmem => (by cases hmem)⟩
  have hrun : TokenWriteState.AnyRun noSettingsCrates (.new (.empty (sampleTokenGrain 5).scope)) [sampleWrite,
      .beginBackfill sampleSourceGeneration false, .applyPage samplePage] _ := .cons rfl (.cons rfl (.cons rfl (.nil _)))
  refine ⟨_, hrun, (later_writes_kept hbounded hrun (.nil _)).2 ?_⟩
  refine .cons ⟨fun _ _ _ _ _ row hrow => ?_, rfl⟩ (.cons ⟨trivial, rfl⟩ (.cons ⟨trivial, rfl⟩ (.nil _)))
  cases hrow

end Atmux.Pulse
