/-
The durable state of CLI maintenance: what is known of each harness's
launcher, the update generation it is in, the intent written before a vendor
updater runs, and the panes still to be relaunched under the new binary; and
the marker each planned pane carries in tmux.

`reconcile_cases` says what a reconciliation does to a harness, and
`paneAction_claim` what a pane must look like to be claimed for a relaunch.
-/
import Mathlib.Algebra.Group.Nat.Defs
import Atmux.Lib.Text
import Atmux.Session

namespace Atmux.Maintenance

open Lib

inductive Harness
  | claude
  | codex
deriving DecidableEq, Repr

def Harness.all : List Harness := [.claude, .codex]

def Harness.name : Harness → String
  | .claude => "claude"
  | .codex => "codex"

def updateAgent : Harness → AgentKind
  | .claude => .claude
  | .codex => .codex

structure ExecutableIdentity where
  canonicalPath : String
  version : String
  sha256 : String
  size : Nat
  modifiedNs : Nat
deriving DecidableEq, Repr

/-- A pane that ran the old binary when its update was about to start. -/
structure PlannedPane where
  paneId : String
  sessionFingerprint : String
  mutationSequence : Nat
  profile : String
  modeId : String
deriving DecidableEq, Repr

/-- Persisted before a vendor updater starts. -/
structure UpdateIntent where
  baseline : ExecutableIdentity
  observedBefore : ExecutableIdentity
  candidates : List PlannedPane
deriving DecidableEq, Repr

structure HarnessState where
  generation : Nat
  before : Option ExecutableIdentity
  after : Option ExecutableIdentity
  lastError : Option String
  /-- Last launcher identity fully reconciled into an update generation. -/
  applied : Option ExecutableIdentity
  intent : Option UpdateIntent
  pending : List PlannedPane
deriving DecidableEq, Repr

def HarnessState.default : HarnessState := ⟨0, none, none, none, none, none, []⟩

/-- The binary's digest decides, not its path or version text. -/
def changed (before after : ExecutableIdentity) : Bool := before.sha256 != after.sha256

/-- `wrapping_add(1).max(1)` on 64 bits, when something changed. -/
def advanceGeneration (current : Nat) (didChange : Bool) : Nat :=
  if didChange then max ((current + 1) % 2 ^ 64) 1 else current

theorem advanceGeneration_ne (current : Nat) : advanceGeneration current true ≠ current := by
  simp only [advanceGeneration, if_true]
  omega

namespace HarnessState

def prepareIntent (harness : HarnessState) (observed : ExecutableIdentity) (candidates : List PlannedPane) :
    HarnessState :=
  let baseline := harness.applied.getD observed
  { harness with
    applied := harness.applied.or (some baseline)
    before := some observed
    intent := some ⟨baseline, observed, candidates⟩ }

def reconcile (harness : HarnessState) (observed : ExecutableIdentity) (updateError : Option String) :
    HarnessState :=
  match harness.intent with
  | none => { harness with applied := some observed, after := some observed, lastError := updateError }
  | some intent =>
    let settled := { harness with
      intent := none, after := some observed, applied := some observed, lastError := updateError }
    if changed intent.baseline observed then
      { settled with generation := advanceGeneration harness.generation true, pending := intent.candidates }
    else settled

variable {harness : HarnessState} {observed : ExecutableIdentity} {candidates : List PlannedPane}
  {updateError : Option String} {intent : UpdateIntent}

@[simp] theorem prepareIntent_generation : (harness.prepareIntent observed candidates).generation = harness.generation := rfl

@[simp] theorem prepareIntent_pending : (harness.prepareIntent observed candidates).pending = harness.pending := rfl

@[simp] theorem prepareIntent_applied :
    (harness.prepareIntent observed candidates).applied = some (harness.applied.getD observed) := by
  rcases h : harness.applied <;> simp [prepareIntent, h]

@[simp] theorem prepareIntent_intent :
    (harness.prepareIntent observed candidates).intent = some ⟨harness.applied.getD observed, observed, candidates⟩ := rfl

@[simp] theorem reconcile_applied : (harness.reconcile observed updateError).applied = some observed := by
  unfold reconcile
  split
  · rfl
  · split <;> rfl

@[simp] theorem reconcile_intent : (harness.reconcile observed updateError).intent = none := by
  unfold reconcile
  split
  · assumption
  · split <;> rfl

/-- An intent is settled by counting the change of digest, if there is one,
and by planning its candidates in place of whatever was pending. -/
theorem reconcile_cases (observed : ExecutableIdentity) (updateError : Option String)
    (h : harness.intent = some intent) :
    (intent.baseline.sha256 ≠ observed.sha256 ∧
      (harness.reconcile observed updateError).generation = advanceGeneration harness.generation true ∧
      (harness.reconcile observed updateError).pending = intent.candidates) ∨
    (intent.baseline.sha256 = observed.sha256 ∧
      (harness.reconcile observed updateError).generation = harness.generation ∧
      (harness.reconcile observed updateError).pending = harness.pending) := by
  by_cases hc : intent.baseline.sha256 = observed.sha256
  · exact .inr (by simp [reconcile, h, changed, hc])
  · exact .inl (by simp [reconcile, h, changed, hc])

theorem reconcile_of_no_intent (h : harness.intent = none) :
    (harness.reconcile observed updateError).generation = harness.generation ∧
      (harness.reconcile observed updateError).pending = harness.pending := by
  simp [reconcile, h]

end HarnessState

/-! ## The persisted state -/

structure MaintenanceState where
  lastCheckMs : Option Nat
  harnesses : Harness → Option HarnessState

namespace MaintenanceState

def default : MaintenanceState := ⟨none, fun _ => none⟩

/-- The entry of a harness, or the one `or_default` would make. -/
def harness (state : MaintenanceState) (h : Harness) : HarnessState := (state.harnesses h).getD HarnessState.default

/-- Writes through `harness_mut`. -/
def update (state : MaintenanceState) (h : Harness) (f : HarnessState → HarnessState) : MaintenanceState :=
  { state with harnesses := Function.update state.harnesses h (some (f (state.harness h))) }

variable (state : MaintenanceState) (h h' : Harness) (f : HarnessState → HarnessState) (lastCheckMs : Option Nat)

theorem harness_update : (state.update h f).harness h' = if h' = h then f (state.harness h') else state.harness h' := by
  by_cases heq : h' = h
  · subst heq
    simp [harness, update]
  · simp [harness, update, heq]

@[simp] theorem harness_update_self : (state.update h f).harness h = f (state.harness h) := by
  simp [harness_update]

@[simp] theorem update_lastCheckMs : (state.update h f).lastCheckMs = state.lastCheckMs := rfl

@[simp] theorem harness_lastCheckMs :
    ({ state with lastCheckMs := lastCheckMs } : MaintenanceState).harness h = state.harness h := rfl

@[simp] theorem harness_default : default.harness h = HarnessState.default := rfl

end MaintenanceState

/-! ## Pane markers -/

inductive MarkerPhase
  | ready
  | claimed
deriving DecidableEq, Repr

def MarkerPhase.name : MarkerPhase → String
  | .ready => "ready"
  | .claimed => "claimed"

structure PendingMarker where
  harness : Harness
  generation : Nat
  sessionFingerprint : String
  phase : MarkerPhase
deriving DecidableEq, Repr

def markerVersion : String := "cu2"

/-- 64 lowercase hexadecimal digits. -/
def validFingerprint (fingerprint : String) : Bool :=
  fingerprint.utf8ByteSize == 64 && fingerprint.toList.all fun c => c.isDigit || ('a' ≤ c && c ≤ 'f')

namespace PendingMarker

def encode (marker : PendingMarker) : String :=
  markerVersion ++ ":" ++ marker.harness.name ++ ":" ++ toString marker.generation ++ ":" ++
    marker.sessionFingerprint ++ ":" ++ marker.phase.name

def parseHarness (value : List Char) : Option Harness :=
  if value = "claude".toList then some .claude else if value = "codex".toList then some .codex else none

def parsePhase (value : List Char) : Option MarkerPhase :=
  if value = "ready".toList then some .ready else if value = "claimed".toList then some .claimed else none

def parse (value : String) : Option PendingMarker :=
  match Text.split ':' value.toList with
  | [version, harness, generation, fingerprint, phase] =>
    match parseHarness harness, Text.parseUnsigned (2 ^ 64) generation, parsePhase phase with
    | some harness, some generation, some phase =>
      if version != markerVersion.toList || !validFingerprint (String.ofList fingerprint) then none
      else some { harness, generation, sessionFingerprint := String.ofList fingerprint, phase }
    | _, _, _ => none
  | _ => none

theorem encode_toList (marker : PendingMarker) : marker.encode.toList = markerVersion.toList ++ ':' ::
    (marker.harness.name.toList ++ ':' :: ((toString marker.generation).toList ++ ':' ::
      (marker.sessionFingerprint.toList ++ ':' :: marker.phase.name.toList))) := by
  have hcolon : ":".toList = [':'] := rfl
  simp only [encode, String.toList_append, hcolon, List.append_assoc, List.cons_append, List.nil_append]

/-- A written marker reads back. -/
theorem parse_encode (marker : PendingMarker) (hgeneration : marker.generation < 2 ^ 64)
    (hfingerprint : validFingerprint marker.sessionFingerprint = true) : parse marker.encode = some marker := by
  have hversion : Text.split ':' markerVersion.toList = [markerVersion.toList] := Text.split_eq_singleton (by decide)
  have hharness : Text.split ':' marker.harness.name.toList = [marker.harness.name.toList] :=
    Text.split_eq_singleton (by cases marker.harness <;> decide)
  have hnumber : ':' ∉ (toString marker.generation).toList := fun hmem =>
    absurd (Text.isDigit_toString hmem) (by decide)
  have hfield : ':' ∉ marker.sessionFingerprint.toList := by
    simp only [validFingerprint, Bool.and_eq_true, List.all_eq_true] at hfingerprint
    exact fun hmem => absurd (hfingerprint.2 _ hmem) (by decide)
  have hphase : Text.split ':' marker.phase.name.toList = [marker.phase.name.toList] :=
    Text.split_eq_singleton (by cases marker.phase <;> decide)
  have hreadHarness : parseHarness marker.harness.name.toList = some marker.harness := by
    cases marker.harness <;> rfl
  have hreadPhase : parsePhase marker.phase.name.toList = some marker.phase := by
    cases marker.phase <;> rfl
  unfold parse
  rw [encode_toList, Text.split_append, hversion, Text.split_append, hharness, Text.split_append,
    Text.split_eq_singleton hnumber, Text.split_append, Text.split_eq_singleton hfield, hphase]
  simp only [List.singleton_append]
  rw [hreadHarness, Text.parseUnsigned_toString hgeneration, hreadPhase]
  simp [hfingerprint]

end PendingMarker

/-! ## What to do with a planned pane -/

structure PaneObservation where
  present : Bool
  identityDefinitivelyStale : Bool
  sessionFingerprint : Option String
  mutationSequence : Option Nat
  exactIdle : Bool
deriving DecidableEq, Repr

inductive PaneAction
  | materializeReady
  | defer
  | claimBeforeRespawn
  | forget
  | alreadyClaimed
deriving DecidableEq, Repr

/-- The marker stands for this plan in this generation. -/
def PendingMarker.standsFor (marker : PendingMarker) (planned : PlannedPane) (harness : Harness) (generation : Nat) :
    Bool :=
  marker.harness == harness && marker.generation == generation &&
    marker.sessionFingerprint == planned.sessionFingerprint

def paneAction (planned : PlannedPane) (marker : Option PendingMarker) (observation : PaneObservation)
    (harness : Harness) (generation : Nat) : PaneAction :=
  if marker.any fun marker => marker.standsFor planned harness generation && marker.phase == .claimed then
    .alreadyClaimed
  else if !observation.present || observation.identityDefinitivelyStale ||
      observation.mutationSequence.any (· != planned.mutationSequence) ||
      observation.sessionFingerprint.any (· != planned.sessionFingerprint) then
    .forget
  else if !marker.any fun marker => marker.standsFor planned harness generation then .materializeReady
  else
    match marker.map PendingMarker.phase with
    | some .claimed => .alreadyClaimed
    | some .ready =>
      if observation.exactIdle && observation.sessionFingerprint.isSome && observation.mutationSequence.isSome then
        .claimBeforeRespawn
      else .defer
    | none => .defer

/-- A pane is claimed only when its whole identity was read and is the planned
one, over a ready marker of this very plan. -/
theorem paneAction_claim {planned : PlannedPane} {marker : Option PendingMarker} {observation : PaneObservation}
    {harness : Harness} {generation : Nat}
    (h : paneAction planned marker observation harness generation = .claimBeforeRespawn) :
    observation.present = true ∧ observation.exactIdle = true ∧
      observation.mutationSequence = some planned.mutationSequence ∧
        observation.sessionFingerprint = some planned.sessionFingerprint ∧
          marker = some ⟨harness, generation, planned.sessionFingerprint, .ready⟩ := by
  unfold paneAction at h
  split at h
  · cases h
  split at h
  · cases h
  next hcurrent =>
  split at h
  · cases h
  next hexpected =>
  rcases marker with _ | ⟨markerHarness, markerGeneration, fingerprint, _ | _⟩
  · simp at hexpected
  · simp only [Option.map_some] at h
    split at h
    next hidle =>
      simp only [Bool.and_eq_true, Option.isSome_iff_exists] at hidle
      obtain ⟨⟨hexact, seen, hseen⟩, sequence, hsequence⟩ := hidle
      simp only [hseen, hsequence, Option.any_some, Bool.or_eq_true, Bool.not_eq_true', bne_iff_ne, not_or,
        Bool.not_eq_false, not_not] at hcurrent
      obtain ⟨⟨⟨hpresent, -⟩, rfl⟩, rfl⟩ := hcurrent
      simp only [Option.any_some, Bool.not_eq_true', Bool.not_eq_false, PendingMarker.standsFor, Bool.and_eq_true,
        beq_iff_eq] at hexpected
      obtain ⟨⟨rfl, rfl⟩, rfl⟩ := hexpected
      exact ⟨hpresent, hexact, hsequence, hseen, rfl⟩
    · cases h
  · simp at h

end Atmux.Maintenance
