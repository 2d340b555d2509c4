/-
One owner's CLI maintenance: the cycle that inspects the launchers, runs the
vendor updaters and relaunches the planned panes, over three stores — the
state file, the pane markers and the pane mutation sequences in tmux.

Every call out of the process takes one turn. `answers` says how each turn
goes: what was read, whether a write landed, which panes other writers
delivered to meanwhile, and whether the process died before the call. Nothing
is assumed of the answers, so a property of every `run` is one of every
interleaving, failure and crash. A cycle that stops early, by a crash or by an
error it returns, loses its state; the next one loads the state file again.
-/
import Atmux.Lib.Proc
import Atmux.Maintenance.State

namespace Atmux.Maintenance

open Lib

/-! ## The world of one owner -/

/-- The options of one pane in tmux. -/
structure PaneOptions where
  marker : Option String
  mutationSequence : Nat
deriving DecidableEq, Repr

/-- Advances the sequence as `checked_add` lets it. -/
def PaneOptions.advance (options : PaneOptions) : PaneOptions :=
  if options.mutationSequence + 1 < 2 ^ 64 then { options with mutationSequence := options.mutationSequence + 1 }
  else options

/-- Why a planned pane left the pending plan. -/
inductive Release
  | forget
  | alreadyClaimed
  | claimed
deriving DecidableEq, Repr

/-- One `resume_after_cli_update`, and the pane's marker as it was called. -/
structure Resume where
  harness : Harness
  generation : Nat
  plan : PlannedPane
  launcher : String
  observation : PaneObservation
  marker : Option String
deriving DecidableEq, Repr

/-- One reconciliation, and the applied identity on disk at the time. -/
structure Reconciliation where
  harness : Harness
  before : HarnessState
  observed : ExecutableIdentity
  after : HarnessState
  durable : Option ExecutableIdentity
deriving DecidableEq, Repr

inductive Event
  | loaded
  | persisted (state : MaintenanceState)
  | reconciled (reconciliation : Reconciliation)
  | released (harness : Harness) (plan : PlannedPane) (release : Release)
  | resumed (resume : Resume)

/-- The stores that outlive the process, and what happened so far, the latest
event first. -/
structure Owner where
  clock : Nat
  disk : MaintenanceState
  options : String → PaneOptions
  log : List Event

/-- How a write went, as the caller sees it and in the store. -/
inductive Write
  | written
  | refused
  | ambiguous
deriving DecidableEq, Repr

def Write.lands : Write → Bool
  | .written => true
  | .refused => false
  | .ambiguous => true

/-- What one capture shows of a pane's session. -/
structure Fresh where
  agent : AgentKind
  profile : String
  mode : Option String
  /-- Fingerprint of the native conversation the pane provably runs. -/
  target : Option String
  status : AgentStatus
  automationIdle : Bool
deriving DecidableEq, Repr

/-- The profile, the mode and the conversation to resume. -/
structure Preflight where
  profile : String
  modeId : String
  sessionFingerprint : String
deriving DecidableEq, Repr

/-- How one turn goes. -/
structure Answer where
  crash : Bool
  /-- Panes other writers delivered to since the last turn. -/
  delivered : List String
  succeeds : Bool
  write : Write
  identity : Except String (Option ExecutableIdentity)
  candidates : Except String (List PlannedPane)
  updated : Except String ExecutableIdentity
  fresh : Option Fresh
  preflight : Option Preflight

namespace Owner

def setOptions (owner : Owner) (paneId : String) (f : PaneOptions → PaneOptions) : Owner :=
  { owner with options := Function.update owner.options paneId (f (owner.options paneId)) }

/-- The world as a turn finds it. -/
def observe (owner : Owner) (answer : Answer) : Owner :=
  { answer.delivered.foldl (fun owner paneId => owner.setOptions paneId PaneOptions.advance) owner with
    clock := owner.clock + 1 }

def note (owner : Owner) (event : Event) : Owner := { owner with log := event :: owner.log }

def store (owner : Owner) (state : MaintenanceState) : Owner := { owner with disk := state, log := .persisted state :: owner.log }

end Owner

/-! ## Calls -/

inductive Stop
  | crash
  | error
deriving DecidableEq, Repr

abbrev Call (α : Type) := Proc Stop Owner α

variable (answers : Nat → Answer)

def turn : Call Answer := do
  let owner ← Proc.read
  Proc.change fun owner => owner.observe (answers owner.clock)
  if (answers owner.clock).crash then Proc.stop .crash else pure (answers owner.clock)

def note (event : Event) : Call Unit := Proc.change fun owner => owner.note event

/-- `OwnerLock::load`. -/
def load : Call MaintenanceState := do
  let answer ← turn answers
  if answer.succeeds then
    note .loaded
    let owner ← Proc.read
    pure owner.disk
  else Proc.stop .error

/-- `persist` and the `?` after it. -/
def persist (state : MaintenanceState) : Call Unit := do
  let answer ← turn answers
  if answer.write.lands then
    Proc.change fun owner => owner.store state
    if answer.write = .written then pure () else Proc.stop .error
  else Proc.stop .error

def inspect (_harness : Harness) : Call (Except String (Option ExecutableIdentity)) := do
  let answer ← turn answers
  pure answer.identity

def collect (_harness : Harness) (_beforeLauncher : String) : Call (Except String (List PlannedPane)) := do
  let answer ← turn answers
  pure answer.candidates

def update (_harness : Harness) (_before : ExecutableIdentity) : Call (Except String ExecutableIdentity) := do
  let answer ← turn answers
  pure answer.updated

/-- A call that only succeeds or fails: the pane lock, the scope preflight and
the respawn itself. -/
def succeeds : Call Bool := do
  let answer ← turn answers
  pure answer.succeeds

/-- `cli_update_marker` and `PendingMarker::parse`: `none` when the option
cannot be read or is not a marker. -/
def cliUpdateMarker (paneId : String) : Call (Option (Option PendingMarker)) := do
  let answer ← turn answers
  let owner ← Proc.read
  if answer.succeeds then
    match (owner.options paneId).marker with
    | none => pure (some none)
    | some raw => pure ((PendingMarker.parse raw).map some)
  else pure none

/-- Whether `set_cli_update_marker` returned `Ok`. -/
def setCliUpdateMarker (paneId : String) (marker : String) : Call Bool :=
  if (PendingMarker.parse marker).isNone then pure false
  else do
    let answer ← turn answers
    if answer.write.lands then
      Proc.change fun owner => owner.setOptions paneId fun options => { options with marker := some marker }
    pure (answer.write = .written)

def clearCliUpdateMarker (paneId : String) : Call Unit := do
  let answer ← turn answers
  if answer.write.lands then
    Proc.change fun owner => owner.setOptions paneId fun options => { options with marker := none }

/-- `pane_mutation_sequence(..).ok()`. -/
def paneMutationSequence (paneId : String) : Call (Option Nat) := do
  let answer ← turn answers
  let owner ← Proc.read
  pure (if answer.succeeds then some (owner.options paneId).mutationSequence else none)

/-- Whether `advance_pane_mutation_sequence` returned `Ok`: the read, the
addition and the write each can fail. -/
def advancePaneMutationSequence (paneId : String) : Call Bool := do
  let answer ← turn answers
  let owner ← Proc.read
  if answer.succeeds && decide ((owner.options paneId).mutationSequence + 1 < 2 ^ 64) then
    if answer.write.lands then Proc.change fun owner => owner.setOptions paneId PaneOptions.advance
    pure (answer.write = .written)
  else pure false

def freshCliUpdateSession : Call (Option Fresh) := do
  let answer ← turn answers
  pure answer.fresh

/-- `cli_update_preflight_for_session` of a captured session. -/
def cliUpdatePreflight (harness : Harness) (fresh : Option Fresh) : Call (Option Preflight) :=
  match fresh with
  | none => pure none
  | some session =>
    if session.agent = updateAgent harness then do
      let answer ← turn answers
      pure answer.preflight
    else pure none

/-! ## Relaunching the planned panes -/

/-- Where `process_cli_update_candidates` stands. -/
structure Progress where
  attempts : Nat
  remaining : List PlannedPane
  anyRespawn : Bool

def Progress.keep (progress : Progress) (plan : PlannedPane) : Progress :=
  { progress with remaining := progress.remaining ++ [plan] }

def observePane (harness : Harness) (plan : PlannedPane) (fresh : Option Fresh) (mutationSequence : Option Nat)
    (exact : Option Preflight) : PaneObservation where
  present := fresh.isSome
  identityDefinitivelyStale := fresh.any fun session =>
    session.agent != updateAgent harness || session.profile != plan.profile || session.mode.any (· != plan.modeId)
  sessionFingerprint := fresh.bind Fresh.target
  mutationSequence := mutationSequence
  exactIdle := exact.isSome && fresh.any fun session => session.status == .waiting && session.automationIdle

/-- The claim and the respawn of one idle pane. A claimed plan never stays
pending, whatever became of the respawn. -/
def claimAndResume (limit : Nat) (harness : Harness) (generation : Nat) (launcher : String) (progress : Progress)
    (plan : PlannedPane) (fresh : Option Fresh) (exact : Option Preflight) (observation : PaneObservation) :
    Call Progress :=
  if limit ≤ progress.attempts then pure (progress.keep plan)
  else do
    let scope ← succeeds answers
    if scope then
      let progress := { progress with attempts := progress.attempts + 1 }
      let claimed := PendingMarker.encode ⟨harness, generation, plan.sessionFingerprint, .claimed⟩
      let set ← setCliUpdateMarker answers plan.paneId claimed
      if set then
        note (.released harness plan .claimed)
        -- the claim is durable before the sequence advance and before the ambiguous respawn
        let advanced ← advancePaneMutationSequence answers plan.paneId
        if advanced then
          match exact, fresh with
          | some _, some _ =>
            let owner ← Proc.read
            note (.resumed ⟨harness, generation, plan, launcher, observation, (owner.options plan.paneId).marker⟩)
            let resumed ← succeeds answers
            if resumed then
              clearCliUpdateMarker answers plan.paneId
              pure { progress with anyRespawn := true }
            else pure progress
          | _, _ => pure progress
        else pure progress
      else pure (progress.keep plan)
    else pure (progress.keep plan)

def processPlan (limit : Nat) (harness : Harness) (generation : Nat) (launcher : String) (progress : Progress)
    (plan : PlannedPane) : Call Progress := do
  let locked ← succeeds answers
  if locked then
    let fresh ← freshCliUpdateSession answers
    let marker ← cliUpdateMarker answers plan.paneId
    match marker with
    | none => pure (progress.keep plan)
    | some marker =>
      let mutationSequence ← paneMutationSequence answers plan.paneId
      let exact ← cliUpdatePreflight answers harness fresh
      let observation := observePane harness plan fresh mutationSequence exact
      match paneAction plan marker observation harness generation with
      | .materializeReady =>
        let ready := PendingMarker.encode ⟨harness, generation, plan.sessionFingerprint, .ready⟩
        let _ ← setCliUpdateMarker answers plan.paneId ready
        pure (progress.keep plan)
      | .defer => pure (progress.keep plan)
      | .forget =>
        if marker.any fun marker => marker.phase == .ready then clearCliUpdateMarker answers plan.paneId
        note (.released harness plan .forget)
        pure progress
      | .alreadyClaimed =>
        note (.released harness plan .alreadyClaimed)
        pure progress
      | .claimBeforeRespawn =>
        claimAndResume answers limit harness generation launcher progress plan fresh exact observation
  else pure (progress.keep plan)

/-- The state so far, the attempts made and whether a pane was respawned. -/
abbrev Processing := MaintenanceState × Nat × Bool

def processHarness (limit : Nat) (processing : Processing) (harness : Harness) : Call Processing :=
  let (state, attempts, anyRespawn) := processing
  match state.harnesses harness with
  | none => pure processing
  | some harnessState =>
    match harnessState.after.or harnessState.applied with
    | none => pure processing
    | some identity => do
      let progress ← harnessState.pending.foldlM
        (processPlan answers limit harness harnessState.generation identity.canonicalPath) ⟨attempts, [], anyRespawn⟩
      pure (state.update harness fun harnessState => { harnessState with pending := progress.remaining },
        progress.attempts, progress.anyRespawn)

def processCliUpdateCandidates (state : MaintenanceState) (limit : Nat) : Call (MaintenanceState × Bool) := do
  let (state, _, anyRespawn) ← Harness.all.foldlM (processHarness answers limit) (state, 0, false)
  pure (state, anyRespawn)

/-! ## The cycle -/

structure CycleSettings where
  nowMs : Nat
  intervalMs : Nat
  relaunchLimit : Nat
deriving DecidableEq, Repr

def checkDue (lastCheckMs : Option Nat) (nowMs intervalMs : Nat) : Bool :=
  lastCheckMs.any fun last => intervalMs ≤ nowMs - last

def MaintenanceState.fail (state : MaintenanceState) (harness : Harness) (error : String) : MaintenanceState :=
  state.update harness fun harnessState => { harnessState with lastError := some error }

def unavailable (harness : Harness) : String := harness.name ++ " native launcher is unavailable"

/-- `reconcile` on the entry of one harness. -/
def reconcile (state : MaintenanceState) (harness : Harness) (observed : ExecutableIdentity)
    (updateError : Option String) : Call MaintenanceState := do
  let owner ← Proc.read
  let before := state.harness harness
  note (.reconciled ⟨harness, before, observed, before.reconcile observed updateError, (owner.disk.harness harness).applied⟩)
  pure (state.update harness fun harnessState => harnessState.reconcile observed updateError)

def establishBaseline (state : MaintenanceState) (harness : Harness) : Call MaintenanceState := do
  let identity ← inspect answers harness
  match identity with
  | .ok (some identity) => reconcile state harness identity none
  | .ok none => pure (state.fail harness (unavailable harness))
  | .error error => pure (state.fail harness error)

def establishBaselines (state : MaintenanceState) (nowMs : Nat) : Call MaintenanceState :=
  Harness.all.foldlM (establishBaseline answers) { state with lastCheckMs := some nowMs }

def reconcileUpdateResult (state : MaintenanceState) (harness : Harness) (result : Except String ExecutableIdentity) :
    Call MaintenanceState :=
  match result with
  | .ok after => reconcile state harness after none
  | .error error => do
    let identity ← inspect answers harness
    match identity with
    | .ok (some identity) => reconcile state harness identity (some error)
    | _ => pure (state.fail harness error)

def runDueUpdate (state : MaintenanceState) (harness : Harness) : Call MaintenanceState := do
  let identity ← inspect answers harness
  match identity with
  | .ok none => pure (state.fail harness (unavailable harness))
  | .error error => pure (state.fail harness error)
  | .ok (some before) =>
    let candidates ← collect answers harness before.canonicalPath
    match candidates with
    | .error error => pure (state.fail harness error)
    | .ok candidates =>
      let state := state.update harness fun harnessState => harnessState.prepareIntent before candidates
      persist answers state
      let result ← update answers harness before
      let state ← reconcileUpdateResult answers state harness result
      persist answers state
      pure state

def runDueUpdates (state : MaintenanceState) (settings : CycleSettings) : Call MaintenanceState :=
  Harness.all.foldlM (runDueUpdate answers) { state with lastCheckMs := some settings.nowMs }

def recoverInterruptedIntent (state : MaintenanceState) (harness : Harness) : Call MaintenanceState :=
  if (state.harnesses harness).all fun harnessState => harnessState.intent.isNone then pure state
  else do
    let identity ← inspect answers harness
    match identity with
    | .ok (some identity) => reconcile state harness identity (some "recovered an interrupted update intent")
    | .ok none => pure state
    | .error error => pure (state.fail harness error)

def recoverInterruptedIntents (state : MaintenanceState) : Call MaintenanceState :=
  Harness.all.foldlM (recoverInterruptedIntent answers) state

def runMaintenanceCycle (state : MaintenanceState) (settings : CycleSettings) : Call (MaintenanceState × Bool) := do
  let state ←
    if state.lastCheckMs.isNone then establishBaselines answers state settings.nowMs
    else if checkDue state.lastCheckMs settings.nowMs settings.intervalMs then runDueUpdates answers state settings
    else pure state
  let state ← recoverInterruptedIntents answers state
  let (state, resumed) ← processCliUpdateCandidates answers state settings.relaunchLimit
  persist answers state
  pure (state, resumed)

/-- `maintenance_once`, under the owner lock. -/
def maintenanceOnce (settings : CycleSettings) : Call (MaintenanceState × Bool) := do
  let state ← load answers
  runMaintenanceCycle answers state settings

/-- The world after any number of cycles, each ended by its own return, an
error or a crash. -/
def run (disk : MaintenanceState) (options : String → PaneOptions) (cycles : List CycleSettings) : Owner :=
  cycles.foldl (fun owner settings => Proc.world (maintenanceOnce answers settings) owner) ⟨0, disk, options, []⟩

end Atmux.Maintenance
