/-
The state a coordinator publishes from: its own sessions, one `RemoteState`
per remote machine, the shared revision and the cursor of each machine.

Every writer has the same shape: under the state lock it changes what one
machine shows and, when the change is observable, advances the revision and
that machine's cursor (`State.publish`). The facts below say once what a
writer leaves alone, and what the overview narrowed to one machine reads
(`narrow_overview`).
-/
import Mathlib.Algebra.Group.Nat.Defs
import Atmux.Mirror

namespace Atmux

open Lib

variable {μ : Type}

/-- Infrastructure pane that no dashboard lists. -/
def reservedServiceSession : String := "atmux-web"

/-- A machine this coordinator watches. -/
structure RemoteMachine where
  id : String
  label : String
  /-- Credential-free `host:port`. -/
  address : String
deriving DecidableEq, Repr

structure RemoteState (μ : Type) where
  sessions : List SessionSummary
  online : Bool
  health : Option String
  lastSeenMs : Option Nat
  metrics : μ

/-- A machine before its first contact. -/
def RemoteState.connecting [Inhabited μ] : RemoteState μ where
  sessions := []
  online := false
  health := some "connecting"
  lastSeenMs := none
  metrics := default

structure State (μ : Type) where
  revision : Nat
  sessions : List Session
  health : Option String
  metrics : μ
  remotes : Std.ExtTreeMap String (RemoteState μ)
  /-- Per-machine observable cursor, from the shared revision counter. -/
  machineRevisions : Std.ExtTreeMap String Nat

/-! ## Writers -/

namespace State

/-- Publishes one observable change. -/
def bump (state : State μ) (machine : String) : State μ :=
  let revision := (state.revision + 1) % 2 ^ 64
  { state with revision, machineRevisions := state.machineRevisions.insert machine revision }

def publish (state : State μ) (machine : String) (changed : Bool) : State μ :=
  if changed then state.bump machine else state

/-- A writer of one remote's entry; a machine without one is left alone. -/
def updateRemote (state : State μ) (machine : String) (update : RemoteState μ → RemoteState μ × Bool) : State μ :=
  match state.remotes[machine]? with
  | none => state
  | some remote =>
    let (next, changed) := update remote
    { state with remotes := state.remotes.insert machine next }.publish machine changed

/-- Replaces one machine's mirrored sessions. -/
def applyMachineSessions (state : State μ) (machine : String) (sessions : List SessionSummary)
    (health : Option String) (now : Nat) : State μ :=
  state.updateRemote machine fun remote =>
    let sessions := sessions.filter fun session => session.name != reservedServiceSession
    ({ remote with online := true, health, lastSeenMs := some now, sessions },
      !remote.online || remote.health != health || !observableSummariesEqual remote.sessions sessions)

/-- Records that one machine is unreachable. -/
def markMachineOffline (state : State μ) (machine health : String) : State μ :=
  state.updateRemote machine fun remote =>
    ({ remote with online := false, health := some health, sessions := [] },
      remote.online || remote.health != some health || !remote.sessions.isEmpty)

/-- Updates telemetry mirrored from one remote node. -/
def setMachineMetrics [BEq μ] (state : State μ) (machine : String) (metrics : μ) : State μ :=
  state.updateRemote machine fun remote =>
    if remote.metrics != metrics then ({ remote with metrics }, true) else (remote, false)

/-- What `upsert_discovered_machine` writes for a machine it replaced. -/
def reconnectDiscovered (state : State μ) (id : String) : State μ :=
  state.updateRemote id fun remote =>
    ({ remote with online := false, health := some "connecting", sessions := [] }, true)

/-- What `upsert_discovered_machine` writes for a new machine. -/
def insertDiscovered [Inhabited μ] (state : State μ) (id : String) : State μ :=
  { state with remotes := state.remotes.insert id .connecting }.bump id

/-- What `remove_discovered_machine` writes. -/
def dropDiscovered (state : State μ) (id : String) : State μ :=
  { state with remotes := state.remotes.erase id }.bump id

/-- A writer of the coordinator's own fields. -/
def updateOwn (state : State μ) (localId : String) (sessions : List Session) (health : Option String) (metrics : μ)
    (changed : Bool) : State μ :=
  { state with sessions, health, metrics }.publish localId changed

def applyRefresh (state : State μ) (localId : String) (sessions : List Session) : State μ :=
  state.updateOwn localId sessions none state.metrics
    (!observableSessionsEqual state.sessions sessions || state.health.isSome)

def recordHealthError (state : State μ) (localId message : String) : State μ :=
  let changed := state.health != some message
  state.updateOwn localId state.sessions (if changed then some message else state.health) state.metrics changed

def applyLocalMetrics [BEq μ] (state : State μ) (localId : String) (metrics : μ) : State μ :=
  let changed := state.metrics != metrics
  state.updateOwn localId state.sessions state.health (if changed then metrics else state.metrics) changed

/-- The cursor of one machine; one that never published a change reports 0. -/
def cursor (state : State μ) (machine : String) : Nat := state.machineRevisions[machine]?.getD 0

end State

/-! ## Readers -/

/-- What a coordinator is configured with and never changes. -/
structure NodeConfig where
  localId : String
  localLabel : String
  coordinatorOnly : Bool
  bareLocalIds : Bool
  configuredMachineIds : List String

structure ControlPlane (μ : Type) where
  config : NodeConfig
  machines : Std.ExtTreeMap String RemoteMachine
  state : State μ

namespace ControlPlane

/-- The identity this coordinator emits for one of its own panes. -/
def localIdentity (config : NodeConfig) (paneId : String) : String :=
  if config.bareLocalIds then paneId else compositeId config.localId paneId

/-- The summary of one session of the coordinator's own. -/
def localSummary (hasher : List (List Char) → Nat) (config : NodeConfig) (session : Session) : SessionSummary :=
  .fromLocal hasher config.localId (localIdentity config session.paneId) session

def localMachine (control : ControlPlane μ) : MachineSummary μ where
  id := control.config.localId
  label := control.config.localLabel
  kind := .local
  online := control.state.health.isNone
  sessions := control.state.sessions.length
  health := control.state.health
  lastSeenMs := none
  address := none
  metrics := control.state.metrics

def mirroredSessions (control : ControlPlane μ) (machine : RemoteMachine) : List SessionSummary :=
  (control.state.remotes[machine.id]?.map RemoteState.sessions).getD []

def remoteMachine [Inhabited μ] (control : ControlPlane μ) (machine : RemoteMachine) : MachineSummary μ :=
  let remote := control.state.remotes[machine.id]?
  { id := machine.id
    label := machine.label
    kind := .remote
    online := remote.any RemoteState.online
    sessions := (control.mirroredSessions machine).length
    health := remote.bind RemoteState.health
    lastSeenMs := remote.bind RemoteState.lastSeenMs
    address := some machine.address
    metrics := (remote.map RemoteState.metrics).getD default }

def overview [Inhabited μ] (hasher : List (List Char) → Nat) (control : ControlPlane μ) : Overview μ :=
  let remotes := Index.values control.machines
  let hosted := !control.config.coordinatorOnly
  { revision := control.state.revision
    sessions := (if hosted then control.state.sessions.map (localSummary hasher control.config) else []) ++
      remotes.flatMap control.mirroredSessions
    health := if hosted then control.state.health else none
    machines := (if hosted then [control.localMachine] else []) ++ remotes.map control.remoteMachine }

/-- Whether an id names this coordinator or one of its machines. -/
def hasMachine (control : ControlPlane μ) (machine : String) : Bool :=
  (machine == control.config.localId && !control.config.coordinatorOnly) || control.machines.contains machine

end ControlPlane

def Overview.narrow (overview : Overview μ) (machine : String) : Overview μ :=
  { overview with
    sessions := overview.sessions.filter fun session => session.machine == machine
    machines := overview.machines.filter fun candidate => candidate.id == machine }

/-! ## What a writer leaves alone -/

namespace State

variable {state : State μ} {machine other : String} {changed : Bool}

@[simp] theorem publish_sessions : (state.publish machine changed).sessions = state.sessions := by
  unfold publish; split <;> rfl

@[simp] theorem publish_health : (state.publish machine changed).health = state.health := by
  unfold publish; split <;> rfl

@[simp] theorem publish_metrics : (state.publish machine changed).metrics = state.metrics := by
  unfold publish; split <;> rfl

@[simp] theorem publish_remotes : (state.publish machine changed).remotes = state.remotes := by
  unfold publish; split <;> rfl

theorem cursor_publish_of_ne (h : other ≠ machine) : (state.publish machine changed).cursor other = state.cursor other := by
  unfold publish
  split
  · simp [bump, cursor, Std.ExtTreeMap.getElem?_insert, h.symm]
  · rfl

theorem cursor_publish (hc : changed = true) : (state.publish machine changed).cursor machine =
    (state.publish machine changed).revision := by
  simp [publish, bump, cursor, hc]

/-- No cursor is past the shared revision. -/
def Cursors (state : State μ) : Prop := ∀ machine, state.cursor machine ≤ state.revision

/-- A published change moves the machine's cursor, unless the revision wrapped. -/
theorem cursor_lt_publish (hcur : state.Cursors) (hw : state.revision ≤ (state.publish machine changed).revision)
    (hc : changed = true) : state.cursor machine < (state.publish machine changed).cursor machine := by
  have hle := hcur machine
  rw [cursor_publish hc]
  simp only [publish, hc, if_true, bump] at hw ⊢
  omega

theorem Cursors.publish (hcur : state.Cursors) (hw : state.revision ≤ (state.publish machine changed).revision) :
    (state.publish machine changed).Cursors := by
  intro other
  by_cases ho : other = machine
  · subst ho
    by_cases hc : changed = true
    · exact (cursor_publish hc).le
    · simpa [State.publish, hc] using hcur other
  · rw [cursor_publish_of_ne ho]
    exact (hcur other).trans hw

/-- `next` differs from `state` only in what the machine shows. -/
structure Edits (localId machine : String) (state next : State μ) : Prop where
  revision : next.revision = state.revision
  machineRevisions : next.machineRevisions = state.machineRevisions
  remotes : ∀ other : String, other ≠ machine → next.remotes[other]? = state.remotes[other]?
  own : machine = localId ∨
    next.sessions = state.sessions ∧ next.health = state.health ∧ next.metrics = state.metrics

variable {localId : String} {next : State μ}

theorem Edits.cursor (h : Edits localId machine state next) (other : String) : next.cursor other = state.cursor other := by
  simp only [State.cursor, h.machineRevisions]

theorem Edits.cursors (h : Edits localId machine state next) (hcur : state.Cursors) : next.Cursors := fun other => by
  rw [h.cursor, h.revision]
  exact hcur other

theorem Edits.refl (localId machine : String) (state : State μ) : Edits localId machine state state :=
  ⟨rfl, rfl, fun _ _ => rfl, .inr ⟨rfl, rfl, rfl⟩⟩

/-- A new entry for the machine. -/
theorem edits_insert (localId machine : String) (state : State μ) (remote : RemoteState μ) :
    Edits localId machine state { state with remotes := state.remotes.insert machine remote } := by
  refine ⟨rfl, rfl, fun other hne => ?_, .inr ⟨rfl, rfl, rfl⟩⟩
  rw [Std.ExtTreeMap.getElem?_insert, if_neg (by simpa using hne.symm)]

theorem edits_erase (localId machine : String) (state : State μ) :
    Edits localId machine state { state with remotes := state.remotes.erase machine } := by
  refine ⟨rfl, rfl, fun other hne => ?_, .inr ⟨rfl, rfl, rfl⟩⟩
  rw [Std.ExtTreeMap.getElem?_erase, if_neg (by simpa using hne.symm)]

/-- A writer of a remote entry publishes the entry it replaced, if there is one. -/
theorem updateRemote_cases (localId : String) (state : State μ) (machine : String)
    (update : RemoteState μ → RemoteState μ × Bool) :
    ∃ next changed, state.updateRemote machine update = next.publish machine changed ∧
      Edits localId machine state next ∧
      (state.remotes[machine]? = none ∧ next = state ∧ changed = false ∨
        ∃ prior, state.remotes[machine]? = some prior ∧ next.remotes[machine]? = some (update prior).1 ∧
          changed = (update prior).2) := by
  unfold updateRemote
  cases hget : state.remotes[machine]? with
  | none => exact ⟨state, false, rfl, .refl .., .inl ⟨rfl, rfl, rfl⟩⟩
  | some prior => exact ⟨_, _, rfl, edits_insert .., .inr ⟨prior, rfl, by simp, rfl⟩⟩

theorem updateRemote_own (state : State μ) (machine : String) (update : RemoteState μ → RemoteState μ × Bool) :
    (state.updateRemote machine update).sessions = state.sessions ∧
      (state.updateRemote machine update).health = state.health ∧
      (state.updateRemote machine update).metrics = state.metrics := by
  unfold updateRemote
  split <;> simp

/-- A writer of the coordinator's own fields publishes them. -/
theorem edits_own (state : State μ) (localId : String) (sessions : List Session) (health : Option String) (metrics : μ) :
    Edits localId localId state { state with sessions, health, metrics } :=
  ⟨rfl, rfl, fun _ _ => rfl, .inl rfl⟩

end State

/-! ## The overview of one machine -/

/-- An entry that only holds sessions of the machine `id`. -/
def RemoteState.Owned (id : String) (remote : RemoteState μ) : Prop :=
  (∀ session ∈ remote.sessions, session.machine = id ∧ session.id = compositeId id session.paneId) ∧
    (remote.sessions.map SessionSummary.id).Nodup

namespace ControlPlane

/-- What every reachable control plane keeps: machines are filed under their
own ids, none of them the coordinator's, and a machine's mirrored sessions
are its own. -/
structure Coherent (control : ControlPlane μ) : Prop where
  machine : ∀ {id : String} {machine : RemoteMachine}, control.machines[id]? = some machine →
    machine.id = id ∧ id ≠ control.config.localId ∧ ValidMachineId id
  mirrored : ∀ {id : String} {remote : RemoteState μ}, control.state.remotes[id]? = some remote → remote.Owned id

variable {control : ControlPlane μ} {machine : RemoteMachine} {id : String}

theorem Coherent.mirrored_machine (h : control.Coherent) {session : SessionSummary}
    (hs : session ∈ control.mirroredSessions machine) : session.machine = machine.id := by
  unfold mirroredSessions at hs
  cases hget : control.state.remotes[machine.id]? with
  | none => simp [hget] at hs
  | some remote =>
    simp only [hget, Option.map_some, Option.getD_some] at hs
    exact ((h.mirrored hget).1 session hs).1

theorem Coherent.mem_machines (h : control.Coherent) (hm : machine ∈ Index.values control.machines) :
    machine.id ≠ control.config.localId ∧ ValidMachineId machine.id := by
  obtain ⟨id, hget⟩ := Index.mem_values.mp hm
  obtain ⟨rfl, hne, hvalid⟩ := h.machine hget
  exact ⟨hne, hvalid⟩

/-- A write of one remote entry that stays its machine's. -/
theorem Coherent.updateRemote (h : control.Coherent) {update : RemoteState μ → RemoteState μ × Bool}
    (hu : ∀ {prior}, prior.Owned id → (update prior).1.Owned id) :
    ({ control with state := control.state.updateRemote id update } : ControlPlane μ).Coherent := by
  refine ⟨h.machine, fun {other remote} hget => ?_⟩
  unfold State.updateRemote at hget
  split at hget
  · exact h.mirrored hget
  next prior hprior =>
    rw [State.publish_remotes, Std.ExtTreeMap.getElem?_insert] at hget
    by_cases hm : id = other
    · subst hm
      simp only [Std.compare_self, if_true, Option.some.injEq] at hget
      exact hget ▸ hu (h.mirrored hprior)
    · rw [if_neg (by simpa using hm)] at hget
      exact h.mirrored hget

variable [Inhabited μ]

@[simp] theorem remoteMachine_id : (control.remoteMachine machine).id = machine.id := rfl

@[simp] theorem remoteMachine_kind : (control.remoteMachine machine).kind = .remote := rfl

/-- The coordinator's own group: its local machine and sessions, when it hosts any. -/
theorem narrow_local (hasher : List (List Char) → Nat) (h : control.Coherent) :
    ((control.overview hasher).narrow control.config.localId).machines =
        (if control.config.coordinatorOnly then [] else [control.localMachine]) ∧
      ((control.overview hasher).narrow control.config.localId).sessions =
        if control.config.coordinatorOnly then [] else control.state.sessions.map (localSummary hasher control.config) := by
  have hmachines : ((Index.values control.machines).map control.remoteMachine).filter
      (fun candidate => candidate.id == control.config.localId) = [] := by
    refine List.filter_eq_nil_iff.mpr fun candidate hc => ?_
    obtain ⟨m, hm, rfl⟩ := List.mem_map.mp hc
    simpa using (h.mem_machines hm).1
  have hsessions : ((Index.values control.machines).flatMap control.mirroredSessions).filter
      (fun session => session.machine == control.config.localId) = [] := by
    refine List.filter_eq_nil_iff.mpr fun session hs => ?_
    obtain ⟨m, hm, hs⟩ := List.mem_flatMap.mp hs
    simpa [h.mirrored_machine hs] using (h.mem_machines hm).1
  have hown : ∀ session ∈ control.state.sessions.map (localSummary hasher control.config),
      (session.machine == control.config.localId) = true := by
    intro session hs
    obtain ⟨s, -, rfl⟩ := List.mem_map.mp hs
    exact beq_self_eq_true _
  unfold overview Overview.narrow
  cases hco : control.config.coordinatorOnly with
  | true => simp [hmachines, hsessions]
  | false => simp [hmachines, hsessions, List.filter_eq_self.mpr hown, localMachine]

/-- A remote group: the machine when it is listed, and what is mirrored of it. -/
theorem narrow_remote (hasher : List (List Char) → Nat) (h : control.Coherent) (hne : id ≠ control.config.localId) :
    ((control.overview hasher).narrow id).machines = control.machines[id]?.toList.map control.remoteMachine ∧
      ((control.overview hasher).narrow id).sessions =
        control.machines[id]?.toList.flatMap control.mirroredSessions := by
  have hfilter := Index.filter_values (f := RemoteMachine.id) (fun hget => (h.machine hget).1) id
  have hmachines : ((Index.values control.machines).map control.remoteMachine).filter
      (fun candidate => candidate.id == id) = control.machines[id]?.toList.map control.remoteMachine := by
    rw [List.filter_map, ← hfilter]
    rfl
  have hsessions : ((Index.values control.machines).flatMap control.mirroredSessions).filter
      (fun session => session.machine == id) = control.machines[id]?.toList.flatMap control.mirroredSessions := by
    rw [Index.flatMap_filter (q := fun m => m.id = id) fun m _ s hs => ?_, hfilter]
    rw [h.mirrored_machine hs]
    exact Bool.eq_iff_iff.mpr (by simp)
  have hown : (control.state.sessions.map (localSummary hasher control.config)).filter
      (fun session => session.machine == id) = [] := by
    refine List.filter_eq_nil_iff.mpr fun session hs => ?_
    obtain ⟨s, -, rfl⟩ := List.mem_map.mp hs
    simpa [localSummary, SessionSummary.fromLocal] using hne.symm
  unfold overview Overview.narrow
  cases hco : control.config.coordinatorOnly with
  | true => simp [hmachines, hsessions]
  | false => simp [hmachines, hsessions, hown, localMachine, hne.symm]

end ControlPlane

end Atmux
