/-
Quick Resume: the `RecoveryRunner`s of the nodes of one host, and the lock file
they share.

A runner's state is behind a mutex that `start` holds to its end, so `start` and
`status` are one step each; the script runs in a task of its own, which gives the
lock up before it records the outcome. `single_flight` says what holds in between,
whatever the order: no two scripts run under one lock file, a node's phase is
`running` from its start until its outcome is recorded and no longer, and what is
running was validated.
-/
import Mathlib.Data.List.Nodup
import Mathlib.Logic.Function.Basic
import Atmux.Lib.Runs

namespace Atmux.Recovery

open Lib

/-! ## What the file system answers -/

structure Path where
  absolute : Bool
  parts : List String
deriving DecidableEq, Repr

namespace Path

def parent (path : Path) : Option Path :=
  if path.parts = [] then none else some { path with parts := path.parts.dropLast }

def join (path : Path) (name : String) : Path := { path with parts := path.parts ++ [name] }

/-- The path and all above it. -/
def ancestors (path : Path) : List Path := path.parts.inits.reverse.map fun parts => { path with parts }

end Path

structure Metadata where
  isFile : Bool
  isDir : Bool
  isSymlink : Bool
  mode : Nat
  uid : Nat
  nlink : Nat
  len : Nat
  dev : Nat
  ino : Nat
deriving DecidableEq, Repr

inductive IoError
  | notFound
  | other
deriving DecidableEq, Repr

/-- The answers of the file system to one call of a runner. -/
structure Host where
  euid : Nat
  symlinkMetadata : Path → Except IoError Metadata
  /-- `fs::metadata`, which follows links. -/
  metadata : Path → Option Metadata
  /-- The metadata of the file that is opened without following links, and what is read of it. -/
  openScript : Path → Option (Metadata × Option (List UInt8))
  /-- Whether a directory is there after `mkdir`. -/
  mkdir : Path → Bool
  /-- The metadata of the lock file that is opened or created. -/
  openLock : Path → Option Metadata
  /-- `flock` fails otherwise than for a lock that is held. -/
  flockFails : Bool

/-- `mode & mask != 0` -/
def anyBits (mode mask : Nat) : Bool := mode &&& mask != 0

/-! ## The script -/

def maxScriptBytes : Nat := 1024 * 1024

def scriptMarker : String := "ATMUX_QUICK_RESUME_IDEMPOTENT_V1"

def scopedExecMarker : String := "ATMUX_QUICK_RESUME_SCOPED_EXEC_V1"

def transactionBegin : List UInt8 := "\n# ATMUX_QUICK_RESUME_TRANSACTION_BEGIN\n".toUTF8.data.toList

def transactionEnd : List UInt8 := "# ATMUX_QUICK_RESUME_TRANSACTION_END\n".toUTF8.data.toList

/-- Where a fragment stands, when it stands in one place alone. -/
def singleFragmentOffset (contents fragment : List UInt8) : Option Nat :=
  match (List.range (contents.length + 1 - fragment.length)).filter fun offset =>
      (contents.drop offset).take fragment.length = fragment with
  | [first] => some first
  | _ => none

def transactionHelpers (contents : List UInt8) : Option (List UInt8) := do
  let start := (← singleFragmentOffset contents transactionBegin) + transactionBegin.length
  let stop ← singleFragmentOffset contents transactionEnd
  if start ≤ stop then some ((contents.drop start).take (stop - start)) else none

/-- The lines of a file, as `split` on a line feed gives them. -/
def splitLines (contents : List UInt8) : List (List UInt8) := contents.splitOn 10

def marked (contents : List UInt8) : Bool :=
  [scriptMarker, scopedExecMarker].all fun marker =>
    (splitLines contents).contains ("# " ++ marker).toUTF8.data.toList

/-- The bytes of a script that passed every check; `helpers` is the transaction
block that is expected of it. -/
structure ValidatedScript (helpers : List UInt8) where
  contents : List UInt8
  marked : marked contents = true
  block : transactionHelpers contents = some helpers

/-! ## Checks -/

inductive LockError
  | busy
  | unsafeLock
deriving DecidableEq, Repr

/-- Every directory above a path is real, is the user's or the system's, and only they can write it. -/
def secureAncestry (host : Host) (path : Path) : Bool :=
  match path.absolute, path.parent with
  | true, some parent => parent.ancestors.all fun directory =>
      match host.symlinkMetadata directory with
      | .ok metadata =>
        !(metadata.isSymlink || !metadata.isDir || anyBits metadata.mode 0o022 ||
          (metadata.uid != 0 && metadata.uid != host.euid))
      | .error _ => false
  | _, _ => false

def validateScript (helpers : List UInt8) (host : Host) (path : Path) : Option (ValidatedScript helpers) := do
  guard (secureAncestry host path)
  let pathMetadata ← (host.symlinkMetadata path).toOption
  let (metadata, contents) ← host.openScript path
  guard (metadata.isFile && metadata.len ≤ maxScriptBytes && anyBits metadata.mode 0o111 && !anyBits metadata.mode 0o022
    && metadata.uid == host.euid && metadata.nlink == 1 && pathMetadata.dev == metadata.dev &&
      pathMetadata.ino == metadata.ino)
  let contents ← contents
  if h : marked contents = true ∧ transactionHelpers contents = some helpers then some ⟨contents, h.1, h.2⟩ else none

def requiredCommandsAvailable (host : Host) (commands : List Path) : Bool :=
  commands.all fun command =>
    command.absolute && (host.metadata command).any fun metadata => metadata.isFile && anyBits metadata.mode 0o111

def lockFileName : String := "resume-tron.lock"

/-- `validate_secure_runtime_directory` -/
def secureRuntimeDirectory (host : Host) (path : Path) : Bool :=
  match host.symlinkMetadata path with
  | .ok metadata => !(metadata.isSymlink || !metadata.isDir || metadata.uid != host.euid || anyBits metadata.mode 0o077)
  | .error _ => false

/-- `validate_lock_metadata` -/
def secureLock (host : Host) (metadata : Metadata) : Bool :=
  !(metadata.isSymlink || !metadata.isFile || metadata.uid != host.euid || metadata.nlink != 1 ||
    anyBits metadata.mode 0o077)

/-- `validate_runtime_location` -/
def secureRuntimeLocation (host : Host) (runtimeDir : Path) : Bool :=
  match runtimeDir.parent with
  | none => false
  | some base =>
    secureRuntimeDirectory host base &&
      match host.symlinkMetadata runtimeDir with
      | .error .notFound => true
      | .error .other => false
      | .ok _ =>
        secureRuntimeDirectory host runtimeDir &&
          match host.symlinkMetadata (runtimeDir.join lockFileName) with
          | .ok metadata => secureLock host metadata
          | .error .notFound => true
          | .error .other => false

/-- The lock that is taken, by the inode of its file; `held` are those that are taken already. -/
def acquireRuntimeLock (host : Host) (runtimeDir : Path) (held : List Nat) : Except LockError Nat :=
  match runtimeDir.parent with
  | none => .error .unsafeLock
  | some base =>
    if !secureRuntimeDirectory host base || !host.mkdir runtimeDir || !secureRuntimeDirectory host runtimeDir then
      .error .unsafeLock
    else
      match host.openLock (runtimeDir.join lockFileName) with
      | none => .error .unsafeLock
      | some metadata =>
        if !secureLock host metadata then .error .unsafeLock
        else if held.contains metadata.ino then .error .busy
        else if host.flockFails then .error .unsafeLock
        else .ok metadata.ino

/-! ## The runner -/

inductive RecoveryPhase
  | unavailable
  | idle
  | running
  | succeeded
  | failed
  | timedOut
deriving DecidableEq, Repr

structure RecoveryStatus where
  machine : String
  available : Bool
  phase : RecoveryPhase
  startedAtMs : Option Nat
  finishedAtMs : Option Nat
  message : String
deriving DecidableEq, Repr

inductive RecoveryStartError
  | unavailable (message : String)
  | running
deriving DecidableEq, Repr

inductive ScriptOutcome
  | succeeded
  | failed (code : Option Int)
  | timedOut
deriving DecidableEq, Repr

/-- What a runner is made with, and its state. -/
structure RecoveryRunner where
  enabled : Bool
  script : Path
  runtimeDir : Path
  requiredCommands : List Path
  state : RecoveryStatus

def notOnTron : String := "Quick Resume is available only on Tron"

def ready : String := "Ready to restore Tron's saved session roster"

def unsafeScript : String := "Tron's recovery script is unavailable or fails its safety checks"

def noLockDirectory : String := "Tron's secure runtime lock directory is unavailable"

def restoring : String := "Restoring missing Tron sessions; existing sessions are preserved"

section Runner

variable (helpers : List UInt8)

namespace RecoveryRunner

/-- Whether a script could be started now. -/
def available (runner : RecoveryRunner) (host : Host) : Bool :=
  runner.enabled && (validateScript helpers host runner.script).isSome && secureRuntimeLocation host runner.runtimeDir
    && requiredCommandsAvailable host runner.requiredCommands

def new (machine : String) (enabled : Bool) (script runtimeDir : Path) (requiredCommands : List Path)
    (host : Host) : RecoveryRunner :=
  let runner : RecoveryRunner := ⟨enabled, script, runtimeDir, requiredCommands,
    ⟨machine, false, .unavailable, none, none, ""⟩⟩
  let available := runner.available helpers host
  let (phase, message) :=
    if !enabled then (RecoveryPhase.unavailable, notOnTron)
    else if available then (.idle, ready)
    else (.unavailable, unsafeScript)
  { runner with state := ⟨machine, available, phase, none, none, message⟩ }

/-- `status` leaves the state it returns. -/
def status (runner : RecoveryRunner) (host : Host) : RecoveryRunner :=
  let state := runner.state
  if state.phase = .running then runner
  else
    let available := runner.available helpers host
    let state := { state with available }
    let state :=
      if !available then
        { state with phase := .unavailable, message := if runner.enabled then unsafeScript else notOnTron }
      else if state.phase = .unavailable then { state with phase := .idle, message := ready }
      else state
    { runner with state }

/-- The runner that refuses to start, for a reason it shows. -/
def refuse (runner : RecoveryRunner) (message : String) : RecoveryRunner :=
  { runner with state := { runner.state with available := false, phase := .unavailable, message } }

/-- What `start` leaves and answers: the script and the lock of the task it spawns, or its error. -/
def start (runner : RecoveryRunner) (host : Host) (held : List Nat) (now : Nat) :
    RecoveryRunner × Except RecoveryStartError (ValidatedScript helpers × Nat) :=
  if runner.state.phase = .running then (runner, .error .running)
  else
    let script :=
      if runner.enabled && requiredCommandsAvailable host runner.requiredCommands then
        validateScript helpers host runner.script
      else none
    match script with
    | none => (runner.refuse unsafeScript, .error (.unavailable unsafeScript))
    | some script =>
      match acquireRuntimeLock host runner.runtimeDir held with
      | .error .busy => (runner, .error .running)
      | .error .unsafeLock => (runner.refuse noLockDirectory, .error (.unavailable noLockDirectory))
      | .ok lock =>
        let state := { runner.state with
          available := true, phase := .running, startedAtMs := some now, finishedAtMs := none, message := restoring }
        ({ runner with state }, .ok (script, lock))

/-- What the task leaves when the script is over. -/
def record (runner : RecoveryRunner) (outcome : ScriptOutcome) (now : Nat) : RecoveryRunner :=
  let state := { runner.state with finishedAtMs := some now }
  let state :=
    match outcome with
    | .succeeded =>
      { state with
        phase := .succeeded
        message := "Tron recovery script finished; sessions will appear as they become ready" }
    | .failed code =>
      { state with
        phase := .failed
        message := (code.map fun code => "Tron recovery script exited with status " ++ toString code).getD
          "Tron recovery script was terminated" }
    | .timedOut =>
      { state with phase := .timedOut, message := "Tron recovery stopped after its three-minute safety limit" }
  { runner with state }

end RecoveryRunner

end Runner

/-! ## The nodes of one host -/

/-- Where the task of a start is in `run_script`. -/
inductive Stage
  | spawning
  | scripting
  /-- The lock is given up, and the outcome is still to be recorded. -/
  | ended (outcome : ScriptOutcome)
deriving DecidableEq, Repr

/-- The task of one start. -/
structure Flight (helpers : List UInt8) where
  node : Nat
  script : ValidatedScript helpers
  lock : Nat
  stage : Stage

variable {helpers : List UInt8}

/-- The task holds its lock. -/
def Flight.live (flight : Flight helpers) : Bool :=
  match flight.stage with
  | .spawning | .scripting => true
  | .ended _ => false

def Flight.scripting (flight : Flight helpers) : Bool := flight.stage = .scripting

structure World (helpers : List UInt8) where
  /-- The nodes that are up, by process. -/
  nodes : Nat → Option RecoveryRunner
  flights : List (Flight helpers)
  /-- The scripts whose nodes were killed under them. -/
  orphans : List (ValidatedScript helpers)

inductive Label
  /-- A node comes up. -/
  | launch (node : Nat) (machine : String) (enabled : Bool) (script runtimeDir : Path)
    (requiredCommands : List Path) (host : Host)
  | status (node : Nat) (host : Host)
  | start (node : Nat) (host : Host) (now : Nat)
  /-- The interpreter is started. -/
  | spawned (node : Nat)
  /-- The script is over, or never began. -/
  | ended (node : Nat) (outcome : ScriptOutcome)
  | record (node : Nat) (now : Nat)
  /-- A node ends, and its child with it. -/
  | quit (node : Nat)
  /-- A node is killed, and its child is not. -/
  | killed (node : Nat)

namespace World

/-- The locks that are held. -/
def held (w : World helpers) : List Nat := (w.flights.filter Flight.live).map Flight.lock

/-- The scripts that run. -/
def scripts (w : World helpers) : List (ValidatedScript helpers) :=
  (w.flights.filter Flight.scripting).map Flight.script ++ w.orphans

/-- Moves the task of a node on. -/
def move (w : World helpers) (node : Nat) (stage : Stage) : World helpers :=
  { w with flights := w.flights.map fun flight => if flight.node = node then { flight with stage } else flight }

/-- The node is gone, and so are its tasks. -/
def drop (w : World helpers) (node : Nat) : World helpers :=
  { w with nodes := Function.update w.nodes node none, flights := w.flights.filter fun flight => flight.node != node }

def step (w : World helpers) : Label → Option (World helpers)
  | .launch node machine enabled script runtimeDir requiredCommands host =>
    match w.nodes node with
    | some _ => none
    | none =>
      some { w with
        nodes := Function.update w.nodes node
          (some (.new helpers machine enabled script runtimeDir requiredCommands host)) }
  | .status node host =>
    (w.nodes node).map fun runner =>
      { w with nodes := Function.update w.nodes node (some (runner.status helpers host)) }
  | .start node host now =>
    (w.nodes node).map fun runner =>
      match runner.start helpers host w.held now with
      | (runner, .error _) => { w with nodes := Function.update w.nodes node (some runner) }
      | (runner, .ok (script, lock)) =>
        { w with
          nodes := Function.update w.nodes node (some runner)
          flights := w.flights ++ [⟨node, script, lock, .spawning⟩] }
  | .spawned node =>
    if w.flights.any fun flight => flight.node = node ∧ flight.stage = .spawning then
      some (w.move node .scripting) else none
  | .ended node outcome =>
    if w.flights.any fun flight => flight.node = node ∧
        (flight.stage = .scripting ∨ flight.stage = .spawning ∧ outcome = .failed none) then
      some (w.move node (.ended outcome))
    else none
  | .record node now =>
    match w.nodes node, w.flights.find? fun flight => flight.node = node with
    | some runner, some flight =>
      match flight.stage with
      | .ended outcome =>
        some { w with
          nodes := Function.update w.nodes node (some (runner.record outcome now))
          flights := w.flights.filter fun flight => flight.node != node }
      | _ => none
    | _, _ => none
  | .quit node => (w.nodes node).map fun _ => w.drop node
  | .killed node =>
    (w.nodes node).map fun _ =>
      { w.drop node with
        orphans := w.orphans ++ (w.flights.filter fun flight => flight.node = node ∧
          flight.scripting).map Flight.script }

/-- No node is up. -/
def start : World helpers := ⟨fun _ => none, [], []⟩

end World

/-- One step of any node. -/
def World.Step (w : World helpers) (label : Label) (w' : World helpers) : Prop := w.step label = some w'

/-! ## What holds of the host -/

/-- Tasks of different nodes, and under different locks while both hold theirs. -/
def Apart (flight other : Flight helpers) : Prop :=
  flight.node ≠ other.node ∧ (flight.live = true → other.live = true → flight.lock ≠ other.lock)

/-- What a node shows is what its task does. -/
structure SingleFlight (w : World helpers) : Prop where
  /-- One task for a node, and one live task for a lock file. -/
  apart : w.flights.Pairwise Apart
  /-- A node shows `running` from its start to its record. -/
  running : ∀ node runner, w.nodes node = some runner →
    (runner.state.phase = .running ↔ ∃ flight ∈ w.flights, flight.node = node)
  /-- While it does, its times are those of the start. -/
  begun : ∀ node runner, w.nodes node = some runner → runner.state.phase = .running →
    runner.state.available = true ∧ runner.state.startedAtMs ≠ none ∧ runner.state.finishedAtMs = none
  /-- No task is without its node. -/
  owned : ∀ flight ∈ w.flights, w.nodes flight.node ≠ none

/-! ## One call of a runner -/

section Calls

variable {runner runner' : RecoveryRunner} {host : Host} {held : List Nat} {now : Nat}

theorem status_of_running (h : runner.state.phase = .running) : runner.status helpers host = runner := by
  simp only [RecoveryRunner.status, h, if_true]

theorem status_not_running (h : runner.state.phase ≠ .running) :
    (runner.status helpers host).state.phase ≠ .running := by
  simp only [RecoveryRunner.status, if_neg h]
  split
  · simp
  split
  · simp
  · exact h

theorem record_not_running (outcome : ScriptOutcome) (now : Nat) :
    (runner.record outcome now).state.phase ≠ .running := by
  cases outcome <;> simp [RecoveryRunner.record]

theorem refuse_not_running (message : String) : (runner.refuse message).state.phase ≠ .running := by
  simp [RecoveryRunner.refuse]

theorem new_not_running (machine : String) (enabled : Bool) (script runtimeDir : Path) (requiredCommands : List Path) :
    (RecoveryRunner.new helpers machine enabled script runtimeDir requiredCommands host).state.phase ≠ .running := by
  simp only [RecoveryRunner.new]
  split
  · simp
  split
  · simp
  · simp

theorem acquireRuntimeLock_ok {runtimeDir : Path} {lock : Nat}
    (h : acquireRuntimeLock host runtimeDir held = .ok lock) :
    lock ∉ held ∧ ∃ path metadata, host.openLock path = some metadata ∧ metadata.ino = lock := by
  unfold acquireRuntimeLock at h
  split at h
  · cases h
  split at h
  · cases h
  split at h
  · cases h
  next metadata hopen =>
  split at h
  · cases h
  split at h
  · cases h
  next hheld =>
  split at h
  · cases h
  · obtain rfl := Except.ok.inj h
    exact ⟨by simpa using hheld, _, metadata, hopen, rfl⟩

/-- **What a start does**: it is refused, and a node that shows `running` goes on
to, or it takes a lock that nobody holds. -/
theorem start_cases (helpers : List UInt8) (runner : RecoveryRunner) (host : Host) (held : List Nat) (now : Nat) :
    (∃ runner' e, runner.start helpers host held now = (runner', .error e) ∧
        (runner' = runner ∨ runner.state.phase ≠ .running ∧ runner'.state.phase ≠ .running)) ∨
      ∃ runner' script lock, runner.start helpers host held now = (runner', .ok (script, lock)) ∧
        runner.state.phase ≠ .running ∧
        lock ∉ held ∧ (∃ path metadata, host.openLock path = some metadata ∧ metadata.ino = lock) ∧
        runner'.state.phase = .running ∧ runner'.state.available = true ∧ runner'.state.startedAtMs = some now ∧
        runner'.state.finishedAtMs = none := by
  unfold RecoveryRunner.start
  split
  · exact .inl ⟨_, _, rfl, .inl rfl⟩
  next hphase =>
  dsimp only
  split
  · exact .inl ⟨_, _, rfl, .inr ⟨hphase, refuse_not_running _⟩⟩
  split
  · exact .inl ⟨_, _, rfl, .inl rfl⟩
  · exact .inl ⟨_, _, rfl, .inr ⟨hphase, refuse_not_running _⟩⟩
  next lock hlock =>
    obtain ⟨hheld, hopen⟩ := acquireRuntimeLock_ok hlock
    exact .inr ⟨_, _, _, rfl, hphase, hheld, hopen, rfl, rfl, rfl, rfl⟩

end Calls

/-! ## One step -/

namespace SingleFlight

variable {w w' : World helpers} {label : Label} {node : Nat} {runner runner' : RecoveryRunner}

theorem start : SingleFlight (World.start : World helpers) :=
  ⟨.nil, fun _ _ h => (by cases h), fun _ _ h => (by cases h), fun _ h => absurd h List.not_mem_nil⟩

theorem updated {nodes : Nat → Option RecoveryRunner} {other : Nat} {found : RecoveryRunner}
    (h : Function.update nodes node (some runner') other = some found) :
    other = node ∧ found = runner' ∨ other ≠ node ∧ nodes other = some found := by
  by_cases heq : other = node
  · subst heq
    rw [Function.update_self] at h
    exact .inl ⟨rfl, (Option.some.inj h).symm⟩
  · rw [Function.update_of_ne heq] at h
    exact .inr ⟨heq, h⟩

theorem updated_ne_none {nodes : Nat → Option RecoveryRunner} {other : Nat} (h : other = node ∨ nodes other ≠ none) :
    Function.update nodes node (some runner') other ≠ none := by
  by_cases heq : other = node
  · rw [heq, Function.update_self]
    exact Option.some_ne_none _
  · rw [Function.update_of_ne heq]
    exact h.resolve_left heq

/-- A node's state changes, and whether it shows `running` does not. -/
theorem shown (h : SingleFlight w) (hnode : w.nodes node = some runner)
    (hsame : runner' = runner ∨ runner.state.phase ≠ .running ∧ runner'.state.phase ≠ .running) :
    SingleFlight { w with nodes := Function.update w.nodes node (some runner') } := by
  refine ⟨h.apart, fun other found hother => ?_, fun other found hother hrunning => ?_, fun flight hflight => ?_⟩
  · rcases updated hother with ⟨rfl, rfl⟩ | ⟨-, hother⟩
    · rcases hsame with rfl | ⟨hbefore, hafter⟩
      · exact h.running other _ hnode
      · exact ⟨fun hrunning => absurd hrunning hafter, fun hflight =>
          absurd ((h.running other runner hnode).mpr hflight) hbefore⟩
    · exact h.running other found hother
  · rcases updated hother with ⟨rfl, rfl⟩ | ⟨-, hother⟩
    · rcases hsame with rfl | ⟨-, hafter⟩
      · exact h.begun other _ hnode hrunning
      · exact absurd hrunning hafter
    · exact h.begun other found hother hrunning
  · exact updated_ne_none (.inr (h.owned flight hflight))

/-- A node has one task. -/
theorem unique (h : SingleFlight w) {flight other : Flight helpers} (hflight : flight ∈ w.flights)
    (hother : other ∈ w.flights)
    (hsame : flight.node = other.node) : flight = other := by
  have hnodup : (w.flights.map Flight.node).Nodup := List.pairwise_map.mpr (h.apart.imp fun hapart => hapart.1)
  exact List.inj_on_of_nodup_map hnodup hflight hother hsame

/-- A task that waits for its interpreter is live. -/
theorem live_of_spawning (h : SingleFlight w) {stage : Stage}
    (hspawning : (w.flights.any fun flight => flight.node = node ∧ flight.stage = .spawning) = true) :
    ∀ flight ∈ w.flights, flight.node = node → ({ flight with stage } : Flight helpers).live = true →
      flight.live = true := by
  obtain ⟨flight, hflight, hstage⟩ := List.any_eq_true.mp hspawning
  obtain ⟨hnode, hstage⟩ := of_decide_eq_true hstage
  intro other hother hsame _
  obtain rfl := h.unique hflight hother (hnode.trans hsame.symm)
  rw [Flight.live, hstage]

/-- A task moves on, and gains no lock by it. -/
theorem move (h : SingleFlight w) {stage : Stage}
    (hlive : ∀ flight ∈ w.flights, flight.node = node → ({ flight with stage } : Flight helpers).live = true →
      flight.live = true) :
    SingleFlight (w.move node stage) := by
  have hstays : ∀ flight : Flight helpers, (if flight.node = node then { flight with stage } else flight).node =
    flight.node := by
    intro flight
    split <;> rfl
  have hmem : ∀ other, (∃ flight ∈ (w.move node stage).flights, flight.node = other) ↔
      ∃ flight ∈ w.flights, flight.node = other := by
    intro other
    simp only [World.move, List.mem_map, exists_exists_and_eq_and, hstays]
  refine ⟨?_, fun other found hother => (h.running other found hother).trans (hmem other).symm, h.begun, ?_⟩
  · rw [World.move, List.pairwise_map]
    refine h.apart.imp_of_mem fun {a b} ha hb hapart => ⟨by rw [hstays, hstays]; exact hapart.1,
      fun hfirst hsecond => ?_⟩
    have hlock : ∀ flight : Flight helpers, (if flight.node = node then { flight with stage } else flight).lock =
      flight.lock := by
      intro flight
      split <;> rfl
    have hbefore : ∀ flight ∈ w.flights,
        (if flight.node = node then { flight with stage } else flight).live = true → flight.live = true := by
      intro flight hflight hafter
      split at hafter
      next heq => exact hlive flight hflight heq hafter
      next => exact hafter
    rw [hlock, hlock]
    exact hapart.2 (hbefore a ha hfirst) (hbefore b hb hsecond)
  · intro flight hflight
    obtain ⟨before, hbefore, rfl⟩ := List.mem_map.mp hflight
    rw [hstays]
    exact h.owned before hbefore

theorem drop_nodes (w : World helpers) (node : Nat) : (w.drop node).nodes = Function.update w.nodes node none := rfl

/-- A node and its tasks go. -/
theorem drop (h : SingleFlight w) (node : Nat) : SingleFlight (w.drop node) := by
  have hmem : ∀ flight, flight ∈ (w.drop node).flights ↔ flight ∈ w.flights ∧ flight.node ≠ node := by
    intro flight
    simp [World.drop]
  have hstays : ∀ other found, (w.drop node).nodes other = some found → other ≠ node ∧ w.nodes other = some found := by
    intro other found hother
    by_cases heq : other = node
    · rw [drop_nodes, heq, Function.update_self] at hother
      cases hother
    · rw [drop_nodes, Function.update_of_ne heq] at hother
      exact ⟨heq, hother⟩
  refine ⟨h.apart.filter _, fun other found hother => ?_, fun other found hother => ?_, fun flight hflight => ?_⟩
  · obtain ⟨hne, hother⟩ := hstays other found hother
    rw [h.running other found hother]
    constructor
    · rintro ⟨flight, hflight, rfl⟩
      exact ⟨flight, (hmem flight).mpr ⟨hflight, hne⟩, rfl⟩
    · rintro ⟨flight, hflight, rfl⟩
      exact ⟨flight, ((hmem flight).mp hflight).1, rfl⟩
  · exact h.begun other found (hstays other found hother).2
  · obtain ⟨hflight, hne⟩ := (hmem flight).mp hflight
    rw [drop_nodes, Function.update_of_ne hne]
    exact h.owned flight hflight

/-- A node that shows no `running` starts a task under a lock that nobody holds. -/
theorem began (h : SingleFlight w) (hnode : w.nodes node = some runner) (hidle : runner.state.phase ≠ .running)
    (hrunning : runner'.state.phase = .running)
    (hbegun : runner'.state.available = true ∧ runner'.state.startedAtMs ≠ none ∧ runner'.state.finishedAtMs = none)
    (script : ValidatedScript helpers) {lock : Nat} (hlock : lock ∉ w.held) :
    SingleFlight { w with
      nodes := Function.update w.nodes node (some runner')
      flights := w.flights ++ [⟨node, script, lock, .spawning⟩] } := by
  have hfree : ∀ flight ∈ w.flights, flight.node ≠ node := by
    intro flight hflight heq
    exact hidle ((h.running node runner hnode).mpr ⟨flight, hflight, heq⟩)
  refine ⟨?_, fun other found hother => ?_, fun other found hother hphase => ?_, fun flight hflight => ?_⟩
  · refine List.pairwise_append.mpr ⟨h.apart, List.pairwise_singleton _ _, fun flight hflight other hother => ?_⟩
    obtain rfl := List.mem_singleton.mp hother
    refine ⟨hfree flight hflight, fun hlive _ heq => hlock ?_⟩
    exact List.mem_map.mpr ⟨flight, List.mem_filter.mpr ⟨hflight, hlive⟩, heq⟩
  · rcases updated hother with ⟨rfl, rfl⟩ | ⟨hne, hother⟩
    · exact ⟨fun _ => ⟨_, List.mem_append_right _ (List.mem_singleton_self _), rfl⟩, fun _ => hrunning⟩
    · rw [h.running other found hother]
      simp [Ne.symm hne]
  · rcases updated hother with ⟨rfl, rfl⟩ | ⟨-, hother⟩
    · exact hbegun
    · exact h.begun other found hother hphase
  · rcases List.mem_append.mp hflight with hflight | hflight
    · exact updated_ne_none (.inr (h.owned flight hflight))
    · obtain rfl := List.mem_singleton.mp hflight
      exact updated_ne_none (.inl rfl)

/-- A node that is up and has no task shows anything but `running`. -/
theorem placed (h : SingleFlight w) (hfree : ∀ flight ∈ w.flights, flight.node ≠ node)
    (hnot : runner'.state.phase ≠ .running) :
    SingleFlight { w with nodes := Function.update w.nodes node (some runner') } := by
  refine ⟨h.apart, fun other found hother => ?_, fun other found hother hphase => ?_, fun flight hflight => ?_⟩
  · rcases updated hother with ⟨rfl, rfl⟩ | ⟨-, hother⟩
    · exact ⟨fun hrunning => absurd hrunning hnot, fun ⟨flight, hflight, hsame⟩ => absurd hsame (hfree flight hflight)⟩
    · exact h.running other found hother
  · rcases updated hother with ⟨rfl, rfl⟩ | ⟨-, hother⟩
    · exact absurd hphase hnot
    · exact h.begun other found hother hphase
  · exact updated_ne_none (.inr (h.owned flight hflight))

/-- **One step** of any node keeps the tasks apart. -/
theorem step (h : SingleFlight w) (hstep : w.Step label w') : SingleFlight w' := by
  cases label with
  | launch node machine enabled script runtimeDir requiredCommands host =>
    rw [World.Step, World.step] at hstep
    split at hstep
    · cases hstep
    next hnone =>
      obtain rfl := Option.some.inj hstep
      refine h.placed (fun flight hflight heq => h.owned flight hflight (heq ▸ hnone)) (new_not_running _ _ _ _ _)
  | status node host =>
    obtain ⟨runner, hnode, rfl⟩ := Option.map_eq_some_iff.mp hstep
    refine h.shown hnode ?_
    by_cases hrunning : runner.state.phase = .running
    · exact .inl (status_of_running hrunning)
    · exact .inr ⟨hrunning, status_not_running hrunning⟩
  | start node host now =>
    obtain ⟨runner, hnode, rfl⟩ := Option.map_eq_some_iff.mp hstep
    rcases start_cases helpers runner host w.held now with ⟨runner', e, hstart, hsame⟩ |
      ⟨runner', script, lock, hstart, hidle, hheld, -, hrunning, havailable, hstarted, hfinished⟩
    · rw [hstart]
      exact h.shown hnode hsame
    · rw [hstart]
      exact h.began hnode hidle hrunning ⟨havailable, by simp [hstarted], hfinished⟩ script hheld
  | spawned node =>
    rw [World.Step, World.step, Option.ite_none_right_eq_some] at hstep
    obtain ⟨hspawning, hstep⟩ := hstep
    obtain rfl := Option.some.inj hstep
    exact h.move (h.live_of_spawning hspawning)
  | ended node outcome =>
    rw [World.Step, World.step, Option.ite_none_right_eq_some] at hstep
    obtain ⟨-, hstep⟩ := hstep
    obtain rfl := Option.some.inj hstep
    exact h.move fun flight _ _ hlive => by cases hlive
  | record node now =>
    rw [World.Step, World.step] at hstep
    split at hstep
    next runner flight hnode hfind =>
      split at hstep
      next outcome hover =>
        obtain rfl := Option.some.inj hstep
        have hfree : ∀ flight ∈ (w.drop node).flights, flight.node ≠ node := fun flight hflight => by
          simpa [World.drop] using (List.mem_filter.mp hflight).2
        have hnot : (runner.record outcome now).state.phase ≠ .running := record_not_running outcome now
        have hplaced := (h.drop node).placed hfree hnot
        have hnodes : Function.update (w.drop node).nodes node (some (runner.record outcome now)) =
            Function.update w.nodes node (some (runner.record outcome now)) := Function.update_idem _ _ _
        rwa [hnodes] at hplaced
      next => cases hstep
    next => cases hstep
  | quit node =>
    obtain ⟨_, -, rfl⟩ := Option.map_eq_some_iff.mp hstep
    exact h.drop node
  | killed node =>
    obtain ⟨_, -, rfl⟩ := Option.map_eq_some_iff.mp hstep
    have hdrop := h.drop node
    exact ⟨hdrop.apart, hdrop.running, hdrop.begun, hdrop.owned⟩

end SingleFlight

/-! ## Runs -/

section Runs

variable {w w' : World helpers} {labels : List Label}

/-- What keeps the scripts apart is not broken: no node is killed under its
script, and the lock file that is opened is always the same. -/
def Label.Orderly (lock : Nat) : Label → Prop
  | .killed _ => False
  | .start _ host _ => ∀ path metadata, host.openLock path = some metadata → metadata.ino = lock
  | _ => True

/-- Every live task holds the one lock there is, and every script has a task. -/
def Locked (lock : Nat) (w : World helpers) : Prop :=
  (∀ flight ∈ w.flights, flight.live = true → flight.lock = lock) ∧ w.orphans = []

section Locked

variable {lock : Nat}

theorem Locked.move (h : Locked lock w) (node : Nat) {stage : Stage}
    (hlive : ∀ flight ∈ w.flights, flight.node = node → ({ flight with stage } : Flight helpers).live = true →
      flight.live = true) :
    Locked lock (w.move node stage) := by
  refine ⟨fun flight hflight hafter => ?_, h.2⟩
  obtain ⟨before, hbefore, rfl⟩ := List.mem_map.mp hflight
  split at hafter
  next heq =>
    rw [if_pos heq]
    exact h.1 before hbefore (hlive before hbefore heq hafter)
  next heq =>
    rw [if_neg heq]
    exact h.1 before hbefore hafter

theorem Locked.filter (h : Locked lock w) (keep : Flight helpers → Bool) (nodes : Nat → Option RecoveryRunner) :
    Locked lock { w with nodes, flights := w.flights.filter keep } :=
  ⟨fun flight hflight hlive => h.1 flight (List.mem_of_mem_filter hflight) hlive, h.2⟩

theorem Locked.step {label : Label} (hflight : SingleFlight w) (h : Locked lock w) (horderly : label.Orderly lock)
    (hstep : w.Step label w') :
    Locked lock w' := by
  cases label with
  | launch node machine enabled script runtimeDir requiredCommands host =>
    rw [World.Step, World.step] at hstep
    split at hstep
    · cases hstep
    · obtain rfl := Option.some.inj hstep
      exact h
  | status node host =>
    obtain ⟨runner, -, rfl⟩ := Option.map_eq_some_iff.mp hstep
    exact h
  | start node host now =>
    obtain ⟨runner, -, rfl⟩ := Option.map_eq_some_iff.mp hstep
    rcases start_cases helpers runner host w.held now with ⟨runner', e, hstart, -⟩ |
      ⟨runner', script, taken, hstart, -, -, ⟨path, metadata, hopen, rfl⟩, -⟩
    · rw [hstart]
      exact h
    · rw [hstart]
      refine ⟨fun flight hmem hlive => ?_, h.2⟩
      rcases List.mem_append.mp hmem with hmem | hmem
      · exact h.1 flight hmem hlive
      · obtain rfl := List.mem_singleton.mp hmem
        exact horderly path metadata hopen
  | spawned node =>
    rw [World.Step, World.step, Option.ite_none_right_eq_some] at hstep
    obtain ⟨hspawning, hstep⟩ := hstep
    obtain rfl := Option.some.inj hstep
    exact h.move node (hflight.live_of_spawning hspawning)
  | ended node outcome =>
    rw [World.Step, World.step, Option.ite_none_right_eq_some] at hstep
    obtain ⟨-, hstep⟩ := hstep
    obtain rfl := Option.some.inj hstep
    exact h.move node fun flight _ _ hlive => by cases hlive
  | record node now =>
    rw [World.Step, World.step] at hstep
    split at hstep
    · split at hstep
      · obtain rfl := Option.some.inj hstep
        exact h.filter _ _
      · cases hstep
    · cases hstep
  | quit node =>
    obtain ⟨_, -, rfl⟩ := Option.map_eq_some_iff.mp hstep
    exact h.filter _ _
  | killed node => exact absurd horderly id

end Locked

/-- Scripts run in live tasks. -/
theorem live_of_scripting {flight : Flight helpers} (h : flight.scripting = true) : flight.live = true := by
  rw [Flight.live, of_decide_eq_true h]

theorem scripts_le_one {lock : Nat} (h : SingleFlight w) (hlocked : Locked lock w) : w.scripts.length ≤ 1 := by
  have hapart : (w.flights.filter Flight.scripting).Pairwise fun _ _ => False := by
    refine (h.apart.filter _).imp_of_mem fun {a b} ha hb hapart => ?_
    obtain ⟨ha, hfirst⟩ := List.mem_filter.mp ha
    obtain ⟨hb, hsecond⟩ := List.mem_filter.mp hb
    have hlive := live_of_scripting hfirst
    have hlive' := live_of_scripting hsecond
    exact hapart.2 hlive hlive' ((hlocked.1 a ha hlive).trans (hlocked.1 b hb hlive').symm)
  rw [World.scripts, hlocked.2, List.append_nil, List.length_map]
  cases hscripts : w.flights.filter Flight.scripting with
  | nil => simp
  | cons flight others =>
    cases others with
    | nil => simp
    | cons other others =>
      rw [hscripts] at hapart
      exact ((List.pairwise_cons.mp hapart).1 other List.mem_cons_self).elim

end Runs

/-! ### Two nodes -/

private def commitBlock : List UInt8 := "commit\n".toUTF8.data.toList

private def resumeScript : List UInt8 :=
  ("# ATMUX_QUICK_RESUME_IDEMPOTENT_V1\n# ATMUX_QUICK_RESUME_SCOPED_EXEC_V1\n".toUTF8.data.toList ++ transactionBegin ++
    commitBlock ++ transactionEnd)

private def resumePath : Path := ⟨true, ["resume"]⟩

private def runtimePath : Path := ⟨true, ["run", "atmux"]⟩

private def directory : Metadata := ⟨false, true, false, 0o700, 1000, 2, 0, 1, 2⟩

/-- A host with a safe script and one lock file. -/
private def tron : Host where
  euid := 1000
  symlinkMetadata path := .ok (if path = resumePath then ⟨true, false, false, 0o700, 1000, 1, 200, 1, 3⟩ else directory)
  metadata _ := none
  openScript path := if path = resumePath then some (⟨true, false, false, 0o700, 1000, 1, 200, 1, 3⟩,
    some resumeScript) else none
  mkdir _ := true
  openLock _ := some ⟨true, false, false, 0o600, 1000, 1, 0, 1, 7⟩
  flockFails := false

/-- The second node is refused while the first runs the script, and starts it
before the first has recorded its outcome. -/
private def twoNodes : List Label :=
  [.launch 1 "tron" true resumePath runtimePath [] tron, .launch 2 "tron" true resumePath runtimePath [] tron,
    .start 1 tron 10,
    .start 2 tron 11, .spawned 1, .status 1 tron, .ended 1 .succeeded, .start 2 tron 12, .spawned 2, .record 1 13]

end Atmux.Recovery
