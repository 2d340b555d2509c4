/-
The gate every mutation of a local pane goes through.

`prompt_locks` holds a gate weakly for each pane: it lives as long as some
task has a handle, and the next task after that gets a new one, at generation
zero. A task that holds a gate's lock advances the generation before it acts,
and copies it to where a relaunch reads it without the lock, when it is
requested; the relaunch acts only if the generation is still that one.

`act` is one turn of a task, up to where another task may run. The lock file
of a pane, which other processes share, is only a step that may fail.
-/
import Mathlib.Logic.Function.Basic
import Std.Data.ExtTreeMap.Lemmas
import Atmux.Lib.Tasks

namespace Atmux.PaneGate

open Lib

/-- What takes the gate of a pane. -/
inductive Mutation
  | sendText
  | sendImageMessage
  | switchModel
  | resumeCurrentClaude
  | tmuxPrefixTwice
  | sendSpecialKey
  | interrupt
  | kill
  /-- One pane of `auto_compact_once_blocking`. -/
  | autoCompact
  /-- One pane of `process_cli_update_candidates_blocking`. -/
  | cliUpdate
  /-- One pane of `collect_cli_update_candidates_blocking`, which is only read. -/
  | cliUpdatePlan
deriving DecidableEq, Repr

/-- The passes take the pane's lock file before the gate, the others after. -/
def Mutation.background : Mutation → Bool
  | .autoCompact | .cliUpdate | .cliUpdatePlan => true
  | _ => false

/-- Mutations that look at the live pane under the lock, and may give up. -/
def Mutation.rechecks : Mutation → Bool
  | .switchModel | .tmuxPrefixTwice | .interrupt | .kill => false
  | _ => true

def Mutation.advances : Mutation → Bool
  | .cliUpdatePlan => false
  | _ => true

structure Request where
  pane : String
  mutation : Mutation
deriving DecidableEq, Repr

/-- One `PaneMutationGate`, and how many handles there are to it. -/
structure Gate where
  /-- The generation under the lock. -/
  generation : Nat := 0
  /-- Its atomic copy. -/
  mirror : Nat := 0
  locked : Bool := false
  strong : Nat := 0
deriving DecidableEq, Repr

inductive Event
  /-- A relaunch read the generation; the ticket tells it from every other. -/
  | recorded (pane : String) (ticket : Nat)
  /-- A relaunch that holds the lock compared the generation with its own. -/
  | checked (pane : String) (ticket : Nat) (passed : Bool)
  | advanced (pane : String)
  /-- The tmux request, of a relaunch when it has a ticket. -/
  | delivered (pane : String) (ticket : Option Nat)
deriving DecidableEq, Repr

structure World where
  locks : Std.ExtTreeMap String Nat
  gates : Nat → Gate
  allocated : Nat
  tickets : Nat
  /-- What happened, latest first. -/
  log : List Event

/-- What a relaunch recorded. -/
structure Token where
  ticket : Nat
  expected : Nat
deriving DecidableEq, Repr

/-- Where a task with a handle to its gate stands. -/
inductive Phase
  | recording
  | queued
  | waiting
  | entered
  | rechecking
  | advancing
  | mirroring
  | delivering
  | releasing
deriving DecidableEq, Repr

inductive Task
  | calling (request : Request)
  | holding (phase : Phase) (request : Request) (gate : Nat) (token : Option Token)
deriving DecidableEq, Repr

namespace World

variable (w : World)

def happened (event : Event) : World := { w with log := event :: w.log }

def update (gate : Nat) (change : Gate → Gate) : World :=
  { w with gates := Function.update w.gates gate (change (w.gates gate)) }

/-- The entries whose gate some task still has a handle to. -/
def retained : Std.ExtTreeMap String Nat := w.locks.filter fun _ gate => decide (0 < (w.gates gate).strong)

/-- `prompt_lock`: the live gate of the pane, or a new one. -/
def promptLock (pane : String) : World × Nat :=
  match w.retained[pane]? with
  | some gate => ({ w with locks := w.retained }.update gate fun g => { g with strong := g.strong + 1 }, gate)
  | none =>
    ({ w with
        locks := w.retained.insert pane w.allocated
        gates := Function.update w.gates w.allocated { strong := 1 }
        allocated := w.allocated + 1 }, w.allocated)

/-- `mark_gate_mutated`, up to the store of the copy. -/
def advance (gate : Nat) : World := w.update gate fun g => { g with generation := (g.generation + 1) % 2 ^ 64 }

variable {w} {gate other : Nat} {change : Gate → Gate}

@[simp] theorem update_gates_self : (w.update gate change).gates gate = change (w.gates gate) :=
  Function.update_self ..

theorem update_gates_of_ne (h : other ≠ gate) : (w.update gate change).gates other = w.gates other :=
  Function.update_of_ne h ..

end World

/-- The phase after `prompt_lock`. -/
def Mutation.next : Mutation → Phase
  | .resumeCurrentClaude => .recording
  | mutation => if mutation.background then .waiting else .queued

def enter (request : Request) : Task := .calling request

/-- The lock is given up; the handle is still there. -/
def leave (w : World) (request : Request) (gate : Nat) (token : Option Token) : World × List Task :=
  (w.update gate fun g => { g with locked := false }, [.holding .releasing request gate token])

/-- One turn. The answer is whether the step that can fail did not. -/
def act (answer : Bool) (w : World) : Task → World × List Task
  | .calling request =>
    let (w, gate) := w.promptLock request.pane
    (w, [.holding request.mutation.next request gate none])
  | .holding .recording request gate _ =>
    ({ w.happened (.recorded request.pane w.tickets) with tickets := w.tickets + 1 },
      [.holding .queued request gate (some ⟨w.tickets, (w.gates gate).mirror⟩)])
  | .holding .queued request gate token =>
    if answer then (w, [.holding .waiting request gate token]) else (w, [.holding .releasing request gate token])
  | .holding .waiting request gate token =>
    if (w.gates gate).locked then (w, [.holding .waiting request gate token])
    else (w.update gate fun g => { g with locked := true }, [.holding .entered request gate token])
  | .holding .entered request gate none => (w, [.holding .rechecking request gate none])
  | .holding .entered request gate (some token) =>
    -- `resume_request_is_current`
    if (w.gates gate).generation = token.expected then
      (w.happened (.checked request.pane token.ticket true), [.holding .rechecking request gate (some token)])
    else leave (w.happened (.checked request.pane token.ticket false)) request gate (some token)
  | .holding .rechecking request gate token =>
    if request.mutation.advances && (answer || !request.mutation.rechecks) then
      (w, [.holding .advancing request gate token])
    else leave w request gate token
  | .holding .advancing request gate token =>
    -- `begin_pane_mutation`: tmux counts the mutation first, and may refuse
    if answer then ((w.advance gate).happened (.advanced request.pane), [.holding .mirroring request gate token])
    else leave w request gate token
  | .holding .mirroring request gate token =>
    (w.update gate fun g => { g with mirror := g.generation }, [.holding .delivering request gate token])
  | .holding .delivering request gate token =>
    leave (w.happened (.delivered request.pane (token.map Token.ticket))) request gate token
  | .holding .releasing _ gate _ => (w.update gate fun g => { g with strong := g.strong - 1 }, [])

/-- No gate, and nothing at work. -/
def start : Pool World Task := ⟨⟨∅, fun _ => {}, 0, 0, []⟩, []⟩

end Atmux.PaneGate
