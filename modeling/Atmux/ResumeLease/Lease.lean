/-
The leases of saved conversations: what keeps two launches of one
conversation apart.

Each atmux process has its own `ResumeLeaseState`; the lock files and the tmux
server are shared. A launch reserves the lease in its process, locks the
lease's file, asks tmux for panes that carry it, and keeps the file open in
`process_locks` until its own pane carries the lease. `act` is one turn of a
task, up to where another task of any process may run; a refresh files the
leases of a listing that it took some turns earlier.
-/
import Mathlib.Data.Finset.Basic
import Mathlib.Logic.Function.Basic
import Atmux.Lib.Tasks

namespace Atmux.ResumeLease

open Lib

/-- One process's leases. -/
structure ResumeLeaseState where
  /-- Reservations made before a pane exists. -/
  inFlight : Finset String := ∅
  /-- Leases of the panes last listed. -/
  active : Finset String := ∅
  /-- Leases whose locked file the process keeps open. -/
  processLocks : Finset String := ∅
deriving DecidableEq

namespace ResumeLeaseState

variable (s : ResumeLeaseState) (lease : String)

def reserve : Option ResumeLeaseState :=
  if lease ∈ s.inFlight ∨ lease ∈ s.active then none else some { s with inFlight := insert lease s.inFlight }

def activate : ResumeLeaseState where
  inFlight := s.inFlight.erase lease
  processLocks := s.processLocks.erase lease
  active := insert lease s.active

def release : ResumeLeaseState where
  inFlight := s.inFlight.erase lease
  processLocks := s.processLocks.erase lease
  active := s.active.erase lease

def observe (leases : Finset String) : ResumeLeaseState := { s with active := leases }

def holdProcessLock : ResumeLeaseState := { s with processLocks := insert lease s.processLocks }

end ResumeLeaseState

/-- A pane of the tmux server. -/
structure Pane where
  id : Nat
  session : String
  lease : Option String
deriving DecidableEq

structure World where
  procs : Nat → ResumeLeaseState
  /-- Leases whose file some process has locked. -/
  locked : Finset String
  panes : List Pane
  nextPane : Nat

/-- One launch of a saved conversation. -/
structure Attempt where
  process : Nat
  lease : String
  name : String
deriving DecidableEq

inductive Request
  | launch (attempt : Attempt)
  | refresh (process : Nat)
  /-- The session and the lease are those of a pane in an earlier listing. -/
  | kill (process : Nat) (name : String) (lease : Option String)
  /-- A session ends by itself. -/
  | exit (name : String)
deriving DecidableEq

/-- Where an attempt with its guard stands. -/
inductive Phase
  | reserved
  | locked
  | cleared
  | held
  | launching
  | creating (pane : Nat)
  | published (pane : Nat)
deriving DecidableEq

inductive Task
  | attempting (attempt : Attempt)
  | guarding (phase : Phase) (attempt : Attempt)
  /-- tmux lists a pane with the lease. -/
  | taken (attempt : Attempt)
  /-- What goes on blocking after its attempt was cancelled. -/
  | detached (lease : String)
  | detachedLocked (lease : String)
  | refreshing (process : Nat)
  | observing (process : Nat) (leases : Finset String)
  | killing (process : Nat) (name : String) (lease : Option String)
  | releasing (process : Nat) (lease : String)
  | exiting (name : String)
deriving DecidableEq

/-- How a step goes that can fail: `abandoned` is a failed launch whose session
could not be killed. -/
inductive Answer
  | done
  | failed
  | abandoned
  | cancelled
deriving DecidableEq

namespace World

variable (w : World) (process : Nat) (lease : String)

def setProc (s : ResumeLeaseState) : World := { w with procs := Function.update w.procs process s }

/-- The file lock that goes with an entry of `process_locks`. -/
def dropLock : Finset String :=
  if lease ∈ (w.procs process).processLocks then w.locked.erase lease else w.locked

def activate : World :=
  { w.setProc process ((w.procs process).activate lease) with locked := w.dropLock process lease }

def release : World :=
  { w.setProc process ((w.procs process).release lease) with locked := w.dropLock process lease }

def unlock : World := { w with locked := w.locked.erase lease }

def carriers : Nat := w.panes.countP fun pane => pane.lease = some lease

/-- The leases of a listing. -/
def leases : Finset String := (w.panes.filterMap Pane.lease).toFinset

def create (name : String) : World :=
  { w with panes := ⟨w.nextPane, name, none⟩ :: w.panes, nextPane := w.nextPane + 1 }

/-- `set-option @atmux_resume_lease` on one pane. -/
def publish (pane : Nat) : World :=
  { w with panes := w.panes.map fun p => if p.id = pane then { p with lease := some lease } else p }

def killPane (pane : Nat) : World := { w with panes := w.panes.filter fun p => p.id ≠ pane }

def killSession (name : String) : World := { w with panes := w.panes.filter fun p => p.session ≠ name }

end World

def enter : Request → Task
  | .launch attempt => .attempting attempt
  | .refresh process => .refreshing process
  | .kill process name lease => .killing process name lease
  | .exit name => .exiting name

/-- A launch that failed kills the session it made, and drops its guard. -/
def giveUp (answer : Answer) (w : World) (attempt : Attempt) (pane : Nat) : World × List Task :=
  ((if answer = .abandoned then w else w.killPane pane).release attempt.process attempt.lease, [])

/-- One turn. -/
def act (answer : Answer) (w : World) : Task → World × List Task
  | .attempting attempt =>
    match (w.procs attempt.process).reserve attempt.lease with
    | none => (w, [])
    | some s => (w.setProc attempt.process s, [.guarding .reserved attempt])
  | .guarding .reserved attempt =>
    -- `acquire_persistent_resume_lock`
    match answer with
    | .done =>
      if attempt.lease ∈ w.locked then (w.release attempt.process attempt.lease, [])
      else ({ w with locked := insert attempt.lease w.locked }, [.guarding .locked attempt])
    | .cancelled => (w.release attempt.process attempt.lease, [.detached attempt.lease])
    | _ => (w.release attempt.process attempt.lease, [])
  | .guarding .locked attempt =>
    -- `resume_lease_active`
    match answer with
    | .done =>
      if 0 < w.carriers attempt.lease then (w, [.taken attempt]) else (w, [.guarding .cleared attempt])
    | .cancelled => (w.release attempt.process attempt.lease, [.detachedLocked attempt.lease])
    | _ => ((w.unlock attempt.lease).release attempt.process attempt.lease, [])
  | .taken attempt =>
    if answer = .cancelled then ((w.unlock attempt.lease).release attempt.process attempt.lease, [])
    else ((w.unlock attempt.lease).activate attempt.process attempt.lease, [])
  | .guarding .cleared attempt =>
    if answer = .cancelled then ((w.unlock attempt.lease).release attempt.process attempt.lease, [])
    else
      (w.setProc attempt.process ((w.procs attempt.process).holdProcessLock attempt.lease), [.guarding .held attempt])
  | .guarding .held attempt =>
    -- `prepare_handover`
    if answer = .done then (w, [.guarding .launching attempt]) else (w.release attempt.process attempt.lease, [])
  | .guarding .launching attempt =>
    -- `new-session`, on a placeholder
    if answer = .done ∧ ∀ pane ∈ w.panes, pane.session ≠ attempt.name then
      (w.create attempt.name, [.guarding (.creating w.nextPane) attempt])
    else (w.release attempt.process attempt.lease, [])
  | .guarding (.creating pane) attempt =>
    if answer = .done ∧ ∃ p ∈ w.panes, p.id = pane then
      (w.publish attempt.lease pane, [.guarding (.published pane) attempt])
    else giveUp answer w attempt pane
  | .guarding (.published pane) attempt =>
    if answer = .done then (w.activate attempt.process attempt.lease, []) else giveUp answer w attempt pane
  | .detached lease =>
    if answer = .done ∧ lease ∉ w.locked then ({ w with locked := insert lease w.locked }, [.detachedLocked lease])
    else (w, [])
  | .detachedLocked lease => (w.unlock lease, [])
  | .refreshing process => (w, [.observing process w.leases])
  | .observing process leases => (w.setProc process ((w.procs process).observe leases), [])
  | .killing process name lease =>
    if answer = .done then (w.killSession name, (lease.map (Task.releasing process)).toList) else (w, [])
  | .releasing process lease => (w.release process lease, [])
  | .exiting name => (w.killSession name, [])

/-- A tmux server without panes, and no process that remembers a lease. -/
def start : Pool World Task := ⟨⟨fun _ => {}, ∅, [], 0⟩, []⟩

end Atmux.ResumeLease
