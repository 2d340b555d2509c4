/-
Reading the log of a run: the respawns, what the running process released, and
the state files written one after the other.

The log has the latest event first, so `lastPersisted` of what is left of it
at an event is the state file as that event found it. `EachPersist R` relates
every written state to the one it replaced.
-/
import Atmux.Maintenance.Cycle

namespace Atmux.Maintenance

/-! ## Respawns and releases -/

def Event.resume? : Event → Option Resume
  | .resumed resume => some resume
  | _ => none

/-- The respawns of a log, the latest first. -/
def resumes (log : List Event) : List Resume := log.filterMap Event.resume?

def Event.isLoaded : Event → Bool
  | .loaded => true
  | _ => false

/-- What the running process did. -/
def sinceLoad (log : List Event) : List Event := log.takeWhile fun event => !event.isLoaded

/-- The running process released the plan. -/
def Released (harness : Harness) (plan : PlannedPane) (log : List Event) : Prop :=
  ∃ release, .released harness plan release ∈ sinceLoad log

def Event.isRelease : Event → Bool
  | .released .. => true
  | _ => false

/-- Events about one pane. -/
def Event.ofPane : Event → Bool
  | .released .. => true
  | .resumed .. => true
  | _ => false

theorem Event.ofPane_of_isRelease {event : Event} (h : event.isRelease = true) : event.ofPane = true := by
  cases event <;> simp_all [isRelease, ofPane]

theorem Event.not_isLoaded_of_ofPane {event : Event} (h : event.ofPane = true) : event.isLoaded = false := by
  cases event <;> simp_all [isLoaded, ofPane]

/-- A log grown by pane events only. -/
def Grown (log log' : List Event) : Prop := ∃ new, log' = new ++ log ∧ ∀ event ∈ new, event.ofPane = true

theorem Grown.refl (log : List Event) : Grown log log := ⟨[], rfl, by simp⟩

theorem Grown.trans {log log' log'' : List Event} (h : Grown log log') (h' : Grown log' log'') : Grown log log'' := by
  obtain ⟨new, rfl, hnew⟩ := h
  obtain ⟨new', rfl, hnew'⟩ := h'
  refine ⟨new' ++ new, by simp, fun event hevent => ?_⟩
  rcases List.mem_append.1 hevent with hevent | hevent
  · exact hnew' event hevent
  · exact hnew event hevent

theorem Grown.cons {log : List Event} {event : Event} (h : event.ofPane = true) : Grown log (event :: log) :=
  ⟨[event], rfl, by simpa using h⟩

theorem Grown.released {log log' : List Event} {harness : Harness} {plan : PlannedPane} (h : Grown log log')
    (hreleased : Released harness plan log) : Released harness plan log' := by
  obtain ⟨new, rfl, hnew⟩ := h
  obtain ⟨release, hrelease⟩ := hreleased
  refine ⟨release, ?_⟩
  have hall : ∀ event ∈ new, (!event.isLoaded) = true := fun event hevent => by
    rw [Event.not_isLoaded_of_ofPane (hnew event hevent)]
    rfl
  rw [sinceLoad, List.takeWhile_append_of_pos hall]
  exact List.mem_append_right _ hrelease

theorem released_cons {log : List Event} {harness : Harness} {plan : PlannedPane} {release : Release} :
    Released harness plan (.released harness plan release :: log) :=
  ⟨release, by simp [sinceLoad, Event.isLoaded]⟩

/-! ## State files -/

/-- The state file a log leaves, from the one the run started on. -/
def lastPersisted (start : MaintenanceState) : List Event → MaintenanceState
  | [] => start
  | .persisted state :: _ => state
  | _ :: log => lastPersisted start log

/-- Every written state is related to the one it replaced, given what was
logged before. -/
def EachPersist (R : List Event → MaintenanceState → MaintenanceState → Prop) (start : MaintenanceState) :
    List Event → Prop
  | [] => True
  | .persisted state :: log => R log (lastPersisted start log) state ∧ EachPersist R start log
  | _ :: log => EachPersist R start log

/-- The log ends at the state file, and related states were written. -/
structure Recorded (R : List Event → MaintenanceState → MaintenanceState → Prop) (start : MaintenanceState)
    (owner : Owner) : Prop where
  last : lastPersisted start owner.log = owner.disk
  each : EachPersist R start owner.log

namespace Recorded

variable {R : List Event → MaintenanceState → MaintenanceState → Prop} {start state : MaintenanceState}
  {owner owner' : Owner}

theorem empty (disk : MaintenanceState) (options : String → PaneOptions) : Recorded R disk ⟨0, disk, options, []⟩ :=
  ⟨rfl, trivial⟩

theorem note_loaded (h : Recorded R start owner) : Recorded R start (owner.note .loaded) := ⟨h.last, h.each⟩

theorem note_reconciled (h : Recorded R start owner) (reconciliation : Reconciliation) :
    Recorded R start (owner.note (.reconciled reconciliation)) := ⟨h.last, h.each⟩

theorem store (h : Recorded R start owner) (hR : R owner.log owner.disk state) : Recorded R start (owner.store state) :=
  ⟨rfl, by rw [h.last]; exact hR, h.each⟩

theorem grown (h : Recorded R start owner) (hdisk : owner'.disk = owner.disk) (hgrown : Grown owner.log owner'.log) :
    Recorded R start owner' := by
  obtain ⟨new, hlog, hnew⟩ := hgrown
  have hskip : lastPersisted start (new ++ owner.log) = lastPersisted start owner.log ∧
      (EachPersist R start (new ++ owner.log) ↔ EachPersist R start owner.log) := by
    clear hlog
    induction new with
    | nil => exact ⟨rfl, Iff.rfl⟩
    | cons event new ih =>
      have hevent := hnew event (by simp)
      have hrest := ih fun event hevent => hnew event (by simp [hevent])
      cases event <;> simp_all [Event.ofPane, lastPersisted, EachPersist]
  refine ⟨?_, ?_⟩
  · rw [hlog, hskip.1, h.last, hdisk]
  · rw [hlog]
    exact hskip.2.2 h.each

end Recorded

end Atmux.Maintenance
