/-
Planned panes stay pending until they are released: forgotten, found claimed,
or claimed for their respawn.

Every step keeps the plans but one. A reconciliation that finds a new digest
plans its intent's candidates in place of whatever was pending, so a plan of
an earlier update that the collection missed is dropped.
`plans_kept_of_covered`: in the runs where no reconciliation does that, every
written state file keeps the plans of the one it replaced, or they were
released meanwhile.
-/
import Atmux.Maintenance.Panes

namespace Atmux.Maintenance

open Lib Proc

/-- The plans pending before are pending after, or the running process
released them. -/
def Keeps (log : List Event) (state state' : MaintenanceState) : Prop :=
  ∀ h, ∀ plan ∈ (state.harness h).pending, plan ∈ (state'.harness h).pending ∨ Released h plan log

def Event.reconciliation? : Event → Option Reconciliation
  | .reconciled reconciliation => some reconciliation
  | _ => none

/-- The reconciliations of a log, the latest first. -/
def reconciliations (log : List Event) : List Reconciliation := log.filterMap Event.reconciliation?

/-- An intent settled by a new digest has every pending plan among its
candidates. -/
def Reconciliation.Covers (reconciliation : Reconciliation) : Prop :=
  ∀ intent ∈ reconciliation.before.intent, intent.baseline.sha256 ≠ reconciliation.observed.sha256 →
    ∀ plan ∈ reconciliation.before.pending, plan ∈ intent.candidates

/-- Every reconciliation of a log does so. -/
def Covered (log : List Event) : Prop := ∀ reconciliation ∈ reconciliations log, reconciliation.Covers

/-! ## Deciding on a given log -/

def Event.releases (h : Harness) (plan : PlannedPane) : Event → Bool
  | .released h' plan' _ => h' == h && plan' == plan
  | _ => false

instance (h : Harness) (plan : PlannedPane) (log : List Event) : Decidable (Released h plan log) :=
  decidable_of_iff ((sinceLoad log).any (Event.releases h plan) = true) <| by
    rw [List.any_eq_true]
    constructor
    · intro ⟨event, hmem, hevent⟩
      cases event with
      | released h' plan' release =>
        simp only [Event.releases, Bool.and_eq_true, beq_iff_eq] at hevent
        obtain ⟨rfl, rfl⟩ := hevent
        exact ⟨release, hmem⟩
      | _ => cases hevent
    · intro ⟨release, hmem⟩
      exact ⟨_, hmem, by simp [Event.releases]⟩

instance (log : List Event) (state state' : MaintenanceState) : Decidable (Keeps log state state') :=
  decidable_of_iff (∀ h ∈ Harness.all, ∀ plan ∈ (state.harness h).pending,
      plan ∈ (state'.harness h).pending ∨ Released h plan log)
    ⟨fun hall h => hall h (by cases h <;> decide), fun hall h _ => hall h⟩

instance EachPersist.decidable {R : List Event → MaintenanceState → MaintenanceState → Prop}
    [∀ log state state', Decidable (R log state state')] (start : MaintenanceState) :
    ∀ log, Decidable (EachPersist R start log)
  | [] => .isTrue trivial
  | .persisted state :: log =>
    have := EachPersist.decidable (R := R) start log
    inferInstanceAs (Decidable (R log (lastPersisted start log) state ∧ EachPersist R start log))
  | .loaded :: log => EachPersist.decidable (R := R) start log
  | .reconciled _ :: log => EachPersist.decidable (R := R) start log
  | .released _ _ _ :: log => EachPersist.decidable (R := R) start log
  | .resumed _ :: log => EachPersist.decidable (R := R) start log

instance (reconciliation : Reconciliation) : Decidable reconciliation.Covers :=
  inferInstanceAs (Decidable (∀ intent ∈ reconciliation.before.intent,
    intent.baseline.sha256 ≠ reconciliation.observed.sha256 →
      ∀ plan ∈ reconciliation.before.pending, plan ∈ intent.candidates))

instance (log : List Event) : Decidable (Covered log) :=
  inferInstanceAs (Decidable (∀ reconciliation ∈ reconciliations log, reconciliation.Covers))

/-! ## What each step keeps -/

variable {answers : Nat → Answer} {owner owner' : Owner} {state state' : MaintenanceState} {log log' : List Event}

theorem Covered.of_cons {event : Event} (h : Covered (event :: log)) : Covered log := fun reconciliation hmem =>
  h reconciliation (by
    rw [reconciliations, List.filterMap_cons]
    split
    · exact hmem
    · exact List.mem_cons_of_mem _ hmem)

theorem Covered.of_grown (hgrown : Grown log log') (h : Covered log') : Covered log := by
  obtain ⟨new, rfl, -⟩ := hgrown
  induction new with
  | nil => exact h
  | cons event new ih => exact ih h.of_cons

theorem Keeps.refl (log : List Event) (state : MaintenanceState) : Keeps log state state := fun _ _ => .inl

theorem Keeps.grown (h : Keeps log state state') (hgrown : Grown log log') : Keeps log' state state' :=
  fun harness plan hplan => (h harness plan hplan).imp id hgrown.released

theorem Keeps.trans {state'' : MaintenanceState} (h : Keeps log state state')
    (h' : ∀ h, ∀ plan ∈ (state'.harness h).pending, plan ∈ (state''.harness h).pending) : Keeps log state state'' :=
  fun harness plan hplan => (h harness plan hplan).imp (h' harness plan) id

/-- An update of one entry keeps all plans when it keeps the entry's. -/
theorem pending_update {harness : Harness} {f : HarnessState → HarnessState}
    (hf : ∀ plan ∈ (state.harness harness).pending, plan ∈ (f (state.harness harness)).pending) (h : Harness) :
    ∀ plan ∈ (state.harness h).pending, plan ∈ ((state.update harness f).harness h).pending := by
  intro plan hplan
  rw [MaintenanceState.harness_update]
  split
  next heq =>
    subst heq
    exact hf plan hplan
  · exact hplan

theorem pending_reconcile {harnessState : HarnessState} {observed : ExecutableIdentity} {updateError : Option String}
    (hcovers : ∀ intent ∈ harnessState.intent, intent.baseline.sha256 ≠ observed.sha256 →
      ∀ plan ∈ harnessState.pending, plan ∈ intent.candidates) :
    ∀ plan ∈ harnessState.pending, plan ∈ (harnessState.reconcile observed updateError).pending := by
  intro plan hplan
  cases hintent : harnessState.intent with
  | none => rwa [(HarnessState.reconcile_of_no_intent hintent).2]
  | some intent =>
    rcases HarnessState.reconcile_cases observed updateError hintent with ⟨hne, -, hpending⟩ | ⟨-, -, hpending⟩
    · rw [hpending]
      exact hcovers intent hintent hne plan hplan
    · rwa [hpending]

/-- The state a process holds keeps the plans of the state file. -/
structure Holding (start state : MaintenanceState) (owner : Owner) : Prop extends Recorded Keeps start owner where
  keeps : Keeps owner.log owner.disk state

namespace Holding

variable {start : MaintenanceState}

theorem grown (h : Holding start state owner) (hdisk : owner'.disk = owner.disk) (hgrown : Grown owner.log owner'.log) :
    Holding start state owner' := by
  refine ⟨h.toRecorded.grown hdisk hgrown, ?_⟩
  rw [hdisk]
  exact h.keeps.grown hgrown

theorem step (h : Holding start state owner)
    (hpending : ∀ h, ∀ plan ∈ (state.harness h).pending, plan ∈ (state'.harness h).pending) :
    Holding start state' owner :=
  ⟨h.toRecorded, h.keeps.trans hpending⟩

theorem store (h : Holding start state owner) : Holding start state (owner.store state) :=
  ⟨h.toRecorded.store h.keeps, Keeps.refl _ _⟩

theorem reconciled (h : Holding start state owner) {harness : Harness} {observed : ExecutableIdentity}
    {updateError : Option String} {durable : Option ExecutableIdentity}
    (hcovered : Covered (.reconciled ⟨harness, state.harness harness, observed,
      (state.harness harness).reconcile observed updateError, durable⟩ :: owner.log)) :
    Holding start (state.update harness fun harnessState => harnessState.reconcile observed updateError)
      (owner.note (.reconciled ⟨harness, state.harness harness, observed,
        (state.harness harness).reconcile observed updateError, durable⟩)) := by
  have hcovers := hcovered _ (List.mem_cons_self ..)
  have hstep := h.step (pending_update (f := fun harnessState => harnessState.reconcile observed updateError)
    (pending_reconcile hcovers))
  exact ⟨hstep.toRecorded.note_reconciled _, fun harness plan hplan =>
    (hstep.keeps harness plan hplan).imp id fun ⟨release, hmem⟩ => ⟨release, List.mem_cons_of_mem _ hmem⟩⟩

end Holding

theorem holding_upholds (answers : Nat → Answer) (start : MaintenanceState) :
    Upholds answers (fun state owner => Covered owner.log → Holding start state owner)
      (fun state owner => Covered owner.log → Holding start state owner)
      (fun owner => Covered owner.log → Recorded Keeps start owner) where
  stop h hcovered := (h hcovered).toRecorded
  stopFirst h hcovered := (h hcovered).toRecorded
  observe answer h hcovered :=
    have hcalm := calm_observe _ answer
    (h (hcovered.of_grown hcalm.grown)).grown hcalm.disk hcalm.grown
  observeFirst answer h hcovered :=
    have hcalm := calm_observe _ answer
    (h (hcovered.of_grown hcalm.grown)).grown hcalm.disk hcalm.grown
  observeStopped answer h hcovered :=
    have hcalm := calm_observe _ answer
    (h (hcovered.of_grown hcalm.grown)).grown hcalm.disk hcalm.grown
  load h _ hcovered := ⟨(h hcovered.of_cons).note_loaded, Keeps.refl _ _⟩
  loadFirst _ h _ hcovered := ⟨(h hcovered.of_cons).note_loaded, Keeps.refl _ _⟩
  established h := h
  check _ h hcovered := (h hcovered).step fun _ _ => id
  fail _ _ h hcovered := (h hcovered).step (pending_update fun _ => id)
  failFirst _ _ h hcovered := (h hcovered).step (pending_update fun _ => id)
  intend _ _ _ h hcovered := ((h hcovered.of_cons).step (pending_update fun _ => id)).store
  reconcile _ _ _ _ h _ hcovered := (h hcovered.of_cons).reconciled hcovered
  reconcileFirst _ _ h hcovered := (h hcovered.of_cons).reconciled hcovered
  persist h hcovered := (h hcovered.of_cons).store
  relaunch limit h := by
    refine wp_mono wp_processCliUpdateCandidates (fun r owner' hpass hcovered => ?_) fun _ _ hpass hcovered => ?_
    · have hheld := (h (hcovered.of_grown hpass.1.grown)).grown hpass.1.disk hpass.1.grown
      refine ⟨hheld.toRecorded, fun harness plan hplan => ?_⟩
      rcases hheld.keeps harness plan hplan with hpending | hreleased
      · exact hpass.2.accounted harness plan hpending
      · exact .inr hreleased
    · exact ((h (hcovered.of_grown hpass.grown)).grown hpass.disk hpass.grown).toRecorded

/-- **No pending plan is lost where every new digest finds all pending plans
among its candidates.** -/
theorem plans_kept_of_covered (answers : Nat → Answer) (disk : MaintenanceState) (options : String → PaneOptions)
    (cycles : List CycleSettings) (h : Covered (run answers disk options cycles).log) :
    EachPersist Keeps disk (run answers disk options cycles).log :=
  ((holding_upholds answers disk).run (fun _ => Recorded.empty disk options) cycles h).each

/-! ## A busy pane across two updates -/

namespace BusyPane

def binary (sha256 : String) : ExecutableIdentity := ⟨"/opt/claude", "1.0.0", sha256, 1, 0⟩

def plan : PlannedPane := ⟨"%1", String.ofList (List.replicate 64 'a'), 0, "claude", "default"⟩

/-- A turn that reads nothing of note. -/
def quiet : Answer := ⟨false, [], true, .written, .ok none, .ok [], .error "no update", none, none⟩

/-- The pane is at work whenever it is looked at. -/
def working : Option Fresh := some ⟨.claude, "claude", none, none, .working, false⟩

/-- The launcher is updated from `a` to `b` and from `b` to `c`; `second` is
what the collection before the second update finds. -/
def turns (second : List PlannedPane) (clock : Nat) : Answer :=
  match clock with
  | 1 => { quiet with identity := .ok (some (binary "a")) }
  | 5 => { quiet with identity := .ok (some (binary "a")) }
  | 6 => { quiet with candidates := .ok [plan] }
  | 8 => { quiet with updated := .ok (binary "b") }
  | 19 => { quiet with identity := .ok (some (binary "b")) }
  | 20 => { quiet with candidates := .ok second }
  | 22 => { quiet with updated := .ok (binary "c") }
  | _ => { quiet with fresh := working }

def cycles : List CycleSettings := [⟨0, 10, 4⟩, ⟨10, 10, 4⟩, ⟨20, 10, 4⟩]

def noOptions : String → PaneOptions := fun _ => ⟨none, 0⟩

end BusyPane

/-- The second update collects no plan for the busy pane, and its new digest
drops the one still pending. -/
theorem second_update_drops_plan :
    ¬ EachPersist Keeps MaintenanceState.default
      (run (BusyPane.turns []) MaintenanceState.default BusyPane.noOptions BusyPane.cycles).log := by
  decide +kernel

theorem covered_when_collected_again : Covered
    (run (BusyPane.turns [BusyPane.plan]) MaintenanceState.default BusyPane.noOptions BusyPane.cycles).log := by
  decide +kernel

set_option maxRecDepth 20000 in
theorem plans_kept_when_collected_again : EachPersist Keeps MaintenanceState.default
    (run (BusyPane.turns [BusyPane.plan]) MaintenanceState.default BusyPane.noOptions BusyPane.cycles).log :=
  plans_kept_of_covered (BusyPane.turns [BusyPane.plan]) MaintenanceState.default BusyPane.noOptions BusyPane.cycles
    covered_when_collected_again

end Atmux.Maintenance
