/-
The rule for runs of maintenance cycles. `Upholds I J C` collects what an
invariant owes each step of a cycle: `I` relates the state a live process
holds to the world, `J` does so while the first baselines are taken, and `C`
is what is left of the world when the process stops. `Upholds.run` is the
induction over the steps of a cycle and over any number of cycles; a property
of runs is proved by giving its `I`, `J` and `C`.
-/
import Atmux.Maintenance.Cycle

namespace Atmux.Maintenance

open Lib Proc

variable {answers : Nat → Answer} {α : Type} {halt : Stop → Owner → Prop} {owner : Owner}

/-! ## Calls -/

theorem wp_turn {post : Answer → Owner → Prop} (hstop : halt .crash (owner.observe (answers owner.clock)))
    (hpost : post (answers owner.clock) (owner.observe (answers owner.clock))) :
    wp (turn answers) post halt owner := by
  simp only [turn, wp_bind, wp_read, wp_change, wp_ite, wp_stop, wp_pure]
  exact ⟨fun _ => hstop, fun _ => hpost⟩

@[simp] theorem wp_note {event : Event} {post : Unit → Owner → Prop} :
    wp (note event) post halt owner ↔ post () (owner.note event) := Iff.rfl

theorem wp_persist {state : MaintenanceState} {C : Owner → Prop} {post : Unit → Owner → Prop}
    (hstop : C (owner.observe (answers owner.clock)))
    (hstore : C ((owner.observe (answers owner.clock)).store state))
    (hpost : post () ((owner.observe (answers owner.clock)).store state)) :
    wp (persist answers state) post (fun _ => C) owner := by
  simp only [persist, wp_bind]
  refine wp_turn hstop ?_
  simp only [wp_ite, wp_bind, wp_change, wp_stop, wp_pure]
  exact ⟨fun _ => ⟨fun _ => hpost, fun _ => hstore⟩, fun _ => hstop⟩

@[simp] theorem reconcile_eq (state : MaintenanceState) (harness : Harness) (observed : ExecutableIdentity)
    (updateError : Option String) {post : MaintenanceState → Owner → Prop} :
    wp (reconcile state harness observed updateError) post halt owner ↔
      post (state.update harness fun harnessState => harnessState.reconcile observed updateError)
        (owner.note (.reconciled ⟨harness, state.harness harness, observed,
          (state.harness harness).reconcile observed updateError, (owner.disk.harness harness).applied⟩)) := Iff.rfl

/-! ## The rule -/

/-- What an invariant of maintenance owes each step of a cycle. -/
structure Upholds (answers : Nat → Answer) (I J : MaintenanceState → Owner → Prop) (C : Owner → Prop) : Prop where
  /-- A process may stop anywhere. -/
  stop : ∀ {state owner}, I state owner → C owner
  stopFirst : ∀ {state owner}, J state owner → C owner
  /-- Other writers deliver to panes at any turn. -/
  observe : ∀ {state owner} answer, I state owner → I state (owner.observe answer)
  observeFirst : ∀ {state owner} answer, J state owner → J state (owner.observe answer)
  observeStopped : ∀ {owner} answer, C owner → C (owner.observe answer)
  load : ∀ {owner}, C owner → owner.disk.lastCheckMs ≠ none → I owner.disk (owner.note .loaded)
  loadFirst : ∀ {owner} nowMs, C owner → owner.disk.lastCheckMs = none →
    J { owner.disk with lastCheckMs := some nowMs } (owner.note .loaded)
  established : ∀ {state owner}, J state owner → I state owner
  check : ∀ {state owner} nowMs, I state owner → I { state with lastCheckMs := some nowMs } owner
  fail : ∀ {state owner} harness error, I state owner → I (state.fail harness error) owner
  failFirst : ∀ {state owner} harness error, J state owner → J (state.fail harness error) owner
  intend : ∀ {state owner} harness observed candidates, I state owner →
    let state' := state.update harness fun harnessState => harnessState.prepareIntent observed candidates
    I state' (owner.store state')
  reconcile : ∀ {state owner} harness intent observed updateError, I state owner →
    (state.harness harness).intent = some intent →
      I (state.update harness fun harnessState => harnessState.reconcile observed updateError)
        (owner.note (.reconciled ⟨harness, state.harness harness, observed,
          (state.harness harness).reconcile observed updateError, (owner.disk.harness harness).applied⟩))
  reconcileFirst : ∀ {state owner} harness observed, J state owner →
    J (state.update harness fun harnessState => harnessState.reconcile observed none)
      (owner.note (.reconciled ⟨harness, state.harness harness, observed,
        (state.harness harness).reconcile observed none, (owner.disk.harness harness).applied⟩))
  persist : ∀ {state owner}, I state owner → I state (owner.store state)
  relaunch : ∀ {state owner} limit, I state owner →
    wp (processCliUpdateCandidates answers state limit) (fun r => I r.1) (fun _ => C) owner

namespace Upholds

variable {I J : MaintenanceState → Owner → Prop} {C : Owner → Prop} (h : Upholds answers I J C)
  {state : MaintenanceState}

include h

theorem wp_turn (hI : I state owner) {post : Answer → Owner → Prop}
    (hpost : ∀ answer owner', I state owner' → post answer owner') : wp (turn answers) post (fun _ => C) owner :=
  Maintenance.wp_turn (h.stop (h.observe _ hI)) (hpost _ _ (h.observe _ hI))

theorem wp_persist (hI : I state owner) {post : Unit → Owner → Prop} (hpost : ∀ owner', I state owner' → post () owner') :
    wp (Maintenance.persist answers state) post (fun _ => C) owner :=
  Maintenance.wp_persist (h.stop (h.observe _ hI)) (h.stop (h.persist (h.observe _ hI)))
    (hpost _ (h.persist (h.observe _ hI)))

theorem establishBaseline (harness : Harness) (hJ : J state owner) :
    wp (establishBaseline answers state harness) J (fun _ => C) owner := by
  have hturn := h.observeFirst (answers owner.clock) hJ
  simp only [Maintenance.establishBaseline, inspect, wp_bind]
  refine Maintenance.wp_turn (h.stopFirst hturn) ?_
  simp only [wp_pure]
  split
  · exact h.reconcileFirst _ _ hturn
  · exact h.failFirst _ _ hturn
  · exact h.failFirst _ _ hturn

theorem reconcileUpdateResult {harness : Harness} {intent : UpdateIntent} (result : Except String ExecutableIdentity)
    (hI : I state owner) (hintent : (state.harness harness).intent = some intent) :
    wp (reconcileUpdateResult answers state harness result) I (fun _ => C) owner := by
  cases result with
  | ok after => exact h.reconcile _ _ _ _ hI hintent
  | error error =>
    simp only [Maintenance.reconcileUpdateResult, inspect, wp_bind]
    refine h.wp_turn hI fun answer owner hI => ?_
    simp only [wp_pure]
    split
    · exact h.reconcile _ _ _ _ hI hintent
    · exact h.fail _ _ hI

theorem runDueUpdate (harness : Harness) (hI : I state owner) :
    wp (runDueUpdate answers state harness) I (fun _ => C) owner := by
  simp only [Maintenance.runDueUpdate, inspect, collect, Maintenance.update, wp_bind]
  refine h.wp_turn hI fun answer owner hI => ?_
  simp only [wp_pure]
  split
  · exact h.fail _ _ hI
  · exact h.fail _ _ hI
  next before _ =>
  simp only [wp_bind]
  refine h.wp_turn hI fun answer owner hI => ?_
  simp only [wp_pure]
  split
  · exact h.fail _ _ hI
  next candidates _ =>
  -- the intent is written before the updater starts
  have hturn := h.observe (answers owner.clock) hI
  have hintend := h.intend harness before candidates hturn
  simp only [wp_bind]
  refine Maintenance.wp_persist (h.stop hturn) (h.stop hintend) ?_
  refine h.wp_turn hintend fun answer owner hI => ?_
  rw [wp_pure]
  refine wp_mono (h.reconcileUpdateResult answer.updated hI (by simp; rfl)) (fun state owner hI => ?_) fun _ _ => id
  exact h.wp_persist hI fun owner hI => hI

theorem recoverInterruptedIntent (harness : Harness) (hI : I state owner) :
    wp (recoverInterruptedIntent answers state harness) I (fun _ => C) owner := by
  unfold Maintenance.recoverInterruptedIntent
  split
  · exact hI
  next hintent =>
  have hentry : ∃ intent, (state.harness harness).intent = some intent := by
    rw [← Option.ne_none_iff_exists']
    intro hnone
    cases hentry : state.harnesses harness <;> simp_all [MaintenanceState.harness]
  obtain ⟨intent, hentry⟩ := hentry
  simp only [inspect, wp_bind]
  refine h.wp_turn hI fun answer owner hI => ?_
  simp only [wp_pure]
  split
  · exact h.reconcile _ _ _ _ hI hentry
  · exact hI
  · exact h.fail _ _ hI

/-- The end of a cycle, from the recovery of interrupted intents on. -/
theorem settle (settings : CycleSettings) (hI : I state owner) :
    wp (do
      let state ← recoverInterruptedIntents answers state
      let (state, resumed) ← processCliUpdateCandidates answers state settings.relaunchLimit
      Maintenance.persist answers state
      pure (state, resumed)) (fun _ => C) (fun _ => C) owner := by
  rw [wp_bind]
  refine wp_mono (wp_foldlM Harness.all (I := fun _ => I)
    (fun _ harness _ state owner hI => h.recoverInterruptedIntent harness hI) hI) (fun state owner hI => ?_) fun _ _ => id
  rw [wp_bind]
  refine wp_mono (h.relaunch _ hI) (fun r owner hI => ?_) fun _ _ => id
  rw [wp_bind]
  exact h.wp_persist hI fun owner hI => h.stop hI

theorem maintenanceOnce (settings : CycleSettings) (hC : C owner) :
    wp (maintenanceOnce answers settings) (fun _ => C) (fun _ => C) owner := by
  have hturn := h.observeStopped (answers owner.clock) hC
  simp only [Maintenance.maintenanceOnce, Maintenance.load, wp_bind]
  refine Maintenance.wp_turn hturn ?_
  simp only [wp_ite, wp_bind, wp_note, wp_read, wp_pure, wp_stop]
  refine ⟨fun _ => ?_, fun _ => hturn⟩
  rw [runMaintenanceCycle]
  cases hlast : (owner.observe (answers owner.clock)).disk.lastCheckMs with
  | none =>
    simp only [Owner.note, hlast, Option.isNone_none, if_true]
    rw [wp_bind]
    refine wp_mono (wp_foldlM Harness.all (I := fun _ => J)
      (fun _ harness _ state owner hJ => h.establishBaseline harness hJ) (h.loadFirst settings.nowMs hturn hlast))
      (fun state owner hJ => ?_) fun _ _ => id
    exact h.settle settings (h.established hJ)
  | some last =>
    have hI := h.load hturn (by simp [hlast])
    simp only [Owner.note, hlast, Option.isNone_some, Bool.false_eq_true, if_false]
    rw [wp_ite]
    refine ⟨fun _ => ?_, fun _ => h.settle settings hI⟩
    rw [wp_bind]
    refine wp_mono (wp_foldlM Harness.all (I := fun _ => I)
      (fun _ harness _ state owner hI => h.runDueUpdate harness hI) (h.check settings.nowMs hI))
      (fun state owner hI => ?_) fun _ _ => id
    exact h.settle settings hI

/-- What every step of a cycle upholds holds after any run. -/
theorem run {disk : MaintenanceState} {options : String → PaneOptions} (hC : C ⟨0, disk, options, []⟩)
    (cycles : List CycleSettings) : C (run answers disk options cycles) :=
  world_foldl (fun settings _ hC => h.maintenanceOnce settings hC) cycles hC

end Upholds

end Atmux.Maintenance
