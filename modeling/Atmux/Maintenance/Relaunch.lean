/-
At most one relaunch per planned pane: a respawn is preceded by the durable
claim of its plan and by an advance of the pane's mutation sequence past the
planned one, and the sequence never goes back.

`Spent` is the invariant: every respawn so far was claimed for its plan, and
its planned sequence is behind its pane's. A plan handled at the pane's
current sequence or later is therefore none of those respawned before.
-/
import Atmux.Maintenance.Panes

namespace Atmux.Maintenance

open Lib Proc

namespace Resume

/-- The marker of the pane claims exactly this harness, generation and
conversation, and the pane was read at the planned sequence. -/
def Claimed (resume : Resume) : Prop :=
  resume.marker = some (PendingMarker.encode
      ⟨resume.harness, resume.generation, resume.plan.sessionFingerprint, .claimed⟩) ∧
    resume.observation.mutationSequence = some resume.plan.mutationSequence

/-- Respawns of different panes, or planned at different sequences. -/
def Apart (resume resume' : Resume) : Prop :=
  ¬ (resume.plan.paneId = resume'.plan.paneId ∧ resume.plan.mutationSequence = resume'.plan.mutationSequence)

end Resume

/-- Every respawn was claimed, none repeats another, and each is behind its
pane's sequence. -/
structure Spent (owner : Owner) : Prop where
  claimed : ∀ resume ∈ resumes owner.log, resume.Claimed
  apart : (resumes owner.log).Pairwise Resume.Apart
  spent : ∀ resume ∈ resumes owner.log,
    resume.plan.mutationSequence < (owner.options resume.plan.paneId).mutationSequence

variable {answers : Nat → Answer} {owner owner' mid : Owner} {resume : Resume}

namespace Spent

theorem mono (h : Spent owner) (hresumes : resumes owner'.log = resumes owner.log)
    (hsequence : ∀ paneId, (owner.options paneId).mutationSequence ≤ (owner'.options paneId).mutationSequence) :
    Spent owner' where
  claimed := by
    rw [hresumes]
    exact h.claimed
  apart := by
    rw [hresumes]
    exact h.apart
  spent resume hmem := by
    rw [hresumes] at hmem
    have hspent := h.spent resume hmem
    have hpane := hsequence resume.plan.paneId
    omega

theorem calm (h : Spent owner) (hcalm : Calm owner owner') : Spent owner' := h.mono hcalm.resumes hcalm.sequence

theorem note (h : Spent owner) {event : Event} (hevent : event.resume? = none) : Spent (owner.note event) :=
  h.mono (by simp [Owner.note, resumes, hevent]) fun _ => Nat.le_refl _

theorem respawn (h : Spent owner) (hrespawn : Respawn owner mid resume) : Spent (mid.note (.resumed resume)) where
  claimed := by
    intro resume' hmem
    rcases List.mem_cons.1 hmem with rfl | hmem
    · exact ⟨hrespawn.claimed, hrespawn.observed⟩
    · exact (h.calm hrespawn.calm).claimed resume' hmem
  apart := by
    refine List.pairwise_cons.2 ⟨fun resume' hmem heq => ?_, (h.calm hrespawn.calm).apart⟩
    -- an earlier respawn of the pane is behind the sequence the plan was handled at
    have hmem : resume' ∈ resumes owner.log := hrespawn.calm.resumes ▸ hmem
    have hspent := h.spent resume' hmem
    have hreached := hrespawn.reached
    rw [heq.1] at hreached
    have hsame := heq.2
    omega
  spent := by
    intro resume' hmem
    rcases List.mem_cons.1 hmem with rfl | hmem
    · exact hrespawn.passed
    · exact (h.calm hrespawn.calm).spent resume' hmem

theorem handled (h : Spent owner) (hhandled : Handled owner owner') : Spent owner' := by
  cases hhandled with
  | calm hcalm => exact h.calm hcalm
  | respawned mid resume hrespawn hcalm => exact (h.respawn hrespawn).calm hcalm

theorem passed (h : Spent owner) (hpassed : Passed owner owner') : Spent owner' := by
  induction hpassed with
  | refl => exact h
  | tail _ hhandled ih => exact ih.handled hhandled

end Spent

theorem spent_upholds (answers : Nat → Answer) :
    Upholds answers (fun _ => Spent) (fun _ => Spent) Spent where
  stop h := h
  stopFirst h := h
  observe answer h := h.calm (calm_observe _ answer)
  observeFirst answer h := h.calm (calm_observe _ answer)
  observeStopped answer h := h.calm (calm_observe _ answer)
  load h _ := h.note rfl
  loadFirst _ h _ := h.note rfl
  established h := h
  check _ h := h
  fail _ _ h := h
  failFirst _ _ h := h
  intend _ _ _ h := h.mono rfl fun _ => Nat.le_refl _
  reconcile _ _ _ _ h _ := h.note rfl
  reconcileFirst _ _ h := h.note rfl
  persist h := h.mono rfl fun _ => Nat.le_refl _
  relaunch _ h := wp_mono wp_processCliUpdateCandidates (fun _ _ hpass => h.passed hpass.1) fun _ _ hpass => h.passed hpass

/-- **At most one relaunch per planned pane.** In every run every respawn finds
the claim of its own harness, generation and conversation in the pane's marker
and was decided at the planned sequence, and no two respawns are of one pane
planned at one sequence. -/
theorem relaunch_at_most_once (answers : Nat → Answer) (disk : MaintenanceState) (options : String → PaneOptions)
    (cycles : List CycleSettings) :
    (∀ resume ∈ resumes (run answers disk options cycles).log, resume.Claimed) ∧
      (resumes (run answers disk options cycles).log).Pairwise Resume.Apart := by
  have h : Spent (run answers disk options cycles) :=
    (spent_upholds answers).run ⟨by simp [resumes], by simp [resumes], by simp [resumes]⟩ cycles
  exact ⟨h.claimed, h.apart⟩

end Atmux.Maintenance
