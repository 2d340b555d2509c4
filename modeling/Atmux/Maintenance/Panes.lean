/-
What handling one planned pane can do to the world.

Apart from the respawn, every call only moves time on (`Calm`): sequences
grow, markers change, plans are released. `Handled` says where the respawn
may stand among such calls, and `wp_processPlan` that a plan is handled so and
stays pending unless it was released. `wp_processCliUpdateCandidates` carries
both over all plans of all harnesses; the theorems about relaunches, plans and
generations start from it.
-/
import Atmux.Maintenance.Log
import Atmux.Maintenance.Rules

namespace Atmux.Maintenance

open Lib Proc

/-! ## What only moves time on -/

/-- No sequence goes back and nothing but releases is noted. -/
structure Calm (owner owner' : Owner) : Prop where
  disk : owner'.disk = owner.disk
  log : ∃ new, owner'.log = new ++ owner.log ∧ ∀ event ∈ new, event.isRelease = true
  sequence : ∀ paneId, (owner.options paneId).mutationSequence ≤ (owner'.options paneId).mutationSequence

namespace Calm

variable {owner owner' owner'' : Owner}

theorem refl (owner : Owner) : Calm owner owner := ⟨rfl, ⟨[], rfl, by simp⟩, fun _ => Nat.le_refl _⟩

theorem trans (h : Calm owner owner') (h' : Calm owner' owner'') : Calm owner owner'' := by
  obtain ⟨new, hlog, hnew⟩ := h.log
  obtain ⟨new', hlog', hnew'⟩ := h'.log
  refine ⟨h'.disk.trans h.disk, ⟨new' ++ new, by rw [hlog', hlog, List.append_assoc], fun event hevent => ?_⟩,
    fun paneId => Nat.le_trans (h.sequence paneId) (h'.sequence paneId)⟩
  rcases List.mem_append.1 hevent with hevent | hevent
  · exact hnew' event hevent
  · exact hnew event hevent

theorem setOptions (owner : Owner) (paneId : String) {f : PaneOptions → PaneOptions}
    (hf : ∀ options, options.mutationSequence ≤ (f options).mutationSequence) :
    Calm owner (owner.setOptions paneId f) := by
  refine ⟨rfl, ⟨[], rfl, by simp⟩, fun paneId' => ?_⟩
  by_cases h : paneId' = paneId
  · subst h
    simpa [Owner.setOptions] using hf _
  · simp [Owner.setOptions, h]

theorem released (owner : Owner) (harness : Harness) (plan : PlannedPane) (release : Release) :
    Calm owner (owner.note (.released harness plan release)) :=
  ⟨rfl, ⟨[_], rfl, by simp [Event.isRelease]⟩, fun _ => Nat.le_refl _⟩

theorem grown (h : Calm owner owner') : Grown owner.log owner'.log := by
  obtain ⟨new, hlog, hnew⟩ := h.log
  exact ⟨new, hlog, fun event hevent => Event.ofPane_of_isRelease (hnew event hevent)⟩

theorem resumes (h : Calm owner owner') : resumes owner'.log = resumes owner.log := by
  obtain ⟨new, hlog, hnew⟩ := h.log
  rw [hlog, Maintenance.resumes, List.filterMap_append, List.filterMap_eq_nil_iff.2, List.nil_append]
  · rfl
  · intro event hevent
    have hrelease := hnew event hevent
    cases event <;> simp_all [Event.isRelease, Event.resume?]

end Calm

theorem PaneOptions.advance_mono (options : PaneOptions) :
    options.mutationSequence ≤ options.advance.mutationSequence := by
  unfold PaneOptions.advance
  split
  · exact Nat.le_succ _
  · exact Nat.le_refl _

theorem calm_observe (owner : Owner) (answer : Answer) : Calm owner (owner.observe answer) := by
  have hdelivered : ∀ (delivered : List String) (owner : Owner),
      Calm owner (delivered.foldl (fun owner paneId => owner.setOptions paneId PaneOptions.advance) owner) := by
    intro delivered
    induction delivered with
    | nil => exact Calm.refl
    | cons paneId delivered ih =>
      exact fun owner => (Calm.setOptions owner paneId PaneOptions.advance_mono).trans (ih _)
  have hcalm := hdelivered answer.delivered owner
  exact ⟨hcalm.disk, hcalm.log, hcalm.sequence⟩

/-- Other writers leave the markers alone. -/
theorem observe_marker (owner : Owner) (answer : Answer) (paneId : String) :
    ((owner.observe answer).options paneId).marker = (owner.options paneId).marker := by
  have hdelivered : ∀ (delivered : List String) (owner : Owner),
      ((delivered.foldl (fun owner paneId => owner.setOptions paneId PaneOptions.advance) owner).options
        paneId).marker = (owner.options paneId).marker := by
    intro delivered
    induction delivered with
    | nil => exact fun _ => rfl
    | cons paneId' delivered ih =>
      intro owner
      rw [List.foldl_cons, ih]
      by_cases h : paneId = paneId'
      · subst h
        simp only [Owner.setOptions, Function.update_self, PaneOptions.advance]
        split <;> rfl
      · simp [Owner.setOptions, h]
  exact hdelivered answer.delivered owner

/-! ## The calls on one pane -/

section Calls

variable {answers : Nat → Answer} {owner : Owner}

theorem calm_succeeds : wp (succeeds answers) (fun _ => Calm owner) (fun _ => Calm owner) owner := by
  rw [succeeds, wp_bind]
  exact wp_turn (calm_observe _ _) (calm_observe _ _)

theorem calm_fresh : wp (freshCliUpdateSession answers) (fun _ => Calm owner) (fun _ => Calm owner) owner := by
  rw [freshCliUpdateSession, wp_bind]
  exact wp_turn (calm_observe _ _) (calm_observe _ _)

theorem calm_cliUpdateMarker {paneId : String} :
    wp (cliUpdateMarker answers paneId) (fun _ => Calm owner) (fun _ => Calm owner) owner := by
  simp only [cliUpdateMarker, wp_bind, wp_read]
  refine wp_turn (calm_observe _ _) ?_
  split
  · split <;> exact calm_observe _ _
  · exact calm_observe _ _

theorem calm_paneMutationSequence {paneId : String} :
    wp (paneMutationSequence answers paneId)
      (fun read owner' => Calm owner owner' ∧ ∀ n, read = some n → n = (owner'.options paneId).mutationSequence)
      (fun _ => Calm owner) owner := by
  simp only [paneMutationSequence, wp_bind, wp_read]
  refine wp_turn (calm_observe _ _) ⟨calm_observe _ _, fun n hn => ?_⟩
  split at hn
  · exact (Option.some.inj hn).symm
  · cases hn

theorem calm_cliUpdatePreflight {harness : Harness} {fresh : Option Fresh} :
    wp (cliUpdatePreflight answers harness fresh) (fun _ => Calm owner) (fun _ => Calm owner) owner := by
  unfold cliUpdatePreflight
  split
  · exact Calm.refl _
  · split
    · rw [wp_bind]
      exact wp_turn (calm_observe _ _) (calm_observe _ _)
    · exact Calm.refl _

theorem calm_setCliUpdateMarker {paneId marker : String} :
    wp (setCliUpdateMarker answers paneId marker)
      (fun set owner' => Calm owner owner' ∧ (set = true → (owner'.options paneId).marker = some marker))
      (fun _ => Calm owner) owner := by
  unfold setCliUpdateMarker
  split
  · exact ⟨Calm.refl _, by simp⟩
  rw [wp_bind]
  refine wp_turn (calm_observe _ _) ?_
  have hturn := calm_observe owner (answers owner.clock)
  rw [wp_ite]
  refine ⟨fun _ => ?_, fun hlands => ⟨hturn, fun hwritten => ?_⟩⟩
  · refine ⟨hturn.trans (Calm.setOptions _ _ fun _ => Nat.le_refl _), fun _ => ?_⟩
    simp [Owner.setOptions]
  · rw [decide_eq_true_eq] at hwritten
    exact absurd (by rw [hwritten]; rfl) hlands

theorem calm_clearCliUpdateMarker {paneId : String} :
    wp (clearCliUpdateMarker answers paneId) (fun _ => Calm owner) (fun _ => Calm owner) owner := by
  rw [clearCliUpdateMarker, wp_bind]
  refine wp_turn (calm_observe _ _) ?_
  rw [wp_ite]
  exact ⟨fun _ => (calm_observe _ _).trans (Calm.setOptions _ _ fun _ => Nat.le_refl _), fun _ => calm_observe _ _⟩

/-- An advance that reports success has moved the sequence on, and nothing else. -/
theorem calm_advance {paneId : String} :
    wp (advancePaneMutationSequence answers paneId)
      (fun advanced owner' => Calm owner owner' ∧
        (owner'.options paneId).marker = (owner.options paneId).marker ∧
          (advanced = true → (owner.options paneId).mutationSequence < (owner'.options paneId).mutationSequence))
      (fun _ => Calm owner) owner := by
  simp only [advancePaneMutationSequence, wp_bind, wp_read]
  have hturn := calm_observe owner (answers owner.clock)
  have hmarker := observe_marker owner (answers owner.clock) paneId
  refine wp_turn hturn ?_
  rw [wp_ite]
  refine ⟨fun hroom => ?_, fun _ => ⟨hturn, hmarker, by simp⟩⟩
  simp only [Bool.and_eq_true, decide_eq_true_eq] at hroom
  rw [wp_ite]
  refine ⟨fun _ => ⟨hturn.trans (Calm.setOptions _ _ PaneOptions.advance_mono), ?_, fun _ => ?_⟩,
    fun hlands => ⟨hturn, hmarker, fun hwritten => ?_⟩⟩
  · simp only [Owner.setOptions, Function.update_self, PaneOptions.advance, if_pos hroom.2, hmarker]
  · have hle := hturn.sequence paneId
    simp only [Owner.setOptions, Function.update_self, PaneOptions.advance, if_pos hroom.2]
    omega
  · rw [decide_eq_true_eq] at hwritten
    exact absurd (by rw [hwritten]; rfl) hlands

end Calls

/-! ## One plan -/

/-- A respawn, in a world reached calmly from the one its plan was handled in. -/
structure Respawn (owner mid : Owner) (resume : Resume) : Prop where
  calm : Calm owner mid
  /-- The pane's marker claims exactly this harness, generation and conversation. -/
  claimed : resume.marker = some (PendingMarker.encode
    ⟨resume.harness, resume.generation, resume.plan.sessionFingerprint, .claimed⟩)
  observed : resume.observation.mutationSequence = some resume.plan.mutationSequence
  reached : (owner.options resume.plan.paneId).mutationSequence ≤ resume.plan.mutationSequence
  passed : resume.plan.mutationSequence < (mid.options resume.plan.paneId).mutationSequence

/-- What handling one plan does: at most one respawn among calm calls. -/
inductive Handled (owner owner' : Owner) : Prop
  | calm (h : Calm owner owner')
  | respawned (mid : Owner) (resume : Resume) (h : Respawn owner mid resume)
      (h' : Calm (mid.note (.resumed resume)) owner')

namespace Handled

variable {owner owner' : Owner}

theorem disk (h : Handled owner owner') : owner'.disk = owner.disk := by
  cases h with
  | calm h => exact h.disk
  | respawned mid resume h h' => exact h'.disk.trans h.calm.disk

theorem grown (h : Handled owner owner') : Grown owner.log owner'.log := by
  cases h with
  | calm h => exact h.grown
  | respawned mid resume h h' => exact h.calm.grown.trans ((Grown.cons rfl).trans h'.grown)

end Handled

/-- A handled plan stays where it was, stays pending, or was released. -/
structure PlanHandled (harness : Harness) (plan : PlannedPane) (progress : Progress) (owner : Owner)
    (progress' : Progress) (owner' : Owner) : Prop where
  handled : Handled owner owner'
  kept : progress.remaining ⊆ progress'.remaining
  accounted : plan ∈ progress'.remaining ∨ Released harness plan owner'.log

variable {answers : Nat → Answer} {owner owner' : Owner} {harness : Harness} {plan : PlannedPane}
  {progress : Progress}

theorem PlanHandled.keep (h : Calm owner owner') :
    PlanHandled harness plan progress owner (progress.keep plan) owner' :=
  ⟨.calm h, by simp [Progress.keep], .inl (by simp [Progress.keep])⟩

theorem wp_claimAndResume {limit : Nat} {generation : Nat} {launcher : String} {fresh : Option Fresh}
    {exact : Option Preflight} {observation : PaneObservation} {start : Owner} (hstart : Calm start owner)
    (hobserved : observation.mutationSequence = some plan.mutationSequence)
    (hreached : (start.options plan.paneId).mutationSequence ≤ plan.mutationSequence ∧
      plan.mutationSequence ≤ (owner.options plan.paneId).mutationSequence) :
    wp (claimAndResume answers limit harness generation launcher progress plan fresh exact observation)
      (PlanHandled harness plan progress start) (fun _ => Handled start) owner := by
  unfold claimAndResume
  split
  · exact .keep hstart
  rw [wp_bind]
  refine wp_mono calm_succeeds (fun scope owner₁ hscope => ?_) fun _ _ hcalm => .calm (hstart.trans hcalm)
  have h₁ := hstart.trans hscope
  rw [wp_ite]
  refine ⟨fun _ => ?_, fun _ => .keep h₁⟩
  rw [wp_bind]
  refine wp_mono calm_setCliUpdateMarker (fun set owner₂ hset => ?_) fun _ _ hcalm => .calm (h₁.trans hcalm)
  have h₂ := h₁.trans hset.1
  rw [wp_ite]
  refine ⟨fun hdone => ?_, fun _ => ⟨.calm h₂, by simp [Progress.keep], .inl (by simp [Progress.keep])⟩⟩
  -- from here on the plan is released
  have hrelease := Calm.released owner₂ harness plan .claimed
  have h₃ := h₂.trans hrelease
  have hreleased : Released harness plan (owner₂.note (.released harness plan .claimed)).log := released_cons
  rw [wp_bind, wp_note, wp_bind]
  refine wp_mono calm_advance (fun advanced owner₄ hadvance => ?_) fun _ _ hcalm => .calm (h₃.trans hcalm)
  have h₄ := h₃.trans hadvance.1
  have hreleased₄ := hadvance.1.grown.released hreleased
  rw [wp_ite]
  refine ⟨fun hadvanced => ?_, fun _ => ⟨.calm h₄, fun _ => id, .inr hreleased₄⟩⟩
  split
  · simp only [wp_bind, wp_read, wp_note]
    have hmarker := hadvance.2.1.trans (hset.2 hdone)
    have hpassed : plan.mutationSequence < (owner₄.options plan.paneId).mutationSequence := by
      have hscoped := hscope.sequence plan.paneId
      have hmarked := hset.1.sequence plan.paneId
      have hnoted := hrelease.sequence plan.paneId
      have hmoved := hadvance.2.2 hadvanced
      omega
    let resume : Resume :=
      ⟨harness, generation, plan, launcher, observation, (owner₄.options plan.paneId).marker⟩
    have hrespawn : Respawn start owner₄ resume := ⟨h₄, hmarker, hobserved, hreached.1, hpassed⟩
    have hresumed : Released harness plan (owner₄.note (.resumed resume)).log :=
      (Grown.cons (rfl : (Event.resumed resume).ofPane = true)).released hreleased₄
    refine wp_mono calm_succeeds (fun resumed owner₅ hresume => ?_) fun _ _ hcalm => .respawned _ _ hrespawn hcalm
    rw [wp_ite]
    refine ⟨fun _ => ?_, fun _ =>
      ⟨.respawned _ _ hrespawn hresume, fun _ => id, .inr (hresume.grown.released hresumed)⟩⟩
    rw [wp_bind]
    refine wp_mono calm_clearCliUpdateMarker (fun _ owner₆ hclear => ?_) fun _ _ hcalm =>
      .respawned _ _ hrespawn (hresume.trans hcalm)
    have h₆ := hresume.trans hclear
    exact ⟨.respawned _ _ hrespawn h₆, fun _ => id, .inr (h₆.grown.released hresumed)⟩
  · exact ⟨.calm h₄, fun _ => id, .inr hreleased₄⟩

theorem wp_processPlan {limit : Nat} {generation : Nat} {launcher : String} :
    wp (processPlan answers limit harness generation launcher progress plan)
      (PlanHandled harness plan progress owner) (fun _ => Handled owner) owner := by
  rw [processPlan, wp_bind]
  refine wp_mono calm_succeeds (fun locked owner₁ h₁ => ?_) fun _ _ hcalm => .calm hcalm
  rw [wp_ite]
  refine ⟨fun _ => ?_, fun _ => .keep h₁⟩
  rw [wp_bind]
  refine wp_mono calm_fresh (fun fresh owner₂ hfresh => ?_) fun _ _ hcalm => .calm (h₁.trans hcalm)
  have h₂ := h₁.trans hfresh
  rw [wp_bind]
  refine wp_mono calm_cliUpdateMarker (fun marker owner₃ hmarker => ?_) fun _ _ hcalm => .calm (h₂.trans hcalm)
  have h₃ := h₂.trans hmarker
  split
  · exact .keep h₃
  next marker =>
  rw [wp_bind]
  refine wp_mono calm_paneMutationSequence (fun sequence owner₄ hsequence => ?_) fun _ _ hcalm => .calm (h₃.trans hcalm)
  have h₄ := h₃.trans hsequence.1
  rw [wp_bind]
  refine wp_mono calm_cliUpdatePreflight (fun exact owner₅ hexact => ?_) fun _ _ hcalm => .calm (h₄.trans hcalm)
  have h₅ := h₄.trans hexact
  have hreleased : ∀ {owner' : Owner} (release : Release), Calm owner owner' →
      PlanHandled harness plan progress owner progress (owner'.note (.released harness plan release)) :=
    fun release hcalm => ⟨.calm (hcalm.trans (.released _ _ _ _)), fun _ => id, .inr released_cons⟩
  dsimp only
  cases haction : paneAction plan marker (observePane harness plan fresh sequence exact) harness generation with
  | materializeReady =>
    dsimp only
    rw [wp_bind]
    exact wp_mono calm_setCliUpdateMarker (fun _ _ hset => .keep (h₅.trans hset.1)) fun _ _ hcalm =>
      .calm (h₅.trans hcalm)
  | defer => exact .keep h₅
  | forget =>
    dsimp only
    rw [wp_ite]
    refine ⟨fun _ => ?_, fun _ => hreleased .forget h₅⟩
    rw [wp_bind]
    exact wp_mono calm_clearCliUpdateMarker (fun _ _ hcalm => hreleased .forget (h₅.trans hcalm)) fun _ _ hcalm =>
      .calm (h₅.trans hcalm)
  | alreadyClaimed => exact hreleased .alreadyClaimed h₅
  | claimBeforeRespawn =>
    have hread := (paneAction_claim haction).2.2.1
    have hcurrent : plan.mutationSequence = (owner₄.options plan.paneId).mutationSequence := hsequence.2 _ hread
    have hbefore := h₄.sequence plan.paneId
    have hafter := hexact.sequence plan.paneId
    exact wp_claimAndResume h₅ hread ⟨by omega, by omega⟩

/-! ## All plans -/

/-- What a whole pass does: pane events only, in worlds each handled from the
one before. -/
inductive Passed : Owner → Owner → Prop
  | refl (owner : Owner) : Passed owner owner
  | tail {owner owner' owner'' : Owner} : Passed owner owner' → Handled owner' owner'' → Passed owner owner''

namespace Passed

variable {owner owner' : Owner}

theorem disk (h : Passed owner owner') : owner'.disk = owner.disk := by
  induction h with
  | refl => rfl
  | tail _ hhandled ih => exact hhandled.disk.trans ih

theorem grown (h : Passed owner owner') : Grown owner.log owner'.log := by
  induction h with
  | refl => exact Grown.refl _
  | tail _ hhandled ih => exact ih.trans hhandled.grown

end Passed

/-- A pass leaves everything of a state but the pending plans, and drops none
of those unreleased. -/
structure StatePassed (state state' : MaintenanceState) (log : List Event) : Prop where
  lastCheckMs : state'.lastCheckMs = state.lastCheckMs
  harness : ∀ h, state'.harness h = { state.harness h with pending := (state'.harness h).pending }
  accounted : ∀ h, ∀ plan ∈ (state.harness h).pending, plan ∈ (state'.harness h).pending ∨ Released h plan log

theorem wp_processHarness {limit : Nat} {state : MaintenanceState} {processing : Processing} {start : Owner}
    (hstart : Passed start owner) (hstate : StatePassed state processing.1 owner.log) :
    wp (processHarness answers limit processing harness)
      (fun processing' owner' => Passed start owner' ∧ StatePassed state processing'.1 owner'.log)
      (fun _ => Passed start) owner := by
  obtain ⟨state', attempts, anyRespawn⟩ := processing
  unfold processHarness
  dsimp only
  split
  · exact ⟨hstart, hstate⟩
  next harnessState hentry =>
  have hharness : state'.harness harness = harnessState := by simp [MaintenanceState.harness, hentry]
  split
  · exact ⟨hstart, hstate⟩
  next identity _ =>
  rw [wp_bind]
  refine wp_mono (wp_foldlM harnessState.pending
    (I := fun done progress owner' => Passed start owner' ∧ Grown owner.log owner'.log ∧
      ∀ plan ∈ done, plan ∈ progress.remaining ∨ Released harness plan owner'.log)
    (fun done plan _ progress owner₁ h₁ => ?_) ⟨hstart, Grown.refl _, by simp⟩)
    (fun progress owner' h => ?_) fun _ _ => id
  · refine wp_mono wp_processPlan (fun progress' owner₂ h₂ => ?_) fun _ _ hhandled => .tail h₁.1 hhandled
    refine ⟨.tail h₁.1 h₂.handled, h₁.2.1.trans h₂.handled.grown, fun plan' hplan' => ?_⟩
    rcases List.mem_append.1 hplan' with hdone | hlast
    · rcases h₁.2.2 plan' hdone with hmem | hreleased
      · exact .inl (h₂.kept hmem)
      · exact .inr (h₂.handled.grown.released hreleased)
    · obtain rfl := List.mem_singleton.1 hlast
      exact h₂.accounted
  · obtain ⟨hpassed, hgrown, haccounted⟩ := h
    refine ⟨hpassed, hstate.lastCheckMs, fun h => ?_, fun h plan hplan => ?_⟩
    · have hsame := hstate.harness h
      dsimp only at hsame ⊢
      rw [MaintenanceState.harness_update]
      split
      · rw [hsame]
      · exact hsame
    · dsimp only
      rw [MaintenanceState.harness_update]
      rcases hstate.accounted h plan hplan with hmem | hreleased
      · by_cases heq : h = harness
        · subst heq
          simp only [if_true]
          exact haccounted plan (hharness ▸ hmem)
        · rw [if_neg heq]
          exact .inl hmem
      · exact .inr (hgrown.released hreleased)

theorem wp_processCliUpdateCandidates {state : MaintenanceState} {limit : Nat} :
    wp (processCliUpdateCandidates answers state limit)
      (fun r owner' => Passed owner owner' ∧ StatePassed state r.1 owner'.log) (fun _ => Passed owner) owner := by
  rw [processCliUpdateCandidates, wp_bind]
  refine wp_foldlM Harness.all
    (I := fun _ (processing : Processing) owner' => Passed owner owner' ∧ StatePassed state processing.1 owner'.log)
    (fun _ harness _ processing owner' h => wp_processHarness h.1 h.2) ⟨.refl _, rfl, fun _ => rfl, fun _ _ => .inl⟩

end Atmux.Maintenance
