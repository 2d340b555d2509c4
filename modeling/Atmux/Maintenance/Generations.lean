/-
No binary change is missed or invented: a reconciliation advances the
generation exactly when the digest it observes differs from that of the applied
identity in the state file, whatever failed or crashed before it.

A live process knows two things of each harness (`Live`): its generation and
applied digest are those of the state file, one change ahead at most
(`Counted`), and an open intent was taken from the applied identity the state
file holds. Before the first check there is neither an applied identity nor an
intent (`First`), so the baselines count nothing.
-/
import Atmux.Maintenance.Panes

namespace Atmux.Maintenance

open Lib Proc

/-- The generation moves on by one change exactly when the applied digest does. -/
def Counted (state state' : MaintenanceState) : Prop :=
  ∀ h applied, (state.harness h).applied = some applied →
    ∃ applied', (state'.harness h).applied = some applied' ∧
      (state'.harness h).generation = advanceGeneration (state.harness h).generation (changed applied applied')

theorem changed_self (identity : ExecutableIdentity) : changed identity identity = false := by simp [changed]

theorem Counted.refl (state : MaintenanceState) : Counted state state := fun _ applied h =>
  ⟨applied, h, by simp [changed_self, advanceGeneration]⟩

/-- A change to a state that keeps generations and applied identities. -/
theorem Counted.congr {state state' state'' : MaintenanceState} (h : Counted state state')
    (hgeneration : ∀ h, (state''.harness h).generation = (state'.harness h).generation)
    (happlied : ∀ h, (state''.harness h).applied = (state'.harness h).applied) : Counted state state'' := by
  intro harness applied hsome
  obtain ⟨applied', hsome', hcount⟩ := h harness applied hsome
  exact ⟨applied', by rw [happlied, hsome'], by rw [hgeneration, hcount]⟩

/-- What one reconciliation does to the generation, against the applied
identity on disk. -/
structure Reconciliation.Counts (reconciliation : Reconciliation) : Prop where
  applied : reconciliation.after.applied = some reconciliation.observed
  counted : ∀ applied, reconciliation.durable = some applied →
    reconciliation.after.generation =
      advanceGeneration reconciliation.before.generation (changed applied reconciliation.observed)

/-- What holds of the world at every moment. -/
structure Ledger (owner : Owner) : Prop extends Recorded (fun _ => Counted) MaintenanceState.default owner where
  counts : ∀ reconciliation, .reconciled reconciliation ∈ owner.log → reconciliation.Counts
  baseline : ∀ h intent, (owner.disk.harness h).intent = some intent →
    (owner.disk.harness h).applied = some intent.baseline
  checked : owner.disk.lastCheckMs = none → ∀ h, (owner.disk.harness h).applied = none

/-- What a process past its first check holds besides. -/
structure Live (state : MaintenanceState) (owner : Owner) : Prop extends Ledger owner where
  started : state.lastCheckMs ≠ none
  ahead : Counted owner.disk state
  taken : ∀ h intent, (state.harness h).intent = some intent →
    (state.harness h).applied = some intent.baseline ∧ (owner.disk.harness h).applied = some intent.baseline

/-- What a process holds while it takes the first baselines. -/
structure First (state : MaintenanceState) (owner : Owner) : Prop extends Ledger owner where
  started : state.lastCheckMs ≠ none
  idle : ∀ h, (state.harness h).intent = none
  unapplied : ∀ h, (owner.disk.harness h).applied = none

variable {answers : Nat → Answer} {owner owner' : Owner} {state state' : MaintenanceState}

namespace Ledger

theorem grown (h : Ledger owner) (hdisk : owner'.disk = owner.disk) (hgrown : Grown owner.log owner'.log) :
    Ledger owner' where
  toRecorded := h.toRecorded.grown hdisk hgrown
  counts reconciliation hmem := by
    obtain ⟨new, hlog, hnew⟩ := hgrown
    rw [hlog, List.mem_append] at hmem
    rcases hmem with hmem | hmem
    · exact absurd (hnew _ hmem) (by simp [Event.ofPane])
    · exact h.counts reconciliation hmem
  baseline := by
    rw [hdisk]
    exact h.baseline
  checked := by
    rw [hdisk]
    exact h.checked

theorem observe (h : Ledger owner) (answer : Answer) : Ledger (owner.observe answer) :=
  h.grown (calm_observe owner answer).disk (calm_observe owner answer).grown

theorem loaded (h : Ledger owner) : Ledger (owner.note .loaded) where
  toRecorded := h.toRecorded.note_loaded
  counts reconciliation hmem := h.counts reconciliation (by simpa [Owner.note] using hmem)
  baseline := h.baseline
  checked := h.checked

theorem reconciled (h : Ledger owner) {reconciliation : Reconciliation} (hcounts : reconciliation.Counts) :
    Ledger (owner.note (.reconciled reconciliation)) where
  toRecorded := h.toRecorded.note_reconciled _
  counts reconciliation' hmem := by
    rcases List.mem_cons.1 hmem with heq | hmem
    · cases heq
      exact hcounts
    · exact h.counts reconciliation' hmem
  baseline := h.baseline
  checked := h.checked

theorem store (h : Ledger owner) (hstarted : state.lastCheckMs ≠ none) (hcounted : Counted owner.disk state)
    (hbaseline : ∀ h intent, (state.harness h).intent = some intent → (state.harness h).applied = some intent.baseline) :
    Ledger (owner.store state) where
  toRecorded := h.toRecorded.store hcounted
  counts reconciliation hmem := h.counts reconciliation (by simpa [Owner.store] using hmem)
  baseline := hbaseline
  checked hnone := absurd hnone hstarted

end Ledger

namespace Live

/-- A process whose generations, applied identities and intents are the same
holds as much. -/
theorem congr (h : Live state owner) (hledger : Ledger owner') (hdisk : owner'.disk = owner.disk)
    (hcheck : state'.lastCheckMs ≠ none)
    (hgeneration : ∀ h, (state'.harness h).generation = (state.harness h).generation)
    (happlied : ∀ h, (state'.harness h).applied = (state.harness h).applied)
    (hintent : ∀ h, (state'.harness h).intent = (state.harness h).intent) : Live state' owner' where
  toLedger := hledger
  started := hcheck
  ahead := by
    rw [hdisk]
    exact h.ahead.congr hgeneration happlied
  taken harness intent hsome := by
    rw [hintent] at hsome
    rw [happlied, hdisk]
    exact h.taken harness intent hsome

theorem store (h : Live state owner) : Live state (owner.store state) where
  toLedger := h.toLedger.store h.started h.ahead fun harness intent hsome => (h.taken harness intent hsome).1
  started := h.started
  ahead := Counted.refl state
  taken harness intent hsome := ⟨(h.taken harness intent hsome).1, (h.taken harness intent hsome).1⟩

/-- An intent takes the applied identity as its baseline, and is written with it. -/
theorem intend (h : Live state owner) (harness : Harness) (observed : ExecutableIdentity)
    (candidates : List PlannedPane) :
    let state' := state.update harness fun harnessState => harnessState.prepareIntent observed candidates
    Live state' (owner.store state') := by
  intro state'
  have hahead : Counted owner.disk state' := by
    intro harness' applied hsome
    obtain ⟨applied', happlied, hcount⟩ := h.ahead harness' applied hsome
    refine ⟨applied', ?_⟩
    by_cases heq : harness' = harness
    · subst heq
      simpa only [state', MaintenanceState.harness_update_self, HarnessState.prepareIntent_applied,
        HarnessState.prepareIntent_generation, happlied, Option.getD_some, true_and] using hcount
    · simp only [state', MaintenanceState.harness_update, if_neg heq]
      exact ⟨happlied, hcount⟩
  have hopen : ∀ harness' intent, (state'.harness harness').intent = some intent →
      (state'.harness harness').applied = some intent.baseline := by
    intro harness' intent hsome
    by_cases heq : harness' = harness
    · subst heq
      simp only [state', MaintenanceState.harness_update_self, HarnessState.prepareIntent_intent,
        Option.some.injEq] at hsome
      subst hsome
      simp [state']
    · simp only [state', MaintenanceState.harness_update, if_neg heq] at hsome ⊢
      exact (h.taken harness' intent hsome).1
  exact ⟨h.toLedger.store h.started hahead hopen, h.started, Counted.refl state',
    fun harness' intent hsome => ⟨hopen harness' intent hsome, hopen harness' intent hsome⟩⟩

theorem reconcile (h : Live state owner) {harness : Harness} {intent : UpdateIntent} (observed : ExecutableIdentity)
    (updateError : Option String) (hintent : (state.harness harness).intent = some intent) :
    Live (state.update harness fun harnessState => harnessState.reconcile observed updateError)
      (owner.note (.reconciled ⟨harness, state.harness harness, observed,
        (state.harness harness).reconcile observed updateError, (owner.disk.harness harness).applied⟩)) := by
  obtain ⟨happlied, hdurable⟩ := h.taken harness intent hintent
  have hcount : ((state.harness harness).reconcile observed updateError).generation =
      advanceGeneration (state.harness harness).generation (changed intent.baseline observed) := by
    rcases HarnessState.reconcile_cases observed updateError hintent with
      ⟨hne, hgeneration, -⟩ | ⟨heq, hgeneration, -⟩
    · rw [hgeneration, changed, bne_iff_ne.2 hne]
    · simp [hgeneration, changed, heq, advanceGeneration]
  -- nothing was counted since the state file: the baseline is applied there and here
  have hsame : (state.harness harness).generation = (owner.disk.harness harness).generation := by
    obtain ⟨applied', happlied', hcount'⟩ := h.ahead harness intent.baseline hdurable
    obtain rfl := Option.some.inj (happlied.symm.trans happlied')
    simpa [changed_self, advanceGeneration] using hcount'
  refine ⟨h.toLedger.reconciled ⟨by simp, fun applied hsome => ?_⟩, h.started, fun harness' applied hsome => ?_,
    fun harness' intent' hsome => ?_⟩
  · obtain rfl := Option.some.inj (hdurable.symm.trans hsome)
    exact hcount
  · by_cases heq : harness' = harness
    · subst heq
      obtain rfl := Option.some.inj (hdurable.symm.trans hsome)
      refine ⟨observed, by simp, ?_⟩
      rw [MaintenanceState.harness_update_self, hcount, hsame]
      rfl
    · simp only [MaintenanceState.harness_update, if_neg heq]
      exact h.ahead harness' applied hsome
  · by_cases heq : harness' = harness
    · subst heq
      simp at hsome
    · simp only [MaintenanceState.harness_update, if_neg heq] at hsome ⊢
      exact h.taken harness' intent' hsome

end Live

theorem Ledger.live (h : Ledger owner) (hchecked : owner.disk.lastCheckMs ≠ none) :
    Live owner.disk (owner.note .loaded) :=
  ⟨h.loaded, hchecked, Counted.refl _, fun harness intent hsome =>
    ⟨h.baseline harness intent hsome, h.baseline harness intent hsome⟩⟩

theorem Ledger.first (h : Ledger owner) (nowMs : Nat) (hchecked : owner.disk.lastCheckMs = none) :
    First { owner.disk with lastCheckMs := some nowMs } (owner.note .loaded) := by
  refine ⟨h.loaded, by simp, fun harness => ?_, h.checked hchecked⟩
  cases hintent : (owner.disk.harness harness).intent with
  | none => exact hintent
  | some intent =>
    have happlied := h.baseline harness intent hintent
    rw [h.checked hchecked harness] at happlied
    cases happlied

theorem First.live (h : First state owner) : Live state owner := by
  refine ⟨h.toLedger, h.started, fun harness applied hsome => ?_, fun harness intent hsome => ?_⟩
  · rw [h.unapplied harness] at hsome
    cases hsome
  · rw [h.idle harness] at hsome
    cases hsome

theorem ledger_upholds (answers : Nat → Answer) : Upholds answers Live First Ledger where
  stop h := h.toLedger
  stopFirst h := h.toLedger
  observe answer h := h.congr (h.toLedger.observe answer) (calm_observe _ answer).disk h.started (fun _ => rfl)
    (fun _ => rfl) fun _ => rfl
  observeFirst answer h := ⟨h.toLedger.observe answer, h.started, h.idle, by
    rw [(calm_observe _ answer).disk]
    exact h.unapplied⟩
  observeStopped answer h := h.observe answer
  load h hchecked := h.live hchecked
  loadFirst nowMs h hchecked := h.first nowMs hchecked
  established h := h.live
  check nowMs h := h.congr h.toLedger rfl (by simp) (fun _ => rfl) (fun _ => rfl) fun _ => rfl
  fail harness error h := by
    refine h.congr h.toLedger rfl h.started (fun harness' => ?_) (fun harness' => ?_) fun harness' => ?_ <;>
      (rw [MaintenanceState.fail, MaintenanceState.harness_update]; split <;> rfl)
  failFirst harness error h := by
    refine ⟨h.toLedger, h.started, fun harness' => ?_, h.unapplied⟩
    rw [MaintenanceState.fail, MaintenanceState.harness_update]
    split <;> exact h.idle harness'
  intend harness observed candidates h := h.intend harness observed candidates
  reconcile harness intent observed updateError h hintent := h.reconcile observed updateError hintent
  reconcileFirst harness observed h := by
    refine ⟨h.toLedger.reconciled ⟨by simp, fun applied hsome => ?_⟩, h.started, fun harness' => ?_, h.unapplied⟩
    · rw [h.unapplied harness] at hsome
      cases hsome
    · rw [MaintenanceState.harness_update]
      split
      · simp
      · exact h.idle harness'
  persist h := h.store
  relaunch limit h := by
    refine wp_mono wp_processCliUpdateCandidates (fun r owner' hpass => ?_) fun _ _ hpass =>
      h.toLedger.grown hpass.disk hpass.grown
    refine h.congr (h.toLedger.grown hpass.1.disk hpass.1.grown) hpass.1.disk ?_ (fun harness => ?_) (fun harness => ?_)
      fun harness => ?_
    · rw [hpass.2.lastCheckMs]
      exact h.started
    all_goals rw [hpass.2.harness harness]

/-- The generation changes exactly when the observed digest is not the durable
one. -/
theorem Reconciliation.Counts.generation_ne_iff {reconciliation : Reconciliation} (h : reconciliation.Counts)
    {applied : ExecutableIdentity} (hdurable : reconciliation.durable = some applied) :
    reconciliation.after.generation ≠ reconciliation.before.generation ↔
      reconciliation.observed.sha256 ≠ applied.sha256 := by
  rw [h.counted applied hdurable]
  by_cases hsame : applied.sha256 = reconciliation.observed.sha256
  · simp [changed, hsame, advanceGeneration]
  · have hchanged : changed applied reconciliation.observed = true := by simpa [changed] using hsame
    rw [hchanged]
    exact ⟨fun _ => Ne.symm hsame, fun _ => advanceGeneration_ne _⟩

/-- **No binary change is missed or invented.** In every run from a fresh state
file, a reconciliation of a harness with a durable applied identity advances
the generation exactly when the observed digest differs from that identity's;
it applies what it observed; and each state file counts the change of digest
from the one it replaced exactly once. -/
theorem generations_count_changes (answers : Nat → Answer) (options : String → PaneOptions)
    (cycles : List CycleSettings) :
    (∀ reconciliation, .reconciled reconciliation ∈ (run answers MaintenanceState.default options cycles).log →
      reconciliation.after.applied = some reconciliation.observed ∧
        ∀ applied, reconciliation.durable = some applied →
          (reconciliation.after.generation ≠ reconciliation.before.generation ↔
            reconciliation.observed.sha256 ≠ applied.sha256) ∧
          reconciliation.after.generation =
            advanceGeneration reconciliation.before.generation (changed applied reconciliation.observed)) ∧
      EachPersist (fun _ => Counted) MaintenanceState.default
        (run answers MaintenanceState.default options cycles).log := by
  have hstart : Ledger ⟨0, MaintenanceState.default, options, []⟩ :=
    ⟨Recorded.empty _ _, by simp, by simp [HarnessState.default], by simp [HarnessState.default]⟩
  have h := (ledger_upholds answers).run hstart cycles
  refine ⟨fun reconciliation hmem => ?_, h.each⟩
  have hcounts := h.counts reconciliation hmem
  exact ⟨hcounts.applied, fun applied hdurable =>
    ⟨hcounts.generation_ne_iff hdurable, hcounts.counted applied hdurable⟩⟩

end Atmux.Maintenance
