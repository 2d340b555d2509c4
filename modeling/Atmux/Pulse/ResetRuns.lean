/-
Workers that claim, notify and complete reset jobs, while others schedule and
cancel them.

A job is claimed while it is pending and nobody's lease on it runs, so as long
as a cancelled job is scheduled again only when no worker is left that claimed
it before (`Released`), leases do not overlap and a completion is of the job
that was claimed (`reset_resumes_sound`). A worker that is left completes the
job it was cancelled for (`cancelled_claim_completes`).
-/
import Atmux.Lib.Runs
import Atmux.Pulse.ResetResume

namespace Atmux.Pulse

open Lib

/-! ## Runs -/

/-- A worker's lease on a job. -/
structure ResetClaim where
  ticket : Nat
  accountId : AccountId
  jobId : Nat
  now : Int
  leaseUntil : Int
deriving DecidableEq

inductive ResetEvent
  | scheduled (jobId : Nat)
  | claimed (claim : ResetClaim)
  | completed (claim : ResetClaim)
  | cancelled (jobId : Nat)
deriving DecidableEq

/-- The jobs, the claims that workers have yet to notify for and to complete,
when jobs were last claimed, and what has happened, the latest first. -/
structure ResetState where
  store : ResetJobs
  held : List ResetClaim
  notified : List ResetClaim
  clock : Option Int
  log : List ResetEvent

inductive ResetStep
  | schedule (refers : Bool) (input : ResetResumeInput) (limits : ResetResumeLimits)
  | claim (accountId : AccountId) (now leaseUntil : Int) (limit : Nat)
  /-- The sink's answer; a worker that is gone never delivers. -/
  | notify (claim : ResetClaim) (delivered : Bool)
  | complete (claim : ResetClaim)
  | cancel (accountId : AccountId) (profile : ProfileName) (cancelledAt : Int)

def ResetJobs.empty : ResetJobs where
  jobs := .empty
  sequence := 0
  ids _ hmem := (by cases hmem)
  sequence_bounded := no_id_bounded
  unique _ hmem := (by cases hmem)

namespace ResetState

def new : ResetState := ⟨.empty, [], [], none, []⟩

/-- A job that is there and not cancelled is not scheduled again. -/
def schedules (store : ResetJobs) (input : ResetResumeInput) : Bool :=
  (store.find input).all fun existing => existing.deliveredAt.isNone && existing.cancelledAt.isSome

/-- The claims of one call. -/
def claims (state : ResetState) (accountId : AccountId) (now leaseUntil : Int) (jobs : List ResetResumeJob) :
    List ResetClaim :=
  jobs.map fun job => ⟨state.log.length, accountId, job.id, now, leaseUntil⟩

/-- `deliver_due` completes a claim with the time it claimed at. -/
def step (instantError : Int → Option PulseError) (state : ResetState) : ResetStep → ResetState
  | .schedule refers input limits =>
    match state.store.scheduleResetResume instantError refers input limits with
    | .error _ => state
    | .ok (store, job) =>
      { state with store, log := if schedules state.store input then .scheduled job.id :: state.log else state.log }
  | .claim accountId now leaseUntil limit =>
    match state.store.claimDueResetResumes accountId now leaseUntil limit with
    | .error _ => state
    | .ok (store, jobs) =>
      { store
        held := state.claims accountId now leaseUntil jobs ++ state.held
        notified := state.notified
        clock := some now
        log := (state.claims accountId now leaseUntil jobs).map .claimed ++ state.log }
  | .notify claim delivered =>
    if claim ∈ state.held then
      { state with
        held := state.held.erase claim
        notified := if delivered then claim :: state.notified else state.notified }
    else state
  | .complete claim =>
    if claim ∈ state.notified then
      { state with
        store := (state.store.completeResetResume claim.accountId claim.jobId claim.now).1
        notified := state.notified.erase claim
        log := if (state.store.completeResetResume claim.accountId claim.jobId claim.now).2 then .completed claim :: state.log
          else state.log }
    else state
  | .cancel accountId profile cancelledAt =>
    { state with
      store := (state.store.cancelResetResumes accountId profile cancelledAt).1
      log := (state.store.jobs.rows.filter (ResetJobs.cancels accountId profile)).map (fun job => .cancelled job.id) ++
        state.log }

/-- Jobs are claimed at times that do not go back. -/
def Timely (state : ResetState) : ResetStep → Prop
  | .claim _ now _ _ => ∀ last, state.clock = some last → last ≤ now
  | _ => True

/-- A cancelled job is scheduled again when no worker is left that claimed it,
and no lease that was given on it runs. -/
def Released (state : ResetState) : ResetStep → Prop
  | .schedule _ input _ => ∀ job, state.store.find input = some job → job.cancelledAt.isSome →
      (∀ claim ∈ state.held ++ state.notified, claim.jobId ≠ job.id) ∧
        ∀ claim, .claimed claim ∈ state.log → claim.jobId = job.id → ∃ last, state.clock = some last ∧ claim.leaseUntil ≤ last
  | _ => True

end ResetState

/-! ## What is asked of a run -/

/-- Leases on one job do not overlap. -/
def LeasesApart (log : List ResetEvent) : Prop :=
  log.Pairwise fun later earlier => ∀ a b, later = .claimed a → earlier = .claimed b → a.jobId = b.jobId →
    b.leaseUntil ≤ a.now

/-- A job that was completed is not claimed. -/
def OneShot (log : List ResetEvent) : Prop :=
  log.Pairwise fun later earlier => ∀ a b, later = .claimed a → earlier = .completed b → a.jobId ≠ b.jobId

/-- A job that was cancelled is claimed when it was scheduled again. -/
def NotWhileCancelled (log : List ResetEvent) : Prop :=
  ∀ later claim between earlier, log = later ++ .claimed claim :: (between ++ .cancelled claim.jobId :: earlier) →
    .scheduled claim.jobId ∈ between

/-- A completion that takes effect is for a claim that was made after the job
was last cancelled. -/
def OwnCompletion (log : List ResetEvent) : Prop :=
  ∀ later claim between earlier, log = later ++ .completed claim :: (between ++ .cancelled claim.jobId :: earlier) →
    .claimed claim ∉ earlier

/-! ## Blocks of events -/

section
variable {α : Type} {new log later earlier : List α} {x : α}

/-- What is not in the first of two lists is in the second. -/
theorem split_of_not_mem (h : new ++ log = later ++ x :: earlier) (hx : x ∉ new) :
    ∃ later', later = new ++ later' ∧ log = later' ++ x :: earlier := by
  rcases List.append_eq_append_iff.mp h with ⟨later', rfl, hlog⟩ | ⟨rest, rfl, hrest⟩
  · exact ⟨later', rfl, hlog⟩
  · cases rest with
    | nil => exact ⟨[], by simp, by simpa using hrest.symm⟩
    | cons y rest =>
      obtain ⟨rfl, -⟩ := List.cons.inj hrest
      exact absurd (by simp) hx

/-- It is in the one or in the other. -/
theorem split_append (h : new ++ log = later ++ x :: earlier) :
    (∃ rest, new = later ++ x :: rest ∧ earlier = rest ++ log) ∨ ∃ later', later = new ++ later' ∧ log = later' ++ x :: earlier := by
  rcases List.append_eq_append_iff.mp h with ⟨later', rfl, hlog⟩ | ⟨rest, rfl, hrest⟩
  · exact .inr ⟨later', rfl, hlog⟩
  · cases rest with
    | nil => exact .inr ⟨[], by simp, by simpa using hrest.symm⟩
    | cons y rest =>
      obtain ⟨rfl, rfl⟩ := List.cons.inj hrest
      exact .inl ⟨rest, rfl, rfl⟩

end

section
variable {new log : List ResetEvent}

theorem NotWhileCancelled.append (h : NotWhileCancelled log) (hnew : ∀ claim, .claimed claim ∉ new) :
    NotWhileCancelled (new ++ log) := by
  intro later claim between earlier heq
  obtain ⟨later', rfl, hlog⟩ := split_of_not_mem heq (hnew claim)
  exact h later' claim between earlier hlog

theorem OwnCompletion.append (h : OwnCompletion log) (hnew : ∀ claim, .completed claim ∉ new) :
    OwnCompletion (new ++ log) := by
  intro later claim between earlier heq
  obtain ⟨later', rfl, hlog⟩ := split_of_not_mem heq (hnew claim)
  exact h later' claim between earlier hlog

/-- Events that claim nothing. -/
theorem LeasesApart.append (h : LeasesApart log) (hnew : ∀ claim, .claimed claim ∉ new) : LeasesApart (new ++ log) := by
  refine List.pairwise_append.mpr ⟨List.pairwise_of_forall_mem_list fun later hlater earlier _ a b heq => ?_, h,
    fun later hlater earlier _ a b heq => ?_⟩
  · exact absurd (heq ▸ hlater) (hnew a)
  · exact absurd (heq ▸ hlater) (hnew a)

theorem OneShot.append (h : OneShot log) (hnew : ∀ claim, .claimed claim ∉ new) : OneShot (new ++ log) := by
  refine List.pairwise_append.mpr ⟨List.pairwise_of_forall_mem_list fun later hlater earlier _ a b heq => ?_, h,
    fun later hlater earlier _ a b heq => ?_⟩
  · exact absurd (heq ▸ hlater) (hnew a)
  · exact absurd (heq ▸ hlater) (hnew a)

end

/-! ## What a run keeps -/

namespace ResetState

/-- A row that was cancelled. -/
def Cancelled (store : ResetJobs) (jobId : Nat) : Prop := ∃ job ∈ store.jobs.rows, job.id = jobId ∧ job.cancelledAt.isSome

structure Sound (state : ResetState) : Prop where
  tickets : ∀ claim, .claimed claim ∈ state.log → claim.ticket < state.log.length
  known : ∀ claim, .claimed claim ∈ state.log → claim.jobId ≤ state.store.sequence
  done : ∀ claim, .completed claim ∈ state.log →
    ∃ job ∈ state.store.jobs.rows, job.id = claim.jobId ∧ job.deliveredAt.isSome
  leases : ∀ claim, .claimed claim ∈ state.log → ∀ job ∈ state.store.jobs.rows, job.id = claim.jobId → job.pending = true →
    (∃ last, state.clock = some last ∧ claim.leaseUntil ≤ last) ∨
      ∃ lease, job.leaseUntil = some lease ∧ claim.leaseUntil ≤ lease
  cancelled : ∀ between jobId earlier, state.log = between ++ .cancelled jobId :: earlier → .scheduled jobId ∉ between →
    Cancelled state.store jobId
  outlived : ∀ claim ∈ state.held ++ state.notified, ∀ between earlier,
    state.log = between ++ .cancelled claim.jobId :: earlier → .claimed claim ∈ earlier → Cancelled state.store claim.jobId
  apart : LeasesApart state.log
  oneShot : OneShot state.log
  notWhileCancelled : NotWhileCancelled state.log
  ownCompletion : OwnCompletion state.log

theorem sound_new : ResetState.new.Sound where
  tickets _ hmem := (by cases hmem)
  known _ hmem := (by cases hmem)
  done _ hmem := (by cases hmem)
  leases _ hmem := (by cases hmem)
  cancelled between _ _ heq := (by cases between <;> cases heq)
  outlived _ hmem := (by cases hmem)
  apart := .nil
  oneShot := .nil
  notWhileCancelled later _ _ _ heq := (by cases later <;> cases heq)
  ownCompletion later _ _ _ heq := (by cases later <;> cases heq)

variable {state : ResetState} {instantError : Int → Option PulseError}

theorem Sound.notify (h : state.Sound) {held notified : List ResetClaim}
    (hsubset : held ++ notified ⊆ state.held ++ state.notified) : Sound { state with held, notified } where
  __ := h
  outlived claim hclaim := h.outlived claim (hsubset hclaim)

/-! ## Completing and cancelling -/

/-- An update that only settles pending jobs. -/
structure Settles (f : ResetResumeJob → ResetResumeJob) : Prop where
  pending : ∀ job, (f job).pending = true → f job = job
  delivered : ∀ job, job.deliveredAt.isSome → (f job).deliveredAt.isSome
  cancelled : ∀ job, job.cancelledAt.isSome → (f job).cancelledAt.isSome

theorem Cancelled.update {store : ResetJobs} {f : ResetResumeJob → ResetResumeJob}
    (hf : ∀ job, (f job).id = job.id ∧ (f job).input.slot = job.input.slot)
    (hcancelled : ∀ job, job.cancelledAt.isSome → (f job).cancelledAt.isSome) {jobId : Nat} (h : Cancelled store jobId) :
    Cancelled (store.update f hf) jobId := by
  obtain ⟨job, hmem, hid, hjob⟩ := h
  exact ⟨f job, ResetJobs.mem_updated hf hmem, (hf job).1.trans hid, hcancelled job hjob⟩

theorem settles_completed (accountId : AccountId) (jobId : Nat) (deliveredAt : Int) :
    Settles (ResetJobs.completed accountId jobId deliveredAt) := by
  refine ⟨fun job h => ?_, fun job h => ?_, fun job h => ?_⟩ <;> unfold ResetJobs.completed at *
  · split at h
    · cases h
    next hother => rw [if_neg hother]
  · split
    · rfl
    · exact h
  · split
    · exact h
    · exact h

theorem settles_cancelled (accountId : AccountId) (profile : ProfileName) (cancelledAt : Int) :
    Settles (ResetJobs.cancelled accountId profile cancelledAt) := by
  refine ⟨fun job h => ?_, fun job h => ?_, fun job h => ?_⟩ <;> unfold ResetJobs.cancelled at *
  · split at h
    · simp [ResetResumeJob.pending] at h
    next hother => rw [if_neg hother]
  · split
    · exact h
    · exact h
  · split
    · rfl
    · exact h

theorem Sound.settle (h : state.Sound) {f : ResetResumeJob → ResetResumeJob}
    (hf : ∀ job, (f job).id = job.id ∧ (f job).input.slot = job.input.slot) (hsettles : Settles f)
    {notified : List ResetClaim} (hsubset : notified ⊆ state.notified) {new : List ResetEvent}
    (hclaimed : ∀ claim, .claimed claim ∉ new)
    (hcompleted : ∀ claim, .completed claim ∈ new →
      ∃ job ∈ (state.store.update f hf).jobs.rows, job.id = claim.jobId ∧ job.deliveredAt.isSome)
    (hcancelled : ∀ jobId, .cancelled jobId ∈ new → Cancelled (state.store.update f hf) jobId)
    (hown : OwnCompletion (new ++ state.log)) :
    Sound { state with store := state.store.update f hf, notified, log := new ++ state.log } where
  tickets claim hmem := by
    have hlt := h.tickets claim ((List.mem_append.mp hmem).resolve_left (hclaimed claim))
    simp only [List.length_append]
    omega
  known claim hmem := h.known claim ((List.mem_append.mp hmem).resolve_left (hclaimed claim))
  done claim hmem := by
    rcases List.mem_append.mp hmem with hmem | hmem
    · exact hcompleted claim hmem
    · obtain ⟨job, hjob, hid, hdelivered⟩ := h.done claim hmem
      exact ⟨f job, ResetJobs.mem_updated hf hjob, (hf job).1.trans hid, hsettles.delivered job hdelivered⟩
  leases claim hmem job hjob hid hpending := by
    obtain ⟨old, hold, rfl⟩ := (ResetJobs.mem_update hf).mp hjob
    have hsame := hsettles.pending old hpending
    rw [hsame] at hid hpending ⊢
    exact h.leases claim ((List.mem_append.mp hmem).resolve_left (hclaimed claim)) old hold hid hpending
  cancelled between jobId earlier heq hunscheduled := by
    rcases split_append heq with ⟨rest, rfl, -⟩ | ⟨between', rfl, hlog⟩
    · exact hcancelled jobId (by simp)
    · refine (h.cancelled between' jobId earlier hlog fun hmem => hunscheduled ?_).update hf hsettles.cancelled
      exact List.mem_append_right _ hmem
  outlived claim hclaim between earlier heq hmem := by
    rcases split_append heq with ⟨rest, rfl, -⟩ | ⟨between', rfl, hlog⟩
    · exact hcancelled claim.jobId (by simp)
    · have hold : claim ∈ state.held ++ state.notified :=
        List.mem_append.mpr ((List.mem_append.mp hclaim).imp_right fun hmem => hsubset hmem)
      exact (h.outlived claim hold between' earlier hlog hmem).update hf hsettles.cancelled
  apart := h.apart.append hclaimed
  oneShot := h.oneShot.append hclaimed
  notWhileCancelled := h.notWhileCancelled.append hclaimed
  ownCompletion := hown

theorem Sound.complete (h : state.Sound) {claim : ResetClaim} (hclaim : claim ∈ state.notified) :
    Sound { state with
      store := (state.store.completeResetResume claim.accountId claim.jobId claim.now).1
      notified := state.notified.erase claim
      log := if (state.store.completeResetResume claim.accountId claim.jobId claim.now).2 then .completed claim :: state.log
        else state.log } := by
  have hsettles := settles_completed claim.accountId claim.jobId claim.now
  have hkeys := ResetJobs.completed_keys claim.accountId claim.jobId claim.now
  have hsubset : state.notified.erase claim ⊆ state.notified := List.erase_subset
  cases hmarks : (state.store.completeResetResume claim.accountId claim.jobId claim.now).2 with
  | false =>
    have hnone : ∀ event : ResetEvent, event ∉ [] := fun _ => List.not_mem_nil
    simp only [Bool.false_eq_true, if_false]
    rw [← List.nil_append state.log]
    exact h.settle hkeys hsettles hsubset (fun _ => hnone _) (fun _ hmem => absurd hmem (hnone _))
      (fun _ hmem => absurd hmem (hnone _)) h.ownCompletion
  | true =>
    obtain ⟨job, hjob, hmatch⟩ := List.any_eq_true.mp hmarks
    have hmatch := of_decide_eq_true hmatch
    simp only [if_true]
    have hcons : ResetEvent.completed claim :: state.log = [.completed claim] ++ state.log := rfl
    rw [hcons]
    refine h.settle hkeys hsettles hsubset (fun _ hmem => ?_) (fun claim' hmem => ?_) (fun _ hmem => ?_) ?_
    · simp at hmem
    · obtain rfl := ResetEvent.completed.inj (List.mem_singleton.mp hmem)
      refine ⟨_, ResetJobs.mem_updated hkeys hjob, ?_, ?_⟩
      · exact (ResetJobs.completed_keys _ _ _ _).1.trans hmatch.2.1
      · rw [ResetJobs.completed, if_pos hmatch]
        rfl
    · simp at hmem
    · -- the job is pending, so the claim was made after it was last cancelled
      intro later claim' between earlier heq hmem
      rcases split_append heq with ⟨rest, hnew, hrest⟩ | ⟨later', rfl, hlog⟩
      · obtain ⟨rfl, rfl⟩ : later = [] ∧ rest = [] := by
          cases later with
          | nil => exact ⟨rfl, (List.cons.inj hnew).2.symm⟩
          | cons _ later => cases later <;> cases (List.cons.inj hnew).2
        obtain rfl := ResetEvent.completed.inj (List.cons.inj hnew).1
        obtain ⟨row, hrow, hid, hcancelled⟩ := h.outlived claim (List.mem_append_right _ hclaim) between earlier hrest.symm hmem
        obtain rfl := Table.eq_of_key hrow hjob (hid.trans hmatch.2.1.symm)
        have hpending := hmatch.2.2
        rw [ResetResumeJob.pending, Option.isNone_eq_false_iff.mpr hcancelled, Bool.and_false] at hpending
        cases hpending
      · exact h.ownCompletion later' claim' between earlier hlog hmem

theorem Sound.cancel (h : state.Sound) (accountId : AccountId) (profile : ProfileName) (cancelledAt : Int) :
    Sound { state with
      store := (state.store.cancelResetResumes accountId profile cancelledAt).1
      log := (state.store.jobs.rows.filter (ResetJobs.cancels accountId profile)).map (fun job => .cancelled job.id) ++
        state.log } := by
  have hkeys := ResetJobs.cancelled_keys accountId profile cancelledAt
  refine h.settle hkeys (settles_cancelled accountId profile cancelledAt) (List.Subset.refl _) (fun _ hmem => ?_)
    (fun _ hmem => ?_) (fun jobId hmem => ?_) (h.ownCompletion.append fun _ hmem => ?_)
  · obtain ⟨_, -, heq⟩ := List.mem_map.mp hmem
    cases heq
  · obtain ⟨_, -, heq⟩ := List.mem_map.mp hmem
    cases heq
  · obtain ⟨job, hjob, heq⟩ := List.mem_map.mp hmem
    obtain rfl := ResetEvent.cancelled.inj heq
    obtain ⟨hjob, hcancels⟩ := List.mem_filter.mp hjob
    refine ⟨_, ResetJobs.mem_updated hkeys hjob, (ResetJobs.cancelled_keys _ _ _ _).1, ?_⟩
    rw [ResetJobs.cancelled, if_pos hcancels]
    rfl
  · obtain ⟨_, -, heq⟩ := List.mem_map.mp hmem
    cases heq

/-! ## Claiming -/

theorem claimDueResetResumes_ok {store store' : ResetJobs} {accountId : AccountId} {now leaseUntil : Int} {limit : Nat}
    {jobs : List ResetResumeJob} (h : store.claimDueResetResumes accountId now leaseUntil limit = .ok (store', jobs)) :
    ∃ selected : List ResetResumeJob, (∀ job ∈ selected, job ∈ store.jobs.rows ∧ ResetJobs.due accountId now job = true) ∧
      (selected.map (·.id)).Nodup ∧
      store' = store.update (ResetJobs.claimed (selected.map (·.id)) leaseUntil)
        (ResetJobs.claimed_keys (selected.map (·.id)) leaseUntil) ∧
      jobs = selected.map (ResetJobs.claimed (selected.map (·.id)) leaseUntil) := by
  simp only [ResetJobs.claimDueResetResumes, bind, Except.bind, pure, Except.pure] at h
  split at h
  · cases h
  split at h
  · cases h
  next limit' _ =>
    split at h
    · cases h
    obtain ⟨rfl, rfl⟩ := Prod.mk.inj (Except.ok.inj h)
    refine ⟨_, fun job hmem => ?_, ?_, rfl, rfl⟩
    · exact List.mem_filter.mp (mem_orderBy.mp (List.mem_of_mem_take hmem))
    · have hids : ((store.jobs.rows.filter (ResetJobs.due accountId now)).map (·.id)).Nodup :=
        List.pairwise_map.mpr ((store.jobs.rows_pairwise.filter _).imp fun hlt => hlt.ne)
      have hperm := (List.perm_insertionSort (fun a b : ResetResumeJob => toLex (a.resumeAt, a.id) ≤ toLex (b.resumeAt, b.id))
        (store.jobs.rows.filter (ResetJobs.due accountId now))).map (·.id)
      exact (hperm.nodup_iff.mpr hids).sublist ((List.take_sublist _ _).map _)

/-- The claims are of the selected jobs. -/
theorem mem_claims {accountId : AccountId} {now leaseUntil : Int} {selected : List ResetResumeJob} {ids : List Nat}
    {claim : ResetClaim} (h : claim ∈ state.claims accountId now leaseUntil (selected.map (ResetJobs.claimed ids leaseUntil))) :
    claim.ticket = state.log.length ∧ claim.now = now ∧ claim.leaseUntil = leaseUntil ∧
      ∃ job ∈ selected, job.id = claim.jobId := by
  obtain ⟨_, hclaimed, rfl⟩ := List.mem_map.mp h
  obtain ⟨job, hjob, rfl⟩ := List.mem_map.mp hclaimed
  exact ⟨rfl, rfl, rfl, job, hjob, (ResetJobs.claimed_keys ids leaseUntil job).1.symm⟩

theorem claims_nodup {accountId : AccountId} {now leaseUntil : Int} {selected : List ResetResumeJob} {ids : List Nat}
    (h : (selected.map (·.id)).Nodup) :
    (state.claims accountId now leaseUntil (selected.map (ResetJobs.claimed ids leaseUntil))).Pairwise fun a b =>
      a.jobId ≠ b.jobId := by
  refine List.pairwise_map.mpr (List.pairwise_map.mpr ((List.pairwise_map.mp h).imp fun {a b} hne heq => hne ?_))
  exact (ResetJobs.claimed_keys ids leaseUntil a).1.symm.trans (Eq.trans heq (ResetJobs.claimed_keys ids leaseUntil b).1)

/-- A lease that was given on a job that may be claimed has run out. -/
theorem Sound.ended (h : state.Sound) {accountId : AccountId} {now : Int} (hnow : ∀ last, state.clock = some last → last ≤ now)
    {job : ResetResumeJob} (hjob : job ∈ state.store.jobs.rows) (hdue : ResetJobs.due accountId now job = true)
    {claim : ResetClaim} (hmem : .claimed claim ∈ state.log) (hid : job.id = claim.jobId) : claim.leaseUntil ≤ now := by
  obtain ⟨-, -, hpending, hlease⟩ := of_decide_eq_true hdue
  rcases h.leases claim hmem job hjob hid hpending with ⟨last, hlast, hle⟩ | ⟨lease, heq, hle⟩
  · exact hle.trans (hnow last hlast)
  · rw [heq] at hlease
    exact hle.trans (of_decide_eq_true hlease)

/-- A job that may be claimed was not cancelled. -/
theorem not_cancelled_of_due {store : ResetJobs} {accountId : AccountId} {now : Int} {job : ResetResumeJob}
    (hjob : job ∈ store.jobs.rows) (hdue : ResetJobs.due accountId now job = true) : ¬ Cancelled store job.id := by
  rintro ⟨other, hother, hid, hcancelled⟩
  obtain rfl := Table.eq_of_key hother hjob hid
  have hpending := (of_decide_eq_true hdue).2.2.1
  rw [ResetResumeJob.pending, Option.isNone_eq_false_iff.mpr hcancelled, Bool.and_false] at hpending
  cases hpending

theorem Sound.claim (h : state.Sound) {accountId : AccountId} {now leaseUntil : Int} {limit : Nat} {store : ResetJobs}
    {jobs : List ResetResumeJob} (hnow : ∀ last, state.clock = some last → last ≤ now)
    (hclaim : state.store.claimDueResetResumes accountId now leaseUntil limit = .ok (store, jobs)) :
    Sound {
      store
      held := state.claims accountId now leaseUntil jobs ++ state.held
      notified := state.notified
      clock := some now
      log := (state.claims accountId now leaseUntil jobs).map .claimed ++ state.log } := by
  obtain ⟨selected, hdue, hnodup, rfl, rfl⟩ := claimDueResetResumes_ok hclaim
  have hkeys := ResetJobs.claimed_keys (selected.map (·.id)) leaseUntil
  have hdistinct := @claims_nodup state accountId now leaseUntil selected (selected.map (·.id)) hnodup
  generalize hnew : state.claims accountId now leaseUntil
    (selected.map (ResetJobs.claimed (selected.map (·.id)) leaseUntil)) = new at hdistinct
  have hmemnew : ∀ claim ∈ new, claim.ticket = state.log.length ∧ claim.now = now ∧ claim.leaseUntil = leaseUntil ∧
      ∃ job ∈ selected, job.id = claim.jobId := fun claim hmem => mem_claims (hnew ▸ hmem)
  have hevents : ∀ claim, .claimed claim ∈ new.map ResetEvent.claimed ++ state.log ↔ claim ∈ new ∨ .claimed claim ∈ state.log := by
    intro claim
    simp [List.mem_append, List.mem_map]
  have hcancelled : ∀ jobId, ResetEvent.cancelled jobId ∉ new.map ResetEvent.claimed := by simp
  have hcompleted : ∀ claim, ResetEvent.completed claim ∉ new.map ResetEvent.claimed := by simp
  have hflags : ∀ job, (ResetJobs.claimed (selected.map (·.id)) leaseUntil job).cancelledAt = job.cancelledAt ∧
      (ResetJobs.claimed (selected.map (·.id)) leaseUntil job).deliveredAt = job.deliveredAt := by
    intro job
    unfold ResetJobs.claimed
    split <;> exact ⟨rfl, rfl⟩
  have hstill : ∀ {jobId}, Cancelled state.store jobId → Cancelled (state.store.update _ hkeys) jobId := fun hjob =>
    hjob.update hkeys fun job hjob => (hflags job).1 ▸ hjob
  refine ⟨fun claim hmem => ?_, fun claim hmem => ?_, fun claim hmem => ?_, fun claim hmem job hjob hid hpending => ?_,
    fun between jobId earlier heq hunscheduled => ?_, fun claim hmem between earlier heq hearlier => ?_, ?_, ?_, ?_,
    h.ownCompletion.append hcompleted⟩
  · simp only [List.length_append, List.length_map]
    rcases (hevents claim).mp hmem with hmem | hmem
    · have hpos : 0 < new.length := List.length_pos_of_mem hmem
      have hticket := (hmemnew claim hmem).1
      omega
    · have hticket := h.tickets claim hmem
      omega
  · rcases (hevents claim).mp hmem with hmem | hmem
    · obtain ⟨-, -, -, job, hjob, hid⟩ := hmemnew claim hmem
      rw [← hid]
      exact state.store.ids job (hdue job hjob).1
    · exact h.known claim hmem
  · obtain ⟨job, hjob, hid, hdelivered⟩ := h.done claim ((List.mem_append.mp hmem).resolve_left (hcompleted claim))
    exact ⟨_, ResetJobs.mem_updated hkeys hjob, (hkeys job).1.trans hid, (hflags job).2 ▸ hdelivered⟩
  · obtain ⟨old, hold, rfl⟩ := (ResetJobs.mem_update hkeys).mp hjob
    rw [(hkeys old).1] at hid
    have holdpending : old.pending = true := by
      rw [ResetResumeJob.pending, (hflags old).1, (hflags old).2] at hpending
      exact hpending
    rcases (hevents claim).mp hmem with hmem | hmem
    · obtain ⟨-, -, hlease, job, hjob, hid'⟩ := hmemnew claim hmem
      refine .inr ⟨leaseUntil, ?_, hlease.le⟩
      have hselected : old.id ∈ selected.map (·.id) := by
        rw [hid, ← hid']
        exact List.mem_map_of_mem hjob
      rw [ResetJobs.claimed, if_pos hselected]
    · by_cases hselected : old.id ∈ selected.map (·.id)
      · obtain ⟨job, hjob, hsame⟩ := List.mem_map.mp hselected
        obtain ⟨hrow, hjobdue⟩ := hdue job hjob
        exact .inl ⟨now, rfl, h.ended hnow hrow hjobdue hmem (hsame.trans hid)⟩
      · rw [ResetJobs.claimed, if_neg hselected]
        refine (h.leases claim hmem old hold hid holdpending).imp_left fun ⟨last, hlast, hle⟩ => ?_
        exact ⟨now, rfl, hle.trans (hnow last hlast)⟩
  · obtain ⟨between', rfl, hlog⟩ := split_of_not_mem heq (hcancelled jobId)
    exact hstill (h.cancelled between' jobId earlier hlog fun hmem => hunscheduled (List.mem_append_right _ hmem))
  · obtain ⟨between', rfl, hlog⟩ := split_of_not_mem heq (hcancelled claim.jobId)
    refine hstill (h.outlived claim ?_ between' earlier hlog hearlier)
    rw [List.append_assoc] at hmem
    refine (List.mem_append.mp hmem).resolve_left fun hmem => ?_
    have hticket := h.tickets claim (hlog ▸ List.mem_append_right _ (List.mem_cons_of_mem _ hearlier))
    have hfresh := (hmemnew claim hmem).1
    omega
  · refine List.pairwise_append.mpr ⟨List.pairwise_map.mpr (hdistinct.imp fun hne a b ha hb heq => ?_), h.apart,
      fun later hlater earlier hearlier a b ha hb heq => ?_⟩
    · rw [ResetEvent.claimed.inj ha, ResetEvent.claimed.inj hb] at hne
      exact absurd heq hne
    · subst ha hb
      obtain ⟨claim, hclaim, heqclaim⟩ := List.mem_map.mp hlater
      obtain rfl := ResetEvent.claimed.inj heqclaim
      obtain ⟨-, hat, -, job, hjob, hid⟩ := hmemnew claim hclaim
      rw [hat]
      exact h.ended hnow (hdue job hjob).1 (hdue job hjob).2 hearlier (hid.trans heq)
  · refine List.pairwise_append.mpr ⟨List.pairwise_map.mpr (List.pairwise_of_forall fun _ _ a b _ hb => (by cases hb)), h.oneShot,
      fun later hlater earlier hearlier a b ha hb heq => ?_⟩
    subst ha hb
    obtain ⟨claim, hclaim, heqclaim⟩ := List.mem_map.mp hlater
    obtain rfl := ResetEvent.claimed.inj heqclaim
    obtain ⟨-, -, -, job, hjob, hid⟩ := hmemnew claim hclaim
    obtain ⟨row, hrow, hrowid, hdelivered⟩ := h.done b hearlier
    obtain ⟨hmem, hjobdue⟩ := hdue job hjob
    obtain rfl := Table.eq_of_key hrow hmem (hrowid.trans (heq.symm.trans hid.symm))
    have hpending := (of_decide_eq_true hjobdue).2.2.1
    rw [ResetResumeJob.pending, Option.isNone_eq_false_iff.mpr hdelivered, Bool.false_and] at hpending
    cases hpending
  · intro later claim between earlier heq
    rcases split_append heq with ⟨rest, hsplit, hrest⟩ | ⟨later', rfl, hlog⟩
    · have hevent : .claimed claim ∈ new.map ResetEvent.claimed := by
        rw [hsplit]
        simp
      have hclaim : claim ∈ new := by simpa using hevent
      have hnone : ResetEvent.cancelled claim.jobId ∉ rest := fun hmem =>
        hcancelled claim.jobId (hsplit ▸ List.mem_append_right _ (List.mem_cons_of_mem _ hmem))
      obtain ⟨between', rfl, hlog⟩ := split_of_not_mem hrest.symm hnone
      obtain ⟨-, -, -, job, hjob, hid⟩ := hmemnew claim hclaim
      by_contra hunscheduled
      refine not_cancelled_of_due (hdue job hjob).1 (hdue job hjob).2 (hid ▸ h.cancelled between' _ earlier hlog fun hmem => ?_)
      exact hunscheduled (List.mem_append_right _ hmem)
    · exact h.notWhileCancelled later' claim between earlier hlog

/-! ## Scheduling -/

theorem find_some {store : ResetJobs} {input : ResetResumeInput} {job : ResetResumeJob} (h : store.find input = some job) :
    job ∈ store.jobs.rows ∧ job.input.slot = input.slot := by
  have hslot := List.find?_some h
  exact ⟨List.mem_of_find?_eq_some h, of_decide_eq_true hslot⟩

theorem scheduleResetResume_ok {store store' : ResetJobs} {refers : Bool} {input : ResetResumeInput} {limits : ResetResumeLimits}
    {job : ResetResumeJob} (h : store.scheduleResetResume instantError refers input limits = .ok (store', job)) :
    (store' = store ∧ schedules store input = false) ∨
      (∃ existing resumeAt, store.find input = some existing ∧ existing.deliveredAt = none ∧ existing.cancelledAt.isSome ∧
        store' = store.update (ResetJobs.rescheduled input resumeAt) (ResetJobs.rescheduled_keys input resumeAt) ∧
        job.id = existing.id) ∨
      ∃ hid hroom hnew, store' = store.put job hid hroom hnew ∧ job.input = input := by
  unfold ResetJobs.scheduleResetResume at h
  obtain ⟨resumeAt, -, h⟩ := bind_ok h
  split at h
  next existing hfind =>
    split at h
    next hkept =>
      obtain ⟨rfl, -⟩ := Prod.mk.inj (Except.ok.inj h)
      refine .inl ⟨rfl, ?_⟩
      rw [schedules, hfind]
      rcases hkept with hkept | hkept
      · rw [Option.all_some, Option.isNone_eq_false_iff.mpr hkept, Bool.false_and]
      · rw [Option.all_some, Option.isNone_iff_eq_none.mp hkept, Option.isSome_none, Bool.and_false]
    next hgone =>
      rw [not_or] at hgone
      simp only [bind, Except.bind, pure, Except.pure] at h
      split at h
      · cases h
      split at h
      · cases h
      obtain ⟨rfl, rfl⟩ := Prod.mk.inj (Except.ok.inj h)
      refine .inr (.inl ⟨existing, resumeAt, hfind, ?_, ?_, rfl, (ResetJobs.rescheduled_keys _ _ _).1⟩)
      · simpa using hgone.1
      · exact Option.isSome_iff_ne_none.mpr (by simpa using hgone.2)
  next hnew =>
    simp only [bind, Except.bind, pure, Except.pure] at h
    split at h
    · cases h
    split at h
    next hroom =>
      split at h
      · cases h
      split at h
      · cases h
      obtain ⟨rfl, rfl⟩ := Prod.mk.inj (Except.ok.inj h)
      exact .inr (.inr ⟨rfl, hroom, hnew, rfl, rfl⟩)
    · cases h

/-- A new job. -/
theorem Sound.put (h : state.Sound) {job : ResetResumeJob} (hid : job.id = state.store.sequence + 1)
    (hroom : state.store.sequence + 1 < 2 ^ 63) (hnew : state.store.find job.input = none) :
    Sound { state with store := state.store.put job hid hroom hnew, log := .scheduled job.id :: state.log } := by
  have hkept : ∀ old ∈ state.store.jobs.rows, old ∈ (state.store.put job hid hroom hnew).jobs.rows := by
    intro old hold
    have hle := state.store.ids old hold
    refine Table.mem_rows.mpr ?_
    show (state.store.jobs.upsert job).find? old.id = some old
    rw [Table.find?_upsert_of_ne (by omega)]
    exact Table.mem_rows.mp hold
  have hcancelled : ∀ {jobId}, Cancelled state.store jobId → Cancelled (state.store.put job hid hroom hnew) jobId :=
    fun ⟨old, hold, h⟩ => ⟨old, hkept old hold, h⟩
  have hclaimed : ∀ claim, ResetEvent.claimed claim ∉ [ResetEvent.scheduled job.id] := by simp
  refine ⟨fun claim hmem => ?_, fun claim hmem => ?_, fun claim hmem => ?_, fun claim hmem row hrow hrowid hpending => ?_,
    fun between jobId earlier heq hunscheduled => ?_, fun claim hmem between earlier heq hearlier => ?_,
    h.apart.append hclaimed, h.oneShot.append hclaimed, h.notWhileCancelled.append hclaimed,
    @OwnCompletion.append [.scheduled job.id] _ h.ownCompletion (by simp)⟩
  · have hlt := h.tickets claim ((List.mem_append.mp hmem).resolve_left (hclaimed claim))
    simp only [List.length_cons]
    omega
  · have hle := h.known claim ((List.mem_append.mp hmem).resolve_left (hclaimed claim))
    show claim.jobId ≤ state.store.sequence + 1
    omega
  · obtain ⟨old, hold, hrest⟩ := h.done claim (by simpa using hmem)
    exact ⟨old, hkept old hold, hrest⟩
  · have hlog := (List.mem_append.mp hmem).resolve_left (hclaimed claim)
    rcases Table.mem_upsert hrow with rfl | hrow
    · have hle := h.known claim hlog
      omega
    · exact h.leases claim hlog row hrow hrowid hpending
  · obtain ⟨between', rfl, hlog⟩ := split_of_not_mem (show [.scheduled job.id] ++ state.log = _ from heq) (by simp)
    exact hcancelled (h.cancelled between' jobId earlier hlog fun hmem => hunscheduled (List.mem_append_right _ hmem))
  · obtain ⟨between', rfl, hlog⟩ := split_of_not_mem (show [.scheduled job.id] ++ state.log = _ from heq) (by simp)
    exact hcancelled (h.outlived claim hmem between' earlier hlog hearlier)

/-- A cancelled job, when no worker is left with it. -/
theorem Sound.reschedule (h : state.Sound) {input : ResetResumeInput} {existing : ResetResumeJob} {resumeAt : Int}
    (hfind : state.store.find input = some existing) (hdelivered : existing.deliveredAt = none)
    (hheld : ∀ claim ∈ state.held ++ state.notified, claim.jobId ≠ existing.id)
    (hended : ∀ claim, .claimed claim ∈ state.log → claim.jobId = existing.id →
      ∃ last, state.clock = some last ∧ claim.leaseUntil ≤ last) :
    Sound { state with
      store := state.store.update (ResetJobs.rescheduled input resumeAt) (ResetJobs.rescheduled_keys input resumeAt)
      log := .scheduled existing.id :: state.log } := by
  have hkeys := ResetJobs.rescheduled_keys input resumeAt
  obtain ⟨hexisting, hslot⟩ := find_some hfind
  have hother : ∀ job ∈ state.store.jobs.rows, job.id ≠ existing.id → ResetJobs.rescheduled input resumeAt job = job := by
    intro job hjob hne
    rw [ResetJobs.rescheduled, if_neg fun heq => hne ?_]
    rw [state.store.unique job hjob existing hexisting (heq.trans hslot.symm)]
  have hkept : ∀ job ∈ state.store.jobs.rows, job.id ≠ existing.id →
      job ∈ (state.store.update (ResetJobs.rescheduled input resumeAt) hkeys).jobs.rows := fun job hjob hne =>
    hother job hjob hne ▸ ResetJobs.mem_updated hkeys hjob
  have hcancelled : ∀ {jobId}, jobId ≠ existing.id → Cancelled state.store jobId →
      Cancelled (state.store.update (ResetJobs.rescheduled input resumeAt) hkeys) jobId :=
    fun hne ⟨job, hjob, hid, h⟩ => ⟨job, hkept job hjob (hid ▸ hne), hid, h⟩
  have hclaimed : ∀ claim, ResetEvent.claimed claim ∉ [ResetEvent.scheduled existing.id] := by simp
  refine ⟨fun claim hmem => ?_, fun claim hmem => ?_, fun claim hmem => ?_, fun claim hmem row hrow hrowid hpending => ?_,
    fun between jobId earlier heq hunscheduled => ?_, fun claim hmem between earlier heq hearlier => ?_,
    h.apart.append hclaimed, h.oneShot.append hclaimed, h.notWhileCancelled.append hclaimed,
    @OwnCompletion.append [.scheduled existing.id] _ h.ownCompletion (by simp)⟩
  · have hlt := h.tickets claim ((List.mem_append.mp hmem).resolve_left (hclaimed claim))
    simp only [List.length_cons]
    omega
  · exact h.known claim ((List.mem_append.mp hmem).resolve_left (hclaimed claim))
  · obtain ⟨job, hjob, hid, hjobdelivered⟩ := h.done claim (by simpa using hmem)
    refine ⟨job, hkept job hjob fun heq => ?_, hid, hjobdelivered⟩
    obtain rfl := Table.eq_of_key hjob hexisting heq
    rw [hdelivered] at hjobdelivered
    cases hjobdelivered
  · have hlog := (List.mem_append.mp hmem).resolve_left (hclaimed claim)
    obtain ⟨old, hold, rfl⟩ := (ResetJobs.mem_update hkeys).mp hrow
    by_cases hsame : old.id = existing.id
    · refine .inl (hended claim hlog ?_)
      rw [← hrowid, (hkeys old).1, hsame]
    · rw [hother old hold hsame] at hrowid hpending ⊢
      exact h.leases claim hlog old hold hrowid hpending
  · obtain ⟨between', rfl, hlog⟩ := split_of_not_mem (show [.scheduled existing.id] ++ state.log = _ from heq) (by simp)
    have hne : jobId ≠ existing.id := by
      rintro rfl
      exact hunscheduled (by simp)
    exact hcancelled hne (h.cancelled between' jobId earlier hlog fun hmem => hunscheduled (List.mem_append_right _ hmem))
  · obtain ⟨between', rfl, hlog⟩ := split_of_not_mem (show [.scheduled existing.id] ++ state.log = _ from heq) (by simp)
    exact hcancelled (hheld claim hmem) (h.outlived claim hmem between' earlier hlog hearlier)

theorem Sound.step {step : ResetStep} (h : state.Sound) (htimely : state.Timely step) (hreleased : state.Released step) :
    (state.step instantError step).Sound := by
  cases step with
  | schedule refers input limits =>
    rw [ResetState.step]
    split
    · exact h
    next store job hschedule =>
      rcases scheduleResetResume_ok hschedule with ⟨rfl, hnone⟩ | ⟨existing, resumeAt, hfind, hdelivered, hcancelled, rfl, hid⟩ |
        ⟨hid, hroom, hnew, rfl, rfl⟩
      · rw [if_neg (by simp [hnone])]
        exact h
      · have hschedules : schedules state.store input = true := by
          rw [schedules, hfind, Option.all_some, hdelivered, hcancelled]
          rfl
        obtain ⟨hheld, hended⟩ := hreleased existing hfind hcancelled
        rw [if_pos hschedules, hid]
        exact h.reschedule hfind hdelivered hheld hended
      · rw [if_pos (by rw [schedules, hnew]; rfl)]
        exact h.put hid hroom hnew
  | claim accountId now leaseUntil limit =>
    rw [ResetState.step]
    split
    · exact h
    next store jobs hclaim => exact h.claim htimely hclaim
  | notify claim delivered =>
    rw [ResetState.step]
    split
    next hmem =>
      refine h.notify fun other hother => ?_
      rcases List.mem_append.mp hother with hother | hother
      · exact List.mem_append_left _ (List.mem_of_mem_erase hother)
      · split at hother
        · rcases List.mem_cons.mp hother with rfl | hother
          · exact List.mem_append_left _ hmem
          · exact List.mem_append_right _ hother
        · exact List.mem_append_right _ hother
    · exact h
  | complete claim =>
    rw [ResetState.step]
    split
    next hmem => exact h.complete hmem
    · exact h
  | cancel accountId profile cancelledAt => exact h.cancel accountId profile cancelledAt

/-- A run in which jobs are claimed at times that do not go back, and a
cancelled job is scheduled again when no worker is left with it. -/
abbrev ReleasedRun (instantError : Int → Option PulseError) :=
  Run fun state step state' => (Timely state step ∧ Released state step) ∧ state' = state.step instantError step

end ResetState

/-- **Reset jobs are leased, one-shot and cancellable** in every run that
schedules a cancelled job again only when no worker is left with it. -/
theorem reset_resumes_sound {instantError : Int → Option PulseError} {steps : List ResetStep} {state : ResetState}
    (hrun : ResetState.ReleasedRun instantError .new steps state) :
    (∀ a ∈ state.store.jobs.rows, ∀ b ∈ state.store.jobs.rows, a.input.slot = b.input.slot → a = b) ∧
      LeasesApart state.log ∧ OneShot state.log ∧ NotWhileCancelled state.log ∧ OwnCompletion state.log := by
  have hsound : state.Sound := by
    refine hrun.invariant ?_ ResetState.sound_new
    rintro _ _ _ h ⟨⟨htimely, hreleased⟩, rfl⟩
    exact h.step htimely hreleased
  exact ⟨state.store.unique, hsound.apart, hsound.oneShot, hsound.notWhileCancelled, hsound.ownCompletion⟩

/-! ## A worker that is left -/

/-- A reset one hundred seconds after the epoch. -/
def sampleReset : ResetResumeInput := ⟨firstAccount, workProfile, 100000, 0⟩

def defaultResetLimits : ResetResumeLimits := ⟨512, 31 * 24 * 60 * 60 * 1000⟩

namespace ResetState

def sampleClaim : ResetClaim := ⟨1, sampleReset.accountId, 1, 160000, 460000⟩

/-- The job is scheduled and claimed. -/
def sampleClaimed : ResetState :=
  [.schedule true sampleReset defaultResetLimits, .claim sampleReset.accountId 160000 460000 10].foldl
    (step fun _ => none) .new

/-- It is cancelled, scheduled and claimed again, and completed for the first
claim. -/
def sampleAgain : List ResetStep :=
  [.cancel sampleReset.accountId sampleReset.profile 160001, .schedule true sampleReset defaultResetLimits,
    .claim sampleReset.accountId 160000 460000 10, .notify sampleClaim true, .complete sampleClaim]

end ResetState

/-- The second lease overlaps the first, whose worker completes the job. -/
theorem cancelled_claim_completes : ∃ (steps : List ResetStep) (state : ResetState),
    Run (fun state step state' => ResetState.Timely state step ∧ state' = state.step (fun _ => none) step) .new steps state ∧
      ¬ LeasesApart state.log ∧ ¬ OwnCompletion state.log := by
  have hlog : (ResetState.sampleAgain.foldl (ResetState.step fun _ => none) ResetState.sampleClaimed).log =
      [.completed ResetState.sampleClaim, .claimed { ResetState.sampleClaim with ticket := 4 }, .scheduled 1, .cancelled 1,
        .claimed ResetState.sampleClaim, .scheduled 1] := by decide +kernel
  have hclock : (ResetState.sampleAgain.take 2 |>.foldl (ResetState.step fun _ => none) ResetState.sampleClaimed).clock =
      some 160000 := by decide +kernel
  refine ⟨[.schedule true sampleReset defaultResetLimits, .claim sampleReset.accountId 160000 460000 10] ++
    ResetState.sampleAgain, ResetState.sampleAgain.foldl (ResetState.step fun _ => none) ResetState.sampleClaimed, ?_, ?_, ?_⟩
  · refine .cons ⟨trivial, rfl⟩ (.cons ⟨fun last hlast => ?_, rfl⟩ (.cons ⟨trivial, rfl⟩ (.cons ⟨trivial, rfl⟩
      (.cons ⟨fun last hlast => ?_, rfl⟩ (.cons ⟨trivial, rfl⟩ (.cons ⟨trivial, rfl⟩ (.nil _)))))))
    · have hnone : (ResetState.new.step (fun _ => none) (.schedule true sampleReset defaultResetLimits)).clock = none := by
        decide +kernel
      cases hnone.symm.trans hlast
    · obtain rfl := Option.some.inj (hclock.symm.trans hlast)
      exact le_refl _
  · intro hapart
    rw [hlog] at hapart
    have hrest := (List.pairwise_cons.mp (List.pairwise_cons.mp hapart).2).1 (.claimed ResetState.sampleClaim) (by simp)
    exact absurd (hrest _ _ rfl rfl rfl) (by decide)
  · intro hown
    exact hown [] ResetState.sampleClaim [.claimed { ResetState.sampleClaim with ticket := 4 }, .scheduled 1]
      [.claimed ResetState.sampleClaim, .scheduled 1] hlog (by simp)

/-- A job that is claimed once. -/
theorem claimed_once : OneShot ResetState.sampleClaimed.log ∧ LeasesApart ResetState.sampleClaimed.log := by
  have hrun : ResetState.ReleasedRun (fun _ => none) .new
      [.schedule true sampleReset defaultResetLimits, .claim sampleReset.accountId 160000 460000 10] ResetState.sampleClaimed := by
    refine .cons ⟨⟨trivial, fun job hfind => ?_⟩, rfl⟩ (.cons ⟨⟨fun last hlast => ?_, trivial⟩, rfl⟩ (.nil _))
    · cases hfind
    · have hnone : (ResetState.new.step (fun _ => none) (.schedule true sampleReset defaultResetLimits)).clock = none := by
        decide +kernel
      cases hnone.symm.trans hlast
  obtain ⟨-, hapart, honce, -⟩ := reset_resumes_sound hrun
  exact ⟨honce, hapart⟩

end Atmux.Pulse
