/-
The durable jobs that resume a profile after its rate limit was reset.

An account has one job for a profile's reset. A cancelled job that is scheduled
again is the same row with the same id, and `completeResetResume` knows a job
by its id alone.
-/
import Mathlib.Data.Prod.Lex
import Atmux.Lib.Result
import Atmux.Lib.Table
import Atmux.Pulse.Store

namespace Atmux.Pulse

open Lib

/-! ## Jobs -/

/-- A rate-limit reset that should resume collection one minute after reset. -/
structure ResetResumeInput where
  accountId : AccountId
  profile : ProfileName
  resetsAt : Int
  scheduledAt : Int
deriving DecidableEq

/-- Durable reset-resume job state. -/
structure ResetResumeJob where
  id : Nat
  input : ResetResumeInput
  resumeAt : Int
  leaseUntil : Option Int
  attempts : Nat
  deliveredAt : Option Int
  cancelledAt : Option Int
deriving DecidableEq

/-- Transactional bounds for durable reset scheduling. -/
structure ResetResumeLimits where
  maxPendingPerAccount : Nat
  maxHorizonMillis : Nat
deriving DecidableEq

def ResetResumeInput.slot (input : ResetResumeInput) : AccountId × ProfileName × Int :=
  (input.accountId, input.profile, input.resetsAt)

/-- Neither delivered nor cancelled. -/
def ResetResumeJob.pending (job : ResetResumeJob) : Bool := job.deliveredAt.isNone && job.cancelledAt.isNone

/-- The table `reset_resume_jobs`, with its unique columns. -/
structure ResetJobs where
  jobs : Table ResetResumeJob.id
  sequence : Nat
  ids : ∀ job ∈ jobs.rows, job.id ≤ sequence
  sequence_bounded : sequence < 2 ^ 63
  unique : ∀ a ∈ jobs.rows, ∀ b ∈ jobs.rows, a.input.slot = b.input.slot → a = b

/-! ## Scheduling -/

def maxResetJobsPerAccount : Nat := 4096

def maxResetHorizonMillis : Nat := 90 * 24 * 60 * 60 * 1000

/-- A value of an `i64`. -/
def inI64 (value : Int) : Bool := -2 ^ 63 ≤ value && value < 2 ^ 63

/-- `instantError` says why a number of milliseconds is no instant. -/
def checkInstant (instantError : Int → Option PulseError) (value : Int) : PulseResult Int :=
  match instantError value with
  | some error => .error error
  | none => .ok value

def validateResetInput (input : ResetResumeInput) (limits : ResetResumeLimits) : PulseResult Int := do
  if limits.maxPendingPerAccount = 0 ∨ maxResetJobsPerAccount < limits.maxPendingPerAccount ∨
      limits.maxHorizonMillis = 0 ∨ maxResetHorizonMillis < limits.maxHorizonMillis then
    throw (.invalidInput "reset resume limits are out of bounds")
  let resetDelta := input.resetsAt - input.scheduledAt
  if !inI64 resetDelta ∨ resetDelta ≤ 0 then
    throw (.invalidInput "reset must be in the future")
  if limits.maxHorizonMillis < resetDelta then
    throw (.invalidInput "reset exceeds the scheduling horizon")
  if !inI64 (input.resetsAt + 60000) then
    throw (.invalidInput "reset resume time overflowed")
  pure (input.resetsAt + 60000)

namespace ResetJobs

def pendingCount (store : ResetJobs) (accountId : AccountId) : Nat :=
  (store.jobs.rows.filter fun job => job.input.accountId = accountId ∧ job.pending).length

def find (store : ResetJobs) (input : ResetResumeInput) : Option ResetResumeJob :=
  store.jobs.rows.find? fun job => job.input.slot = input.slot

/-- A row under the next id. -/
def put (store : ResetJobs) (job : ResetResumeJob) (hid : job.id = store.sequence + 1)
    (hroom : store.sequence + 1 < 2 ^ 63) (hnew : store.find job.input = none) : ResetJobs where
  jobs := store.jobs.upsert job
  sequence := store.sequence + 1
  ids a hmem := by
    rcases Table.mem_upsert hmem with rfl | hmem
    · exact hid.le
    · exact (store.ids a hmem).trans (Nat.le_succ _)
  sequence_bounded := hroom
  unique a ha b hb heq := by
    have hother : ∀ a ∈ store.jobs.rows, a.input.slot ≠ job.input.slot := by simpa [find] using hnew
    rcases Table.mem_upsert ha with harow | ha <;> rcases Table.mem_upsert hb with hbrow | hb
    · rw [harow, hbrow]
    · exact absurd (harow ▸ heq.symm) (hother b hb)
    · exact absurd (hbrow ▸ heq) (hother a ha)
    · exact store.unique a ha b hb heq

/-- `UPDATE`, of columns of no key. -/
def update (store : ResetJobs) (f : ResetResumeJob → ResetResumeJob)
    (hf : ∀ job, (f job).id = job.id ∧ (f job).input.slot = job.input.slot) : ResetJobs where
  __ := store
  jobs := store.jobs.update f fun job => (hf job).1
  ids a hmem := by
    obtain ⟨old, hold, rfl⟩ := Table.mem_update.mp hmem
    rw [(hf old).1]
    exact store.ids old hold
  unique a ha b hb heq := by
    obtain ⟨olda, holda, rfl⟩ := Table.mem_update.mp ha
    obtain ⟨oldb, holdb, rfl⟩ := Table.mem_update.mp hb
    rw [(hf olda).2, (hf oldb).2] at heq
    rw [store.unique olda holda oldb holdb heq]

theorem mem_update {store : ResetJobs} {f : ResetResumeJob → ResetResumeJob}
    (hf : ∀ job, (f job).id = job.id ∧ (f job).input.slot = job.input.slot) {job : ResetResumeJob} :
    job ∈ (store.update f hf).jobs.rows ↔ ∃ old ∈ store.jobs.rows, f old = job :=
  @Table.mem_update _ _ _ _ _ _ _ fun job => (hf job).1

theorem mem_updated {store : ResetJobs} {f : ResetResumeJob → ResetResumeJob}
    (hf : ∀ job, (f job).id = job.id ∧ (f job).input.slot = job.input.slot) {job : ResetResumeJob}
    (h : job ∈ store.jobs.rows) : f job ∈ (store.update f hf).jobs.rows := (mem_update hf).mpr ⟨job, h, rfl⟩

/-- The row after `DO UPDATE`. -/
def rescheduled (input : ResetResumeInput) (resumeAt : Int) (job : ResetResumeJob) : ResetResumeJob :=
  if job.input.slot = input.slot then
    { job with
      input := { job.input with scheduledAt := input.scheduledAt }
      resumeAt
      leaseUntil := none
      attempts := 0
      deliveredAt := none
      cancelledAt := none }
  else job

theorem rescheduled_keys (input : ResetResumeInput) (resumeAt : Int) (job : ResetResumeJob) :
    (rescheduled input resumeAt job).id = job.id ∧ (rescheduled input resumeAt job).input.slot = job.input.slot := by
  unfold rescheduled
  split <;> exact ⟨rfl, rfl⟩

/-- `schedule_reset_resume`; `refers` says whether the profile is there. -/
def scheduleResetResume (instantError : Int → Option PulseError) (store : ResetJobs) (refers : Bool)
    (input : ResetResumeInput) (limits : ResetResumeLimits) : PulseResult (ResetJobs × ResetResumeJob) := do
  let resumeAt ← validateResetInput input limits
  match h : store.find input with
  | some existing =>
    if existing.deliveredAt.isSome ∨ existing.cancelledAt.isNone then
      pure (store, existing)
    else
      if limits.maxPendingPerAccount ≤ store.pendingCount input.accountId then
        throw ⟨.conflict, "reset resume jobs reached the account cap"⟩
      let _ ← checkInstant instantError resumeAt
      pure (store.update (rescheduled input resumeAt) (rescheduled_keys input resumeAt), rescheduled input resumeAt existing)
  | none =>
    if limits.maxPendingPerAccount ≤ store.pendingCount input.accountId then
      throw ⟨.conflict, "reset resume jobs reached the account cap"⟩
    if hroom : store.sequence + 1 < 2 ^ 63 then
      if !refers then throw sqlError
      let _ ← checkInstant instantError resumeAt
      let job : ResetResumeJob := ⟨store.sequence + 1, input, resumeAt, none, 0, none, none⟩
      pure (store.put job rfl hroom h, job)
    else throw sqlError

/-! ## Delivering -/

def maxQueryRows : Nat := 10000

def queryLimit (value : Nat) : PulseResult Nat :=
  if value = 0 ∨ maxQueryRows < value then
    .error (.invalidInput ("query limit must be between 1 and " ++ toString maxQueryRows))
  else .ok value

/-- A job that may be claimed. -/
def due (accountId : AccountId) (now : Int) (job : ResetResumeJob) : Bool :=
  job.input.accountId = accountId ∧ job.resumeAt ≤ now ∧ job.pending ∧ job.leaseUntil.all fun lease => lease ≤ now

def claimed (ids : List Nat) (leaseUntil : Int) (job : ResetResumeJob) : ResetResumeJob :=
  if job.id ∈ ids then { job with leaseUntil := some leaseUntil, attempts := job.attempts + 1 } else job

theorem claimed_keys (ids : List Nat) (leaseUntil : Int) (job : ResetResumeJob) :
    (claimed ids leaseUntil job).id = job.id ∧ (claimed ids leaseUntil job).input.slot = job.input.slot := by
  unfold claimed
  split <;> exact ⟨rfl, rfl⟩

def claimDueResetResumes (store : ResetJobs) (accountId : AccountId) (now leaseUntil : Int) (limit : Nat) :
    PulseResult (ResetJobs × List ResetResumeJob) := do
  if leaseUntil ≤ now then
    throw (.invalidInput "reset lease must end after now")
  let limit ← queryLimit limit
  let jobs := (orderBy (fun job => toLex (job.resumeAt, job.id)) (store.jobs.rows.filter (due accountId now))).take limit
  if jobs.any fun job => decide (2 ^ 32 ≤ job.attempts + 1) then
    throw ⟨.storage, "stored reset attempt count is invalid"⟩
  let ids := jobs.map (·.id)
  pure (store.update (claimed ids leaseUntil) (claimed_keys ids leaseUntil), jobs.map (claimed ids leaseUntil))

def completed (accountId : AccountId) (jobId : Nat) (deliveredAt : Int) (job : ResetResumeJob) : ResetResumeJob :=
  if job.input.accountId = accountId ∧ job.id = jobId ∧ job.pending then
    { job with deliveredAt := some deliveredAt, leaseUntil := none }
  else job

theorem completed_keys (accountId : AccountId) (jobId : Nat) (deliveredAt : Int) (job : ResetResumeJob) :
    (completed accountId jobId deliveredAt job).id = job.id ∧
      (completed accountId jobId deliveredAt job).input.slot = job.input.slot := by
  unfold completed
  split <;> exact ⟨rfl, rfl⟩

/-- Whether a row was updated is what is returned. -/
def completeResetResume (store : ResetJobs) (accountId : AccountId) (jobId : Nat) (deliveredAt : Int) : ResetJobs × Bool :=
  (store.update (completed accountId jobId deliveredAt) (completed_keys accountId jobId deliveredAt),
    store.jobs.rows.any fun job => job.input.accountId = accountId ∧ job.id = jobId ∧ job.pending)

/-- A pending job of the profile. -/
def cancels (accountId : AccountId) (profile : ProfileName) (job : ResetResumeJob) : Bool :=
  job.input.accountId = accountId ∧ job.input.profile = profile ∧ job.pending

def cancelled (accountId : AccountId) (profile : ProfileName) (cancelledAt : Int) (job : ResetResumeJob) : ResetResumeJob :=
  if cancels accountId profile job then { job with cancelledAt := some cancelledAt, leaseUntil := none } else job

theorem cancelled_keys (accountId : AccountId) (profile : ProfileName) (cancelledAt : Int) (job : ResetResumeJob) :
    (cancelled accountId profile cancelledAt job).id = job.id ∧
      (cancelled accountId profile cancelledAt job).input.slot = job.input.slot := by
  unfold cancelled
  split <;> exact ⟨rfl, rfl⟩

def cancelResetResumes (store : ResetJobs) (accountId : AccountId) (profile : ProfileName) (cancelledAt : Int) :
    ResetJobs × Nat :=
  (store.update (cancelled accountId profile cancelledAt) (cancelled_keys accountId profile cancelledAt),
    (store.jobs.rows.filter (cancels accountId profile)).length)

end ResetJobs

end Atmux.Pulse
