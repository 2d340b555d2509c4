/-
Runs of the scheduler's loop.

`Scheduler` is the schedule with the tasks the loop has spawned and not yet
joined. `Scheduled` says that the schedule's flags count those tasks, and that
a running force poll has the collectors to itself; every call keeps it.
`force_polls_exclusive` and `sleeps_iff` are about every run: the second says
exactly when the loop, having taken what is due, sleeps.
-/
import Atmux.Pulse.Scheduler

namespace Atmux.Pulse

/-- The schedule and the jobs that were started and have not finished. -/
structure Scheduler where
  state : ScheduleState
  tasks : List PulseJob

/-- What the loop calls. A job that failed or panicked has no report. -/
inductive Call
  | takeDue (nowMillis : UInt64)
  | finished (job : PulseJob) (finishedMillis : UInt64) (report : Option JobReport)
  | completionTriggered
  | forceTriggered (target : ForcePollTarget)
deriving DecidableEq, Repr

namespace Scheduler

variable (s : Scheduler)

def step : Call → Scheduler
  | .takeDue nowMillis => ⟨(s.state.takeDue nowMillis).1, s.tasks ++ (s.state.takeDue nowMillis).2⟩
  | .finished job finishedMillis report =>
    if job ∈ s.tasks then
      ⟨(s.state.finished job finishedMillis).collectionFinishedWithRows job report, s.tasks.erase job⟩
    else s
  | .completionTriggered => { s with state := s.state.completionTriggered }
  | .forceTriggered target => { s with state := s.state.forceTriggered target }

def run (calls : List Call) : Scheduler := calls.foldl step s

/-- The jobs a run starts. -/
def starts : Scheduler → List Call → List PulseJob
  | _, [] => []
  | s, call :: calls =>
    (match call with
      | .takeDue nowMillis => (s.state.takeDue nowMillis).2
      | _ => []) ++ starts (s.step call) calls

def start (nowMillis : UInt64) (settings : SchedulerSettings) (jitterSeed : UInt64) : Scheduler :=
  ⟨.new nowMillis settings jitterSeed, []⟩

end Scheduler

/-! ## The invariant -/

/-- The schedule has the job running. -/
def ScheduleState.runs (s : ScheduleState) (job : PulseJob) : Bool :=
  match job.periodicIndex with
  | some index => (s.periodic index).running
  | none =>
    match job with
    | .completionPush => s.completionRunning
    | .forcePoll target => s.forceRunning = some target
    | _ => false

structure Scheduled (s : ScheduleState) (tasks : List PulseJob) : Prop where
  tasks : ∀ job, tasks.count job = (s.runs job).toNat
  exclusive : s.forceRunning.isSome → s.completionRunning = false ∧ ∀ index < 4, (s.periodic index).running = false
  disabled : ∀ index, s.settings.enabled index = false →
    (s.periodic index).running = false ∧ (s.periodic index).nextDueMillis = maxMillis
  ascending : s.forceQueued.Pairwise (· < ·)
  fresh : ∀ target, s.forceRunning = some target → target ∉ s.forceQueued

namespace Scheduled

open ScheduleState

variable {s : ScheduleState} {tasks due : List PulseJob}

theorem new (nowMillis : UInt64) (settings : SchedulerSettings) (jitterSeed : UInt64) :
    Scheduled (.new nowMillis settings jitterSeed) [] where
  tasks job := by cases job <;> rfl
  exclusive h := by cases h
  disabled index h := by
    have henabled : settings.enabled index = false := h
    simp [ScheduleState.new, henabled]
  ascending := .nil
  fresh target h := by cases h

theorem running_iff (h : Scheduled s tasks) {job : PulseJob} : job ∈ tasks ↔ s.runs job = true := by
  have hcount := h.tasks job
  rw [← List.one_le_count_iff, hcount]
  cases s.runs job <;> simp

theorem count_periodicJobs (job : PulseJob) : periodicJobs.count job = job.periodicIndex.isSome.toNat := by
  cases job <;> simp [periodicJobs, PulseJob.periodicIndex]

/-- The pass over the periodic jobs. -/
theorem takePeriodic (h : Scheduled s tasks) (nowMillis : UInt64) :
    Scheduled (s.withRunning fun index => s.isDue nowMillis (jobAt index))
      (tasks ++ periodicJobs.filter (s.isDue nowMillis)) where
  tasks job := by
    rw [List.count_append, h.tasks]
    cases hindex : job.periodicIndex with
    | none =>
      have hcount : (periodicJobs.filter (s.isDue nowMillis)).count job = 0 := by
        rw [List.count_eq_zero, List.mem_filter]
        simp [isDue, hindex]
      rw [hcount]
      cases job <;> simp [PulseJob.periodicIndex, runs, withRunning] at hindex ⊢
    | some index =>
      obtain rfl := eq_jobAt hindex
      have hcount := count_periodicJobs (jobAt index)
      rw [hindex] at hcount
      cases hdue : s.isDue nowMillis (jobAt index) with
      | false =>
        rw [List.count_eq_zero.2 (by simp [List.mem_filter, hdue])]
        simp [runs, withRunning, hdue]
      | true =>
        have hidle : (s.periodic index).running = false := by
          simp only [isDue, periodicIndex_jobAt, Bool.and_eq_true, Bool.not_eq_true'] at hdue
          exact hdue.1.2
        rw [List.count_filter hdue, hcount]
        simp [runs, withRunning, hdue, hidle]
  exclusive hforce := by
    obtain ⟨hcompletion, hrunning⟩ := h.exclusive hforce
    refine ⟨hcompletion, fun index hlt => ?_⟩
    have hretention : jobAt index ≠ .retention := fun heq => (jobAt_eq_retention index).1 heq hlt
    have hdue : s.isDue nowMillis (jobAt index) = false := by
      simp only [withRunning] at hforce
      cases hnone : s.forceRunning with
      | none => simp [hnone] at hforce
      | some target => simp [isDue, hnone, hretention]
    simpa [withRunning, hdue] using hrunning index hlt
  disabled index henabled := by
    have hdue : s.isDue nowMillis (jobAt index) = false := by
      simp only [withRunning] at henabled
      simp [isDue, henabled]
    simpa [withRunning, hdue] using h.disabled index henabled
  ascending := h.ascending
  fresh := h.fresh

theorem takeCompletion (h : Scheduled s (tasks ++ due)) :
    Scheduled (s.takeCompletion due).1 (tasks ++ (s.takeCompletion due).2) := by
  unfold ScheduleState.takeCompletion
  split
  · next hready =>
    simp only [completionReady, Bool.and_eq_true, Bool.not_eq_true', Option.isNone_iff_eq_none] at hready
    refine ⟨fun job => ?_, fun hforce => ?_, h.disabled, h.ascending, h.fresh⟩
    · rw [← List.append_assoc, List.count_append, h.tasks]
      cases job <;> simp [runs, PulseJob.periodicIndex, hready]
    · simp [hready.2] at hforce
  · exact h

theorem takeForce (h : Scheduled s (tasks ++ due)) :
    Scheduled (s.takeForce due).1 (tasks ++ (s.takeForce due).2) := by
  unfold ScheduleState.takeForce
  split
  · next hready =>
    simp only [forceReady, Bool.and_eq_true, Bool.not_eq_true', Option.isNone_iff_eq_none, List.any_eq_false,
      List.mem_finRange, forall_const, decide_eq_true_eq, not_and, Bool.not_eq_true] at hready
    split
    · exact h
    next target queued hqueued =>
    have hascending := h.ascending
    rw [hqueued] at hascending
    obtain ⟨hfirst, hrest⟩ := List.pairwise_cons.1 hascending
    refine ⟨fun job => ?_, fun _ => ⟨hready.1.2, hready.2⟩, h.disabled, hrest, fun other hother hmem => ?_⟩
    · rw [← List.append_assoc, List.count_append, h.tasks]
      cases job with
      | forcePoll other =>
        by_cases hother : target = other <;> simp [runs, PulseJob.periodicIndex, hready, hother]
      | _ => simp [runs, PulseJob.periodicIndex]
    · obtain rfl := Option.some.inj hother
      exact lt_irrefl _ (hfirst _ hmem)
  · exact h

theorem takeDue (h : Scheduled s tasks) (nowMillis : UInt64) :
    Scheduled (s.takeDue nowMillis).1 (tasks ++ (s.takeDue nowMillis).2) := by
  rw [takeDue_eq]
  exact (h.takePeriodic nowMillis).takeCompletion.takeForce

theorem completionTriggered (h : Scheduled s tasks) : Scheduled s.completionTriggered tasks :=
  ⟨h.tasks, h.exclusive, h.disabled, h.ascending, h.fresh⟩

theorem forceTriggered (h : Scheduled s tasks) (target : ForcePollTarget) :
    Scheduled (s.forceTriggered target) tasks := by
  unfold ScheduleState.forceTriggered
  split
  · next hnew =>
    refine ⟨h.tasks, h.exclusive, h.disabled, ?_, fun other hother hmem => ?_⟩
    · have hsorted : (s.forceQueued.orderedInsert (· ≤ ·) target).Pairwise (· ≤ ·) :=
        (h.ascending.imp fun hlt => le_of_lt hlt).orderedInsert target s.forceQueued
      have hnodup : (s.forceQueued.orderedInsert (· ≤ ·) target).Nodup := by
        rw [(List.perm_orderedInsert (· ≤ ·) target s.forceQueued).nodup_iff, List.nodup_cons]
        exact ⟨hnew.2, h.ascending.imp fun hlt => ne_of_lt hlt⟩
      exact (hsorted.and hnodup).imp fun hboth => lt_of_le_of_ne hboth.1 hboth.2
    · rcases (List.mem_orderedInsert _).1 hmem with rfl | hmem
      · exact hnew.1 hother
      · exact h.fresh other hother hmem
  · exact h

theorem finished (h : Scheduled s tasks) {job : PulseJob} (hjob : job ∈ tasks) (finishedMillis : UInt64) :
    Scheduled (s.finished job finishedMillis) (tasks.erase job) := by
  have hruns := h.running_iff.1 hjob
  have hcount : ∀ other, (tasks.erase job).count other = if job = other then 0 else (s.runs other).toNat := by
    intro other
    rw [List.count_erase, h.tasks]
    by_cases hother : job = other
    · subst hother
      simp [hruns]
    · simp [hother]
  unfold ScheduleState.finished
  split
  · next index hindex =>
    obtain rfl := eq_jobAt hindex
    refine ⟨fun other => ?_, fun hforce => ⟨(h.exclusive hforce).1, fun other hlt => ?_⟩, fun other hother => ?_,
      h.ascending, h.fresh⟩
    · rw [hcount]
      split
      · next heq =>
        subst heq
        simp [runs]
      · next hne =>
        cases hother : other.periodicIndex with
        | none => simp [runs, hother]
        | some otherIndex =>
          have hindex' : otherIndex ≠ index := fun heq => hne (heq ▸ (eq_jobAt hother).symm)
          simp [runs, hother, hindex']
    · by_cases heq : other = index
      · subst heq
        simp
      · simpa [heq] using (h.exclusive hforce).2 other hlt
    · by_cases heq : other = index
      · -- A disabled job is not running, so it is not the one that finished.
        subst heq
        simp only [runs, periodicIndex_jobAt, (h.disabled other hother).1] at hruns
        cases hruns
      · simpa [heq] using h.disabled other hother
  · next hindex =>
    split
    · refine ⟨fun other => ?_, fun hforce => ⟨rfl, (h.exclusive hforce).2⟩, h.disabled, h.ascending, h.fresh⟩
      rw [hcount]
      cases other <;> simp [runs, PulseJob.periodicIndex]
    · next hpush =>
      refine ⟨fun other => ?_, fun hforce => (by cases hforce), h.disabled, h.ascending,
        fun _ hnone => (by cases hnone)⟩
      rw [hcount]
      cases job with
      | forcePoll target =>
        have hforce : s.forceRunning = some target := by simpa [runs, PulseJob.periodicIndex] using hruns
        cases other <;> simp [runs, PulseJob.periodicIndex, hforce]
      | completionPush => exact absurd rfl hpush
      | _ => cases hindex

theorem collectionFinished (h : Scheduled s tasks) (job : PulseJob) (report : Option JobReport) :
    Scheduled (s.collectionFinishedWithRows job report) tasks := by
  unfold collectionFinishedWithRows
  dsimp only
  repeat' split
  all_goals first
    | exact h.completionTriggered
    | exact h

end Scheduled

theorem Scheduler.step_scheduled {s : Scheduler} (h : Scheduled s.state s.tasks) (call : Call) :
    Scheduled (s.step call).state (s.step call).tasks := by
  cases call with
  | takeDue nowMillis => exact h.takeDue nowMillis
  | finished job finishedMillis report =>
    simp only [Scheduler.step]
    split
    · next hjob => exact (h.finished hjob finishedMillis).collectionFinished job report
    · exact h
  | completionTriggered => exact h.completionTriggered
  | forceTriggered target => exact h.forceTriggered target

theorem Scheduler.run_scheduled {s : Scheduler} (h : Scheduled s.state s.tasks) (calls : List Call) :
    Scheduled (s.run calls).state (s.run calls).tasks := by
  induction calls generalizing s with
  | nil => exact h
  | cons call calls ih => exact ih (Scheduler.step_scheduled h call)

/-! ## Force polls -/

def PulseJob.isForcePoll : PulseJob → Bool
  | .forcePoll _ => true
  | _ => false

section ForcePolls

variable {s : ScheduleState} {tasks : List PulseJob} {target : ForcePollTarget}

theorem Scheduled.forceRunning_iff (h : Scheduled s tasks) :
    .forcePoll target ∈ tasks ↔ s.forceRunning = some target := by
  rw [h.running_iff]
  simp [ScheduleState.runs, PulseJob.periodicIndex]

theorem Scheduled.countP_isForcePoll (h : Scheduled s tasks) : tasks.countP PulseJob.isForcePoll ≤ 1 := by
  cases hforce : s.forceRunning with
  | none =>
    have hnone : tasks.countP PulseJob.isForcePoll = 0 := by
      rw [List.countP_eq_zero]
      intro job hjob hpoll
      cases job <;> simp only [PulseJob.isForcePoll, Bool.false_eq_true] at hpoll
      have hrunning := h.forceRunning_iff.1 hjob
      rw [hforce] at hrunning
      cases hrunning
    omega
  | some target =>
    have hcount : tasks.countP PulseJob.isForcePoll = tasks.count (.forcePoll target) := by
      refine List.countP_congr fun job hjob => ?_
      cases job with
      | forcePoll other =>
        have hrunning := h.forceRunning_iff.1 hjob
        rw [hforce] at hrunning
        simp [PulseJob.isForcePoll, Option.some.inj hrunning]
      | _ => simp [PulseJob.isForcePoll]
    rw [hcount, h.tasks]
    exact Bool.toNat_le _

/-- While a force poll runs, only retention runs beside it. -/
theorem Scheduled.beside_forcePoll (h : Scheduled s tasks) (hforce : .forcePoll target ∈ tasks) {job : PulseJob}
    (hjob : job ∈ tasks) : job = .retention ∨ job.isForcePoll = true := by
  have hsome : s.forceRunning.isSome := by rw [h.forceRunning_iff.1 hforce]; rfl
  obtain ⟨hcompletion, hcollectors⟩ := h.exclusive hsome
  have hruns := h.running_iff.1 hjob
  cases job with
  | retention => exact .inl rfl
  | forcePoll other => exact .inr rfl
  | completionPush => simp [ScheduleState.runs, PulseJob.periodicIndex, hcompletion] at hruns
  | _ => simp [ScheduleState.runs, PulseJob.periodicIndex, hcollectors] at hruns

theorem takeForce_queued {due : List PulseJob} (h : target ∈ s.forceQueued)
    (hnot : .forcePoll target ∉ (s.takeForce due).2) : target ∈ (s.takeForce due).1.forceQueued := by
  unfold ScheduleState.takeForce at hnot ⊢
  split
  · next hready =>
    rw [if_pos hready] at hnot
    split
    · exact h
    · next other queued hcons =>
      simp only [hcons] at hnot
      rw [hcons] at h
      rcases List.mem_cons.1 h with rfl | h
      · exact absurd (by simp) hnot
      · exact h
  · exact h

/-- A queued target leaves the queue only by being started. -/
theorem takeDue_queued {nowMillis : UInt64} (h : target ∈ s.forceQueued)
    (hnot : .forcePoll target ∉ (s.takeDue nowMillis).2) : target ∈ (s.takeDue nowMillis).1.forceQueued := by
  rw [ScheduleState.takeDue_eq] at hnot ⊢
  exact takeForce_queued (by rw [ScheduleState.takeCompletion_forceQueued]; exact h) hnot

theorem forceTriggered_queued {other : ForcePollTarget} (h : target ∈ s.forceQueued) :
    target ∈ (s.forceTriggered other).forceQueued := by
  unfold ScheduleState.forceTriggered
  split
  · exact (List.mem_orderedInsert _).2 (.inr h)
  · exact h

theorem finished_queued (job : PulseJob) (finishedMillis : UInt64) (report : Option JobReport) :
    ((s.finished job finishedMillis).collectionFinishedWithRows job report).forceQueued = s.forceQueued := by
  have hcollection : ∀ s : ScheduleState, (s.collectionFinishedWithRows job report).forceQueued = s.forceQueued := by
    intro s
    unfold ScheduleState.collectionFinishedWithRows
    dsimp only
    repeat' split
    all_goals rfl
  rw [hcollection]
  unfold ScheduleState.finished
  repeat' split
  all_goals rfl

theorem Scheduler.run_queued {s : Scheduler} (calls : List Call) (h : target ∈ s.state.forceQueued)
    (hnot : .forcePoll target ∉ s.starts calls) : target ∈ (s.run calls).state.forceQueued := by
  induction calls generalizing s with
  | nil => exact h
  | cons call calls ih =>
    simp only [Scheduler.starts, List.mem_append, not_or] at hnot
    refine ih ?_ hnot.2
    cases call with
    | takeDue nowMillis => exact takeDue_queued h hnot.1
    | finished job finishedMillis report =>
      simp only [Scheduler.step]
      split
      · rw [finished_queued]
        exact h
      · exact h
    | completionTriggered => exact h
    | forceTriggered other => exact forceTriggered_queued h

end ForcePolls

/-- **Force polls are exclusive and coalesced.** In every run: each job runs at
most once at a time, and so does the force poll; only retention runs beside a
force poll; a target is queued at most once, and not while it runs; and a
target triggered while it was not running is queued until it is started. -/
theorem force_polls_exclusive (nowMillis : UInt64) (settings : SchedulerSettings) (jitterSeed : UInt64)
    (calls : List Call) :
    (∀ job, ((Scheduler.start nowMillis settings jitterSeed).run calls).tasks.count job ≤ 1) ∧
    ((Scheduler.start nowMillis settings jitterSeed).run calls).tasks.countP PulseJob.isForcePoll ≤ 1 ∧
    (∀ target, .forcePoll target ∈ ((Scheduler.start nowMillis settings jitterSeed).run calls).tasks →
      (∀ job ∈ ((Scheduler.start nowMillis settings jitterSeed).run calls).tasks,
        job = .retention ∨ job.isForcePoll = true) ∧
      target ∉ ((Scheduler.start nowMillis settings jitterSeed).run calls).state.forceQueued) ∧
    (∀ target, ((Scheduler.start nowMillis settings jitterSeed).run calls).state.forceQueued.count target ≤ 1) ∧
    ∀ before target after, calls = before ++ .forceTriggered target :: after →
      .forcePoll target ∈ ((Scheduler.start nowMillis settings jitterSeed).run before).tasks ∨
      .forcePoll target ∈
        ((Scheduler.start nowMillis settings jitterSeed).run (before ++ [.forceTriggered target])).starts after ∨
      ((Scheduler.start nowMillis settings jitterSeed).run calls).state.forceQueued.count target = 1 := by
  have hstart := Scheduled.new nowMillis settings jitterSeed
  have hrun := fun calls => Scheduler.run_scheduled (s := .start nowMillis settings jitterSeed) hstart calls
  have hnodup : ((Scheduler.start nowMillis settings jitterSeed).run calls).state.forceQueued.Nodup :=
    (hrun calls).ascending.imp fun hlt => ne_of_lt hlt
  refine ⟨fun job => ?_, (hrun calls).countP_isForcePoll, fun target hforce => ⟨fun job hjob => ?_, ?_⟩,
    fun target => List.nodup_iff_count_le_one.1 hnodup target, ?_⟩
  · rw [(hrun calls).tasks]
    exact Bool.toNat_le _
  · exact (hrun calls).beside_forcePoll hforce hjob
  · exact (hrun calls).fresh target ((hrun calls).forceRunning_iff.1 hforce)
  · rintro before target after rfl
    by_cases hrunning : .forcePoll target ∈ ((Scheduler.start nowMillis settings jitterSeed).run before).tasks
    · exact .inl hrunning
    by_cases hstarted : .forcePoll target ∈
        ((Scheduler.start nowMillis settings jitterSeed).run (before ++ [.forceTriggered target])).starts after
    · exact .inr (.inl hstarted)
    refine .inr (.inr ?_)
    have hqueued : target ∈
        ((Scheduler.start nowMillis settings jitterSeed).run (before ++ [.forceTriggered target])).state.forceQueued := by
      rw [Scheduler.run, List.foldl_append]
      change target ∈ (((Scheduler.start nowMillis settings jitterSeed).run before).state.forceTriggered
        target).forceQueued
      unfold ScheduleState.forceTriggered
      split
      · exact (List.mem_orderedInsert _).2 (.inl rfl)
      · next hold =>
        rw [(hrun before).forceRunning_iff] at hrunning
        simpa [hrunning] using hold
    have hend := Scheduler.run_queued after hqueued hstarted
    refine List.count_eq_one_of_mem hnodup ?_
    simpa only [Scheduler.run, List.foldl_append, List.foldl_cons, List.foldl_nil] using hend

/-! ## Sleeping -/

section Sleep

variable {s : ScheduleState} {nowMillis : UInt64}

theorem takeCompletion_not_ready (due : List PulseJob) : (s.takeCompletion due).1.completionReady = false := by
  unfold ScheduleState.takeCompletion
  split
  · simp [ScheduleState.completionReady]
  · next hready => simpa using hready

theorem takeForce_not_ready (due : List PulseJob) (h : s.completionReady = false) :
    (s.takeForce due).1.completionReady = false ∧ (s.takeForce due).1.forceReady = false := by
  unfold ScheduleState.takeForce
  split
  · next hready =>
    split
    · next hnone =>
      rw [ScheduleState.forceReady, hnone] at hready
      cases hready
    · simp [ScheduleState.completionReady, ScheduleState.forceReady]
  · next hready => exact ⟨h, by simpa using hready⟩

/-- No queued work is ready once what is due was taken. -/
theorem takeDue_not_ready :
    (s.takeDue nowMillis).1.completionReady = false ∧ (s.takeDue nowMillis).1.forceReady = false := by
  rw [ScheduleState.takeDue_eq]
  exact takeForce_not_ready _ (takeCompletion_not_ready _)

/-- Taking what is due changes a periodic job only by starting it. -/
theorem takeDue_periodic (index : Fin 5) :
    (s.takeDue nowMillis).1.periodic index =
      if s.isDue nowMillis (ScheduleState.jobAt index) then { s.periodic index with running := true }
      else s.periodic index := by
  rw [ScheduleState.takeDue_eq, ScheduleState.takeForce_periodic, ScheduleState.takeCompletion_periodic]
  rfl

theorem lt_saturatingAdd_idle (h : nowMillis < maxMillis) : nowMillis < saturatingAdd nowMillis idleWakeMillis := by
  unfold saturatingAdd
  split
  · next hsize =>
    rw [UInt64.lt_iff_toNat_lt, UInt64.toNat_add, Nat.mod_eq_of_lt hsize]
    have hidle : idleWakeMillis.toNat = 86400000 := by decide +kernel
    omega
  · exact h

theorem le_maxMillis (time : UInt64) : time ≤ maxMillis := by
  rw [UInt64.le_iff_toNat_le]
  have hmax : maxMillis.toNat = 18446744073709551615 := rfl
  have hlt := time.toNat_lt
  omega

/-- The deadline is later than now when every waiting job is due later. -/
theorem lt_nextDeadline_iff (hready : s.completionReady = false ∧ s.forceReady = false) (hmax : nowMillis < maxMillis) :
    nowMillis < s.nextDeadline nowMillis ↔
      ∀ index, (s.periodic index).running = false → nowMillis < (s.periodic index).nextDueMillis := by
  rw [ScheduleState.nextDeadline, hready.1, hready.2]
  simp only [Bool.or_self, Bool.false_eq_true, if_false]
  cases hmin : (((List.finRange 5).filter fun index => !(s.periodic index).running).map
      fun index => (s.periodic index).nextDueMillis).min? with
  | none =>
    rw [List.min?_eq_none_iff, List.map_eq_nil_iff, List.filter_eq_nil_iff] at hmin
    rw [Option.getD_none]
    refine ⟨fun _ index hidle => ?_, fun _ => lt_saturatingAdd_idle hmax⟩
    have hrunning := hmin index (List.mem_finRange index)
    simp [hidle] at hrunning
  | some deadline =>
    obtain ⟨hmem, hleast⟩ := List.min?_eq_some_iff.1 hmin
    simp only [List.mem_map, List.mem_filter, List.mem_finRange, true_and, Bool.not_eq_true'] at hmem hleast
    constructor
    · intro hlt index hidle
      exact UInt64.lt_of_lt_of_le hlt (hleast _ ⟨index, hidle, rfl⟩)
    · intro hlater
      obtain ⟨index, hidle, rfl⟩ := hmem
      exact hlater index hidle

end Sleep

/-- **When the loop sleeps.** In every run, having taken what is due, the next
deadline is later than now unless the clock is at its end, or a force poll is
running while an enabled collector is due. -/
theorem sleeps_iff (startMillis : UInt64) (settings : SchedulerSettings) (jitterSeed : UInt64) (calls : List Call)
    (nowMillis : UInt64) :
    nowMillis < (((Scheduler.start startMillis settings jitterSeed).run calls).state.takeDue nowMillis).1.nextDeadline
        nowMillis ↔
      nowMillis < maxMillis ∧
        (((Scheduler.start startMillis settings jitterSeed).run calls).state.forceRunning.isSome →
          ∀ index < 4, ((Scheduler.start startMillis settings jitterSeed).run calls).state.settings.enabled index = true →
            nowMillis <
              (((Scheduler.start startMillis settings jitterSeed).run calls).state.periodic index).nextDueMillis) := by
  have hrun := Scheduler.run_scheduled (s := .start startMillis settings jitterSeed)
    (Scheduled.new startMillis settings jitterSeed) calls
  generalize ((Scheduler.start startMillis settings jitterSeed).run calls).state = s at hrun ⊢
  by_cases hmax : nowMillis < maxMillis
  · rw [lt_nextDeadline_iff takeDue_not_ready hmax]
    simp only [hmax, true_and, takeDue_periodic]
    constructor
    · intro hlater hforce index hlt henabled
      have hretention : ScheduleState.jobAt index ≠ .retention := fun heq =>
        (ScheduleState.jobAt_eq_retention index).1 heq hlt
      have hdue : s.isDue nowMillis (ScheduleState.jobAt index) = false := by
        cases hnone : s.forceRunning with
        | none => simp [hnone] at hforce
        | some target => simp [ScheduleState.isDue, hnone, hretention]
      have hindex := hlater index
      rw [hdue] at hindex
      exact hindex ((hrun.exclusive hforce).2 index hlt)
    · intro hcollectors index
      cases hdue : s.isDue nowMillis (ScheduleState.jobAt index) with
      | true => simp
      | false =>
        simp only [Bool.false_eq_true, if_false]
        intro hidle
        by_contra hnot
        have hle : (s.periodic index).nextDueMillis ≤ nowMillis := UInt64.not_lt.1 hnot
        cases henabled : s.settings.enabled index with
        | false =>
          rw [(hrun.disabled index henabled).2] at hnot
          exact hnot hmax
        | true =>
          -- An enabled job that is due and idle was passed over for a force poll.
          simp only [ScheduleState.isDue, ScheduleState.periodicIndex_jobAt, henabled, hidle, Bool.true_and,
            Bool.not_false, Bool.and_true, Bool.and_eq_false_iff, decide_eq_false_iff_not, hle, not_true, or_false,
            Bool.or_eq_false_iff] at hdue
          have hlt : index < 4 := by
            rw [ScheduleState.jobAt_eq_retention, not_not] at hdue
            exact hdue.2
          have hforce : s.forceRunning.isSome := by
            cases hnone : s.forceRunning with
            | none => simp [hnone] at hdue
            | some target => rfl
          exact hnot (hcollectors hforce index hlt henabled)
  · refine ⟨fun hlt => absurd (UInt64.lt_of_lt_of_le hlt (le_maxMillis _)) hmax, fun h => absurd h.1 hmax⟩

namespace Spin

def settings : SchedulerSettings := ⟨fun _ => 100, fun _ => true, false, 0, 2⟩

def target : ForcePollTarget := ⟨1, none⟩

/-- All jobs ran at 0 and are due at 100; a force poll starts in between. -/
def calls : List Call :=
  .takeDue 0 :: periodicJobs.map (fun job => .finished job 0 none) ++ [.forceTriggered target, .takeDue 0]

end Spin

/-- While the force poll runs past the collectors' time, the deadline is now. -/
theorem spins_during_force_poll :
    ((Scheduler.start 0 Spin.settings 1).run Spin.calls).state.forceRunning = some Spin.target ∧
      ¬ 100 < (((Scheduler.start 0 Spin.settings 1).run Spin.calls).state.takeDue 100).1.nextDeadline 100 := by
  decide +kernel

end Atmux.Pulse
