/-
One bounded, jittered scheduler for all collection work.

`ScheduleState` is the source's state with its operations; times are its
64-bit milliseconds. `Scheduler` adds the tasks the loop has spawned and not
yet joined, so a run is any sequence of the loop's calls in which a job is
finished only when it runs. `takePeriodic_spec` says once what the pass over
the periodic jobs does, and `Scheduled` is what every run keeps.
-/
import Mathlib.Data.Prod.Lex
import Mathlib.Data.String.Basic
import Mathlib.Order.WithBot
import Mathlib.Logic.Function.Basic
import Mathlib.Data.List.Sort

namespace Atmux.Pulse

/-! ## Jobs -/

/-- Target for one operator-triggered collection pass. -/
structure ForcePollTarget where
  accountId : Nat
  profile : Option String
deriving DecidableEq, Repr

/-- The derived order: by account, then all profiles before one. -/
def ForcePollTarget.key (target : ForcePollTarget) : ℕ ×ₗ WithBot String := toLex (target.accountId, target.profile)

theorem ForcePollTarget.key_injective : Function.Injective ForcePollTarget.key := by
  rintro ⟨account, profile⟩ ⟨account', profile'⟩ h
  obtain ⟨haccount, hprofile⟩ := Prod.mk.inj (toLex.injective h)
  exact congrArg₂ _ haccount hprofile

instance : LinearOrder ForcePollTarget := LinearOrder.lift' ForcePollTarget.key ForcePollTarget.key_injective

/-- Work categories owned by the scheduler. -/
inductive PulseJob
  | usage
  | context
  | tokens
  | gemini
  | retention
  | completionPush
  | forcePoll (target : ForcePollTarget)
deriving DecidableEq, Repr

def PulseJob.periodicIndex : PulseJob → Option (Fin 5)
  | .usage => some 0
  | .context => some 1
  | .tokens => some 2
  | .gemini => some 3
  | .retention => some 4
  | .completionPush | .forcePoll _ => none

def periodicJobs : List PulseJob := [.usage, .context, .tokens, .gemini, .retention]

structure JobReport where
  attempted : Nat
  succeeded : Nat
  failed : Nat
deriving DecidableEq, Repr

/-! ## Settings and times -/

def maxConcurrency : Nat := 8

def idleWakeMillis : UInt64 := 24 * 60 * 60 * 1000

def maxMillis : UInt64 := 18446744073709551615

def saturatingAdd (a b : UInt64) : UInt64 := if a.toNat + b.toNat < UInt64.size then a + b else maxMillis

def saturatingSub (a b : UInt64) : UInt64 := if b ≤ a then a - b else 0

def saturatingMul (a b : UInt64) : UInt64 := if a.toNat * b.toNat < UInt64.size then a * b else maxMillis

def rotateLeft (value : UInt64) (bits : UInt64) : UInt64 := (value <<< bits) ||| (value >>> (64 - bits))

def splitmix64 (value : UInt64) : UInt64 :=
  let value := value + 0x9e3779b97f4a7c15
  let value := (value ^^^ (value >>> 30)) * 0xbf58476d1ce4e5b9
  let value := (value ^^^ (value >>> 27)) * 0x94d049bb133111eb
  value ^^^ (value >>> 31)

def jitteredInterval (interval jitterPercent sample : UInt64) : UInt64 :=
  let spread := saturatingMul interval jitterPercent / 100
  if spread = 0 then interval
  else
    let width := saturatingAdd (saturatingMul spread 2) 1
    let position := splitmix64 sample % width
    if spread ≤ position then saturatingAdd interval (position - spread)
    else saturatingSub interval (spread - position)

structure SchedulerSettings where
  intervalsMillis : Fin 5 → UInt64
  enabled : Fin 5 → Bool
  completionAfterCollection : Bool
  jitterPercent : UInt64
  maxConcurrency : Nat

def SchedulerSettings.new (intervalsMillis : Fin 5 → UInt64) (jitterPercent : UInt64) (maxConcurrency : Nat) :
    Except String SchedulerSettings :=
  if ∃ index, intervalsMillis index = 0 then .error "Pulse scheduler intervals must be nonzero"
  else if 50 < jitterPercent then .error "Pulse scheduler jitter cannot exceed 50 percent"
  else if maxConcurrency < 1 ∨ Pulse.maxConcurrency < maxConcurrency then
    .error "Pulse scheduler concurrency must be between 1 and 8"
  else .ok ⟨intervalsMillis, fun _ => true, false, jitterPercent, maxConcurrency⟩

def SchedulerSettings.withCapabilities (settings : SchedulerSettings) (collect completionAfterCollection : Bool) :
    SchedulerSettings :=
  { settings with
    enabled := fun index => if index = 4 then true else collect
    completionAfterCollection := collect && completionAfterCollection }

def SchedulerSettings.isEnabled (settings : SchedulerSettings) (job : PulseJob) : Bool :=
  match job.periodicIndex with
  | some index => settings.enabled index
  | none => true

/-! ## The schedule -/

structure JobState where
  running : Bool
  nextDueMillis : UInt64
  generation : UInt64
deriving DecidableEq, Repr

/-- The queue of force polls is an ordered set: ascending, without repeats. -/
structure ScheduleState where
  periodic : Fin 5 → JobState
  completionRunning : Bool
  completionQueued : Bool
  forceRunning : Option ForcePollTarget
  forceQueued : List ForcePollTarget
  settings : SchedulerSettings
  jitterSeed : UInt64

namespace ScheduleState

def new (nowMillis : UInt64) (settings : SchedulerSettings) (jitterSeed : UInt64) : ScheduleState where
  periodic index := ⟨false, if settings.enabled index then nowMillis else maxMillis, 0⟩
  completionRunning := false
  completionQueued := false
  forceRunning := none
  forceQueued := []
  settings
  jitterSeed

variable (s : ScheduleState)

/-- One pass of the loop over the periodic jobs. -/
def takeJob (nowMillis : UInt64) (taken : ScheduleState × List PulseJob) (job : PulseJob) :
    ScheduleState × List PulseJob :=
  let (s, due) := taken
  if !s.settings.isEnabled job then (s, due)
  else if s.forceRunning.isSome && job ≠ .retention then (s, due)
  else
    match job.periodicIndex with
    | none => (s, due)
    | some index =>
      let state := s.periodic index
      if !state.running && state.nextDueMillis ≤ nowMillis then
        ({ s with periodic := Function.update s.periodic index ({ state with running := true }) }, due ++ [job])
      else (s, due)

def completionReady : Bool :=
  s.completionQueued && !s.completionRunning && !(List.finRange 5).any (fun index => (s.periodic index).running) &&
    s.forceRunning.isNone

def forceReady : Bool :=
  !s.forceQueued.isEmpty && s.forceRunning.isNone && !s.completionRunning &&
    !(List.finRange 5).any (fun index => index < 4 && (s.periodic index).running)

def takeCompletion (due : List PulseJob) : ScheduleState × List PulseJob :=
  if s.completionReady then
    ({ s with completionQueued := false, completionRunning := true }, due ++ [.completionPush])
  else (s, due)

def takeForce (due : List PulseJob) : ScheduleState × List PulseJob :=
  if s.forceReady then
    match s.forceQueued with
    | [] => (s, due)
    | target :: queued =>
      ({ s with forceRunning := some target, forceQueued := queued }, due ++ [.forcePoll target])
  else (s, due)

def takeDue (nowMillis : UInt64) : ScheduleState × List PulseJob :=
  let (s, due) := periodicJobs.foldl (takeJob nowMillis) (s, [])
  let (s, due) := s.takeCompletion due
  s.takeForce due

def completionTriggered : ScheduleState := { s with completionQueued := true }

def forceTriggered (target : ForcePollTarget) : ScheduleState :=
  if s.forceRunning ≠ some target ∧ target ∉ s.forceQueued then
    { s with forceQueued := s.forceQueued.orderedInsert (· ≤ ·) target }
  else s

def collectionFinishedWithRows (job : PulseJob) (report : Option JobReport) : ScheduleState :=
  let collects := match job with
    | .usage | .context | .tokens | .gemini | .forcePoll _ => true
    | _ => false
  if s.settings.completionAfterCollection && collects && report.any (fun report => 0 < report.succeeded) then
    s.completionTriggered
  else s

def finished (job : PulseJob) (finishedMillis : UInt64) : ScheduleState :=
  match job.periodicIndex with
  | some index =>
    let state := s.periodic index
    let generation := saturatingAdd state.generation 1
    let jittered := jitteredInterval (s.settings.intervalsMillis index) s.settings.jitterPercent
      (s.jitterSeed ^^^ UInt64.ofNat index ^^^ rotateLeft generation 17)
    let state := { state with running := false, generation, nextDueMillis := saturatingAdd finishedMillis jittered }
    { s with periodic := Function.update s.periodic index state }
  | none =>
    match job with
    | .completionPush => { s with completionRunning := false }
    | _ => { s with forceRunning := none }

def nextDeadline (nowMillis : UInt64) : UInt64 :=
  if s.completionReady || s.forceReady then nowMillis
  else
    let waiting := (List.finRange 5).filter fun index => !(s.periodic index).running
    (waiting.map fun index => (s.periodic index).nextDueMillis).min?.getD (saturatingAdd nowMillis idleWakeMillis)

/-! ## What a call of `takeDue` does -/

/-- The periodic jobs the pass takes. -/
def isDue (nowMillis : UInt64) (job : PulseJob) : Bool :=
  match job.periodicIndex with
  | none => false
  | some index =>
    s.settings.enabled index && (s.forceRunning.isNone || job = .retention) && !(s.periodic index).running &&
      (s.periodic index).nextDueMillis ≤ nowMillis

/-- The job of an index. -/
def jobAt (index : Fin 5) : PulseJob := periodicJobs.get index

@[simp] theorem periodicIndex_jobAt (index : Fin 5) : (jobAt index).periodicIndex = some index := by
  revert index
  decide

theorem jobAt_eq_retention : ∀ index : Fin 5, jobAt index = .retention ↔ ¬ index < 4 := by decide

theorem eq_jobAt {job : PulseJob} {index : Fin 5} (h : job.periodicIndex = some index) : job = jobAt index := by
  cases job <;> simp only [PulseJob.periodicIndex, reduceCtorEq, Option.some.injEq] at h <;> subst h <;> rfl

/-- The state with some more periodic jobs running. -/
def withRunning (taken : Fin 5 → Bool) : ScheduleState :=
  { s with periodic := fun index =>
      if taken index then { s.periodic index with running := true } else s.periodic index }

theorem withRunning_withRunning (taken taken' : Fin 5 → Bool) :
    (s.withRunning taken).withRunning taken' = s.withRunning fun index => taken index || taken' index := by
  simp only [withRunning]
  congr 1
  funext index
  cases taken index <;> cases taken' index <;> rfl

theorem takeJob_eq (nowMillis : UInt64) (due : List PulseJob) (index : Fin 5) :
    takeJob nowMillis (s, due) (jobAt index) =
      if s.isDue nowMillis (jobAt index) then (s.withRunning fun other => other = index, due ++ [jobAt index])
      else (s, due) := by
  have hupdate : Function.update s.periodic index ({ s.periodic index with running := true }) =
      fun other => if other = index then { s.periodic other with running := true } else s.periodic other := by
    funext other
    by_cases hother : other = index
    · subst hother
      simp
    · simp [hother]
  simp only [takeJob, isDue, SchedulerSettings.isEnabled, periodicIndex_jobAt, withRunning, hupdate, decide_eq_true_eq]
  cases s.settings.enabled index <;> cases s.forceRunning <;> by_cases jobAt index = .retention <;> simp_all

theorem isDue_withRunning {nowMillis : UInt64} {taken : Fin 5 → Bool} {index : Fin 5} (h : taken index = false) :
    (s.withRunning taken).isDue nowMillis (jobAt index) = s.isDue nowMillis (jobAt index) := by
  simp [isDue, withRunning, h]

/-- The pass over the periodic jobs starts the ones that are due, each once. -/
theorem takePeriodic_spec (nowMillis : UInt64) (indices : List (Fin 5)) (hnodup : indices.Nodup) (due : List PulseJob) :
    (indices.map jobAt).foldl (takeJob nowMillis) (s, due) =
      (s.withRunning fun index => index ∈ indices ∧ s.isDue nowMillis (jobAt index) = true,
        due ++ (indices.map jobAt).filter (s.isDue nowMillis)) := by
  induction indices generalizing s due with
  | nil => simp [withRunning]
  | cons index indices ih =>
    obtain ⟨hfresh, hnodup⟩ := List.nodup_cons.1 hnodup
    rw [List.map_cons, List.foldl_cons, takeJob_eq, List.filter_cons]
    cases hdue : s.isDue nowMillis (jobAt index) with
    | false =>
      rw [if_neg (by simp), if_neg (by simp), ih s hnodup]
      congr 2
      funext other
      by_cases hother : other = index
      · subst hother
        simp [hdue, hfresh]
      · simp [hother]
    | true =>
      have hrest : ∀ other ∈ indices,
          (s.withRunning fun other => other = index).isDue nowMillis (jobAt other) = s.isDue nowMillis (jobAt other) := by
        intro other hmem
        have hother : other ≠ index := fun heq => hfresh (heq ▸ hmem)
        exact s.isDue_withRunning (by simp [hother])
      rw [if_pos rfl, if_pos rfl, ih _ hnodup]
      refine Prod.ext ?_ ?_
      · simp only [withRunning_withRunning]
        congr 1
        funext other
        by_cases hother : other = index
        · subst hother
          simp [hdue]
        · by_cases hmem : other ∈ indices
          · simp [hother, hmem, hrest other hmem]
          · simp [hother, hmem]
      · have hfilter : (indices.map jobAt).filter ((s.withRunning fun other => other = index).isDue nowMillis) =
            (indices.map jobAt).filter (s.isDue nowMillis) := by
          refine List.filter_congr fun job hjob => ?_
          obtain ⟨other, hmem, rfl⟩ := List.mem_map.1 hjob
          exact hrest other hmem
        simp [hfilter]

theorem takePeriodic_eq (nowMillis : UInt64) :
    periodicJobs.foldl (takeJob nowMillis) (s, []) =
      (s.withRunning fun index => s.isDue nowMillis (jobAt index), periodicJobs.filter (s.isDue nowMillis)) := by
  have hjobs : periodicJobs = (List.finRange 5).map jobAt := by decide
  have hspec := s.takePeriodic_spec nowMillis (List.finRange 5) (List.nodup_finRange 5) []
  simpa [hjobs] using hspec

/-- A call starts what is due, then a completion push, then a force poll. -/
theorem takeDue_eq (nowMillis : UInt64) :
    s.takeDue nowMillis =
      (((s.withRunning fun index => s.isDue nowMillis (jobAt index)).takeCompletion
        (periodicJobs.filter (s.isDue nowMillis))).1.takeForce
      ((s.withRunning fun index => s.isDue nowMillis (jobAt index)).takeCompletion
        (periodicJobs.filter (s.isDue nowMillis))).2) := by
  rw [takeDue, takePeriodic_eq]

@[simp] theorem takeCompletion_forceQueued (due : List PulseJob) :
    (s.takeCompletion due).1.forceQueued = s.forceQueued := by
  unfold takeCompletion
  split <;> rfl

@[simp] theorem takeCompletion_periodic (due : List PulseJob) : (s.takeCompletion due).1.periodic = s.periodic := by
  unfold takeCompletion
  split <;> rfl

@[simp] theorem takeForce_periodic (due : List PulseJob) : (s.takeForce due).1.periodic = s.periodic := by
  unfold takeForce
  repeat' split
  all_goals rfl

end ScheduleState

end Atmux.Pulse
