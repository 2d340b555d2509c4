/-
Which profiles are polled, and when.

A pass takes the profiles that are due and leases each of them until its poll
is completed or given up. `Flights` is what holds after any interleaving of
passes, forces and releases: a key is in flight exactly while a lease of it is
live. `polls_single_flight_and_paced` says it with the distance of two polls,
the cadence that an abandoned lease leaves and the bound on the entries.
-/
import Atmux.Lib.Assoc
import Atmux.Lib.Runs
import Atmux.Pulse.Model

namespace Atmux.Pulse.Polls

open Lib

/-! ## Leases -/

/-- Jiff's last millisecond. -/
def maxInstantMillis : Int := 253402207200999

def minInstantMillis : Int := -377705023201000

/-- A time in milliseconds that Jiff supports. -/
structure Instant where
  epochMillis : Int
  low : minInstantMillis ≤ epochMillis
  high : epochMillis ≤ maxInstantMillis

structure ProfileStateKey where
  accountId : AccountId
  name : ProfileName
  vendor : Vendor
  configDir : Option String
deriving DecidableEq

def ProfileStateKey.of (profile : Profile) : ProfileStateKey :=
  ⟨profile.accountId, profile.name, profile.vendor, profile.configDir⟩

inductive NativePollKind
  | usage
  | gemini
deriving DecidableEq

structure PollKey where
  profile : ProfileStateKey
  kind : NativePollKind
deriving DecidableEq

structure PollState where
  intervalMillis : Int
  lastCompletedMillis : Option Int
  inFlightGeneration : Option Nat

structure NativeState where
  polls : Assoc.Map PollKey PollState
  nextGeneration : Nat

structure PollLease where
  key : PollKey
  generation : Nat

def maxProfileStateEntries : Nat := 1024

def NativeState.new : NativeState := ⟨∅, 0⟩

def kindEntries (kind : NativePollKind) (polls : Assoc.Map PollKey PollState) : Nat :=
  Assoc.countKeys (fun key => key.kind == kind) polls

def maxMillisI64 : Int := 9223372036854775807

def saturatingAddI64 (a b : Int) : Int := max (-maxMillisI64 - 1) (min (a + b) maxMillisI64)

/-- The interval of a profile, if it is a positive `i64`. -/
def intervalMillis (profile : Profile) : Option Int :=
  let value := (profile.pollIntervalMinutes : Int) * (60 * 1000)
  if value ≤ maxMillisI64 ∧ 0 < value then some value else none

def nextGeneration (generation : Nat) : Nat := max (min (generation + 1) (2 ^ 64 - 1)) 1

/-- What becomes of one profile in a pass. -/
inductive Taken
  | failed
  | waiting
  | leased (lease : PollLease)

def isDue (collectedAt : Instant) (poll : PollState) : Bool :=
  poll.lastCompletedMillis.all fun last => decide (saturatingAddI64 last poll.intervalMillis ≤ collectedAt.epochMillis)

/-- The entry of a key, with the interval that is configured now. -/
def pollEntry (s : NativeState) (key : PollKey) (interval : Int) : PollState :=
  { (s.polls.lookup key).getD ⟨interval, none, none⟩ with intervalMillis := interval }

/-- One profile of a pass. -/
def takeProfile (kind : NativePollKind) (collectedAt : Instant) (s : NativeState) (profile : Profile) :
    NativeState × Taken :=
  match intervalMillis profile with
  | none => (s, .failed)
  | some interval =>
    let key : PollKey := ⟨.of profile, kind⟩
    if (s.polls.lookup key).isNone ∧ maxProfileStateEntries ≤ kindEntries kind s.polls then (s, .failed)
    else
      let poll := pollEntry s key interval
      if isDue collectedAt poll = false ∨ poll.inFlightGeneration.isSome then
        ({ s with polls := s.polls.insert key poll }, .waiting)
      else
        let generation := nextGeneration s.nextGeneration
        ({ polls := s.polls.insert key { poll with inFlightGeneration := some generation },
           nextGeneration := generation },
          .leased ⟨key, generation⟩)

def takeProfiles (kind : NativePollKind) (collectedAt : Instant) :
    NativeState → List Profile → NativeState × List (Profile × PollLease) × Nat
  | s, [] => (s, [], 0)
  | s, profile :: profiles =>
    match takeProfile kind collectedAt s profile with
    | (s, taken) =>
      match takeProfiles kind collectedAt s profiles, taken with
      | (s, due, failures), .failed => (s, due, failures + 1)
      | (s, due, failures), .waiting => (s, due, failures)
      | (s, due, failures), .leased lease => (s, (profile, lease) :: due, failures)

/-- A periodic pass forgets the profiles that are gone. -/
def prunePolls (profiles : List Profile) (kind : NativePollKind) (s : NativeState) : NativeState :=
  let active := profiles.map ProfileStateKey.of
  { s with polls := Assoc.retain (fun key poll => key.kind != kind || active.contains key.profile ||
      poll.inFlightGeneration.isSome) s.polls }

def takeDueProfiles (s : NativeState) (profiles : List Profile) (kind : NativePollKind) (collectedAt : Instant)
    (prune : Bool) : NativeState × List (Profile × PollLease) × Nat :=
  takeProfiles kind collectedAt (if prune then prunePolls profiles kind s else s) profiles

def forceProfilesDue (s : NativeState) (profiles : List Profile) (kind : NativePollKind) : NativeState :=
  let keys := profiles.map ProfileStateKey.of
  { s with polls := Assoc.mapValues (fun key poll =>
      if key.kind = kind ∧ key.profile ∈ keys ∧ poll.inFlightGeneration.isNone then { poll with lastCompletedMillis := none }
      else poll) s.polls }

/-- When a key was last polled, once its lease was completed or not. -/
def lastMillis (completedAt : Option Instant) (poll : PollState) : Option Int :=
  match completedAt with
  | some completedAt => some completedAt.epochMillis
  | none => poll.lastCompletedMillis

def PollState.released (completedAt : Option Instant) (poll : PollState) : PollState :=
  { poll with lastCompletedMillis := lastMillis completedAt poll, inFlightGeneration := none }

/-- A lease's `Drop`, completed at a time or not. -/
def PollLease.release (lease : PollLease) (completedAt : Option Instant) (s : NativeState) : NativeState :=
  match s.polls.lookup lease.key with
  | none => s
  | some poll =>
    if poll.inFlightGeneration ≠ some lease.generation then s
    else { s with polls := s.polls.insert lease.key (poll.released completedAt) }

/-! ## Interleavings -/

/-- The work on a leased profile, with the time of its pass. -/
structure Task where
  profile : Profile
  lease : PollLease
  collectedAt : Instant

def Task.interval (task : Task) : Int := (intervalMillis task.profile).getD 0

structure World where
  native : NativeState
  tasks : List Task

def World.new : World := ⟨.new, []⟩

inductive Label
  | pass (profiles : List Profile) (kind : NativePollKind) (collectedAt : Instant) (prune : Bool)
  | force (profiles : List Profile) (kind : NativePollKind)
  | complete (task : Task)
  | abandon (task : Task)

/-- One critical section: a pass, a force, or the release of a live lease. -/
inductive Step : World → Label → World → Prop
  | pass {w : World} (profiles : List Profile) (kind : NativePollKind) (collectedAt : Instant) (prune : Bool) :
      Step w (.pass profiles kind collectedAt prune)
        ⟨(takeDueProfiles w.native profiles kind collectedAt prune).1,
          w.tasks ++ (takeDueProfiles w.native profiles kind collectedAt prune).2.1.map
            fun (profile, lease) => ⟨profile, lease, collectedAt⟩⟩
  | force {w : World} (profiles : List Profile) (kind : NativePollKind) :
      Step w (.force profiles kind) { w with native := forceProfilesDue w.native profiles kind }
  | complete {w : World} {before after : List Task} (task : Task) (htask : w.tasks = before ++ task :: after) :
      Step w (.complete task) ⟨task.lease.release (some task.collectedAt) w.native, before ++ after⟩
  | abandon {w : World} {before after : List Task} (task : Task) (htask : w.tasks = before ++ task :: after) :
      Step w (.abandon task) ⟨task.lease.release none w.native, before ++ after⟩

/-- A force of the key, or its removal by a periodic pass. -/
def Label.Interrupts (key : PollKey) : Label → Prop
  | pass profiles kind _ prune => prune = true ∧ key.kind = kind ∧ key.profile ∉ profiles.map ProfileStateKey.of
  | force profiles kind => key.kind = kind ∧ key.profile ∈ profiles.map ProfileStateKey.of
  | _ => False

/-- When a key was last polled, as far as the entry knows. -/
def cadence (key : PollKey) (s : NativeState) : Option Int := (s.polls.lookup key).bind PollState.lastCompletedMillis

/-! ## One profile -/

section Take

variable {kind : NativePollKind} {collectedAt : Instant} {s s' : NativeState} {profile : Profile} {taken : Taken}
  {key : PollKey}

theorem intervalMillis_pos {interval : Int} (h : intervalMillis profile = some interval) :
    0 < interval ∧ interval = (profile.pollIntervalMinutes : Int) * 60000 := by
  unfold intervalMillis at h
  simp only [] at h
  split at h
  next hvalue =>
    obtain rfl := Option.some.inj h
    exact ⟨hvalue.2, by omega⟩
  next => cases h

/-- What one profile of a pass does. -/
theorem takeProfile_cases (h : takeProfile kind collectedAt s profile = (s', taken)) :
    (s' = s ∧ taken = .failed) ∨
      ∃ interval, intervalMillis profile = some interval ∧
        ((s.polls.lookup ⟨.of profile, kind⟩).isSome ∨ kindEntries kind s.polls < maxProfileStateEntries) ∧
        ((taken = .waiting ∧
            s' = { s with polls := s.polls.insert ⟨.of profile, kind⟩ (pollEntry s ⟨.of profile, kind⟩ interval) }) ∨
          (isDue collectedAt (pollEntry s ⟨.of profile, kind⟩ interval) = true ∧
            (pollEntry s ⟨.of profile, kind⟩ interval).inFlightGeneration = none ∧
            taken = .leased ⟨⟨.of profile, kind⟩, nextGeneration s.nextGeneration⟩ ∧
            s' = ⟨s.polls.insert ⟨.of profile, kind⟩
              { pollEntry s ⟨.of profile, kind⟩ interval with inFlightGeneration := some (nextGeneration s.nextGeneration) },
              nextGeneration s.nextGeneration⟩)) := by
  unfold takeProfile at h
  cases hinterval : intervalMillis profile with
  | none =>
    rw [hinterval] at h
    obtain ⟨rfl, rfl⟩ := Prod.mk.inj h
    exact .inl ⟨rfl, rfl⟩
  | some interval =>
    rw [hinterval] at h
    dsimp only at h
    split at h
    · obtain ⟨rfl, rfl⟩ := Prod.mk.inj h
      exact .inl ⟨rfl, rfl⟩
    next hroom =>
      have hentry : (s.polls.lookup ⟨.of profile, kind⟩).isSome ∨ kindEntries kind s.polls < maxProfileStateEntries := by
        by_cases hsome : (s.polls.lookup ⟨.of profile, kind⟩).isSome
        · exact .inl hsome
        · refine .inr (Nat.lt_of_not_le fun hfull => hroom ⟨?_, hfull⟩)
          simpa using hsome
      refine .inr ⟨interval, rfl, hentry, ?_⟩
      split at h
      · obtain ⟨rfl, rfl⟩ := Prod.mk.inj h
        exact .inl ⟨rfl, rfl⟩
      next hdue =>
        obtain ⟨rfl, rfl⟩ := Prod.mk.inj h
        rw [not_or] at hdue
        exact .inr ⟨by simpa using hdue.1, by simpa using hdue.2, rfl, rfl⟩

/-- The task of a profile that was leased. -/
def Taken.tasks (profile : Profile) (collectedAt : Instant) : Taken → List Task
  | .leased lease => [⟨profile, lease, collectedAt⟩]
  | _ => []

/-- What every profile of a pass preserves, the pass preserves. -/
theorem takeProfiles_induct (P : NativeState → List Task → Prop) {profiles : List Profile} (tasks : List Task)
    (hstep : ∀ profile ∈ profiles, ∀ s tasks, P s tasks →
      P (takeProfile kind collectedAt s profile).1
        (tasks ++ (takeProfile kind collectedAt s profile).2.tasks profile collectedAt))
    (h : P s tasks) :
    P (takeProfiles kind collectedAt s profiles).1
      (tasks ++ (takeProfiles kind collectedAt s profiles).2.1.map fun (profile, lease) => ⟨profile, lease, collectedAt⟩) := by
  induction profiles generalizing s tasks with
  | nil =>
    rw [takeProfiles, List.map_nil, List.append_nil]
    exact h
  | cons profile profiles ih =>
    obtain ⟨hfirst, hrest⟩ := List.forall_mem_cons.mp hstep
    have hnext := hfirst s tasks h
    rw [takeProfiles]
    split
    next s' taken htake =>
      rw [htake] at hnext
      have htail := ih _ hrest hnext
      rw [List.append_assoc] at htail
      cases taken with
      | failed => exact htail
      | waiting => exact htail
      | leased lease => exact htail

end Take

/-! ## Single flight -/

/-- A key is in flight while a lease of it is live, and each kind is bounded. -/
structure Flights (s : NativeState) (tasks : List Task) : Prop where
  live : ∀ task ∈ tasks, ∃ poll, s.polls.lookup task.lease.key = some poll ∧
    poll.inFlightGeneration = some task.lease.generation
  held : ∀ key poll generation, s.polls.lookup key = some poll → poll.inFlightGeneration = some generation →
    ∃ task ∈ tasks, task.lease = ⟨key, generation⟩
  single : tasks.Pairwise fun task task' => task.lease.key ≠ task'.lease.key
  bounded : ∀ kind, kindEntries kind s.polls ≤ maxProfileStateEntries

namespace Flights

variable {kind : NativePollKind} {collectedAt : Instant} {s : NativeState} {profile : Profile} {tasks : List Task}
  {key : PollKey}

theorem new : Flights NativeState.new [] := by
  refine ⟨fun _ h => absurd h List.not_mem_nil, ?_, List.Pairwise.nil, fun _ => Nat.zero_le _⟩
  intro key poll generation h
  cases h

theorem pollEntry_eq {s : NativeState} {key : PollKey} {interval : Int} {poll : PollState}
    (h : s.polls.lookup key = some poll) : pollEntry s key interval = { poll with intervalMillis := interval } := by
  rw [pollEntry, h]
  rfl

theorem pollEntry_fresh {s : NativeState} {key : PollKey} {interval : Int} (h : s.polls.lookup key = none) :
    pollEntry s key interval = ⟨interval, none, none⟩ := by
  rw [pollEntry, h]
  rfl

/-- What the entry of a key says of its last poll and its lease is what it said. -/
theorem pollEntry_last {interval : Int} : (pollEntry s key interval).lastCompletedMillis = cadence key s := by
  unfold cadence
  cases h : s.polls.lookup key with
  | none => rw [pollEntry_fresh h]; rfl
  | some poll => rw [pollEntry_eq h]; rfl

theorem pollEntry_inFlight {interval : Int} :
    (pollEntry s key interval).inFlightGeneration = (s.polls.lookup key).bind PollState.inFlightGeneration := by
  cases h : s.polls.lookup key with
  | none => rw [pollEntry_fresh h]; rfl
  | some poll => rw [pollEntry_eq h]; rfl

/-- An entry for a key, where there is one or room for it. -/
theorem bounded_insert (h : ∀ kind, kindEntries kind s.polls ≤ maxProfileStateEntries) {poll : PollState}
    (hentry : (s.polls.lookup key).isSome ∨ kindEntries key.kind s.polls < maxProfileStateEntries) (kind : NativePollKind) :
    kindEntries kind (s.polls.insert key poll) ≤ maxProfileStateEntries := by
  unfold kindEntries at h hentry ⊢
  cases hlookup : s.polls.lookup key with
  | some old =>
    rw [Assoc.countKeys_insert_of_some (by rw [hlookup]; rfl)]
    exact h kind
  | none =>
    rw [Assoc.countKeys_insert_of_none hlookup]
    rw [hlookup] at hentry
    have hroom := hentry.resolve_left (by simp)
    have hkind := h kind
    by_cases hsame : key.kind = kind
    · subst hsame
      simp only [beq_self_eq_true, if_true]
      omega
    · simp only [beq_iff_eq, hsame, if_false]
      omega

/-- Keys whose lookups are told apart. -/
theorem lookup_cases {k : PollKey} {poll found : PollState} (h : (s.polls.insert key poll).lookup k = some found) :
    (k = key ∧ found = poll) ∨ (k ≠ key ∧ s.polls.lookup k = some found) := by
  rw [Assoc.lookup_insert] at h
  split at h
  next hkey => exact .inl ⟨hkey, (Option.some.inj h).symm⟩
  next hkey => exact .inr ⟨hkey, h⟩

/-- An entry that is in flight as it was. -/
theorem file (h : Flights s tasks) {poll : PollState}
    (hentry : (s.polls.lookup key).isSome ∨ kindEntries key.kind s.polls < maxProfileStateEntries)
    (hflight : poll.inFlightGeneration = (s.polls.lookup key).bind PollState.inFlightGeneration) :
    Flights { s with polls := s.polls.insert key poll } tasks := by
  refine ⟨?_, ?_, h.single, bounded_insert h.bounded hentry⟩
  · intro task htask
    obtain ⟨old, hold, hgeneration⟩ := h.live task htask
    rw [Assoc.lookup_insert]
    by_cases hkey : task.lease.key = key
    · rw [if_pos hkey]
      rw [hkey] at hold
      rw [hold] at hflight
      exact ⟨poll, rfl, hflight.trans hgeneration⟩
    · rw [if_neg hkey]
      exact ⟨old, hold, hgeneration⟩
  · intro k found generation hfound hgeneration
    rcases lookup_cases hfound with ⟨rfl, rfl⟩ | ⟨_, hold⟩
    · rw [hflight] at hgeneration
      obtain ⟨old, hold, hlive⟩ := Option.bind_eq_some_iff.mp hgeneration
      exact h.held k old generation hold hlive
    · exact h.held k found generation hold hgeneration

/-- A key without a lease is leased. -/
theorem lease (h : Flights s tasks) (task : Task) {poll : PollState} {next : Nat}
    (hentry : (s.polls.lookup task.lease.key).isSome ∨ kindEntries task.lease.key.kind s.polls < maxProfileStateEntries)
    (hfree : (s.polls.lookup task.lease.key).bind PollState.inFlightGeneration = none)
    (hflight : poll.inFlightGeneration = some task.lease.generation) :
    Flights ⟨s.polls.insert task.lease.key poll, next⟩ (tasks ++ [task]) := by
  have hother : ∀ other ∈ tasks, other.lease.key ≠ task.lease.key := by
    intro other hmem hkey
    obtain ⟨old, hold, hgeneration⟩ := h.live other hmem
    rw [← hkey, hold] at hfree
    rw [Option.bind_some, hgeneration] at hfree
    cases hfree
  refine ⟨?_, ?_, ?_, bounded_insert h.bounded hentry⟩
  · intro other hmem
    rcases List.mem_append.mp hmem with hold | hnew
    · obtain ⟨old, hlookup, hgeneration⟩ := h.live other hold
      refine ⟨old, ?_, hgeneration⟩
      rw [Assoc.lookup_insert, if_neg (hother other hold)]
      exact hlookup
    · obtain rfl := List.mem_singleton.mp hnew
      refine ⟨poll, ?_, hflight⟩
      rw [Assoc.lookup_insert, if_pos rfl]
  · intro k found generation hfound hgeneration
    rcases lookup_cases hfound with ⟨rfl, rfl⟩ | ⟨_, hold⟩
    · refine ⟨task, List.mem_append_right _ (List.mem_singleton.mpr rfl), ?_⟩
      rw [hflight] at hgeneration
      rw [← Option.some.inj hgeneration]
    · obtain ⟨other, hmem, hlease⟩ := h.held k found generation hold hgeneration
      exact ⟨other, List.mem_append_left _ hmem, hlease⟩
  · refine List.pairwise_append.mpr ⟨h.single, List.pairwise_singleton _ _, ?_⟩
    intro other hmem new hnew
    obtain rfl := List.mem_singleton.mp hnew
    exact hother other hmem

theorem takeProfile (h : Flights s tasks) :
    Flights (Polls.takeProfile kind collectedAt s profile).1
      (tasks ++ (Polls.takeProfile kind collectedAt s profile).2.tasks profile collectedAt) := by
  cases htake : Polls.takeProfile kind collectedAt s profile with
  | mk s' taken =>
    rcases takeProfile_cases htake with ⟨rfl, rfl⟩ | ⟨interval, _, hentry, hcase⟩
    · simpa [Taken.tasks] using h
    · rcases hcase with ⟨rfl, rfl⟩ | ⟨_, hfree, rfl, rfl⟩
      · simp only [Taken.tasks, List.append_nil]
        exact h.file hentry pollEntry_inFlight
      · rw [pollEntry_inFlight] at hfree
        exact h.lease ⟨profile, ⟨⟨.of profile, kind⟩, _⟩, collectedAt⟩ hentry hfree rfl

theorem prunePolls (h : Flights s tasks) (profiles : List Profile) : Flights (Polls.prunePolls profiles kind s) tasks := by
  have hkept : ∀ k poll, (Polls.prunePolls profiles kind s).polls.lookup k = some poll → s.polls.lookup k = some poll := by
    intro k poll hlookup
    simp only [Polls.prunePolls, Assoc.lookup_retain] at hlookup
    exact (Option.filter_eq_some_iff.mp hlookup).1
  refine ⟨?_, ?_, h.single, ?_⟩
  · intro task htask
    obtain ⟨poll, hlookup, hgeneration⟩ := h.live task htask
    refine ⟨poll, ?_, hgeneration⟩
    simp only [Polls.prunePolls, Assoc.lookup_retain, hlookup]
    rw [Option.filter_eq_some_iff]
    exact ⟨rfl, by simp [hgeneration]⟩
  · exact fun k poll generation hlookup => h.held k poll generation (hkept k poll hlookup)
  · exact fun kind' => (Assoc.countKeys_retain_le _).trans (h.bounded kind')

theorem takeDueProfiles (h : Flights s tasks) (profiles : List Profile) (prune : Bool) :
    Flights (Polls.takeDueProfiles s profiles kind collectedAt prune).1
      (tasks ++ (Polls.takeDueProfiles s profiles kind collectedAt prune).2.1.map
        fun (profile, lease) => ⟨profile, lease, collectedAt⟩) := by
  unfold Polls.takeDueProfiles
  refine takeProfiles_induct Flights tasks (fun profile _ s tasks hflights => hflights.takeProfile) ?_
  split
  · exact h.prunePolls profiles
  · exact h

theorem forceProfilesDue (h : Flights s tasks) (profiles : List Profile) : Flights (Polls.forceProfilesDue s profiles kind) tasks := by
  refine ⟨?_, ?_, h.single, ?_⟩
  · intro task htask
    obtain ⟨poll, hlookup, hgeneration⟩ := h.live task htask
    simp only [Polls.forceProfilesDue, Assoc.lookup_mapValues, hlookup, Option.map_some]
    refine ⟨_, rfl, ?_⟩
    split
    · exact hgeneration
    · exact hgeneration
  · intro k poll generation hlookup hgeneration
    simp only [Polls.forceProfilesDue, Assoc.lookup_mapValues] at hlookup
    obtain ⟨old, hold, rfl⟩ := Option.map_eq_some_iff.mp hlookup
    refine h.held k old generation hold ?_
    split at hgeneration
    · exact hgeneration
    · exact hgeneration
  · intro kind'
    have hbounded := h.bounded kind'
    unfold kindEntries at hbounded ⊢
    simp only [Polls.forceProfilesDue, Assoc.countKeys_mapValues]
    exact hbounded

/-- What the release of a live lease does. -/
theorem release_eq (h : Flights s tasks) {task : Task} (htask : task ∈ tasks) (completedAt : Option Instant) :
    ∃ poll, s.polls.lookup task.lease.key = some poll ∧ task.lease.release completedAt s =
      { s with polls := s.polls.insert task.lease.key (poll.released completedAt) } := by
  obtain ⟨poll, hlookup, hgeneration⟩ := h.live task htask
  refine ⟨poll, hlookup, ?_⟩
  simp only [PollLease.release, hlookup, hgeneration, ne_eq, not_true_eq_false, if_false]

theorem release {before after : List Task} {task : Task} (h : Flights s (before ++ task :: after))
    (completedAt : Option Instant) : Flights (task.lease.release completedAt s) (before ++ after) := by
  have hmem : task ∈ before ++ task :: after := by simp
  obtain ⟨poll, hlookup, hrelease⟩ := h.release_eq hmem completedAt
  have hrest : ∀ other ∈ before ++ after, other ∈ before ++ task :: after ∧ other.lease.key ≠ task.lease.key := by
    have hsingle := (List.pairwise_append.mp h.single)
    intro other hother
    rcases List.mem_append.mp hother with hbefore | hafter
    · exact ⟨List.mem_append_left _ hbefore, hsingle.2.2 other hbefore task List.mem_cons_self⟩
    · exact ⟨List.mem_append_right _ (List.mem_cons_of_mem _ hafter),
        ((List.pairwise_cons.mp hsingle.2.1).1 other hafter).symm⟩
  rw [hrelease]
  refine ⟨?_, ?_, ?_, bounded_insert h.bounded (.inl (by rw [hlookup]; rfl))⟩
  · intro other hother
    obtain ⟨hold, hkey⟩ := hrest other hother
    obtain ⟨old, hlookup', hgeneration⟩ := h.live other hold
    refine ⟨old, ?_, hgeneration⟩
    rw [Assoc.lookup_insert, if_neg hkey]
    exact hlookup'
  · intro k found generation hfound hgeneration
    rcases lookup_cases hfound with ⟨rfl, rfl⟩ | ⟨hkey, hold⟩
    · cases hgeneration
    · obtain ⟨other, hother, hlease⟩ := h.held k found generation hold hgeneration
      refine ⟨other, ?_, hlease⟩
      rcases List.mem_append.mp hother with hbefore | hafter
      · exact List.mem_append_left _ hbefore
      · rcases List.mem_cons.mp hafter with rfl | hafter
        · rw [hlease] at hkey
          exact absurd rfl hkey
        · exact List.mem_append_right _ hafter
  · exact h.single.sublist (List.Sublist.append_left (List.sublist_cons_self _ _) _)

theorem step {w w' : World} {label : Label} (h : Flights w.native w.tasks) (hstep : Step w label w') :
    Flights w'.native w'.tasks := by
  cases hstep with
  | pass profiles kind collectedAt prune => exact h.takeDueProfiles profiles prune
  | force profiles kind => exact h.forceProfilesDue profiles
  | complete task htask =>
    rw [htask] at h
    exact h.release _
  | abandon task htask =>
    rw [htask] at h
    exact h.release _

theorem run {labels : List Label} {w : World} (h : Run Step World.new labels w) : Flights w.native w.tasks :=
  h.invariant (I := fun w => Flights w.native w.tasks) (fun hflights hstep => hflights.step hstep) new

/-- The release of a lease that is not live changes nothing. -/
theorem release_stale (h : Flights s tasks) {lease : PollLease} (hstale : ∀ task ∈ tasks, task.lease ≠ lease)
    (completedAt : Option Instant) : lease.release completedAt s = s := by
  unfold PollLease.release
  split
  · rfl
  next poll hlookup =>
    split
    · rfl
    next hgeneration =>
      obtain ⟨task, htask, hlease⟩ := h.held lease.key poll lease.generation hlookup (by simpa using hgeneration)
      exact absurd hlease (hstale task htask)

end Flights

/-! ## Cadence -/

section Cadence

variable {kind : NativePollKind} {collectedAt : Instant} {s : NativeState} {profile : Profile} {tasks : List Task}
  {key : PollKey}

theorem cadence_insert {k : PollKey} {poll : PollState} {next : Nat} :
    cadence key ⟨s.polls.insert k poll, next⟩ = if key = k then poll.lastCompletedMillis else cadence key s := by
  unfold cadence
  rw [Assoc.lookup_insert]
  split
  · rfl
  · rfl

/-- To take a profile moves no cadence. -/
theorem cadence_takeProfile : cadence key (takeProfile kind collectedAt s profile).1 = cadence key s := by
  cases htake : takeProfile kind collectedAt s profile with
  | mk s' taken =>
    rcases takeProfile_cases htake with ⟨rfl, rfl⟩ | ⟨interval, _, _, ⟨rfl, rfl⟩ | ⟨_, _, rfl, rfl⟩⟩
    · rfl
    · rw [cadence_insert]
      split
      next hkey => rw [Flights.pollEntry_last, hkey]
      next => rfl
    · rw [cadence_insert]
      split
      next hkey =>
        rw [hkey]
        exact Flights.pollEntry_last
      next => rfl

theorem cadence_takeProfiles (profiles : List Profile) :
    cadence key (takeProfiles kind collectedAt s profiles).1 = cadence key s :=
  takeProfiles_induct (fun s' _ => cadence key s' = cadence key s) [] (fun _ _ _ _ h => cadence_takeProfile.trans h) rfl

theorem cadence_prunePolls {profiles : List Profile}
    (h : key.kind ≠ kind ∨ key.profile ∈ profiles.map ProfileStateKey.of ∨
      ∃ poll, s.polls.lookup key = some poll ∧ poll.inFlightGeneration.isSome) :
    cadence key (prunePolls profiles kind s) = cadence key s := by
  unfold cadence
  simp only [prunePolls, Assoc.lookup_retain]
  cases hlookup : s.polls.lookup key with
  | none => rfl
  | some poll =>
    have hkept : (key.kind != kind || (profiles.map ProfileStateKey.of).contains key.profile ||
        poll.inFlightGeneration.isSome) = true := by
      simp only [Bool.or_eq_true, bne_iff_ne, ne_eq, List.contains_iff_mem]
      rcases h with hkind | hactive | ⟨found, hfound, hlive⟩
      · exact .inl (.inl hkind)
      · exact .inl (.inr hactive)
      · rw [hlookup] at hfound
        obtain rfl := Option.some.inj hfound
        exact .inr hlive
    rw [Option.filter_some, if_pos hkept]

theorem cadence_takeDueProfiles {profiles : List Profile} {prune : Bool}
    (h : prune = true → key.kind ≠ kind ∨ key.profile ∈ profiles.map ProfileStateKey.of ∨
      ∃ poll, s.polls.lookup key = some poll ∧ poll.inFlightGeneration.isSome) :
    cadence key (takeDueProfiles s profiles kind collectedAt prune).1 = cadence key s := by
  rw [takeDueProfiles, cadence_takeProfiles]
  split
  next hprune => exact cadence_prunePolls (h hprune)
  next => rfl

theorem cadence_forceProfilesDue {profiles : List Profile}
    (h : key.kind ≠ kind ∨ key.profile ∉ profiles.map ProfileStateKey.of ∨
      ∃ poll, s.polls.lookup key = some poll ∧ poll.inFlightGeneration.isSome) :
    cadence key (forceProfilesDue s profiles kind) = cadence key s := by
  unfold cadence
  simp only [forceProfilesDue, Assoc.lookup_mapValues]
  cases hlookup : s.polls.lookup key with
  | none => rfl
  | some poll =>
    have hkept : ¬ (key.kind = kind ∧ key.profile ∈ profiles.map ProfileStateKey.of ∧ poll.inFlightGeneration.isNone) := by
      intro hforced
      obtain ⟨hkind, hmem, hidle⟩ := hforced
      rcases h with hother | hsubset | ⟨found, hfound, hlive⟩
      · exact hother hkind
      · exact hsubset hmem
      · rw [hlookup] at hfound
        obtain rfl := Option.some.inj hfound
        rw [Option.isNone_iff_eq_none] at hidle
        rw [hidle] at hlive
        cases hlive
    rw [Option.map_some, if_neg hkept]

/-- The release of a live lease sets its own key's cadence only. -/
theorem cadence_release (h : Flights s tasks) {task : Task} (htask : task ∈ tasks) (completedAt : Option Instant) :
    cadence key (task.lease.release completedAt s) =
      if key = task.lease.key then (match completedAt with
        | some completedAt => some completedAt.epochMillis
        | none => cadence key s) else cadence key s := by
  obtain ⟨poll, hlookup, hrelease⟩ := h.release_eq htask completedAt
  rw [hrelease, cadence_insert]
  split
  next hkey =>
    cases completedAt with
    | some completedAt => rfl
    | none =>
      rw [cadence, hkey, hlookup]
      rfl
  next => rfl

/-- A pass leases profiles that it was given. -/
theorem mem_takeProfiles {profiles : List Profile} {task : Task}
    (h : task ∈ (takeProfiles kind collectedAt s profiles).2.1.map fun (profile, lease) => ⟨profile, lease, collectedAt⟩) :
    task.lease.key.kind = kind ∧ task.lease.key.profile ∈ profiles.map ProfileStateKey.of := by
  refine takeProfiles_induct (fun _ tasks => ∀ task ∈ tasks,
    task.lease.key.kind = kind ∧ task.lease.key.profile ∈ profiles.map ProfileStateKey.of) [] ?_ ?_ task h
  · intro profile hprofile s tasks htasks task htask
    rcases List.mem_append.mp htask with hold | hnew
    · exact htasks task hold
    · cases htake : takeProfile kind collectedAt s profile with
      | mk s' taken =>
        rw [htake] at hnew
        rcases takeProfile_cases htake with ⟨_, rfl⟩ | ⟨_, _, _, ⟨rfl, _⟩ | ⟨_, _, rfl, _⟩⟩
        · cases hnew
        · cases hnew
        · obtain rfl := List.mem_singleton.mp hnew
          exact ⟨rfl, List.mem_map_of_mem hprofile⟩
  · exact fun _ hnone => absurd hnone List.not_mem_nil

end Cadence

/-! ## Distance of two polls -/

theorem Task.interval_nonneg (task : Task) : 0 ≤ task.interval := by
  unfold Task.interval
  cases hinterval : intervalMillis task.profile with
  | none => exact le_refl 0
  | some interval => exact (intervalMillis_pos hinterval).1.le

/-- What is known of a key since a poll of it that was completed at a time. -/
structure Paced (key : PollKey) (start : Int) (s : NativeState) (tasks : List Task) : Prop where
  entry : ∃ last, cadence key s = some last ∧ start ≤ last
  tasks : ∀ task ∈ tasks, task.lease.key = key → start + task.interval ≤ task.collectedAt.epochMillis

namespace Paced

variable {kind : NativePollKind} {collectedAt : Instant} {s : NativeState} {tasks : List Task} {key : PollKey} {start : Int}

theorem mem_of_rest {before after : List Task} {task other : Task} (h : other ∈ before ++ after) :
    other ∈ before ++ task :: after := by
  simp only [List.mem_append, List.mem_cons] at h ⊢
  rcases h with hbefore | hafter
  · exact .inl hbefore
  · exact .inr (.inr hafter)

/-- A sum that saturates is not past. -/
theorem add_le_of_saturating {last interval : Int} (h : saturatingAddI64 last interval ≤ collectedAt.epochMillis) :
    last + interval ≤ collectedAt.epochMillis := by
  have hhigh := collectedAt.high
  simp only [saturatingAddI64, maxMillisI64, maxInstantMillis] at h hhigh
  omega

theorem takeProfile {profile : Profile} (h : Paced key start s tasks) :
    Paced key start (Polls.takeProfile kind collectedAt s profile).1
      (tasks ++ (Polls.takeProfile kind collectedAt s profile).2.tasks profile collectedAt) := by
  obtain ⟨last, hlast, hstart⟩ := h.entry
  refine ⟨⟨last, cadence_takeProfile.trans hlast, hstart⟩, ?_⟩
  intro task htask hkey
  rcases List.mem_append.mp htask with hold | hnew
  · exact h.tasks task hold hkey
  · cases htake : Polls.takeProfile kind collectedAt s profile with
    | mk s' taken =>
      rw [htake] at hnew
      rcases takeProfile_cases htake with ⟨_, rfl⟩ | ⟨interval, hinterval, _, ⟨rfl, _⟩ | ⟨hdue, _, rfl, _⟩⟩
      · cases hnew
      · cases hnew
      · obtain rfl := List.mem_singleton.mp hnew
        obtain rfl : ⟨.of profile, kind⟩ = key := hkey
        have hentry : (pollEntry s ⟨.of profile, kind⟩ interval).lastCompletedMillis = some last :=
          Flights.pollEntry_last.trans hlast
        have hpast : last + interval ≤ collectedAt.epochMillis := by
          rw [isDue, hentry, Option.all_some, decide_eq_true_eq] at hdue
          exact add_le_of_saturating hdue
        have hsame : intervalMillis profile = some interval := hinterval
        simp only [Task.interval, hsame, Option.getD_some]
        omega

theorem step {w w' : World} {label : Label} (hflights : Flights w.native w.tasks) (h : Paced key start w.native w.tasks)
    (hstep : Step w label w') (hkept : ¬ label.Interrupts key) : Paced key start w'.native w'.tasks := by
  obtain ⟨last, hlast, hstart⟩ := h.entry
  cases hstep with
  | pass profiles kind collectedAt prune =>
    refine takeProfiles_induct (Paced key start) w.tasks (fun profile _ s tasks hpaced => hpaced.takeProfile) ?_
    refine ⟨⟨last, ?_, hstart⟩, h.tasks⟩
    rw [← hlast]
    split
    next hprune =>
      refine cadence_prunePolls ?_
      by_contra hgone
      simp only [not_or] at hgone
      exact hkept ⟨hprune, not_not.mp hgone.1, hgone.2.1⟩
    next => rfl
  | force profiles kind =>
    refine ⟨⟨last, ?_, hstart⟩, h.tasks⟩
    rw [← hlast]
    refine cadence_forceProfilesDue ?_
    by_contra hforced
    simp only [not_or, not_not] at hforced
    exact hkept ⟨hforced.1, hforced.2.1⟩
  | @complete before after task htask =>
    have hmem : task ∈ w.tasks := by rw [htask]; simp
    refine ⟨?_, fun other hother => h.tasks other (htask ▸ mem_of_rest hother)⟩
    simp only [cadence_release hflights hmem]
    split
    next hkey =>
      have hpaced := h.tasks task hmem hkey.symm
      have hnonneg := task.interval_nonneg
      exact ⟨_, rfl, by omega⟩
    next => exact ⟨last, hlast, hstart⟩
  | @abandon before after task htask =>
    have hmem : task ∈ w.tasks := by rw [htask]; simp
    refine ⟨?_, fun other hother => h.tasks other (htask ▸ mem_of_rest hother)⟩
    simp only [cadence_release hflights hmem, ite_self]
    exact ⟨last, hlast, hstart⟩

theorem run {w w' : World} {labels : List Label} (hflights : Flights w.native w.tasks)
    (h : Paced key start w.native w.tasks) (hrun : Run Step w labels w') (hkept : ∀ label ∈ labels, ¬ label.Interrupts key) :
    Paced key start w'.native w'.tasks := by
  induction hrun with
  | nil => exact h
  | cons hstep _ ih =>
    obtain ⟨hfirst, hrest⟩ := List.forall_mem_cons.mp hkept
    exact ih (hflights.step hstep) (h.step hflights hstep hfirst) hrest

/-- A completed poll paces its key. -/
theorem complete {w w' : World} {task : Task} (hflights : Flights w.native w.tasks) (hstep : Step w (.complete task) w') :
    Paced task.lease.key task.collectedAt.epochMillis w'.native w'.tasks := by
  cases hstep with
  | @complete before after task htask =>
    have hmem : task ∈ w.tasks := by rw [htask]; simp
    have hsingle := hflights.single
    rw [htask, List.pairwise_append, List.pairwise_cons] at hsingle
    refine ⟨⟨task.collectedAt.epochMillis, ?_, le_refl _⟩, ?_⟩
    · rw [cadence_release hflights hmem, if_pos rfl]
    · intro other hother hkey
      rcases List.mem_append.mp hother with hbefore | hafter
      · exact absurd hkey (hsingle.2.2 other hbefore task List.mem_cons_self)
      · exact absurd hkey.symm (hsingle.2.1.1 other hafter)

end Paced

/-! ## Abandoned leases -/

def Label.Releases (task : Task) : Label → Prop
  | complete released => released = task
  | abandon released => released = task
  | _ => False

section Abandon

variable {w w' : World} {label : Label} {task : Task}

theorem live_inFlight (h : Flights w.native w.tasks) (htask : task ∈ w.tasks) :
    ∃ poll, w.native.polls.lookup task.lease.key = some poll ∧ poll.inFlightGeneration.isSome := by
  obtain ⟨poll, hlookup, hgeneration⟩ := h.live task htask
  exact ⟨poll, hlookup, by rw [hgeneration]; rfl⟩

/-- While a lease is live, its key's cadence stays. -/
theorem live_step (h : Flights w.native w.tasks) (htask : task ∈ w.tasks) (hstep : Step w label w')
    (hkept : ¬ label.Releases task) :
    task ∈ w'.tasks ∧ cadence task.lease.key w'.native = cadence task.lease.key w.native := by
  have hlive := live_inFlight h htask
  have hother : ∀ before after released completedAt, w.tasks = before ++ released :: after → released ≠ task →
      task ∈ before ++ after ∧
        cadence task.lease.key (released.lease.release completedAt w.native) = cadence task.lease.key w.native := by
    intro before after released completedAt hsplit hne
    have hmem : task ∈ before ++ released :: after := hsplit ▸ htask
    have hsingle := h.single
    rw [hsplit, List.pairwise_append, List.pairwise_cons] at hsingle
    have hkey : task.lease.key ≠ released.lease.key ∧ task ∈ before ++ after := by
      rcases List.mem_append.mp hmem with hbefore | hafter
      · exact ⟨hsingle.2.2 task hbefore released List.mem_cons_self, List.mem_append_left _ hbefore⟩
      · rcases List.mem_cons.mp hafter with heq | hafter
        · exact absurd heq.symm hne
        · exact ⟨(hsingle.2.1.1 task hafter).symm, List.mem_append_right _ hafter⟩
    exact ⟨hkey.2, by rw [cadence_release h (by rw [hsplit]; simp), if_neg hkey.1]⟩
  cases hstep with
  | pass profiles kind collectedAt prune =>
    exact ⟨List.mem_append_left _ htask, cadence_takeDueProfiles fun _ => .inr (.inr hlive)⟩
  | force profiles kind => exact ⟨htask, cadence_forceProfilesDue (.inr (.inr hlive))⟩
  | complete released hsplit => exact hother _ _ _ _ hsplit hkept
  | abandon released hsplit => exact hother _ _ _ _ hsplit hkept

theorem live_run {labels : List Label} (h : Flights w.native w.tasks) (htask : task ∈ w.tasks) (hrun : Run Step w labels w')
    (hkept : ∀ label ∈ labels, ¬ label.Releases task) :
    Flights w'.native w'.tasks ∧ task ∈ w'.tasks ∧ cadence task.lease.key w'.native = cadence task.lease.key w.native := by
  induction hrun with
  | nil => exact ⟨h, htask, rfl⟩
  | cons hstep _ ih =>
    obtain ⟨hfirst, hrest⟩ := List.forall_mem_cons.mp hkept
    obtain ⟨hmem, hcadence⟩ := live_step h htask hstep hfirst
    obtain ⟨hflights, hlast, hsame⟩ := ih (h.step hstep) hmem hrest
    exact ⟨hflights, hlast, hsame.trans hcadence⟩

/-- To lease a key moves no cadence. -/
theorem lease_cadence {profiles : List Profile} {kind : NativePollKind} {collectedAt : Instant} {prune : Bool}
    (hstep : Step w (.pass profiles kind collectedAt prune) w') (htask : task ∈ w'.tasks) (hnew : task ∉ w.tasks) :
    cadence task.lease.key w'.native = cadence task.lease.key w.native := by
  cases hstep with
  | pass =>
    refine cadence_takeDueProfiles fun _ => .inr (.inl ?_)
    rcases List.mem_append.mp htask with hold | hleased
    · exact absurd hold hnew
    · exact (mem_takeProfiles hleased).2

/-- An abandoned lease moves no cadence. -/
theorem abandon_cadence (h : Flights w.native w.tasks) (hstep : Step w (.abandon task) w') (key : PollKey) :
    cadence key w'.native = cadence key w.native := by
  cases hstep with
  | abandon task htask =>
    rw [cadence_release h (by rw [htask]; simp)]
    exact ite_self _

end Abandon

/-! ## Every interleaving -/

/-- What holds in a state of the polls. -/
structure Lawful (w : World) : Prop where
  /-- At most one lease of a key is live. -/
  single : w.tasks.Pairwise fun task task' => task.lease.key ≠ task'.lease.key
  /-- A lease that is no longer live changes nothing, ... -/
  stale : ∀ lease, (∀ task ∈ w.tasks, task.lease ≠ lease) → ∀ completedAt, lease.release completedAt w.native = w.native
  /-- ... and one that is live changes no other's entry. -/
  apart : ∀ task ∈ w.tasks, ∀ other ∈ w.tasks, other.lease.key ≠ task.lease.key → ∀ completedAt,
    (task.lease.release completedAt w.native).polls.lookup other.lease.key = w.native.polls.lookup other.lease.key
  bounded : ∀ kind, kindEntries kind w.native.polls ≤ maxProfileStateEntries
  /-- Two completed polls of a key are an interval apart. -/
  paced : ∀ first second middle w₁ w₂ w₃, Step w (.complete first) w₁ → Run Step w₁ middle w₂ →
    Step w₂ (.complete second) w₃ → second.lease.key = first.lease.key →
    (∀ label ∈ middle, ¬ label.Interrupts first.lease.key) →
    first.collectedAt.epochMillis + second.interval ≤ second.collectedAt.epochMillis
  /-- A lease that is taken and abandoned leaves the cadence as it was. -/
  abandoned : ∀ profiles kind collectedAt prune task middle w₁ w₂ w₃, Step w (.pass profiles kind collectedAt prune) w₁ →
    task ∈ w₁.tasks → task ∉ w.tasks → Run Step w₁ middle w₂ → (∀ label ∈ middle, ¬ label.Releases task) →
    Step w₂ (.abandon task) w₃ → cadence task.lease.key w₃.native = cadence task.lease.key w.native

/-- **Provider polls are single-flight and paced** in every interleaving of
passes, forces and releases. -/
theorem polls_single_flight_and_paced {labels : List Label} {w : World} (h : Run Step World.new labels w) : Lawful w := by
  have hflights := Flights.run h
  refine ⟨hflights.single, fun lease hstale completedAt => hflights.release_stale hstale completedAt, ?_,
    hflights.bounded, ?_, ?_⟩
  · intro task htask other _ hkey completedAt
    obtain ⟨poll, _, hrelease⟩ := hflights.release_eq htask completedAt
    rw [hrelease, Assoc.lookup_insert, if_neg hkey]
  · intro first second middle w₁ w₂ w₃ hfirst hmiddle hsecond hkey hkept
    have hpaced := Paced.complete hflights hfirst
    have hlater := hpaced.run (hflights.step hfirst) hmiddle hkept
    cases hsecond with
    | complete second hsplit => exact hlater.tasks second (by rw [hsplit]; simp) hkey
  · intro profiles kind collectedAt prune task middle w₁ w₂ w₃ hpass htask hnew hmiddle hkept habandon
    have hflights₁ := hflights.step hpass
    obtain ⟨hflights₂, _, hsame⟩ := live_run hflights₁ htask hmiddle hkept
    calc cadence task.lease.key w₃.native = cadence task.lease.key w₂.native := abandon_cadence hflights₂ habandon _
      _ = cadence task.lease.key w₁.native := hsame
      _ = cadence task.lease.key w.native := lease_cadence hpass htask hnew

private def codexProfile : Profile where
  accountId := firstAccount
  name := workProfile
  vendor := .openaiCodex
  configDir := some "/tmp/work"
  pollIntervalMinutes := 15
  monthlyBudgetUsd := none
  apiKeyEnv := none
  apiKeyFile := none
  refresh := .never
  hidden := false
  origin := .local

private def firstAt : Instant := ⟨1000, by decide, by decide⟩

private def firstTask : Task := ⟨codexProfile, ⟨⟨.of codexProfile, .usage⟩, 1⟩, firstAt⟩

/-- A profile that was polled once. -/
theorem polls_single_flight_and_paced_example : ∃ w, cadence firstTask.lease.key w.native = some 1000 ∧ Lawful w := by
  have hpass : Step World.new (.pass [codexProfile] .usage firstAt true) _ := .pass _ _ _ _
  have htasks : World.new.tasks ++ (takeDueProfiles World.new.native [codexProfile] .usage firstAt true).2.1.map
      (fun (profile, lease) => ⟨profile, lease, firstAt⟩) = [] ++ firstTask :: [] := rfl
  have hrun := Run.cons hpass (Run.single (Step.complete firstTask htasks))
  refine ⟨_, ?_, polls_single_flight_and_paced hrun⟩
  decide +kernel

end Atmux.Pulse.Polls
