/-
A saved conversation has at most one live launch, as long as nobody gives back
another's reservation.

Three things can be held: a reservation of a process, the lock of a lease's
file, and the entry that keeps the file open. Every task's share of them adds
up to what the world says is out (`act_balance`), so one attempt at most is
past the file's lock, and tmux showed it no pane with the lease (`Kept`).

`release` after a kill gives back whatever attempt holds the lease by then.
The runs here are those where it finds none (`Undisturbed`); without that, two
attempts launch one conversation (`two_launches_after_kill`).
-/
import Atmux.ResumeLease.Lease

namespace Atmux.ResumeLease

open Lib

inductive Resource
  | reservation (process : Nat) (lease : String)
  | file (lease : String)
  | entry (process : Nat) (lease : String)
deriving DecidableEq

/-- tmux showed no pane with the lease, and the attempt made none. -/
def Phase.clears : Phase → Bool
  | .cleared | .held | .launching | .creating _ => true
  | _ => false

/-- What a task holds, the latest first. -/
def Task.held : Task → List Resource
  | .guarding .reserved attempt => [.reservation attempt.process attempt.lease]
  | .guarding .locked attempt | .guarding .cleared attempt | .taken attempt =>
    [.file attempt.lease, .reservation attempt.process attempt.lease]
  | .guarding _ attempt =>
    [.entry attempt.process attempt.lease, .file attempt.lease, .reservation attempt.process attempt.lease]
  | .detachedLocked lease => [.file lease]
  | _ => []

def World.out (w : World) : Resource → Bool
  | .reservation process lease => lease ∈ (w.procs process).inFlight
  | .file lease => lease ∈ w.locked
  | .entry process lease => lease ∈ (w.procs process).processLocks

def Task.share (k : Resource) (task : Task) : Nat := task.held.count k

def World.total (k : Resource) (w : World) : Nat := (w.out k).toNat

structure Sound (w : World) : Prop where
  ids : (w.panes.map Pane.id).Nodup
  fresh : ∀ pane ∈ w.panes, pane.id < w.nextPane
  carriers : ∀ lease, w.carriers lease ≤ 1
  entry : ∀ process lease, w.out (.entry process lease) = true → w.out (.reservation process lease) = true

/-- What an attempt relies on: its process has no entry for the lease before
it makes it, and tmux no pane while it has the file and made none. -/
def Task.Kept (w : World) : Task → Prop
  | .guarding phase attempt =>
    (phase ∈ [Phase.reserved, .locked, .cleared] → w.out (.entry attempt.process attempt.lease) = false) ∧
      (phase.clears = true → w.carriers attempt.lease = 0)
  | .taken attempt => w.out (.entry attempt.process attempt.lease) = false
  | _ => True

/-! ## Turns that disturb nobody -/

/-- A release gives back no attempt's reservation. -/
def Task.Spares (w : World) : Task → Prop
  | .releasing process lease => lease ∉ (w.procs process).inFlight
  | _ => True

instance (w : World) : (task : Task) → Decidable (task.Spares w)
  | .releasing process lease => inferInstanceAs (Decidable (lease ∉ (w.procs process).inFlight))
  | .attempting _ | .guarding .. | .taken _ | .detached _ | .detachedLocked _ | .refreshing _ | .observing ..
  | .killing .. | .exiting _ => .isTrue trivial

def Undisturbed (pool : Pool World Task) : Turn Request Answer → Prop
  | .call _ => True
  | .advance index _ => ∀ task ∈ pool.tasks[index]?, task.Spares pool.world

instance (pool : Pool World Task) : (turn : Turn Request Answer) → Decidable (Undisturbed pool turn)
  | .call _ => .isTrue trivial
  | .advance index _ => inferInstanceAs (Decidable (∀ task ∈ pool.tasks[index]?, task.Spares pool.world))

/-- Every turn of a run. -/
def UndisturbedRun (pool : Pool World Task) : List (Turn Request Answer) → Prop
  | [] => True
  | turn :: turns => Undisturbed pool turn ∧ UndisturbedRun (pool.turn enter act turn) turns

instance decidableUndisturbedRun : (pool : Pool World Task) → (turns : List (Turn Request Answer)) →
    Decidable (UndisturbedRun pool turns)
  | _, [] => .isTrue trivial
  | pool, turn :: turns =>
    have := decidableUndisturbedRun (pool.turn enter act turn) turns
    inferInstanceAs (Decidable (Undisturbed pool turn ∧ UndisturbedRun (pool.turn enter act turn) turns))

/-- One turn, where a release waits for the attempt that holds the lease. -/
def actUndisturbed (answer : Answer) (w : World) (task : Task) : World × List Task :=
  match task with
  | .releasing process lease =>
    if lease ∈ (w.procs process).inFlight then (w, [.releasing process lease]) else (w.release process lease, [])
  | task => act answer w task

theorem turn_undisturbed {pool : Pool World Task} {turn : Turn Request Answer} (h : Undisturbed pool turn) :
    pool.turn enter act turn = pool.turn enter actUndisturbed turn := by
  cases turn with
  | call => rfl
  | advance index answer =>
    simp only [Pool.turn]
    split
    · rfl
    next task hget =>
      have hact : act answer pool.world task = actUndisturbed answer pool.world task := by
        cases task with
        | releasing process lease =>
          simp only [act, actUndisturbed, if_neg (show lease ∉ _ from h _ hget)]
        | _ => rfl
      rw [hact]

theorem run_undisturbed {pool : Pool World Task} {turns : List (Turn Request Answer)}
    (h : UndisturbedRun pool turns) : pool.run enter act turns = pool.run enter actUndisturbed turns := by
  induction turns generalizing pool with
  | nil => rfl
  | cons turn turns ih =>
    obtain ⟨hturn, hturns⟩ := h
    simp only [Pool.run, List.foldl_cons] at ih ⊢
    rw [← turn_undisturbed hturn]
    exact ih hturns

/-! ## What is out -/

section
variable {w : World} {process : Nat} {lease : String} {k : Resource}

/-- Where the world's states of a process change, and where not. -/
theorem procs_setProc (w : World) (process other : Nat) (s : ResumeLeaseState) :
    (w.setProc process s).procs other = if process = other then s else w.procs other := by
  by_cases h : process = other
  · subst h
    simp [World.setProc]
  · simp [World.setProc, h, Function.update_of_ne (Ne.symm h)]

theorem reserve_free {s : ResumeLeaseState} (h : (w.procs process).reserve lease = some s) :
    w.out (.reservation process lease) = false := by
  unfold ResumeLeaseState.reserve at h
  split at h
  · cases h
  next hfree =>
    rw [not_or] at hfree
    simpa [World.out] using hfree.1

theorem out_reserve {s : ResumeLeaseState} (h : (w.procs process).reserve lease = some s) (k : Resource) :
    (w.setProc process s).out k = (w.out k || k = .reservation process lease) := by
  unfold ResumeLeaseState.reserve at h
  split at h
  · cases h
  obtain rfl := Option.some.inj h
  cases k with
  | reservation p l =>
    simp only [World.out, procs_setProc]
    by_cases hp : process = p
    · subst hp
      by_cases hl : l = lease <;> simp [hl]
    · simp [hp, Ne.symm hp]
  | file l =>
    simp only [reduceCtorEq, decide_false, Bool.or_false]
    rfl
  | entry p l =>
    simp only [World.out, procs_setProc]
    by_cases hp : process = p
    · subst hp
      simp
    · simp [hp]

theorem out_hold (w : World) (process : Nat) (lease : String) (k : Resource) :
    (w.setProc process ((w.procs process).holdProcessLock lease)).out k = (w.out k || k = .entry process lease) := by
  cases k with
  | reservation p l =>
    simp only [World.out, procs_setProc]
    by_cases hp : process = p
    · subst hp
      simp [ResumeLeaseState.holdProcessLock]
    · simp [hp]
  | file l =>
    simp only [reduceCtorEq, decide_false, Bool.or_false]
    rfl
  | entry p l =>
    simp only [World.out, procs_setProc]
    by_cases hp : process = p
    · subst hp
      by_cases hl : l = lease <;> simp [ResumeLeaseState.holdProcessLock, hl]
    · simp [hp, Ne.symm hp]

theorem out_observe (w : World) (process : Nat) (leases : Finset String) (k : Resource) :
    (w.setProc process ((w.procs process).observe leases)).out k = w.out k := by
  cases k with
  | reservation p l | entry p l =>
    simp only [World.out, procs_setProc]
    by_cases hp : process = p
    · subst hp
      simp [ResumeLeaseState.observe]
    · simp [hp]
  | file l => rfl

theorem out_lock (w : World) (lease : String) (k : Resource) :
    ({ w with locked := insert lease w.locked } : World).out k = (w.out k || k = .file lease) := by
  cases k with
  | reservation p l | entry p l =>
    simp only [reduceCtorEq, decide_false, Bool.or_false]
    rfl
  | file l => by_cases hl : l = lease <;> simp [World.out, hl]

theorem out_unlock (w : World) (lease : String) (k : Resource) :
    (w.unlock lease).out k = (w.out k && !decide (k = .file lease)) := by
  cases k with
  | reservation p l | entry p l =>
    simp only [reduceCtorEq, decide_false, Bool.not_false, Bool.and_true]
    rfl
  | file l => by_cases hl : l = lease <;> simp [World.out, World.unlock, hl]

/-- What goes back with a lease of a process: its reservation, its entry, and
the file's lock when the entry kept it. -/
def freed (w : World) (process : Nat) (lease : String) (k : Resource) : Bool :=
  k = .reservation process lease ∨ k = .entry process lease ∨
    k = .file lease ∧ w.out (.entry process lease) = true

theorem out_release (w : World) (process : Nat) (lease : String) (k : Resource) :
    (w.release process lease).out k = (w.out k && !freed w process lease k) := by
  cases k with
  | reservation p l =>
    have hprocs := procs_setProc w process p ((w.procs process).release lease)
    simp only [World.out, World.release, hprocs, freed]
    by_cases hp : process = p
    · subst hp
      by_cases hl : l = lease <;> simp [ResumeLeaseState.release, hl]
    · simp [hp, Ne.symm hp]
  | file l =>
    simp only [World.out, World.release, World.dropLock, freed]
    by_cases hentry : lease ∈ (w.procs process).processLocks
    · by_cases hl : l = lease <;> simp [hentry, hl]
    · simp [hentry]
  | entry p l =>
    have hprocs := procs_setProc w process p ((w.procs process).release lease)
    simp only [World.out, World.release, hprocs, freed]
    by_cases hp : process = p
    · subst hp
      by_cases hl : l = lease <;> simp [ResumeLeaseState.release, hl]
    · simp [hp, Ne.symm hp]

theorem out_activate (w : World) (process : Nat) (lease : String) (k : Resource) :
    (w.activate process lease).out k = (w.release process lease).out k := by
  have hprocs : ∀ p, ((w.activate process lease).procs p).inFlight = ((w.release process lease).procs p).inFlight ∧
      ((w.activate process lease).procs p).processLocks = ((w.release process lease).procs p).processLocks := by
    intro p
    have hactivate := procs_setProc w process p ((w.procs process).activate lease)
    have hrelease := procs_setProc w process p ((w.procs process).release lease)
    simp only [World.activate, World.release, hactivate, hrelease]
    by_cases hp : process = p
    · simp [hp, ResumeLeaseState.activate, ResumeLeaseState.release]
    · simp [hp]
  cases k with
  | reservation p l => simp only [World.out, (hprocs p).1]
  | file l => rfl
  | entry p l => simp only [World.out, (hprocs p).2]

end

/-! ## Shares -/

section
variable {held : List Resource} {out out' : Resource → Bool} {r : Resource}

/-- A task that ends gives back what it held. -/
theorem count_ended (hle : ∀ k, held.count k ≤ (out k).toNat) (h : ∀ k, out' k = (out k && !decide (k ∈ held)))
    (k : Resource) : (out k).toNat = held.count k + (out' k).toNat := by
  have hone := Bool.toNat_le (out k)
  have hlek := hle k
  rw [h]
  by_cases hk : k ∈ held
  · have hpos := List.one_le_count_iff.mpr hk
    simp only [hk, decide_true, Bool.not_true, Bool.and_false, Bool.toNat_false]
    omega
  · simp [hk, List.count_eq_zero.mpr hk]

/-- A task that goes on gets what was free. -/
theorem count_gained (hfree : out r = false) (h : ∀ k, out' k = (out k || decide (k = r))) (k : Resource) :
    (r :: held).count k + (out k).toNat = held.count k + (out' k).toNat := by
  rw [h, List.count_cons]
  by_cases hk : k = r
  · subst hk
    simp [hfree]
  · have hne : ¬ r = k := fun heq => hk heq.symm
    simp [hk, hne]

/-- A task that goes on gives one thing back. -/
theorem count_lost (hle : (r :: held).count r ≤ (out r).toNat) (h : ∀ k, out' k = (out k && !decide (k = r)))
    (k : Resource) : held.count k + (out k).toNat = (r :: held).count k + (out' k).toNat := by
  have hone := Bool.toNat_le (out r)
  rw [List.count_cons_self] at hle
  rw [h]
  by_cases hk : k = r
  · subst hk
    rw [List.count_cons_self]
    simp only [decide_true, Bool.not_true, Bool.and_false, Bool.toNat_false]
    omega
  · rw [List.count_cons_of_ne fun heq => hk heq.symm]
    simp [hk]

end

section
variable {w : World}

theorem freed_of_entry {process : Nat} {lease : String} (h : w.out (.entry process lease) = true) (k : Resource) :
    freed w process lease k =
      decide (k ∈ [Resource.entry process lease, .file lease, .reservation process lease]) := by
  simp only [freed, h, and_true, List.mem_cons, List.not_mem_nil, or_false]
  congr 1
  exact propext ⟨fun h => by tauto, fun h => by tauto⟩

/-- Without an entry, a reservation is all that goes back. -/
theorem out_release_of_no_entry {process : Nat} {lease : String} (h : w.out (.entry process lease) = false)
    (k : Resource) :
    (w.release process lease).out k = (w.out k && !decide (k ∈ [Resource.reservation process lease])) := by
  rw [out_release]
  by_cases hk : k = .entry process lease
  · subst hk
    simp [h]
  · simp [freed, h, hk]

/-- Both the file's lock and the reservation. -/
theorem out_unlock_release {process : Nat} {lease : String} (h : w.out (.entry process lease) = false) (k : Resource) :
    ((w.unlock lease).release process lease).out k =
      (w.out k && !decide (k ∈ [Resource.file lease, .reservation process lease])) := by
  have hentry : (w.unlock lease).out (.entry process lease) = false := by
    rw [out_unlock, h]
    rfl
  rw [out_release_of_no_entry hentry, out_unlock]
  by_cases hk : k = .file lease <;> simp [hk]

theorem out_create (w : World) (name : String) (k : Resource) : (w.create name).out k = w.out k := by
  cases k <;> rfl

theorem out_publish (w : World) (lease : String) (pane : Nat) (k : Resource) : (w.publish lease pane).out k = w.out k := by
  cases k <;> rfl

theorem out_killSession (w : World) (name : String) (k : Resource) : (w.killSession name).out k = w.out k := by
  cases k <;> rfl

/-- A launch that gives up gives back what its lease holds. -/
theorem giveUp_out (answer : Answer) (w : World) (attempt : Attempt) (pane : Nat) (k : Resource) :
    (giveUp answer w attempt pane).1.out k = (w.release attempt.process attempt.lease).out k := by
  have hkilled : ∀ k, (w.killPane pane).out k = w.out k := fun k => by cases k <;> rfl
  have hfreed : freed (w.killPane pane) attempt.process attempt.lease k = freed w attempt.process attempt.lease k := by
    simp only [freed, hkilled]
  unfold giveUp
  split
  · rfl
  · rw [out_release, out_release, hkilled, hfreed]

/-- The reservations, locks and entries of the tasks are those that are out. -/
theorem act_balance (k : Resource) (answer : Answer) (task : Task) (hs : Sound w) (hk : task.Kept w)
    (hshare : ∀ k, task.share k ≤ w.total k) :
    ((actUndisturbed answer w task).2.map (Task.share k)).sum + w.total k =
      task.share k + (actUndisturbed answer w task).1.total k := by
  have hsame : ∀ {w' : World} {next : Task}, (∀ k, w'.out k = w.out k) → next.held = task.held →
      ([next].map (Task.share k)).sum + w.total k = task.share k + w'.total k := by
    intro w' next h hheld
    simp [Task.share, World.total, h, hheld]
  have hended : ∀ {w' : World} {nexts : List Task}, (∀ next ∈ nexts, next.held = []) →
      (∀ k, w'.out k = (w.out k && !decide (k ∈ task.held))) →
      (nexts.map (Task.share k)).sum + w.total k = task.share k + w'.total k := by
    intro w' nexts hidle h
    have hzero : (nexts.map (Task.share k)).sum = 0 := by
      rw [List.sum_eq_zero_iff]
      intro n hn
      obtain ⟨next, hnext, rfl⟩ := List.mem_map.mp hn
      simp [Task.share, hidle next hnext]
    rw [hzero, Nat.zero_add]
    exact count_ended hshare h k
  have hgained : ∀ {w' : World} {next : Task} (r : Resource), next.held = r :: task.held → w.out r = false →
      (∀ k, w'.out k = (w.out k || decide (k = r))) →
      ([next].map (Task.share k)).sum + w.total k = task.share k + w'.total k := by
    intro w' next r hheld hfree h
    simpa [Task.share, World.total, hheld] using count_gained hfree h k
  have hlost : ∀ {w' : World} {next : Task} (r : Resource), task.held.Perm (r :: next.held) →
      (∀ k, w'.out k = (w.out k && !decide (k = r))) →
      ([next].map (Task.share k)).sum + w.total k = task.share k + w'.total k := by
    intro w' next r hperm h
    have hle := hshare r
    simp only [Task.share, hperm.count_eq] at hle
    simpa [Task.share, World.total, hperm.count_eq] using count_lost hle h k
  have hnone : ∀ next ∈ ([] : List Task), next.held = [] := fun _ h => (by cases h)
  have hidle : ∀ {w' : World}, (∀ k, w'.out k = w.out k) → task.held = [] →
      ∀ k, w'.out k = (w.out k && !decide (k ∈ task.held)) := by
    intro w' h hheld k
    simp [h, hheld]
  cases task with
  | attempting attempt =>
    simp only [actUndisturbed, act]
    split
    · exact hended hnone (hidle (fun _ => rfl) rfl)
    next s hreserve =>
      exact hgained (.reservation attempt.process attempt.lease) rfl (reserve_free hreserve) (out_reserve hreserve)
  | guarding phase attempt =>
    -- an attempt with an entry gives all three back
    have hreleased : (Task.guarding phase attempt).held =
        [.entry attempt.process attempt.lease, .file attempt.lease, .reservation attempt.process attempt.lease] →
        ∀ k, (w.release attempt.process attempt.lease).out k =
          (w.out k && !decide (k ∈ (Task.guarding phase attempt).held)) := by
      intro hheld k
      have hle := hshare (.entry attempt.process attempt.lease)
      have hentry : w.out (.entry attempt.process attempt.lease) = true := by
        simp only [Task.share, World.total, hheld, List.count_cons_self] at hle
        cases hout : w.out (.entry attempt.process attempt.lease) with
        | true => rfl
        | false => simp [hout] at hle
      rw [out_release, freed_of_entry hentry, hheld]
    cases phase with
    | reserved =>
      have hentry := hk.1 (by decide)
      have hrelease := out_release_of_no_entry hentry
      cases answer with
      | done =>
        simp only [actUndisturbed, act]
        split
        · exact hended hnone hrelease
        next hfree => exact hgained (.file attempt.lease) rfl (by simpa [World.out] using hfree) (out_lock w attempt.lease)
      | cancelled => exact hended (fun next hnext => by rw [List.mem_singleton.mp hnext]; rfl) hrelease
      | failed | abandoned => exact hended hnone hrelease
    | locked =>
      have hentry := hk.1 (by decide)
      cases answer with
      | done =>
        simp only [actUndisturbed, act]
        split <;> exact hsame (fun _ => rfl) rfl
      | cancelled =>
        refine hlost (.reservation attempt.process attempt.lease) (.swap ..) fun k => ?_
        have hrelease := out_release_of_no_entry hentry k
        simp only [List.mem_singleton] at hrelease
        exact hrelease
      | failed | abandoned => exact hended hnone (out_unlock_release hentry)
    | cleared =>
      have hentry := hk.1 (by decide)
      simp only [actUndisturbed, act]
      split
      · exact hended hnone (out_unlock_release hentry)
      · exact hgained (.entry attempt.process attempt.lease) rfl hentry (out_hold w attempt.process attempt.lease)
    | held =>
      simp only [actUndisturbed, act]
      split
      · exact hsame (fun _ => rfl) rfl
      · exact hended hnone (hreleased rfl)
    | launching =>
      simp only [actUndisturbed, act]
      split
      · exact hsame (out_create w attempt.name) rfl
      · exact hended hnone (hreleased rfl)
    | creating pane =>
      simp only [actUndisturbed, act]
      split
      · exact hsame (out_publish w attempt.lease pane) rfl
      · exact hended hnone fun k => (giveUp_out answer w attempt pane k).trans (hreleased rfl k)
    | published pane =>
      simp only [actUndisturbed, act]
      split
      · exact hended hnone fun k => (out_activate w attempt.process attempt.lease k).trans (hreleased rfl k)
      · exact hended hnone fun k => (giveUp_out answer w attempt pane k).trans (hreleased rfl k)
  | taken attempt =>
    have hentry : w.out (.entry attempt.process attempt.lease) = false := hk
    simp only [actUndisturbed, act]
    split
    · exact hended hnone (out_unlock_release hentry)
    · exact hended hnone fun k => (out_activate (w.unlock attempt.lease) attempt.process attempt.lease k).trans
        (out_unlock_release hentry k)
  | detached lease =>
    simp only [actUndisturbed, act]
    split
    next hfree => exact hgained (.file lease) rfl (by simpa [World.out] using hfree.2) (out_lock w lease)
    · exact hended hnone (hidle (fun _ => rfl) rfl)
  | detachedLocked lease =>
    refine hended hnone fun k => ?_
    simp only [Task.held, List.mem_singleton]
    exact out_unlock w lease k
  | refreshing process => exact hsame (fun _ => rfl) rfl
  | observing process leases => exact hended hnone (hidle (out_observe w process leases) rfl)
  | killing process name lease =>
    simp only [actUndisturbed, act]
    split
    · refine hended (fun next hnext => ?_) (hidle (out_killSession w name) rfl)
      obtain ⟨l, -, rfl⟩ := Option.map_eq_some_iff.mp (Option.mem_toList.mp hnext)
      rfl
    · exact hended hnone (hidle (fun _ => rfl) rfl)
  | releasing process lease =>
    simp only [actUndisturbed]
    split
    · exact hsame (fun _ => rfl) rfl
    next hfree =>
      have hreservation : w.out (.reservation process lease) = false := by
        simpa [World.out] using hfree
      have hentry : w.out (.entry process lease) = false := by
        cases hout : w.out (.entry process lease) with
        | false => rfl
        | true => rw [hs.entry process lease hout] at hreservation; cases hreservation
      refine hended hnone (hidle (fun k => ?_) rfl)
      rw [out_release_of_no_entry hentry]
      by_cases hk : k = .reservation process lease
      · subst hk
        simp [hreservation]
      · simp [hk]
  | exiting name => exact hended hnone (hidle (out_killSession w name) rfl)

/-! ## Panes that carry a lease -/

theorem carriers_create (w : World) (name lease : String) : (w.create name).carriers lease = w.carriers lease := by
  simp [World.carriers, World.create]

theorem carriers_publish_of_ne (w : World) {lease other : String} (pane : Nat) (hne : other ≠ lease) :
    (w.publish other pane).carriers lease ≤ w.carriers lease := by
  simp only [World.carriers, World.publish, List.countP_map]
  refine List.countP_mono_left fun p _ h => ?_
  by_cases hp : p.id = pane
  · simp [hp, hne] at h
  · simpa [hp] using h

/-- One pane is set, so one pane carries a lease that none carried. -/
theorem carriers_publish (hids : (w.panes.map Pane.id).Nodup) {lease : String} (pane : Nat)
    (hzero : w.carriers lease = 0) : (w.publish lease pane).carriers lease ≤ 1 := by
  have hnone : ∀ p ∈ w.panes, p.lease ≠ some lease := by
    intro p hp heq
    have hno := List.countP_eq_zero.mp hzero p hp
    simp [heq] at hno
  have hcount : (w.publish lease pane).carriers lease = (w.panes.map Pane.id).count pane := by
    simp only [World.carriers, World.publish, List.countP_map, List.count]
    refine List.countP_congr fun p hp => ?_
    by_cases hid : p.id = pane
    · simp [hid]
    · simp [hid, hnone p hp]
  rw [hcount]
  exact List.nodup_iff_count_le_one.mp hids pane

/-- A turn makes one pane, sets the lease of one, or at most loses some. -/
theorem act_panes (answer : Answer) (w : World) (task : Task) :
    (∃ p, (actUndisturbed answer w task).1.panes = w.panes.filter p ∧
        (actUndisturbed answer w task).1.nextPane = w.nextPane) ∨
      (∃ name, (actUndisturbed answer w task).1.panes = (w.create name).panes ∧
        (actUndisturbed answer w task).1.nextPane = w.nextPane + 1) ∨
      ∃ pane attempt, task = .guarding (.creating pane) attempt ∧
        (actUndisturbed answer w task).1.panes = (w.publish attempt.lease pane).panes ∧
        (actUndisturbed answer w task).1.nextPane = w.nextPane := by
  have hsame : ∀ {w' : World}, w'.panes = w.panes → w'.nextPane = w.nextPane →
      ∃ p, w'.panes = w.panes.filter p ∧ w'.nextPane = w.nextPane :=
    fun hpanes hnext => ⟨fun _ => true, by rw [hpanes, List.filter_true], hnext⟩
  have hgiveUp : ∀ attempt pane, ∃ p, (giveUp answer w attempt pane).1.panes = w.panes.filter p ∧
      (giveUp answer w attempt pane).1.nextPane = w.nextPane := by
    intro attempt pane
    unfold giveUp
    split
    · exact hsame rfl rfl
    · exact ⟨_, rfl, rfl⟩
  cases task with
  | attempting attempt =>
    simp only [actUndisturbed, act]
    split <;> exact .inl (hsame rfl rfl)
  | guarding phase attempt =>
    cases phase with
    | reserved | locked =>
      cases answer <;> simp only [actUndisturbed, act]
      · split <;> exact .inl (hsame rfl rfl)
      all_goals exact .inl (hsame rfl rfl)
    | cleared | held =>
      simp only [actUndisturbed, act]
      split <;> exact .inl (hsame rfl rfl)
    | launching =>
      simp only [actUndisturbed, act]
      split
      · exact .inr (.inl ⟨attempt.name, rfl, rfl⟩)
      · exact .inl (hsame rfl rfl)
    | creating pane =>
      simp only [actUndisturbed, act]
      split
      · exact .inr (.inr ⟨pane, attempt, rfl, rfl, rfl⟩)
      · exact .inl (hgiveUp attempt pane)
    | published pane =>
      simp only [actUndisturbed, act]
      split
      · exact .inl (hsame rfl rfl)
      · exact .inl (hgiveUp attempt pane)
  | taken attempt =>
    simp only [actUndisturbed, act]
    split <;> exact .inl (hsame rfl rfl)
  | detached lease =>
    simp only [actUndisturbed, act]
    split <;> exact .inl (hsame rfl rfl)
  | detachedLocked | refreshing | observing => exact .inl (hsame rfl rfl)
  | killing process name lease =>
    simp only [actUndisturbed, act]
    split
    · exact .inl ⟨_, rfl, rfl⟩
    · exact .inl (hsame rfl rfl)
  | releasing process lease =>
    simp only [actUndisturbed]
    split <;> exact .inl (hsame rfl rfl)
  | exiting name => exact .inl ⟨_, rfl, rfl⟩

/-- Only an attempt that publishes its lease makes panes carry it. -/
theorem act_carriers (answer : Answer) (w : World) (task : Task) (lease : String) :
    (actUndisturbed answer w task).1.carriers lease ≤ w.carriers lease ∨
      ∃ pane attempt, task = .guarding (.creating pane) attempt ∧ attempt.lease = lease ∧
        (actUndisturbed answer w task).1.carriers lease = (w.publish attempt.lease pane).carriers lease := by
  rcases act_panes answer w task with ⟨p, hpanes, -⟩ | ⟨name, hpanes, -⟩ | ⟨pane, attempt, rfl, hpanes, -⟩
  · refine .inl ?_
    rw [World.carriers, hpanes]
    exact (List.filter_sublist ..).countP_le
  · refine .inl ?_
    rw [World.carriers, hpanes]
    exact (carriers_create w name lease).le
  · have hcarriers : ∀ l, (actUndisturbed answer w (.guarding (.creating pane) attempt)).1.carriers l =
        (w.publish attempt.lease pane).carriers l := by
      intro l
      rw [World.carriers, hpanes, World.carriers]
    by_cases hlease : attempt.lease = lease
    · exact .inr ⟨pane, attempt, rfl, hlease, hcarriers lease⟩
    · refine .inl ?_
      rw [hcarriers]
      exact carriers_publish_of_ne w pane hlease

/-! ## What a turn keeps -/

/-- What one turn does to the leases of the processes: nothing, one more
reservation, one more entry, or one lease of one process given back. -/
theorem act_out (answer : Answer) (w : World) (task : Task) :
    (∀ k, (∀ l, k ≠ .file l) → (actUndisturbed answer w task).1.out k = w.out k) ∨
      (∃ p l, ∀ k, (∀ l, k ≠ .file l) →
        (actUndisturbed answer w task).1.out k = (w.out k || decide (k = .reservation p l))) ∨
      (∃ attempt, task = .guarding .cleared attempt ∧ ∀ k, (∀ l, k ≠ .file l) →
        (actUndisturbed answer w task).1.out k = (w.out k || decide (k = .entry attempt.process attempt.lease))) ∨
      ∃ p l, ∀ k, (∀ l, k ≠ .file l) → (actUndisturbed answer w task).1.out k =
        (w.out k && !decide (k = .reservation p l) && !decide (k = .entry p l)) := by
  have hreleased : ∀ {w' : World} {p l}, (∀ k, (∀ l, k ≠ .file l) → w'.out k = w.out k) → ∀ k, (∀ l, k ≠ .file l) →
      (w'.release p l).out k = (w.out k && !decide (k = .reservation p l) && !decide (k = .entry p l)) := by
    intro w' p l hsame k hk
    rw [out_release, hsame k hk]
    simp [freed, hk, Bool.and_assoc]
  have hunlocked : ∀ l k, (∀ l, k ≠ .file l) → (w.unlock l).out k = w.out k := by
    intro l k hk
    rw [out_unlock]
    simp [hk]
  have hgiveUp : ∀ {attempt pane}, ∀ k, (∀ l, k ≠ .file l) → (giveUp answer w attempt pane).1.out k =
      (w.out k && !decide (k = .reservation attempt.process attempt.lease) &&
        !decide (k = .entry attempt.process attempt.lease)) := by
    intro attempt pane k hk
    rw [giveUp_out, hreleased (fun _ _ => rfl) k hk]
  cases task with
  | attempting attempt =>
    simp only [actUndisturbed, act]
    split
    · exact .inl fun _ _ => rfl
    next s hreserve => exact .inr (.inl ⟨_, _, fun k _ => out_reserve hreserve k⟩)
  | guarding phase attempt =>
    cases phase with
    | reserved =>
      cases answer <;> simp only [actUndisturbed, act]
      · split
        · exact .inr (.inr (.inr ⟨_, _, hreleased fun _ _ => rfl⟩))
        · refine .inl fun k hk => ?_
          rw [out_lock]
          simp [hk]
      all_goals exact .inr (.inr (.inr ⟨_, _, hreleased fun _ _ => rfl⟩))
    | locked =>
      cases answer <;> simp only [actUndisturbed, act]
      · split <;> exact .inl fun _ _ => rfl
      · exact .inr (.inr (.inr ⟨_, _, hreleased (hunlocked _)⟩))
      · exact .inr (.inr (.inr ⟨_, _, hreleased (hunlocked _)⟩))
      · exact .inr (.inr (.inr ⟨_, _, hreleased fun _ _ => rfl⟩))
    | cleared =>
      simp only [actUndisturbed, act]
      split
      · exact .inr (.inr (.inr ⟨_, _, hreleased (hunlocked _)⟩))
      · exact .inr (.inr (.inl ⟨attempt, rfl, fun k _ => out_hold w _ _ k⟩))
    | held | launching =>
      simp only [actUndisturbed, act]
      split
      · exact .inl fun k _ => by cases k <;> rfl
      · exact .inr (.inr (.inr ⟨_, _, hreleased fun _ _ => rfl⟩))
    | creating pane =>
      simp only [actUndisturbed, act]
      split
      · exact .inl fun k _ => out_publish w _ _ k
      · exact .inr (.inr (.inr ⟨_, _, hgiveUp⟩))
    | published pane =>
      simp only [actUndisturbed, act]
      split
      · refine .inr (.inr (.inr ⟨attempt.process, attempt.lease, fun k hk => ?_⟩))
        rw [out_activate, hreleased (fun _ _ => rfl) k hk]
      · exact .inr (.inr (.inr ⟨_, _, hgiveUp⟩))
  | taken attempt =>
    simp only [actUndisturbed, act]
    split
    · exact .inr (.inr (.inr ⟨_, _, hreleased (hunlocked _)⟩))
    · refine .inr (.inr (.inr ⟨attempt.process, attempt.lease, fun k hk => ?_⟩))
      rw [out_activate, hreleased (hunlocked _) k hk]
  | detached lease =>
    simp only [actUndisturbed, act]
    split
    · refine .inl fun k hk => ?_
      rw [out_lock]
      simp [hk]
    · exact .inl fun _ _ => rfl
  | detachedLocked lease => exact .inl (hunlocked lease)
  | refreshing => exact .inl fun _ _ => rfl
  | observing p leases => exact .inl fun k _ => out_observe w p leases k
  | killing p name l =>
    simp only [actUndisturbed, act]
    split
    · exact .inl fun k _ => out_killSession w name k
    · exact .inl fun _ _ => rfl
  | releasing p l =>
    simp only [actUndisturbed]
    split
    · exact .inl fun _ _ => rfl
    · exact .inr (.inr (.inr ⟨_, _, hreleased fun _ _ => rfl⟩))
  | exiting name => exact .inl fun k _ => out_killSession w name k

/-- Only a cleared attempt makes an entry. -/
theorem act_entry (answer : Answer) (w : World) (task : Task) {process : Nat} {lease : String}
    (h : (actUndisturbed answer w task).1.out (.entry process lease) = true) :
    w.out (.entry process lease) = true ∨
      ∃ attempt, task = .guarding .cleared attempt ∧ attempt.process = process ∧ attempt.lease = lease := by
  have hentry : ∀ l, Resource.entry process lease ≠ .file l := by simp
  rcases act_out answer w task with hout | ⟨_, _, hout⟩ | ⟨attempt, rfl, hout⟩ | ⟨_, _, hout⟩ <;> rw [hout _ hentry] at h
  · exact .inl h
  · simp only [reduceCtorEq, decide_false, Bool.or_false] at h
    exact .inl h
  · rcases Bool.or_eq_true_iff.mp h with h | h
    · exact .inl h
    · obtain ⟨rfl, rfl⟩ := Resource.entry.inj (of_decide_eq_true h)
      exact .inr ⟨attempt, rfl, rfl, rfl⟩
  · rw [Bool.and_eq_true, Bool.and_eq_true] at h
    exact .inl h.1.1

/-- No entry outlives its reservation. -/
theorem act_reserved (answer : Answer) (hs : Sound w) (task : Task) (hshare : ∀ k, task.share k ≤ w.total k)
    {process : Nat} {lease : String} (h : (actUndisturbed answer w task).1.out (.entry process lease) = true) :
    (actUndisturbed answer w task).1.out (.reservation process lease) = true := by
  have hentry : ∀ l, Resource.entry process lease ≠ .file l := by simp
  have hreservation : ∀ l, Resource.reservation process lease ≠ .file l := by simp
  rcases act_out answer w task with hout | ⟨_, _, hout⟩ | ⟨attempt, rfl, hout⟩ | ⟨_, _, hout⟩ <;>
    rw [hout _ hentry] at h <;> rw [hout _ hreservation]
  · exact hs.entry process lease h
  · simp only [reduceCtorEq, decide_false, Bool.or_false] at h
    rw [hs.entry process lease h]
    rfl
  · rcases Bool.or_eq_true_iff.mp h with h | h
    · rw [hs.entry process lease h]
      rfl
    · -- the attempt that makes the entry has the reservation
      obtain ⟨rfl, rfl⟩ := Resource.entry.inj (of_decide_eq_true h)
      have hle := hshare (.reservation attempt.process attempt.lease)
      cases hw : w.out (.reservation attempt.process attempt.lease) with
      | true => rfl
      | false => simp [Task.share, Task.held, World.total, hw] at hle
  · simp only [Bool.and_eq_true, Bool.not_eq_true', decide_eq_false_iff_not, Resource.entry.injEq, reduceCtorEq,
      not_false_eq_true, and_true, Resource.reservation.injEq] at h ⊢
    exact ⟨hs.entry process lease h.1, h.2⟩

theorem act_sound (answer : Answer) (hs : Sound w) (task : Task) (hk : task.Kept w)
    (hshare : ∀ k, task.share k ≤ w.total k) : Sound (actUndisturbed answer w task).1 := by
  refine ⟨?_, ?_, fun lease => ?_, fun process lease => act_reserved answer hs task hshare⟩
  · rcases act_panes answer w task with ⟨p, hpanes, -⟩ | ⟨name, hpanes, -⟩ | ⟨pane, attempt, rfl, hpanes, -⟩
    · rw [hpanes]
      exact hs.ids.sublist ((List.filter_sublist ..).map _)
    · rw [hpanes]
      refine List.nodup_cons.mpr ⟨fun hmem => ?_, hs.ids⟩
      obtain ⟨q, hq, hid⟩ := List.mem_map.mp hmem
      exact absurd hid (hs.fresh q hq).ne
    · have hmap : (w.publish attempt.lease pane).panes.map Pane.id = w.panes.map Pane.id := by
        simp only [World.publish, List.map_map]
        refine List.map_congr_left fun q _ => ?_
        by_cases hq : q.id = pane <;> simp [hq]
      rw [hpanes, hmap]
      exact hs.ids
  · rcases act_panes answer w task with ⟨p, hpanes, hnext⟩ | ⟨name, hpanes, hnext⟩ | ⟨pane, attempt, rfl, hpanes, hnext⟩
    · rw [hpanes, hnext]
      exact fun q hq => hs.fresh q (List.mem_of_mem_filter hq)
    · rw [hpanes, hnext]
      intro q hq
      rcases List.mem_cons.mp hq with rfl | hq
      · exact Nat.lt_succ_self _
      · exact (hs.fresh q hq).trans (Nat.lt_succ_self _)
    · rw [hpanes, hnext]
      intro q hq
      obtain ⟨q', hq', rfl⟩ := List.mem_map.mp hq
      have hlt := hs.fresh q' hq'
      by_cases hid : q'.id = pane <;> simpa [hid] using hlt
  · rcases act_carriers answer w task lease with hle | ⟨pane, attempt, rfl, rfl, heq⟩
    · exact hle.trans (hs.carriers lease)
    · rw [heq]
      exact carriers_publish hs.ids pane (hk.2 rfl)

/-- What goes on from a turn has what it relies on. -/
theorem act_next (answer : Answer) (hs : Sound w) (task : Task) (hk : task.Kept w) :
    ∀ next ∈ (actUndisturbed answer w task).2, next.Kept (actUndisturbed answer w task).1 := by
  intro next hnext
  cases task with
  | attempting attempt =>
    simp only [actUndisturbed, act] at hnext ⊢
    split at hnext
    · cases hnext
    next s hreserve =>
      obtain rfl := List.mem_singleton.mp hnext
      -- an entry would have come with a reservation
      have hfree : w.out (.entry attempt.process attempt.lease) = false := by
        cases hentry : w.out (.entry attempt.process attempt.lease) with
        | false => rfl
        | true =>
          have hreserved := hs.entry _ _ hentry
          rw [reserve_free hreserve] at hreserved
          cases hreserved
      refine ⟨fun _ => ?_, fun hclears => by cases hclears⟩
      simp only [out_reserve hreserve, hfree, reduceCtorEq, decide_false, Bool.or_false]
  | guarding phase attempt =>
    cases phase with
    | reserved =>
      have hentry := hk.1 (by decide)
      cases answer <;> simp only [actUndisturbed, act] at hnext ⊢
      · split at hnext
        · cases hnext
        next hlocked =>
          obtain rfl := List.mem_singleton.mp hnext
          rw [if_neg hlocked]
          refine ⟨fun _ => ?_, fun hclears => by cases hclears⟩
          simp only [out_lock, hentry, reduceCtorEq, decide_false, Bool.or_false]
      · cases hnext
      · cases hnext
      · obtain rfl := List.mem_singleton.mp hnext
        trivial
    | locked =>
      have hentry := hk.1 (by decide)
      cases answer <;> simp only [actUndisturbed, act] at hnext ⊢
      · split at hnext
        next hcarried =>
          obtain rfl := List.mem_singleton.mp hnext
          rw [if_pos hcarried]
          exact hentry
        next hnone =>
          obtain rfl := List.mem_singleton.mp hnext
          rw [if_neg hnone]
          exact ⟨fun _ => hentry, fun _ => Nat.eq_zero_of_not_pos hnone⟩
      · cases hnext
      · cases hnext
      · obtain rfl := List.mem_singleton.mp hnext
        trivial
    | cleared =>
      have hzero := hk.2 rfl
      simp only [actUndisturbed, act] at hnext ⊢
      split at hnext
      · cases hnext
      next hgoes =>
        obtain rfl := List.mem_singleton.mp hnext
        rw [if_neg hgoes]
        exact ⟨fun hphase => by simp at hphase, fun _ => hzero⟩
    | held =>
      have hzero := hk.2 rfl
      simp only [actUndisturbed, act] at hnext ⊢
      split at hnext
      next hgoes =>
        obtain rfl := List.mem_singleton.mp hnext
        rw [if_pos hgoes]
        exact ⟨fun hphase => by simp at hphase, fun _ => hzero⟩
      · cases hnext
    | launching =>
      have hzero := hk.2 rfl
      simp only [actUndisturbed, act] at hnext ⊢
      split at hnext
      next hgoes =>
        obtain rfl := List.mem_singleton.mp hnext
        rw [if_pos hgoes]
        refine ⟨fun hphase => by simp at hphase, fun _ => ?_⟩
        rw [carriers_create, hzero]
      · cases hnext
    | creating pane =>
      simp only [actUndisturbed, act] at hnext ⊢
      split at hnext
      · obtain rfl := List.mem_singleton.mp hnext
        exact ⟨fun hphase => by simp at hphase, fun hclears => by cases hclears⟩
      · cases hnext
    | published pane =>
      simp only [actUndisturbed, act] at hnext
      split at hnext <;> cases hnext
  | taken attempt =>
    simp only [actUndisturbed, act] at hnext
    split at hnext <;> cases hnext
  | detached lease =>
    simp only [actUndisturbed, act] at hnext
    split at hnext
    · obtain rfl := List.mem_singleton.mp hnext
      trivial
    · cases hnext
  | detachedLocked | observing | exiting => cases hnext
  | refreshing =>
    obtain rfl := List.mem_singleton.mp hnext
    trivial
  | killing process name lease =>
    simp only [actUndisturbed, act] at hnext
    split at hnext
    · obtain ⟨l, -, rfl⟩ := Option.map_eq_some_iff.mp (Option.mem_toList.mp hnext)
      trivial
    · cases hnext
  | releasing process lease =>
    simp only [actUndisturbed] at hnext
    split at hnext
    · obtain rfl := List.mem_singleton.mp hnext
      trivial
    · cases hnext

/-- A turn keeps what every other task relies on. -/
theorem act_frame (answer : Answer) (task other : Task) (hk : other.Kept w)
    (hshare : ∀ k, task.share k + other.share k ≤ w.total k) : other.Kept (actUndisturbed answer w task).1 := by
  have hone : ∀ k, task.share k + other.share k ≤ 1 := fun k => (hshare k).trans (Bool.toNat_le _)
  have hentry : ∀ attempt : Attempt, (∃ l, other.held = l ++ [.reservation attempt.process attempt.lease]) →
      w.out (.entry attempt.process attempt.lease) = false →
      (actUndisturbed answer w task).1.out (.entry attempt.process attempt.lease) = false := by
    intro attempt ⟨l, hheld⟩ hout
    cases hnow : (actUndisturbed answer w task).1.out (.entry attempt.process attempt.lease) with
    | false => rfl
    | true =>
      rcases act_entry answer w task hnow with hbefore | ⟨attempt', rfl, hprocess, hlease⟩
      · rw [hout] at hbefore
        cases hbefore
      · -- both would have the reservation
        have hle := hone (.reservation attempt.process attempt.lease)
        have htask : 1 ≤ Task.share (.reservation attempt.process attempt.lease) (.guarding .cleared attempt') :=
          List.one_le_count_iff.mpr (by simp [Task.held, hprocess, hlease])
        have hother : 1 ≤ other.share (.reservation attempt.process attempt.lease) :=
          List.one_le_count_iff.mpr (by simp [hheld])
        omega
  cases other with
  | guarding phase attempt =>
    refine ⟨fun hphase => hentry attempt ?_ (hk.1 hphase), fun hclears => ?_⟩
    · cases phase with
      | reserved => exact ⟨[], rfl⟩
      | locked | cleared => exact ⟨[.file attempt.lease], rfl⟩
      | _ => exact ⟨[.entry attempt.process attempt.lease, .file attempt.lease], rfl⟩
    · have hzero := hk.2 hclears
      rcases act_carriers answer w task attempt.lease with hle | ⟨pane, attempt', rfl, hlease, -⟩
      · omega
      · -- both would have the lock of the file
        have hle := hone (.file attempt.lease)
        have htask : 1 ≤ Task.share (.file attempt.lease) (.guarding (.creating pane) attempt') :=
          List.one_le_count_iff.mpr (by simp [Task.held, hlease])
        have hother : 1 ≤ Task.share (.file attempt.lease) (.guarding phase attempt) := by
          refine List.one_le_count_iff.mpr ?_
          cases phase with
          | reserved | locked | published => cases hclears
          | cleared | held | launching | creating => simp [Task.held]
        omega
  | taken attempt => exact hentry attempt ⟨[.file attempt.lease], rfl⟩ hk
  | _ => trivial

end

theorem conserves : Pool.Conserves enter actUndisturbed Task.share World.total Sound fun w task => task.Kept w where
  enter_task _ request := by cases request <;> trivial
  enter_share k request := by cases request <;> rfl
  step answer _ task hs hk hshare := ⟨act_sound answer hs task hk hshare, act_next answer hs task hk⟩
  balance k answer _ task hs hk hshare := act_balance k answer task hs hk hshare
  frame answer _ task other _ _ hk hshare := act_frame answer task other hk hshare

/-! ## At most one launch -/

/-- An attempt that has reached the tmux launch and not left it. -/
def launches (lease : String) : Task → Bool
  | .guarding .launching attempt | .guarding (.creating _) attempt | .guarding (.published _) attempt =>
    attempt.lease = lease
  | _ => false

/-- An attempt whose pane is still to get the lease. -/
def creates (lease : String) : Task → Bool
  | .guarding .launching attempt | .guarding (.creating _) attempt => attempt.lease = lease
  | _ => false

theorem launches_share (lease : String) (task : Task) :
    (launches lease task).toNat ≤ task.share (.file lease) := by
  cases task with
  | guarding phase attempt =>
    cases phase with
    | launching | creating | published =>
      by_cases hlease : attempt.lease = lease <;> simp [launches, Task.share, Task.held, hlease]
    | _ => exact Nat.zero_le _
  | _ => exact Nat.zero_le _

theorem creates_launches {lease : String} {task : Task} (h : creates lease task = true) :
    launches lease task = true := by
  cases task with
  | guarding phase attempt => cases phase <;> first | exact h | cases h
  | _ => cases h

/-- An attempt that is to make a pane with the lease saw none. -/
theorem carriers_of_creates {w : World} {lease : String} {task : Task} (hk : task.Kept w)
    (h : creates lease task = true) : w.carriers lease = 0 := by
  cases task with
  | guarding phase attempt =>
    cases phase with
    | launching | creating =>
      obtain rfl := of_decide_eq_true h
      exact hk.2 rfl
    | _ => cases h
  | _ => cases h

theorem start_balanced : Pool.Balanced Task.share World.total Sound (fun w task => task.Kept w) start where
  world := ⟨List.nodup_nil, fun _ hmem => (by cases hmem), fun _ => Nat.zero_le _, fun _ _ h => (by cases h)⟩
  tasks _ hmem := by cases hmem
  shares k := by cases k <;> rfl

/-- **A lease has one launch at a time, and none beside a pane that carries
it**, in every run whose releases after a kill find the lease unreserved. -/
theorem one_launch_per_lease (turns : List (Turn Request Answer)) (h : UndisturbedRun start turns) (lease : String) :
    (start.run enter act turns).tasks.countP (launches lease) ≤ 1 ∧
      (start.run enter act turns).tasks.countP (creates lease) + (start.run enter act turns).world.carriers lease ≤ 1 := by
  rw [run_undisturbed h]
  have hpool := conserves.run turns start_balanced
  generalize start.run enter actUndisturbed turns = pool at hpool
  have hone : pool.tasks.countP (launches lease) ≤ 1 := by
    calc pool.tasks.countP (launches lease)
        = (pool.tasks.map fun task => (launches lease task).toNat).sum := (Pool.sum_map_toNat _).symm
      _ ≤ (pool.tasks.map (Task.share (.file lease))).sum := List.sum_le_sum fun task _ => launches_share lease task
      _ = pool.world.total (.file lease) := hpool.shares (.file lease)
      _ ≤ 1 := Bool.toNat_le _
  refine ⟨hone, ?_⟩
  have hcreates : pool.tasks.countP (creates lease) ≤ pool.tasks.countP (launches lease) :=
    List.countP_mono_left fun _ _ => creates_launches
  have hcarriers := hpool.world.carriers lease
  by_cases hzero : pool.tasks.countP (creates lease) = 0
  · omega
  · -- the one that creates saw no pane with the lease
    obtain ⟨task, hmem, hcreate⟩ := List.countP_pos_iff.mp (Nat.pos_of_ne_zero hzero)
    have hnone := carriers_of_creates (hpool.tasks task hmem) hcreate
    omega

/-- The turns of a launch up to the tmux launch. -/
def toLaunch (attempt : Attempt) : List (Turn Request Answer) :=
  .call (.launch attempt) :: List.replicate 5 (.advance 0 .done)

/-- A launch, its pane killed and released, and another launch. -/
theorem one_launch_after_kill :
    UndisturbedRun start (toLaunch ⟨0, "claude-a", "one"⟩ ++ List.replicate 3 (.advance 0 .done) ++
      [.call (.kill 0 "one" (some "claude-a")), .advance 0 .done, .advance 0 .done] ++
      toLaunch ⟨0, "claude-a", "two"⟩) ∧
    (start.run enter act (toLaunch ⟨0, "claude-a", "one"⟩ ++ List.replicate 3 (.advance 0 .done) ++
      [.call (.kill 0 "one" (some "claude-a")), .advance 0 .done, .advance 0 .done] ++
      toLaunch ⟨0, "claude-a", "two"⟩)).tasks.countP (launches "claude-a") ≤ 1 := by
  have h : UndisturbedRun start (toLaunch ⟨0, "claude-a", "one"⟩ ++ List.replicate 3 (.advance 0 .done) ++
      [.call (.kill 0 "one" (some "claude-a")), .advance 0 .done, .advance 0 .done] ++
      toLaunch ⟨0, "claude-a", "two"⟩) := by
    decide +kernel
  exact ⟨h, (one_launch_per_lease _ h "claude-a").1⟩

/-- A launch and the kill of its session; a refresh; a second launch; the
kill's release; a third launch. -/
def killRace : List (Turn Request Answer) :=
  toLaunch ⟨0, "claude-a", "one"⟩ ++ List.replicate 3 (.advance 0 .done) ++
    [.call (.kill 0 "one" (some "claude-a")), .advance 0 .done] ++
    [.call (.refresh 0), .advance 0 .done, .advance 0 .done] ++
    toLaunch ⟨0, "claude-a", "two"⟩ ++ [.advance 1 .done] ++ toLaunch ⟨0, "claude-a", "three"⟩

/-- Two attempts at the tmux launch; as they go on, two panes with the lease. -/
theorem two_launches_after_kill :
    (start.run enter act killRace).tasks.countP (launches "claude-a") = 2 ∧
      (start.run enter act (killRace ++ [.advance 0 .done, .advance 1 .done, .advance 0 .done, .advance 1 .done])
        ).world.carriers "claude-a" = 2 := by
  decide +kernel

end Atmux.ResumeLease
