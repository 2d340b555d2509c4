/-
One operation at a time.

An apply or a rollback claims `busy` and hands it on from task to task until
it ends: `act_balance` counts the tasks that have it. The other tasks leave
the disk alone (`act_quiet`), and only two of them start an operation
(`act_claims`).
-/
import Atmux.SelfUpdate.Updater

namespace Atmux.SelfUpdate

open Lib Proc

/-- A world that changed in no more than what a status shows: at most an
answer was given. -/
structure World.Quiet {V : Type} (w w' : World V) : Prop where
  files : w'.files = w.files
  record : w'.record = w.record
  log : w'.log = w.log ∨ ∃ reply, w'.log = .answered reply :: w.log

/-- The task belongs to an apply or a rollback that claimed `busy`. -/
def Task.operating {V : Type} : Task V → Bool
  | .installing _ | .downloading .. | .verifying .. | .probing .. | .swapping .. | .rollingBack | .restoring _
  | .recording .. | .finishing _ => true
  | _ => false

namespace Updater

variable {V K : Type} [LinearOrder V] {crates : Crates V K} {build : Build}
variable (u : Updater crates build)

/-- `busy` is handed on from task to task until the operation ends. -/
theorem act_balance (answer : Answer) (w : World V) (task : Task V) (h : task.operating = true → w.shared.busy = true) :
    (u.act answer w task).2.countP Task.operating + w.shared.busy.toNat =
      task.operating.toNat + (u.act answer w task).1.shared.busy.toNat := by
  cases task
  case checkCalled manual next =>
    simp only [act, checkCalled, refuse, World.happened]
    repeat' split
    all_goals simp [Task.operating]
  case checking next =>
    simp only [act, checking, refuse, World.happened]
    split <;> simp [Task.operating]
  case discovering next =>
    simp only [act, discovering]
    split <;> simp [Task.operating]
  case concluding next outcome =>
    simp only [act, concluding]
    cases next <;> cases outcome <;> simp [Task.operating, Next.task]
  case reporting => simp [act, reporting, World.happened, Task.operating]
  case ready =>
    simp only [act, ready]
    split <;> simp [Task.operating]
  case applyCalled =>
    simp only [act, applyCalled, refuse, World.happened]
    repeat' split
    all_goals simp [Task.operating]
  case deciding =>
    simp only [act, deciding]
    split <;> simp [Task.operating]
  case claiming =>
    simp only [act, claiming, refuse, World.happened]
    repeat' split
    all_goals simp_all [Task.operating, List.countP_cons]
  case installing candidate =>
    simp only [act, installing, fail]
    repeat' split
    all_goals simp [Task.operating, Nat.add_comm]
  case downloading candidate fetched =>
    simp only [act, downloading, fail]
    repeat' split
    all_goals simp [Task.operating, Nat.add_comm]
  case verifying candidate fetched content digest written =>
    simp only [act, verifying, fail]
    repeat' split
    all_goals simp [Task.operating, Nat.add_comm]
  case probing candidate fetched content =>
    simp only [act, probing, fail]
    repeat' split
    all_goals simp [Task.operating, Nat.add_comm]
  case swapping candidate fetched content output =>
    simp only [act, swapping, changed, fail, World.happened]
    split <;> simp [Task.operating, Nat.add_comm]
  case rollbackCalled =>
    simp only [act, rollbackCalled, refuse, World.happened]
    repeat' split
    all_goals simp [Task.operating]
  case rollbackClaiming =>
    simp only [act, rollbackClaiming, refuse, World.happened]
    split <;> simp_all [Task.operating, List.countP_cons]
  case rollingBack =>
    simp only [act, rollingBack, fail]
    repeat' split
    all_goals simp [Task.operating, Nat.add_comm]
  case restoring restored =>
    simp only [act, restoring, changed, fail]
    split <;> simp [Task.operating, Nat.add_comm]
  case recording applied replacedSha replaced =>
    simp only [act, recording, fail, World.happened]
    repeat' split
    all_goals simp [Task.operating, List.countP_cons, Nat.add_comm]
  case finishing outcome =>
    simp only [act, finishing, World.happened]
    cases outcome <;> simp [Task.operating, h rfl]
  case restarting => simp [act, restarting, Task.operating]

/-- Only an operation changes files or the record. -/
theorem act_quiet (answer : Answer) (w : World V) {task : Task V} (h : task.operating = false) :
    w.Quiet (u.act answer w task).1 := by
  cases task <;> simp only [Task.operating, reduceCtorEq] at h <;>
    simp only [act, checkCalled, checking, discovering, concluding, reporting, ready, applyCalled, deciding, claiming,
      rollbackCalled, rollbackClaiming, restarting, refuse, World.happened]
  all_goals repeat' split
  all_goals exact ⟨rfl, rfl, by simp⟩

/-- An operation starts by claiming `busy`, as an install or a rollback. -/
theorem act_claims (answer : Answer) (w : World V) {task next : Task V} (h : task.operating = false)
    (hnext : next ∈ (u.act answer w task).2) (hoperating : next.operating = true) :
    w.shared.busy = false ∧ ((∃ candidate, next = .installing candidate) ∨ next = .rollingBack) := by
  have hreporting : next ≠ .reporting := fun heq => by simp [heq, Task.operating] at hoperating
  cases task <;> simp only [Task.operating, reduceCtorEq] at h <;>
    simp only [act, checkCalled, checking, discovering, concluding, reporting, ready, applyCalled, deciding, claiming,
      rollbackCalled, rollbackClaiming, restarting, refuse, World.happened] at hnext
  case concluding purpose outcome =>
    obtain rfl := List.mem_singleton.1 hnext
    cases purpose <;> cases hoperating
  all_goals repeat' split at hnext
  all_goals simp only [List.mem_cons, List.not_mem_nil, or_false, hreporting] at hnext
  all_goals try subst hnext
  all_goals first
    | (cases hoperating; done)
    | simp_all

end Updater

end Atmux.SelfUpdate
