/-
Tasks that share a world and take turns, in any order.

A task is the work an asynchronous call still has to do. Its turn runs it up
to where it next waits, with an answer from outside: it may change the world,
and leaves the tasks that go on from there. A pool is advanced by turns; calls
may come in at any time.

`Conserves` is what one turn has to preserve: a property of the world, one of
each task in it, and for each resource that the shares of the tasks add up to
what the world says is out. `Conserves.run` carries all three through every
order of turns. `Keeps` is the case of one token that at most one task holds.
-/
import Mathlib.Algebra.Order.BigOperators.Group.List
import Mathlib.Algebra.Order.Group.Nat
import Mathlib.Algebra.GroupWithZero.Nat

namespace Lib

variable {W T R A K : Type}

/-- A world and the tasks at work in it. -/
structure Pool (W T : Type) where
  world : W
  tasks : List T

/-- A call coming in, or the turn of the task at an index. -/
inductive Turn (R A : Type)
  | call (request : R)
  | advance (index : Nat) (answer : A)
deriving DecidableEq, Repr

namespace Pool

variable (enter : R → T) (act : A → W → T → W × List T)

def turn (pool : Pool W T) : Turn R A → Pool W T
  | .call request => ⟨pool.world, enter request :: pool.tasks⟩
  | .advance index answer =>
    match pool.tasks[index]? with
    | none => pool
    | some task =>
      let (world, next) := act answer pool.world task
      ⟨world, next ++ pool.tasks.eraseIdx index⟩

def run (pool : Pool W T) (turns : List (Turn R A)) : Pool W T := turns.foldl (turn enter act) pool

theorem run_append (pool : Pool W T) (turns turns' : List (Turn R A)) :
    pool.run enter act (turns ++ turns') = (pool.run enter act turns).run enter act turns' :=
  List.foldl_append

/-- What a turn preserves: `I` of the world, `J` of each task in it, and that
the tasks' shares of every resource add up to its total. -/
structure Conserves (share : K → T → Nat) (total : K → W → Nat) (I : W → Prop) (J : W → T → Prop) : Prop where
  enter_task : ∀ w request, J w (enter request)
  enter_share : ∀ k request, share k (enter request) = 0
  step : ∀ answer w task, I w → J w task → (∀ k, share k task ≤ total k w) →
    I (act answer w task).1 ∧ ∀ next ∈ (act answer w task).2, J (act answer w task).1 next
  balance : ∀ k answer w task, I w → J w task → (∀ k, share k task ≤ total k w) →
    ((act answer w task).2.map (share k)).sum + total k w = share k task + total k (act answer w task).1
  frame : ∀ answer w task other, I w → J w task → J w other → (∀ k, share k task + share k other ≤ total k w) →
    J (act answer w task).1 other

/-- A pool in which the properties hold and the shares add up. -/
structure Balanced (share : K → T → Nat) (total : K → W → Nat) (I : W → Prop) (J : W → T → Prop) (pool : Pool W T) :
    Prop where
  world : I pool.world
  tasks : ∀ task ∈ pool.tasks, J pool.world task
  shares : ∀ k, (pool.tasks.map (share k)).sum = total k pool.world

section
variable {enter act} {share : K → T → Nat} {total : K → W → Nat} {I : W → Prop} {J : W → T → Prop} {pool : Pool W T}

theorem Conserves.turn (h : Conserves enter act share total I J) (hpool : Balanced share total I J pool)
    (label : Turn R A) : Balanced share total I J (pool.turn enter act label) := by
  cases label with
  | call request =>
    refine ⟨hpool.world, fun task hmem => ?_, fun k => ?_⟩
    · rcases List.mem_cons.1 hmem with rfl | hmem
      · exact h.enter_task _ request
      · exact hpool.tasks task hmem
    · simp [Pool.turn, h.enter_share, hpool.shares]
  | advance index answer =>
    simp only [Pool.turn]
    split
    · exact hpool
    next task hget =>
    have hmem : task ∈ pool.tasks := List.mem_of_getElem? hget
    obtain ⟨hlt, rfl⟩ := List.getElem?_eq_some_iff.1 hget
    have hshares : ∀ k, share k pool.tasks[index] + ((pool.tasks.eraseIdx index).map (share k)).sum =
        total k pool.world := by
      intro k
      have hperm := (List.getElem_cons_eraseIdx_perm hlt).map (share k)
      rw [← hpool.shares, ← hperm.sum_eq, List.map_cons, List.sum_cons]
    -- No two tasks have more between them than what is out.
    have hother : ∀ other ∈ pool.tasks.eraseIdx index, ∀ k,
        share k pool.tasks[index] + share k other ≤ total k pool.world := by
      intro other hmem k
      have hle := List.single_le_sum (l := (pool.tasks.eraseIdx index).map (share k)) (fun _ _ => Nat.zero_le _) _
        (List.mem_map.2 ⟨other, hmem, rfl⟩)
      have hsum := hshares k
      omega
    have hown : ∀ k, share k pool.tasks[index] ≤ total k pool.world := by
      intro k
      have hsum := hshares k
      omega
    obtain ⟨hworld, hnext⟩ := h.step answer _ _ hpool.world (hpool.tasks _ hmem) hown
    refine ⟨hworld, fun next hmem' => ?_, fun k => ?_⟩
    · rcases List.mem_append.1 hmem' with hmem' | hmem'
      · exact hnext next hmem'
      · have hrest := hpool.tasks next (List.mem_of_mem_eraseIdx hmem')
        exact h.frame answer _ _ next hpool.world (hpool.tasks _ hmem) hrest (hother next hmem')
    · have hbalance := h.balance k answer pool.world pool.tasks[index] hpool.world (hpool.tasks _ hmem) hown
      have hsum := hshares k
      simp only [List.map_append, List.sum_append]
      omega

/-- Every order of turns keeps what each turn keeps. -/
theorem Conserves.run (h : Conserves enter act share total I J) (turns : List (Turn R A))
    (hpool : Balanced share total I J pool) : Balanced share total I J (pool.run enter act turns) := by
  induction turns generalizing pool with
  | nil => exact hpool
  | cons label turns ih => exact ih (h.turn hpool label)

end

/-! ## One token -/

/-- What a turn preserves: `I` of the world, `J` of each task in it, and that
as many tasks hold the token as the world says are held. -/
structure Keeps (holds : T → Bool) (held : W → Bool) (I : W → Prop) (J : W → T → Prop) : Prop where
  enter_task : ∀ w request, J w (enter request)
  enter_token : ∀ request, holds (enter request) = false
  step : ∀ answer w task, I w → J w task → (holds task → held w) →
    I (act answer w task).1 ∧ ∀ next ∈ (act answer w task).2, J (act answer w task).1 next
  balance : ∀ answer w task, (holds task → held w) →
    (act answer w task).2.countP holds + (held w).toNat = (holds task).toNat + (held (act answer w task).1).toNat
  frame : ∀ answer w task other, I w → J w task → J w other → ¬ (holds task = true ∧ holds other = true) →
    J (act answer w task).1 other

/-- A pool in which the properties hold. -/
structure Sound (holds : T → Bool) (held : W → Bool) (I : W → Prop) (J : W → T → Prop) (pool : Pool W T) : Prop where
  world : I pool.world
  tasks : ∀ task ∈ pool.tasks, J pool.world task
  token : pool.tasks.countP holds = (held pool.world).toNat

variable {enter act} {holds : T → Bool} {held : W → Bool} {I : W → Prop} {J : W → T → Prop} {pool : Pool W T}

theorem sum_map_toNat (tasks : List T) : (tasks.map fun task => (holds task).toNat).sum = tasks.countP holds := by
  induction tasks with
  | nil => rfl
  | cons task tasks ih =>
    rw [List.map_cons, List.sum_cons, ih, List.countP_cons]
    cases holds task
    · simp
    · simp [Nat.add_comm]

/-- The one token as a resource. -/
theorem Keeps.conserves (h : Keeps enter act holds held I J) :
    Conserves enter act (fun (_ : Unit) task => (holds task).toNat) (fun _ w => (held w).toNat) I J := by
  have hheld : ∀ {w task}, (∀ _ : Unit, (holds task).toNat ≤ (held w).toNat) → holds task = true → held w = true := by
    intro w task hle hholds
    have hle := hle ()
    cases hfree : held w with
    | true => rfl
    | false => simp [hholds, hfree] at hle
  refine ⟨h.enter_task, fun _ request => by simp [h.enter_token request],
    fun answer w task hw htask hle => h.step answer w task hw htask (hheld hle),
    fun _ answer w task _ _ hle => ?_, fun answer w task other hw htask hrest hle => ?_⟩
  · rw [sum_map_toNat]
    exact h.balance answer w task (hheld hle)
  · refine h.frame answer w task other hw htask hrest fun ⟨hholds, hholds'⟩ => ?_
    have hle := hle ()
    have hone := Bool.toNat_le (held w)
    simp only [hholds, hholds', Bool.toNat_true] at hle
    omega

/-- Every order of turns keeps what each turn keeps. -/
theorem Keeps.run (h : Keeps enter act holds held I J) (turns : List (Turn R A)) (hpool : Sound holds held I J pool) :
    Sound holds held I J (pool.run enter act turns) := by
  have hbalanced := h.conserves.run turns ⟨hpool.world, hpool.tasks, fun _ => by rw [sum_map_toNat]; exact hpool.token⟩
  refine ⟨hbalanced.world, hbalanced.tasks, ?_⟩
  rw [← sum_map_toNat]
  exact hbalanced.shares ()

end Pool

end Lib
