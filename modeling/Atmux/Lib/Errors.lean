/-
Which errors a computation may end in.
-/
import Atmux.Lib.Result

namespace Lib

variable {α β ε : Type} {P : ε → Prop}

/-- Every error that the computation ends in is such. -/
def Fails (P : ε → Prop) (a : Except ε α) : Prop := ∀ e, a = .error e → P e

namespace Fails

theorem ok (a : α) : Fails P (.ok a) := fun _ h => by cases h

theorem error {e : ε} (h : P e) : Fails P (.error e : Except ε α) := fun e' he => by
  obtain rfl := Except.error.inj he
  exact h

theorem throw_bind {e : ε} (h : P e) (f : α → Except ε β) : Fails P ((throw e : Except ε α) >>= f) := error h

theorem bind {a : Except ε α} {f : α → Except ε β} (ha : Fails P a) (hf : ∀ x, a = .ok x → Fails P (f x)) :
    Fails P (a >>= f) := by
  cases a with
  | error e => exact error (ha e rfl)
  | ok x => exact hf x rfl

theorem ite {c : Prop} [Decidable c] {a b : Except ε α} (ha : c → Fails P a) (hb : ¬ c → Fails P b) :
    Fails P (if c then a else b) := by
  split
  next hc => exact ha hc
  next hc => exact hb hc

theorem mapM {f : α → Except ε β} {l : List α} (h : ∀ a ∈ l, Fails P (f a)) : Fails P (l.mapM f) := by
  induction l with
  | nil => exact ok []
  | cons a l ih =>
    rw [List.mapM_cons]
    refine bind (h a List.mem_cons_self) fun b _ => ?_
    exact bind (ih fun a ha => h a (List.mem_cons_of_mem _ ha)) fun bs _ => ok _

theorem foldlM {f : β → α → Except ε β} {l : List α} (h : ∀ b, ∀ a ∈ l, Fails P (f b a)) (b : β) :
    Fails P (l.foldlM f b) := by
  induction l generalizing b with
  | nil => exact ok b
  | cons a l ih =>
    rw [List.foldlM_cons]
    exact bind (h b a List.mem_cons_self) fun b' _ => ih (fun b a ha => h b a (List.mem_cons_of_mem _ ha)) b'

end Fails

end Lib
