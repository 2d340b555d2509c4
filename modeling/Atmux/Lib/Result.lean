/-
What a computation that may fail has done, and which errors it cannot end in.

`foldlM_ok` and `foldlM_ne_error` are the two inductions on a fold that stops
at the first error; both carry an invariant of the rest of the list.
-/
import Mathlib.Data.List.Forall2

namespace Lib

variable {α β ε : Type}

/-! ## Results -/

theorem map_ok {f : α → β} {a : Except ε α} {b : β} (h : f <$> a = .ok b) : ∃ x, a = .ok x ∧ f x = b := by
  cases a with
  | error e => cases h
  | ok x => exact ⟨x, rfl, Except.ok.inj h⟩

theorem map_error {f : α → β} {a : Except ε α} {e : ε} (h : f <$> a = .error e) : a = .error e := by
  cases a with
  | error e' => exact congrArg _ (Except.error.inj h)
  | ok x => cases h

theorem bind_ok {a : Except ε α} {f : α → Except ε β} {b : β} (h : a >>= f = .ok b) : ∃ x, a = .ok x ∧ f x = .ok b := by
  cases a with
  | error e => cases h
  | ok x => exact ⟨x, rfl, h⟩

/-- What goes on past a check has met it. -/
theorem guard_ok {c : Prop} [Decidable c] {e : ε} {rest : Unit → Except ε β} {b : β}
    (h : (if c then throw e >>= rest else rest ()) = .ok b) : ¬ c ∧ rest () = .ok b := by
  split at h
  · cases h
  next hc => exact ⟨hc, h⟩

theorem mapM_ok {f : α → Except ε β} {l : List α} {l' : List β} (h : l.mapM f = .ok l') :
    List.Forall₂ (fun a b => f a = .ok b) l l' := by
  induction l generalizing l' with
  | nil =>
    obtain rfl := Except.ok.inj h
    exact .nil
  | cons a l ih =>
    simp only [List.mapM_cons, bind, Except.bind, pure, Except.pure] at h ih
    split at h
    · cases h
    next b hb =>
      split at h
      · cases h
      next bs hbs =>
        obtain rfl := Except.ok.inj h
        exact .cons hb (ih hbs)

/-- The last of what was read is of the last row. -/
theorem getLast?_of_forall₂ {R : α → β → Prop} {l : List α} {l' : List β} {b : β}
    (h : List.Forall₂ R l l') (hlast : l'.getLast? = some b) : ∃ a, l.getLast? = some a ∧ R a b := by
  have hreverse := List.rel_reverse h
  rw [← List.head?_reverse] at hlast ⊢
  generalize l.reverse = r, l'.reverse = r' at hreverse hlast ⊢
  cases hreverse with
  | nil => cases hlast
  | cons hab _ =>
    obtain rfl := Option.some.inj hlast
    exact ⟨_, rfl, hab⟩

theorem exists_of_forall₂ {R : α → β → Prop} {l : List α} {l' : List β} {a : α} (h : List.Forall₂ R l l') (ha : a ∈ l) :
    ∃ b ∈ l', R a b := by
  induction h with
  | nil => cases ha
  | cons hab _ ih =>
    rcases List.mem_cons.mp ha with rfl | ha
    · exact ⟨_, List.mem_cons_self, hab⟩
    · obtain ⟨b, hb, hab⟩ := ih ha
      exact ⟨b, List.mem_cons_of_mem _ hb, hab⟩

/-- What holds of any two of the one list holds of the two of the other. -/
theorem pairwise_of_forall₂ {R : α → β → Prop} {S : α → α → Prop} {T : β → β → Prop} {l : List α} {l' : List β}
    (h : List.Forall₂ R l l') (hl : l.Pairwise S) (himp : ∀ a a' b b', R a b → R a' b' → S a a' → T b b') :
    l'.Pairwise T := by
  induction h with
  | nil => exact .nil
  | cons hab htail ih =>
    obtain ⟨ha, hl⟩ := List.pairwise_cons.mp hl
    refine List.pairwise_cons.mpr ⟨fun b' hb' => ?_, ih hl⟩
    obtain ⟨a', ha', hab'⟩ := exists_of_forall₂ htail.flip hb'
    exact himp _ _ _ _ hab hab' (ha a' ha')

/-- A fold that ends keeps what each of its steps keeps. -/
theorem foldlM_ok {f : β → α → Except ε β} (I : List α → β → Prop)
    (hstep : ∀ a l b b', I (a :: l) b → f b a = .ok b' → I l b') {l : List α} {b b' : β} (hb : I l b)
    (h : l.foldlM f b = .ok b') : I [] b' := by
  induction l generalizing b with
  | nil =>
    obtain rfl := Except.ok.inj h
    exact hb
  | cons a l ih =>
    rw [List.foldlM_cons] at h
    obtain ⟨c, hc, h⟩ := bind_ok h
    exact ih (hstep a l b c hb hc) h

/-! ## Errors -/

theorem bind_ne_error {a : Except ε α} {f : α → Except ε β} {e : ε} (ha : a ≠ .error e)
    (hf : ∀ x, a = .ok x → f x ≠ .error e) : a >>= f ≠ .error e := by
  cases a with
  | error e' =>
    intro h
    exact ha (congrArg _ (Except.error.inj h))
  | ok x => exact hf x rfl

theorem forM_ne_error {f : α → Except ε Unit} {l : List α} {e : ε} (h : ∀ a ∈ l, f a ≠ .error e) :
    l.forM f ≠ .error e := by
  induction l with
  | nil => exact fun h => (by cases h)
  | cons a l ih =>
    rw [List.forM_eq_forM, List.forM_cons]
    exact bind_ne_error (h a List.mem_cons_self) fun _ _ => ih fun a ha => h a (List.mem_cons_of_mem _ ha)

/-- A fold does not end in an error that none of its steps ends in. -/
theorem foldlM_ne_error {f : β → α → Except ε β} {e : ε} (I : List α → β → Prop)
    (hstep : ∀ a l b b', I (a :: l) b → f b a = .ok b' → I l b')
    (herror : ∀ a l b, I (a :: l) b → f b a ≠ .error e) {l : List α} {b : β} (hb : I l b) :
    l.foldlM f b ≠ .error e := by
  induction l generalizing b with
  | nil => exact fun h => (by cases h)
  | cons a l ih =>
    rw [List.foldlM_cons]
    exact bind_ne_error (herror a l b hb) fun c hc => ih (hstep a l b c hb hc)

end Lib
