/-
Runs of a labelled step relation: finite sequences of steps, the labels in
order.

`Run.invariant` and `Run.relation` are the two inductions every safety
argument over runs is made of: a predicate one step preserves holds at the
end, and a preorder one step stays within relates the two ends. Where a step
preserves a predicate exactly under a condition, `Run.through_iff` says of a
whole run when the predicate holds all along it.
-/
import Mathlib.Order.Defs.Unbundled

namespace Lib

/-- `Run step s ls t`: the steps labelled `ls`, in order, lead from `s` to `t`. -/
inductive Run {σ ℓ : Type*} (step : σ → ℓ → σ → Prop) : σ → List ℓ → σ → Prop
  | nil (s : σ) : Run step s [] s
  | cons {s t u : σ} {l : ℓ} {ls : List ℓ} : step s l t → Run step t ls u → Run step s (l :: ls) u

namespace Run

variable {σ ℓ : Type*} {step : σ → ℓ → σ → Prop} {s t u : σ} {l : ℓ} {ls ms : List ℓ}

theorem append (h : Run step s ls t) (h' : Run step t ms u) : Run step s (ls ++ ms) u := by
  induction h with
  | nil => exact h'
  | cons hs _ ih => exact .cons hs (ih h')

theorem single (h : step s l t) : Run step s [l] t := .cons h (.nil t)

/-- The steps of a function, one after the other. -/
theorem of_foldlM {f : σ → ℓ → Option σ} (h : ls.foldlM f s = some t) : Run (fun s l t => f s l = some t) s ls t := by
  induction ls generalizing s with
  | nil =>
    obtain rfl := Option.some.inj h
    exact .nil s
  | cons l ls ih =>
    rw [List.foldlM_cons] at h
    obtain ⟨u, hu, hrest⟩ := Option.bind_eq_some_iff.mp h
    exact .cons hu (ih hrest)

/-- What a step preserves, a run preserves. -/
theorem invariant {I : σ → Prop} (hI : ∀ {s l t}, I s → step s l t → I t) (h : Run step s ls t) (hs : I s) :
    I t := by
  induction h with
  | nil => exact hs
  | cons hstep _ ih => exact ih (hI hs hstep)

/-- A preorder every step stays within relates the ends of a run; `P` is what
may be assumed of the labels, and `I` of the states. -/
theorem relation {R : σ → σ → Prop} {I : σ → Prop} {P : ℓ → Prop} (hrefl : ∀ s, R s s)
    (htrans : ∀ {s t u}, R s t → R t u → R s u) (hI : ∀ {s l t}, I s → step s l t → I t)
    (hstep : ∀ {s l t}, I s → P l → step s l t → R s t) (h : Run step s ls t) (hs : I s)
    (hP : ∀ l ∈ ls, P l) : R s t := by
  induction h with
  | nil => exact hrefl _
  | cons hst _ ih =>
    exact htrans (hstep hs (hP _ (by simp)) hst) (ih (hI hs hst) fun l hl => hP l (by simp [hl]))

/-- A run passes through a state on its way. -/
def Through (step : σ → ℓ → σ → Prop) (s : σ) (ls : List ℓ) (t x : σ) : Prop :=
  ∃ before after, ls = before ++ after ∧ Run step s before x ∧ Run step x after t

/-- A run takes a step on its way. -/
def Takes (step : σ → ℓ → σ → Prop) (s : σ) (ls : List ℓ) (t x : σ) (l : ℓ) : Prop :=
  ∃ before after y, ls = before ++ l :: after ∧ Run step s before x ∧ step x l y ∧ Run step y after t

theorem Takes.cons {x : σ} {m : ℓ} (hs : step s l t) (h : Takes step t ls u x m) : Takes step s (l :: ls) u x m := by
  obtain ⟨before, after, y, rfl, hbefore, hstep, hafter⟩ := h
  exact ⟨l :: before, after, y, rfl, .cons hs hbefore, hstep, hafter⟩

theorem Takes.append {x : σ} {m : ℓ} (h : Takes step s ls t x m) (ht : Run step t ms u) : Takes step s (ls ++ ms) u x m := by
  obtain ⟨before, after, y, rfl, hbefore, hstep, hafter⟩ := h
  exact ⟨before, after ++ ms, y, by simp, hbefore, hstep, hafter.append ht⟩

/-- A predicate that steps preserve under a condition holds at the end of a
run whose steps all meet it. -/
theorem of_takes {I P : σ → Prop} {H : σ → ℓ → Prop} (hI : ∀ {s l t}, I s → step s l t → I t)
    (hstep : ∀ {s l t}, I s → step s l t → P s → H s l → P t) (h : Run step s ls t) (hs : I s) (hP : P s)
    (hH : ∀ x l, Takes step s ls t x l → H x l) : P t := by
  induction h with
  | nil => exact hP
  | cons hst hrest ih =>
    refine ih (hI hs hst) (hstep hs hst hP (hH _ _ ⟨[], _, _, rfl, .nil _, hst, hrest⟩)) ?_
    intro x l htakes
    exact hH x l (htakes.cons hst)

/-- Where steps preserve a predicate exactly under a condition, it holds all
along a run exactly if every step of the run meets the condition. -/
theorem through_iff {I P : σ → Prop} {H : σ → ℓ → Prop} (hI : ∀ {s l t}, I s → step s l t → I t)
    (hstep : ∀ {s l t}, I s → step s l t → P s → (P t ↔ H s l)) (h : Run step s ls t) (hs : I s) (hP : P s) :
    (∀ x, Through step s ls t x → P x) ↔ ∀ x l, Takes step s ls t x l → H x l := by
  constructor
  · intro hall x l htakes
    obtain ⟨before, after, y, rfl, hbefore, hxy, hafter⟩ := htakes
    have hx := hall x ⟨before, l :: after, rfl, hbefore, .cons hxy hafter⟩
    have hy := hall y ⟨before ++ [l], after, by simp, hbefore.append (.single hxy), hafter⟩
    exact (hstep (hbefore.invariant hI hs) hxy hx).mp hy
  · intro hall x hthrough
    obtain ⟨before, after, rfl, hbefore, hafter⟩ := hthrough
    refine of_takes (I := I) (P := P) (H := H) hI (fun hs hst hP hH => (hstep hs hst hP).mpr hH) hbefore hs hP ?_
    intro y l htakes
    exact hall y l (htakes.append hafter)

end Run

end Lib
