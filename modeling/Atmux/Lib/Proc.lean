/-
Processes over a world: a computation that reads and changes a world, and
either returns or stops where it stands. A stopped process leaves the world
as it had it, so what holds at every stop survives a crash and a restart.

`wp p post stop s`: run from `s`, the process `p` returns within `post` or
stops within `stop`. The rules go by the shape of the process and are the only
facts about `wp` a proof uses; `wp_foldlM` is the loop, and `world_foldl` the
same process started again and again on what it left behind.
-/
import Mathlib.Data.List.Basic

namespace Lib

/-- A process over a world `σ` that may stop for a reason in `ε`. -/
abbrev Proc (ε σ α : Type) := ExceptT ε (StateM σ) α

namespace Proc

variable {ε σ α β : Type}

/-- The world a process leaves, however it ends. -/
def world (p : Proc ε σ α) (s : σ) : σ := (p.run s).2

def read : Proc ε σ σ := fun s => (.ok s, s)

def change (f : σ → σ) : Proc ε σ Unit := fun s => (.ok (), f s)

def stop (e : ε) : Proc ε σ α := fun s => (.error e, s)

/-- The process run for its answer: a reason to stop becomes a value. -/
def attempt {ε' : Type} (p : Proc ε σ α) : Proc ε' σ (Except ε α) := fun s => (.ok (p.run s).1, (p.run s).2)

/-- The process with its reasons to stop replaced by `e'`. -/
def context {ε' : Type} (e' : ε') (p : Proc ε σ α) : Proc ε' σ α := fun s =>
  ((p.run s).1.mapError fun _ => e', (p.run s).2)

/-- Run from `s`, the process returns within `post` or stops within `halt`. -/
def wp (p : Proc ε σ α) (post : α → σ → Prop) (halt : ε → σ → Prop) (s : σ) : Prop :=
  match p.run s with
  | (.ok a, t) => post a t
  | (.error e, t) => halt e t

variable {p : Proc ε σ α} {post post' : α → σ → Prop} {halt halt' : ε → σ → Prop} {s : σ}

@[simp] theorem wp_pure (a : α) : wp (pure a) post halt s ↔ post a s := Iff.rfl

@[simp] theorem wp_bind (f : α → Proc ε σ β) {post : β → σ → Prop} :
    wp (p >>= f) post halt s ↔ wp p (fun a t => wp (f a) post halt t) halt s := by
  have hrun : (p >>= f).run s = match p.run s with
      | (.ok a, t) => (f a).run t
      | (.error e, t) => (.error e, t) := by
    change (ExceptT.bindCont f ((p.run s).1)) (p.run s).2 = _
    rcases p.run s with ⟨_ | _, _⟩ <;> rfl
  unfold wp
  rw [hrun]
  rcases p.run s with ⟨_ | _, _⟩ <;> rfl

@[simp] theorem wp_read {post : σ → σ → Prop} : wp read post halt s ↔ post s s := Iff.rfl

@[simp] theorem wp_change (f : σ → σ) {post : Unit → σ → Prop} : wp (change f) post halt s ↔ post () (f s) := Iff.rfl

@[simp] theorem wp_stop (e : ε) : wp (stop e) post halt s ↔ halt e s := Iff.rfl

@[simp] theorem wp_attempt {ε' : Type} {post : Except ε α → σ → Prop} {halt : ε' → σ → Prop} :
    wp (attempt p) post halt s ↔ wp p (fun a t => post (.ok a) t) (fun e t => post (.error e) t) s := by
  change post (p.run s).1 (p.run s).2 ↔ _
  unfold wp
  rcases p.run s with ⟨_ | _, _⟩ <;> rfl

@[simp] theorem wp_context {ε' : Type} (e' : ε') {halt : ε' → σ → Prop} :
    wp (context e' p) post halt s ↔ wp p post (fun _ t => halt e' t) s := by
  have hrun : (context e' p).run s = ((p.run s).1.mapError fun _ => e', (p.run s).2) := rfl
  unfold wp
  rw [hrun]
  rcases p.run s with ⟨_ | _, _⟩ <;> rfl

@[simp] theorem wp_ite (c : Prop) [Decidable c] (p q : Proc ε σ α) :
    wp (if c then p else q) post halt s ↔ (c → wp p post halt s) ∧ (¬ c → wp q post halt s) := by
  split <;> simp_all

theorem wp_mono (h : wp p post halt s) (hpost : ∀ a t, post a t → post' a t) (hhalt : ∀ e t, halt e t → halt' e t) :
    wp p post' halt' s := by
  unfold wp at h ⊢
  split at h
  next heq => simpa only [heq] using hpost _ _ h
  next heq => simpa only [heq] using hhalt _ _ h

/-- Every process ends somehow. -/
theorem wp_true : wp p (fun _ _ => True) (fun _ _ => True) s := by
  unfold wp
  split <;> trivial

theorem wp_foldlM_from {f : β → α → Proc ε σ β} {I : List α → β → σ → Prop} (l : List α) {done : List α} {b : β}
    (hstep : ∀ done a, a ∈ l → ∀ b s, I done b s → wp (f b a) (I (done ++ [a])) halt s) (h : I done b s) :
    wp (l.foldlM f b) (I (done ++ l)) halt s := by
  induction l generalizing done b s with
  | nil => simpa using h
  | cons a l ih =>
    rw [List.foldlM_cons, wp_bind]
    refine wp_mono (hstep done a (by simp) b s h) (fun b t hb => ?_) fun _ _ => id
    have hrest := ih (fun done a ha => hstep done a (by simp [ha])) hb
    rwa [List.append_assoc] at hrest

/-- A loop keeps the invariant its body keeps, on the items done so far. -/
theorem wp_foldlM {f : β → α → Proc ε σ β} {I : List α → β → σ → Prop} (l : List α) {b : β}
    (hstep : ∀ done a, a ∈ l → ∀ b s, I done b s → wp (f b a) (I (done ++ [a])) halt s) (h : I [] b s) :
    wp (l.foldlM f b) (I l) halt s := by
  simpa using wp_foldlM_from l hstep h

theorem wp_run {a : α} {t : σ} (h : wp p post halt s) (hrun : p.run s = (.ok a, t)) : post a t := by
  unfold wp at h
  rwa [hrun] at h

/-- What holds however a process ends holds of the world it leaves. -/
theorem wp_world {I : σ → Prop} (h : wp p (fun _ => I) (fun _ => I) s) : I (p.world s) := by
  unfold wp at h
  unfold world
  split at h <;> simp_all

/-- Processes started one after another, each on the world the last one left. -/
theorem world_foldl {ι : Type} {start : ι → Proc ε σ α} {I : σ → Prop}
    (h : ∀ i s, I s → wp (start i) (fun _ => I) (fun _ => I) s) (l : List ι) (hs : I s) :
    I (l.foldl (fun s i => (start i).world s) s) := by
  induction l generalizing s with
  | nil => exact hs
  | cons i l ih => exact ih (wp_world (h i s hs))

end Proc

end Lib
