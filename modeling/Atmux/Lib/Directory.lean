/-
Files under their paths, changed by calls that can fail.

A call has a label. It fails when its label's fault is set, or when it cannot
be done on the files as they are, and then changes nothing. The trail keeps
every finished call with the files it left, the latest first, so a property of
every intermediate point is one of the trail. Each call has its rule, which
says exactly when it succeeds and what it leaves.
-/
import Mathlib.Logic.Function.Basic
import Atmux.Lib.Proc

namespace Lib

variable {S P C α : Type}

/-- A finished call and the files it left. -/
structure Moment (S P C : Type) where
  label : S
  succeeded : Bool
  files : P → Option C

/-- The files of a directory and how they came to be. -/
structure Volume (S P C : Type) where
  files : P → Option C
  trail : List (Moment S P C)

namespace Volume

open Proc

/-- One call: what it does to the files, if it can be done. -/
def call (faults : S → Bool) (label : S) (act : (P → Option C) → Option (α × (P → Option C))) :
    Proc Unit (Volume S P C) α := do
  let volume ← read
  match if faults label then none else act volume.files with
  | some (a, files) =>
    change fun volume => ⟨files, ⟨label, true, files⟩ :: volume.trail⟩
    pure a
  | none =>
    change fun volume => ⟨volume.files, ⟨label, false, volume.files⟩ :: volume.trail⟩
    stop ()

section Calls

variable (faults : S → Bool) (label : S)

def contents (path : P) : Proc Unit (Volume S P C) C :=
  call faults label fun files => (files path).map fun content => (content, files)

/-- A flush of the directory itself. -/
def flush : Proc Unit (Volume S P C) Unit := call faults label fun files => some ((), files)

variable [DecidableEq P]

def remove (path : P) : Proc Unit (Volume S P C) Unit :=
  call faults label fun files =>
    if (files path).isSome then some ((), Function.update files path none) else none

/-- A second name for a file, which must be free. -/
def link (old new : P) : Proc Unit (Volume S P C) Unit :=
  call faults label fun files =>
    if (files old).isSome && (files new).isNone then some ((), Function.update files new (files old)) else none

/-- A file under another name, in place of what that named. -/
def rename (old new : P) : Proc Unit (Volume S P C) Unit :=
  call faults label fun files =>
    if (files old).isSome then some ((), Function.update (Function.update files old none) new (files old)) else none

end Calls

/-- The volume after a call that succeeded, or failed. -/
def after (volume : Volume S P C) (label : S) (succeeded : Bool) (files : P → Option C) : Volume S P C :=
  ⟨files, ⟨label, succeeded, files⟩ :: volume.trail⟩

section Rules

variable {faults : S → Bool} {label : S} {volume : Volume S P C}

theorem wp_call {post : α → Volume S P C → Prop} {halt : Unit → Volume S P C → Prop}
    {act : (P → Option C) → Option (α × (P → Option C))} :
    wp (call faults label act) post halt volume ↔
      match if faults label then none else act volume.files with
      | some (a, files) => post a (volume.after label true files)
      | none => halt () (volume.after label false volume.files) := by
  simp only [call, wp_bind, wp_read]
  split <;> rfl

theorem wp_contents {path : P} {content : C} {post : C → Volume S P C → Prop}
    {halt : Unit → Volume S P C → Prop} (h : volume.files path = some content) :
    wp (contents faults label path) post halt volume ↔
      if !faults label then post content (volume.after label true volume.files)
      else halt () (volume.after label false volume.files) := by
  rw [contents, wp_call, h]
  cases faults label <;> rfl

theorem wp_flush {post : Unit → Volume S P C → Prop} {halt : Unit → Volume S P C → Prop} :
    wp (flush faults label) post halt volume ↔
    if !faults label then post () (volume.after label true volume.files)
    else halt () (volume.after label false volume.files) := by
  rw [flush, wp_call]
  cases faults label <;> rfl

variable [DecidableEq P] {path old new : P} {post : Unit → Volume S P C → Prop} {halt : Unit → Volume S P C → Prop}

theorem wp_remove : wp (remove faults label path) post halt volume ↔
    if !faults label && (volume.files path).isSome then
      post () (volume.after label true (Function.update volume.files path none))
    else halt () (volume.after label false volume.files) := by
  rw [remove, wp_call]
  cases faults label <;> cases (volume.files path).isSome <;> rfl

theorem wp_link : wp (link faults label old new) post halt volume ↔
    if !faults label && ((volume.files old).isSome && (volume.files new).isNone) then
      post () (volume.after label true (Function.update volume.files new (volume.files old)))
    else halt () (volume.after label false volume.files) := by
  rw [link, wp_call]
  cases faults label <;> cases (volume.files old).isSome && (volume.files new).isNone <;> rfl

theorem wp_rename : wp (rename faults label old new) post halt volume ↔
    if !faults label && (volume.files old).isSome then
      post () (volume.after label true
        (Function.update (Function.update volume.files old none) new (volume.files old)))
    else halt () (volume.after label false volume.files) := by
  rw [rename, wp_call]
  cases faults label <;> cases (volume.files old).isSome <;> rfl

end Rules

end Volume

end Lib
