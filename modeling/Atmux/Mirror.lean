/-
The coordinator's mirror of one remote machine: `RemoteMirror`, fed the
snapshot and the patches of a node's overview stream.

The mirror files sessions by pane, under the coordinator's own name for the
machine, and keeps only the sessions the node runs itself. The loops of
`merge` and of the removals in `patch` are the library's `insertAll` and
`eraseAll` (`merge_sessions`, `removeAll_sessions`), so a lookup after either
is a question of membership.
-/
import Mathlib.Data.List.Sort
import Atmux.Overview

namespace Atmux

open Lib

structure RemoteMirror where
  /-- Id of the node's own machine, when the node lists one. -/
  home : Option String := none
  sessions : Std.ExtTreeMap String SessionSummary := ∅
  /-- Revision of the last snapshot or patch this mirror accepted. -/
  revision : Option Nat := none

variable {μ : Type}

def homeMachineOf (machines : List (MachineSummary μ)) : Option String :=
  (machines.find? fun machine => machine.kind == .local).map MachineSummary.id

namespace RemoteMirror

/-- Only sessions the node runs itself are federated. -/
def owns (mirror : RemoteMirror) (session : SessionSummary) : Bool :=
  match mirror.home with
  | some home => if session.machine.isEmpty then true else session.machine == home
  | none => true

/-- A session under the coordinator's name for its machine. -/
def rekey (machine : String) (session : SessionSummary) : SessionSummary :=
  { session with id := compositeId machine session.paneId, machine := machine }

def mergeSession (machine : String) (mirror : RemoteMirror) (session : SessionSummary) : RemoteMirror :=
  if mirror.owns session then
    { mirror with sessions := mirror.sessions.insert session.paneId (rekey machine session) }
  else mirror

def merge (mirror : RemoteMirror) (machine : String) (sessions : List SessionSummary) : RemoteMirror :=
  sessions.foldl (mergeSession machine) mirror

/-- Replaces the mirror from an authoritative snapshot. -/
def snapshot (_mirror : RemoteMirror) (machine : String) (overview : Overview μ) : RemoteMirror :=
  merge { home := homeMachineOf overview.machines, sessions := ∅, revision := some overview.revision }
    machine overview.sessions

/-- The pane a removed session id names, unless another machine owns it. -/
def removedPane (mirror : RemoteMirror) (removed : String) : Option String :=
  match Text.splitOnce compositeSeparator removed with
  | some (owner, pane) => if mirror.home.any fun home => owner != home then none else some pane
  | none => some removed

def removeSession (mirror : RemoteMirror) (removed : String) : RemoteMirror :=
  match mirror.removedPane removed with
  | none => mirror
  | some pane => { mirror with sessions := mirror.sessions.erase pane }

def removeAll (mirror : RemoteMirror) (remove : List String) : RemoteMirror :=
  remove.foldl removeSession mirror

/-- The home machine after a patch that lists `machines`. -/
def refreshedHome (mirror : RemoteMirror) (machines : List (MachineSummary μ)) : Option String :=
  if machines.isEmpty then mirror.home
  else
    match homeMachineOf machines with
    | some home => some home
    | none => mirror.home

/-- Applies an incremental patch, or reports that the mirror must resync. -/
def patch (mirror : RemoteMirror) (machine : String) (patch : OverviewPatch μ) : RemoteMirror × Bool :=
  if mirror.revision != some patch.baseRevision then (mirror, false)
  else
    let mirror := { mirror with home := mirror.refreshedHome patch.machines }
    let mirror := (mirror.removeAll patch.remove).merge machine patch.upsert
    ({ mirror with revision := some patch.revision }, true)

/-- The mirrored sessions in a stable order. -/
def sessionList (mirror : RemoteMirror) : List SessionSummary :=
  (Index.values mirror.sessions).insertionSort fun left right => left.id ≤ right.id

/-! ## What the loops leave -/

theorem merge_eq (mirror : RemoteMirror) (machine : String) (sessions : List SessionSummary) :
    mirror.merge machine sessions = { mirror with
      sessions := Index.insertAll SessionSummary.paneId mirror.sessions
        ((sessions.filter mirror.owns).map (rekey machine)) } := by
  induction sessions generalizing mirror with
  | nil => rfl
  | cons session sessions ih =>
    have hcons : mirror.merge machine (session :: sessions) = (mergeSession machine mirror session).merge machine
      sessions := rfl
    rw [hcons]
    by_cases ho : mirror.owns session = true
    · have hstep : mergeSession machine mirror session =
          { mirror with sessions := mirror.sessions.insert session.paneId (rekey machine session) } := by
        simp [mergeSession, ho]
      rw [hstep, ih, List.filter_cons_of_pos ho]
      rfl
    · have hstep : mergeSession machine mirror session = mirror := by simp [mergeSession, ho]
      rw [hstep, ih, List.filter_cons_of_neg ho]

theorem removeAll_eq (mirror : RemoteMirror) (remove : List String) :
    mirror.removeAll remove =
      { mirror with sessions := Index.eraseAll mirror.sessions (remove.filterMap mirror.removedPane) } := by
  induction remove generalizing mirror with
  | nil => rfl
  | cons removed remove ih =>
    have hcons : mirror.removeAll (removed :: remove) = (mirror.removeSession removed).removeAll remove := rfl
    rw [hcons, ih]
    cases hp : mirror.removedPane removed with
    | none =>
      have hstep : mirror.removeSession removed = mirror := by simp [removeSession, hp]
      rw [hstep, List.filterMap_cons_none hp]
    | some pane =>
      have hstep : mirror.removeSession removed = { mirror with sessions := mirror.sessions.erase pane } := by
        simp [removeSession, hp]
      rw [hstep, List.filterMap_cons_some hp]
      rfl

/-! ## What a mirror files -/

/-- Every session is filed under its own pane, and is the machine's. -/
def Filed (machine : String) (mirror : RemoteMirror) : Prop :=
  ∀ ⦃pane : String⦄ ⦃session : SessionSummary⦄, mirror.sessions[pane]? = some session →
    session.paneId = pane ∧ session.machine = machine ∧ session.id = compositeId machine pane

variable {mirror : RemoteMirror} {machine : String}

theorem Filed.merge (h : mirror.Filed machine) (sessions : List SessionSummary) :
    (mirror.merge machine sessions).Filed machine := by
  rw [merge_eq]
  intro pane session hget
  rcases Index.getElem?_insertAll_cases (f := SessionSummary.paneId) (m := mirror.sessions)
      (l := (sessions.filter mirror.owns).map (rekey machine)) (k := pane) with ⟨-, hc⟩ | ⟨_, hmem, rfl, hc⟩
  · exact h (hc ▸ hget)
  · rw [hc, Option.some.injEq] at hget
    subst hget
    obtain ⟨t, -, rfl⟩ := List.mem_map.mp hmem
    exact ⟨rfl, rfl, rfl⟩

theorem Filed.removeAll (h : mirror.Filed machine) (remove : List String) : (mirror.removeAll remove).Filed machine := by
  rw [removeAll_eq]
  intro pane session hget
  exact h (Index.getElem?_eraseAll hget)

theorem Filed.snapshot (o : Overview μ) : (mirror.snapshot machine o).Filed machine := by
  have hempty : Filed machine ⟨homeMachineOf o.machines, ∅, some o.revision⟩ := by
    intro pane session hget
    simp at hget
  exact hempty.merge o.sessions

theorem Filed.patch (h : mirror.Filed machine) (p : OverviewPatch μ) : (mirror.patch machine p).1.Filed machine := by
  unfold RemoteMirror.patch
  split
  · exact h
  · have hhome : Filed machine { mirror with home := mirror.refreshedHome p.machines } := h
    exact (hhome.removeAll p.remove).merge p.upsert

theorem Filed.ids_nodup (h : mirror.Filed machine) : (mirror.sessionList.map SessionSummary.id).Nodup := by
  rw [sessionList, ((List.perm_insertionSort _ _).map SessionSummary.id).nodup_iff]
  refine Index.nodup_values (g := compositeId machine) (fun heq => ?_) fun hget => (h hget).2.2
  simpa [compositeId, String.ext_iff, String.toList_append] using heq

end RemoteMirror

end Atmux
