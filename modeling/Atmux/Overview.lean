/-
What a node publishes about its sessions: the summary of each, the overview
of all of them, and the patch from one overview to the next.

A patch is keyed by session id: it carries the sessions that are new or
observably changed and the ids that are gone, and leaves out a session whose
change is only noise (`observableSummaryEqual`).
-/
import Atmux.Lib.Index
import Atmux.Machine
import Atmux.Session

namespace Atmux

open Lib

structure SessionSummary where
  /-- Stable composite identity: `machine~pane`. -/
  id : String
  /-- Opaque owner-issued pane generation. -/
  instanceId : String
  /-- Machine that owns this session. -/
  machine : String
  name : String
  paneId : String
  status : String
  agent : String
  profile : String
  attached : Bool
  activity : Nat
  path : String
  title : String
  command : String
  launchCommand : String
  systemdScope : Option String
  memoryMaxBytes : Option Nat
  windows : Nat
  windowIndex : Nat
  paneIndex : Nat
  contentHash : String
deriving DecidableEq, Repr

/-- The summary of one local session. -/
def SessionSummary.fromLocal (hasher : List (List Char) → Nat) (machine id : String) (session : Session) :
    SessionSummary where
  id := id
  instanceId := session.paneIdentity
  machine := machine
  name := session.name
  paneId := session.paneId
  status := session.status.label
  agent := session.agent.display.toLower
  profile := session.profile
  attached := session.attached
  activity := session.activity
  path := session.path
  title := session.title
  command := session.command
  launchCommand := session.launchCommand
  systemdScope := session.systemdScope
  memoryMaxBytes := session.memoryMaxBytes
  windows := session.windows
  windowIndex := session.windowIndex
  paneIndex := session.paneIndex
  contentHash := Text.hex16 (observableContentHash hasher session.content)

structure Overview (μ : Type) where
  revision : Nat
  sessions : List SessionSummary
  /-- Health of this coordinator's own tmux server. -/
  health : Option String
  /-- Every federated machine, including this one. -/
  machines : List (MachineSummary μ)
deriving DecidableEq, Repr

structure OverviewPatch (μ : Type) where
  baseRevision : Nat
  revision : Nat
  upsert : List SessionSummary
  remove : List String
  health : Option String
  machines : List (MachineSummary μ)
deriving DecidableEq, Repr

/-! ## Observable summaries -/

def observableSummaryEqual (left right : SessionSummary) : Bool :=
  left.id == right.id
    && left.instanceId == right.instanceId
    && left.machine == right.machine
    && left.name == right.name
    && left.paneId == right.paneId
    && left.status == right.status
    && left.agent == right.agent
    && left.attached == right.attached
    && left.path == right.path
    && left.command == right.command
    && left.launchCommand == right.launchCommand
    && left.systemdScope == right.systemdScope
    && left.memoryMaxBytes == right.memoryMaxBytes
    && left.windows == right.windows
    && left.windowIndex == right.windowIndex
    && left.paneIndex == right.paneIndex
    && left.contentHash == right.contentHash

/-- A summary without the fields that change on every spinner frame, and
without the profile label, which the comparison does not look at. -/
def SessionSummary.observable (session : SessionSummary) : SessionSummary :=
  { session with profile := "", activity := 0, title := "" }

theorem observableSummaryEqual_iff {left right : SessionSummary} :
    observableSummaryEqual left right = true ↔ left.observable = right.observable := by
  obtain ⟨⟩ := left
  obtain ⟨⟩ := right
  simp only [observableSummaryEqual, SessionSummary.observable, Bool.and_eq_true, beq_iff_eq,
    SessionSummary.mk.injEq, and_assoc, true_and]

/-- The map `previous.sessions.iter().map(|s| (s.id, s)).collect()`. -/
def sessionsById (sessions : List SessionSummary) : Std.ExtTreeMap String SessionSummary :=
  Index.indexBy SessionSummary.id sessions

def observableSummariesEqual (previous current : List SessionSummary) : Bool :=
  previous.length == current.length &&
    current.all fun session =>
      (sessionsById previous)[session.id]?.any fun prior => observableSummaryEqual prior session

theorem SessionSummary.nodup_observable {sessions : List SessionSummary}
    (hd : (sessions.map SessionSummary.id).Nodup) : (sessions.map SessionSummary.observable).Nodup := by
  refine List.Nodup.of_map SessionSummary.id ?_
  rw [List.map_map]
  exact hd

/-- Lists that compare equal hold the same observable sessions. -/
theorem observables_perm {previous current : List SessionSummary} (hd : (current.map SessionSummary.id).Nodup)
    (h : observableSummariesEqual previous current = true) :
    (previous.map SessionSummary.observable).Perm (current.map SessionSummary.observable) := by
  simp only [observableSummariesEqual, Bool.and_eq_true, beq_iff_eq, List.all_eq_true,
    Option.any_eq_true] at h
  refine Index.perm_of_matched h.1 (SessionSummary.nodup_observable hd) fun s hs => ?_
  obtain ⟨prior, hget, heq⟩ := h.2 s hs
  exact ⟨prior, (Index.mem_of_getElem?_indexBy hget).1, observableSummaryEqual_iff.mp heq⟩

/-! ## Patches -/

/-- Whether `overview_patch` sends a session of the current overview: its id
is new, or its session is observably changed. -/
def changedSince (previous : List SessionSummary) (session : SessionSummary) : Bool :=
  (sessionsById previous)[session.id]?.all fun prior => !observableSummaryEqual prior session

def overviewPatch {μ : Type} (previous current : Overview μ) : OverviewPatch μ where
  baseRevision := previous.revision
  revision := current.revision
  upsert := current.sessions.filter (changedSince previous.sessions)
  remove := (previous.sessions.filter fun session => !(sessionsById current.sessions).contains session.id).map
    SessionSummary.id
  health := current.health
  machines := current.machines

variable {μ : Type} {previous current : Overview μ} {session prior : SessionSummary} {id : String}

theorem mem_upsert (hd : (previous.sessions.map SessionSummary.id).Nodup) :
    session ∈ (overviewPatch previous current).upsert ↔ session ∈ current.sessions ∧
      ∀ prior ∈ previous.sessions, prior.id = session.id → prior.observable ≠ session.observable := by
  simp only [overviewPatch, List.mem_filter, changedSince]
  refine and_congr_right fun _ => ⟨fun h prior hp hid => ?_, fun h => ?_⟩
  · have hget := Index.getElem?_indexBy_of_mem hd hp
    rw [hid] at hget
    simp only [sessionsById, hget, Option.all_some, Bool.not_eq_true'] at h
    intro heq
    rw [observableSummaryEqual_iff.mpr heq] at h
    cases h
  · cases hget : (sessionsById previous.sessions)[session.id]? with
    | none => rfl
    | some prior =>
      obtain ⟨hp, hid⟩ := Index.mem_of_getElem?_indexBy hget
      have hne := h prior hp hid
      simp only [Option.all_some, Bool.not_eq_true', Bool.eq_false_iff]
      exact fun he => hne (observableSummaryEqual_iff.mp he)

theorem mem_remove :
    id ∈ (overviewPatch previous current).remove ↔
      (∃ prior ∈ previous.sessions, prior.id = id) ∧ ∀ session ∈ current.sessions, session.id ≠ id := by
  have hgone : ∀ i, (sessionsById current.sessions).contains i = false ↔ ∀ s ∈ current.sessions, s.id ≠ i := by
    intro i
    rw [Std.ExtTreeMap.contains_eq_isSome_getElem?, Bool.eq_false_iff, ne_eq, sessionsById,
      Index.isSome_getElem?_indexBy]
    simp
  simp only [overviewPatch, List.mem_map, List.mem_filter, Bool.not_eq_true', hgone]
  constructor
  · rintro ⟨prior, ⟨hp, hno⟩, rfl⟩
    exact ⟨⟨prior, hp, rfl⟩, hno⟩
  · rintro ⟨⟨prior, hp, rfl⟩, hno⟩
    exact ⟨prior, ⟨hp, hno⟩, rfl⟩

end Atmux
