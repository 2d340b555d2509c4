/-
A coordinator's watch of one node, from the node's overview to what the
coordinator shows: `overview_events` writes the events, the transport hands them
over in pieces and may fail at any byte, and `watch_stream` decodes them, feeds
the mirror and files what it holds, between the sections of every other writer.

`overview_arrives`: a connection ends only when the transport ends it or a piece
is over the size bound, never because an event is not understood or a patch does
not fit; while it lasts, the coordinator shows the overviews that were sent, one
after the other; and once everything written has been handled it shows the one
that the node last woke with.
-/
import Atmux.Coordinator
import Atmux.OverviewStream
import Atmux.SseWriter

namespace Atmux.Watch

open Lib Sse

variable {μ : Type}

/-! ## The two ends -/

/-- `serde_json` on what the stream carries. -/
structure OverviewJson (μ : Type) where
  snapshot : Overview μ → Option String
  patch : OverviewPatch μ → Option String
  readSnapshot : String → Option (Overview μ)
  readPatch : String → Option (OverviewPatch μ)

/-- The same machines but for what is measured on them. -/
def SameMachines (left right : List (MachineSummary μ)) : Prop :=
  left.map (fun machine => (machine.kind, machine.id)) = right.map fun machine => (machine.kind, machine.id)

/-- Overviews that are written as one line each, as are the patches between
them, and are read back as they were but for telemetry. -/
structure OverviewJson.Carries (json : OverviewJson μ) (states : Set (Overview μ)) : Prop where
  snapshot : ∀ o ∈ states, ∃ text machines, json.snapshot o = some text ∧ SingleLine text ∧
    SameMachines machines o.machines ∧
    json.readSnapshot text = some { o with machines }
  patch : ∀ a ∈ states, ∀ b ∈ states, ∃ text machines, json.patch (overviewPatch a b) = some text ∧ SingleLine text ∧
    SameMachines machines b.machines ∧ json.readPatch text = some { overviewPatch a b with machines }

/-- Why `watch_stream` returned. -/
inductive WatchError
  /-- The connection could not be made, was closed, failed or stalled. -/
  | transport (reason : String)
  | oversized
  | invalidSnapshot
  | invalidPatch
  | stale (baseRevision : Nat) (held : Option Nat)
deriving DecidableEq, Repr

/-- The error as `mark_machine_offline` is told it; what `serde_json` adds is left out. -/
def WatchError.message (machine : String) : WatchError → String
  | .transport reason => reason
  | .oversized => SseDecoder.oversized
  | .invalidSnapshot => "machine " ++ machine ++ " sent an invalid snapshot"
  | .invalidPatch => "machine " ++ machine ++ " sent an invalid patch"
  | .stale baseRevision held =>
    "machine " ++ machine ++ " sent a patch based on revision " ++ toString baseRevision ++ " while the mirror held " ++
      (match held with
        | some revision => "Some(" ++ toString revision ++ ")"
        | none => "None") ++ "; resyncing"

/-- The errors that are no fault of the events. -/
def WatchError.OfTransport : WatchError → Prop
  | .transport _ | .oversized => True
  | .invalidSnapshot | .invalidPatch | .stale _ _ => False

/-- One subscription, at both of its ends. -/
structure Link (μ : Type) where
  /-- The overview of the last event that the node sent. -/
  previous : Overview μ
  /-- What the node has written and the coordinator has not read. -/
  wire : List UInt8
  decoder : SseDecoder
  /-- The decoded events still to be handled. -/
  pending : List SseEvent
  mirror : RemoteMirror
  /-- The telemetry of the event in hand, still to be filed. -/
  metrics : Option μ

/-- What has become of a subscription: the overviews whose events were sent, how
many of these were handled, and the overview the node last woke with. -/
structure Progress (μ : Type) where
  sent : List (Overview μ)
  handled : Nat
  woken : Overview μ

structure World (μ : Type) where
  /-- The overview the node has now. -/
  node : Overview μ
  link : Option (Link μ × Progress μ)
  coordinator : Coordinator μ
  /-- How the subscriptions so far ended. -/
  ended : List WatchError

inductive Label (μ : Type)
  /-- The node's overview changes. -/
  | overview (overview : Overview μ)
  /-- A section of another writer of the coordinator. -/
  | update (update : Update μ)
  /-- The node answers `open_events` and sends its snapshot. -/
  | connect
  /-- The node's stream wakes. -/
  | wake
  | keepAlive
  /-- The transport hands over the next bytes. -/
  | frame (length : Nat)
  | fail (reason : String)
  /-- The next decoded event is handled, up to its first write. -/
  | event (now : Nat)
  /-- Its telemetry is filed. -/
  | metrics

/-- `local_metrics` -/
def localMetrics (machines : List (MachineSummary μ)) : Option μ :=
  (machines.find? fun machine => machine.kind == .local).map MachineSummary.metrics

section Steps

variable (writer : SseWriter) (json : OverviewJson μ) (machine : String)

namespace World

/-- `event(kind, revision, value)` -/
def eventBytes (kind : String) (revision : Nat) (text : Option String) : List UInt8 :=
  match text with
  | some text => writer.event kind revision text
  | none => writer.plain "protocol.error" "serialization failed"

def snapshotBytes (overview : Overview μ) : List UInt8 :=
  eventBytes writer "sessions.snapshot" overview.revision (json.snapshot overview)

def patchBytes (patch : OverviewPatch μ) : List UInt8 :=
  eventBytes writer "sessions.patch" patch.revision (json.patch patch)

/-- The watcher's connection is over: the machine is offline until the next. -/
def finish (w : World μ) (error : WatchError) : World μ :=
  { w with
    link := none
    coordinator := w.coordinator.write (w.coordinator.control.state.markMachineOffline machine (error.message machine))
    ended := w.ended ++ [error] }

/-- Files what a mirror holds. -/
def file (w : World μ) (link : Link μ) (progress : Progress μ) (mirror : RemoteMirror) (health : Option String)
    (machines : List (MachineSummary μ)) (now : Nat) : World μ :=
  { w with
    link := some ({ link with mirror, metrics := localMetrics machines },
      { progress with handled := progress.handled + 1 })
    coordinator := w.coordinator.write
      (w.coordinator.control.state.applyMachineSessions machine mirror.sessionList health now) }

/-- The body of the loop of `watch_stream`, on an event. -/
def handle (w : World μ) (link : Link μ) (progress : Progress μ) (event : SseEvent) (now : Nat) : World μ :=
  match event.name with
  | "sessions.snapshot" =>
    match json.readSnapshot event.data with
    | none => w.finish machine .invalidSnapshot
    | some overview =>
      w.file machine link progress (link.mirror.snapshot machine overview) overview.health overview.machines now
  | "sessions.patch" =>
    match json.readPatch event.data with
    | none => w.finish machine .invalidPatch
    | some patch =>
      match link.mirror.patch machine patch with
      | (_, false) => w.finish machine (.stale patch.baseRevision link.mirror.revision)
      | (mirror, true) => w.file machine link progress mirror patch.health patch.machines now
  | _ => { w with link := some (link, progress) }

/-- One step of any of the parties, where it can be taken. -/
def step [Inhabited μ] [BEq μ] (w : World μ) : Label μ → Option (World μ)
  | .overview overview => some { w with node := overview }
  | .update update => (w.coordinator.step update).map fun coordinator => { w with coordinator }
  | .connect =>
    match w.link with
    | some _ => none
    | none =>
      some { w with
        link := some (⟨w.node, snapshotBytes writer json w.node, .new, [], {}, none⟩, ⟨[w.node], 0, w.node⟩) }
  | .wake =>
    w.link.map fun (link, progress) =>
      let progress := { progress with woken := w.node }
      match wakePatch link.previous w.node with
      | some patch =>
        { w with
          link := some ({ link with previous := w.node, wire := link.wire ++ patchBytes writer json patch },
            { progress with sent := progress.sent ++ [w.node] }) }
      | none => { w with link := some (link, progress) }
  | .keepAlive =>
    w.link.map fun (link, progress) =>
      { w with link := some ({ link with wire := link.wire ++ writer.keepAlive }, progress) }
  | .frame length =>
    match w.link with
    | some (link, progress) =>
      if link.pending.isEmpty && link.metrics.isNone then
        match link.decoder.push (link.wire.take length) [] with
        | .error _ => some (w.finish machine .oversized)
        | .ok (decoder, pending) =>
          some { w with link := some ({ link with wire := link.wire.drop length, decoder, pending }, progress) }
      else none
    | none => none
  | .fail reason =>
    match w.link with
    | some (link, _) =>
      if link.pending.isEmpty && link.metrics.isNone then some (w.finish machine (.transport reason)) else none
    | none => some (w.finish machine (.transport reason))
  | .event now =>
    match w.link with
    | some (link, progress) =>
      match link.pending, link.metrics with
      | event :: pending, none => some (w.handle json machine { link with pending } progress event now)
      | _, _ => none
    | none => none
  | .metrics =>
    match w.link with
    | some (link, progress) =>
      link.metrics.map fun metrics =>
        { w with
          link := some ({ link with metrics := none }, progress)
          coordinator := w.coordinator.write (w.coordinator.control.state.setMachineMetrics machine metrics) }
    | none => none

end World

/-- What the parties are given: one of the overviews of the node, and writers
that leave the watched machine to its watcher. -/
def Label.Admissible (states : Set (Overview μ)) : Label μ → Prop
  | .overview node => node ∈ states
  | .update (.applyMachineSessions other _ _ _) | .update (.markMachineOffline other _)
  | .update (.setMachineMetrics other _) => other ≠ machine
  | _ => True

def World.Step [Inhabited μ] [BEq μ] (states : Set (Overview μ)) (w : World μ) (label : Label μ) (w' : World μ) :
    Prop :=
  label.Admissible machine states ∧ w.step writer json machine label = some w'

end Steps

/-- A coordinator that has just started. -/
def World.start [Inhabited μ] (config : NodeConfig) (machines : List RemoteMachine) (node : Overview μ) : World μ :=
  ⟨node, none, .start config machines, []⟩

/-! ## What a machine shows -/

/-- The sessions of a fresh snapshot as the coordinator files them. -/
def freshSessions (machine : String) (overview : Overview μ) : List SessionSummary :=
  (RemoteMirror.snapshot {} machine overview).sessionList.filter fun session => session.name != reservedServiceSession

/-- A machine's entry shows an overview of it: its health, and observably the
sessions that a fresh snapshot would give. -/
structure Shows (machine : String) (remote : RemoteState μ) (overview : Overview μ) : Prop where
  online : remote.online = true
  health : remote.health = overview.health
  sessions : remote.sessions.map SessionSummary.observable =
    (freshSessions machine overview).map SessionSummary.observable

/-- What a coordinator shows of the machine it watches. -/
structure World.Follows (machine : String) (w : World μ) : Prop where
  /-- No event was ever refused. -/
  ended : ∀ error ∈ w.ended, error.OfTransport
  /-- Without a connection, or before its first event, the machine is offline. -/
  offline : (∀ link progress, w.link = some (link, progress) → progress.handled = 0) →
    ∀ remote, w.coordinator.control.state.remotes[machine]? = some remote → remote.online = false
  /-- After an event it shows the overview of that event. -/
  shown : ∀ link progress, w.link = some (link, progress) → ∀ k, progress.handled = k + 1 →
    ∃ remote overview, w.coordinator.control.state.remotes[machine]? = some remote ∧ progress.sent[k]? = some overview ∧
      Shows machine remote overview
  /-- When all that was written is handled, it shows the overview of the last wake. -/
  caughtUp : ∀ link progress, w.link = some (link, progress) → link.wire = [] → link.pending = [] →
    ∃ remote, w.coordinator.control.state.remotes[machine]? = some remote ∧ Shows machine remote progress.woken

/-! ## The events of a subscription -/

/-- The event as the decoder gives it. -/
def sseOf (json : OverviewJson μ) : StreamEvent μ → SseEvent
  | .snapshot overview => ⟨"sessions.snapshot", (json.snapshot overview).getD ""⟩
  | .patch patch => ⟨"sessions.patch", (json.patch patch).getD ""⟩

def patchesFrom (previous : Overview μ) : List (Overview μ) → List (StreamEvent μ)
  | [] => []
  | overview :: later => .patch (overviewPatch previous overview) :: patchesFrom overview later

/-- The events that were sent for the overviews of a subscription. -/
def eventsOf : List (Overview μ) → List (StreamEvent μ)
  | [] => []
  | first :: later => .snapshot first :: patchesFrom first later

theorem patchesFrom_concat (previous : Overview μ) {later : List (Overview μ)} (next : Overview μ) :
    patchesFrom previous (later ++ [next]) =
      patchesFrom previous later ++ [.patch (overviewPatch ((later.getLast?).getD previous) next)] := by
  induction later generalizing previous with
  | nil => rfl
  | cons overview later ih =>
    rw [List.cons_append, patchesFrom, patchesFrom, ih, List.getLast?_cons, Option.getD_some, List.cons_append]

theorem eventsOf_concat {sent : List (Overview μ)} {last : Overview μ} (h : sent.getLast? = some last)
    (next : Overview μ) :
    eventsOf (sent ++ [next]) = eventsOf sent ++ [.patch (overviewPatch last next)] := by
  cases sent with
  | nil => cases h
  | cons first later =>
    rw [List.getLast?_cons, Option.some.injEq] at h
    rw [List.cons_append, eventsOf, patchesFrom_concat, h, eventsOf, List.cons_append]

theorem length_patchesFrom (previous : Overview μ) (later : List (Overview μ)) :
    (patchesFrom previous later).length = later.length := by
  induction later generalizing previous with
  | nil => rfl
  | cons overview later ih => rw [patchesFrom, List.length_cons, ih, List.length_cons]

theorem length_eventsOf (sent : List (Overview μ)) : (eventsOf sent).length = sent.length := by
  cases sent with
  | nil => rfl
  | cons first later => rw [eventsOf, List.length_cons, length_patchesFrom, List.length_cons]

theorem patchesFrom_getElem? {previous a b : Overview μ} {later : List (Overview μ)} {k : Nat}
    (ha : (previous :: later)[k]? = some a) (hb : later[k]? = some b) :
    (patchesFrom previous later)[k]? = some (.patch (overviewPatch a b)) := by
  induction k generalizing previous later with
  | zero =>
    cases later with
    | nil => cases hb
    | cons overview later =>
      obtain rfl := Option.some.inj ha
      obtain rfl := Option.some.inj hb
      rfl
  | succ k ih =>
    cases later with
    | nil => cases hb
    | cons overview later =>
      rw [List.getElem?_cons_succ] at ha hb
      rw [patchesFrom, List.getElem?_cons_succ]
      exact ih ha hb

/-- The event after an overview is the patch to the next. -/
theorem eventsOf_getElem? {sent : List (Overview μ)} {a b : Overview μ} {k : Nat} (ha : sent[k]? = some a)
    (hb : sent[k + 1]? = some b) :
    (eventsOf sent)[k + 1]? = some (.patch (overviewPatch a b)) := by
  cases sent with
  | nil => cases ha
  | cons first later =>
    rw [List.getElem?_cons_succ] at hb
    rw [eventsOf, List.getElem?_cons_succ]
    exact patchesFrom_getElem? ha hb

/-! ## What is read back -/

theorem homeMachineOf_congr {left right : List (MachineSummary μ)} (h : SameMachines left right) :
    homeMachineOf left = homeMachineOf right ∧ left.isEmpty = right.isEmpty := by
  have hfind : ∀ machines : List (MachineSummary μ), homeMachineOf machines =
      ((machines.map fun machine => (machine.kind, machine.id)).find? fun entry => entry.1 == .local).map Prod.snd := by
    intro machines
    rw [homeMachineOf, List.find?_map, Option.map_map]
    rfl
  refine ⟨by rw [hfind, hfind, h], ?_⟩
  have hempty := congrArg List.isEmpty h
  rwa [List.isEmpty_map, List.isEmpty_map] at hempty

variable {machine home : String} {states : Set (Overview μ)}

theorem snapshot_congr (mirror : RemoteMirror) (overview : Overview μ) {machines : List (MachineSummary μ)}
    (h : SameMachines machines overview.machines) :
    mirror.snapshot machine { overview with machines } = mirror.snapshot machine overview := by
  rw [RemoteMirror.snapshot, (homeMachineOf_congr h).1]
  rfl

theorem patch_congr (mirror : RemoteMirror) (patch : OverviewPatch μ) {machines : List (MachineSummary μ)}
    (h : SameMachines machines patch.machines) :
    mirror.patch machine { patch with machines } = mirror.patch machine patch := by
  obtain ⟨hhome, hempty⟩ := homeMachineOf_congr h
  have hrefreshed : mirror.refreshedHome machines = mirror.refreshedHome patch.machines := by
    rw [RemoteMirror.refreshedHome, hhome, hempty]
    rfl
  rw [RemoteMirror.patch, hrefreshed]
  rfl

/-! ## What is shown -/

theorem values_observable (sessions : Std.ExtTreeMap String SessionSummary) :
    (Index.values sessions).map SessionSummary.observable = 
      Index.values (sessions.map fun _ (session : SessionSummary) => session.observable) := by
  simp [Index.values, Std.ExtTreeMap.toList_map]

/-- Mirrors that are observably the same list observably the same sessions. -/
theorem sessionList_observable {left right : RemoteMirror} (h : ObservablySame left.sessions right.sessions) :
    left.sessionList.map SessionSummary.observable = right.sessionList.map SessionSummary.observable := by
  have hsame : left.sessions.map (fun _ (session : SessionSummary) => session.observable) =
      right.sessions.map fun _ (session : SessionSummary) => session.observable := by
    refine Std.ExtTreeMap.ext_getElem? fun pane => ?_
    rw [Std.ExtTreeMap.getElem?_map, Std.ExtTreeMap.getElem?_map]
    exact observablySame_iff.mp h pane
  have hsort : ∀ mirror : RemoteMirror, mirror.sessionList.map SessionSummary.observable =
      ((Index.values mirror.sessions).map SessionSummary.observable).insertionSort fun left right =>
        left.id ≤ right.id := by
    intro mirror
    exact List.map_insertionSort _ _ _ _ fun _ _ _ _ => .rfl
  rw [hsort, hsort, values_observable, values_observable, hsame]

theorem shown_observable {left right : List SessionSummary}
    (h : left.map SessionSummary.observable = right.map SessionSummary.observable) :
    (left.filter fun session => session.name != reservedServiceSession).map SessionSummary.observable =
      (right.filter fun session => session.name != reservedServiceSession).map SessionSummary.observable := by
  have hfilter : ∀ sessions : List SessionSummary,
      (sessions.filter fun session => session.name != reservedServiceSession).map SessionSummary.observable =
        (sessions.map SessionSummary.observable).filter fun session => session.name != reservedServiceSession := by
    intro sessions
    rw [List.filter_map]
    rfl
  rw [hfilter, hfilter, h]

theorem mirrored_shown {mirror : RemoteMirror} {o : Overview μ} (hhome : ValidMachineId home)
    (hnode : NodeOverview home o)
    (h : ObservablySame mirror.sessions (mirrored machine home o.sessions)) :
    (mirror.sessionList.filter fun session => session.name != reservedServiceSession).map SessionSummary.observable =
      (freshSessions machine o).map SessionSummary.observable :=
  shown_observable (sessionList_observable (snapshot_sessions {} hnode hhome ▸ h))

/-! ## What is kept -/

/-- A subscription is where its progress says: what is decoded and what is on
its way are the events still to be handled, and the mirror follows the overview
of the last event that was. -/
structure Link.Kept (json : OverviewJson μ) (machine home : String) (states : Set (Overview μ)) [BEq μ]
    (link : Link μ) (progress : Progress μ) : Prop where
  node : ∀ o ∈ progress.sent, o ∈ states
  wokenNode : progress.woken ∈ states
  last : progress.sent.getLast? = some link.previous
  woken : progress.woken = link.previous ∨ wakePatch link.previous progress.woken = none
  stream : ∃ read rest, ReadsTo link.decoder read ∧ Closed (read ++ link.wire) ∧
    decodeStream (read ++ link.wire) = decodeStream read ++ rest ∧
    link.pending ++ rest = ((eventsOf progress.sent).drop progress.handled).map (sseOf json)
  mirror : ∀ k, progress.handled = k + 1 → ∃ o, progress.sent[k]? = some o ∧ Mirrors machine home link.mirror o

/-- The machine's entry holds what the mirror does, from the first event on. -/
def Filed (link : Option (Link μ × Progress μ)) (remote : RemoteState μ) : Prop :=
  match link with
  | none => remote.online = false
  | some (link, progress) =>
    (progress.handled = 0 → remote.online = false) ∧
      ∀ k o, progress.handled = k + 1 → progress.sent[k]? = some o → remote.online = true ∧ remote.health = o.health ∧
        remote.sessions = link.mirror.sessionList.filter fun session => session.name != reservedServiceSession

/-- What every step keeps. -/
structure World.Kept (json : OverviewJson μ) (machine home : String) (states : Set (Overview μ)) [BEq μ]
    (w : World μ) : Prop where
  node : w.node ∈ states
  ended : ∀ error ∈ w.ended, error.OfTransport
  configured : w.coordinator.discoverable machine = false
  local_ne : w.coordinator.control.config.localId ≠ machine
  discovery : w.coordinator.discovery.machine ≠ some machine
  link : ∀ link progress, w.link = some (link, progress) → link.Kept json machine home states progress
  entry : ∃ remote, w.coordinator.control.state.remotes[machine]? = some remote ∧ Filed w.link remote

theorem remotes_updateRemote {state : State μ} {remote : RemoteState μ} (h : state.remotes[machine]? = some remote)
    (update : RemoteState μ → RemoteState μ × Bool) :
    (state.updateRemote machine update).remotes[machine]? = some (update remote).1 := by
  rw [State.updateRemote, h]
  simp

/-- A section of another writer leaves the watched machine's entry alone. -/
theorem update_other [Inhabited μ] [BEq μ] {c c' : Coordinator μ} {update : Update μ}
    (hconfigured : c.discoverable machine = false) (hlocal : c.control.config.localId ≠ machine)
    (hdiscovery : c.discovery.machine ≠ some machine) (hother : (Label.update update).Admissible machine states)
    (hstep : c.step update = some c') :
    c'.discoverable machine = false ∧ c'.control.config.localId ≠ machine ∧ c'.discovery.machine ≠ some machine ∧
      c'.control.state.remotes[machine]? = c.control.state.remotes[machine]? := by
  obtain ⟨next, changed, hsection⟩ := Coordinator.Section.step hstep
  by_cases hmachine : update.machine c.control.config.localId = machine
  · have hsame : c' = c := by
      cases update with
      | applyMachineSessions | markMachineOffline | setMachineMetrics => exact absurd hmachine hother
      | applyRefresh | recordHealthError | applyLocalMetrics => exact absurd hmachine hlocal
      | upsertDiscovered other =>
        obtain rfl : other.id = machine := hmachine
        simp only [Coordinator.step, Option.ite_none_right_eq_some, Option.some.injEq] at hstep
        rw [← hstep.2, Coordinator.upsertDiscovered, hconfigured]
        rfl
      | removeDiscovered id =>
        obtain rfl : id = machine := hmachine
        simp only [Coordinator.step, Option.ite_none_right_eq_some, Option.some.injEq] at hstep
        rw [← hstep.2, Coordinator.removeDiscovered, hconfigured]
        rfl
      | publishDiscovered id =>
        obtain rfl : id = machine := hmachine
        simp only [Coordinator.step, Option.ite_none_right_eq_some, Option.some.injEq] at hstep
        exact absurd hstep.1 hdiscovery
    subst hsame
    exact ⟨hconfigured, hlocal, hdiscovery, rfl⟩
  · refine ⟨?_, ?_, ?_, ?_⟩
    · rw [Coordinator.discoverable, hsection.config]
      exact hconfigured
    · rw [hsection.config]
      exact hlocal
    · rw [Ne, hsection.discovery machine (Ne.symm hmachine)]
      exact hdiscovery
    · rw [hsection.state, State.publish_remotes, hsection.edits.remotes machine (Ne.symm hmachine)]

section Kept

variable [BEq μ] {json : OverviewJson μ} {w : World μ} {link : Link μ} {progress : Progress μ}

/-- A write of the watched machine's entry, with what it does to the subscription. -/
theorem World.Kept.write (h : w.Kept json machine home states) {link' : Option (Link μ × Progress μ)}
    {ended' : List WatchError}
    {update : RemoteState μ → RemoteState μ × Bool} (hended : ∀ error ∈ ended', error.OfTransport)
    (hlink : ∀ link progress, link' = some (link, progress) → link.Kept json machine home states progress)
    (hfiled : ∀ remote, w.coordinator.control.state.remotes[machine]? = some remote → Filed w.link remote →
      Filed link' (update remote).1) :
    World.Kept json machine home states
      ⟨w.node, link', w.coordinator.write (w.coordinator.control.state.updateRemote machine update), ended'⟩ := by
  obtain ⟨remote, hremote, hentry⟩ := h.entry
  exact ⟨h.node, hended, h.configured, h.local_ne, h.discovery, hlink, _, remotes_updateRemote hremote update,
    hfiled remote hremote hentry⟩

theorem World.Kept.finish (h : w.Kept json machine home states) {error : WatchError} (herror : error.OfTransport) :
    (w.finish machine error).Kept json machine home states := by
  refine h.write (fun e he => ?_) (fun _ _ hnone => by cases hnone) fun remote _ _ => rfl
  rcases List.mem_append.mp he with he | he
  · exact h.ended e he
  · exact List.mem_singleton.mp he ▸ herror

/-- A subscription of which nothing was handled or filed. -/
theorem World.Kept.move (h : w.Kept json machine home states) (hlink : w.link = some (link, progress))
    {link' : Link μ} {progress' : Progress μ}
    (hkept : link'.Kept json machine home states progress') (hmirror : link'.mirror = link.mirror)
    (hhandled : progress'.handled = progress.handled)
    (hsent : ∀ k, k < progress.handled → progress'.sent[k]? = progress.sent[k]?) :
    World.Kept json machine home states { w with link := some (link', progress') } := by
  obtain ⟨remote, hremote, hentry⟩ := h.entry
  rw [hlink] at hentry
  refine ⟨h.node, h.ended, h.configured, h.local_ne, h.discovery, ?_, remote, hremote, ?_, ?_⟩
  · rintro _ _ ⟨⟩
    exact hkept
  · intro hzero
    exact hentry.1 (hhandled ▸ hzero)
  · intro k o hk ho
    rw [hhandled] at hk
    rw [hsent k (by omega)] at ho
    rw [hmirror]
    exact hentry.2 k o hk ho

/-- The next event was handled: the mirror follows its overview. -/
theorem Link.Kept.handled (h : link.Kept json machine home states progress) {event : SseEvent}
    {pending : List SseEvent} {o : Overview μ}
    {mirror : RemoteMirror} (hpending : link.pending = event :: pending)
      (ho : progress.sent[progress.handled]? = some o)
    (hmirror : Mirrors machine home mirror o) (metrics : Option μ) :
    Link.Kept json machine home states { link with pending, mirror, metrics }
      { progress with handled := progress.handled + 1 } := by
  obtain ⟨read, rest, hreads, hclosed, hdecoded, hwaiting⟩ := h.stream
  refine ⟨h.node, h.wokenNode, h.last, h.woken, ⟨read, rest, hreads, hclosed, hdecoded, ?_⟩, ?_⟩
  · rw [hpending, List.cons_append] at hwaiting
    have htail := congrArg List.tail hwaiting
    rw [List.tail_cons, List.map_drop, List.tail_drop, ← List.map_drop] at htail
    exact htail
  · intro k hk
    obtain rfl : progress.handled = k := by simpa using hk
    exact ⟨o, ho, hmirror⟩

theorem World.Kept.file (h : w.Kept json machine home states) (hlink : w.link = some (link, progress))
    {event : SseEvent}
    {pending : List SseEvent} {o : Overview μ} {mirror : RemoteMirror} (hpending : link.pending = event :: pending)
    (ho : progress.sent[progress.handled]? = some o) (hmirror : Mirrors machine home mirror o)
    (machines : List (MachineSummary μ)) (now : Nat) :
    (w.file machine { link with pending } progress mirror o.health machines now).Kept json machine home states := by
  refine h.write h.ended ?_ fun remote _ _ => ⟨fun hzero => ?_, fun k o' hk ho' => ?_⟩
  · rintro _ _ ⟨⟩
    exact (h.link link progress hlink).handled hpending ho hmirror _
  · cases hzero
  · obtain rfl : progress.handled = k := by simpa using hk
    obtain rfl := Option.some.inj (ho.symm.trans ho')
    exact ⟨rfl, rfl, rfl⟩

/-- The next event is the snapshot, at the start, or the patch to the next overview. -/
theorem Link.Kept.next (h : link.Kept json machine home states progress) {event : SseEvent} {pending : List SseEvent}
    (hpending : link.pending = event :: pending) :
    ∃ o, progress.sent[progress.handled]? = some o ∧
      (progress.handled = 0 ∧ event = sseOf json (.snapshot o) ∨
        ∃ k a, progress.handled = k + 1 ∧ progress.sent[k]? = some a ∧ Mirrors machine home link.mirror a ∧
          event = sseOf json (.patch (overviewPatch a o))) := by
  obtain ⟨read, rest, hreads, hclosed, hdecoded, hwaiting⟩ := h.stream
  rw [hpending, List.cons_append] at hwaiting
  have hhead := congrArg List.head? hwaiting
  rw [List.head?_cons, List.head?_map, List.head?_drop] at hhead
  obtain ⟨next, hnext, hevent⟩ := Option.map_eq_some_iff.mp hhead.symm
  have hlt : progress.handled < progress.sent.length := by
    rw [← length_eventsOf]
    exact (List.getElem?_eq_some_iff.mp hnext).1
  obtain ⟨o, ho⟩ : ∃ o, progress.sent[progress.handled]? = some o := ⟨_, List.getElem?_eq_getElem hlt⟩
  refine ⟨o, ho, ?_⟩
  cases hhandled : progress.handled with
  | zero =>
    refine .inl ⟨rfl, ?_⟩
    rw [hhandled] at hnext ho
    cases hsent : progress.sent with
    | nil =>
      rw [hsent] at ho
      cases ho
    | cons first later =>
      rw [hsent] at hnext ho
      obtain rfl := Option.some.inj ho
      obtain rfl := Option.some.inj hnext
      exact hevent.symm
  | succ k =>
    obtain ⟨a, ha, hmirrors⟩ := h.mirror k hhandled
    rw [hhandled] at hnext ho
    rw [eventsOf_getElem? ha ho] at hnext
    obtain rfl := Option.some.inj hnext
    exact .inr ⟨k, a, rfl, ha, hmirrors, hevent.symm⟩

/-- No event is refused. -/
theorem World.Kept.handle (h : w.Kept json machine home states) (hjson : json.Carries states)
    (hstates : ∀ o ∈ states, NodeOverview home o)
    (hhome : ValidMachineId home) (hlink : w.link = some (link, progress)) {event : SseEvent} {pending : List SseEvent}
    (hpending : link.pending = event :: pending) (now : Nat) :
    (w.handle json machine { link with pending } progress event now).Kept json machine home states := by
  have hkept := h.link link progress hlink
  obtain ⟨o, ho, hcases⟩ := hkept.next hpending
  have hmem : o ∈ states := hkept.node o (List.mem_of_getElem? ho)
  rcases hcases with ⟨hzero, rfl⟩ | ⟨k, a, hk, ha, hmirrors, rfl⟩
  · obtain ⟨text, machines, htext, -, hsame, hread⟩ := hjson.snapshot o hmem
    have hhandle : w.handle json machine { link with pending } progress (sseOf json (.snapshot o)) now =
        w.file machine { link with pending } progress (link.mirror.snapshot machine { o with machines }) o.health
          machines now := by
      simp only [World.handle, sseOf, htext, Option.getD_some, hread]
    rw [hhandle, snapshot_congr _ o hsame]
    exact h.file hlink hpending ho (.snapshot (hstates o hmem) hhome) machines now
  · have hprior : a ∈ states := hkept.node a (List.mem_of_getElem? ha)
    obtain ⟨text, machines, htext, -, hsame, hread⟩ := hjson.patch a hprior o hmem
    obtain ⟨next, hpatch, hnext⟩ := hmirrors.patch (hstates a hprior) (hstates o hmem) hhome
    rw [← patch_congr link.mirror (overviewPatch a o) hsame] at hpatch
    have hhandle : w.handle json machine { link with pending } progress (sseOf json (.patch (overviewPatch a o))) now =
        w.file machine { link with pending } progress next o.health machines now := by
      simp only [World.handle, sseOf, htext, Option.getD_some, hread, hpatch]
      rfl
    rw [hhandle]
    exact h.file hlink hpending ho hnext machines now

/-- No more events are handled than were sent. -/
theorem Link.Kept.handled_le (h : link.Kept json machine home states progress) :
    progress.handled ≤ progress.sent.length := by
  cases hk : progress.handled with
  | zero => omega
  | succ k =>
    obtain ⟨o, ho, -⟩ := h.mirror k hk
    exact (List.getElem?_eq_some_iff.mp ho).1

/-- More of the stream is written. -/
theorem Link.Kept.wrote (h : link.Kept json machine home states progress) {bytes : List UInt8}
    {events : List (StreamEvent μ)}
    {progress' : Progress μ} {previous : Overview μ}
      (hbytes : Closed bytes ∧ decodeStream bytes = events.map (sseOf json))
    (hevents : eventsOf progress'.sent = eventsOf progress.sent ++ events)
    (hhandled : progress'.handled = progress.handled) (hsent : progress.sent <+: progress'.sent)
    (hnode : ∀ o ∈ progress'.sent, o ∈ states) (hlast : progress'.sent.getLast? = some previous)
    (hwokenNode : progress'.woken ∈ states)
    (hwoken : progress'.woken = previous ∨ wakePatch previous progress'.woken = none) :
    Link.Kept json machine home states { link with wire := link.wire ++ bytes, previous } progress' := by
  obtain ⟨read, rest, hreads, hclosed, hdecoded, hwaiting⟩ := h.stream
  obtain ⟨hend, hread⟩ := hbytes
  have hle : progress.handled ≤ (eventsOf progress.sent).length := by
    rw [length_eventsOf]
    exact h.handled_le
  refine ⟨hnode, hwokenNode, hlast, hwoken, ⟨read, rest ++ events.map (sseOf json), hreads, ?_, ?_, ?_⟩, fun k hk => ?_⟩
  · rw [← List.append_assoc]
    exact hclosed.append_closed hend
  · rw [← List.append_assoc, hclosed.decodeStream_append, hdecoded, hread, List.append_assoc]
  · rw [hevents, hhandled, List.drop_append_of_le_length hle, List.map_append, ← hwaiting, List.append_assoc]
  · obtain ⟨o, ho, hmirrors⟩ := h.mirror k (hhandled ▸ hk)
    refine ⟨o, ?_, hmirrors⟩
    obtain ⟨more, hmore⟩ := hsent
    rw [← hmore, List.getElem?_append_left (List.getElem?_eq_some_iff.mp ho).1, ho]

/-- Where nothing is left to read or to handle, the last event was handled. -/
theorem Link.Kept.caughtUp (h : link.Kept json machine home states progress) (hwire : link.wire = [])
    (hpending : link.pending = []) :
    ∃ k, progress.handled = k + 1 ∧ progress.sent[k]? = some link.previous := by
  obtain ⟨read, rest, -, -, hdecoded, hwaiting⟩ := h.stream
  rw [hwire, List.append_nil] at hdecoded
  have hrest : rest = [] := List.self_eq_append_right.mp hdecoded
  rw [hpending, hrest, List.append_nil] at hwaiting
  have hall : progress.sent.length ≤ progress.handled := by
    rw [← length_eventsOf]
    exact List.drop_eq_nil_iff.mp (List.map_eq_nil_iff.mp hwaiting.symm)
  have heq : progress.handled = progress.sent.length := le_antisymm h.handled_le hall
  have hlast := h.last
  rw [List.getLast?_eq_getElem?] at hlast
  have hpos : 0 < progress.sent.length := by
    cases hsent : progress.sent with
    | nil =>
      rw [hsent] at hlast
      cases hlast
    | cons first later => simp
  exact ⟨progress.sent.length - 1, by omega, hlast⟩

/-- A wake that is not worth an event has the health that was sent. -/
theorem wakePatch_health {previous current : Overview μ} (h : wakePatch previous current = none) :
    current.health = previous.health := by
  simp only [wakePatch] at h
  split at h
  · cases h
  next hno =>
  simp only [Bool.or_eq_true, not_or] at hno
  simpa [overviewPatch] using hno.1.2

theorem World.Kept.frame (h : w.Kept json machine home states) (hlink : w.link = some (link, progress))
    (hpending : link.pending = [])
    {length : Nat} {decoder : SseDecoder} {pending : List SseEvent}
    (hpush : link.decoder.push (link.wire.take length) [] = .ok (decoder, pending)) :
    World.Kept json machine home states
      { w with link := some ({ link with wire := link.wire.drop length, decoder, pending }, progress) } := by
  have hkept := h.link link progress hlink
  obtain ⟨read, rest, hreads, hclosed, hdecoded, hwaiting⟩ := hkept.stream
  refine h.move hlink ⟨hkept.node, hkept.wokenNode, hkept.last, hkept.woken, ?_, hkept.mirror⟩ rfl rfl fun _ _ => rfl
  rcases hreads.frame (link.wire.take length) with herror | ⟨decoder', events, hok, hreads', hevents⟩
  · rw [herror] at hpush
    cases hpush
  obtain ⟨rfl, rfl⟩ := Prod.mk.inj (Except.ok.inj (hok.symm.trans hpush))
  have hwire : read ++ link.wire.take length ++ link.wire.drop length = read ++ link.wire := by
    rw [List.append_assoc, List.take_append_drop]
  obtain ⟨later, hlater⟩ := decodeStream_more (read ++ link.wire.take length) (link.wire.drop length)
  refine ⟨read ++ link.wire.take length, later, hreads', hwire ▸ hclosed, hlater, ?_⟩
  rw [hwire, hdecoded, hevents, List.append_assoc] at hlater
  rw [← List.append_cancel_left hlater, ← hwaiting, hpending, List.nil_append]

end Kept

/-! ## Steps and runs -/

theorem read_eventBytes {writer : SseWriter} (hwriter : writer.Standard) {kind text : String}
    {written : Option String} (hkind : SingleLine kind)
    (htext : written = some text) (hline : SingleLine text) (revision : Nat) :
    Closed (World.eventBytes writer kind revision written) ∧
      decodeStream (World.eventBytes writer kind revision written) = [⟨kind, written.getD ""⟩] := by
  subst htext
  exact hwriter.read_event hkind hline revision

section Runs

variable [Inhabited μ] [BEq μ] {writer : SseWriter} {json : OverviewJson μ} {w w' : World μ} {label : Label μ}

/-- **One step** of any party keeps the watch in order. -/
theorem World.Kept.step (h : w.Kept json machine home states) (hwriter : writer.Standard) (hjson : json.Carries states)
    (hstates : ∀ o ∈ states, NodeOverview home o) (hhome : ValidMachineId home)
      (hstep : w.Step writer json machine states label w') : w'.Kept json machine home states := by
  obtain ⟨hadmissible, hstep⟩ := hstep
  cases label with
  | overview node =>
    obtain rfl := Option.some.inj hstep
    exact { h with node := hadmissible }
  | update update =>
    obtain ⟨coordinator, hupdate, rfl⟩ := Option.map_eq_some_iff.mp hstep
    obtain ⟨hconfigured, hlocal, hdiscovery, hremotes⟩ :=
      update_other h.configured h.local_ne h.discovery hadmissible hupdate
    obtain ⟨remote, hremote, hfiled⟩ := h.entry
    exact ⟨h.node, h.ended, hconfigured, hlocal, hdiscovery, h.link, remote, hremotes.trans hremote, hfiled⟩
  | connect =>
    rw [World.step] at hstep
    split at hstep
    next => cases hstep
    next hnone =>
      obtain rfl := Option.some.inj hstep
      obtain ⟨remote, hremote, hfiled⟩ := h.entry
      rw [hnone] at hfiled
      refine ⟨h.node, h.ended, h.configured, h.local_ne, h.discovery, ?_, remote, hremote, fun _ => hfiled,
        fun k o hk => ?_⟩
      · rintro _ _ ⟨⟩
        obtain ⟨text, -, htext, hline, -⟩ := hjson.snapshot w.node h.node
        obtain ⟨hclosed, hread⟩ := read_eventBytes hwriter (by decide : SingleLine "sessions.snapshot") htext hline
          w.node.revision
        refine ⟨fun o ho => List.mem_singleton.mp ho ▸ h.node, h.node, rfl, .inl rfl, ?_, fun k hk => ?_⟩
        · exact ⟨[], _, .new, hclosed, hread, rfl⟩
        · cases hk
      · cases hk
  | wake =>
    rw [World.step] at hstep
    obtain ⟨⟨link, progress⟩, hlink, rfl⟩ := Option.map_eq_some_iff.mp hstep
    have hkept := h.link link progress hlink
    dsimp only
    rcases wakePatch_cases link.previous w.node with hsent | ⟨hnone, -⟩
    · rw [hsent]
      obtain ⟨text, -, htext, hline, -⟩ := hjson.patch _ (hkept.node _ (List.mem_of_getLast? hkept.last)) _ h.node
      have hbytes : Closed (World.patchBytes writer json (overviewPatch link.previous w.node)) ∧
          decodeStream (World.patchBytes writer json (overviewPatch link.previous w.node)) =
            [StreamEvent.patch (overviewPatch link.previous w.node)].map (sseOf json) :=
        read_eventBytes hwriter (by decide : SingleLine "sessions.patch") htext hline _
      refine h.move hlink (hkept.wrote hbytes (eventsOf_concat hkept.last w.node) rfl (List.prefix_append _ _) ?_
        (by simp) h.node
        (.inl rfl)) rfl rfl fun k hk => ?_
      · intro o ho
        rcases List.mem_append.mp ho with ho | ho
        · exact hkept.node o ho
        · exact List.mem_singleton.mp ho ▸ h.node
      · exact List.getElem?_append_left (lt_of_lt_of_le hk hkept.handled_le)
    · rw [hnone]
      exact h.move hlink { hkept with wokenNode := h.node, woken := .inr hnone } rfl rfl fun _ _ => rfl
  | keepAlive =>
    rw [World.step] at hstep
    obtain ⟨⟨link, progress⟩, hlink, rfl⟩ := Option.map_eq_some_iff.mp hstep
    have hkept := h.link link progress hlink
    have hbytes : Closed writer.keepAlive ∧ decodeStream writer.keepAlive =
      ([] : List (StreamEvent μ)).map (sseOf json) :=
      hwriter.read_keepAlive
    exact h.move hlink (hkept.wrote hbytes (List.append_nil _).symm rfl List.prefix_rfl hkept.node hkept.last
      hkept.wokenNode
      hkept.woken) rfl rfl fun _ _ => rfl
  | frame length =>
    rw [World.step] at hstep
    split at hstep
    next link progress hlink =>
      split at hstep
      next hready =>
        rw [Bool.and_eq_true, List.isEmpty_iff] at hready
        split at hstep
        next error _ =>
          obtain rfl := Option.some.inj hstep
          exact h.finish trivial
        next decoder pending hpush =>
          obtain rfl := Option.some.inj hstep
          exact h.frame hlink hready.1 hpush
      next => cases hstep
    next => cases hstep
  | fail reason =>
    rw [World.step] at hstep
    split at hstep
    · split at hstep
      · obtain rfl := Option.some.inj hstep
        exact h.finish trivial
      · cases hstep
    · obtain rfl := Option.some.inj hstep
      exact h.finish trivial
  | event now =>
    rw [World.step] at hstep
    split at hstep
    next link progress hlink =>
      split at hstep
      next event pending hpending _ =>
        obtain rfl := Option.some.inj hstep
        exact h.handle hjson hstates hhome hlink hpending now
      next => cases hstep
    next => cases hstep
  | metrics =>
    rw [World.step] at hstep
    split at hstep
    next link progress hlink =>
      obtain ⟨metrics, hmetrics, rfl⟩ := Option.map_eq_some_iff.mp hstep
      refine h.write h.ended ?_ fun remote hremote hfiled => ?_
      · rintro _ _ ⟨⟩
        exact { h.link link progress hlink with }
      · rw [hlink] at hfiled
        split
        · exact hfiled
        · exact hfiled
    next => cases hstep

theorem World.Kept.start {config : NodeConfig} {machines : List RemoteMachine}
    (hfederation : Coordinator.ValidFederation config.localId machines)
    {watched : RemoteMachine} (hwatched : watched ∈ machines) {node : Overview μ} (hnode : node ∈ states) :
    (World.start config machines node).Kept json watched.id home states := by
  have hnodup := List.nodup_cons.mp hfederation.distinct
  have hremote : (World.start config machines node).coordinator.control.state.remotes[watched.id]? =
    some RemoteState.connecting := by
    show ((Index.indexBy RemoteMachine.id machines).map fun _ _ => RemoteState.connecting)[watched.id]? =
      some RemoteState.connecting
    rw [Std.ExtTreeMap.getElem?_map, Index.getElem?_indexBy_of_mem hnodup.2 hwatched]
    rfl
  refine ⟨hnode, fun _ he => absurd he List.not_mem_nil, ?_, ?_, ?_, fun _ _ hnone => (by cases hnone), _, hremote, rfl⟩
  · have hconfigured : (machines.map RemoteMachine.id).contains watched.id = true := by
      simpa using ⟨watched, hwatched, rfl⟩
    show (!(watched.id == config.localId || (machines.map RemoteMachine.id).contains watched.id)) = false
    rw [hconfigured, Bool.or_true, Bool.not_true]
  · intro heq
    exact hnodup.1 (heq ▸ List.mem_map_of_mem hwatched)
  · intro hnone
    cases hnone

omit [Inhabited μ] in
theorem World.Kept.follows (h : w.Kept json machine home states) (hstates : ∀ o ∈ states, NodeOverview home o)
    (hhome : ValidMachineId home) :
    w.Follows machine := by
  obtain ⟨remote, hremote, hfiled⟩ := h.entry
  have hshows : ∀ link progress, w.link = some (link, progress) → ∀ k, progress.handled = k + 1 → ∀ o,
    progress.sent[k]? = some o →
      remote.online = true ∧ remote.health = o.health ∧ remote.sessions =
        link.mirror.sessionList.filter fun session => session.name != reservedServiceSession := by
    intro link progress hlink k hk o ho
    rw [hlink] at hfiled
    exact hfiled.2 k o hk ho
  refine ⟨h.ended, fun hnone other hother => ?_, fun link progress hlink k hk => ?_,
    fun link progress hlink hwire hpending => ?_⟩
  · obtain rfl := Option.some.inj (hremote.symm.trans hother)
    cases hlink : w.link with
    | none =>
      rw [hlink] at hfiled
      exact hfiled
    | some subscription =>
      obtain ⟨link, progress⟩ := subscription
      rw [hlink] at hfiled
      exact hfiled.1 (hnone link progress hlink)
  · have hkept := h.link link progress hlink
    obtain ⟨o, ho, hmirrors⟩ := hkept.mirror k hk
    obtain ⟨honline, hhealth, hsessions⟩ := hshows link progress hlink k hk o ho
    refine ⟨remote, o, hremote, ho, honline, hhealth, ?_⟩
    rw [hsessions]
    exact mirrored_shown hhome (hstates o (hkept.node o (List.mem_of_getElem? ho))) hmirrors.sessions
  · have hkept := h.link link progress hlink
    obtain ⟨k, hk, hlast⟩ := hkept.caughtUp hwire hpending
    obtain ⟨o, ho, hmirrors⟩ := hkept.mirror k hk
    obtain ⟨honline, hhealth, hsessions⟩ := hshows link progress hlink k hk o ho
    obtain rfl := Option.some.inj (ho.symm.trans hlast)
    have hnode := hstates _ (hkept.node _ (List.mem_of_getElem? ho))
    have hwoken : progress.woken.health = link.previous.health ∧
        ObservablySame link.mirror.sessions (mirrored machine home progress.woken.sessions) := by
      rcases hkept.woken with heq | hquiet
      · rw [heq]
        exact ⟨rfl, hmirrors.sessions⟩
      · exact ⟨wakePatch_health hquiet, hmirrors.suppressed hnode (hstates _ hkept.wokenNode) hhome hquiet⟩
    refine ⟨remote, hremote, honline, hhealth.trans hwoken.1.symm, ?_⟩
    rw [hsessions]
    exact mirrored_shown hhome (hstates _ hkept.wokenNode) hwoken.2

theorem run_of_foldlM {labels : List (Label μ)} (hadmissible : ∀ label ∈ labels, label.Admissible machine states)
    (h : labels.foldlM (World.step writer json machine) w = some w') :
      Run (World.Step writer json machine states) w labels w' := by
  induction labels generalizing w with
  | nil =>
    obtain rfl := Option.some.inj h
    exact .nil w
  | cons label labels ih =>
    rw [List.foldlM_cons] at h
    obtain ⟨next, hnext, hrest⟩ := Option.bind_eq_some_iff.mp h
    obtain ⟨hlabel, hlabels⟩ := List.forall_mem_cons.mp hadmissible
    exact .cons ⟨hlabel, hnext⟩ (ih hlabels hrest)

/-- **The coordinator follows the node.** However the pieces of the stream, the
wakes of the node, the failures of the transport and the other writers of the
coordinator fall, a subscription is never given up for what it carries, the
machine shows the overviews that were sent in their order, and when everything
written has been handled it shows the overview the node last woke with. -/
theorem overview_arrives (writer : SseWriter) (hwriter : writer.Standard) (json : OverviewJson μ)
    (hjson : json.Carries states)
    (hstates : ∀ o ∈ states, NodeOverview home o) (hhome : ValidMachineId home) {config : NodeConfig}
      {machines : List RemoteMachine}
    (hfederation : Coordinator.ValidFederation config.localId machines) {watched : RemoteMachine}
      (hwatched : watched ∈ machines)
    {node : Overview μ} (hnode : node ∈ states) {labels : List (Label μ)}
    (hrun : Run (World.Step writer json watched.id states) (World.start config machines node) labels w) :
    w.Follows watched.id := by
  have hkept : w.Kept json watched.id home states :=
    hrun.invariant (fun h hstep => h.step hwriter hjson hstates hhome hstep) (.start hfederation hwatched hnode)
  exact hkept.follows hstates hhome

end Runs

/-! ### A pane that closes -/

private def opened : Overview Unit :=
  ⟨1, [shellSummary "lab" "%1" "%1", shellSummary "gpu" "gpu~%1" "%1"], none,
    [machineSummary "lab" .local, machineSummary "gpu" .remote]⟩

/-- The node's own pane is gone. -/
private def emptied : Overview Unit :=
  ⟨3, [shellSummary "gpu" "gpu~%1" "%1"], none, [machineSummary "lab" .local, machineSummary "gpu" .remote]⟩

private def standardWriter : SseWriter where
  event kind revision text := unlines (eventLines kind revision text)
  plain kind text := unlines ["event: " ++ kind, "data: " ++ text, ""]
  keepAlive := unlines [": keep-alive", ""]

private def snapshots : List (Overview Unit × String) := [(opened, "[1]"), (emptied, "[3]")]

private def patches : List (OverviewPatch Unit × String) :=
  [(overviewPatch opened opened, "[1,1]"), (overviewPatch opened emptied, "[1,3]"),
    (overviewPatch emptied opened, "[3,1]"),
    (overviewPatch emptied emptied, "[3,3]")]

private def tableJson : OverviewJson Unit where
  snapshot o := (snapshots.find? fun entry => entry.1 = o).map Prod.snd
  patch patch := (patches.find? fun entry => entry.1 = patch).map Prod.snd
  readSnapshot text := (snapshots.find? fun entry => entry.2 = text).map Prod.fst
  readPatch text := (patches.find? fun entry => entry.2 = text).map Prod.fst

private theorem tableJson_carries : tableJson.Carries {opened, emptied} where
  snapshot o ho := by
    rcases ho with rfl | rfl
    · exact ⟨"[1]", opened.machines, by decide +kernel, by decide, rfl, by decide +kernel⟩
    · exact ⟨"[3]", emptied.machines, by decide +kernel, by decide, rfl, by decide +kernel⟩
  patch a ha b hb := by
    rcases ha with rfl | rfl <;> rcases hb with rfl | rfl
    · exact ⟨"[1,1]", opened.machines, by decide +kernel, by decide, rfl, by decide +kernel⟩
    · exact ⟨"[1,3]", emptied.machines, by decide +kernel, by decide, rfl, by decide +kernel⟩
    · exact ⟨"[3,1]", opened.machines, by decide +kernel, by decide, rfl, by decide +kernel⟩
    · exact ⟨"[3,3]", emptied.machines, by decide +kernel, by decide, rfl, by decide +kernel⟩

private theorem standardWriter_standard : standardWriter.Standard where
  event _ _ := rfl
  keepAlive := ⟨" keep-alive", by decide, rfl⟩

private theorem opened_node : NodeOverview "lab" opened := by
  refine ⟨by decide, by decide, by decide, fun s hs => ?_⟩
  rcases List.mem_pair.mp hs with rfl | rfl
  · exact .inl ⟨rfl, by decide, .inl rfl⟩
  · exact .inr ⟨by decide, by decide, by decide⟩

private theorem emptied_node : NodeOverview "lab" emptied := by
  refine ⟨by decide, by decide, by decide, fun s hs => ?_⟩
  obtain rfl := List.mem_singleton.mp hs
  exact .inr ⟨by decide, by decide, by decide⟩

/-- The pane closes while the snapshot is on its way, which comes in two pieces. -/
private def closing : List (Label Unit) :=
  [.connect, .frame 40, .overview emptied, .keepAlive, .update (.recordHealthError "no server"), .wake, .frame 1000,
    .event 5, .metrics,
    .event 6, .metrics]

private def coordinatorConfig : NodeConfig := ⟨"laptop", "Laptop", false, false, []⟩

private def labBox : RemoteMachine := ⟨"lab-box", "Lab", "lab:8443"⟩

theorem overview_arrives_example :
    ∃ w, Run (World.Step standardWriter tableJson "lab-box" {opened, emptied})
      (World.start coordinatorConfig [labBox] opened) closing w ∧
      (∃ link progress, w.link = some (link, progress) ∧ progress.handled = 2) ∧ w.Follows "lab-box" := by
  have hhandled : (closing.foldlM (World.step standardWriter tableJson "lab-box")
    (World.start coordinatorConfig [labBox] opened)).any
      (fun w => w.link.any fun subscription => subscription.2.handled == 2) = true := by
    decide +kernel
  obtain ⟨w, hfold, hlink⟩ := (Option.any_eq_true _ _).mp hhandled
  obtain ⟨⟨link, progress⟩, hlink, htwo⟩ := (Option.any_eq_true _ _).mp hlink
  have hadmissible : ∀ label ∈ closing, label.Admissible "lab-box" ({opened, emptied} : Set (Overview Unit)) := by
    simp [closing, Label.Admissible]
  have hrun : Run (World.Step standardWriter tableJson "lab-box" {opened, emptied})
    (World.start coordinatorConfig [labBox] opened) closing w :=
    run_of_foldlM hadmissible hfold
  have hstates : ∀ o ∈ ({opened, emptied} : Set (Overview Unit)), NodeOverview "lab" o := by
    rintro o (rfl | rfl)
    · exact opened_node
    · exact emptied_node
  refine ⟨w, hrun, ⟨link, progress, hlink, by simpa using htwo⟩, ?_⟩
  exact overview_arrives standardWriter standardWriter_standard tableJson tableJson_carries hstates (by decide)
    ⟨by decide, by decide, by decide⟩ (List.mem_singleton_self labBox) (.inl rfl) hrun

end Atmux.Watch
