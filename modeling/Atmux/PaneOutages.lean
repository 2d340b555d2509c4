/-
What the stream of a pane says of the outages of its machine.

A wake first compares the hash that the pane is listed with to the last one
that was sent, and reads the pane only if they differ; a failed read is told
unless the last thing that was told is the same. `Episode` is what an observer
of the machine and of the stream has seen of the last outage.
`outages_told_iff` says in which runs every reason is told once and every
return is followed by the pane's content.
-/
import Atmux.Coordinator
import Atmux.OverviewStream
import Atmux.PaneStream
import Atmux.Routing

namespace Atmux.PaneStream

open Lib Routing

variable {μ : Type}

/-! ## Reading a pane -/

/-- What the coordinator keeps of a pane on another machine, or a node answers. -/
structure CachedOutput where
  contentHash : String
  content : String
deriving DecidableEq, Repr

def maxOutputBytes : Nat := 65536

def tailLines (content : String) (lines : Nat) : String :=
  let all := contentLines content
  boundedTail ("\n".intercalate (all.drop (all.length - lines))) maxOutputBytes

def readError : ControlError → PaneError
  | .badRequest message => ⟨message, .badRequest⟩
  | .offline message => ⟨message, .offline⟩

section Read

variable (hasher : List (List Char) → Nat) (control : ControlPlane μ)

def mirroredContentHash (machine paneId : String) : Option String :=
  control.state.remotes[machine]?.bind fun remote =>
    (remote.sessions.find? fun session => session.paneId == paneId).map SessionSummary.contentHash

def sessionHash (session : Session) : String := Text.hex16 (observableContentHash hasher session.content)

/-- The hash that a pane is listed with. -/
def listedHash : Target → Option String
  | .local paneId .. => (findSession control.state.sessions paneId).map (sessionHash hasher)
  | .remote machine paneId .. => mirroredContentHash control machine.id paneId

/-- The hash that `pane_may_have_changed` compares; `none` when it is unknown. -/
def advertised (id : String) : Option String :=
  match findTarget control id with
  | .ok (some target) => listedHash hasher control target
  | _ => none

def freshOutput (cached : Option CachedOutput) (machine paneId : String) : Option CachedOutput :=
  (mirroredContentHash control machine paneId).bind fun expected =>
    cached.filter fun cached => cached.contentHash == expected

/-- A read of a pane: `cached` is what is kept of it, and `answer` what its
machine answers when it is asked. -/
def readPane (id : String) (cached : Option CachedOutput) (answer : Except PaneError CachedOutput) :
    Except PaneError (Option Reading) :=
  match findTarget control id with
  | .error error => .error (readError error)
  | .ok none => .ok none
  | .ok (some (.local paneId ..)) =>
    .ok ((findSession control.state.sessions paneId).map fun session =>
      ⟨control.state.revision, ControlPlane.localIdentity control.config session.paneId, session.name, sessionHash hasher session,
        tailLines session.content 2000⟩)
  | .ok (some (.remote machine paneId _ name)) =>
    match ensureOnline control machine.id with
    | .error error => .error (readError error)
    | .ok () =>
      ((freshOutput control cached machine.id paneId).elim answer .ok).map fun output =>
        some ⟨control.state.revision, compositeId machine.id paneId, name, output.contentHash, tailLines output.content 2000⟩

/-- Why a machine cannot be reached, if it cannot. -/
def outage (machine : String) : Option String :=
  if control.hasMachine machine then
    control.state.remotes[machine]?.bind fun remote =>
      if remote.online then none else some ("machine " ++ machine ++ " is offline: " ++ remote.health.getD "offline")
  else none

/-- The pane is found. -/
def present (id : String) : Bool :=
  match findTarget control id with
  | .ok (some _) => true
  | _ => false

end Read

/-! ## Outages -/

def PaneEvent.isContent : PaneEvent → Bool
  | .snapshot _ | .patch _ => true
  | .error .. | .removed => false

def PaneEvent.reason : PaneEvent → Option String
  | .error message _ => some message
  | .snapshot _ | .patch _ | .removed => none

/-- What an observer has seen of the last outage: the reasons that a turn of
the stream met, the reasons that it told, whether the machine is back and no
turn has met it since, and whether every turn that met a machine back has sent
the pane's content. -/
structure Episode where
  met : List String
  told : List String
  back : Bool
  delivered : Bool

namespace Episode

def start : Episode := ⟨[], [], false, true⟩

/-- The machine's outage before and after something happened. -/
def moved (episode : Episode) : Option String → Option String → Episode
  | none, some _ => { episode with met := [], told := [], back := false }
  | some _, none => { episode with back := true }
  | _, _ => episode

/-- A turn that met an outage or not, and the pane or not. -/
def turned (episode : Episode) (outage : Option String) (present : Bool) (events : List PaneEvent) : Episode :=
  match outage with
  | some reason =>
    { episode with met := reason :: episode.met, told := episode.told ++ events.filterMap PaneEvent.reason }
  | none =>
    if present then
      { episode with back := false, delivered := episode.delivered && (!episode.back || events.any PaneEvent.isContent) }
    else episode

/-- Every reason that was met was told once, and every return was followed by
the pane's content. -/
structure Lawful (episode : Episode) : Prop where
  once : ∀ reason, episode.told.count reason = if reason ∈ episode.met then 1 else 0
  delivered : episode.delivered = true

end Episode

/-! ## Runs -/

structure World (μ : Type) where
  coordinator : Coordinator μ
  stream : PaneEvents
  /-- The check of a wake has let the read through. -/
  checked : Bool
  episode : Episode

inductive Label (μ : Type)
  /-- A section of the coordinator. -/
  | update (update : Update μ)
  /-- The stream wakes and compares the hashes. -/
  | wake
  | read (cached : Option CachedOutput) (answer : Except PaneError CachedOutput)

def Stage.isOpen : Stage → Bool
  | .opening | .following _ => true
  | .closed | .panicked => false

section Steps

variable (hasher : List (List Char) → Nat) (patchJson : PanePatch → String) (snapshotJson : PaneOutput → String)
  (machine paneId : String)

namespace World

def control (w : World μ) : ControlPlane μ := w.coordinator.control

/-- A wake that is skipped: the pane is listed with the hash that was sent last. -/
def skips (w : World μ) : Bool :=
  match w.stream.stage with
  | .following previous =>
    !(⟨advertised hasher w.control (compositeId machine paneId), .ok none⟩ : Wake).paneMayHaveChanged previous.contentHash
  | _ => false

/-- The turn of a read. -/
def turn (w : World μ) (cached : Option CachedOutput) (answer : Except PaneError CachedOutput) : Turn :=
  w.stream.turn patchJson snapshotJson ⟨none, readPane hasher w.control (compositeId machine paneId) cached answer⟩

/-- The observer has seen a turn of the stream. -/
def turned (w : World μ) (events : List PaneEvent) : Episode :=
  w.episode.turned (outage w.control machine) (present w.control (compositeId machine paneId)) events

def step [Inhabited μ] [BEq μ] (w : World μ) : Label μ → Option (World μ)
  | .update update => (w.coordinator.step update).map fun coordinator =>
      { w with coordinator, episode := w.episode.moved (outage w.control machine) (outage coordinator.control machine) }
  | .wake =>
    if w.checked || !w.stream.stage.isOpen then none
    else if w.skips hasher machine paneId then some { w with episode := w.turned machine paneId [] }
    else some { w with checked := true }
  | .read cached answer =>
    if w.checked && w.stream.stage.isOpen then
      let turn := w.turn hasher patchJson snapshotJson machine paneId cached answer
      some { w with stream := turn.next, checked := false, episode := w.turned machine paneId turn.sent }
    else none

/-- The stream of a pane at the start of a coordinator. -/
def start [Inhabited μ] (config : NodeConfig) (machines : List RemoteMachine) : World μ :=
  ⟨.start config machines, PaneStream.start, false, .start⟩

/-- What a step needs for the outages to be told: a wake is not skipped when
the machine is back; a read that meets an outage finds its reason told last
just if this outage has it already; and the first read of a machine that is
back finds the pane with another hash than the one that was sent. -/
def Heard (w : World μ) : Label μ → Prop
  | .update _ => True
  | .wake => w.skips hasher machine paneId = true → w.episode.back = false
  | .read cached answer =>
    (∀ reason, outage w.control machine = some reason → (w.stream.reported = some reason ↔ reason ∈ w.episode.met)) ∧
      (outage w.control machine = none → present w.control (compositeId machine paneId) = true → w.episode.back = true →
        ∃ reading, readPane hasher w.control (compositeId machine paneId) cached answer = .ok (some reading) ∧
          ∀ previous, w.stream.stage = .following previous → reading.contentHash ≠ previous.contentHash)

end World

end Steps

/-! ## An outage fails every read -/

/-- A machine that cannot be reached shows no sessions. -/
def Cleared (state : State μ) : Prop :=
  ∀ (machine : String) (remote : RemoteState μ), state.remotes[machine]? = some remote → remote.online = false →
    remote.sessions = []

namespace Cleared

variable {state next : State μ} {machine : String}

theorem of_remotes (h : Cleared state) (hsame : next.remotes = state.remotes) : Cleared next := by
  intro other remote hremote
  rw [hsame] at hremote
  exact h other remote hremote

theorem insert (h : Cleared state) {remote : RemoteState μ} (hremote : remote.online = false → remote.sessions = [])
    (hnext : next.remotes = state.remotes.insert machine remote) : Cleared next := by
  intro other found hfound
  rw [hnext, Std.ExtTreeMap.getElem?_insert] at hfound
  split at hfound
  · obtain rfl := Option.some.inj hfound
    exact hremote
  · exact h other found hfound

theorem updateRemote (h : Cleared state) {update : RemoteState μ → RemoteState μ × Bool}
    (hupdate : ∀ remote : RemoteState μ, (remote.online = false → remote.sessions = []) →
      (update remote).1.online = false → (update remote).1.sessions = []) : Cleared (state.updateRemote machine update) := by
  rw [State.updateRemote]
  cases hget : state.remotes[machine]? with
  | none => exact h
  | some remote => exact h.insert (hupdate remote (h machine remote hget)) State.publish_remotes

theorem setMachineMetrics [BEq μ] (h : Cleared state) (metrics : μ) : Cleared (state.setMachineMetrics machine metrics) := by
  unfold State.setMachineMetrics
  refine h.updateRemote fun remote hremote => ?_
  split <;> exact hremote

/-- Every section of the coordinator keeps it so. -/
theorem step [Inhabited μ] [BEq μ] {c c' : Coordinator μ} {update : Update μ} (h : Cleared c.control.state)
    (hstep : c.step update = some c') : Cleared c'.control.state := by
  cases update with
  | applyMachineSessions machine mirror health now =>
    obtain rfl := Option.some.inj hstep
    refine h.updateRemote ?_
    intro remote _ honline
    cases honline
  | markMachineOffline machine health =>
    obtain rfl := Option.some.inj hstep
    exact h.updateRemote fun _ _ _ => rfl
  | setMachineMetrics machine metrics =>
    obtain rfl := Option.some.inj hstep
    exact h.setMachineMetrics metrics
  | applyRefresh sessions =>
    obtain rfl := Option.some.inj hstep
    rw [Coordinator.writeLocal]
    split
    · exact h
    · exact h.of_remotes State.publish_remotes
  | recordHealthError message =>
    obtain rfl := Option.some.inj hstep
    rw [Coordinator.writeLocal]
    split
    · exact h
    · exact h.of_remotes State.publish_remotes
  | applyLocalMetrics metrics =>
    obtain rfl := Option.some.inj hstep
    rw [Coordinator.writeLocal]
    split
    · exact h
    · exact h.of_remotes State.publish_remotes
  | upsertDiscovered machine =>
    rw [Coordinator.step] at hstep
    split at hstep
    next =>
      obtain rfl := Option.some.inj hstep
      unfold Coordinator.upsertDiscovered
      split
      · exact h
      · dsimp only
        split
        · split <;> exact h
        · exact h
    next => cases hstep
  | removeDiscovered id =>
    rw [Coordinator.step] at hstep
    split at hstep
    next =>
      obtain rfl := Option.some.inj hstep
      unfold Coordinator.removeDiscovered
      split
      · exact h
      · split <;> exact h
    next => cases hstep
  | publishDiscovered id =>
    rw [Coordinator.step] at hstep
    split at hstep
    next =>
      obtain rfl := Option.some.inj hstep
      unfold Coordinator.publishDiscovered
      dsimp only
      split
      · exact h
      · exact h.updateRemote fun _ _ _ => rfl
      · exact h.insert (fun _ => rfl) rfl
      next dropped _ =>
        intro other remote hremote
        have herase : (c.control.state.remotes.erase dropped)[other]? = some remote := hremote
        rw [Std.ExtTreeMap.getElem?_erase] at herase
        split at herase
        · cases herase
        · exact h other remote herase
    next => cases hstep

theorem start [Inhabited μ] (config : NodeConfig) (machines : List RemoteMachine) :
    Cleared (Coordinator.start (μ := μ) config machines).control.state := by
  intro machine remote hremote _
  have hmap : (((Index.indexBy RemoteMachine.id machines).map fun _ _ => RemoteState.connecting : Std.ExtTreeMap String
      (RemoteState μ))[machine]?) = some remote := hremote
  rw [Std.ExtTreeMap.getElem?_map] at hmap
  obtain ⟨_, _, rfl⟩ := Option.map_eq_some_iff.mp hmap
  rfl

end Cleared

section Reads

variable {control : ControlPlane μ} {machine paneId reason : String}

theorem findTarget_outage (hcleared : Cleared control.state) (hmachine : ValidMachineId machine) (hpane : paneId ≠ "")
    (hlocal : machine ≠ control.config.localId) (h : outage control machine = some reason) :
    findTarget control (compositeId machine paneId) = .error (.offline reason) := by
  have hsplit := splitComposite_compositeId hmachine hpane
  unfold outage at h
  split at h
  next hknown =>
    obtain ⟨remote, hremote, hreason⟩ := Option.bind_eq_some_iff.mp h
    split at hreason
    next => cases hreason
    next honline =>
      have hsessions : remote.sessions = [] := hcleared machine remote hremote (by simpa using honline)
      have hrefused : refused control (compositeId machine paneId) = false := by
        rw [refused, hsplit]
        simp [hlocal]
      have hscope : scopeOf control (compositeId machine paneId) = (some machine, paneId) := by
        rw [scopeOf, hsplit]
        simp [hknown]
      have hremotes : ∀ other, remoteMatch control (some machine) paneId other = none := by
        intro other
        rw [remoteMatch]
        by_cases hother : machine = other.id
        · rw [← hother, hremote]
          simp [hsessions]
        · simp [hother]
      have htargets : targets control (some machine) paneId = [] := by
        have hhere : localMatch control (some machine) paneId = none := by
          rw [localMatch, if_neg]
          simpa using hlocal
        rw [targets, hhere, List.filterMap_eq_nil_iff.mpr fun other _ => hremotes other]
        rfl
      rw [findTarget, hrefused, if_neg Bool.false_ne_true, hscope]
      simp only [htargets, chooseTarget]
      have hoffline : offlineScope control (some machine) = true := by
        simpa [offlineScope, hremote] using honline
      rw [if_pos hoffline, ensureOnline]
      simp only [Option.getD_some, hremote]
      rw [if_neg honline]
      obtain rfl := Option.some.inj hreason
      rfl
  next => cases h

end Reads

/-! ## What a turn sends -/

section Turns

variable {patchJson : PanePatch → String} {snapshotJson : PaneOutput → String} {stream : PaneEvents}
  {read : Except PaneError (Option Reading)}

/-- A failed read is told unless it was told last. -/
theorem reasons_turn {error : PaneError} (hopen : stream.stage.isOpen = true) (h : read = .error error) :
    (stream.turn patchJson snapshotJson ⟨none, read⟩).sent.filterMap PaneEvent.reason =
      if stream.reported = some error.message then [] else [error.message] := by
  have hfailed : (failed stream error).sent.filterMap PaneEvent.reason =
      if stream.reported = some error.message then [] else [error.message] := by
    rw [failed, paneErrorEvent]
    split
    next => simp
    next => simp [PaneEvent.reason]
  rw [PaneEvents.turn]
  cases hstage : stream.stage with
  | opening =>
    simp only [Wake.paneOutput, h, Except.map]
    exact hfailed
  | following previous =>
    simp only [Wake.paneMayHaveChanged, Wake.paneOutput, h, Except.map, Bool.not_true, Bool.false_eq_true, if_false]
    exact hfailed
  | closed =>
    rw [hstage] at hopen
    cases hopen
  | panicked =>
    rw [hstage] at hopen
    cases hopen

theorem isContent_failed (error : PaneError) : (failed stream error).sent.any PaneEvent.isContent = false := by
  rw [failed, paneErrorEvent]
  split <;> rfl

theorem isContent_sendChange (previous current : PaneOutput) :
    (sendChange patchJson snapshotJson previous current).sent.any PaneEvent.isContent = true := by
  obtain ⟨patch, hpatch, -⟩ := panePatch_splices previous current (previous.content.getD "") (current.content.getD "")
  rw [sendChange, hpatch]
  dsimp only
  split <;> rfl

/-- The content is sent by a read that finds the pane with another hash. -/
theorem isContent_turn (hopen : stream.stage.isOpen = true) :
    (stream.turn patchJson snapshotJson ⟨none, read⟩).sent.any PaneEvent.isContent = true ↔
      ∃ reading, read = .ok (some reading) ∧
        ∀ previous, stream.stage = .following previous → reading.contentHash ≠ previous.contentHash := by
  rw [PaneEvents.turn]
  cases hstage : stream.stage with
  | opening =>
    cases read with
    | error error => simp [Wake.paneOutput, Except.map, isContent_failed]
    | ok found =>
      cases found with
      | none => simp [Wake.paneOutput, Except.map, PaneEvent.isContent]
      | some reading => simp [Wake.paneOutput, Except.map, PaneEvent.isContent]
  | following previous =>
    simp only [Wake.paneMayHaveChanged, Bool.not_true, Bool.false_eq_true, if_false]
    cases read with
    | error error => simp [Wake.paneOutput, Except.map, isContent_failed]
    | ok found =>
      cases found with
      | none => simp [Wake.paneOutput, Except.map, PaneEvent.isContent]
      | some reading =>
        simp only [Wake.paneOutput, Except.map, Option.map_some, Reading.output]
        by_cases hsame : previous.contentHash = reading.contentHash
        · simp [hsame]
        · simp [hsame, Ne.symm hsame, isContent_sendChange]
  | closed =>
    rw [hstage] at hopen
    cases hopen
  | panicked =>
    rw [hstage] at hopen
    cases hopen

end Turns

/-! ## What an observer sees -/

namespace Episode

variable {episode : Episode} {reason : String} {events : List PaneEvent}

theorem lawful_start : start.Lawful := ⟨fun _ => rfl, rfl⟩

theorem Lawful.moved (h : episode.Lawful) (before after : Option String) : (episode.moved before after).Lawful := by
  cases before with
  | none =>
    cases after with
    | none => exact h
    | some _ => exact ⟨fun _ => rfl, h.delivered⟩
  | some _ =>
    cases after with
    | none => exact ⟨h.once, h.delivered⟩
    | some _ => exact h

/-- A turn in an outage tells its reason just if it was not met before. -/
theorem Lawful.outage_iff {reported : Option String} (h : episode.Lawful) (present : Bool)
    (hevents : events.filterMap PaneEvent.reason = if reported = some reason then [] else [reason]) :
    (episode.turned (some reason) present events).Lawful ↔ (reported = some reason ↔ reason ∈ episode.met) := by
  have hbefore := h.once reason
  constructor
  · intro hlawful
    have hafter := hlawful.once reason
    simp only [turned, hevents, List.count_append, List.mem_cons_self, if_true] at hafter
    by_cases htold : reported = some reason
    · simp only [htold, if_true, List.count_nil, Nat.add_zero] at hafter
      rw [hafter] at hbefore
      refine ⟨fun _ => ?_, fun _ => htold⟩
      by_contra hmet
      rw [if_neg hmet] at hbefore
      cases hbefore
    · simp only [htold, if_false, List.count_singleton_self] at hafter
      refine ⟨fun hsame => absurd hsame htold, fun hmet => ?_⟩
      rw [if_pos hmet] at hbefore
      omega
  · intro hiff
    refine ⟨fun other => ?_, h.delivered⟩
    have hother := h.once other
    simp only [turned, hevents, List.count_append, List.mem_cons]
    by_cases hsame : other = reason
    · subst hsame
      by_cases htold : reported = some other
      · rw [if_pos (hiff.mp htold)] at hother
        simp [htold, hother]
      · rw [if_neg fun hmet => htold (hiff.mpr hmet)] at hother
        simp [htold, hother]
    · have hnone : List.count other (if reported = some reason then [] else [reason]) = 0 := by
        split
        · rfl
        · simp [Ne.symm hsame]
      rw [hnone, hother]
      simp [hsame]

/-- A turn that meets a machine that is back sends the pane's content. -/
theorem Lawful.back_iff (h : episode.Lawful) : (episode.turned none true events).Lawful ↔
    (episode.back = true → events.any PaneEvent.isContent = true) := by
  have hdelivered := h.delivered
  constructor
  · intro hlawful hback
    have hafter := hlawful.delivered
    simpa [turned, hdelivered, hback] using hafter
  · intro hsent
    refine ⟨h.once, ?_⟩
    cases hback : episode.back with
    | true => simp [turned, hdelivered, hback, hsent hback]
    | false => simp [turned, hdelivered, hback]

end Episode

/-! ## Runs -/

section Runs

variable {hasher : List (List Char) → Nat} {patchJson : PanePatch → String} {snapshotJson : PaneOutput → String}
  {machine paneId localId : String} {w w' : World μ}

/-- What every section and every turn keeps. -/
structure World.Kept (localId : String) (w : World μ) : Prop where
  cleared : Cleared w.control.state
  localId : w.control.config.localId = localId

/-- A wake that is skipped meets the pane. -/
theorem World.Kept.skipped (h : w.Kept localId) (hmachine : ValidMachineId machine) (hpane : paneId ≠ "")
    (hlocal : machine ≠ localId) (hskips : w.skips hasher machine paneId = true) :
    outage w.control machine = none ∧ present w.control (compositeId machine paneId) = true := by
  have hknown : advertised hasher w.control (compositeId machine paneId) ≠ none := by
    intro hnone
    unfold skips at hskips
    split at hskips
    · rw [hnone] at hskips
      cases hskips
    · cases hskips
  have hfound : ∃ target, findTarget w.control (compositeId machine paneId) = .ok (some target) := by
    unfold advertised at hknown
    split at hknown
    next target htarget => exact ⟨target, htarget⟩
    next => exact absurd rfl hknown
  obtain ⟨target, htarget⟩ := hfound
  refine ⟨?_, by rw [present, htarget]⟩
  cases houtage : outage w.control machine with
  | none => rfl
  | some reason =>
    rw [findTarget_outage h.cleared hmachine hpane (h.localId ▸ hlocal) houtage] at htarget
    cases htarget

theorem World.Kept.step [Inhabited μ] [BEq μ] {label : Label μ} (h : w.Kept localId)
    (hstep : w.step hasher patchJson snapshotJson machine paneId label = some w') : w'.Kept localId := by
  cases label with
  | update update =>
    obtain ⟨coordinator, hcoordinator, rfl⟩ := Option.map_eq_some_iff.mp hstep
    obtain ⟨_, _, hsection⟩ := Coordinator.Section.step hcoordinator
    exact ⟨h.cleared.step hcoordinator, (congrArg NodeConfig.localId hsection.config).trans h.localId⟩
  | wake =>
    rw [World.step] at hstep
    split at hstep
    next => cases hstep
    next =>
      split at hstep
      · obtain rfl := Option.some.inj hstep
        exact ⟨h.cleared, h.localId⟩
      · obtain rfl := Option.some.inj hstep
        exact ⟨h.cleared, h.localId⟩
  | read cached answer =>
    rw [World.step] at hstep
    split at hstep
    next =>
      obtain rfl := Option.some.inj hstep
      exact ⟨h.cleared, h.localId⟩
    next => cases hstep

/-- **One step** keeps the outages told exactly if it is heard. -/
theorem World.Kept.lawful_step_iff [Inhabited μ] [BEq μ] {label : Label μ} (h : w.Kept localId) (hmachine : ValidMachineId machine)
    (hpane : paneId ≠ "") (hlocal : machine ≠ localId)
    (hstep : w.step hasher patchJson snapshotJson machine paneId label = some w') (hlawful : w.episode.Lawful) :
    w'.episode.Lawful ↔ w.Heard hasher machine paneId label := by
  cases label with
  | update update =>
    obtain ⟨coordinator, _, rfl⟩ := Option.map_eq_some_iff.mp hstep
    exact ⟨fun _ => trivial, fun _ => hlawful.moved _ _⟩
  | wake =>
    rw [World.step] at hstep
    split at hstep
    next => cases hstep
    next =>
      split at hstep
      next hskips =>
        obtain rfl := Option.some.inj hstep
        obtain ⟨houtage, hpresent⟩ := h.skipped hmachine hpane hlocal hskips
        simp only [World.turned, houtage, hpresent, hlawful.back_iff, World.Heard, hskips, true_implies]
        simp
      next hskips =>
        obtain rfl := Option.some.inj hstep
        exact ⟨fun _ hskips' => absurd hskips' hskips, fun _ => hlawful⟩
  | read cached answer =>
    rw [World.step] at hstep
    split at hstep
    next hopen =>
      rw [Bool.and_eq_true] at hopen
      obtain rfl := Option.some.inj hstep
      cases houtage : outage w.control machine with
      | some reason =>
        have hread : readPane hasher w.control (compositeId machine paneId) cached answer =
            .error (readError (.offline reason)) := by
          rw [readPane, findTarget_outage h.cleared hmachine hpane (h.localId ▸ hlocal) houtage]
        have hreasons : (w.turn hasher patchJson snapshotJson machine paneId cached answer).sent.filterMap PaneEvent.reason =
            if w.stream.reported = some reason then [] else [reason] := reasons_turn hopen.2 hread
        simp only [World.turned, houtage, World.Heard]
        rw [hlawful.outage_iff _ hreasons]
        simp
      | none =>
        cases hpresent : present w.control (compositeId machine paneId) with
        | true =>
          simp only [World.turned, World.turn, houtage, hpresent, World.Heard, hlawful.back_iff, isContent_turn hopen.2]
          simp
        | false =>
          simp only [World.turned, houtage, hpresent, World.Heard]
          simpa [Episode.turned] using hlawful
    next => cases hstep

variable (hasher patchJson snapshotJson) in
/-- **Outages are told and returns followed by content**, all along a run
exactly if every step of the run is heard. -/
theorem outages_told_iff [Inhabited μ] [BEq μ] {config : NodeConfig} (machines : List RemoteMachine)
    (hmachine : ValidMachineId machine) (hpane : paneId ≠ "") (hlocal : machine ≠ config.localId) {labels : List (Label μ)}
    (h : Run (fun w label w' => World.step hasher patchJson snapshotJson machine paneId w label = some w')
      (.start config machines) labels w) :
    (∀ v, Run.Through (fun w label w' => World.step hasher patchJson snapshotJson machine paneId w label = some w')
        (.start config machines) labels w v → v.episode.Lawful) ↔
      ∀ v label, Run.Takes (fun w label w' => World.step hasher patchJson snapshotJson machine paneId w label = some w')
        (.start config machines) labels w v label → v.Heard hasher machine paneId label :=
  h.through_iff (I := World.Kept config.localId) (P := fun v => v.episode.Lawful)
    (H := fun v label => v.Heard hasher machine paneId label) (fun h hstep => h.step hstep)
    (fun h hstep hlawful => h.lawful_step_iff hmachine hpane hlocal hstep hlawful) ⟨.start config machines, rfl⟩
    Episode.lawful_start

/-- A laptop that watches one machine. -/
def laptop : NodeConfig := ⟨"laptop", "Laptop", false, false, []⟩

def gpu : List RemoteMachine := [⟨"gpu", "GPU", "gpu:8443"⟩]

/-- The machine lists one pane. -/
def listed : Label Unit :=
  .update (.applyMachineSessions "gpu" (.merge {} "gpu" [shellSummary "gpu" "%1" "%1"]) none 0)

def lost (reason : String) : List (Label Unit) :=
  [.update (.markMachineOffline "gpu" reason), .wake, .read none (.error ⟨"", .upstream⟩)]

/-- The stream of the machine's pane after some steps. -/
def after (labels : List (Label Unit)) : Option (World Unit) :=
  labels.foldlM (World.step (fun _ => 0) (fun _ => "") (fun _ => "") "gpu" "%1") (.start laptop gpu)

theorem outages_told_iff_example :
    ∃ w, after (lost "timed out") = some w ∧
      ((∀ v, Run.Through (fun w label w' => World.step (fun _ => 0) (fun _ => "") (fun _ => "") "gpu" "%1" w label = some w')
          (.start laptop gpu) (lost "timed out") w v → v.episode.Lawful) ↔
        ∀ v label, Run.Takes (fun w label w' => World.step (fun _ => 0) (fun _ => "") (fun _ => "") "gpu" "%1" w label = some w')
          (.start laptop gpu) (lost "timed out") w v label → v.Heard (fun _ => 0) "gpu" "%1" label) := by
  have hrun : (after (lost "timed out")).isSome = true := by decide +kernel
  obtain ⟨w, hw⟩ := Option.isSome_iff_exists.mp hrun
  exact ⟨w, hw, outages_told_iff _ _ _ gpu (by decide) (by decide) (by decide) (Run.of_foldlM hw)⟩

/-- A machine that comes back with the same content is not announced, its next
outage is not told, and a reason that comes back is told twice. -/
theorem outage_untold :
    (after ([listed, .wake, .read none (.ok ⟨Text.hex16 0, "$ "⟩)] ++ lost "timed out" ++ [listed, .wake])).map
        (fun w => w.episode.delivered) = some false ∧
      (after ([listed, .wake, .read none (.ok ⟨Text.hex16 0, "$ "⟩)] ++ lost "timed out" ++ [listed, .wake] ++ lost "timed out")).map
        (fun w => (w.episode.met, w.episode.told)) = some (["machine gpu is offline: timed out"], []) ∧
      (after (lost "timed out" ++ lost "refused" ++ lost "timed out")).map
        (fun w => w.episode.told.count "machine gpu is offline: timed out") = some 2 := by
  refine ⟨by decide +kernel, by decide +kernel, by decide +kernel⟩

end Runs

end Atmux.PaneStream
