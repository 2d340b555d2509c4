/-
The coordinator as a transition system: the writers of its state in any
order, each an atomic section under the state lock.

The one discovery task needs two sections for a machine, first the machine
map and then the state; `Discovery` is where it stands in between. Every
section changes what one machine shows and nothing else (`Section`), and
keeps the coordinator coherent (`Coherent.step`).
-/
import Mathlib.Data.Set.Function
import Atmux.ControlPlane
import Atmux.Lib.Runs

namespace Atmux

open Lib

/-- Where the discovery task stands between its two writes. -/
inductive Discovery
  | idle
  | replacing (id : String)
  | inserting (id : String)
  | removing (id : String)
deriving DecidableEq, Repr

/-- The machine the discovery task is about to publish. -/
def Discovery.machine : Discovery → Option String
  | .idle => none
  | .replacing id | .inserting id | .removing id => some id

structure Coordinator (μ : Type) where
  control : ControlPlane μ
  discovery : Discovery

/-- One atomic section of a writer. -/
inductive Update (μ : Type)
  /-- A watcher files what its mirror holds. -/
  | applyMachineSessions (machine : String) (mirror : RemoteMirror) (health : Option String) (now : Nat)
  | markMachineOffline (machine health : String)
  | setMachineMetrics (machine : String) (metrics : μ)
  | applyRefresh (sessions : List Session)
  | recordHealthError (message : String)
  | applyLocalMetrics (metrics : μ)
  | upsertDiscovered (machine : RemoteMachine)
  | removeDiscovered (id : String)
  /-- The second section of a discovery update. -/
  | publishDiscovered (id : String)

variable {μ : Type}

/-- The machine a writer may change. -/
def Update.machine (localId : String) : Update μ → String
  | .applyMachineSessions machine .. => machine
  | .markMachineOffline machine _ => machine
  | .setMachineMetrics machine _ => machine
  | .applyRefresh _ | .recordHealthError _ | .applyLocalMetrics _ => localId
  | .upsertDiscovered machine => machine.id
  | .removeDiscovered id | .publishDiscovered id => id

/-- What a writer is called with: a mirror of its machine, the panes of one
tmux listing, by distinct session names, a validated announcement. -/
def Update.Admissible (hash : String → Nat) (captures : Set String) : Update μ → Prop
  | .applyMachineSessions machine mirror _ _ => mirror.Filed machine
  | .applyRefresh sessions =>
    (sessions.map Session.name).Nodup ∧ ∀ s ∈ sessions, ∃ capture ∈ captures, CapturedBy hash s capture
  | .upsertDiscovered machine => ValidMachineId machine.id
  | _ => True

namespace Coordinator

/-- A write of the state section. -/
def write (c : Coordinator μ) (state : State μ) : Coordinator μ :=
  { c with control := { c.control with state } }

/-- A write of an owner-local section; a coordinator-only node has none. -/
def writeLocal (c : Coordinator μ) (state : State μ) : Coordinator μ :=
  if c.control.config.coordinatorOnly then c else c.write state

/-- Whether discovery may change the machine at all. -/
def discoverable (c : Coordinator μ) (id : String) : Bool :=
  !(id == c.control.config.localId || c.control.config.configuredMachineIds.contains id)

/-- The machine map's section of `upsert_discovered_machine`. -/
def upsertDiscovered (c : Coordinator μ) (machine : RemoteMachine) : Coordinator μ :=
  if !c.discoverable machine.id then c
  else
    let control := { c.control with machines := c.control.machines.insert machine.id machine }
    match c.control.machines[machine.id]? with
    | some existing =>
      if existing.address == machine.address && existing.label == machine.label then c
      else ⟨control, .replacing machine.id⟩
    | none => ⟨control, .inserting machine.id⟩

/-- The machine map's section of `remove_discovered_machine`. -/
def removeDiscovered (c : Coordinator μ) (id : String) : Coordinator μ :=
  if !c.discoverable id then c
  else
    match c.control.machines[id]? with
    | some _ => ⟨{ c.control with machines := c.control.machines.erase id }, .removing id⟩
    | none => c

/-- The state section of the discovery update in flight. -/
def publishDiscovered [Inhabited μ] (c : Coordinator μ) : Coordinator μ :=
  let state := c.control.state
  match c.discovery with
  | .idle => c
  | .replacing id => { c.write (state.reconnectDiscovered id) with discovery := .idle }
  | .inserting id => { c.write (state.insertDiscovered id) with discovery := .idle }
  | .removing id => { c.write (state.dropDiscovered id) with discovery := .idle }

/-- One section, when it can run: discovery is one task, so its updates do
not overlap. -/
def step [Inhabited μ] [BEq μ] (c : Coordinator μ) : Update μ → Option (Coordinator μ)
  | .applyMachineSessions machine mirror health now =>
    some (c.write (c.control.state.applyMachineSessions machine mirror.sessionList health now))
  | .markMachineOffline machine health => some (c.write (c.control.state.markMachineOffline machine health))
  | .setMachineMetrics machine metrics => some (c.write (c.control.state.setMachineMetrics machine metrics))
  | .applyRefresh sessions => some (c.writeLocal (c.control.state.applyRefresh c.control.config.localId sessions))
  | .recordHealthError message =>
    some (c.writeLocal (c.control.state.recordHealthError c.control.config.localId message))
  | .applyLocalMetrics metrics =>
    some (c.writeLocal (c.control.state.applyLocalMetrics c.control.config.localId metrics))
  | .upsertDiscovered machine => if c.discovery = .idle then some (c.upsertDiscovered machine) else none
  | .removeDiscovered id => if c.discovery = .idle then some (c.removeDiscovered id) else none
  | .publishDiscovered id => if c.discovery.machine = some id then some c.publishDiscovered else none

/-- A step on admissible input that does not wrap the revision. -/
def Step [Inhabited μ] [BEq μ] (hash : String → Nat) (captures : Set String) (c : Coordinator μ) (u : Update μ)
    (c' : Coordinator μ) : Prop :=
  u.Admissible hash captures ∧ c.step u = some c' ∧ c.control.state.revision ≤ c'.control.state.revision

/-- The ids `validate_federation` lets a coordinator start with. -/
structure ValidFederation (localId : String) (machines : List RemoteMachine) : Prop where
  owner : ValidMachineId localId
  ids : ∀ machine ∈ machines, ValidMachineId machine.id
  distinct : (localId :: machines.map RemoteMachine.id).Nodup

/-- The control plane `ControlPlane::start` builds. -/
def start [Inhabited μ] (config : NodeConfig) (machines : List RemoteMachine) : Coordinator μ where
  control :=
    { config := { config with configuredMachineIds := machines.map RemoteMachine.id }
      machines := Index.indexBy RemoteMachine.id machines
      state :=
        { revision := 0
          sessions := []
          health := none
          metrics := default
          remotes := (Index.indexBy RemoteMachine.id machines).map fun _ _ => .connecting
          machineRevisions := ∅ } }
  discovery := .idle

end Coordinator

/-! ## What one section does -/

namespace Coordinator

/-- A section changed what the machine `k` shows: the state it published is
`next`, and it moved the cursor when `changed`. -/
structure Section (k : String) (c c' : Coordinator μ) (next : State μ) (changed : Bool) : Prop where
  config : c'.control.config = c.control.config
  state : c'.control.state = next.publish k changed
  edits : State.Edits c.control.config.localId k c.control.state next
  machines : ∀ other : String, other ≠ k → c'.control.machines[other]? = c.control.machines[other]?
  discovery : ∀ other, other ≠ k → (c'.discovery.machine = some other ↔ c.discovery.machine = some other)

variable {c c' : Coordinator μ} {u : Update μ} {k id : String}

theorem Section.refl (k : String) (c : Coordinator μ) : Section k c c c.control.state false :=
  ⟨rfl, rfl, .refl .., fun _ _ => rfl, fun _ _ => .rfl⟩

theorem Section.write {next : State μ} (h : State.Edits c.control.config.localId k c.control.state next)
    (changed : Bool) : Section k c (c.write (next.publish k changed)) next changed :=
  ⟨rfl, rfl, h, fun _ _ => rfl, fun _ _ => .rfl⟩

theorem discoverable_ne (hd : c.discoverable id = true) : id ≠ c.control.config.localId := by
  intro heq
  simp [discoverable, heq] at hd

/-- Discovery files a machine it may change, unless it is filed already. -/
theorem upsertDiscovered_cases (c : Coordinator μ) (machine : RemoteMachine) :
    c.upsertDiscovered machine = c ∨
      c.discoverable machine.id = true ∧ ∃ discovery, c.upsertDiscovered machine =
          ⟨{ c.control with machines := c.control.machines.insert machine.id machine }, discovery⟩ ∧
        (discovery = .inserting machine.id ∨
          discovery = .replacing machine.id ∧ (c.control.machines[machine.id]?).isSome) := by
  unfold upsertDiscovered
  split
  · exact .inl rfl
  next hd =>
  dsimp only
  split
  next existing hget =>
    split
    · exact .inl rfl
    · exact .inr ⟨by simpa using hd, _, rfl, .inr ⟨rfl, by rw [hget]; rfl⟩⟩
  next => exact .inr ⟨by simpa using hd, _, rfl, .inl rfl⟩

theorem removeDiscovered_cases (c : Coordinator μ) (id : String) :
    c.removeDiscovered id = c ∨
      c.discoverable id = true ∧ c.removeDiscovered id =
        ⟨{ c.control with machines := c.control.machines.erase id }, .removing id⟩ := by
  unfold removeDiscovered
  split
  · exact .inl rfl
  next hd =>
  split
  · exact .inr ⟨by simpa using hd, rfl⟩
  · exact .inl rfl

theorem writeLocal_cases (c : Coordinator μ) (state : State μ) :
    c.writeLocal state = c ∨ c.writeLocal state = c.write state := by
  unfold writeLocal
  split
  · exact .inl rfl
  · exact .inr rfl

theorem Section.upsertDiscovered (hidle : c.discovery = .idle) (machine : RemoteMachine) :
    Section machine.id c (c.upsertDiscovered machine) c.control.state false := by
  rcases c.upsertDiscovered_cases machine with heq | ⟨-, discovery, heq, hd⟩
  · rw [heq]
    exact .refl ..
  · rw [heq]
    refine ⟨rfl, rfl, .refl .., fun other hne => ?_, fun other hne => ?_⟩
    · rw [Std.ExtTreeMap.getElem?_insert, if_neg (by simpa using hne.symm)]
    · rcases hd with rfl | ⟨rfl, -⟩ <;> simp [hidle, Discovery.machine, hne.symm]

theorem Section.removeDiscovered (hidle : c.discovery = .idle) (id : String) :
    Section id c (c.removeDiscovered id) c.control.state false := by
  rcases c.removeDiscovered_cases id with heq | ⟨-, heq⟩
  · rw [heq]
    exact .refl ..
  · rw [heq]
    refine ⟨rfl, rfl, .refl .., fun other hne => ?_, fun other hne => ?_⟩
    · rw [Std.ExtTreeMap.getElem?_erase, if_neg (by simpa using hne.symm)]
    · simp [hidle, Discovery.machine, hne.symm]

theorem Section.publishDiscovered [Inhabited μ] (hd : c.discovery.machine = some id) :
    ∃ next changed, Section id c c.publishDiscovered next changed ∧
      ((c.discovery = .replacing id → (c.control.state.remotes[id]?).isSome) → changed = true) := by
  have hidle : ∀ (next : State μ) (changed : Bool), State.Edits c.control.config.localId id c.control.state next →
      Section id c { c.write (next.publish id changed) with discovery := .idle } next changed := by
    intro next changed hedits
    refine ⟨rfl, rfl, hedits, fun _ _ => rfl, fun other hne => ?_⟩
    rw [hd]
    simp [Discovery.machine, hne.symm]
  unfold Coordinator.publishDiscovered
  cases hdisc : c.discovery with
  | idle => simp [hdisc, Discovery.machine] at hd
  | replacing i =>
    obtain rfl : i = id := by simpa [hdisc, Discovery.machine] using hd
    obtain ⟨next, changed, heq, hedits, hcases⟩ := State.updateRemote_cases c.control.config.localId c.control.state i
      fun remote => ({ remote with online := false, health := some "connecting", sessions := [] }, true)
    refine ⟨next, changed, ?_, fun hsome => ?_⟩
    · simp only [State.reconnectDiscovered, heq]
      exact hidle _ _ hedits
    · rcases hcases with ⟨hnone, -⟩ | ⟨_, -, -, hchanged⟩
      · simp [hnone] at hsome
      · exact hchanged
  | inserting i =>
    obtain rfl : i = id := by simpa [hdisc, Discovery.machine] using hd
    exact ⟨{ c.control.state with remotes := c.control.state.remotes.insert i .connecting }, true,
      hidle _ true (State.edits_insert ..), fun _ => rfl⟩
  | removing i =>
    obtain rfl : i = id := by simpa [hdisc, Discovery.machine] using hd
    exact ⟨{ c.control.state with remotes := c.control.state.remotes.erase i }, true,
      hidle _ true (State.edits_erase ..), fun _ => rfl⟩

/-- Every step is a section of the machine its update names. -/
theorem Section.step [Inhabited μ] [BEq μ] (hs : c.step u = some c') :
    ∃ next changed, Section (u.machine c.control.config.localId) c c' next changed := by
  have hremote : ∀ k state, (∃ update, state = c.control.state.updateRemote k update) →
      ∃ next changed, Section k c (c.write state) next changed := by
    rintro k _ ⟨update, rfl⟩
    obtain ⟨next, changed, heq, hedits, -⟩ := State.updateRemote_cases c.control.config.localId c.control.state k update
    exact ⟨next, changed, heq ▸ Section.write hedits changed⟩
  have hown : ∀ sessions health metrics changed, ∃ next changed', Section c.control.config.localId c
      (c.writeLocal (c.control.state.updateOwn c.control.config.localId sessions health metrics changed)) next changed' := by
    intro sessions health metrics changed
    rcases c.writeLocal_cases (c.control.state.updateOwn c.control.config.localId sessions health metrics changed)
      with heq | heq
    · refine ⟨c.control.state, false, ?_⟩
      rw [heq]
      exact .refl _ c
    · exact ⟨_, changed, heq ▸ Section.write (State.edits_own ..) changed⟩
  cases u with
  | applyMachineSessions machine | markMachineOffline machine | setMachineMetrics machine =>
    obtain rfl := Option.some.inj hs
    exact hremote machine _ ⟨_, rfl⟩
  | applyRefresh | recordHealthError | applyLocalMetrics =>
    obtain rfl := Option.some.inj hs
    exact hown _ _ _ _
  | upsertDiscovered machine =>
    simp only [Coordinator.step, Option.ite_none_right_eq_some, Option.some.injEq] at hs
    obtain ⟨hidle, rfl⟩ := hs
    exact ⟨_, _, .upsertDiscovered hidle machine⟩
  | removeDiscovered id =>
    simp only [Coordinator.step, Option.ite_none_right_eq_some, Option.some.injEq] at hs
    obtain ⟨hidle, rfl⟩ := hs
    exact ⟨_, _, .removeDiscovered hidle id⟩
  | publishDiscovered id =>
    simp only [Coordinator.step, Option.ite_none_right_eq_some, Option.some.injEq] at hs
    obtain ⟨hd, rfl⟩ := hs
    obtain ⟨next, changed, hsection, -⟩ := Section.publishDiscovered hd
    exact ⟨next, changed, hsection⟩

theorem Section.cursor {next : State μ} {changed : Bool} (h : Section k c c' next changed) {other : String}
    (hne : other ≠ k) : c'.control.state.cursor other = c.control.state.cursor other := by
  rw [h.state, State.cursor_publish_of_ne hne, h.edits.cursor]

theorem Section.cursors {next : State μ} {changed : Bool} (h : Section k c c' next changed)
    (hcur : c.control.state.Cursors) (hw : c.control.state.revision ≤ c'.control.state.revision) :
    c'.control.state.Cursors := by
  rw [h.state] at hw ⊢
  exact (h.edits.cursors hcur).publish (h.edits.revision ▸ hw)

/-- A section that published a change moved the machine's cursor. -/
theorem Section.cursor_lt {next : State μ} {changed : Bool} (h : Section k c c' next changed)
    (hcur : c.control.state.Cursors) (hw : c.control.state.revision ≤ c'.control.state.revision)
    (hc : changed = true) : c.control.state.cursor k < c'.control.state.cursor k := by
  rw [h.state] at hw ⊢
  rw [← h.edits.cursor k]
  exact State.cursor_lt_publish (h.edits.cursors hcur) (h.edits.revision ▸ hw) hc

end Coordinator

/-! ## What every run keeps -/

/-- What every reachable coordinator keeps. -/
structure Coordinator.Coherent (hash : String → Nat) (captures : Set String) (c : Coordinator μ) : Prop where
  control : c.control.Coherent
  cursors : c.control.state.Cursors
  captured : ∀ s ∈ c.control.state.sessions, ∃ capture ∈ captures, CapturedBy hash s capture
  pending : ∀ {id}, c.discovery.machine = some id → id ≠ c.control.config.localId
  /-- A replacement finds the entry it resets. -/
  replaced : ∀ {id}, c.discovery = .replacing id → (c.control.state.remotes[id]?).isSome
  dropped : ∀ {id}, c.discovery = .removing id → c.control.machines[id]? = none
  known : ∀ {id machine}, c.control.machines[id]? = some machine → c.discovery ≠ .inserting id →
    (c.control.state.remotes[id]?).isSome

theorem RemoteState.owned_of_empty {id : String} {remote : RemoteState μ} (h : remote.sessions = []) :
    remote.Owned id := by
  simp [RemoteState.Owned, h]

theorem RemoteMirror.Filed.owned {machine : String} {mirror : RemoteMirror} (h : mirror.Filed machine)
    {remote : RemoteState μ} {p : SessionSummary → Bool} (hs : remote.sessions = mirror.sessionList.filter p) :
    remote.Owned machine := by
  refine ⟨fun session hmem => ?_, ?_⟩
  · rw [hs] at hmem
    obtain ⟨pane, hget⟩ :=
      Index.mem_values.mp ((List.perm_insertionSort _ _).mem_iff.mp (List.mem_of_mem_filter hmem))
    obtain ⟨rfl, hmachine, hid⟩ := h hget
    exact ⟨hmachine, hid⟩
  · rw [hs]
    exact h.ids_nodup.sublist (List.filter_sublist.map _)

namespace Coordinator

variable {hash : String → Nat} {captures : Set String} {c c' : Coordinator μ} {u : Update μ} {machine id : String}

/-- A write of remote entries that stay their machines'. -/
theorem Coherent.writeRemote (h : c.Coherent hash captures) {update : RemoteState μ → RemoteState μ × Bool}
    (hu : ∀ {prior}, prior.Owned machine → (update prior).1.Owned machine)
    (hcur : (c.control.state.updateRemote machine update).Cursors) :
    (c.write (c.control.state.updateRemote machine update)).Coherent hash captures := by
  have hkept : ∀ {other : String}, (c.control.state.remotes[other]?).isSome →
      ((c.control.state.updateRemote machine update).remotes[other]?).isSome := by
    intro other hsome
    unfold State.updateRemote
    split
    · exact hsome
    · rw [State.publish_remotes, Std.ExtTreeMap.getElem?_insert]
      split
      · rfl
      · exact hsome
  exact
    { control := h.control.updateRemote hu
      cursors := hcur
      captured := fun s hs => h.captured s ((State.updateRemote_own _ machine update).1 ▸ hs)
      pending := h.pending
      replaced := fun hd => hkept (h.replaced hd)
      dropped := h.dropped
      known := fun hget hd => hkept (h.known hget hd) }

/-- A write of the coordinator's own fields. -/
theorem Coherent.writeLocal (h : c.Coherent hash captures) {sessions : List Session} {health : Option String}
    {metrics : μ} {changed : Bool}
    (hs : ∀ s ∈ sessions, ∃ capture ∈ captures, CapturedBy hash s capture)
    (hcur : (c.writeLocal (c.control.state.updateOwn machine sessions health metrics changed)).control.state.Cursors) :
    (c.writeLocal (c.control.state.updateOwn machine sessions health metrics changed)).Coherent hash captures := by
  rcases c.writeLocal_cases (c.control.state.updateOwn machine sessions health metrics changed) with heq | heq
  · rwa [heq]
  · rw [heq] at hcur ⊢
    have hr : (c.control.state.updateOwn machine sessions health metrics changed).remotes = c.control.state.remotes := by
      simp [State.updateOwn]
    exact
      { control := ⟨h.control.machine, fun hget => h.control.mirrored (hr ▸ hget)⟩
        cursors := hcur
        captured := fun s hmem => hs s (by simpa [Coordinator.write, State.updateOwn] using hmem)
        pending := h.pending
        replaced := fun hd => hr.symm ▸ h.replaced hd
        dropped := h.dropped
        known := fun hget hd => hr.symm ▸ h.known hget hd }

theorem Coherent.upsertDiscovered (h : c.Coherent hash captures) {m : RemoteMachine} (hm : ValidMachineId m.id)
    (hidle : c.discovery = .idle) : (c.upsertDiscovered m).Coherent hash captures := by
  rcases c.upsertDiscovered_cases m with heq | ⟨hd, discovery, heq, hcases⟩
  · rwa [heq]
  rw [heq]
  have hne := discoverable_ne hd
  have hfiled : ∀ {id : String} {machine : RemoteMachine}, (c.control.machines.insert m.id m)[id]? = some machine →
      m.id = id ∧ machine = m ∨ c.control.machines[id]? = some machine := by
    intro id machine hget
    rw [Std.ExtTreeMap.getElem?_insert] at hget
    split at hget
    next hid => exact .inl ⟨by simpa using hid, (Option.some.inj hget).symm⟩
    next => exact .inr hget
  have hcontrol : ({ c.control with machines := c.control.machines.insert m.id m } : ControlPlane μ).Coherent := by
    refine ⟨fun hget => ?_, h.control.mirrored⟩
    rcases hfiled hget with ⟨rfl, rfl⟩ | hget
    · exact ⟨rfl, hne, hm⟩
    · exact h.control.machine hget
  have hentry : (c.control.machines[m.id]?).isSome → (c.control.state.remotes[m.id]?).isSome := by
    intro hsome
    obtain ⟨existing, hget⟩ := Option.isSome_iff_exists.mp hsome
    exact h.known hget (by simp [hidle])
  refine ⟨hcontrol, h.cursors, h.captured, fun hp => ?_, fun hr => ?_, fun hr => ?_, fun hget hn => ?_⟩
  · rcases hcases with rfl | ⟨rfl, -⟩ <;> exact Option.some.inj hp ▸ hne
  · rcases hcases with rfl | ⟨rfl, hsome⟩
    · cases hr
    · cases hr
      exact hentry hsome
  · rcases hcases with rfl | ⟨rfl, -⟩ <;> cases hr
  · rcases hfiled hget with ⟨rfl, -⟩ | hget
    · rcases hcases with rfl | ⟨rfl, hsome⟩
      · exact absurd rfl hn
      · exact hentry hsome
    · exact h.known hget (by simp [hidle])

theorem Coherent.removeDiscovered (h : c.Coherent hash captures) (hidle : c.discovery = .idle) :
    (c.removeDiscovered id).Coherent hash captures := by
  rcases c.removeDiscovered_cases id with heq | ⟨hd, heq⟩
  · rwa [heq]
  rw [heq]
  have hkept : ∀ {other : String} {machine : RemoteMachine}, (c.control.machines.erase id)[other]? = some machine →
      c.control.machines[other]? = some machine := by
    intro other machine hget
    rw [Std.ExtTreeMap.getElem?_erase] at hget
    split at hget
    · cases hget
    · exact hget
  exact
    { control := ⟨fun hget => h.control.machine (hkept hget), h.control.mirrored⟩
      cursors := h.cursors
      captured := h.captured
      pending := fun hp => Option.some.inj hp ▸ discoverable_ne hd
      replaced := by simp
      dropped := fun hr => by cases hr; simp
      known := fun hget _ => h.known (hkept hget) (by simp [hidle]) }

variable [Inhabited μ]

theorem Coherent.publishDiscovered (h : c.Coherent hash captures) (hcur : c.publishDiscovered.control.state.Cursors) :
    c.publishDiscovered.Coherent hash captures := by
  unfold Coordinator.publishDiscovered at hcur ⊢
  cases hd : c.discovery with
  | idle => exact h
  | replacing id =>
    simp only [hd] at hcur ⊢
    have hwrite : (c.write (c.control.state.reconnectDiscovered id)).Coherent hash captures :=
      h.writeRemote (fun _ => RemoteState.owned_of_empty rfl) hcur
    exact ⟨hwrite.control, hcur, hwrite.captured, by simp [Discovery.machine], by simp, by simp,
      fun hget _ => hwrite.known hget (by simp [Coordinator.write, hd])⟩
  | inserting id =>
    simp only [hd] at hcur ⊢
    refine ⟨⟨h.control.machine, fun {other remote} hget => ?_⟩, hcur, h.captured, by simp [Discovery.machine], by simp,
      by simp, fun {other machine} hget _ => ?_⟩
    · simp only [Coordinator.write, State.insertDiscovered, State.bump, Std.ExtTreeMap.getElem?_insert] at hget
      split at hget
      · exact RemoteState.owned_of_empty (Option.some.inj hget ▸ rfl)
      · exact h.control.mirrored hget
    · simp only [State.insertDiscovered, State.bump, Coordinator.write, Std.ExtTreeMap.getElem?_insert]
      by_cases heq : id = other
      · simp [heq]
      · rw [if_neg (by simpa using heq)]
        exact h.known hget (by simpa [hd] using heq)
  | removing id =>
    simp only [hd] at hcur ⊢
    refine ⟨⟨h.control.machine, fun {other remote} hget => ?_⟩, hcur, h.captured, by simp [Discovery.machine], by simp,
      by simp, fun {other machine} hget _ => ?_⟩
    · simp only [Coordinator.write, State.dropDiscovered, State.bump, Std.ExtTreeMap.getElem?_erase] at hget
      split at hget
      · cases hget
      · exact h.control.mirrored hget
    · -- the dropped machine is not listed any more
      have hne : id ≠ other := by
        rintro rfl
        have hnone := h.dropped hd
        simp [Coordinator.write, hnone] at hget
      simp only [State.dropDiscovered, State.bump, Coordinator.write, Std.ExtTreeMap.getElem?_erase]
      rw [if_neg (by simpa using hne)]
      exact h.known hget (by simp [hd])

/-- An admissible step keeps the coordinator coherent. -/
theorem Coherent.step [BEq μ] (h : c.Coherent hash captures) (hs : Coordinator.Step hash captures c u c') :
    c'.Coherent hash captures := by
  obtain ⟨hadm, hstep, hw⟩ := hs
  have hcur : c'.control.state.Cursors := by
    obtain ⟨next, changed, hsection⟩ := Section.step hstep
    exact hsection.cursors h.cursors hw
  cases u with
  | applyMachineSessions machine mirror health now =>
    obtain rfl := Option.some.inj hstep
    exact h.writeRemote (fun _ => RemoteMirror.Filed.owned hadm rfl) hcur
  | markMachineOffline machine health =>
    obtain rfl := Option.some.inj hstep
    exact h.writeRemote (fun _ => RemoteState.owned_of_empty rfl) hcur
  | setMachineMetrics machine metrics =>
    obtain rfl := Option.some.inj hstep
    refine h.writeRemote (fun hprior => ?_) hcur
    split <;> exact hprior
  | applyRefresh sessions =>
    obtain rfl := Option.some.inj hstep
    exact h.writeLocal hadm.2 hcur
  | recordHealthError | applyLocalMetrics =>
    obtain rfl := Option.some.inj hstep
    exact h.writeLocal h.captured hcur
  | upsertDiscovered m =>
    simp only [Coordinator.step, Option.ite_none_right_eq_some, Option.some.injEq] at hstep
    obtain ⟨hidle, rfl⟩ := hstep
    exact h.upsertDiscovered hadm hidle
  | removeDiscovered id =>
    simp only [Coordinator.step, Option.ite_none_right_eq_some, Option.some.injEq] at hstep
    obtain ⟨hidle, rfl⟩ := hstep
    exact h.removeDiscovered hidle
  | publishDiscovered id =>
    simp only [Coordinator.step, Option.ite_none_right_eq_some, Option.some.injEq] at hstep
    obtain ⟨-, rfl⟩ := hstep
    exact h.publishDiscovered hcur

theorem Coherent.start (hash : String → Nat) (captures : Set String) {config : NodeConfig}
    {machines : List RemoteMachine} (hf : ValidFederation config.localId machines) :
    (Coordinator.start config machines : Coordinator μ).Coherent hash captures := by
  have hmachine : ∀ {id : String} {machine : RemoteMachine},
      (Index.indexBy RemoteMachine.id machines)[id]? = some machine →
        machine.id = id ∧ id ≠ config.localId ∧ ValidMachineId id := by
    intro id machine hget
    obtain ⟨hmem, rfl⟩ := Index.mem_of_getElem?_indexBy hget
    refine ⟨rfl, fun heq => ?_, hf.ids machine hmem⟩
    exact (List.nodup_cons.mp hf.distinct).1 (List.mem_map.mpr ⟨machine, hmem, heq⟩)
  refine ⟨⟨hmachine, fun hget => ?_⟩, fun m => ?_, by simp [Coordinator.start],
    by simp [Coordinator.start, Discovery.machine], by simp [Coordinator.start], by simp [Coordinator.start],
    fun hget _ => ?_⟩
  · simp only [Coordinator.start, Std.ExtTreeMap.getElem?_map, Option.map_eq_some_iff] at hget
    obtain ⟨_, -, rfl⟩ := hget
    exact RemoteState.owned_of_empty rfl
  · simp [Coordinator.start, State.cursor]
  · simp only [Coordinator.start] at hget
    simp [Coordinator.start, hget]

/-- Every coordinator a run reaches from its start is coherent. -/
theorem Coherent.run [BEq μ] {us : List (Update μ)} (h : c.Coherent hash captures)
    (hr : Run (Coordinator.Step hash captures) c us c') : c'.Coherent hash captures :=
  hr.invariant (I := Coherent hash captures) (fun h hs => h.step hs) h

/-- No step changes the configuration. -/
theorem run_config [BEq μ] {us : List (Update μ)} (hr : Run (Coordinator.Step hash captures) c us c') :
    c'.control.config = c.control.config := by
  refine hr.invariant (I := fun s => s.control.config = c.control.config) (fun h hs => ?_) rfl
  obtain ⟨_, _, hsection⟩ := Section.step hs.2.1
  exact hsection.config.trans h

end Coordinator

end Atmux
