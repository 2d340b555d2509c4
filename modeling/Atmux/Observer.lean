/-
A client watching one machine: it reads `machine_overview`, then waits with
`wait_for_machine_revision` from the revision it got.

The client reads the cursor and the overview in separate sections, with any
of the coordinator's sections in between. `machine_observer`: a change the
client's overview does not show has moved the cursor past what the client
waits from, and changes to other machines never end the wait.

`Follows` is the relation one section stays within, and it composes: the
cursor moved, or the machine still reads the same, or discovery is about to
move the cursor.
-/
import Mathlib.Data.Option.Basic
import Atmux.Coordinator

namespace Atmux

open Lib

variable {μ : Type}

/-! ## The client -/

/-- `machine_revision`, whose two sections may see different states. -/
def machineRevision (known later : ControlPlane μ) (machine : String) : Option Nat :=
  if known.hasMachine machine then some (later.state.cursor machine) else none

/-- `machine_overview`: the cursor, and then the overview narrowed to the machine. -/
def machineOverview [Inhabited μ] (hasher : List (List Char) → Nat) (known cursor later : ControlPlane μ)
    (machine : String) : Option (Overview μ) :=
  (machineRevision known cursor machine).map fun revision =>
    { (later.overview hasher).narrow machine with revision }

/-- `wait_for_machine_revision` over the states its rounds see, until the
deadline or the end of the channel. -/
def waitForMachineRevision (machine : String) (after : Nat) : List (ControlPlane μ × ControlPlane μ) → Bool
  | [] => false
  | (known, later) :: rounds =>
    match machineRevision known later machine with
    | some revision => if after < revision then true else waitForMachineRevision machine after rounds
    | none => false

/-! ## When two overviews of a machine read the same -/

/-- The same machine, but for when it was last seen. -/
structure SameMachine [BEq μ] (a b : MachineSummary μ) : Prop where
  id : a.id = b.id
  label : a.label = b.label
  kind : a.kind = b.kind
  online : a.online = b.online
  sessions : a.sessions = b.sessions
  health : a.health = b.health
  address : a.address = b.address
  metrics : (a.metrics == b.metrics) = true

/-- The same machines and, in some order, the same observable sessions. -/
structure SameView [BEq μ] (a b : Overview μ) : Prop where
  machines : List.Forall₂ SameMachine a.machines b.machines
  sessions : (a.sessions.map SessionSummary.observable).Perm (b.sessions.map SessionSummary.observable)

theorem SameView.healths [BEq μ] {a b : Overview μ} (h : SameView a b) :
    a.machines.map MachineSummary.health = b.machines.map MachineSummary.health := by
  have hmap : ∀ {l l' : List (MachineSummary μ)}, List.Forall₂ SameMachine l l' →
      l.map MachineSummary.health = l'.map MachineSummary.health := by
    intro l l' h
    induction h with
    | nil => rfl
    | cons hab _ ih => rw [List.map_cons, List.map_cons, hab.health, ih]
  exact hmap h.machines

/-- The same entry, but for when it was last refreshed. -/
structure SameRemote [BEq μ] (a b : RemoteState μ) : Prop where
  online : a.online = b.online
  health : a.health = b.health
  metrics : (a.metrics == b.metrics) = true
  sessions : (a.sessions.map SessionSummary.observable).Perm (b.sessions.map SessionSummary.observable)

section
variable [BEq μ] [EquivBEq μ]

theorem SameMachine.refl (a : MachineSummary μ) : SameMachine a a :=
  ⟨rfl, rfl, rfl, rfl, rfl, rfl, rfl, beq_self_eq_true _⟩

theorem SameMachine.trans {a b c : MachineSummary μ} (h : SameMachine a b) (h' : SameMachine b c) :
    SameMachine a c :=
  ⟨h.id.trans h'.id, h.label.trans h'.label, h.kind.trans h'.kind, h.online.trans h'.online,
    h.sessions.trans h'.sessions, h.health.trans h'.health, h.address.trans h'.address,
    BEq.trans h.metrics h'.metrics⟩

theorem SameView.refl (a : Overview μ) : SameView a a :=
  ⟨List.forall₂_same.mpr fun m _ => .refl m, .refl _⟩

theorem SameView.trans {a b c : Overview μ} (h : SameView a b) (h' : SameView b c) : SameView a c := by
  refine ⟨?_, h.sessions.trans h'.sessions⟩
  have htrans : ∀ {l₁ l₂ l₃ : List (MachineSummary μ)}, List.Forall₂ SameMachine l₁ l₂ →
      List.Forall₂ SameMachine l₂ l₃ → List.Forall₂ SameMachine l₁ l₃ := by
    intro l₁ l₂ l₃ h₁
    induction h₁ generalizing l₃ with
    | nil => exact id
    | cons hab _ ih =>
      rintro (_ | ⟨hbc, hrest⟩)
      exact .cons (hab.trans hbc) (ih hrest)
  exact htrans h.machines h'.machines

theorem SameRemote.refl (a : RemoteState μ) : SameRemote a a := ⟨rfl, rfl, beq_self_eq_true _, .refl _⟩

theorem sameRemote_refl (remote : Option (RemoteState μ)) : Option.Rel SameRemote remote remote := by
  cases remote with
  | none => exact .none
  | some remote => exact .some (.refl remote)

end

namespace ControlPlane

variable [Inhabited μ] [BEq μ] {hasher : List (List Char) → Nat} {control control' : ControlPlane μ}
  {machine : String}

/-- The coordinator's own group depends on its own sessions, health and metrics. -/
theorem sameView_local (h : control.Coherent) (h' : control'.Coherent) (hconfig : control'.config = control.config)
    (hs : ((control.state.sessions.map (localSummary hasher control.config)).map SessionSummary.observable).Perm
      ((control'.state.sessions.map (localSummary hasher control.config)).map SessionSummary.observable))
    (hhealth : control.state.health = control'.state.health)
    (hmetrics : (control.state.metrics == control'.state.metrics) = true) :
    SameView ((control.overview hasher).narrow control.config.localId)
      ((control'.overview hasher).narrow control.config.localId) := by
  obtain ⟨hm, hsess⟩ := narrow_local hasher h
  obtain ⟨hm', hsess'⟩ := narrow_local hasher h'
  rw [hconfig] at hm' hsess'
  refine ⟨?_, ?_⟩
  · rw [hm, hm']
    split
    · exact .nil
    · refine .cons ⟨by simp [localMachine, hconfig], by simp [localMachine, hconfig], rfl,
        by simp [localMachine, hhealth], ?_, hhealth, rfl, hmetrics⟩ .nil
      simpa [localMachine] using hs.length_eq
  · rw [hsess, hsess']
    split
    · exact .refl _
    · exact hs

/-- A remote group depends on its machine and on its entry. -/
theorem sameView_remote [EquivBEq μ] (h : control.Coherent) (h' : control'.Coherent) (hconfig : control'.config = control.config)
    (hne : machine ≠ control.config.localId) (hm : control'.machines[machine]? = control.machines[machine]?)
    (hr : Option.Rel SameRemote control.state.remotes[machine]? control'.state.remotes[machine]?) :
    SameView ((control.overview hasher).narrow machine) ((control'.overview hasher).narrow machine) := by
  obtain ⟨hmach, hsess⟩ := narrow_remote hasher h hne
  obtain ⟨hmach', hsess'⟩ := narrow_remote hasher h' (hconfig ▸ hne)
  rw [hm] at hmach' hsess'
  cases hget : control.machines[machine]? with
  | none =>
    refine ⟨?_, ?_⟩
    · rw [hmach, hmach', hget]
      exact .nil
    · rw [hsess, hsess', hget]
      exact .refl _
  | some m =>
    obtain rfl := (h.machine hget).1
    have hperm : ((control.mirroredSessions m).map SessionSummary.observable).Perm
        ((control'.mirroredSessions m).map SessionSummary.observable) := by
      unfold mirroredSessions
      generalize control.state.remotes[m.id]? = a at hr
      generalize control'.state.remotes[m.id]? = b at hr
      cases hr with
      | none => exact .refl _
      | some hab => exact hab.sessions
    refine ⟨?_, ?_⟩
    · rw [hmach, hmach', hget]
      refine .cons ?_ .nil
      have hlen : (control.mirroredSessions m).length = (control'.mirroredSessions m).length := by
        simpa using hperm.length_eq
      unfold remoteMachine
      rw [hlen]
      generalize control.state.remotes[m.id]? = a at hr
      generalize control'.state.remotes[m.id]? = b at hr
      cases hr with
      | none => exact .refl _
      | some hab => exact ⟨rfl, rfl, rfl, by simp [hab.online], rfl, by simp [hab.health], rfl, hab.metrics⟩
    · rw [hsess, hsess', hget]
      simpa using hperm

end ControlPlane

/-! ## What one section shows -/

namespace Coordinator

variable {hash : String → Nat} {captures : Set String} {c c' : Coordinator μ} {machine k : String} [Inhabited μ]

/-- From `c` to `c'` the machine's cursor moved; or it stands, and either
discovery is about to move it or the machine reads the same. -/
def Follows [BEq μ] (hasher : List (List Char) → Nat) (machine : String) (c c' : Coordinator μ) : Prop :=
  c.control.state.cursor machine < c'.control.state.cursor machine ∨
    c.control.state.cursor machine = c'.control.state.cursor machine ∧
      (c'.discovery.machine = some machine ∨
        c.discovery.machine ≠ some machine ∧
          SameView ((c.control.overview hasher).narrow machine) ((c'.control.overview hasher).narrow machine))

variable [BEq μ] [EquivBEq μ] {hasher : List (List Char) → Nat}

theorem Follows.refl (c : Coordinator μ) : Follows hasher machine c c := by
  refine .inr ⟨rfl, ?_⟩
  by_cases hd : c.discovery.machine = some machine
  · exact .inl hd
  · exact .inr ⟨hd, .refl _⟩

theorem Follows.trans {a b c : Coordinator μ} (h : Follows hasher machine a b) (h' : Follows hasher machine b c) :
    Follows hasher machine a c := by
  rcases h with hlt | ⟨heq, h⟩
  · rcases h' with hlt' | ⟨heq', -⟩
    · exact .inl (hlt.trans hlt')
    · exact .inl (heq' ▸ hlt)
  · rcases h' with hlt' | ⟨heq', h'⟩
    · exact .inl (heq ▸ hlt')
    · refine .inr ⟨heq.trans heq', ?_⟩
      rcases h' with hpending | ⟨hsettled, hview'⟩
      · exact .inl hpending
      · -- discovery was not pending in between, so neither was it before
        rcases h with hpending | ⟨hsettled', hview⟩
        · exact absurd hpending hsettled
        · exact .inr ⟨hsettled', hview.trans hview'⟩

/-- A section of `k` that published what it changed, or has yet to. -/
theorem Follows.of_section {next : State μ} {changed : Bool} (h : c.Coherent hash captures)
    (h' : c'.Coherent hash captures) (hw : c.control.state.revision ≤ c'.control.state.revision)
    (hs : Section k c c' next changed)
    (hshows : changed = false → c'.discovery.machine = some k ∨ c.discovery.machine ≠ some k ∧
      SameView ((c.control.overview hasher).narrow k) ((c'.control.overview hasher).narrow k)) :
    Follows hasher machine c c' := by
  by_cases hm : machine = k
  · subst hm
    cases changed with
    | true => exact .inl (hs.cursor_lt h.cursors hw rfl)
    | false => exact .inr ⟨by rw [hs.state, State.publish, if_neg (by simp), hs.edits.cursor], hshows rfl⟩
  · refine .inr ⟨(hs.cursor hm).symm, ?_⟩
    by_cases hp : c'.discovery.machine = some machine
    · exact .inl hp
    · refine .inr ⟨fun hc => hp ((hs.discovery machine hm).mpr hc), ?_⟩
      have hremotes : c'.control.state.remotes[machine]? = c.control.state.remotes[machine]? := by
        rw [hs.state, State.publish_remotes, hs.edits.remotes machine hm]
      by_cases hl : machine = c.control.config.localId
      · subst hl
        obtain ⟨hsessions, hhealth, hmetrics⟩ := hs.edits.own.resolve_left (Ne.symm hm)
        refine ControlPlane.sameView_local h.control h'.control hs.config ?_ ?_ ?_
        · rw [hs.state, State.publish_sessions, hsessions]
        · rw [hs.state, State.publish_health, hhealth]
        · rw [hs.state, State.publish_metrics, hmetrics]
          exact beq_self_eq_true _
      · refine ControlPlane.sameView_remote h.control h'.control hs.config hl (hs.machines machine hm) ?_
        rw [hremotes]
        exact sameRemote_refl _

/-- A section of the state alone, which leaves discovery where it is. -/
theorem Follows.of_write {next state : State μ} {changed : Bool} (h : c.Coherent hash captures)
    (h' : (c.write state).Coherent hash captures) (hw : c.control.state.revision ≤ state.revision)
    (hs : Section k c (c.write state) next changed)
    (hview : changed = false →
      SameView ((c.control.overview hasher).narrow k) (((c.write state).control.overview hasher).narrow k)) :
    Follows hasher machine c (c.write state) := by
  refine .of_section h h' hw hs fun hc => ?_
  by_cases hp : c.discovery.machine = some k
  · exact .inl hp
  · exact .inr ⟨hp, hview hc⟩

/-- A remote writer that publishes whatever it changes. -/
theorem Follows.writeRemote (h : c.Coherent hash captures) {update : RemoteState μ → RemoteState μ × Bool}
    (h' : (c.write (c.control.state.updateRemote k update)).Coherent hash captures)
    (hw : c.control.state.revision ≤ (c.control.state.updateRemote k update).revision)
    (hsame : ∀ {prior}, (update prior).2 = false → SameRemote prior (update prior).1) :
    Follows hasher machine c (c.write (c.control.state.updateRemote k update)) := by
  obtain ⟨next, changed, heq, hedits, hcases⟩ :=
    State.updateRemote_cases c.control.config.localId c.control.state k update
  rw [heq] at h' hw ⊢
  refine .of_write h h' hw (.write hedits changed) fun hc => ?_
  subst hc
  rcases hcases with ⟨-, rfl, -⟩ | ⟨prior, hprior, hnext, hchanged⟩
  · exact .refl _
  by_cases hl : k = c.control.config.localId
  · subst hl
    have hown := State.updateRemote_own c.control.state c.control.config.localId update
    rw [heq] at hown
    refine ControlPlane.sameView_local h.control h'.control rfl ?_ hown.2.1.symm ?_
    · exact .of_eq (by rw [← hown.1]; rfl)
    · simp only [Coordinator.write, hown.2.2, beq_self_eq_true]
  · refine ControlPlane.sameView_remote h.control h'.control rfl hl rfl ?_
    simp only [Coordinator.write, State.publish_remotes]
    rw [hprior, hnext]
    exact .some (hsame hchanged.symm)

/-- A writer of the coordinator's own fields that publishes whatever it changes. -/
theorem Follows.writeLocal (h : c.Coherent hash captures) {sessions : List Session} {health : Option String}
    {metrics : μ} {changed : Bool}
    (h' : (c.writeLocal (c.control.state.updateOwn c.control.config.localId sessions health metrics
      changed)).Coherent hash captures)
    (hw : c.control.state.revision ≤ (c.writeLocal (c.control.state.updateOwn c.control.config.localId sessions
      health metrics changed)).control.state.revision)
    (hsame : changed = false →
      ((c.control.state.sessions.map (ControlPlane.localSummary hasher c.control.config)).map
        SessionSummary.observable).Perm
        ((sessions.map (ControlPlane.localSummary hasher c.control.config)).map SessionSummary.observable) ∧
      c.control.state.health = health ∧ (c.control.state.metrics == metrics) = true) :
    Follows hasher machine c
      (c.writeLocal (c.control.state.updateOwn c.control.config.localId sessions health metrics changed)) := by
  rcases c.writeLocal_cases (c.control.state.updateOwn c.control.config.localId sessions health metrics changed)
    with heq | heq
  · rw [heq]
    exact .refl c
  · rw [heq] at h' hw ⊢
    refine .of_write h h' hw (.write (State.edits_own ..) changed) fun hc => ?_
    obtain ⟨hs, hhealth, hmetrics⟩ := hsame hc
    refine ControlPlane.sameView_local h.control h'.control rfl ?_ ?_ ?_
    · simpa [Coordinator.write, State.updateOwn] using hs
    · simpa [Coordinator.write, State.updateOwn] using hhealth
    · simpa [Coordinator.write, State.updateOwn] using hmetrics

end Coordinator

/-- Sessions captured alike are published alike. -/
theorem observable_localSummary {hash : String → Nat} {captures : Set String} (hhash : Set.InjOn hash captures)
    (hasher : List (List Char) → Nat) (config : NodeConfig) {prior session : Session}
    (hp : ∃ capture ∈ captures, CapturedBy hash prior capture)
    (hs : ∃ capture ∈ captures, CapturedBy hash session capture) (h : observableSessionEqual prior session = true) :
    (ControlPlane.localSummary hasher config prior).observable =
      (ControlPlane.localSummary hasher config session).observable := by
  simp only [observableSessionEqual, Bool.and_eq_true, Bool.or_eq_true, beq_iff_eq, and_assoc] at h
  obtain ⟨hname, hpane, hident, hstatus, hagent, hattached, hpath, hcommand, hlaunch, hscope, hmemory, hwindows,
    hwindow, hindex, hcontent⟩ := h
  have hpublished : observableContentHash hasher prior.content = observableContentHash hasher session.content := by
    rcases hcontent with hraw | hlines
    · obtain ⟨capture, hmem, hcapture⟩ := hp
      obtain ⟨capture', hmem', hcapture'⟩ := hs
      obtain rfl : capture = capture' :=
        hhash hmem hmem' (hcapture.1.symm.trans (hraw.trans hcapture'.1))
      rw [hcapture.2, hcapture'.2]
    · exact observableContentHash_eq hlines hasher
  simp only [ControlPlane.localSummary, SessionSummary.fromLocal, SessionSummary.observable, hname, hpane, hident,
    hstatus, hagent, hattached, hpath, hcommand, hlaunch, hscope, hmemory, hwindows, hwindow, hindex, hpublished]

/-- Listings that compare equal publish the same observable sessions. -/
theorem localSummaries_perm {hash : String → Nat} {captures : Set String} (hhash : Set.InjOn hash captures)
    (hasher : List (List Char) → Nat) (config : NodeConfig) {previous current : List Session}
    (hp : ∀ s ∈ previous, ∃ capture ∈ captures, CapturedBy hash s capture)
    (hc : ∀ s ∈ current, ∃ capture ∈ captures, CapturedBy hash s capture)
    (hn : (current.map Session.name).Nodup) (h : observableSessionsEqual previous current = true) :
    ((previous.map (ControlPlane.localSummary hasher config)).map SessionSummary.observable).Perm
      ((current.map (ControlPlane.localSummary hasher config)).map SessionSummary.observable) := by
  simp only [observableSessionsEqual, Bool.and_eq_true, beq_iff_eq, List.all_eq_true, Option.any_eq_true] at h
  rw [List.map_map, List.map_map]
  refine Index.perm_of_matched h.1 (List.Nodup.of_map SessionSummary.name ?_) fun s hs => ?_
  · rw [List.map_map]
    exact hn
  · obtain ⟨prior, hget, heq⟩ := h.2 s hs
    have hprior := (Index.mem_of_getElem?_indexBy hget).1
    exact ⟨prior, hprior, observable_localSummary hhash hasher config (hp prior hprior) (hc s hs) heq⟩

namespace Coordinator

variable {hash : String → Nat} {captures : Set String} {c c' : Coordinator μ} {u : Update μ} {machine : String}
  [Inhabited μ] [BEq μ]

/-- An admissible step shows what it changes. -/
theorem Follows.step [EquivBEq μ] {hasher : List (List Char) → Nat} (hhash : Set.InjOn hash captures)
    (h : c.Coherent hash captures) (hs : Coordinator.Step hash captures c u c') : Follows hasher machine c c' := by
  have h' := h.step hs
  obtain ⟨hadm, hstep, hw⟩ := hs
  cases u with
  | applyMachineSessions other mirror health now =>
    obtain rfl := Option.some.inj hstep
    refine .writeRemote h h' hw fun {prior} hsame => ?_
    simp only [Bool.or_eq_false_iff, Bool.not_eq_false', bne_eq_false_iff_eq] at hsame
    have hids := (RemoteMirror.Filed.ids_nodup hadm).sublist
      ((List.filter_sublist (p := fun s => s.name != reservedServiceSession)).map SessionSummary.id)
    exact ⟨hsame.1.1, hsame.1.2, beq_self_eq_true _, observables_perm hids hsame.2⟩
  | markMachineOffline other health =>
    obtain rfl := Option.some.inj hstep
    refine .writeRemote h h' hw fun {prior} hsame => ?_
    simp only [Bool.or_eq_false_iff, Bool.not_eq_false', bne_eq_false_iff_eq, List.isEmpty_iff] at hsame
    exact ⟨hsame.1.1, hsame.1.2, beq_self_eq_true _, by rw [hsame.2]⟩
  | setMachineMetrics other metrics =>
    obtain rfl := Option.some.inj hstep
    refine .writeRemote h h' hw fun {prior} hsame => ?_
    split at hsame
    next => cases hsame
    next hno => simpa [hno] using SameRemote.refl prior
  | applyRefresh sessions =>
    obtain rfl := Option.some.inj hstep
    refine .writeLocal h h' hw fun hsame => ?_
    simp only [Bool.or_eq_false_iff, Bool.not_eq_false', Option.isSome_eq_false_iff, Option.isNone_iff_eq_none] at hsame
    exact ⟨localSummaries_perm hhash hasher _ h.captured hadm.2 hadm.1 hsame.1, hsame.2, beq_self_eq_true _⟩
  | recordHealthError message =>
    obtain rfl := Option.some.inj hstep
    exact .writeLocal h h' hw fun hsame => ⟨.refl _, by simp [hsame], beq_self_eq_true _⟩
  | applyLocalMetrics metrics =>
    obtain rfl := Option.some.inj hstep
    exact .writeLocal h h' hw fun hsame => ⟨.refl _, rfl, by simp [hsame]⟩
  | upsertDiscovered m =>
    simp only [Coordinator.step, Option.ite_none_right_eq_some, Option.some.injEq] at hstep
    obtain ⟨hidle, rfl⟩ := hstep
    refine .of_section h h' hw (.upsertDiscovered hidle m) fun _ => ?_
    rcases c.upsertDiscovered_cases m with heq | ⟨-, discovery, heq, hd⟩
    · rw [heq]
      exact .inr ⟨by simp [hidle, Discovery.machine], .refl _⟩
    · rw [heq]
      rcases hd with rfl | ⟨rfl, -⟩ <;> exact .inl rfl
  | removeDiscovered id =>
    simp only [Coordinator.step, Option.ite_none_right_eq_some, Option.some.injEq] at hstep
    obtain ⟨hidle, rfl⟩ := hstep
    refine .of_section h h' hw (.removeDiscovered hidle id) fun _ => ?_
    rcases c.removeDiscovered_cases id with heq | ⟨-, heq⟩
    · rw [heq]
      exact .inr ⟨by simp [hidle, Discovery.machine], .refl _⟩
    · rw [heq]
      exact .inl rfl
  | publishDiscovered id =>
    simp only [Coordinator.step, Option.ite_none_right_eq_some, Option.some.injEq] at hstep
    obtain ⟨hd, rfl⟩ := hstep
    obtain ⟨next, changed, hsection, hchanged⟩ := Section.publishDiscovered hd
    refine .of_section h h' hw hsection fun hc => ?_
    rw [hchanged h.replaced] at hc
    cases hc

/-- A run shows what it changes. -/
theorem Follows.run [EquivBEq μ] {hasher : List (List Char) → Nat} (hhash : Set.InjOn hash captures)
    (h : c.Coherent hash captures) {us : List (Update μ)} (hr : Run (Coordinator.Step hash captures) c us c') :
    Follows hasher machine c c' :=
  hr.relation (I := Coherent hash captures) (P := fun _ => True) .refl Follows.trans (fun h hs => h.step hs)
    (fun h _ hs => .step hhash h hs) h fun _ _ => trivial

/-- Writers of other machines leave a machine's cursor where it is. -/
theorem run_cursor {us : List (Update μ)} (hr : Run (Coordinator.Step hash captures) c us c')
    (hne : ∀ u ∈ us, u.machine c.control.config.localId ≠ machine) :
    c'.control.state.cursor machine = c.control.state.cursor machine := by
  induction hr with
  | nil => rfl
  | cons hs _ ih =>
    obtain ⟨_, _, hsection⟩ := Section.step hs.2.1
    rw [ih fun u hu => ?_, hsection.cursor (hne _ (by simp)).symm]
    rw [hsection.config]
    exact hne u (by simp [hu])

end Coordinator

theorem waitForMachineRevision_of_le {machine : String} {after : Nat} {rounds : List (ControlPlane μ × ControlPlane μ)}
    (h : ∀ round ∈ rounds, round.2.state.cursor machine ≤ after) :
    waitForMachineRevision machine after rounds = false := by
  induction rounds with
  | nil => rfl
  | cons round rounds ih =>
    simp only [waitForMachineRevision, machineRevision]
    by_cases hk : round.1.hasMachine machine = true
    · simp only [hk, if_true]
      rw [if_neg (by simpa using h round (by simp)), ih fun r hr => h r (by simp [hr])]
    · simp only [hk]
      rfl

/-- **An observer of one machine misses nothing.** A client reads the known
machines, the cursor and the overview at three moments of any run. When,
later, no discovery update of the machine is half done and the machine reads
differently, its cursor is past the revision the client has. And as long as
only other machines change, no wait from that revision succeeds. -/
theorem machine_observer [Inhabited μ] [BEq μ] [EquivBEq μ] {hash : String → Nat} {captures : Set String}
    (hhash : Set.InjOn hash captures) (hasher : List (List Char) → Nat) {config : NodeConfig}
    {machines : List RemoteMachine} (hf : Coordinator.ValidFederation config.localId machines)
    {known cursor read later : Coordinator μ} {us₀ us₁ us₂ us₃ : List (Update μ)}
    (h₀ : Run (Coordinator.Step hash captures) (Coordinator.start config machines) us₀ known)
    (h₁ : Run (Coordinator.Step hash captures) known us₁ cursor)
    (h₂ : Run (Coordinator.Step hash captures) cursor us₂ read)
    (h₃ : Run (Coordinator.Step hash captures) read us₃ later) {machine : String} {overview : Overview μ}
    (ho : machineOverview hasher known.control cursor.control read.control machine = some overview) :
    (later.discovery.machine ≠ some machine →
      ¬ SameView overview ((later.control.overview hasher).narrow machine) →
        overview.revision < later.control.state.cursor machine) ∧
    ((∀ u ∈ us₂ ++ us₃, u.machine config.localId ≠ machine) →
      ∀ rounds : List (Coordinator μ × Coordinator μ),
        (∀ round ∈ rounds, Run.Through (Coordinator.Step hash captures) read us₃ later round.1 ∧
          Run.Through (Coordinator.Step hash captures) read us₃ later round.2) →
        waitForMachineRevision machine overview.revision
          (rounds.map fun round => (round.1.control, round.2.control)) = false) := by
  have hcoherent : cursor.Coherent hash captures := (Coordinator.Coherent.start hash captures hf).run (h₀.append h₁)
  obtain ⟨revision, hrevision, rfl⟩ := Option.map_eq_some_iff.mp ho
  obtain rfl : cursor.control.state.cursor machine = revision := by
    unfold machineRevision at hrevision
    split at hrevision
    · exact Option.some.inj hrevision
    · cases hrevision
  refine ⟨fun hsettled hdiffers => ?_, fun hothers rounds hthrough => ?_⟩
  · have hread := hcoherent.run h₂
    have hearlier : Coordinator.Follows hasher machine cursor read := .run hhash hcoherent h₂
    have hlater : Coordinator.Follows hasher machine read later := .run hhash hread h₃
    have hle : cursor.control.state.cursor machine ≤ read.control.state.cursor machine := by
      rcases hearlier with hlt | ⟨heq, -⟩
      · exact hlt.le
      · exact heq.le
    rcases hlater with hlt | ⟨-, hpending | ⟨-, hview⟩⟩
    · exact hle.trans_lt hlt
    · exact absurd hpending hsettled
    · exact absurd ⟨hview.machines, hview.sessions⟩ hdiffers
  · have hconfig : ∀ {c : Coordinator μ} {us : List (Update μ)},
        Run (Coordinator.Step hash captures) (Coordinator.start config machines) us c →
          c.control.config.localId = config.localId := fun hr => by
      rw [Coordinator.run_config hr]
      rfl
    have hread : read.control.state.cursor machine = _ := Coordinator.run_cursor h₂ fun u hu => by
      rw [hconfig (h₀.append h₁)]
      exact hothers u (by simp [hu])
    refine waitForMachineRevision_of_le fun round hround => ?_
    obtain ⟨r, hr, rfl⟩ := List.mem_map.mp hround
    obtain ⟨before, after, rfl, hbefore, -⟩ := (hthrough r hr).2
    have hseen : r.2.control.state.cursor machine = _ := Coordinator.run_cursor hbefore fun u hu => by
      rw [hconfig ((h₀.append h₁).append h₂)]
      exact hothers u (by simp [hu])
    exact (hseen.trans hread).le

/-- One shell and one machine: the machine goes offline after a client read it. -/
theorem machine_observer_offline :
    let config : NodeConfig := ⟨"lab", "Lab", false, false, []⟩
    let session : Session :=
      ⟨"main", false, 1, 0, 0, 0, "%1", 7, "v1", none, none, "/", "bash", "", "", "$ ", 5, .other, "", none, none,
        none, .other⟩
    let start : Coordinator Unit := .start config [⟨"gpu", "GPU", "gpu:8443"⟩]
    let read := start.writeLocal (start.control.state.applyRefresh "lab" [session])
    let later := read.write (read.control.state.markMachineOffline "gpu" "connection refused")
    ∃ overview, machineOverview (fun _ => 0) read.control read.control read.control "gpu" = some overview ∧
      overview.revision < later.control.state.cursor "gpu" := by
  intro config session start read later
  have hf : Coordinator.ValidFederation config.localId [⟨"gpu", "GPU", "gpu:8443"⟩] :=
    ⟨by decide, by decide, by decide⟩
  have hhash : Set.InjOn (fun _ => 5 : String → Nat) {"$ "} := Set.injOn_singleton _ _
  have hrefresh : Coordinator.Step (fun _ => 5) {"$ "} start (.applyRefresh [session]) read := by
    refine ⟨⟨by decide, fun s hs => ⟨"$ ", rfl, ?_⟩⟩, rfl, by decide⟩
    obtain rfl := List.mem_singleton.mp hs
    exact ⟨rfl, by decide⟩
  have hoffline : Coordinator.Step (fun _ => 5) {"$ "} read (.markMachineOffline "gpu" "connection refused") later :=
    ⟨trivial, rfl, by decide⟩
  refine ⟨_, rfl, (machine_observer hhash (fun _ => 0) hf (.single hrefresh) (.nil read) (.nil read)
    (.single hoffline) rfl).1 (by decide) fun hview => ?_⟩
  exact absurd hview.healths (by decide)

end Atmux
