/-
Federation depth: whether a mirror ever holds a session its node only
mirrors itself.

A held session is re-keyed to the coordinator's name for the node, so what
the node called its machine is kept here as ghost state: `Federated.reported`
takes the same operations as the mirror (`Federated.receive_faithful`).

A node that lists its local machine is one level deep in every run: the
mirror learns the home id from every event before it merges. A node that is
coordinator-only lists no local machine, the home id stays unknown, and
`owns` takes every session for the node's own, so its sessions are federated
a second time (`one_level_iff`).
-/
import Atmux.Coordinator
import Atmux.OverviewStream

namespace Atmux

open Lib

variable {μ : Type}

/-- The sessions an event carries. -/
def StreamEvent.sessions : StreamEvent μ → List SessionSummary
  | .snapshot overview => overview.sessions
  | .patch p => p.upsert

/-- The machines an event lists. -/
def StreamEvent.machines : StreamEvent μ → List (MachineSummary μ)
  | .snapshot overview => overview.machines
  | .patch p => p.machines

/-! ## What a node lists -/

/-- An overview the node `config` may show after some run of its writers. -/
def Published [Inhabited μ] [BEq μ] (config : NodeConfig) (overview : Overview μ) : Prop :=
  ∃ (hash : String → Nat) (captures : Set String) (hasher : List (List Char) → Nat) (machines : List RemoteMachine)
    (us : List (Update μ)) (c : Coordinator μ),
    Coordinator.ValidFederation config.localId machines ∧
      Run (Coordinator.Step hash captures) (Coordinator.start config machines) us c ∧
        c.control.overview hasher = overview

/-- An event of the node's stream: any overview of its, or the patch between any two. -/
inductive Sent [Inhabited μ] [BEq μ] (config : NodeConfig) : StreamEvent μ → Prop
  | snapshot {overview : Overview μ} : Published config overview → Sent config (.snapshot overview)
  | patch {previous current : Overview μ} : Published config previous → Published config current →
      Sent config (.patch (overviewPatch previous current))

/-- What an event of the node says about machines: a hosting node lists
itself, a coordinator-only one only the owners of the sessions it carries. -/
structure Listing (config : NodeConfig) (sessions : List SessionSummary) (machines : List (MachineSummary μ)) :
    Prop where
  remote : ∀ machine ∈ machines, machine.kind = .remote → machine.id ≠ config.localId ∧ machine.id ≠ ""
  hosting : config.coordinatorOnly = false → homeMachineOf machines = some config.localId
  coordinating : config.coordinatorOnly = true → homeMachineOf machines = none ∧
    ∀ session ∈ sessions, ∃ machine ∈ machines, machine.kind = .remote ∧ machine.id = session.machine

theorem Listing.sublist {config : NodeConfig} {sessions carried : List SessionSummary}
    {machines : List (MachineSummary μ)} (h : Listing config sessions machines) (hs : carried ⊆ sessions) :
    Listing config carried machines :=
  ⟨h.remote, h.hosting, fun hco => ⟨(h.coordinating hco).1, fun s hmem => (h.coordinating hco).2 s (hs hmem)⟩⟩

theorem homeMachineOf_remotes {machines : List (MachineSummary μ)} (h : ∀ machine ∈ machines, machine.kind = .remote) :
    homeMachineOf machines = none := by
  rw [homeMachineOf, List.find?_eq_none.mpr fun m hm => by simp [h m hm]]
  rfl

/-- The overview builder lists the node itself first, unless it is coordinator-only. -/
theorem overview_listing [Inhabited μ] {control : ControlPlane μ} (h : control.Coherent)
    (hasher : List (List Char) → Nat) :
    Listing control.config (control.overview hasher).sessions (control.overview hasher).machines := by
  have hkind : ∀ machine ∈ (Index.values control.machines).map control.remoteMachine,
      machine.kind = .remote ∧ machine.id ≠ control.config.localId ∧ machine.id ≠ "" := by
    intro machine hm
    obtain ⟨m, hmem, rfl⟩ := List.mem_map.mp hm
    obtain ⟨hne, hvalid⟩ := h.mem_machines hmem
    exact ⟨rfl, hne, hvalid.ne_empty⟩
  unfold ControlPlane.overview
  cases hco : control.config.coordinatorOnly with
  | false =>
    refine ⟨fun machine hm hremote => ?_, fun _ => rfl, fun ht => by simp [hco] at ht⟩
    simp only [Bool.not_false, if_true, List.singleton_append, List.mem_cons] at hm
    rcases hm with rfl | hm
    · cases hremote
    · exact (hkind machine hm).2
  | true =>
    simp only [Bool.not_true, Bool.false_eq_true, if_false, List.nil_append]
    refine ⟨fun machine hm _ => (hkind machine hm).2, fun hf => by simp [hco] at hf,
      fun _ => ⟨homeMachineOf_remotes fun machine hm => (hkind machine hm).1, fun session hs => ?_⟩⟩
    obtain ⟨m, hm, hs⟩ := List.mem_flatMap.mp hs
    exact ⟨control.remoteMachine m, List.mem_map_of_mem hm, rfl, (h.mirrored_machine hs).symm⟩

theorem Published.listing [Inhabited μ] [BEq μ] {config : NodeConfig} {o : Overview μ} (h : Published config o) :
    Listing config o.sessions o.machines := by
  obtain ⟨hash, captures, hasher, machines, us, c, hf, hr, rfl⟩ := h
  have hlisting := overview_listing ((Coordinator.Coherent.start hash captures hf).run hr).control hasher
  rw [Coordinator.run_config hr] at hlisting
  exact ⟨hlisting.remote, hlisting.hosting, hlisting.coordinating⟩

theorem Sent.listing [Inhabited μ] [BEq μ] {config : NodeConfig} {event : StreamEvent μ} (h : Sent config event) :
    Listing config event.sessions event.machines := by
  cases h with
  | snapshot ho => exact ho.listing
  | patch _ hc => exact hc.listing.sublist (List.filter_subset_self _)

/-! ## The mirror and what it was told -/

structure Federated where
  mirror : RemoteMirror := {}
  /-- Ghost: each held session as the node reported it. -/
  reported : Std.ExtTreeMap String SessionSummary := ∅

namespace Federated

/-- One event, on the mirror and on the ghost. -/
def receive (machine : String) (f : Federated) : StreamEvent μ → Option Federated
  | .snapshot overview =>
    let mirror := f.mirror.snapshot machine overview
    some ⟨mirror, Index.insertAll SessionSummary.paneId ∅ (overview.sessions.filter mirror.owns)⟩
  | .patch patch =>
    match f.mirror.patch machine patch with
    | (mirror, true) =>
      some ⟨mirror, Index.insertAll SessionSummary.paneId
        (Index.eraseAll f.reported (patch.remove.filterMap mirror.removedPane)) (patch.upsert.filter mirror.owns)⟩
    | (_, false) => none

def receiveAll (machine : String) (f : Federated) (events : List (StreamEvent μ)) : Option Federated :=
  events.foldlM (receive machine) f

/-- The ghost holds what the mirror holds, before it is re-keyed. -/
def Faithful (machine : String) (f : Federated) : Prop :=
  ∀ pane : String, f.mirror.sessions[pane]? = f.reported[pane]?.map (RemoteMirror.rekey machine)

/-- No held session is one the listed machines say the node mirrors. -/
def OneLevel (f : Federated) (machines : List (MachineSummary μ)) : Prop :=
  ∀ (pane : String) (session : SessionSummary), f.reported[pane]? = some session →
    ∀ machine ∈ machines, machine.kind = .remote → machine.id ≠ session.machine

variable {machine : String} {f g : Federated} {event : StreamEvent μ}

/-- The home id an event leaves in the mirror. -/
theorem receive_home (h : f.receive machine event = some g) :
    g.mirror.home = match event with
      | .snapshot overview => homeMachineOf overview.machines
      | .patch patch => f.mirror.refreshedHome patch.machines := by
  cases event with
  | snapshot overview =>
    obtain rfl := Option.some.inj h
    simp only [RemoteMirror.snapshot, RemoteMirror.merge_eq]
  | patch patch =>
    simp only [receive] at h
    split at h
    next mirror hpatch =>
      obtain rfl := Option.some.inj h
      simp only [RemoteMirror.patch] at hpatch
      split at hpatch
      · cases hpatch
      · obtain rfl := (Prod.mk.inj hpatch).1
        exact removeAll_merge_home _ _ _
    next => cases h

/-- What an event leaves under a pane: a session it carries that the mirror
takes for the node's own, or what was there. -/
theorem receive_reported (h : f.receive machine event = some g) {pane : String} {session : SessionSummary}
    (hget : g.reported[pane]? = some session) :
    session ∈ event.sessions ∧ g.mirror.owns session = true ∨ f.reported[pane]? = some session := by
  cases event with
  | snapshot overview =>
    obtain rfl := Option.some.inj h
    rcases Index.getElem?_insertAll_cases (f := SessionSummary.paneId) (m := ∅) (k := pane)
        (l := overview.sessions.filter (f.mirror.snapshot machine overview).owns) with ⟨-, hc⟩ | ⟨s, hs, -, hc⟩
    · rw [hc] at hget
      simp at hget
    · obtain rfl := Option.some.inj (hc.symm.trans hget)
      exact .inl (List.mem_filter.mp hs)
  | patch patch =>
    simp only [receive] at h
    split at h
    next mirror hpatch =>
      obtain rfl := Option.some.inj h
      rcases Index.getElem?_insertAll_cases (f := SessionSummary.paneId) (k := pane)
          (m := Index.eraseAll f.reported (patch.remove.filterMap mirror.removedPane))
          (l := patch.upsert.filter mirror.owns) with ⟨-, hc⟩ | ⟨s, hs, -, hc⟩
      · exact .inr (Index.getElem?_eraseAll (hc.symm.trans hget))
      · obtain rfl := Option.some.inj (hc.symm.trans hget)
        exact .inl (List.mem_filter.mp hs)
    next => cases h

/-- A carried session the mirror takes for the node's own leaves one like it
under its pane. -/
theorem receive_holds (h : f.receive machine event = some g) {session : SessionSummary}
    (hs : session ∈ event.sessions) (ho : g.mirror.owns session = true) :
    ∃ held ∈ event.sessions, g.reported[session.paneId]? = some held := by
  have hinsert : ∀ {m : Std.ExtTreeMap String SessionSummary},
      ∃ held ∈ event.sessions, (Index.insertAll SessionSummary.paneId m
        (event.sessions.filter g.mirror.owns))[session.paneId]? = some held := by
    intro m
    rcases Index.getElem?_insertAll_cases (f := SessionSummary.paneId) (m := m) (k := session.paneId)
        (l := event.sessions.filter g.mirror.owns) with ⟨hn, -⟩ | ⟨held, hheld, -, hc⟩
    · exact absurd rfl (hn session (List.mem_filter.mpr ⟨hs, ho⟩))
    · exact ⟨held, List.mem_of_mem_filter hheld, hc⟩
  cases event with
  | snapshot overview =>
    obtain rfl := Option.some.inj h
    exact hinsert
  | patch patch =>
    simp only [receive] at h
    split at h
    next mirror hpatch =>
      obtain rfl := Option.some.inj h
      exact hinsert
    next => cases h

/-- The ghost follows the mirror. -/
theorem receive_faithful (hf : f.Faithful machine) (h : f.receive machine event = some g) : g.Faithful machine := by
  intro pane
  cases event with
  | snapshot overview =>
    obtain rfl := Option.some.inj h
    simp only [RemoteMirror.snapshot, RemoteMirror.merge_eq]
    exact Index.getElem?_insertAll_map (f := SessionSummary.paneId) (g := RemoteMirror.rekey machine) (fun _ => rfl)
      (by simp) pane
  | patch patch =>
    simp only [receive] at h
    split at h
    next mirror hpatch =>
      obtain rfl := Option.some.inj h
      simp only [RemoteMirror.patch] at hpatch
      split at hpatch
      · cases hpatch
      · obtain rfl := (Prod.mk.inj hpatch).1
        simp only [RemoteMirror.merge_eq, RemoteMirror.removeAll_eq]
        exact Index.getElem?_insertAll_map (f := SessionSummary.paneId) (g := RemoteMirror.rekey machine)
          (fun _ => rfl) (Index.getElem?_eraseAll_map hf) pane
    next => cases h

/-- An event the mirror accepts is the one the ghost follows. -/
theorem receive_mirror : (f.receive machine event).map mirror = f.mirror.receive machine event := by
  cases event with
  | snapshot overview => rfl
  | patch patch =>
    simp only [receive, RemoteMirror.receive]
    rcases f.mirror.patch machine patch with ⟨mirror, accepted⟩
    cases accepted <;> rfl

/-! ## Runs -/

variable {config : NodeConfig} {events : List (StreamEvent μ)}

theorem receiveAll_cons : f.receiveAll machine (event :: events) =
    (f.receive machine event).bind fun g => g.receiveAll machine events := rfl

theorem receiveAll_append {later : List (StreamEvent μ)} : f.receiveAll machine (events ++ later) =
    (f.receiveAll machine events).bind fun g => g.receiveAll machine later := List.foldlM_append

/-- What every accepted event of a stream preserves holds after all of them. -/
theorem receiveAll_invariant {I : Federated → Prop}
    (hI : ∀ {f g event}, event ∈ events → I f → f.receive machine event = some g → I g) (hf : I f)
    (h : f.receiveAll machine events = some g) : I g := by
  induction events generalizing f with
  | nil => exact Option.some.inj h ▸ hf
  | cons event events ih =>
    rw [receiveAll_cons, Option.bind_eq_some_iff] at h
    obtain ⟨f', hstep, hrest⟩ := h
    exact ih (fun hmem => hI (List.mem_cons_of_mem _ hmem)) (hI List.mem_cons_self hf hstep) hrest

/-- Over a whole stream the ghost holds what the mirror holds. -/
theorem receiveAll_faithful (hf : f.Faithful machine) (h : f.receiveAll machine events = some g) :
    g.Faithful machine :=
  receiveAll_invariant (I := Faithful machine) (fun _ hf hstep => receive_faithful hf hstep) hf h

theorem receiveAll_mirror : (f.receiveAll machine events).map mirror = f.mirror.receiveAll machine events := by
  induction events generalizing f with
  | nil => rfl
  | cons event events ih =>
    have hcons : f.mirror.receiveAll machine (event :: events) =
        (f.mirror.receive machine event).bind fun mirror => mirror.receiveAll machine events := rfl
    rw [receiveAll_cons, hcons, ← receive_mirror, Option.map_bind, Option.bind_map]
    exact Option.bind_congr fun g _ => ih

/-- Every held session is the node's own, or names no machine. -/
def Owned (localId : String) (f : Federated) : Prop :=
  ∀ (pane : String) (session : SessionSummary), f.reported[pane]? = some session →
    session.machine = localId ∨ session.machine = ""

/-- A hosting node names its home in every event, before anything is merged. -/
theorem receive_owned (hl : Listing config event.sessions event.machines) (hco : config.coordinatorOnly = false)
    (hf : f.Owned config.localId) (h : f.receive machine event = some g) : g.Owned config.localId := by
  intro pane session hget
  rcases receive_reported h hget with ⟨-, howns⟩ | hold
  · have hhome : g.mirror.home = some config.localId := by
      rw [receive_home h]
      cases event with
      | snapshot overview => exact hl.hosting hco
      | patch patch =>
        have hlisted : homeMachineOf patch.machines = some config.localId := hl.hosting hco
        simp only [RemoteMirror.refreshedHome, hlisted]
        split
        next hempty =>
          rw [List.isEmpty_iff.mp hempty] at hlisted
          cases hlisted
        next => rfl
    rw [RemoteMirror.owns, hhome] at howns
    by_cases hempty : session.machine.isEmpty = true
    · exact .inr (by simpa using hempty)
    · simp only [hempty] at howns
      exact .inl (by simpa using howns)
  · exact hf pane session hold

theorem Owned.oneLevel {sessions : List SessionSummary} {machines : List (MachineSummary μ)}
    (hf : f.Owned config.localId) (hl : Listing config sessions machines) : f.OneLevel machines := by
  intro pane session hget m hm hremote heq
  rcases hf pane session hget with h | h
  · exact (hl.remote m hm hremote).1 (heq.trans h)
  · exact (hl.remote m hm hremote).2 (heq.trans h)

/-- A coordinator-only node never names a home. -/
theorem receive_homeless (hl : Listing config event.sessions event.machines) (hco : config.coordinatorOnly = true)
    (hf : f.mirror.home = none) (h : f.receive machine event = some g) : g.mirror.home = none := by
  rw [receive_home h]
  cases event with
  | snapshot overview => exact (hl.coordinating hco).1
  | patch patch =>
    have hlisted : homeMachineOf patch.machines = none := (hl.coordinating hco).1
    simp only [RemoteMirror.refreshedHome, hlisted]
    split <;> exact hf

end Federated

open Federated

/-- **When federation is one level deep.** Of the streams a node sends, those
whose every event leaves the mirror without a session of a machine that event
lists as remote are the streams of a node that hosts sessions itself, and the
streams of a coordinator-only node that carry no session. -/
theorem one_level_iff [Inhabited μ] [BEq μ] {machine : String} {config : NodeConfig} {events : List (StreamEvent μ)}
    (hs : ∀ event ∈ events, Sent config event) {final : Federated}
    (h : Federated.receiveAll machine {} events = some final) :
    (∀ seen event later f, events = seen ++ event :: later →
        Federated.receiveAll machine {} (seen ++ [event]) = some f → f.OneLevel event.machines) ↔
      config.coordinatorOnly = false ∨ ∀ event ∈ events, event.sessions = [] := by
  constructor
  · intro hone
    by_cases hco : config.coordinatorOnly = false
    · exact .inl hco
    refine .inr fun event hmem => ?_
    have hco : config.coordinatorOnly = true := by simpa using hco
    obtain ⟨seen, later, rfl⟩ := List.append_of_mem hmem
    rw [receiveAll_append, Option.bind_eq_some_iff] at h
    obtain ⟨before, hbefore, h⟩ := h
    rw [receiveAll_cons, Option.bind_eq_some_iff] at h
    obtain ⟨after, hafter, -⟩ := h
    have hseen : Federated.receiveAll machine {} (seen ++ [event]) = some after := by
      rw [receiveAll_append, hbefore, Option.bind_some, receiveAll_cons, hafter]
      rfl
    -- no event named a home, so this one's sessions were all taken for the node's own
    have hhome : before.mirror.home = none :=
      receiveAll_invariant (I := fun f => f.mirror.home = none)
        (fun hmem hf hstep => receive_homeless (hs _ (by simp [hmem])).listing hco hf hstep) rfl hbefore
    have hl := (hs event hmem).listing
    have howns : ∀ session, after.mirror.owns session = true := fun session => by
      rw [RemoteMirror.owns, receive_homeless hl hco hhome hafter]
    rw [List.eq_nil_iff_forall_not_mem]
    intro session hsession
    obtain ⟨held, hheld, hget⟩ := receive_holds hafter hsession (howns session)
    obtain ⟨m, hm, hremote, hid⟩ := (hl.coordinating hco).2 held hheld
    exact hone seen event later after rfl hseen _ held hget m hm hremote hid
  · rintro (hco | hempty) seen event later f rfl hf
    · have howned : f.Owned config.localId :=
        receiveAll_invariant (I := Owned config.localId)
          (fun hmem hf hstep => receive_owned (hs _ (by simp at hmem ⊢; tauto)).listing hco hf hstep)
          (fun pane session hget => by simp at hget) hf
      exact howned.oneLevel (hs event (by simp)).listing
    · have hnone : ∀ pane : String, f.reported[pane]? = none :=
        receiveAll_invariant (I := fun f => ∀ pane : String, f.reported[pane]? = none)
          (fun {f g e} hmem hf hstep pane => by
            rw [Option.eq_none_iff_forall_not_mem]
            intro session hget
            rcases receive_reported hstep hget with ⟨hcarried, -⟩ | hold
            · rw [hempty e (by simp at hmem ⊢; tauto)] at hcarried
              cases hcarried
            · rw [hf pane] at hold
              cases hold)
          (fun pane => by simp) hf
      intro pane session hget
      rw [hnone pane] at hget
      cases hget

/-- A coordinator-only node `hub` that watches `gpu`. -/
def hub : NodeConfig := ⟨"hub", "Hub", true, false, []⟩

/-- What `hub` shows once `gpu` has one session. -/
def hubOverview : Overview Unit :=
  let start : Coordinator Unit := .start hub [⟨"gpu", "GPU", "gpu:8443"⟩]
  let mirror := RemoteMirror.merge {} "gpu" [shellSummary "gpu" "%1" "%1"]
  (start.write (start.control.state.applyMachineSessions "gpu" mirror.sessionList none 0)).control.overview fun _ => 0

theorem hubOverview_published : Published hub hubOverview := by
  refine ⟨fun _ => 0, ∅, fun _ => 0, [⟨"gpu", "GPU", "gpu:8443"⟩], _, _, ⟨by decide, by decide, by decide⟩,
    .single (l := .applyMachineSessions "gpu" (.merge {} "gpu" [shellSummary "gpu" "%1" "%1"]) none 0)
      ⟨?_, rfl, by decide⟩, rfl⟩
  have hempty : RemoteMirror.Filed "gpu" {} := fun pane session hget => by simp at hget
  exact hempty.merge _

/-- Its session of `gpu` is federated a second time. -/
theorem hub_refederates :
    Sent hub (.snapshot hubOverview) ∧ hubOverview.machines ≠ [] ∧
      ∃ f, Federated.receiveAll "laptop" {} [StreamEvent.snapshot hubOverview] = some f ∧
        ¬ f.OneLevel hubOverview.machines := by
  refine ⟨.snapshot hubOverview_published, by decide, _, rfl, fun hone => ?_⟩
  obtain ⟨m, hm, hremote, hid⟩ : ∃ m ∈ hubOverview.machines, m.kind = .remote ∧ m.id = "gpu" := by decide
  exact hone "%1" (shellSummary "gpu" "gpu~%1" "%1") (by decide) m hm hremote hid

/-- The stream of `hub` carries a session, so it is not one level deep. -/
theorem one_level_iff_hub :
    (∃ f, Federated.receiveAll "laptop" {} [StreamEvent.snapshot hubOverview] = some f) ∧
      ¬ ∀ seen event later f, [StreamEvent.snapshot hubOverview] = seen ++ event :: later →
        Federated.receiveAll "laptop" {} (seen ++ [event]) = some f → f.OneLevel event.machines := by
  refine ⟨⟨_, rfl⟩, fun hone => ?_⟩
  have hs : ∀ event ∈ [StreamEvent.snapshot hubOverview], Sent hub event := fun event hmem =>
    List.mem_singleton.mp hmem ▸ .snapshot hubOverview_published
  rcases (one_level_iff hs rfl).mp hone with hco | hempty
  · exact absurd hco (by decide)
  · exact absurd (hempty _ (List.mem_singleton_self _)) (by decide)

end Atmux
