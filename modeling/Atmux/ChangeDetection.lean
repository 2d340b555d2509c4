/-
What change detection covers: a writer that finds no observable change leaves
the revision where it is, so no client asks again for what it published.

The fields of a summary that are left out of the comparisons on purpose are
`activity` and `title`, which change on every spinner frame; `published` is a
summary without these two. The profile label is published, and none of the
three comparisons looks at it, so each writer covers what it publishes exactly
as long as the labels of the sessions it matched are the same.
-/
import Mathlib.Algebra.Group.Nat.Defs
import Atmux.Coordinator

namespace Atmux

open Lib

variable {μ : Type}

/-- A summary without the two fields that are spinner noise. -/
def SessionSummary.published (session : SessionSummary) : SessionSummary :=
  { session with activity := 0, title := "" }

/-- Two overviews list the same sessions, up to spinner noise. -/
def Overview.Agrees (before after : Overview μ) : Prop :=
  (before.sessions.map SessionSummary.published).Perm (after.sessions.map SessionSummary.published)

/-- Sessions that keep the profile label of the session filed under their id. -/
def ProfilesKept (previous current : List SessionSummary) : Prop :=
  ∀ session ∈ current, ∀ prior, (sessionsById previous)[session.id]? = some prior → prior.profile = session.profile

/-- Panes that keep their profile label and, whatever the raw captures hash
to, the content hash they are published with. -/
def LabelsKept (hasher : List (List Char) → Nat) (previous current : List Session) : Prop :=
  ∀ session ∈ current, ∀ prior, (Index.indexBy Session.paneId previous)[session.paneId]? = some prior →
    prior.profile = session.profile ∧
      Text.hex16 (observableContentHash hasher prior.content) =
        Text.hex16 (observableContentHash hasher session.content)

/-! ## One session -/

section
variable {left right : SessionSummary}

theorem SessionSummary.published_id (h : left.published = right.published) : left.id = right.id := by
  have hid := congrArg SessionSummary.id h
  exact hid

/-- Observably equal summaries publish the same, when their labels are. -/
theorem published_iff_of_observable (h : observableSummaryEqual left right = true) :
    left.published = right.published ↔ left.profile = right.profile := by
  have hobs := observableSummaryEqual_iff.mp h
  obtain ⟨⟩ := left
  obtain ⟨⟩ := right
  simp only [SessionSummary.observable, SessionSummary.mk.injEq, true_and] at hobs
  simp only [SessionSummary.published, SessionSummary.mk.injEq, hobs, true_and, and_true]

end

/-- Of two observably equal panes the label and the content hash are left to compare. -/
theorem localSummary_published_iff {hasher : List (List Char) → Nat} {config : NodeConfig} {left right : Session}
    (h : observableSessionEqual left right = true) :
    (ControlPlane.localSummary hasher config left).published = (ControlPlane.localSummary hasher config right).published ↔
      left.profile = right.profile ∧
        Text.hex16 (observableContentHash hasher left.content) =
          Text.hex16 (observableContentHash hasher right.content) := by
  simp only [observableSessionEqual, Bool.and_eq_true, beq_iff_eq, and_assoc] at h
  obtain ⟨hname, hpane, hidentity, hstatus, hagent, hattached, hpath, hcommand, hlaunch, hscope, hmemory, hwindows,
    hwindow, hindex, -⟩ := h
  simp only [ControlPlane.localSummary, SessionSummary.fromLocal, SessionSummary.published, SessionSummary.mk.injEq,
    hname, hpane, hidentity, hstatus, hagent, hattached, hpath, hcommand, hlaunch, hscope, hmemory, hwindows, hwindow,
    hindex, true_and]

/-! ## Lists of sessions -/

/-- Mirrored lists that compare equal publish the same where the labels are kept. -/
theorem published_perm_iff {previous current : List SessionSummary} (hd : (current.map SessionSummary.id).Nodup)
    (h : observableSummariesEqual previous current = true) :
    (previous.map SessionSummary.published).Perm (current.map SessionSummary.published) ↔
      ProfilesKept previous current := by
  simp only [observableSummariesEqual, Bool.and_eq_true, beq_iff_eq, List.all_eq_true, Option.any_eq_true] at h
  obtain ⟨hlen, hmatch⟩ := h
  rw [Index.perm_iff_of_matched SessionSummary.published_id hlen hd fun s hs => (hmatch s hs).imp fun _ hp => hp.1]
  refine forall₂_congr fun session hs => forall₂_congr fun prior hget => ?_
  obtain ⟨prior', hget', heq⟩ := hmatch session hs
  obtain rfl : prior' = prior := Option.some.inj (hget'.symm.trans hget)
  exact published_iff_of_observable heq

/-- Of a listing by distinct session names that compares equal, no two
sessions are one pane. -/
theorem nodup_paneId_of_equal {previous current : List Session} (hnames : (current.map Session.name).Nodup)
    (h : observableSessionsEqual previous current = true) : (current.map Session.paneId).Nodup := by
  simp only [observableSessionsEqual, Bool.and_eq_true, List.all_eq_true, Option.any_eq_true] at h
  refine (hnames.of_map Session.name).map_on fun a ha b hb hpane => ?_
  obtain ⟨prior, hget, heqa⟩ := h.2 a ha
  obtain ⟨prior', hget', heqb⟩ := h.2 b hb
  rw [← hpane] at hget'
  obtain rfl : prior = prior' := Option.some.inj (hget.symm.trans hget')
  have hname : ∀ {s : Session}, observableSessionEqual prior s = true → prior.name = s.name := by
    intro s hs
    simp only [observableSessionEqual, Bool.and_eq_true, beq_iff_eq, and_assoc] at hs
    exact hs.1
  exact List.inj_on_of_nodup_map hnames ha hb ((hname heqa).symm.trans (hname heqb))

/-- The coordinator's own panes, the same way. -/
theorem localSummaries_perm_iff (hasher : List (List Char) → Nat) (config : NodeConfig)
    {previous current : List Session} (hnames : (current.map Session.name).Nodup)
    (h : observableSessionsEqual previous current = true) :
    ((previous.map (ControlPlane.localSummary hasher config)).map SessionSummary.published).Perm
        ((current.map (ControlPlane.localSummary hasher config)).map SessionSummary.published) ↔
      LabelsKept hasher previous current := by
  have hd := nodup_paneId_of_equal hnames h
  have hkey : ∀ {a b : Session}, (ControlPlane.localSummary hasher config a).published =
      (ControlPlane.localSummary hasher config b).published → a.paneId = b.paneId := by
    intro a b heq
    have hpane := congrArg SessionSummary.paneId heq
    exact hpane
  simp only [observableSessionsEqual, Bool.and_eq_true, beq_iff_eq, List.all_eq_true, Option.any_eq_true] at h
  obtain ⟨hlen, hmatch⟩ := h
  rw [List.map_map, List.map_map, Index.perm_iff_of_matched
    (g := SessionSummary.published ∘ ControlPlane.localSummary hasher config) hkey hlen hd
    fun s hs => (hmatch s hs).imp fun _ hp => hp.1]
  refine forall₂_congr fun session hs => forall₂_congr fun prior hget => ?_
  obtain ⟨prior', hget', heq⟩ := hmatch session hs
  obtain rfl : prior' = prior := Option.some.inj (hget'.symm.trans hget)
  exact localSummary_published_iff heq

/-! ## Writers -/

/-- A writer bumped the revision exactly when it found a change. -/
theorem State.publish_revision_eq {state : State μ} {machine : String} {changed : Bool} :
    (state.publish machine changed).revision = state.revision ↔ changed = false := by
  unfold State.publish
  cases changed with
  | false => simp
  | true =>
    have hlt : (state.revision + 1) % 2 ^ 64 < 2 ^ 64 := Nat.mod_lt _ (by decide)
    have hne : (state.revision + 1) % 2 ^ 64 ≠ state.revision := by
      intro heq
      omega
    simpa [State.bump] using hne

namespace ControlPlane

variable [Inhabited μ] {before after : ControlPlane μ} {machine : String} {hasher : List (List Char) → Nat}

/-- Control planes that differ in one remote entry publish the same sessions
of every other machine. -/
theorem elsewhere_eq (hasher : List (List Char) → Nat) (hb : before.Coherent) (ha : after.Coherent)
    (hconfig : after.config = before.config) (hmachines : after.machines = before.machines)
    (hsessions : after.state.sessions = before.state.sessions)
    (hremotes : ∀ other : String, other ≠ machine → after.state.remotes[other]? = before.state.remotes[other]?) :
    (before.overview hasher).sessions.filter (fun session => session.machine != machine) =
      (after.overview hasher).sessions.filter fun session => session.machine != machine := by
  have hfilter : ∀ {control : ControlPlane μ}, control.Coherent →
      ((Index.values control.machines).flatMap control.mirroredSessions).filter
          (fun session => session.machine != machine) =
        ((Index.values control.machines).filter fun m => m.id != machine).flatMap control.mirroredSessions := by
    intro control h
    refine Index.flatMap_filter fun m _ session hs => ?_
    rw [h.mirrored_machine hs]
  have hlater := hfilter ha
  rw [hmachines] at hlater
  simp only [overview, List.filter_append, hfilter hb, hlater, hconfig, hmachines, hsessions]
  refine congrArg₂ (· ++ ·) rfl (List.flatMap_congr fun m hm => ?_)
  have hne : m.id ≠ machine := by simpa using (List.mem_filter.mp hm).2
  simp only [mirroredSessions, hremotes m.id hne]

/-- So they agree when what they publish of that machine does. -/
theorem agrees_iff_of_elsewhere
    (h : (before.overview hasher).sessions.filter (fun session => session.machine != machine) =
      (after.overview hasher).sessions.filter fun session => session.machine != machine) :
    (before.overview hasher).Agrees (after.overview hasher) ↔
      (((before.overview hasher).narrow machine).sessions.map SessionSummary.published).Perm
        (((after.overview hasher).narrow machine).sessions.map SessionSummary.published) := by
  have hsplit : ∀ o : Overview μ, (o.sessions.map SessionSummary.published).Perm
      (((o.narrow machine).sessions ++ o.sessions.filter fun session => session.machine != machine).map
        SessionSummary.published) := by
    intro o
    exact (List.filter_append_perm (fun session => session.machine == machine) o.sessions).symm.map _
  constructor
  · intro hperm
    have hfilter := hperm.filter fun session => session.machine == machine
    rw [List.filter_map, List.filter_map] at hfilter
    exact hfilter
  · intro hperm
    refine (hsplit _).trans (.trans ?_ (hsplit _).symm)
    rw [List.map_append, List.map_append, h]
    exact hperm.append_right _

end ControlPlane

namespace Coordinator

variable [Inhabited μ] [BEq μ] {c c' : Coordinator μ} {machine : String}

/-- A refresh that reports no change leaves the overview as it was, up to
noise, exactly when the panes it matched kept their labels. -/
theorem applyRefresh_covers_iff (hasher : List (List Char) → Nat) {sessions : List Session}
    (hnames : (sessions.map Session.name).Nodup) (hs : c.step (.applyRefresh sessions) = some c') :
    (c'.control.state.revision = c.control.state.revision →
        (c.control.overview hasher).Agrees (c'.control.overview hasher)) ↔
      (c.control.config.coordinatorOnly = false → c.control.state.health = none →
        observableSessionsEqual c.control.state.sessions sessions = true →
          LabelsKept hasher c.control.state.sessions sessions) := by
  obtain rfl := Option.some.inj hs
  cases hco : c.control.config.coordinatorOnly with
  | true =>
    have hsame : ∀ state, c.writeLocal state = c := fun state => by simp only [writeLocal, hco, if_true]
    rw [hsame]
    exact ⟨fun _ hfalse => (by cases hfalse), fun _ _ => .refl _⟩
  | false =>
    have hwrite : ∀ state, c.writeLocal state = c.write state := fun state => by
      simp only [writeLocal, hco, Bool.false_eq_true, if_false]
    rw [hwrite]
    have hrevision : (c.control.state.applyRefresh c.control.config.localId sessions).revision =
        c.control.state.revision ↔ observableSessionsEqual c.control.state.sessions sessions = true ∧
          c.control.state.health = none := by
      refine State.publish_revision_eq.trans ?_
      simp
    have hsessions : (c.control.state.applyRefresh c.control.config.localId sessions).sessions = sessions := by
      simp [State.applyRefresh, State.updateOwn]
    have hremotes : (c.control.state.applyRefresh c.control.config.localId sessions).remotes =
        c.control.state.remotes := by
      simp [State.applyRefresh, State.updateOwn]
    have hagrees : (c.control.overview hasher).Agrees
        ((c.write (c.control.state.applyRefresh c.control.config.localId sessions)).control.overview hasher) ↔
        ((c.control.state.sessions.map (ControlPlane.localSummary hasher c.control.config)).map
            SessionSummary.published).Perm
          ((sessions.map (ControlPlane.localSummary hasher c.control.config)).map SessionSummary.published) := by
      have hmirrored : (c.write (c.control.state.applyRefresh c.control.config.localId sessions)).control.mirroredSessions =
          c.control.mirroredSessions := by
        funext m
        simp only [ControlPlane.mirroredSessions, write, hremotes]
      simp only [Overview.Agrees, ControlPlane.overview, hmirrored]
      simp only [write, hco, Bool.not_false, if_true, hsessions, List.map_append, List.perm_append_right_iff]
    rw [hagrees]
    constructor
    · intro h _ hhealth hequal
      exact (localSummaries_perm_iff hasher _ hnames hequal).mp (h (hrevision.mpr ⟨hequal, hhealth⟩))
    · intro h hsame
      obtain ⟨hequal, hhealth⟩ := hrevision.mp hsame
      exact (localSummaries_perm_iff hasher _ hnames hequal).mpr (h rfl hhealth hequal)

omit [Inhabited μ] [BEq μ] in
/-- Filing a machine's mirror changes nothing but the machine's entry, when
it has one. -/
theorem applyMachineSessions_elsewhere (state : State μ) (machine : String) (sessions : List SessionSummary)
    (health : Option String) (now : Nat) :
    (state.applyMachineSessions machine sessions health now).sessions = state.sessions ∧
      ∀ other : String, other ≠ machine →
        (state.applyMachineSessions machine sessions health now).remotes[other]? = state.remotes[other]? := by
  refine ⟨(State.updateRemote_own ..).1, ?_⟩
  obtain ⟨next, changed, heq, hedits, -⟩ := State.updateRemote_cases "" state machine fun remote =>
    let sessions := sessions.filter fun session => session.name != reservedServiceSession
    ({ remote with online := true, health, lastSeenMs := some now, sessions },
      !remote.online || remote.health != health || !observableSummariesEqual remote.sessions sessions)
  intro other hne
  simp only [State.applyMachineSessions, heq, State.publish_remotes, hedits.remotes other hne]

omit [Inhabited μ] [BEq μ] in
theorem applyMachineSessions_cases (state : State μ) (machine : String) (sessions : List SessionSummary)
    (health : Option String) (now : Nat) :
    state.remotes[machine]? = none ∧ state.applyMachineSessions machine sessions health now = state ∨
      ∃ remote, state.remotes[machine]? = some remote ∧
        ((state.applyMachineSessions machine sessions health now).remotes[machine]?).map RemoteState.sessions =
          some (sessions.filter fun session => session.name != reservedServiceSession) ∧
        ((state.applyMachineSessions machine sessions health now).revision = state.revision ↔
          remote.online = true ∧ remote.health = health ∧
            observableSummariesEqual remote.sessions
              (sessions.filter fun session => session.name != reservedServiceSession) = true) := by
  unfold State.applyMachineSessions State.updateRemote
  cases hget : state.remotes[machine]? with
  | none => exact .inl ⟨rfl, rfl⟩
  | some remote =>
    refine .inr ⟨remote, rfl, ?_, State.publish_revision_eq.trans ?_⟩
    · simp
    · simp [and_assoc]

/-- Filing a machine's mirror, the same way: only a listed machine shows it. -/
theorem applyMachineSessions_covers_iff (hasher : List (List Char) → Nat) (hc : c.control.Coherent)
    {mirror : RemoteMirror} (hf : mirror.Filed machine) {health : Option String} {now : Nat}
    (hs : c.step (.applyMachineSessions machine mirror health now) = some c') :
    (c'.control.state.revision = c.control.state.revision →
        (c.control.overview hasher).Agrees (c'.control.overview hasher)) ↔
      (c.control.machines.contains machine = true →
        ∀ remote, c.control.state.remotes[machine]? = some remote → remote.online = true → remote.health = health →
          observableSummariesEqual remote.sessions
              (mirror.sessionList.filter fun session => session.name != reservedServiceSession) = true →
            ProfilesKept remote.sessions
              (mirror.sessionList.filter fun session => session.name != reservedServiceSession)) := by
  obtain rfl := Option.some.inj hs
  have hc' : (c.write (c.control.state.applyMachineSessions machine mirror.sessionList health now)).control.Coherent :=
    hc.updateRemote fun _ => hf.owned rfl
  obtain ⟨hown, hothers⟩ := applyMachineSessions_elsewhere c.control.state machine mirror.sessionList health now
  rcases applyMachineSessions_cases c.control.state machine mirror.sessionList health now with
    ⟨hnone, hsame⟩ | ⟨remote, hget, hfiled, hrevision⟩
  · rw [hsame]
    refine ⟨fun _ _ remote hget => ?_, fun _ _ => .refl _⟩
    rw [hnone] at hget
    cases hget
  have hagrees := ControlPlane.agrees_iff_of_elsewhere (ControlPlane.elsewhere_eq hasher hc hc' rfl rfl hown hothers)
  rw [hagrees]
  by_cases hlisted : c.control.machines.contains machine = true
  · have hisSome := hlisted
    rw [Std.ExtTreeMap.contains_eq_isSome_getElem?] at hisSome
    obtain ⟨m, hm⟩ := Option.isSome_iff_exists.mp hisSome
    obtain ⟨hid, hne, -⟩ := hc.machine hm
    obtain ⟨filed, hfiled, hsessions⟩ := Option.map_eq_some_iff.mp hfiled
    have hbefore : ((c.control.overview hasher).narrow machine).sessions = remote.sessions := by
      rw [(ControlPlane.narrow_remote hasher hc hne).2, hm]
      simp [ControlPlane.mirroredSessions, hid, hget]
    have hafter : (((c.write (c.control.state.applyMachineSessions machine mirror.sessionList health
        now)).control.overview hasher).narrow machine).sessions = filed.sessions := by
      rw [(ControlPlane.narrow_remote hasher hc' hne).2]
      simp [ControlPlane.mirroredSessions, write, hm, hid, hfiled]
    rw [hbefore, hafter, hsessions]
    have hd : ((mirror.sessionList.filter fun session => session.name != reservedServiceSession).map
        SessionSummary.id).Nodup := hf.ids_nodup.sublist (List.filter_sublist.map _)
    constructor
    · intro h _ prior hprior honline hhealth hequal
      obtain rfl : remote = prior := Option.some.inj (hget.symm.trans hprior)
      exact (published_perm_iff hd hequal).mp (h (hrevision.mpr ⟨honline, hhealth, hequal⟩))
    · intro h hsame
      obtain ⟨honline, hhealth, hequal⟩ := hrevision.mp hsame
      exact (published_perm_iff hd hequal).mpr (h hlisted remote hget honline hhealth hequal)
  · refine ⟨fun _ h => absurd h hlisted, fun _ _ => ?_⟩
    have hnone : c.control.machines[machine]? = none := by
      rw [Std.ExtTreeMap.contains_eq_isSome_getElem?] at hlisted
      exact Option.not_isSome_iff_eq_none.mp hlisted
    by_cases hlocal : machine = c.control.config.localId
    · subst hlocal
      have hlater := (ControlPlane.narrow_local hasher hc').2
      rw [(ControlPlane.narrow_local hasher hc).2]
      refine .of_eq (congrArg _ (hlater.trans ?_).symm)
      exact congrArg (fun sessions => if c.control.config.coordinatorOnly = true then [] else
        List.map (ControlPlane.localSummary hasher c.control.config) sessions) hown
    · rw [(ControlPlane.narrow_remote hasher hc hlocal).2, (ControlPlane.narrow_remote hasher hc' hlocal).2]
      have hunlisted : (c.write (c.control.state.applyMachineSessions machine mirror.sessionList health
          now)).control.machines[machine]? = none := hnone
      rw [hunlisted, hnone]
      exact .refl _

end Coordinator

/-- A session that a patch leaves out was published before, up to noise,
exactly when its label is the one filed under its id. -/
theorem overviewPatch_covers_iff (previous current : Overview μ) :
    (∀ session ∈ current.sessions, session ∉ (overviewPatch previous current).upsert →
        ∃ prior, (sessionsById previous.sessions)[session.id]? = some prior ∧ prior.published = session.published) ↔
      ∀ session ∈ current.sessions, ∀ prior, (sessionsById previous.sessions)[session.id]? = some prior →
        observableSummaryEqual prior session = true → prior.profile = session.profile := by
  have homitted : ∀ session ∈ current.sessions, session ∉ (overviewPatch previous current).upsert ↔
      ∃ prior, (sessionsById previous.sessions)[session.id]? = some prior ∧
        observableSummaryEqual prior session = true := by
    intro session hs
    simp [overviewPatch, hs, changedSince, Option.all_eq_true]
  refine forall₂_congr fun session hs => ?_
  rw [homitted session hs]
  constructor
  · intro h prior hget hequal
    obtain ⟨prior', hget', hpublished⟩ := h ⟨prior, hget, hequal⟩
    obtain rfl : prior = prior' := Option.some.inj (hget.symm.trans hget')
    exact (published_iff_of_observable hequal).mp hpublished
  · rintro h ⟨prior, hget, hequal⟩
    exact ⟨prior, hget, (published_iff_of_observable hequal).mpr (h prior hget hequal)⟩

/-- **Change detection misses the profile label.** A refresh of the
coordinator's own panes that bumps no revision, a mirror filed without one,
and a patch that leaves a session out each keep every published field but the
two noisy ones exactly when the labels of the sessions they compared are the
same; for own panes, also the content hashes of captures that hash alike. -/
theorem changes_cover_published_iff [Inhabited μ] [BEq μ] (hasher : List (List Char) → Nat) {c : Coordinator μ}
    (hc : c.control.Coherent) :
    (∀ sessions c', (sessions.map Session.name).Nodup → c.step (.applyRefresh sessions) = some c' →
      ((c'.control.state.revision = c.control.state.revision →
          (c.control.overview hasher).Agrees (c'.control.overview hasher)) ↔
        (c.control.config.coordinatorOnly = false → c.control.state.health = none →
          observableSessionsEqual c.control.state.sessions sessions = true →
            LabelsKept hasher c.control.state.sessions sessions))) ∧
    (∀ machine mirror health now c', RemoteMirror.Filed machine mirror →
      c.step (.applyMachineSessions machine mirror health now) = some c' →
      ((c'.control.state.revision = c.control.state.revision →
          (c.control.overview hasher).Agrees (c'.control.overview hasher)) ↔
        (c.control.machines.contains machine = true →
          ∀ remote, c.control.state.remotes[machine]? = some remote → remote.online = true → remote.health = health →
            observableSummariesEqual remote.sessions
                (mirror.sessionList.filter fun session => session.name != reservedServiceSession) = true →
              ProfilesKept remote.sessions
                (mirror.sessionList.filter fun session => session.name != reservedServiceSession)))) ∧
    (∀ previous current : Overview μ,
      ((∀ session ∈ current.sessions, session ∉ (overviewPatch previous current).upsert →
          ∃ prior, (sessionsById previous.sessions)[session.id]? = some prior ∧ prior.published = session.published) ↔
        ∀ session ∈ current.sessions, ∀ prior, (sessionsById previous.sessions)[session.id]? = some prior →
          observableSummaryEqual prior session = true → prior.profile = session.profile)) :=
  ⟨fun _ _ hnames hs => Coordinator.applyRefresh_covers_iff hasher hnames hs,
    fun _ _ _ _ _ hf hs => Coordinator.applyMachineSessions_covers_iff hasher hc hf hs,
    overviewPatch_covers_iff⟩

/-- The pane of a session launched a moment ago: its label is set after the
pane exists, and a refresh in between read another one. -/
def relabelledPane (profile : String) : Session :=
  ⟨"main", false, 1, 0, 0, 0, "%1", 7, "v1", none, none, "/", "claude", "", "", "$ ", 5, .claude, profile, none, none,
    none, .waiting⟩

/-- The coordinator that shows the pane under the label `profile`. -/
def relabelledNode (profile : String) : Coordinator Unit :=
  let start : Coordinator Unit := .start ⟨"lab", "Lab", false, false, []⟩ [⟨"gpu", "GPU", "gpu:8443"⟩]
  start.write (start.control.state.applyRefresh "lab" [relabelledPane profile])

/-- The label of a pane changes from `claude` to `work`: no revision tells. -/
theorem profile_change_unseen :
    ((relabelledNode "claude").control.state.applyRefresh "lab" [relabelledPane "work"]).revision =
        (relabelledNode "claude").control.state.revision ∧
      ¬ ((relabelledNode "claude").control.overview fun _ => 0).Agrees
        (((relabelledNode "claude").write ((relabelledNode "claude").control.state.applyRefresh "lab"
          [relabelledPane "work"])).control.overview fun _ => 0) := by
  constructor
  · decide
  · intro hagrees
    have hprofiles := hagrees.map SessionSummary.profile
    revert hprofiles
    decide

/-- The same node, when the label stays. -/
theorem kept_label_covered :
    ((relabelledNode "claude").control.overview fun _ => 0).Agrees
      (((relabelledNode "claude").writeLocal ((relabelledNode "claude").control.state.applyRefresh "lab"
        [relabelledPane "claude"])).control.overview fun _ => 0) := by
  have hf : Coordinator.ValidFederation "lab" [⟨"gpu", "GPU", "gpu:8443"⟩] := ⟨by decide, by decide, by decide⟩
  have hstart : (Coordinator.start ⟨"lab", "Lab", false, false, []⟩ [⟨"gpu", "GPU", "gpu:8443"⟩] :
      Coordinator Unit).control.Coherent := (Coordinator.Coherent.start (fun _ => 5) Set.univ hf).control
  have hc : (relabelledNode "claude").control.Coherent := ⟨hstart.machine, hstart.mirrored⟩
  refine ((changes_cover_published_iff (fun _ => 0) hc).1 [relabelledPane "claude"] _ (by decide) rfl).mpr ?_ (by decide)
  intro _ _ _ session hs prior hget
  obtain rfl := List.mem_singleton.mp hs
  obtain ⟨hprior, -⟩ := Index.mem_of_getElem?_indexBy hget
  obtain rfl : prior = relabelledPane "claude" := List.mem_singleton.mp hprior
  exact ⟨rfl, rfl⟩

end Atmux
