/-
The overview stream from a node to a coordinator: `overview_events` on one
end, the `RemoteMirror` that applies its events on the other.

The node remembers the overview of the last event it sent and skips a wake
whose patch would change nothing, so the mirror's base is always that
overview. `mirror_converges`: whatever wakes the node observes, no patch is
refused, and after each wake the mirror holds what a fresh snapshot of the
overview at that wake would give it, up to `observableSummaryEqual`.

The argument is per pane (`paneOf_step`): a local session's id names its
pane, so a pane the patch neither upserts nor removes held an observably
equal session before.
-/
import Atmux.Mirror

namespace Atmux

open Lib

variable {μ : Type}

inductive StreamEvent (μ : Type)
  /-- `sessions.snapshot` -/
  | snapshot (overview : Overview μ)
  /-- `sessions.patch` -/
  | patch (patch : OverviewPatch μ)

/-- The patch of one wake, when it is sent at all. -/
def wakePatch [BEq μ] (previous current : Overview μ) : Option (OverviewPatch μ) :=
  let patch := overviewPatch previous current
  if !patch.upsert.isEmpty || !patch.remove.isEmpty || patch.health != previous.health
      || patch.machines != previous.machines then
    some patch
  else none

/-- The loop of `overview_events` over the overviews held at the wakes it
observes. A suppressed wake does not advance `previous`. -/
def overviewPatches [BEq μ] (previous : Overview μ) : List (Overview μ) → List (StreamEvent μ)
  | [] => []
  | current :: wakes =>
    match wakePatch previous current with
    | some patch => .patch patch :: overviewPatches current wakes
    | none => overviewPatches previous wakes

/-- Everything `overview_events` sends, from its first overview on. -/
def overviewEvents [BEq μ] (first : Overview μ) (wakes : List (Overview μ)) : List (StreamEvent μ) :=
  .snapshot first :: overviewPatches first wakes

/-- `watch_stream` on one event; `none` is the resync after a refused patch. -/
def RemoteMirror.receive (machine : String) (mirror : RemoteMirror) : StreamEvent μ → Option RemoteMirror
  | .snapshot overview => some (mirror.snapshot machine overview)
  | .patch patch =>
    match mirror.patch machine patch with
    | (mirror, true) => some mirror
    | (_, false) => none

/-- The mirror after every event in order, if none was refused. -/
def RemoteMirror.receiveAll (machine : String) (mirror : RemoteMirror) (events : List (StreamEvent μ)) :
    Option RemoteMirror :=
  events.foldlM (RemoteMirror.receive machine) mirror

/-! ## What a node's overview looks like -/

/-- A session of the node's own tmux server. -/
structure LocalSession (home : String) (session : SessionSummary) : Prop where
  machine : session.machine = home
  pane : validTmuxPaneId session.paneId = true
  id : session.id = session.paneId ∨ session.id = compositeId home session.paneId

/-- A session the node mirrors from a machine of its own. -/
structure NestedSession (home : String) (session : SessionSummary) : Prop where
  valid : ValidMachineId session.machine
  machine : session.machine ≠ home
  id : session.id = compositeId session.machine session.paneId

/-- The sessions of the machine `home`. -/
def localSessions (home : String) (sessions : List SessionSummary) : List SessionSummary :=
  sessions.filter fun session => session.machine == home

/-- An overview of the node whose own machine is `home`. -/
structure NodeOverview (home : String) (overview : Overview μ) : Prop where
  ids : (overview.sessions.map SessionSummary.id).Nodup
  machines : (overview.machines.filter fun machine => machine.kind == .local).map MachineSummary.id = [home]
  panes : ((localSessions home overview.sessions).map SessionSummary.paneId).Nodup
  sessions : ∀ session ∈ overview.sessions, LocalSession home session ∨ NestedSession home session

/-- The same panes, holding observably equal sessions. -/
def ObservablySame (left right : Std.ExtTreeMap String SessionSummary) : Prop :=
  ∀ pane : String,
    match left[pane]?, right[pane]? with
    | some a, some b => observableSummaryEqual a b = true
    | none, none => True
    | _, _ => False

theorem observablySame_iff {left right : Std.ExtTreeMap String SessionSummary} :
    ObservablySame left right ↔
      ∀ pane : String, left[pane]?.map SessionSummary.observable = right[pane]?.map SessionSummary.observable := by
  refine forall_congr' fun pane => ?_
  cases left[pane]? <;> cases right[pane]? <;> simp [observableSummaryEqual_iff]

/-! ## What an id names -/

theorem separator_not_mem_pane {pane : String} (h : validTmuxPaneId pane = true) :
    compositeSeparator ∉ pane.toList := by
  unfold validTmuxPaneId at h
  split at h
  next digits heq =>
    simp only [Bool.and_eq_true, List.all_eq_true] at h
    rw [heq]
    simp only [List.mem_cons, not_or]
    exact ⟨by decide, fun hmem => absurd (h.2 _ hmem) (by decide)⟩
  · cases h

variable {home machine : String} {session other : SessionSummary} {mirror : RemoteMirror}

theorem LocalSession.id_ne_composite (h : LocalSession home session) (hh : ValidMachineId home) {m : String}
    (hm : ValidMachineId m) (hne : m ≠ home) (pane : String) : session.id ≠ compositeId m pane := by
  intro heq
  rcases h.id with hid | hid
  · exact separator_not_mem_pane h.pane (hid ▸ heq ▸ separator_mem_compositeId m pane)
  · exact hne (compositeId_inj hm hh (heq.symm.trans hid)).1

/-- Two local sessions with one id are on one pane. -/
theorem LocalSession.pane_eq (h : LocalSession home session) (ho : LocalSession home other)
    (hh : ValidMachineId home) (hid : session.id = other.id) : session.paneId = other.paneId := by
  have hbare : ∀ {s t : SessionSummary}, LocalSession home s → s.paneId ≠ compositeId home t.paneId := by
    intro s t hs heq
    exact separator_not_mem_pane hs.pane (heq ▸ separator_mem_compositeId home t.paneId)
  rcases h.id with h1 | h1 <;> rcases ho.id with h2 | h2
  · exact h1.symm.trans (hid.trans h2)
  · exact absurd (h1.symm.trans (hid.trans h2)) (hbare h)
  · exact absurd (h2.symm.trans (hid.symm.trans h1)) (hbare ho)
  · exact (compositeId_inj hh hh (h1.symm.trans (hid.trans h2))).2

theorem LocalSession.removedPane (h : LocalSession home session) (hh : ValidMachineId home)
    (hm : mirror.home = some home) : mirror.removedPane session.id = some session.paneId := by
  rcases h.id with hid | hid
  · rw [hid, RemoteMirror.removedPane, Text.splitOnce_eq_none (separator_not_mem_pane h.pane)]
  · rw [hid, RemoteMirror.removedPane, splitOnce_compositeId hh]
    simp [hm]

theorem NestedSession.removedPane (h : NestedSession home session) (hm : mirror.home = some home) :
    mirror.removedPane session.id = none := by
  rw [h.id, RemoteMirror.removedPane, splitOnce_compositeId h.valid]
  simp [hm, h.machine]

/-! ## One pane of the mirror -/

/-- What a snapshot files under each pane. -/
def mirrored (machine home : String) (sessions : List SessionSummary) : Std.ExtTreeMap String SessionSummary :=
  Index.insertAll SessionSummary.paneId ∅ ((localSessions home sessions).map (RemoteMirror.rekey machine))

theorem filter_owns {sessions : List SessionSummary}
    (hs : ∀ session ∈ sessions, LocalSession home session ∨ NestedSession home session)
    (hh : ValidMachineId home) (hm : mirror.home = some home) :
    sessions.filter mirror.owns = localSessions home sessions := by
  refine List.filter_congr fun session hmem => ?_
  have hne : session.machine.isEmpty = false := by
    have hvalid : ValidMachineId session.machine := by
      rcases hs session hmem with hl | hn
      · exact hl.machine ▸ hh
      · exact hn.valid
    simpa using hvalid.ne_empty
  simp [RemoteMirror.owns, hm, hne]

theorem rekey_panes (sessions : List SessionSummary) :
    (sessions.map (RemoteMirror.rekey machine)).map SessionSummary.paneId =
      sessions.map SessionSummary.paneId := by
  simp only [List.map_map]
  rfl

theorem mem_localSessions {sessions : List SessionSummary} :
    session ∈ localSessions home sessions ↔ session ∈ sessions ∧ session.machine = home := by
  simp [localSessions]

section
variable {m : Std.ExtTreeMap String SessionSummary} {sessions : List SessionSummary} {pane : String}

/-- Filing distinct panes over `m`: a listed session is found under its pane. -/
theorem getElem?_rekeyed_of_mem (hd : (sessions.map SessionSummary.paneId).Nodup) (h : session ∈ sessions) :
    (Index.insertAll SessionSummary.paneId m (sessions.map (RemoteMirror.rekey machine)))[session.paneId]? =
      some (RemoteMirror.rekey machine session) :=
  Index.getElem?_insertAll_of_mem (f := SessionSummary.paneId) (by rw [rekey_panes]; exact hd)
    (List.mem_map_of_mem h)

/-- And a pane no listed session is on keeps what `m` holds. -/
theorem getElem?_rekeyed_of_not_mem (h : ∀ session ∈ sessions, session.paneId ≠ pane) :
    (Index.insertAll SessionSummary.paneId m (sessions.map (RemoteMirror.rekey machine)))[pane]? = m[pane]? := by
  refine Index.getElem?_insertAll_of_not_mem fun s hs => ?_
  obtain ⟨t, ht, rfl⟩ := List.mem_map.mp hs
  exact h t ht

end

theorem homeMachineOf_eq {o : Overview μ} (ho : NodeOverview home o) : homeMachineOf o.machines = some home := by
  have hfirst := congrArg List.head? ho.machines
  rwa [List.head?_map, List.head?_filter] at hfirst

theorem mirrored_of_mem {o : Overview μ} (ho : NodeOverview home o) (h : session ∈ o.sessions)
    (hl : session.machine = home) :
    (mirrored machine home o.sessions)[session.paneId]? = some (RemoteMirror.rekey machine session) :=
  getElem?_rekeyed_of_mem ho.panes (mem_localSessions.mpr ⟨h, hl⟩)

theorem mirrored_of_not_mem {sessions : List SessionSummary} {pane : String}
    (h : ∀ session ∈ sessions, session.machine = home → session.paneId ≠ pane) :
    (mirrored machine home sessions)[pane]? = none := by
  rw [mirrored, getElem?_rekeyed_of_not_mem fun s hs => ?_]
  · simp
  · obtain ⟨hs, hl⟩ := mem_localSessions.mp hs
    exact h s hs hl

theorem snapshot_sessions (mirror : RemoteMirror) {o : Overview μ} (ho : NodeOverview home o) (hh : ValidMachineId home) :
    (mirror.snapshot machine o).sessions = mirrored machine home o.sessions := by
  rw [RemoteMirror.snapshot, RemoteMirror.merge_eq, filter_owns ho.sessions hh (homeMachineOf_eq ho)]
  rfl

/-! ## One event -/

/-- The mirror follows the overview `o`: its next base is `o`'s revision, and
its sessions are those of `o`. -/
structure Mirrors (machine home : String) (mirror : RemoteMirror) (o : Overview μ) : Prop where
  owner : mirror.home = some home
  base : mirror.revision = some o.revision
  sessions : ObservablySame mirror.sessions (mirrored machine home o.sessions)

theorem ObservablySame.refl (m : Std.ExtTreeMap String SessionSummary) : ObservablySame m m :=
  observablySame_iff.mpr fun _ => rfl

theorem Mirrors.snapshot {o : Overview μ} (ho : NodeOverview home o) (hh : ValidMachineId home) :
    Mirrors machine home (mirror.snapshot machine o) o where
  owner := by rw [RemoteMirror.snapshot, RemoteMirror.merge_eq]; exact homeMachineOf_eq ho
  base := by rw [RemoteMirror.snapshot, RemoteMirror.merge_eq]
  sessions := snapshot_sessions mirror ho hh ▸ .refl _

section
variable {previous current : Overview μ} {pane : String} {id : String}

/-- The panes a patch erases are those of the previous local sessions whose
ids are gone. -/
theorem mem_removedPanes (hp : NodeOverview home previous) (hh : ValidMachineId home)
    (hm : mirror.home = some home) :
    pane ∈ (overviewPatch previous current).remove.filterMap mirror.removedPane ↔
      ∃ prior ∈ previous.sessions, prior.machine = home ∧ prior.paneId = pane ∧
        ∀ session ∈ current.sessions, session.id ≠ prior.id := by
  simp only [List.mem_filterMap, mem_remove]
  constructor
  · rintro ⟨_, ⟨⟨prior, hmem, rfl⟩, hgone⟩, hpane⟩
    rcases hp.sessions prior hmem with hl | hn
    · rw [hl.removedPane hh hm, Option.some.injEq] at hpane
      exact ⟨prior, hmem, hl.machine, hpane, hgone⟩
    · rw [hn.removedPane hm] at hpane
      cases hpane
  · rintro ⟨prior, hmem, hl, rfl, hgone⟩
    refine ⟨prior.id, ⟨⟨prior, hmem, rfl⟩, hgone⟩, ?_⟩
    rcases hp.sessions prior hmem with h | h
    · exact h.removedPane hh hm
    · exact absurd hl h.machine

/-- A local session on a pane is the only one. -/
theorem NodeOverview.local_unique (ho : NodeOverview home current) (hs : session ∈ current.sessions)
    (hl : session.machine = home) (ht : other ∈ current.sessions) (hl' : other.machine = home)
    (hpane : session.paneId = other.paneId) : session = other :=
  List.inj_on_of_nodup_map ho.panes (mem_localSessions.mpr ⟨hs, hl⟩) (mem_localSessions.mpr ⟨ht, hl'⟩) hpane

/-- A local session's id survives only as the id of a local session on its pane. -/
theorem local_survivor (hp : NodeOverview home previous) (hc : NodeOverview home current)
    (hh : ValidMachineId home) (hmem : other ∈ previous.sessions) (hl : other.machine = home)
    (hs : session ∈ current.sessions) (hid : session.id = other.id) :
    session.machine = home ∧ session.paneId = other.paneId := by
  have hprior : LocalSession home other := (hp.sessions other hmem).resolve_right fun hn => hn.machine hl
  rcases hc.sessions session hs with h | h
  · exact ⟨h.machine, h.pane_eq hprior hh hid⟩
  · exact absurd (hid.symm.trans h.id) (hprior.id_ne_composite hh h.valid h.machine session.paneId)

theorem observable_fields {a b : SessionSummary} (h : a.observable = b.observable) :
    a.machine = b.machine ∧ a.paneId = b.paneId ∧ a.id = b.id :=
  ⟨congrArg (·.machine) h, congrArg (·.paneId) h, congrArg (·.id) h⟩

theorem rekey_observable {a b : SessionSummary} (h : a.observable = b.observable) :
    (RemoteMirror.rekey machine a).observable = (RemoteMirror.rekey machine b).observable := by
  have hrekey : ∀ s : SessionSummary,
      (RemoteMirror.rekey machine s).observable = RemoteMirror.rekey machine s.observable := fun _ => rfl
  rw [hrekey, hrekey, h]

/-- What the removals and the upserts of a patch leave, pane by pane. -/
theorem patched_sessions (machine : String) (mirror : RemoteMirror) (hp : NodeOverview home previous) (hc : NodeOverview home current)
    (hh : ValidMachineId home) (hm : mirror.home = some home)
    (hsame : ObservablySame mirror.sessions (mirrored machine home previous.sessions)) :
    ObservablySame ((mirror.removeAll (overviewPatch previous current).remove).merge machine
      (overviewPatch previous current).upsert).sessions (mirrored machine home current.sessions) := by
  have hupsert : (overviewPatch previous current).upsert.filter
      (mirror.removeAll (overviewPatch previous current).remove).owns =
      localSessions home (overviewPatch previous current).upsert :=
    filter_owns (fun s hs => hc.sessions s ((mem_upsert hp.ids).mp hs).1) hh (by rw [RemoteMirror.removeAll_eq]; exact hm)
  rw [RemoteMirror.merge_eq, hupsert, RemoteMirror.removeAll_eq, observablySame_iff]
  rw [observablySame_iff] at hsame
  have hnodup : ((localSessions home (overviewPatch previous current).upsert).map SessionSummary.paneId).Nodup :=
    hc.panes.sublist ((List.filter_sublist.filter _).map _)
  intro pane
  by_cases hcur : ∃ s ∈ current.sessions, s.machine = home ∧ s.paneId = pane
  · obtain ⟨s, hs, hl, rfl⟩ := hcur
    rw [mirrored_of_mem hc hs hl]
    by_cases hup : s ∈ (overviewPatch previous current).upsert
    · rw [getElem?_rekeyed_of_mem hnodup (mem_localSessions.mpr ⟨hup, hl⟩)]
    · -- not sent, so the session under the same id was observably the same
      obtain ⟨prior, hprior, hid, hobs⟩ : ∃ prior ∈ previous.sessions, prior.id = s.id ∧
          prior.observable = s.observable := by
        rw [mem_upsert hp.ids] at hup
        simpa [hs] using hup
      obtain ⟨hpm, hpp, -⟩ := observable_fields hobs
      have hkept : s.paneId ∉ (overviewPatch previous current).remove.filterMap mirror.removedPane := by
        rw [mem_removedPanes hp hh hm]
        rintro ⟨gone, hgone, hgl, hgp, hno⟩
        obtain rfl := hp.local_unique hgone hgl hprior (hpm.trans hl) (hgp.trans hpp.symm)
        exact hno s hs hid.symm
      rw [getElem?_rekeyed_of_not_mem fun t ht => ?_, Index.getElem?_eraseAll_of_not_mem hkept, hsame,
        ← hpp, mirrored_of_mem hp hprior (hpm.trans hl), Option.map_some, Option.map_some, rekey_observable hobs]
      obtain ⟨ht, htl⟩ := mem_localSessions.mp ht
      intro hpane
      obtain rfl := hc.local_unique ((mem_upsert hp.ids).mp ht).1 htl hs hl hpane
      exact hup ht
  · -- no session on this pane any more: nothing is filed, and what was there is erased
    push Not at hcur
    rw [mirrored_of_not_mem hcur, getElem?_rekeyed_of_not_mem fun t ht => ?_]
    · by_cases hprior : ∃ prior ∈ previous.sessions, prior.machine = home ∧ prior.paneId = pane
      · obtain ⟨prior, hmem, hl, rfl⟩ := hprior
        rw [Index.getElem?_eraseAll_of_mem ((mem_removedPanes hp hh hm).mpr ⟨prior, hmem, hl, rfl, ?_⟩)]
        intro s hs hid
        obtain ⟨hsl, hsp⟩ := local_survivor hp hc hh hmem hl hs hid
        exact hcur s hs hsl hsp
      · push Not at hprior
        have hkept : pane ∉ (overviewPatch previous current).remove.filterMap mirror.removedPane := by
          rw [mem_removedPanes hp hh hm]
          rintro ⟨prior, hmem, hl, hpane, -⟩
          exact hprior prior hmem hl hpane
        rw [Index.getElem?_eraseAll_of_not_mem hkept, hsame, mirrored_of_not_mem hprior]
    · obtain ⟨ht, htl⟩ := mem_localSessions.mp ht
      exact hcur t ((mem_upsert hp.ids).mp ht).1 htl

end

theorem refreshedHome_eq {o : Overview μ} (ho : NodeOverview home o) (hm : mirror.home = some home) :
    mirror.refreshedHome o.machines = some home := by
  rw [RemoteMirror.refreshedHome, homeMachineOf_eq ho]
  split
  · exact hm
  · rfl

theorem removeAll_merge_home (mirror : RemoteMirror) (remove : List String) (upsert : List SessionSummary) :
    ((mirror.removeAll remove).merge machine upsert).home = mirror.home := by
  rw [RemoteMirror.merge_eq, RemoteMirror.removeAll_eq]

/-- A patch to the overview the mirror follows is accepted, and the mirror
follows the next one. -/
theorem Mirrors.patch {previous current : Overview μ} (h : Mirrors machine home mirror previous)
    (hp : NodeOverview home previous) (hc : NodeOverview home current) (hh : ValidMachineId home) :
    ∃ next, mirror.patch machine (overviewPatch previous current) = (next, true) ∧
      Mirrors machine home next current := by
  have hhome := refreshedHome_eq hc h.owner
  have hbase : (mirror.revision != some (overviewPatch previous current).baseRevision) = false := by
    simp [h.base, overviewPatch]
  refine ⟨_, by rw [RemoteMirror.patch, hbase]; rfl, ⟨?_, rfl, ?_⟩⟩
  · exact (removeAll_merge_home _ _ _).trans hhome
  · exact patched_sessions machine { mirror with home := mirror.refreshedHome current.machines }
      hp hc hh hhome h.sessions

theorem wakePatch_cases [BEq μ] (previous current : Overview μ) :
    wakePatch previous current = some (overviewPatch previous current) ∨
      wakePatch previous current = none ∧ (overviewPatch previous current).upsert = [] ∧
        (overviewPatch previous current).remove = [] := by
  simp only [wakePatch]
  split
  · exact .inl rfl
  next hno =>
  simp only [Bool.or_eq_true, Bool.not_eq_true', not_or, Bool.not_eq_false, List.isEmpty_iff] at hno
  exact .inr ⟨rfl, hno.1.1.1, hno.1.1.2⟩

/-- A wake that is not worth an event leaves the sessions as the mirror has them. -/
theorem Mirrors.suppressed [BEq μ] {previous current : Overview μ} (h : Mirrors machine home mirror previous)
    (hp : NodeOverview home previous) (hc : NodeOverview home current) (hh : ValidMachineId home)
    (hw : wakePatch previous current = none) :
    ObservablySame mirror.sessions (mirrored machine home current.sessions) := by
  have hempty : (overviewPatch previous current).upsert = [] ∧ (overviewPatch previous current).remove = [] := by
    rcases wakePatch_cases previous current with hsent | ⟨-, hempty⟩
    · rw [hw] at hsent
      cases hsent
    · exact hempty
  have hpatched := patched_sessions machine mirror hp hc hh h.owner h.sessions
  rwa [hempty.1, hempty.2] at hpatched

/-! ## Runs -/

/-- The loop from the overview the mirror follows, after any wakes. `held` is
the overview of the last wake, which the mirror shows already. -/
theorem Mirrors.patches [BEq μ] {previous held : Overview μ} {wakes : List (Overview μ)}
    (h : Mirrors machine home mirror previous) (hheld : ObservablySame mirror.sessions
      (mirrored machine home held.sessions)) (hp : NodeOverview home previous)
    (hw : ∀ o ∈ wakes, NodeOverview home o) (hh : ValidMachineId home) :
    ∃ next, mirror.receiveAll machine (overviewPatches previous wakes) = some next ∧
      ObservablySame next.sessions (mirrored machine home (wakes.getLastD held).sessions) := by
  induction wakes generalizing mirror previous held with
  | nil => exact ⟨mirror, rfl, hheld⟩
  | cons current wakes ih =>
    have hc := hw current (by simp)
    have hrest : ∀ o ∈ wakes, NodeOverview home o := fun o ho => hw o (by simp [ho])
    rw [List.getLastD_cons, overviewPatches]
    rcases wakePatch_cases previous current with hsent | ⟨hsent, -⟩
    · rw [hsent]
      obtain ⟨next, hpatch, hnext⟩ := h.patch hp hc hh
      obtain ⟨final, hfinal, hsame⟩ := ih hnext hnext.sessions hc hrest
      refine ⟨final, ?_, hsame⟩
      rw [← hfinal]
      simp [RemoteMirror.receiveAll, RemoteMirror.receive, hpatch]
    · rw [hsent]
      exact ih h (h.suppressed hp hc hh hsent) hp hrest

theorem overviewPatches_append [BEq μ] (previous : Overview μ) (seen later : List (Overview μ)) :
    overviewPatches previous seen <+: overviewPatches previous (seen ++ later) := by
  induction seen generalizing previous with
  | nil => exact List.nil_prefix
  | cons current seen ih =>
    simp only [List.cons_append, overviewPatches]
    cases wakePatch previous current with
    | none => exact ih previous
    | some patch => exact (List.prefix_cons_inj _).mpr (ih current)

/-- **The mirror converges.** Whatever overviews the node goes through and
whichever of them its stream observes, the events up to any wake are all
accepted, and leave the sessions a snapshot of that wake's overview would. -/
theorem mirror_converges [BEq μ] {machine home : String} (hh : ValidMachineId home) {states : List (Overview μ)}
    (hs : ∀ o ∈ states, NodeOverview home o) {first : Overview μ} {seen : List (Overview μ)} (later : List (Overview μ))
    (hobs : (first :: (seen ++ later)).Sublist states) (mirror : RemoteMirror) :
    overviewEvents first seen <+: overviewEvents first (seen ++ later) ∧
      ∃ next, mirror.receiveAll machine (overviewEvents first seen) = some next ∧
        ObservablySame next.sessions
          (RemoteMirror.snapshot {} machine (seen.getLastD first)).sessions := by
  refine ⟨(List.prefix_cons_inj _).mpr (overviewPatches_append first seen later), ?_⟩
  have hmem : ∀ o, o = first ∨ o ∈ seen → NodeOverview home o := fun o ho =>
    hs o (hobs.subset (by simp only [List.mem_cons, List.mem_append]; tauto))
  have hfirst := hmem first (.inl rfl)
  have hsnap : Mirrors machine home (mirror.snapshot machine first) first := .snapshot hfirst hh
  obtain ⟨next, hnext, hsame⟩ :=
    hsnap.patches hsnap.sessions hfirst (fun o ho => hmem o (.inr ho)) hh
  refine ⟨next, ?_, ?_⟩
  · rw [← hnext]
    simp [RemoteMirror.receiveAll, RemoteMirror.receive, overviewEvents]
  · have hlast := hmem (seen.getLastD first) (List.mem_cons.mp List.getLastD_mem_cons)
    rwa [snapshot_sessions _ hlast hh]

/-- A shell session, for the runs below. -/
def shellSummary (machine id paneId : String) : SessionSummary where
  id := id
  instanceId := "v1"
  machine := machine
  name := "main"
  paneId := paneId
  status := "Shell"
  agent := "shell"
  profile := ""
  attached := false
  activity := 0
  path := "/"
  title := ""
  command := "bash"
  launchCommand := ""
  systemdScope := none
  memoryMaxBytes := none
  windows := 1
  windowIndex := 0
  paneIndex := 0
  contentHash := Text.hex16 0

def machineSummary (id : String) (kind : MachineKind) : MachineSummary Unit :=
  { id, label := id, kind, online := true, sessions := 1, health := none, lastSeenMs := none, address := none,
    metrics := () }

/-- A node `lab` that mirrors `gpu`, whose panes share an id, closes its own. -/
theorem mirror_converges_closed_pane :
    let machines := [machineSummary "lab" .local, machineSummary "gpu" .remote]
    let first : Overview Unit :=
      ⟨1, [shellSummary "lab" "%1" "%1", shellSummary "gpu" "gpu~%1" "%1"], none, machines⟩
    let second : Overview Unit := ⟨3, [shellSummary "gpu" "gpu~%1" "%1"], none, machines⟩
    ∃ next, RemoteMirror.receiveAll "laptop" {} (overviewEvents first [second]) = some next ∧
      ObservablySame next.sessions (RemoteMirror.snapshot {} "laptop" second).sessions := by
  intro machines first second
  have hlocal : LocalSession "lab" (shellSummary "lab" "%1" "%1") := ⟨rfl, by decide, .inl rfl⟩
  have hnested : NestedSession "lab" (shellSummary "gpu" "gpu~%1" "%1") := ⟨by decide, by decide, by decide⟩
  have hs : ∀ o ∈ [first, second], NodeOverview "lab" o := by
    intro o ho
    rcases List.mem_pair.mp ho with rfl | rfl
    · refine ⟨by decide, by decide, by decide, fun s hs => ?_⟩
      rcases List.mem_pair.mp hs with rfl | rfl
      · exact .inl hlocal
      · exact .inr hnested
    · refine ⟨by decide, by decide, by decide, fun s hs => ?_⟩
      obtain rfl := List.mem_singleton.mp hs
      exact .inr hnested
  exact (mirror_converges (by decide) hs [] (.refl _) {}).2

end Atmux
