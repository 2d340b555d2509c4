/-
Where a reference leads: `reference`, `find_target` and the lookup by pane id
that follows it.

A reference to a machine is a composite id, and a composite id is looked up on
its machine alone. Two texts escape that: the empty id, whose composite has no
pane and is looked up everywhere as a name, and a pane id that is also the name
of an earlier session. `routed_iff` says that no other does.
-/
import Atmux.ControlPlane
import Atmux.Lib.Result

namespace Atmux.Routing

open Lib

variable {μ : Type}

/-- Splits a composite identity into its machine and its pane. -/
def splitComposite (id : String) : Option (String × String) :=
  (Text.splitOnce compositeSeparator id).bind fun halves =>
    if halves.2.isEmpty ∨ ¬ ValidMachineId halves.1 then none else some halves

inductive ControlError
  | badRequest (message : String)
  | offline (message : String)
deriving DecidableEq, Repr

/-- Where an id leads. -/
inductive Target
  | local (paneId instanceId name : String) (agent : AgentKind) (resumeLease : Option String)
  | remote (machine : RemoteMachine) (paneId instanceId name : String)
deriving DecidableEq, Repr

def Target.isLocal : Target → Bool
  | .local .. => true
  | .remote .. => false

def findSession (sessions : List Session) (id : String) : Option Session :=
  sessions.find? fun session => session.paneId == id || session.name == id

section Lookup

variable (control : ControlPlane μ)

/-- The machine that a target's pane runs on. -/
def owner : Target → String
  | .local .. => control.config.localId
  | .remote machine .. => machine.id

def reference (id : String) (machine : Option String) : Except ControlError String :=
  match machine with
  | none => .ok id
  | some machine =>
    if !control.hasMachine machine then
      .error (.badRequest ("unknown machine " ++ machine ++ "; call machines_list for valid ids"))
    else
      match splitComposite id with
      | some (owner, _) =>
        if control.hasMachine owner then
          if owner ≠ machine then .error (.badRequest (id ++ " belongs to machine " ++ owner ++ ", not " ++ machine))
          else .ok id
        else .ok (compositeId machine id)
      | none => .ok (compositeId machine id)

/-- The machine an id is looked up on, if on one only, and what is looked up. -/
def scopeOf (id : String) : Option String × String :=
  match splitComposite id with
  | some (machine, pane) => if control.hasMachine machine then (some machine, pane) else (none, id)
  | none => (none, id)

def localMatch (scope : Option String) (bare : String) : Option Target :=
  if scope.all fun scope => scope == control.config.localId then
    (findSession control.state.sessions bare).map fun session =>
      .local session.paneId session.paneIdentity session.name session.agent session.resumeLease
  else none

def remoteMatch (scope : Option String) (bare : String) (machine : RemoteMachine) : Option Target :=
  if scope.any fun scope => scope != machine.id then none
  else
    control.state.remotes[machine.id]?.bind fun remote =>
      (remote.sessions.find? fun session => session.paneId == bare || session.name == bare).map fun session =>
        .remote machine session.paneId session.instanceId session.name

def targets (scope : Option String) (bare : String) : List Target :=
  (localMatch control scope bare).toList ++ (Index.values control.machines).filterMap (remoteMatch control scope bare)

def ensureOnline (machine : String) : Except ControlError Unit :=
  match control.state.remotes[machine]? with
  | none => .error (.badRequest ("unknown machine " ++ machine))
  | some remote =>
    if remote.online then .ok ()
    else .error (.offline ("machine " ++ machine ++ " is offline: " ++ remote.health.getD "offline"))

def targetHint (targets : List Target) : String :=
  String.intercalate " or " (targets.filterMap fun target =>
    match target with
    | .local .. => none
    | .remote machine paneId .. => some (compositeId machine.id paneId))

def offlineScope (scope : Option String) : Bool :=
  scope.any fun scope => control.state.remotes[scope]?.any fun remote => !remote.online

/-- A local match always wins, and several remote ones are refused. -/
def chooseTarget (id : String) (scope : Option String) : List Target → Except ControlError (Option Target)
  | [] => if offlineScope control scope then (fun _ => none) <$> ensureOnline control (scope.getD "") else .ok none
  | [target] => .ok (some target)
  | target :: others =>
    if target.isLocal then .ok (some target)
    else .error (.badRequest (id ++ " matches sessions on several machines; use a machine~pane id such as " ++
      targetHint (target :: others)))

/-- The id is of a coordinator without panes of its own. -/
def refused (id : String) : Bool :=
  control.config.coordinatorOnly && (splitComposite id).any fun halves => halves.1 == control.config.localId

def findTarget (id : String) : Except ControlError (Option Target) :=
  if refused control id then
    .error (.badRequest ("machine " ++ control.config.localId ++
      " is a coordinator-only node and has no local owner capabilities"))
  else
    let (scope, bare) := scopeOf control id
    chooseTarget control id scope (targets control scope bare)

/-- What a reference is asked to do: it stays on its machine, and a pane that is found is found again. -/
def Routed (id machine : String) : Prop :=
  (∀ text target, reference control id (some machine) = .ok text → findTarget control text = .ok (some target) →
    owner control target = machine) ∧
  ∀ paneId instanceId name agent resumeLease,
    findTarget control id = .ok (some (.local paneId instanceId name agent resumeLease)) →
      ∃ session, findSession control.state.sessions paneId = some session ∧ session.paneId = paneId

end Lookup

/-! ## Composite ids -/

variable {control : ControlPlane μ} {id machine pane text bare : String} {scope : Option String} {target : Target}

theorem splitComposite_compositeId (h : ValidMachineId machine) (hpane : pane ≠ "") :
    splitComposite (compositeId machine pane) = some (machine, pane) := by
  rw [splitComposite, splitOnce_compositeId h, Option.bind_some, if_neg]
  simp [h, hpane]

theorem splitComposite_empty (h : ValidMachineId machine) : splitComposite (compositeId machine "") = none := by
  rw [splitComposite, splitOnce_compositeId h, Option.bind_some, if_pos]
  exact .inl rfl

/-- The machines are filed under their ids, and all ids are valid. -/
structure Registered (control : ControlPlane μ) : Prop where
  machine : ∀ {id : String} {machine : RemoteMachine}, control.machines[id]? = some machine → machine.id = id ∧ ValidMachineId id
  localId : ValidMachineId control.config.localId

theorem Registered.valid (h : Registered control) (hknown : control.hasMachine machine = true) : ValidMachineId machine := by
  rw [ControlPlane.hasMachine, Bool.or_eq_true, Bool.and_eq_true, beq_iff_eq] at hknown
  rcases hknown with ⟨rfl, -⟩ | hcontains
  · exact h.localId
  · obtain ⟨found, hfound⟩ := Option.isSome_iff_exists.1 (Std.ExtTreeMap.isSome_getElem?_eq_contains.trans hcontains)
    exact (h.machine hfound).2

/-- A reference with a pane is looked up on its machine alone. -/
theorem reference_scope (h : Registered control) (hpane : id ≠ "") (hok : reference control id (some machine) = .ok text) :
    (scopeOf control text).1 = some machine := by
  rw [reference] at hok
  split at hok
  next => cases hok
  next hknown =>
    rw [Bool.not_eq_true', Bool.not_eq_false] at hknown
    have hcomposed : (scopeOf control (compositeId machine id)).1 = some machine := by
      rw [scopeOf, splitComposite_compositeId (h.valid hknown) hpane]
      dsimp only
      rw [if_pos hknown]
    split at hok
    next owner pane hsplit =>
      split at hok
      next howner =>
        split at hok
        next => cases hok
        next hsame =>
          obtain rfl := Except.ok.inj hok
          rw [ne_eq, not_not] at hsame
          rw [scopeOf, hsplit]
          dsimp only
          rw [if_pos howner, hsame]
      next =>
        obtain rfl := Except.ok.inj hok
        exact hcomposed
    next =>
      obtain rfl := Except.ok.inj hok
      exact hcomposed

theorem reference_empty (hok : reference control "" (some machine) = .ok text) :
    control.hasMachine machine = true ∧ text = compositeId machine "" := by
  have hsplit : splitComposite "" = none := by decide
  rw [reference, hsplit] at hok
  dsimp only at hok
  split at hok
  next => cases hok
  next hknown =>
    rw [Bool.not_eq_true', Bool.not_eq_false] at hknown
    exact ⟨hknown, (Except.ok.inj hok).symm⟩

/-! ## Matches -/

theorem localMatch_owner (h : localMatch control scope bare = some target) :
    owner control target = control.config.localId ∧ target.isLocal = true := by
  rw [localMatch] at h
  split at h
  next =>
    obtain ⟨session, -, rfl⟩ := Option.map_eq_some_iff.1 h
    exact ⟨rfl, rfl⟩
  next => cases h

theorem remoteMatch_eq {other : RemoteMachine} (h : remoteMatch control scope bare other = some target) :
    owner control target = other.id ∧ target.isLocal = false := by
  rw [remoteMatch] at h
  split at h
  next => cases h
  next =>
    obtain ⟨remote, -, h⟩ := Option.bind_eq_some_iff.1 h
    obtain ⟨session, -, rfl⟩ := Option.map_eq_some_iff.1 h
    exact ⟨rfl, rfl⟩

variable (control id target) in
/-- What is found is the local match, or else the only remote one. -/
theorem findTarget_iff : findTarget control id = .ok (some target) ↔ refused control id = false ∧
    (localMatch control (scopeOf control id).1 (scopeOf control id).2 = some target ∨
      localMatch control (scopeOf control id).1 (scopeOf control id).2 = none ∧
        (Index.values control.machines).filterMap (remoteMatch control (scopeOf control id).1 (scopeOf control id).2) =
          [target]) := by
  rw [findTarget]
  by_cases hrefused : refused control id = true
  · rw [if_pos hrefused, hrefused]
    exact ⟨fun h => (by cases h), fun h => (by cases h.1)⟩
  · rw [if_neg hrefused, Bool.not_eq_true] at *
    simp only [hrefused, true_and, targets]
    cases hlocal : localMatch control (scopeOf control id).1 (scopeOf control id).2 with
    | some found =>
      rw [Option.toList_some, List.singleton_append]
      have hfirst := (localMatch_owner hlocal).2
      simp only [Option.some.injEq, reduceCtorEq, false_and, or_false]
      cases (Index.values control.machines).filterMap _ with
      | nil => simp [chooseTarget]
      | cons second others => simp [chooseTarget, hfirst]
    | none =>
      rw [Option.toList_none, List.nil_append]
      simp only [reduceCtorEq, true_and, false_or]
      cases hremote : (Index.values control.machines).filterMap
          (remoteMatch control (scopeOf control id).1 (scopeOf control id).2) with
      | nil =>
        simp only [chooseTarget, reduceCtorEq, iff_false]
        split
        · intro h
          obtain ⟨_, -, hnone⟩ := map_ok h
          cases hnone
        · exact fun h => (by cases h)
      | cons first others =>
        have hmem : first ∈ (Index.values control.machines).filterMap
            (remoteMatch control (scopeOf control id).1 (scopeOf control id).2) := by simp [hremote]
        obtain ⟨other, -, hother⟩ := List.mem_filterMap.1 hmem
        have hfirst := (remoteMatch_eq hother).2
        cases others with
        | nil => simp [chooseTarget]
        | cons second others => simp [chooseTarget, hfirst]

/-- A session of the coordinator's own that the text names, or is the pane of. -/
def AnswersHere (control : ControlPlane μ) (text : String) : Prop :=
  ∃ session ∈ control.state.sessions, session.paneId = text ∨ session.name = text

def AnswersAt (control : ControlPlane μ) (machine : RemoteMachine) (text : String) : Prop :=
  ∃ remote, control.state.remotes[machine.id]? = some remote ∧
    ∃ session ∈ remote.sessions, session.paneId = text ∨ session.name = text

theorem answersHere_iff : AnswersHere control text ↔ ∃ target, localMatch control none text = some target := by
  have hscope : ((none : Option String).all fun scope => scope == control.config.localId) = true := rfl
  rw [localMatch, if_pos hscope, findSession]
  simp only [Option.map_eq_some_iff]
  constructor
  · rintro ⟨session, hmem, hanswers⟩
    have hfound : (control.state.sessions.find? fun session => session.paneId == text || session.name == text).isSome := by
      rw [List.find?_isSome]
      exact ⟨session, hmem, by simpa using hanswers⟩
    obtain ⟨found, hfound⟩ := Option.isSome_iff_exists.1 hfound
    exact ⟨_, found, hfound, rfl⟩
  · rintro ⟨-, session, hfound, -⟩
    exact ⟨session, List.mem_of_find?_eq_some hfound, by simpa using List.find?_some hfound⟩

theorem answersAt_iff {other : RemoteMachine} :
    AnswersAt control other text ↔ ∃ target, remoteMatch control none text other = some target := by
  have hscope : ¬ ((none : Option String).any fun scope => scope != other.id) = true := by simp
  rw [remoteMatch, if_neg hscope]
  simp only [Option.bind_eq_some_iff, Option.map_eq_some_iff]
  constructor
  · rintro ⟨remote, hremote, session, hmem, hanswers⟩
    have hfound : (remote.sessions.find? fun session => session.paneId == text || session.name == text).isSome := by
      rw [List.find?_isSome]
      exact ⟨session, hmem, by simpa using hanswers⟩
    obtain ⟨found, hfound⟩ := Option.isSome_iff_exists.1 hfound
    exact ⟨_, remote, hremote, found, hfound, rfl⟩
  · rintro ⟨-, remote, hremote, session, hfound, -⟩
    exact ⟨remote, hremote, session, List.mem_of_find?_eq_some hfound, by simpa using List.find?_some hfound⟩

theorem eq_of_filterMap {α β : Type} {f : α → Option β} {items : List α} {result : β} {a b : α}
    (h : items.filterMap f = [result]) (ha : a ∈ items) (hb : b ∈ items) (hfa : (f a).isSome) (hfb : (f b).isSome) : a = b := by
  induction items with
  | nil => cases ha
  | cons first items ih =>
    cases hfirst : f first with
    | none =>
      rw [List.filterMap_cons_none hfirst] at h
      rcases List.mem_cons.1 ha with rfl | ha
      · rw [hfirst] at hfa
        cases hfa
      rcases List.mem_cons.1 hb with rfl | hb
      · rw [hfirst] at hfb
        cases hfb
      exact ih h ha hb
    | some value =>
      rw [List.filterMap_cons_some hfirst, List.cons.injEq] at h
      have hrest : ∀ c ∈ items, f c = none := List.filterMap_eq_nil_iff.1 h.2
      rcases List.mem_cons.1 ha with rfl | ha
      · rcases List.mem_cons.1 hb with rfl | hb
        · rfl
        · rw [hrest b hb] at hfb
          cases hfb
      · rw [hrest a ha] at hfa
        cases hfa

theorem filterMap_eq_singleton {α β : Type} {f : α → Option β} {items : List α} {result : β} {a : α} (hnodup : items.Nodup)
    (ha : a ∈ items) (hfa : f a = some result) (hothers : ∀ b ∈ items, b ≠ a → f b = none) :
    items.filterMap f = [result] := by
  induction items with
  | nil => cases ha
  | cons first items ih =>
    obtain ⟨hfirst, hnodup⟩ := List.nodup_cons.1 hnodup
    rcases List.mem_cons.1 ha with rfl | ha
    · rw [List.filterMap_cons_some hfa, List.filterMap_eq_nil_iff.2]
      intro b hb
      refine hothers b (List.mem_cons_of_mem _ hb) ?_
      rintro rfl
      exact hfirst hb
    · have hne : first ≠ a := by
        rintro rfl
        exact hfirst ha
      rw [List.filterMap_cons_none (hothers first List.mem_cons_self hne)]
      exact ih hnodup ha fun b hb => hothers b (List.mem_cons_of_mem _ hb)

/-! ## Panes -/

variable {sessions before after : List Session} {session : Session}

theorem findSession_iff : findSession sessions text = some session ↔
    ∃ before after, sessions = before ++ session :: after ∧ (session.paneId = text ∨ session.name = text) ∧
      ∀ earlier ∈ before, earlier.paneId ≠ text ∧ earlier.name ≠ text := by
  rw [findSession, List.find?_eq_some_iff_append]
  simp only [Bool.or_eq_true, beq_iff_eq, Bool.not_eq_true', Bool.or_eq_false_iff, beq_eq_false_iff_ne]
  constructor
  · rintro ⟨hanswers, before, after, hsessions, hbefore⟩
    exact ⟨before, after, hsessions, hanswers, hbefore⟩
  · rintro ⟨before, after, hsessions, hanswers, hbefore⟩
    exact ⟨hanswers, before, after, hsessions, hbefore⟩

/-- A pane is found by its id unless an earlier session has that id for its name. -/
theorem found_again_iff (hpanes : (sessions.map Session.paneId).Nodup) (hsessions : sessions = before ++ session :: after) :
    (∃ found, findSession sessions session.paneId = some found ∧ found.paneId = session.paneId) ↔
      ∀ earlier ∈ before, earlier.name ≠ session.paneId := by
  have hearlier : ∀ earlier ∈ before, earlier.paneId ≠ session.paneId := by
    intro earlier hmem heq
    rw [hsessions, List.map_append, List.map_cons, List.nodup_append] at hpanes
    exact hpanes.2.2 _ (List.mem_map_of_mem hmem) _ List.mem_cons_self heq
  constructor
  · rintro ⟨found, hfound, hpane⟩ earlier hmem hname
    have hfirst : (before.find? fun other => other.paneId == session.paneId || other.name == session.paneId).isSome := by
      rw [List.find?_isSome]
      exact ⟨earlier, hmem, by simp [hname]⟩
    obtain ⟨first, hfirst⟩ := Option.isSome_iff_exists.1 hfirst
    rw [findSession, hsessions, List.find?_append, hfirst] at hfound
    obtain rfl := Option.some.inj hfound
    exact hearlier first (List.mem_of_find?_eq_some hfirst) hpane
  · intro hnames
    refine ⟨session, findSession_iff.2 ⟨before, after, hsessions, .inl rfl, fun earlier hmem => ?_⟩, rfl⟩
    exact ⟨hearlier earlier hmem, hnames earlier hmem⟩

/-! ## References -/

/-- No session's name comes in the way of the id. -/
structure Direct (control : ControlPlane μ) (id machine : String) : Prop where
  /-- For the empty id: the composite without a pane answers on no other machine, or on several. -/
  empty : id = "" → control.hasMachine machine = true →
    (AnswersHere control (compositeId machine "") → control.config.localId = machine) ∧
    (¬ AnswersHere control (compositeId machine "") → ∀ other ∈ Index.values control.machines,
      AnswersAt control other (compositeId machine "") → other.id ≠ machine →
        ∃ another ∈ Index.values control.machines, another ≠ other ∧ AnswersAt control another (compositeId machine ""))
  /-- For an id looked up here: of the sessions before the first that answers, none is named as its pane. -/
  pane : refused control id = false → ((scopeOf control id).1.all fun scope => scope == control.config.localId) = true →
    ∀ before session after, control.state.sessions = before ++ session :: after →
      (session.paneId = (scopeOf control id).2 ∨ session.name = (scopeOf control id).2) →
      (∀ earlier ∈ before, earlier.paneId ≠ (scopeOf control id).2 ∧ earlier.name ≠ (scopeOf control id).2) →
      ∀ earlier ∈ before, earlier.name ≠ session.paneId

theorem Registered.nodup (h : Registered control) : (Index.values control.machines).Nodup :=
  List.Nodup.of_map RemoteMachine.id (Index.nodup_values (g := fun id : String => id) (fun h => h) fun hget => (h.machine hget).1)

theorem scopeOf_empty (h : Registered control) (hknown : control.hasMachine machine = true) :
    scopeOf control (compositeId machine "") = (none, compositeId machine "") ∧
      refused control (compositeId machine "") = false := by
  rw [scopeOf, refused, splitComposite_empty (h.valid hknown)]
  exact ⟨rfl, Bool.and_false _⟩

/-- **A reference leads to its machine and to one pane**, exactly when no name comes in its way. -/
theorem routed_iff (control : ControlPlane μ) (h : Registered control)
    (hpanes : (control.state.sessions.map Session.paneId).Nodup) (id machine : String) :
    Routed control id machine ↔ Direct control id machine := by
  constructor
  · rintro ⟨howner, hpane⟩
    refine ⟨?_, ?_⟩
    · rintro rfl hknown
      have hreference : reference control "" (some machine) = .ok (compositeId machine "") := by
        have hsplit : splitComposite "" = none := by decide
        rw [reference, hsplit]
        dsimp only
        rw [hknown]
        rfl
      obtain ⟨hscope, hrefused⟩ := scopeOf_empty h hknown
      have hfinds := fun target => findTarget_iff control (compositeId machine "") target
      rw [hscope] at hfinds
      refine ⟨fun hhere => ?_, fun hhere other hother hanswers hne => ?_⟩
      · obtain ⟨target, htarget⟩ := answersHere_iff.1 hhere
        rw [← (localMatch_owner htarget).1]
        exact howner _ _ hreference ((hfinds target).2 ⟨hrefused, .inl htarget⟩)
      · by_contra hnone
        obtain ⟨target, htarget⟩ := answersAt_iff.1 hanswers
        have honly : (Index.values control.machines).filterMap (remoteMatch control none (compositeId machine "")) = [target] := by
          refine filterMap_eq_singleton h.nodup hother htarget fun another hanother hdiffers => ?_
          by_contra hsome
          obtain ⟨found, hfound⟩ := Option.ne_none_iff_exists'.1 hsome
          exact hnone ⟨another, hanother, hdiffers, answersAt_iff.2 ⟨found, hfound⟩⟩
        have hlocal : localMatch control none (compositeId machine "") = none := by
          by_contra hsome
          obtain ⟨found, hfound⟩ := Option.ne_none_iff_exists'.1 hsome
          exact hhere (answersHere_iff.2 ⟨found, hfound⟩)
        have hwrong := howner _ _ hreference ((hfinds target).2 ⟨hrefused, .inr ⟨hlocal, honly⟩⟩)
        rw [(remoteMatch_eq htarget).1] at hwrong
        exact hne hwrong
    · intro hrefused hscope before session after hsessions hanswers hbefore
      refine (found_again_iff hpanes hsessions).1 ?_
      have hfound : findSession control.state.sessions (scopeOf control id).2 = some session :=
        findSession_iff.2 ⟨before, after, hsessions, hanswers, hbefore⟩
      refine hpane _ session.paneIdentity session.name session.agent session.resumeLease
        ((findTarget_iff _ _ _).2 ⟨hrefused, .inl ?_⟩)
      rw [localMatch, if_pos hscope, hfound, Option.map_some]
  · intro hdirect
    refine ⟨fun text target hreference hfind => ?_, fun paneId instanceId name agent resumeLease hfind => ?_⟩
    · obtain ⟨-, hfind⟩ := (findTarget_iff _ _ _).1 hfind
      by_cases hempty : id = ""
      · subst hempty
        obtain ⟨hknown, rfl⟩ := reference_empty hreference
        obtain ⟨hhere, helsewhere⟩ := hdirect.empty rfl hknown
        rw [(scopeOf_empty h hknown).1] at hfind
        rcases hfind with hlocal | ⟨hnone, honly⟩
        · rw [(localMatch_owner hlocal).1]
          exact hhere (answersHere_iff.2 ⟨target, hlocal⟩)
        · have hnot : ¬ AnswersHere control (compositeId machine "") := by
            rw [answersHere_iff, hnone]
            rintro ⟨_, hsome⟩
            cases hsome
          obtain ⟨other, hother, htarget⟩ := List.mem_filterMap.1 (honly ▸ List.mem_singleton_self target)
          rw [(remoteMatch_eq htarget).1]
          by_contra hne
          obtain ⟨another, hanother, hdiffers, hanswers⟩ :=
            helsewhere hnot other hother (answersAt_iff.2 ⟨target, htarget⟩) hne
          refine hdiffers (eq_of_filterMap honly hanother hother ?_ (by rw [htarget]; rfl))
          exact Option.isSome_iff_exists.2 (answersAt_iff.1 hanswers)
      · rw [reference_scope h hempty hreference] at hfind
        rcases hfind with hlocal | ⟨-, honly⟩
        · rw [(localMatch_owner hlocal).1]
          rw [localMatch] at hlocal
          split at hlocal
          next hscope =>
            rw [Option.all_some, beq_iff_eq] at hscope
            exact hscope.symm
          next => cases hlocal
        · obtain ⟨other, -, htarget⟩ := List.mem_filterMap.1 (honly ▸ List.mem_singleton_self target)
          rw [(remoteMatch_eq htarget).1]
          rw [remoteMatch] at htarget
          split at htarget
          next => cases htarget
          next hscope =>
            rw [Option.any_some, bne_iff_ne, ne_eq, not_not] at hscope
            exact hscope.symm
    · obtain ⟨hrefused, hfind⟩ := (findTarget_iff _ _ _).1 hfind
      rcases hfind with hlocal | ⟨-, honly⟩
      · rw [localMatch] at hlocal
        split at hlocal
        next hscope =>
          obtain ⟨session, hfound, htarget⟩ := Option.map_eq_some_iff.1 hlocal
          rw [Target.local.injEq] at htarget
          obtain ⟨rfl, -⟩ := htarget
          obtain ⟨before, after, hsessions, hanswers, hbefore⟩ := findSession_iff.1 hfound
          exact (found_again_iff hpanes hsessions).2
            (hdirect.pane hrefused hscope before session after hsessions hanswers hbefore)
        next => cases hlocal
      · obtain ⟨other, -, htarget⟩ := List.mem_filterMap.1 (honly ▸ List.mem_singleton_self _)
        cases (remoteMatch_eq htarget).2

/-! ## Names in the way -/

def paneNamed (name paneId : String) : Session :=
  ⟨name, false, 1, 0, 0, 0, paneId, 7, "v1", none, none, "/", "claude", "", "", "$ ", 5, .claude, "", none, none, none, .waiting⟩

/-- The coordinator `lab`, which also watches the machine `box`. -/
def labWith (sessions : List Session) : ControlPlane Unit where
  config := ⟨"lab", "Lab", false, false, ["box"]⟩
  machines := (∅ : Std.ExtTreeMap String RemoteMachine).insert "box" ⟨"box", "Box", "box:8443"⟩
  state :=
    { revision := 1, sessions, health := none, metrics := (), machineRevisions := ∅
      remotes := (∅ : Std.ExtTreeMap String (RemoteState Unit)).insert "box" ⟨[], true, none, none, ()⟩ }

theorem registered_labWith (sessions : List Session) : Registered (labWith sessions) := by
  refine ⟨fun {id machine} hget => ?_, (by decide : ValidMachineId "lab")⟩
  rw [labWith, Std.ExtTreeMap.getElem?_insert] at hget
  split at hget
  next heq =>
    obtain rfl := Option.some.inj hget
    obtain rfl := Std.LawfulEqCmp.eq_of_compare heq
    exact ⟨rfl, by decide⟩
  next => simp at hget

/-- Three sessions: one is named as the pane of the next, one as the composite of a machine and no pane. -/
def misleading : ControlPlane Unit := labWith [paneNamed "%2" "%1", paneNamed "work" "%2", paneNamed "box~" "%3"]

theorem names_in_the_way :
    Registered misleading ∧ (misleading.state.sessions.map Session.paneId).Nodup ∧
      (reference misleading "" (some "box") = .ok "box~" ∧
        ∃ target, findTarget misleading "box~" = .ok (some target) ∧ owner misleading target = "lab") ∧
      findTarget misleading "work" = .ok (some (.local "%2" "v1" "work" .claude none)) ∧
      (findSession misleading.state.sessions "%2").map Session.paneId = some "%1" ∧
      ¬ Routed misleading "work" "lab" ∧ ¬ Routed misleading "" "box" := by
  have hempty : reference misleading "" (some "box") = .ok "box~" := by decide
  have helsewhere : findTarget misleading "box~" = .ok (some (.local "%3" "v1" "box~" .claude none)) := by decide
  have hwork : findTarget misleading "work" = .ok (some (.local "%2" "v1" "work" .claude none)) := by decide
  have hfound : (findSession misleading.state.sessions "%2").map Session.paneId = some "%1" := by decide
  refine ⟨registered_labWith _, by decide, ⟨hempty, _, helsewhere, rfl⟩, hwork, hfound, fun hrouted => ?_, fun hrouted => ?_⟩
  · obtain ⟨session, hsession, hpane⟩ := hrouted.2 _ _ _ _ _ hwork
    rw [hsession, Option.map_some, hpane] at hfound
    exact absurd hfound (by decide)
  · exact absurd (hrouted.1 _ _ hempty helsewhere) (by decide)

/-- With plain names a pane is found under its id. -/
theorem plain_name_routed : Routed (labWith [paneNamed "work" "%1"]) "%1" "lab" := by
  refine (routed_iff _ (registered_labWith _) (by decide) "%1" "lab").2 ⟨fun hempty => absurd hempty (by decide), ?_⟩
  intro _ _ before session after hsessions _ _ earlier hearlier
  cases before with
  | nil => cases hearlier
  | cons first before =>
    have hlength := congrArg List.length hsessions
    simp only [labWith, List.length_cons, List.length_nil, List.length_append] at hlength
    omega

end Atmux.Routing
