/-
The launch modes of a profile, and the one that maintenance relaunches a pane
with.

A pane's controls are recorded in its tmux options as they are set: by the
launch, by a mode switch, and by switching its model, effort or fast mode alone.
`Recorded` is what the options then say of the running harness, and
`preflight_right` that a relaunch changes nothing of it. A Claude pane's fast
mode is the exception: no launch sets it, and a mode switch leaves it on.
-/
import Atmux.Lib.Runs
import Atmux.Maintenance.State

namespace Atmux.Modes

open Lib Maintenance

/-! ## Ids and versions -/

def validModelId (model : String) : Bool :=
  !model.isEmpty && model.utf8ByteSize ≤ 80 &&
    model.toList.all fun c => c.isAlphanum || ['.', '-', '_', ':'].contains c

def validModeId (value : String) : Bool :=
  !value.isEmpty && value.utf8ByteSize ≤ 80 && value.toList.all fun c => c.isAlphanum || ['-', '_'].contains c

def validCodexEffort (effort : String) : Bool := ["none", "low", "medium", "high", "xhigh", "max"].contains effort

def validClaudeEffort (effort : String) : Bool := ["low", "medium", "high", "xhigh", "max"].contains effort

def validEffortId (effort : String) : Bool := validCodexEffort effort || validClaudeEffort effort || effort = "ultracode"

def storedFast : String → Option Bool
  | "on" => some true
  | "off" => some false
  | _ => none

/-- A version of the 2.1 line from a patch on. -/
def claudeFrom (patch : Nat) (version : String) : Bool :=
  match Text.split '.' version.toList with
  | [['2'], ['1'], found] => (Text.parseUnsigned (2 ^ 32) found).any fun found => patch ≤ found
  | _ => false

/-- A version of the 0.x line from a release on. -/
def codexFrom (minor patch : Nat) (version : String) : Bool :=
  match Text.split '.' version.toList with
  | [['0'], foundMinor, foundPatch] =>
    match Text.parseUnsigned (2 ^ 32) foundMinor, Text.parseUnsigned (2 ^ 32) foundPatch with
    | some foundMinor, some foundPatch => minor < foundMinor || (minor = foundMinor && patch ≤ foundPatch)
    | _, _ => false
  | _ => false

def claudePickerVerified (version : String) : Bool := claudeFrom 224 version

def codexPickerVerified (version : String) : Bool := codexFrom 146 1 version

def fastToggleVerified : AgentKind → String → Bool
  | .claude, version => claudeFrom 261 version
  | .codex, version => codexFrom 153 4 version
  | .other, _ => false

def claudeModels : List String := ["default", "opus", "fable", "sonnet", "haiku"]

def codexModels : List String :=
  ["gpt-6-astra", "gpt-5.6-sol", "gpt-5.6-terra", "gpt-5.6-luna", "gpt-5.5", "gpt-5.4-mini", "gpt-5.3-codex-spark"]

def claudeEfforts : List String := ["low", "medium", "high", "xhigh", "max"]

def codexEfforts : List String := ["low", "medium", "high", "xhigh"]

def knownModels : AgentKind → String → List String
  | .claude, version => if claudePickerVerified version then claudeModels else []
  | .codex, version => if codexPickerVerified version then codexModels else []
  | .other, _ => []

def knownEfforts : AgentKind → String → List String
  | .claude, version => if claudePickerVerified version then claudeEfforts else []
  | .codex, version => if codexPickerVerified version then codexEfforts else []
  | .other, _ => []

/-! ## Profiles and launches -/

structure ProfileMode where
  id : String
  label : Option String
  model : String
  effort : Option String
  serviceTier : Option String
deriving DecidableEq

def supportedEffort : AgentKind → String → Bool
  | .claude, effort => validClaudeEffort effort
  | .codex, effort => validCodexEffort effort
  | .other, _ => false

/-- The modes that a launch takes: `build_invocation`, and so
`validate_profiles`. -/
def ProfileMode.supported (agent : AgentKind) (mode : ProfileMode) : Bool :=
  validModelId mode.model && mode.effort.all (supportedEffort agent) &&
    match agent with
    | .claude => mode.serviceTier.isNone
    | .codex => mode.serviceTier.all (· = "fast")
    | .other => false

/-- A validated profile, with what its harness runs where it is told nothing. -/
structure AgentProfile where
  agent : AgentKind
  modes : List ProfileMode
  defaultModel : String
  defaultEffort : String
  valid : ∀ mode ∈ modes, mode.supported agent = true

/-- What a harness runs. No tier is its default one, and the fast tier of Codex
is its fast mode. -/
structure Running where
  model : String
  effort : String
  serviceTier : Option String
  fast : Bool
deriving DecidableEq

/-- The options of a pane. -/
structure PaneOptions where
  mode : Option String
  model : Option String
  effort : Option String
  serviceTier : Option String
  fast : Option String
deriving DecidableEq

structure Pane where
  options : PaneOptions
  running : Running
deriving DecidableEq

namespace AgentProfile

variable (profile : AgentProfile)

/-- What a fresh launch runs, unless `build_invocation` refuses it. -/
def fresh : Option ProfileMode → Option Running
  | none => some ⟨profile.defaultModel, profile.defaultEffort, none, false⟩
  | some mode =>
    if mode.supported profile.agent then
      some ⟨mode.model, mode.effort.getD profile.defaultEffort, mode.serviceTier, mode.serviceTier = some "fast"⟩
    else none

/-- The options are set before the harness is started. -/
def launch (mode : Option ProfileMode) : Option Pane :=
  (profile.fresh mode).map fun running =>
    ⟨⟨mode.map (·.id), mode.map (·.model), mode.bind (·.effort), mode.bind (·.serviceTier), none⟩, running⟩

end AgentProfile

/-! ## Recorded controls -/

structure RecordedControls where
  model : String
  effort : Option String
  serviceTier : Option String
  fast : Option Bool

namespace RecordedControls

def reproducible (recorded : RecordedControls) : Bool :=
  match recorded.fast with
  | some true => recorded.serviceTier = some "fast"
  | some false => recorded.serviceTier.isNone
  | none => true

def reproducedBy (recorded : RecordedControls) (mode : ProfileMode) : Bool :=
  mode.model = recorded.model && mode.effort = recorded.effort && mode.serviceTier = recorded.serviceTier

def intoMode (recorded : RecordedControls) : ProfileMode :=
  ⟨"recorded:" ++ recorded.model, none, recorded.model, recorded.effort, recorded.serviceTier⟩

end RecordedControls

namespace PaneOptions

variable (options : PaneOptions)

/-- An empty option is none. -/
def read (value : Option String) : Option String := value.filter fun value => !value.isEmpty

def recordedPaneControls : Option RecordedControls := do
  let model ← (read options.model).filter validModelId
  let recorded : RecordedControls := {
    model
    effort := (read options.effort).filter validEffortId
    serviceTier := (read options.serviceTier).filter (· = "fast")
    fast := (read options.fast).bind storedFast }
  if recorded.reproducible then some recorded else none

def recordedPaneMode : Option ProfileMode := options.recordedPaneControls.map (·.intoMode)

def forgetRecordedMode : PaneOptions := { options with mode := none }

def reconcileRecordedMode (modes : List ProfileMode) : PaneOptions :=
  match options.recordedPaneControls with
  | none => options.forgetRecordedMode
  | some recorded =>
    match modes.find? recorded.reproducedBy with
    | some mode => { options with mode := some mode.id }
    | none => options.forgetRecordedMode

end PaneOptions

/-! ## Switches -/

/-- What a harness does with a control: it shows the change, or nothing, or
refuses fast mode outright. -/
inductive Answer
  | confirmed
  | unconfirmed
  | refused
deriving DecidableEq

inductive Control
  | mode (id : String)
  | model (model : String)
  | effort (effort : String)
  | fast (enabled : Bool)

namespace Pane

variable (pane : Pane) (profile : AgentProfile) (version : String) (answer : Answer)

/-- What a harness can switch to while it runs. -/
def switchable (effort : Option String) (sessionScopedTier : Bool) : AgentKind → Bool
  | .claude => sessionScopedTier && effort.all validClaudeEffort
  | .codex => sessionScopedTier && effort.all (· ≠ "none")
  | .other => false

/-- An error leaves the pane that it carries. -/
def applyModel (model : String) (effort : Option String) (sessionScopedTier : Bool) : Except Pane Pane :=
  if !validModelId model || !(knownModels profile.agent version).contains model then .error pane
  else if switchable effort sessionScopedTier profile.agent && answer = .confirmed then
    .ok {
      options := { pane.options with model := some model, effort := effort.or pane.options.effort }
      running := { pane.running with model, effort := effort.getD pane.running.effort } }
  else .error pane

def switchModel (mode : ProfileMode) : Except Pane Pane :=
  (pane.applyModel profile version answer mode.model mode.effort mode.serviceTier.isNone).map fun pane =>
    { pane with options.mode := some mode.id }

def switchModelChoice (model : String) : Except Pane Pane :=
  (pane.applyModel profile version answer model none true).map fun pane =>
    { pane with options := pane.options.forgetRecordedMode }

def switchEffort (effort : String) : Except Pane Pane :=
  if !(knownEfforts profile.agent version).contains effort then .error pane
  else if answer = .confirmed then
    .ok {
      options := { pane.options with effort := some effort }.forgetRecordedMode
      running := { pane.running with effort } }
  else .error pane

/-- Nothing was switched, so fast mode is taken to be off. -/
def recordFastUnavailable : Pane := { pane with options.fast := some "off" }

def switchFast (enabled : Bool) : Except Pane Pane :=
  if !fastToggleVerified profile.agent version then .error pane
  else
    let stored := if enabled then "on" else "off"
    match profile.agent, answer with
    | .claude, .confirmed =>
      .ok {
        options := { pane.options with fast := some stored }.forgetRecordedMode
        running := { pane.running with fast := enabled } }
    | .claude, .refused => .error pane.recordFastUnavailable
    | .codex, .confirmed =>
      let serviceTier := if enabled then some "fast" else none
      .ok {
        options := { pane.options with fast := some stored, serviceTier }.forgetRecordedMode
        running := { pane.running with fast := enabled, serviceTier } }
    | _, _ => .error pane

def perform : Control → Except Pane Pane
  | .mode id =>
    match profile.modes.find? fun mode => mode.id = id with
    | some mode => pane.switchModel profile version answer mode
    | none => .error pane
  | .model model => pane.switchModelChoice profile version answer model
  | .effort effort => pane.switchEffort profile version answer effort
  | .fast enabled => pane.switchFast profile version answer enabled

def reconcile : Pane := { pane with options := pane.options.reconcileRecordedMode profile.modes }

end Pane

structure ModelSwitchRequest where
  modeId : Option String
  model : Option String
  effort : Option String
  fast : Option Bool

def ModelSwitchRequest.controls (request : ModelSwitchRequest) : List Control :=
  (request.modeId.map .mode).toList ++ (request.model.map .model).toList ++ (request.effort.map .effort).toList ++
    (request.fast.map .fast).toList

/-- The controls of a request, up to the first that fails. -/
def switchControls (profile : AgentProfile) (version : String) (answers : Control → Answer) (request : ModelSwitchRequest)
    (pane : Pane) : Except Pane Pane := do
  let pane ← request.controls.foldlM (fun pane control => pane.perform profile version (answers control) control) pane
  if request.model.isSome || request.effort.isSome || request.fast.isSome then pure (pane.reconcile profile) else pure pane

/-! ## Observations -/

/-- What a pane shows of its controls. -/
structure Displayed where
  switchedModel : Option String
  model : Option String
  effort : Option String

/-- All that is shown is true. -/
structure Displayed.Shows (displayed : Displayed) (running : Running) : Prop where
  switchedModel : ∀ model, displayed.switchedModel = some model → model = running.model
  model : ∀ model, displayed.model = some model → model = running.model
  effort : ∀ effort, displayed.effort = some effort → effort = running.effort

/-- The model that is shown is recorded, if it was switched to or none is
recorded yet. -/
def rememberModelMetadata (displayed : Displayed) (pane : Pane) : Pane :=
  let storedModel := pane.options.model.getD ""
  match displayed.switchedModel.or (if storedModel.isEmpty then displayed.model else none) with
  | some current => if current ≠ storedModel then { pane with options.model := some current } else pane
  | none => pane

structure ModelObservation where
  current : Option String
  effort : Option String
  mode : Option String

def modelObservation (displayed : Displayed) (options : PaneOptions) : ModelObservation where
  current := displayed.switchedModel.or ((options.model.filter validModelId).or displayed.model)
  effort := displayed.effort.or (options.effort.filter validEffortId)
  mode := options.mode.filter validModeId

def preflightMode (profile : AgentProfile) (observation : ModelObservation) (recorded : Option ProfileMode)
    (serviceTier : Option String) : Option ProfileMode :=
  let mode : Option ProfileMode := match observation.mode with
    | some modeId => profile.modes.find? fun mode => mode.id = modeId
    | none => recorded
  mode.filter fun mode =>
    observation.current = some mode.model && observation.effort = mode.effort && serviceTier = mode.serviceTier

/-- The mode of `cli_update_preflight_for_session`. -/
def cliUpdatePreflight (harness : Harness) (profile : AgentProfile) (displayed : Displayed) (options : PaneOptions) :
    Option ProfileMode :=
  if profile.agent ≠ updateAgent harness then none
  else
    let observation := modelObservation displayed options
    let recorded := match observation.mode with
      | some _ => none
      | none => options.recordedPaneMode
    preflightMode profile observation recorded (PaneOptions.read options.serviceTier)

/-! ## Runs of a pane -/

inductive Label
  | control (version : String) (answer : Answer) (control : Control)
  | reconcile
  | remember (displayed : Displayed)

/-- The pane that is left, whether all was done or not. -/
def settled : Except Pane Pane → Pane
  | .ok pane => pane
  | .error pane => pane

def Pane.step (profile : AgentProfile) (pane : Pane) : Label → Pane
  | .control version answer control => settled (pane.perform profile version answer control)
  | .reconcile => pane.reconcile profile
  | .remember displayed => rememberModelMetadata displayed pane

/-- A pane shows what is true of it. -/
def Pane.Truthful (pane : Pane) : Label → Prop
  | .remember displayed => displayed.Shows pane.running
  | _ => True

/-- A Claude pane in fast mode is not switched to a mode it would then be seen
in, and is not refused its fast mode. -/
def Pane.Clear (profile : AgentProfile) (pane : Pane) : Label → Prop
  | .control version .confirmed (.mode id) => profile.agent = .claude → pane.running.fast = true →
      ∀ mode, (profile.modes.find? fun mode => mode.id = id) = some mode → mode.model ∈ knownModels .claude version →
        mode.effort = none ∧ pane.options.effort.isSome
  | .control version .refused (.fast _) =>
      profile.agent = .claude → fastToggleVerified .claude version = true → pane.running.fast = false
  | _ => True

/-- What a pane's options say of what it runs. -/
structure Recorded (profile : AgentProfile) (pane : Pane) : Prop where
  model : ∀ model, pane.options.model = some model → model = pane.running.model
  effort : pane.running.effort = pane.options.effort.getD profile.defaultEffort
  supported : pane.options.effort.all (supportedEffort profile.agent) = true
  tier : pane.running.serviceTier = pane.options.serviceTier
  claude : profile.agent = .claude → pane.options.serviceTier = none ∧ (pane.running.fast = true →
    pane.options.fast = some "on" ∧ ∀ id mode, pane.options.mode = some id →
      (profile.modes.find? fun mode => mode.id = id) = some mode → mode.effort = none ∧ pane.options.effort.isSome)
  codex : profile.agent = .codex → pane.options.serviceTier.all (· = "fast") = true ∧
    pane.running.fast = decide (pane.options.serviceTier = some "fast")

variable {profile : AgentProfile} {pane pane' : Pane} {mode : ProfileMode} {version : String} {answer : Answer}

/-! ### Each control's effect -/

variable (pane profile version answer) in
/-- A model is switched to, or nothing changes. -/
theorem applyModel_cases (model : String) (effort : Option String) (sessionScopedTier : Bool) :
    pane.applyModel profile version answer model effort sessionScopedTier = .error pane ∨
      (model ∈ knownModels profile.agent version ∧ answer = .confirmed ∧
        pane.applyModel profile version answer model effort sessionScopedTier = .ok {
          options := { pane.options with model := some model, effort := effort.or pane.options.effort }
          running := { pane.running with model, effort := effort.getD pane.running.effort } }) := by
  unfold Pane.applyModel
  split
  · exact .inl rfl
  next hknown =>
    split
    next hswitched =>
      simp only [Bool.or_eq_true, Bool.not_eq_true', not_or, Bool.not_eq_false] at hknown
      simp only [Bool.and_eq_true, decide_eq_true_eq] at hswitched
      exact .inr ⟨by simpa using hknown.2, hswitched.2, rfl⟩
    · exact .inl rfl

theorem supported_of_known {agent : AgentKind} {effort : String} (h : (knownEfforts agent version).contains effort = true) :
    supportedEffort agent effort = true := by
  cases agent with
  | claude =>
    simp only [knownEfforts] at h
    split at h
    · exact h
    · simp at h
  | codex =>
    simp only [knownEfforts] at h
    split at h
    · simp only [codexEfforts, List.contains_eq_mem, List.mem_cons, List.not_mem_nil, decide_eq_true_eq] at h
      simp only [supportedEffort, validCodexEffort, List.contains_eq_mem, List.mem_cons, decide_eq_true_eq]
      tauto
    · simp at h
  | other => simp [knownEfforts] at h

namespace Recorded

theorem launch {mode : Option ProfileMode} (h : profile.launch mode = some pane) : Recorded profile pane := by
  simp only [AgentProfile.launch, Option.map_eq_some_iff] at h
  obtain ⟨running, hfresh, rfl⟩ := h
  cases mode with
  | none =>
    obtain rfl := Option.some.inj hfresh
    exact ⟨nofun, rfl, rfl, rfl, fun _ => ⟨rfl, nofun⟩, fun _ => ⟨rfl, rfl⟩⟩
  | some mode =>
    simp only [AgentProfile.fresh, Option.ite_none_right_eq_some, Option.some.injEq] at hfresh
    obtain ⟨hsupported, rfl⟩ := hfresh
    simp only [ProfileMode.supported, Bool.and_eq_true] at hsupported
    obtain ⟨⟨-, heffort⟩, htier⟩ := hsupported
    refine ⟨fun model h => (Option.some.inj h).symm, rfl, heffort, rfl, fun hagent => ?_, fun hagent => ?_⟩
    · simp only [hagent, Option.isNone_iff_eq_none] at htier
      exact ⟨htier, fun hfast => by simp [htier] at hfast⟩
    · simp only [hagent] at htier
      exact ⟨htier, rfl⟩

/-- Another mode is recorded, or none. -/
theorem withMode (h : Recorded profile pane) {recorded : Option String}
    (hmode : profile.agent = .claude → pane.running.fast = true → ∀ id mode, recorded = some id →
      (profile.modes.find? fun mode => mode.id = id) = some mode → mode.effort = none ∧ pane.options.effort.isSome) :
    Recorded profile { pane with options.mode := recorded } :=
  { h with claude := fun hagent => ⟨(h.claude hagent).1, fun hfast =>
      ⟨((h.claude hagent).2 hfast).1, hmode hagent hfast⟩⟩ }

theorem forget (h : Recorded profile pane) : Recorded profile { pane with options := pane.options.forgetRecordedMode } :=
  h.withMode fun _ _ _ _ hmode => nomatch hmode

theorem applied (h : Recorded profile pane) {model : String} {effort : Option String}
    (heffort : effort.all (supportedEffort profile.agent) = true)
    (hmode : profile.agent = .claude → pane.running.fast = true → effort = none) :
    Recorded profile {
      options := { pane.options with model := some model, effort := effort.or pane.options.effort }
      running := { pane.running with model, effort := effort.getD pane.running.effort } } where
  model model h := (Option.some.inj h).symm
  effort := by
    cases effort with
    | none => exact h.effort
    | some effort => rfl
  supported := by
    cases effort with
    | none => exact h.supported
    | some effort => exact heffort
  tier := h.tier
  claude hagent := by
    refine ⟨(h.claude hagent).1, fun hfast => ?_⟩
    obtain rfl := hmode hagent hfast
    exact (h.claude hagent).2 hfast
  codex := h.codex

theorem perform (h : Recorded profile pane) {control : Control} (hclear : pane.Clear profile (.control version answer control)) :
    Recorded profile (settled (pane.perform profile version answer control)) := by
  cases control with
  | mode id =>
    simp only [Pane.perform]
    split
    next mode hfind =>
      have hsupported := profile.valid mode (List.mem_of_find?_eq_some hfind)
      simp only [ProfileMode.supported, Bool.and_eq_true] at hsupported
      have hid : mode.id = id := by simpa using List.find?_some hfind
      unfold Pane.switchModel
      rcases applyModel_cases profile pane version answer mode.model mode.effort mode.serviceTier.isNone with
        herror | ⟨hknown, rfl, hok⟩
      · rw [herror]
        exact h
      · rw [hok]
        have hfound : profile.agent = .claude → pane.running.fast = true → mode.effort = none ∧ pane.options.effort.isSome :=
          fun hagent hfast => hclear hagent hfast mode hfind (hagent ▸ hknown)
        refine (h.applied hsupported.1.2 fun hagent hfast => (hfound hagent hfast).1).withMode ?_
        intro hagent hfast id' mode' hid' hfind'
        obtain rfl := Option.some.inj hid'
        rw [hid] at hfind'
        obtain rfl := Option.some.inj (hfind.symm.trans hfind')
        obtain ⟨hnone, hsome⟩ := hfound hagent hfast
        exact ⟨hnone, by simpa [hnone] using hsome⟩
    · exact h
  | model model =>
    simp only [Pane.perform, Pane.switchModelChoice]
    rcases applyModel_cases profile pane version answer model none true with herror | ⟨-, -, hok⟩
    · rw [herror]
      exact h
    · rw [hok]
      exact (h.applied rfl fun _ _ => rfl).forget
  | effort effort =>
    simp only [Pane.perform, Pane.switchEffort]
    split
    · exact h
    next hknown =>
      split
      · exact {
          model := h.model
          effort := rfl
          supported := supported_of_known (by simpa using hknown)
          tier := h.tier
          claude := fun hagent => ⟨(h.claude hagent).1, fun hfast => ⟨((h.claude hagent).2 hfast).1, nofun⟩⟩
          codex := h.codex }
      · exact h
  | fast enabled =>
    simp only [Pane.perform, Pane.switchFast]
    split
    · exact h
    next hverified =>
      split
      next hagent =>
        refine { h with claude := fun _ => ⟨(h.claude hagent).1, fun hfast => ⟨?_, nofun⟩⟩, codex := fun hcodex => ?_ }
        · obtain rfl : enabled = true := hfast
          rfl
        · rw [hagent] at hcodex
          cases hcodex
      next hagent =>
        have hoff : pane.running.fast = false := hclear hagent (by simpa [hagent] using hverified)
        refine { h with claude := fun _ => ⟨(h.claude hagent).1, fun hfast => ?_⟩ }
        have hfast : pane.running.fast = true := hfast
        rw [hoff] at hfast
        cases hfast
      next hagent =>
        refine { h with tier := rfl, claude := fun hclaude => ?_, codex := fun _ => ?_ }
        · rw [hagent] at hclaude
          cases hclaude
        · cases enabled <;> exact ⟨rfl, rfl⟩
      · exact h

/-- Fast mode of Claude is recorded as such, and no launch reproduces it. -/
theorem recordedPaneControls_eq_none (h : Recorded profile pane) (hagent : profile.agent = .claude)
    (hfast : pane.running.fast = true) : pane.options.recordedPaneControls = none := by
  obtain ⟨htier, hclaude⟩ := h.claude hagent
  have hstored : (PaneOptions.read (some "on")).bind storedFast = some true := by rfl
  unfold PaneOptions.recordedPaneControls
  rw [(hclaude hfast).1, htier, hstored]
  cases (PaneOptions.read pane.options.model).filter validModelId <;> rfl

theorem reconcile (h : Recorded profile pane) : Recorded profile (pane.reconcile profile) := by
  unfold Pane.reconcile PaneOptions.reconcileRecordedMode
  split
  · exact h.forget
  next recorded hrecorded =>
    split
    next mode hmode =>
      refine h.withMode fun hagent hfast => ?_
      rw [h.recordedPaneControls_eq_none hagent hfast] at hrecorded
      cases hrecorded
    · exact h.forget

theorem remember (h : Recorded profile pane) {displayed : Displayed} (hshows : displayed.Shows pane.running) :
    Recorded profile (rememberModelMetadata displayed pane) := by
  unfold rememberModelMetadata
  dsimp only
  split
  next current hcurrent =>
    split
    · refine { h with model := fun model hmodel => ?_ }
      obtain rfl := Option.some.inj hmodel
      rcases Option.or_eq_some_iff.mp hcurrent with hswitched | ⟨-, hdisplayed⟩
      · exact hshows.switchedModel _ hswitched
      · split at hdisplayed
        · exact hshows.model _ hdisplayed
        · cases hdisplayed
    · exact h
  · exact h

theorem step (h : Recorded profile pane) {label : Label} (htruthful : pane.Truthful label) (hclear : pane.Clear profile label) :
    Recorded profile (pane.step profile label) := by
  cases label with
  | control version answer control => exact h.perform hclear
  | reconcile => exact h.reconcile
  | remember displayed => exact h.remember htruthful

end Recorded

/-! ### What maintenance relaunches -/

theorem validEffortId_of_supported {agent : AgentKind} {effort : String} (h : supportedEffort agent effort = true) :
    validEffortId effort = true := by
  cases agent with
  | claude => simp [validEffortId, show validClaudeEffort effort = true from h]
  | codex => simp [validEffortId, show validCodexEffort effort = true from h]
  | other => cases h

namespace Recorded

variable {displayed : Displayed} {harness : Harness}

theorem filter_effort (h : Recorded profile pane) : pane.options.effort.filter validEffortId = pane.options.effort := by
  have hsupported := h.supported
  cases heffort : pane.options.effort with
  | none => rfl
  | some effort =>
    rw [heffort] at hsupported
    exact Option.filter_eq_some_iff.mpr ⟨rfl, validEffortId_of_supported hsupported⟩

/-- The model that is observed is the one that runs. -/
theorem model_observation (h : Recorded profile pane) (hshows : displayed.Shows pane.running) {model : String}
    (hcurrent : (modelObservation displayed pane.options).current = some model) : model = pane.running.model := by
  rcases Option.or_eq_some_iff.mp hcurrent with hswitched | ⟨-, hrest⟩
  · exact hshows.switchedModel _ hswitched
  · rcases Option.or_eq_some_iff.mp hrest with hstored | ⟨-, hdisplayed⟩
    · exact h.model _ (Option.filter_eq_some_iff.mp hstored).1
    · exact hshows.model _ hdisplayed

/-- The effort that is observed is the one that runs, the default if none is. -/
theorem effort_observation (h : Recorded profile pane) (hshows : displayed.Shows pane.running) :
    (modelObservation displayed pane.options).effort.getD profile.defaultEffort = pane.running.effort := by
  simp only [modelObservation, h.filter_effort]
  cases hdisplayed : displayed.effort with
  | none => exact h.effort.symm
  | some effort => exact hshows.effort _ hdisplayed

/-- A mode with what is observed of a pane runs what the pane runs, fast mode
apart. -/
theorem fresh_eq (h : Recorded profile pane) (hshows : displayed.Shows pane.running) (hagent : profile.agent = updateAgent harness)
    (hsupported : mode.supported profile.agent = true)
    (hmodel : (modelObservation displayed pane.options).current = some mode.model)
    (heffort : (modelObservation displayed pane.options).effort = mode.effort)
    (htier : pane.options.serviceTier = mode.serviceTier) (hfast : profile.agent = .claude → pane.running.fast = false) :
    profile.fresh (some mode) = some pane.running := by
  rw [AgentProfile.fresh, if_pos hsupported, ← heffort, h.effort_observation hshows, h.model_observation hshows hmodel, ← htier,
    ← h.tier]
  have hdecide : pane.running.fast = decide (pane.running.serviceTier = some "fast") := by
    rw [h.tier]
    cases harness with
    | claude => rw [hfast hagent, (h.claude hagent).1]; rfl
    | codex => exact (h.codex hagent).2
  rw [← hdecide]

theorem read_serviceTier (h : Recorded profile pane) (hagent : profile.agent = updateAgent harness) :
    PaneOptions.read pane.options.serviceTier = pane.options.serviceTier := by
  cases harness with
  | claude => rw [(h.claude hagent).1]; rfl
  | codex =>
    have htier := (h.codex hagent).1
    cases hstored : pane.options.serviceTier with
    | none => rfl
    | some tier =>
      obtain rfl : tier = "fast" := by simpa [hstored] using htier
      rfl

/-- The recorded controls are a mode that a launch takes. -/
theorem supported_recorded (h : Recorded profile pane) (hagent : profile.agent = updateAgent harness)
    {recorded : RecordedControls} (hrecorded : pane.options.recordedPaneControls = some recorded) :
    recorded.intoMode.supported profile.agent = true := by
  obtain ⟨model, hmodel, hrecorded⟩ := Option.bind_eq_some_iff.mp hrecorded
  simp only [Option.ite_none_right_eq_some, Option.some.injEq] at hrecorded
  obtain ⟨-, rfl⟩ := hrecorded
  have hvalid := (Option.filter_eq_some_iff.mp hmodel).2
  have heffort : ((PaneOptions.read pane.options.effort).filter validEffortId).all (supportedEffort profile.agent) = true := by
    have hsupported := h.supported
    rw [Option.all_eq_true] at hsupported ⊢
    intro effort heffort
    exact hsupported effort (Option.filter_eq_some_iff.mp (Option.filter_eq_some_iff.mp heffort).1).1
  simp only [ProfileMode.supported, RecordedControls.intoMode, hvalid, heffort, h.read_serviceTier hagent, Bool.true_and]
  cases harness with
  | claude => rw [hagent, (h.claude hagent).1]; rfl
  | codex =>
    rw [hagent]
    simp only [updateAgent, Option.all_eq_true]
    intro tier htier
    exact (Option.filter_eq_some_iff.mp htier).2

theorem preflight (h : Recorded profile pane) (hshows : displayed.Shows pane.running)
    (hmode : cliUpdatePreflight harness profile displayed pane.options = some mode) :
    profile.fresh (some mode) = some pane.running := by
  unfold cliUpdatePreflight at hmode
  split at hmode
  · cases hmode
  next hagent =>
    simp only [ne_eq, Decidable.not_not] at hagent
    obtain ⟨hcandidate, hmatches⟩ := Option.filter_eq_some_iff.mp hmode
    simp only [Bool.and_eq_true, decide_eq_true_eq] at hmatches
    obtain ⟨⟨hmodel, heffort⟩, htier⟩ := hmatches
    rw [h.read_serviceTier hagent] at htier
    cases hrecorded : (modelObservation displayed pane.options).mode with
    | some id =>
      rw [hrecorded] at hcandidate
      refine h.fresh_eq hshows hagent (profile.valid _ (List.mem_of_find?_eq_some hcandidate)) hmodel heffort htier ?_
      intro hclaude
      by_contra hfast
      have hid := (Option.filter_eq_some_iff.mp hrecorded).1
      obtain ⟨hnone, hsome⟩ := ((h.claude hclaude).2 (by simpa using hfast)).2 id _ hid hcandidate
      rw [hnone] at heffort
      have hstored := (Option.or_eq_none_iff.mp heffort).2
      rw [h.filter_effort] at hstored
      rw [hstored] at hsome
      cases hsome
    | none =>
      rw [hrecorded] at hcandidate
      obtain ⟨recorded, hcontrols, rfl⟩ := Option.map_eq_some_iff.mp hcandidate
      refine h.fresh_eq hshows hagent (h.supported_recorded hagent hcontrols) hmodel heffort htier ?_
      intro hclaude
      by_contra hfast
      rw [h.recordedPaneControls_eq_none hclaude (by simpa using hfast)] at hcontrols
      cases hcontrols

end Recorded

/-- A step of a pane: a control that the harness is given, or what is recorded
after it. -/
def Step (profile : AgentProfile) (pane : Pane) (label : Label) (pane' : Pane) : Prop :=
  pane.Truthful label ∧ pane' = pane.step profile label

/-- **Maintenance relaunches a pane as it runs.** After any switches of a pane
that are clear, a fresh launch with the mode of the preflight runs the same
model, effort, service tier and fast mode. -/
theorem preflight_right {harness : Harness} {displayed : Displayed} {launched : Pane} {launchMode : Option ProfileMode}
    {labels : List Label} (hlaunch : profile.launch launchMode = some launched)
    (hrun : Run (fun pane label pane' => Step profile pane label pane' ∧ pane.Clear profile label) launched labels pane)
    (hshows : displayed.Shows pane.running)
    (hmode : cliUpdatePreflight harness profile displayed pane.options = some mode) :
    profile.fresh (some mode) = some pane.running := by
  have hrecorded : Recorded profile pane := by
    refine hrun.invariant (I := Recorded profile) (fun {before label after} h hstep => ?_) (.launch hlaunch)
    obtain ⟨⟨htruthful, rfl⟩, hclear⟩ := hstep
    exact h.step htruthful hclear
  exact hrecorded.preflight hshows hmode

variable (profile version) in
theorem foldlM_perform_run (answers : Control → Answer) (controls : List Control) (pane : Pane) :
    ∃ performed, performed <+: controls ∧
      Run (Step profile) pane (performed.map fun control => .control version (answers control) control)
        (settled (controls.foldlM (fun pane control => pane.perform profile version (answers control) control) pane)) := by
  induction controls generalizing pane with
  | nil => exact ⟨[], List.nil_prefix, .nil pane⟩
  | cons control controls ih =>
    rw [List.foldlM_cons]
    cases hperform : pane.perform profile version (answers control) control with
    | error left =>
      refine ⟨[control], by simp, .single ⟨trivial, ?_⟩⟩
      simp only [Pane.step, hperform]
      rfl
    | ok left =>
      obtain ⟨performed, hprefix, hrun⟩ := ih left
      refine ⟨control :: performed, List.cons_prefix_cons.mpr ⟨rfl, hprefix⟩, .cons ⟨trivial, ?_⟩ hrun⟩
      simp only [Pane.step, hperform]
      rfl

/-- A request is a run of its controls, and of a reconciliation after them. -/
theorem switchControls_run {answers : Control → Answer} {request : ModelSwitchRequest} :
    ∃ performed ending, performed <+: request.controls ∧ (ending = [] ∨ ending = [Label.reconcile]) ∧
      Run (Step profile) pane (performed.map (fun control => .control version (answers control) control) ++ ending)
        (settled (switchControls profile version answers request pane)) := by
  obtain ⟨performed, hprefix, hrun⟩ := foldlM_perform_run profile version answers request.controls pane
  unfold switchControls
  cases hfold : request.controls.foldlM (fun pane control => pane.perform profile version (answers control) control) pane with
  | error left =>
    rw [hfold] at hrun
    exact ⟨performed, [], hprefix, .inl rfl, by rw [List.append_nil]; exact hrun⟩
  | ok left =>
    rw [hfold] at hrun
    simp only [bind, Except.bind]
    split
    · exact ⟨performed, [.reconcile], hprefix, .inr rfl, hrun.append (.single ⟨trivial, rfl⟩)⟩
    · exact ⟨performed, [], hprefix, .inl rfl, by rw [List.append_nil]; exact hrun⟩

/-! ### A mode switch in fast mode -/

private def deep : ProfileMode := ⟨"deep", none, "opus", none, none⟩

private def opusProfile : AgentProfile := ⟨.claude, [deep], "default", "high", by decide +kernel⟩

private def opusPane : Pane := ⟨⟨some "deep", some "opus", none, none, none⟩, ⟨"opus", "high", none, false⟩⟩

private def nothing : Displayed := ⟨none, none, none⟩

/-- A request for fast mode, and the reconciliation after it. -/
private def fastRequest (enabled : Bool) : List Label := [.control "2.1.261" .confirmed (.fast enabled), .reconcile]

private def modeRequest : List Label := [.control "2.1.261" .confirmed (.mode "deep")]

private def after (labels : List Label) : Pane := labels.foldl (Pane.step opusProfile) opusPane

private theorem shows_nothing (running : Running) : nothing.Shows running := ⟨nofun, nofun, nofun⟩

/-- After fast mode was on and off again, the pane is relaunched as it runs. -/
theorem deep_relaunched :
    cliUpdatePreflight .claude opusProfile nothing (after (fastRequest true ++ fastRequest false)).options = some deep ∧
      opusProfile.fresh (some deep) = some (after (fastRequest true ++ fastRequest false)).running := by
  have hmode : cliUpdatePreflight .claude opusProfile nothing (after (fastRequest true ++ fastRequest false)).options =
      some deep := by decide +kernel
  have hrun : Run (fun pane label pane' => Step opusProfile pane label pane' ∧ pane.Clear opusProfile label) opusPane
      (fastRequest true ++ fastRequest false) (after (fastRequest true ++ fastRequest false)) :=
    .cons ⟨⟨trivial, rfl⟩, trivial⟩ (.cons ⟨⟨trivial, rfl⟩, trivial⟩
      (.cons ⟨⟨trivial, rfl⟩, trivial⟩ (.cons ⟨⟨trivial, rfl⟩, trivial⟩ (.nil _))))
  have hlaunch : opusProfile.launch (some deep) = some opusPane := by decide +kernel
  exact ⟨hmode, preflight_right hlaunch hrun (shows_nothing _) hmode⟩

/-- A mode that is switched to while fast mode is on is recorded, and a relaunch
with it turns fast mode off. -/
theorem fast_lost : ¬ ∀ (profile : AgentProfile) (harness : Harness) (launchMode : Option ProfileMode) (launched : Pane)
    (labels : List Label) (pane : Pane) (displayed : Displayed) (mode : ProfileMode),
    profile.launch launchMode = some launched → Run (Step profile) launched labels pane → displayed.Shows pane.running →
      cliUpdatePreflight harness profile displayed pane.options = some mode →
        profile.fresh (some mode) = some pane.running := by
  intro h
  have hrun : Run (Step opusProfile) opusPane (fastRequest true ++ modeRequest) (after (fastRequest true ++ modeRequest)) :=
    .cons ⟨trivial, rfl⟩ (.cons ⟨trivial, rfl⟩ (.cons ⟨trivial, rfl⟩ (.nil _)))
  have hmode : cliUpdatePreflight .claude opusProfile nothing (after (fastRequest true ++ modeRequest)).options = some deep := by
    decide +kernel
  have hlost := h opusProfile .claude (some deep) opusPane _ _ nothing deep (by decide +kernel) hrun (shows_nothing _) hmode
  revert hlost
  decide +kernel

end Atmux.Modes
