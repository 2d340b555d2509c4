/-
The command line of an agent: a profile's arguments with those of its mode
and of a saved conversation, and Claude's permission arguments made one.

What follows `--` is literal data, so everything is put before it.
`normalize_eq` says what the normalization loop makes of any arguments;
`relaunch_right` what the command line of a maintenance relaunch is, and for
which model ids it is not that.
-/
import Mathlib.Data.List.TakeWhile
import Atmux.Lib.Result
import Atmux.Modes

namespace Atmux.Invocation

open Lib Maintenance Modes

def claudeSkipPermissionsFlag : String := "--dangerously-skip-permissions"

def claudePermissionModeFlag : String := "--permission-mode"

def claudeBypassPermissionsMode : String := "bypassPermissions"

/-! ## Arguments up to the option terminator -/

/-- The arguments up to the first `--`. -/
def activeArguments (arguments : List String) : List String := arguments.takeWhile (· ≠ "--")

/-- The first `--` and what follows it. -/
def terminated (arguments : List String) : List String := arguments.dropWhile (· ≠ "--")

def insertBeforeOptionTerminator (arguments inserted : List String) : List String :=
  activeArguments arguments ++ inserted ++ terminated arguments

def isClaudeResumeSelector (argument : String) : Bool :=
  ["--resume", "-r", "--continue", "-c"].contains argument || "--resume=".toList.isPrefixOf argument.toList

def isOption (argument : String) : Bool := argument.toList.head? = some '-'

def isModeAssignment (argument : String) : Bool := "--permission-mode=".toList.isPrefixOf argument.toList

/-! ## Permission arguments -/

/-- The loop of the normalization: whether the flag was seen, and the
arguments that are left. -/
def scan (sawSkip : Bool) : List String → Bool × List String
  | [] => (sawSkip, [])
  | argument :: rest =>
    if argument = "--" then (sawSkip, argument :: rest)
    else if argument = claudeSkipPermissionsFlag then
      if sawSkip then scan sawSkip rest
      else ((scan true rest).1, argument :: (scan true rest).2)
    else if argument = claudePermissionModeFlag then
      match rest with
      | [] => (sawSkip, [])
      | value :: rest =>
        if value ≠ "--" ∧ isOption value = false then scan sawSkip rest else scan sawSkip (value :: rest)
    else if isModeAssignment argument then scan sawSkip rest
    else ((scan sawSkip rest).1, argument :: (scan sawSkip rest).2)

/-- Nothing where the flag that is looked up has gone, which is a panic. -/
def normalizeClaudePermissionArguments (arguments : List String) : Option (List String) :=
  let (sawSkip, left) := scan false arguments
  let left := if sawSkip then left else insertBeforeOptionTerminator left [claudeSkipPermissionsFlag]
  ((activeArguments left).findIdx? (· = claudeSkipPermissionsFlag)).map fun skip =>
    (left.insertIdx (skip + 1) claudePermissionModeFlag).insertIdx (skip + 2) claudeBypassPermissionsMode

/-! ## Profiles -/

inductive ClaudeRelaunchPermissions
  | atmuxInjects
  | launcherProvides
deriving DecidableEq

/-- A profile as it is launched, its environment in the order of its keys. -/
structure AgentProfile where
  harness : String
  command : String
  args : List String
  env : List (String × String)
  claudeRelaunchPermissions : Option ClaudeRelaunchPermissions

def AgentProfile.effectiveClaudeRelaunchPermissions (profile : AgentProfile) : ClaudeRelaunchPermissions :=
  profile.claudeRelaunchPermissions.getD .atmuxInjects

def lowercase (text : String) : String := String.ofList (text.toList.map Text.asciiLower)

/-- Whether atmux puts a Claude profile's permission arguments in. -/
def AgentProfile.managed (profile : AgentProfile) : Bool :=
  lowercase profile.harness = "claude" && profile.effectiveClaudeRelaunchPermissions = .atmuxInjects

def claudeModeArguments (mode : ProfileMode) : Except String (List String) :=
  if mode.serviceTier.isSome then .error "Claude profile modes cannot set a service tier"
  else
    match mode.effort with
    | none => .ok ["--model", mode.model]
    | some effort =>
      if validClaudeEffort effort then .ok ["--model", mode.model, "--effort", effort]
      else .error "Claude profile mode has unsupported effort"

def codexEffortArguments (mode : ProfileMode) : Except String (List String) :=
  match mode.effort with
  | none => .ok []
  | some effort =>
    if validCodexEffort effort then .ok ["-c", "model_reasoning_effort=\"" ++ effort ++ "\""]
    else .error "profile mode has unsupported Codex effort"

def codexTierArguments (mode : ProfileMode) : Except String (List String) :=
  match mode.serviceTier with
  | none => .ok []
  | some tier =>
    if tier = "fast" then .ok ["-c", "service_tier=\"" ++ tier ++ "\""]
    else .error "profile mode has unsupported Codex service tier"

def codexModeArguments (mode : ProfileMode) : Except String (List String) := do
  let effort ← codexEffortArguments mode
  let tier ← codexTierArguments mode
  return ["--model", mode.model] ++ effort ++ tier

def modeArguments (harness : String) (mode : ProfileMode) : Except String (List String) :=
  if validModelId mode.model = false then .error "profile mode has an invalid model id"
  else if harness = "claude" then claudeModeArguments mode
  else if harness = "codex" then codexModeArguments mode
  else .error "profile harness does not support configured modes"

/-! ## Saved conversations -/

structure ResumeCandidate where
  harness : Harness
  sessionId : String

def isSessionIdCharacter (c : Char) : Bool := Text.isHexDigit c || c = '-'

/-- `old_sessions::valid_session_id`. -/
def validSavedSessionId (value : String) : Bool :=
  value.utf8ByteSize = 36 && value.toList.all isSessionIdCharacter &&
    [8, 13, 18, 23].all fun i => value.toList[i]? = some '-'

def resumeSelector : Harness → String
  | .claude => "--resume"
  | .codex => "resume"

/-- `old_sessions::resume_arguments`. -/
def savedResumeArguments (candidate : ResumeCandidate) : Except String (List String) :=
  if validSavedSessionId candidate.sessionId then .ok [resumeSelector candidate.harness, candidate.sessionId]
  else .error "saved agent session is invalid"

/-- `auto_update::resume_arguments`. -/
def resumeArguments (harness : Harness) (sessionId : String) : Except String (List String) :=
  if sessionId.utf8ByteSize ≠ 36 ∨ sessionId.toList.all isSessionIdCharacter = false then
    .error "native saved conversation id is invalid"
  else .ok [resumeSelector harness, sessionId]

/-! ## Command lines -/

/-- Where more arguments go: ahead of the terminator where atmux manages them. -/
def extend (managed : Bool) (arguments inserted : List String) : List String :=
  if managed then insertBeforeOptionTerminator arguments inserted else arguments ++ inserted

def withMode (profile : AgentProfile) (arguments : List String) : Option ProfileMode → Except String (List String)
  | none => .ok arguments
  | some mode => do
    let inserted ← modeArguments (lowercase profile.harness) mode
    return extend profile.managed arguments inserted

def hasSelector (profile : AgentProfile) (arguments : List String) : Bool :=
  if lowercase profile.harness = "claude" then
    if profile.managed then (activeArguments arguments).any isClaudeResumeSelector
    else arguments.any isClaudeResumeSelector
  else if lowercase profile.harness = "codex" then arguments.any (· = "resume")
  else true

def withResume (profile : AgentProfile) (arguments : List String) : Option ResumeCandidate → Except String (List String)
  | none => .ok arguments
  | some resume =>
    if lowercase profile.harness ≠ resume.harness.name then
      .error "saved conversation does not match the selected profile harness"
    else if hasSelector profile arguments then .error "selected profile already defines a resume selector"
    else do
      let inserted ← savedResumeArguments resume
      return extend profile.managed arguments inserted

/-- A panic of the normalization, which `normalize_eq` excludes. -/
def normalized (arguments : List String) : Except String (List String) :=
  match normalizeClaudePermissionArguments arguments with
  | none => .error "the normalized Claude permission flag disappeared"
  | some arguments => .ok arguments

def assignments (profile : AgentProfile) : List String := profile.env.map fun (key, value) => key ++ "=" ++ value

def buildInvocation (profile : AgentProfile) (mode : Option ProfileMode) (resume : Option ResumeCandidate) :
    Except String (List String) := do
  let arguments ← withMode profile profile.args mode
  let arguments ← withResume profile arguments resume
  let arguments ← if profile.managed then normalized arguments else .ok arguments
  return ["env"] ++ assignments profile ++ [profile.command] ++ arguments

def appendNativeResumeArguments (invocation : List String) (argumentStart : Nat) (isClaude : Bool)
    (resume : List String) : Except String (List String) :=
  if isClaude = false then .ok (invocation ++ resume)
  else do
    let arguments ← normalized (insertBeforeOptionTerminator (invocation.drop argumentStart) resume)
    return invocation.take argumentStart ++ arguments

/-- The profile that a relaunch builds from: a validated native executable
takes its permissions from atmux. -/
def exactProfile (profile : AgentProfile) : Harness → AgentProfile
  | .claude => { profile with claudeRelaunchPermissions := some .atmuxInjects }
  | .codex => profile

def buildNativeRelaunchInvocation (profile : AgentProfile) (mode : ProfileMode) (harness : Harness)
    (resume : List String) : Except String (List String) := do
  let invocation ← buildInvocation (exactProfile profile harness) (some mode) none
  appendNativeResumeArguments invocation (2 + profile.env.length) (harness = .claude) resume

/-! ## What the normalization keeps -/

/-- The arguments that are no permission arguments: neither the flag, nor a
mode with its value, nor an assigned mode. -/
def others : List String → List String
  | [] => []
  | argument :: rest =>
    if argument = claudeSkipPermissionsFlag ∨ isModeAssignment argument then others rest
    else if argument = claudePermissionModeFlag then
      match rest with
      | [] => []
      | value :: rest => if isOption value then others (value :: rest) else others rest
    else argument :: others rest

structure Plain (argument : String) : Prop where
  skip : argument ≠ claudeSkipPermissionsFlag
  mode : argument ≠ claudePermissionModeFlag
  assignment : isModeAssignment argument = false

theorem Plain.skip_cons {rest : List String} : others (claudeSkipPermissionsFlag :: rest) = others rest := by
  cases rest <;> simp [others]

theorem others_assignment {argument : String} (h : isModeAssignment argument = true) (rest : List String) :
    others (argument :: rest) = others rest := by
  cases rest <;> simp [others, h]

theorem others_plain {argument : String} (h : Plain argument) (rest : List String) :
    others (argument :: rest) = argument :: others rest := by
  cases rest <;> simp [others, h.skip, h.mode, h.assignment]

theorem modeFlag_ne_skipFlag : claudePermissionModeFlag ≠ claudeSkipPermissionsFlag := by decide

theorem isModeAssignment_modeFlag : isModeAssignment claudePermissionModeFlag = false := by decide

theorem others_mode_option {value : String} (h : isOption value = true) (rest : List String) :
    others (claudePermissionModeFlag :: value :: rest) = others (value :: rest) := by
  rw [others]
  simp [modeFlag_ne_skipFlag, isModeAssignment_modeFlag, h]

theorem others_mode_value {value : String} (h : isOption value = false) (rest : List String) :
    others (claudePermissionModeFlag :: value :: rest) = others rest := by
  rw [others]
  simp [modeFlag_ne_skipFlag, isModeAssignment_modeFlag, h]

theorem mem_others {arguments : List String} {argument : String} (h : argument ∈ others arguments) :
    argument ∈ arguments ∧ Plain argument := by
  fun_induction others arguments with
  | case1 => cases h
  | case2 first rest _ ih => exact ⟨List.mem_cons_of_mem _ (ih h).1, (ih h).2⟩
  | case3 => cases h
  | case4 value rest _ _ ih => exact ⟨List.mem_cons_of_mem _ (ih h).1, (ih h).2⟩
  | case5 value rest _ _ ih => exact ⟨List.mem_cons_of_mem _ (List.mem_cons_of_mem _ (ih h).1), (ih h).2⟩
  | case6 first rest hskip hmode ih =>
    rcases List.mem_cons.mp h with rfl | h
    · simp only [not_or, Bool.not_eq_true] at hskip
      exact ⟨List.mem_cons_self, hskip.1, hmode, hskip.2⟩
    · exact ⟨List.mem_cons_of_mem _ (ih h).1, (ih h).2⟩

theorem others_plain_append {before : List String} (h : ∀ argument ∈ before, Plain argument) (rest : List String) :
    others (before ++ rest) = before ++ others rest := by
  induction before with
  | nil => rfl
  | cons argument before ih =>
    rw [List.cons_append, others_plain (h argument List.mem_cons_self),
      ih fun a ha => h a (List.mem_cons_of_mem _ ha), List.cons_append]

theorem others_of_plain {arguments : List String} (h : ∀ argument ∈ arguments, Plain argument) :
    others arguments = arguments := by
  have happend := others_plain_append h []
  rwa [List.append_nil, others, List.append_nil] at happend

/-- An option ends the argument before it. -/
theorem others_append {first : String} (h : isOption first = true) (arguments rest : List String) :
    others (arguments ++ first :: rest) = others arguments ++ others (first :: rest) := by
  fun_induction others arguments with
  | case1 => rfl
  | case2 argument arguments hremoved ih =>
    rw [List.cons_append]
    rcases hremoved with rfl | hassignment
    · rw [Plain.skip_cons, ih]
    · rw [others_assignment hassignment, ih]
  | case3 => exact others_mode_option h rest
  | case4 value arguments hvalue _ ih =>
    rw [List.cons_append, List.cons_append, others_mode_option hvalue]
    exact ih
  | case5 value arguments hvalue _ ih =>
    rw [List.cons_append, List.cons_append, others_mode_value (Bool.not_eq_true _ ▸ hvalue), ih]
  | case6 argument arguments hskip hmode ih =>
    simp only [not_or, Bool.not_eq_true] at hskip
    rw [List.cons_append, others_plain ⟨hskip.1, hmode, hskip.2⟩, ih, List.cons_append]

/-! ## The loop -/

theorem scan_other {argument : String} (hplain : Plain argument) (hactive : argument ≠ "--") (sawSkip : Bool)
    (rest : List String) :
    scan sawSkip (argument :: rest) = ((scan sawSkip rest).1, argument :: (scan sawSkip rest).2) := by
  cases rest <;> simp [scan, hactive, hplain.skip, hplain.mode, hplain.assignment]

theorem scan_skip_first (rest : List String) :
    scan false (claudeSkipPermissionsFlag :: rest) =
      ((scan true rest).1, claudeSkipPermissionsFlag :: (scan true rest).2) := by
  cases rest <;> simp [scan, claudeSkipPermissionsFlag]

theorem scan_skip_again (rest : List String) : scan true (claudeSkipPermissionsFlag :: rest) = scan true rest := by
  cases rest <;> simp [scan, claudeSkipPermissionsFlag]

theorem scan_assignment {argument : String} (h : isModeAssignment argument = true) (sawSkip : Bool) (rest : List String) :
    scan sawSkip (argument :: rest) = scan sawSkip rest := by
  have hactive : argument ≠ "--" := by rintro rfl; revert h; decide
  have hskip : argument ≠ claudeSkipPermissionsFlag := by rintro rfl; revert h; decide
  have hmode : argument ≠ claudePermissionModeFlag := by rintro rfl; revert h; decide
  cases rest <;> simp [scan, hactive, hskip, hmode, h]

theorem isOption_terminator : isOption "--" = true := by decide

theorem scan_mode (sawSkip : Bool) (value : String) (rest : List String) :
    scan sawSkip (claudePermissionModeFlag :: value :: rest) =
      if isOption value then scan sawSkip (value :: rest) else scan sawSkip rest := by
  have hactive : claudePermissionModeFlag ≠ "--" := by decide
  rw [scan, if_neg hactive, if_neg modeFlag_ne_skipFlag, if_pos rfl]
  by_cases hoption : isOption value = true
  · simp [hoption]
  · have hvalue : value ≠ "--" := fun heq => hoption (heq ▸ isOption_terminator)
    simp [hoption, hvalue]

theorem scan_mode_nil (sawSkip : Bool) : scan sawSkip [claudePermissionModeFlag] = (sawSkip, []) := by
  cases sawSkip <;> decide

theorem scan_terminated {rest : List String} (h : ∀ first ∈ rest.head?, first = "--") (sawSkip : Bool) :
    scan sawSkip rest = (sawSkip, rest) := by
  cases rest with
  | nil => rfl
  | cons first rest =>
    obtain rfl := h first rfl
    cases rest <;> simp [scan]

theorem scan_mode_terminated {rest : List String} (h : ∀ first ∈ rest.head?, first = "--") (sawSkip : Bool) :
    scan sawSkip (claudePermissionModeFlag :: rest) = (sawSkip, rest) := by
  cases rest with
  | nil => exact scan_mode_nil sawSkip
  | cons first rest =>
    have hfirst := h first rfl
    rw [scan_mode, hfirst, if_pos isOption_terminator]
    rw [hfirst] at h
    exact scan_terminated h sawSkip

/-- Once the flag was seen, the loop leaves the other arguments. -/
theorem scan_true {active rest : List String} (hactive : "--" ∉ active) (hrest : ∀ first ∈ rest.head?, first = "--") :
    scan true (active ++ rest) = (true, others active ++ rest) := by
  fun_induction others active with
  | case1 => exact scan_terminated hrest true
  | case2 argument active hremoved ih =>
    have htail := ih fun hmem => hactive (List.mem_cons_of_mem _ hmem)
    rcases hremoved with rfl | hassignment
    · rw [List.cons_append, scan_skip_again, htail]
    · rw [List.cons_append, scan_assignment hassignment, htail]
  | case3 => exact scan_mode_terminated hrest true
  | case4 value active hvalue _ ih =>
    have htail := ih fun hmem => hactive (List.mem_cons_of_mem _ hmem)
    rw [List.cons_append, List.cons_append, scan_mode, if_pos hvalue]
    exact htail
  | case5 value active hvalue _ ih =>
    have htail := ih fun hmem => hactive (List.mem_cons_of_mem _ (List.mem_cons_of_mem _ hmem))
    rw [List.cons_append, List.cons_append, scan_mode, if_neg hvalue, htail]
  | case6 argument active hskip hmode ih =>
    have htail := ih fun hmem => hactive (List.mem_cons_of_mem _ hmem)
    simp only [not_or, Bool.not_eq_true] at hskip
    have hterminator : argument ≠ "--" := fun heq => hactive (heq ▸ List.mem_cons_self)
    rw [List.cons_append, scan_other ⟨hskip.1, hmode, hskip.2⟩ hterminator, htail]
    rfl

/-- What the loop left: the other arguments, with the flag among them where it
was seen. -/
def Left (active rest : List String) (result : Bool × List String) : Prop :=
  result = (false, others active ++ rest) ∨
    ∃ before after, before ++ after = others active ∧
      result = (true, before ++ claudeSkipPermissionsFlag :: after ++ rest)

theorem Left.cons {argument : String} {active rest : List String} {result : Bool × List String} (hplain : Plain argument)
    (h : Left active rest result) : Left (argument :: active) rest (result.1, argument :: result.2) := by
  rcases h with rfl | ⟨before, after, hothers, rfl⟩
  · left
    rw [others_plain hplain]
    rfl
  · right
    refine ⟨argument :: before, after, ?_, rfl⟩
    rw [List.cons_append, hothers, others_plain hplain]

theorem Left.of_others {active active' rest : List String} {result : Bool × List String}
    (hothers : others active' = others active) (h : Left active rest result) : Left active' rest result := by
  rw [Left, hothers]
  exact h

theorem scan_false {active rest : List String} (hactive : "--" ∉ active) (hrest : ∀ first ∈ rest.head?, first = "--") :
    Left active rest (scan false (active ++ rest)) := by
  fun_induction others active with
  | case1 => exact .inl (scan_terminated hrest false)
  | case2 argument active hremoved ih =>
    have htail : "--" ∉ active := fun hmem => hactive (List.mem_cons_of_mem _ hmem)
    rcases hremoved with rfl | hassignment
    · rw [List.cons_append, scan_skip_first, scan_true htail hrest]
      exact .inr ⟨[], others active, Plain.skip_cons.symm, rfl⟩
    · rw [List.cons_append, scan_assignment hassignment]
      exact (ih htail).of_others (others_assignment hassignment active)
  | case3 => exact .inl (scan_mode_terminated hrest false)
  | case4 value active hvalue _ ih =>
    rw [List.cons_append, List.cons_append, scan_mode, if_pos hvalue]
    exact (ih fun hmem => hactive (List.mem_cons_of_mem _ hmem)).of_others (others_mode_option hvalue active)
  | case5 value active hvalue _ ih =>
    rw [List.cons_append, List.cons_append, scan_mode, if_neg hvalue]
    exact (ih fun hmem => hactive (List.mem_cons_of_mem _ (List.mem_cons_of_mem _ hmem))).of_others
      (others_mode_value (Bool.not_eq_true _ ▸ hvalue) active)
  | case6 argument active hskip hmode ih =>
    simp only [not_or, Bool.not_eq_true] at hskip
    have hplain : Plain argument := ⟨hskip.1, hmode, hskip.2⟩
    have hterminator : argument ≠ "--" := fun heq => hactive (heq ▸ List.mem_cons_self)
    rw [List.cons_append, scan_other hplain hterminator]
    exact (ih fun hmem => hactive (List.mem_cons_of_mem _ hmem)).cons hplain

/-! ## Normalized arguments -/

theorem activeArguments_append_terminated (arguments : List String) :
    activeArguments arguments ++ terminated arguments = arguments := List.takeWhile_append_dropWhile

theorem terminator_not_active (arguments : List String) : "--" ∉ activeArguments arguments := by
  intro h
  simpa using List.mem_takeWhile_imp h

theorem head_terminated (arguments : List String) : ∀ first ∈ (terminated arguments).head?, first = "--" := by
  intro first hfirst
  by_contra hne
  have hhead := List.head?_dropWhile_not (· ≠ "--") arguments
  rw [terminated] at hfirst
  rw [hfirst] at hhead
  simp [hne] at hhead

/-- Where no `--` stands before what begins with one, it parts the two. -/
theorem active_append {active rest : List String} (hactive : "--" ∉ active) (hrest : ∀ first ∈ rest.head?, first = "--") :
    activeArguments (active ++ rest) = active ∧ terminated (active ++ rest) = rest := by
  have hall : ∀ argument ∈ active, decide (argument ≠ "--") = true := fun argument hmem =>
    decide_eq_true fun heq => hactive (heq ▸ hmem)
  have hstop : rest.takeWhile (· ≠ "--") = [] ∧ rest.dropWhile (· ≠ "--") = rest := by
    cases rest with
    | nil => exact ⟨rfl, rfl⟩
    | cons first rest =>
      obtain rfl := hrest first rfl
      simp
  rw [activeArguments, terminated, List.takeWhile_append_of_pos hall, List.dropWhile_append_of_pos hall, hstop.1, hstop.2,
    List.append_nil]
  exact ⟨rfl, rfl⟩

theorem insertIdx_length {α : Type} (before after : List α) (a : α) :
    (before ++ after).insertIdx before.length a = before ++ a :: after := by
  induction before with
  | nil => rfl
  | cons b before ih => simp [ih]

/-- The three permission arguments, as they are left. -/
def permissionArguments : List String :=
  [claudeSkipPermissionsFlag, claudePermissionModeFlag, claudeBypassPermissionsMode]

/-- The mode and its value are put behind the flag that is found. -/
theorem insert_mode (before after : List String) {rest : List String} (hothers : ∀ argument ∈ before ++ after, Plain argument)
    (hactive : "--" ∉ before ++ after) (hrest : ∀ first ∈ rest.head?, first = "--") :
    let left := before ++ claudeSkipPermissionsFlag :: after ++ rest
    ((activeArguments left).findIdx? (· = claudeSkipPermissionsFlag)).map (fun skip =>
        (left.insertIdx (skip + 1) claudePermissionModeFlag).insertIdx (skip + 2) claudeBypassPermissionsMode) =
      some (before ++ permissionArguments ++ after ++ rest) := by
  intro left
  have hflag : claudeSkipPermissionsFlag ≠ "--" := by decide
  have hleft : "--" ∉ before ++ claudeSkipPermissionsFlag :: after := by
    simp only [List.mem_append, List.mem_cons, not_or] at hactive ⊢
    exact ⟨hactive.1, hflag.symm, hactive.2⟩
  have hbefore : before.findIdx? (· = claudeSkipPermissionsFlag) = none :=
    List.findIdx?_eq_none_iff.mpr fun argument hmem => by
      simp [(hothers argument (List.mem_append_left _ hmem)).skip]
  have hposition : (activeArguments left).findIdx? (· = claudeSkipPermissionsFlag) = some before.length := by
    rw [(active_append hleft hrest).1, List.findIdx?_append, hbefore, List.findIdx?_cons]
    simp
  have hmode : left.insertIdx (before.length + 1) claudePermissionModeFlag =
      (before ++ [claudeSkipPermissionsFlag]) ++ claudePermissionModeFlag :: (after ++ rest) := by
    have hinsert := insertIdx_length (before ++ [claudeSkipPermissionsFlag]) (after ++ rest) claudePermissionModeFlag
    simpa [left] using hinsert
  have hvalue := insertIdx_length (before ++ [claudeSkipPermissionsFlag, claudePermissionModeFlag]) (after ++ rest)
    claudeBypassPermissionsMode
  rw [hposition, Option.map_some, hmode]
  simpa [permissionArguments] using hvalue

/-- **What the normalization makes.** The other arguments keep their order, the
permission arguments stand once among them, and what is terminated stays. -/
theorem normalize_eq (arguments : List String) :
    ∃ before after, before ++ after = others (activeArguments arguments) ∧
      normalizeClaudePermissionArguments arguments =
        some (before ++ permissionArguments ++ after ++ terminated arguments) := by
  have hrest : ∀ first ∈ (terminated arguments).head?, first = "--" := head_terminated arguments
  have hleft := scan_false (terminator_not_active arguments) hrest
  rw [activeArguments_append_terminated] at hleft
  have hplain : ∀ argument ∈ others (activeArguments arguments), Plain argument := fun a ha => (mem_others ha).2
  have hactive : "--" ∉ others (activeArguments arguments) := fun h =>
    terminator_not_active arguments (mem_others h).1
  rw [normalizeClaudePermissionArguments]
  rcases hleft with heq | ⟨before, after, hothers, heq⟩
  · refine ⟨others (activeArguments arguments), [], List.append_nil _, ?_⟩
    have hinsert := insert_mode (others (activeArguments arguments)) [] (by simpa using hplain) (by simpa using hactive) hrest
    rw [heq]
    simp only [insertBeforeOptionTerminator, (active_append hactive hrest).1, (active_append hactive hrest).2]
    exact hinsert
  · refine ⟨before, after, hothers, ?_⟩
    rw [heq]
    exact insert_mode before after (hothers ▸ hplain) (hothers ▸ hactive) hrest

/-- The part before `--` has the three permission arguments, and no other of
their kind. -/
def Normal (active : List String) : Prop :=
  ∃ before after, active = before ++ permissionArguments ++ after ∧ ∀ argument ∈ before ++ after, Plain argument

structure NormalizedFrom (arguments result : List String) : Prop where
  normal : Normal (activeArguments result)
  others : others (activeArguments result) = others (activeArguments arguments)
  terminated : terminated result = terminated arguments
  idempotent : normalizeClaudePermissionArguments result = some result

theorem others_permissionArguments {before after : List String} (h : ∀ argument ∈ before ++ after, Plain argument) :
    others (before ++ permissionArguments ++ after) = before ++ after := by
  have hafter : ∀ argument ∈ after, Plain argument := fun a ha => h a (List.mem_append_right _ ha)
  rw [List.append_assoc, others_plain_append fun a ha => h a (List.mem_append_left _ ha)]
  congr 1
  rw [permissionArguments, List.cons_append, Plain.skip_cons, List.cons_append, List.cons_append,
    others_mode_value (by decide), List.nil_append, others_of_plain hafter]

theorem scan_plain_append {before : List String} (hplain : ∀ argument ∈ before, Plain argument) (hactive : "--" ∉ before)
    (sawSkip : Bool) (rest : List String) :
    scan sawSkip (before ++ rest) = ((scan sawSkip rest).1, before ++ (scan sawSkip rest).2) := by
  induction before with
  | nil => rfl
  | cons argument before ih =>
    simp only [List.mem_cons, not_or] at hactive
    rw [List.cons_append, scan_other (hplain argument List.mem_cons_self) (Ne.symm hactive.1),
      ih (fun a ha => hplain a (List.mem_cons_of_mem _ ha)) hactive.2]
    rfl

/-- Normal arguments are normalized to themselves. -/
theorem normalize_normal {before after rest : List String} (hplain : ∀ argument ∈ before ++ after, Plain argument)
    (hactive : "--" ∉ before ++ after) (hrest : ∀ first ∈ rest.head?, first = "--") :
    normalizeClaudePermissionArguments (before ++ permissionArguments ++ after ++ rest) =
      some (before ++ permissionArguments ++ after ++ rest) := by
  have hbefore : "--" ∉ before := fun h => hactive (List.mem_append_left _ h)
  have hafter : "--" ∉ after := fun h => hactive (List.mem_append_right _ h)
  have hplainAfter : ∀ argument ∈ after, Plain argument := fun a ha => hplain a (List.mem_append_right _ ha)
  have hscan : scan false (before ++ permissionArguments ++ after ++ rest) =
      (true, before ++ claudeSkipPermissionsFlag :: after ++ rest) := by
    rw [List.append_assoc, List.append_assoc,
      scan_plain_append (fun a ha => hplain a (List.mem_append_left _ ha)) hbefore, permissionArguments, List.cons_append,
      scan_skip_first, List.cons_append, List.cons_append, List.nil_append, scan_mode, if_neg (by decide),
      scan_true hafter hrest, others_of_plain hplainAfter, List.append_assoc]
    rfl
  rw [normalizeClaudePermissionArguments, hscan]
  exact insert_mode before after hplain hactive hrest

/-- **The permission arguments are normalized**, whatever the arguments are. -/
theorem normalizedFrom (arguments : List String) :
    ∃ result, normalizeClaudePermissionArguments arguments = some result ∧ NormalizedFrom arguments result := by
  obtain ⟨before, after, hothers, heq⟩ := normalize_eq arguments
  have hrest : ∀ first ∈ (terminated arguments).head?, first = "--" := head_terminated arguments
  have hplain : ∀ argument ∈ before ++ after, Plain argument := fun a ha => (mem_others (hothers ▸ ha)).2
  have hactive : "--" ∉ before ++ after := fun h => terminator_not_active arguments (mem_others (hothers ▸ h)).1
  have hpermission : "--" ∉ before ++ permissionArguments ++ after := by
    have hthree : "--" ∉ permissionArguments := by decide
    simp only [List.mem_append, not_or] at hactive ⊢
    exact ⟨⟨hactive.1, hthree⟩, hactive.2⟩
  obtain ⟨hparted, hterminated⟩ := active_append hpermission hrest
  refine ⟨_, heq, ⟨before, after, hparted, hplain⟩, ?_, hterminated, normalize_normal hplain hactive hrest⟩
  rw [hparted, others_permissionArguments hplain, hothers]

/-! ## Inserted arguments -/

/-- Arguments that start with an option and are none of the permission ones,
nor the terminator. -/
structure Inserted (inserted : List String) : Prop where
  option : ∀ first ∈ inserted.head?, isOption first = true
  plain : ∀ argument ∈ inserted, Plain argument
  active : "--" ∉ inserted

/-- What is inserted follows the other arguments. -/
theorem Inserted.insert {inserted : List String} (h : Inserted inserted) (arguments : List String) :
    others (activeArguments (insertBeforeOptionTerminator arguments inserted)) =
        others (activeArguments arguments) ++ inserted ∧
      terminated (insertBeforeOptionTerminator arguments inserted) = terminated arguments := by
  have hactive : "--" ∉ activeArguments arguments ++ inserted := by
    simp only [List.mem_append, not_or]
    exact ⟨terminator_not_active arguments, h.active⟩
  obtain ⟨hparted, hterminated⟩ := active_append hactive (head_terminated arguments)
  rw [insertBeforeOptionTerminator, hparted, hterminated]
  refine ⟨?_, rfl⟩
  cases hinserted : inserted with
  | nil => rw [List.append_nil, List.append_nil]
  | cons first rest =>
    have hplain : ∀ argument ∈ first :: rest, Plain argument := hinserted ▸ h.plain
    rw [others_append (h.option first (by rw [hinserted]; rfl)), others_of_plain hplain]

theorem not_isModeAssignment {argument : String} {c : Char} (hc : c ∈ "--permission-mode=".toList)
    (h : c ∉ argument.toList) : isModeAssignment argument = false := by
  rw [Bool.eq_false_iff]
  intro hassignment
  exact h ((List.isPrefixOf_iff_prefix.mp hassignment).subset hc)

/-- A valid model id is a mode's value, but where it reads as one of these. -/
theorem plain_model {model : String} (hvalid : validModelId model = true)
    (hskip : model ≠ claudeSkipPermissionsFlag) (hmode : model ≠ claudePermissionModeFlag) : Plain model := by
  refine ⟨hskip, hmode, not_isModeAssignment (c := '=') (by decide) fun hmem => ?_⟩
  simp only [validModelId, Bool.and_eq_true, List.all_eq_true] at hvalid
  exact absurd (hvalid.2 '=' hmem) (by decide)

theorem plain_effort {effort : String} (hvalid : validClaudeEffort effort = true) : Plain effort ∧ effort ≠ "--" := by
  simp only [validClaudeEffort, List.contains_iff_mem, List.mem_cons, List.not_mem_nil, or_false] at hvalid
  rcases hvalid with rfl | rfl | rfl | rfl | rfl <;> exact ⟨⟨by decide, by decide, by decide⟩, by decide⟩

theorem plain_model_flag : Plain "--model" := ⟨by decide, by decide, by decide⟩

theorem plain_effort_flag : Plain "--effort" := ⟨by decide, by decide, by decide⟩

theorem plain_resume_flag : Plain "--resume" := ⟨by decide, by decide, by decide⟩

theorem modeArguments_claude {mode : ProfileMode} {inserted : List String} (h : modeArguments "claude" mode = .ok inserted) :
    validModelId mode.model = true ∧ (inserted = ["--model", mode.model] ∨
      ∃ effort, validClaudeEffort effort = true ∧ inserted = ["--model", mode.model, "--effort", effort]) := by
  rw [modeArguments] at h
  split at h
  · cases h
  next hvalid =>
    refine ⟨by simpa using hvalid, ?_⟩
    rw [if_pos rfl, claudeModeArguments] at h
    split at h
    · cases h
    split at h
    · exact .inl (Except.ok.inj h).symm
    next effort _ =>
      split at h
      next heffort => exact .inr ⟨effort, heffort, (Except.ok.inj h).symm⟩
      · cases h

theorem inserted_mode {mode : ProfileMode} {inserted : List String} (h : modeArguments "claude" mode = .ok inserted)
    (hmodel : mode.model ∉ ["--", claudeSkipPermissionsFlag, claudePermissionModeFlag]) : Inserted inserted := by
  obtain ⟨hvalid, heq⟩ := modeArguments_claude h
  simp only [List.mem_cons, List.not_mem_nil, or_false, not_or] at hmodel
  have hplain := plain_model hvalid hmodel.2.1 hmodel.2.2
  rcases heq with rfl | ⟨effort, heffort, rfl⟩
  · refine ⟨?_, ?_, ?_⟩
    · simp [isOption]
    · simp [plain_model_flag, hplain]
    · simp [Ne.symm hmodel.1]
  · obtain ⟨hplainEffort, hne⟩ := plain_effort heffort
    refine ⟨?_, ?_, ?_⟩
    · simp [isOption]
    · simp [plain_model_flag, plain_effort_flag, hplain, hplainEffort]
    · simp [Ne.symm hmodel.1, Ne.symm hne]

theorem inserted_resume {sessionId : String} {resume : List String} (h : resumeArguments .claude sessionId = .ok resume) :
    Inserted resume := by
  rw [resumeArguments] at h
  split at h
  · cases h
  next hvalid =>
    obtain rfl := Except.ok.inj h
    simp only [not_or, not_not, Bool.not_eq_false, List.all_eq_true] at hvalid
    have hother : ∀ c ∈ ['g', 'm', 'p'], c ∉ sessionId.toList := by
      have hno : ∀ c ∈ ['g', 'm', 'p'], isSessionIdCharacter c = false := by decide
      intro c hc hmem
      exact absurd (hvalid.2 c hmem) (by simp [hno c hc])
    have hskip : sessionId ≠ claudeSkipPermissionsFlag := fun heq => hother 'g' (by decide) (heq ▸ by decide)
    have hmode : sessionId ≠ claudePermissionModeFlag := fun heq => hother 'm' (by decide) (heq ▸ by decide)
    have hplain : Plain sessionId := ⟨hskip, hmode, not_isModeAssignment (c := 'p') (by decide) (hother 'p' (by decide))⟩
    have hne : sessionId ≠ "--" := by
      rintro rfl
      exact absurd hvalid.1 (by decide)
    refine ⟨?_, ?_, ?_⟩
    · simp [resumeSelector, isOption]
    · simp [resumeSelector, plain_resume_flag, hplain]
    · simp [resumeSelector, Ne.symm hne]

/-! ## A relaunch -/

/-- The command line that a relaunch is to have: the profile's environment and
launcher, and normal arguments where the inserted ones follow the profile's
own, the terminator and what follows it left last. -/
def Relaunched (profile : AgentProfile) (inserted invocation : List String) : Prop :=
  ∃ arguments, invocation = ["env"] ++ assignments profile ++ [profile.command] ++ arguments ∧
    Normal (activeArguments arguments) ∧
    others (activeArguments arguments) = others (activeArguments profile.args) ++ inserted ∧
    terminated arguments = terminated profile.args

/-- What is inserted is active, and no permission argument. -/
theorem Relaunched.inserted {profile : AgentProfile} {inserted invocation : List String}
    (h : Relaunched profile inserted invocation) {argument : String} (hmem : argument ∈ inserted) :
    argument ∉ ["--", claudeSkipPermissionsFlag, claudePermissionModeFlag] := by
  obtain ⟨arguments, -, -, hothers, -⟩ := h
  have hactive : argument ∈ others (activeArguments arguments) := by
    rw [hothers]
    exact List.mem_append_right _ hmem
  obtain ⟨hmem, hplain⟩ := mem_others hactive
  have hne : argument ≠ "--" := fun heq => terminator_not_active arguments (heq ▸ hmem)
  simp [hne, hplain.skip, hplain.mode]

theorem normalized_ok {arguments result : List String} (h : normalizeClaudePermissionArguments arguments = some result) :
    normalized arguments = .ok result := by
  rw [normalized, h]

/-- A relaunch of a Claude profile normalizes twice: with the mode's arguments,
and again with those of the conversation. -/
theorem buildNativeRelaunchInvocation_claude {profile : AgentProfile} {mode : ProfileMode} {inserted : List String}
    (hclaude : lowercase profile.harness = "claude") (hmode : modeArguments "claude" mode = .ok inserted)
    (resume : List String) :
    ∃ built result, NormalizedFrom (insertBeforeOptionTerminator profile.args inserted) built ∧
      NormalizedFrom (insertBeforeOptionTerminator built resume) result ∧
      buildNativeRelaunchInvocation profile mode .claude resume =
        .ok (["env"] ++ assignments profile ++ [profile.command] ++ result) := by
  obtain ⟨built, hbuilt, hbuiltFrom⟩ := normalizedFrom (insertBeforeOptionTerminator profile.args inserted)
  obtain ⟨result, hresult, hresultFrom⟩ := normalizedFrom (insertBeforeOptionTerminator built resume)
  refine ⟨built, result, hbuiltFrom, hresultFrom, ?_⟩
  have hmanaged : (exactProfile profile .claude).managed = true := by
    simp [AgentProfile.managed, exactProfile, AgentProfile.effectiveClaudeRelaunchPermissions, hclaude]
  have hwith : withMode (exactProfile profile .claude) profile.args (some mode) =
      .ok (insertBeforeOptionTerminator profile.args inserted) := by
    rw [withMode, hmanaged]
    show (modeArguments (lowercase profile.harness) mode >>= _) = _
    rw [hclaude, hmode]
    rfl
  have hinvocation : buildInvocation (exactProfile profile .claude) (some mode) none =
      .ok (["env"] ++ assignments profile ++ [profile.command] ++ built) := by
    rw [buildInvocation, hmanaged]
    show (withMode (exactProfile profile .claude) profile.args (some mode) >>= _) = _
    rw [hwith]
    show (normalized (insertBeforeOptionTerminator profile.args inserted) >>= _) = _
    rw [normalized_ok hbuilt]
    rfl
  have hstart : (["env"] ++ assignments profile ++ [profile.command]).length = 2 + profile.env.length := by
    simp [assignments]
    omega
  rw [buildNativeRelaunchInvocation, hinvocation]
  show appendNativeResumeArguments (["env"] ++ assignments profile ++ [profile.command] ++ built) _ true resume = _
  rw [appendNativeResumeArguments, if_neg (by simp), ← hstart, List.drop_left, List.take_left, normalized_ok hresult]
  rfl

/-- **The command line of a relaunch.** Normalization is right for all
arguments. A relaunch of a Claude profile inserts the arguments of its mode and
its conversation but where the mode's model id reads as an argument itself. -/
theorem relaunch_right (arguments : List String) (profile : AgentProfile) (mode : ProfileMode) (sessionId : String)
    (inserted resume : List String) :
    (∃ result, normalizeClaudePermissionArguments arguments = some result ∧ NormalizedFrom arguments result) ∧
      (lowercase profile.harness = "claude" → modeArguments "claude" mode = .ok inserted →
        resumeArguments .claude sessionId = .ok resume →
        ∃ invocation, buildNativeRelaunchInvocation profile mode .claude resume = .ok invocation ∧
          (Relaunched profile (inserted ++ resume) invocation ↔
            mode.model ∉ ["--", claudeSkipPermissionsFlag, claudePermissionModeFlag])) := by
  refine ⟨normalizedFrom arguments, ?_⟩
  intro hclaude hmode hresume
  obtain ⟨built, result, hbuilt, hresult, hinvocation⟩ := buildNativeRelaunchInvocation_claude hclaude hmode resume
  refine ⟨_, hinvocation, ?_, ?_⟩
  · intro hrelaunched
    have hmodel : mode.model ∈ inserted ++ resume := by
      obtain ⟨-, rfl | ⟨effort, -, rfl⟩⟩ := modeArguments_claude hmode <;> simp
    exact hrelaunched.inserted hmodel
  · intro hmodel
    obtain ⟨hmodeOthers, hmodeRest⟩ := (inserted_mode hmode hmodel).insert profile.args
    obtain ⟨hresumeOthers, hresumeRest⟩ := (inserted_resume hresume).insert built
    refine ⟨result, rfl, hresult.normal, ?_, ?_⟩
    · rw [hresult.others, hresumeOthers, hbuilt.others, hmodeOthers, List.append_assoc]
    · rw [hresult.terminated, hresumeRest, hbuilt.terminated, hmodeRest]

/-- A profile, a conversation and the mode of this model. -/
def claudeProfile : AgentProfile :=
  { harness := "ClAuDe", command := "claude", args := [], env := [("K", "v")], claudeRelaunchPermissions := none }

def savedSession : String := "33333333-3333-3333-3333-333333333333"

def modeOf (model : String) : ProfileMode :=
  { id := "mode", label := none, model, effort := some "high", serviceTier := none }

theorem relaunch_right_example :
    ∃ invocation, buildNativeRelaunchInvocation claudeProfile (modeOf "opus") .claude ["--resume", savedSession] =
        .ok invocation ∧
      (Relaunched claudeProfile (["--model", "opus", "--effort", "high"] ++ ["--resume", savedSession]) invocation ↔
        (modeOf "opus").model ∉ ["--", claudeSkipPermissionsFlag, claudePermissionModeFlag]) :=
  have hresume : resumeArguments .claude savedSession = .ok ["--resume", savedSession] := rfl
  (relaunch_right [] claudeProfile (modeOf "opus") savedSession _ _).2 (by decide) rfl hresume

/-- The model id `--` ends the options before the mode's effort. -/
theorem relaunch_terminator :
    buildNativeRelaunchInvocation claudeProfile (modeOf "--") .claude ["--resume", savedSession] =
        .ok ["env", "K=v", "claude", "--model", "--dangerously-skip-permissions", "--permission-mode", "bypassPermissions",
          "--resume", savedSession, "--", "--effort", "high"] ∧
      ¬ Relaunched claudeProfile (["--model", "--", "--effort", "high"] ++ ["--resume", savedSession])
        ["env", "K=v", "claude", "--model", "--dangerously-skip-permissions", "--permission-mode", "bypassPermissions",
          "--resume", savedSession, "--", "--effort", "high"] := by
  refine ⟨by decide, fun h => ?_⟩
  have hne : "--" ∉ ["--", claudeSkipPermissionsFlag, claudePermissionModeFlag] := h.inserted (by simp)
  simp at hne

end Atmux.Invocation
