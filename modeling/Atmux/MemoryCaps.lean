/-
The memory cap of an agent: what the machine that owns it allows, what that
machine advertises, and what a coordinator lets through to it.

The owner takes its policy and then the ceiling of its host, which is strict.
What it advertises is the largest whole number of GiB below both, and the
coordinator takes the advertised policy alone. `memory_caps_agree`: for a
request other than the default the two are the same check.
-/
import Mathlib.Order.Fin.Basic
import Atmux.Lib.Result
import Atmux.Lib.SortedMap

namespace Atmux.Resources

open Lib

abbrev U64 := Fin 0x10000000000000000

namespace U64

def max : U64 := ⟨0xffffffffffffffff, by decide⟩

theorem not_max_lt (a : U64) : ¬ max < a := by
  rw [Fin.lt_def]
  have hmax : max.val = 0xffffffffffffffff := rfl
  have hlt := a.isLt
  omega

def saturatingSub (a b : U64) : U64 := ⟨a.val - b.val, by omega⟩

def checkedDiv (a b : U64) : Option U64 := if b = 0 then none else some (a / b)

def saturatingMul (a b : U64) : U64 := if h : a.val * b.val < 0x10000000000000000 then ⟨a.val * b.val, h⟩ else max

end U64

def gibibyte : U64 := ⟨1024 * 1024 * 1024, by decide⟩

def isMultipleOfGib (bytes : U64) : Bool := bytes.val % gibibyte.val == 0

structure AgentResourcesConfig where
  memoryMaxBytes : Option U64
  memoryOverrideMaxBytes : Option U64
deriving DecidableEq

/-! ## The owner's policy -/

namespace AgentResourcesConfig

/-- One value of the policy, under its key. -/
def validateValue (key : String) (value : Option U64) : Except String Unit := do
  if value = some 0 then throw ("[agent_resources]." ++ key ++ " must be greater than zero")
  if value = some U64.max then
    throw ("[agent_resources]." ++ key ++ " cannot be u64::MAX because systemd treats it as infinity")

/-- Overrides are above a default. -/
def validateShape (resources : AgentResourcesConfig) : Except String Unit :=
  match resources.memoryMaxBytes, resources.memoryOverrideMaxBytes with
  | none, some _ => .error "[agent_resources].memory_override_max_bytes requires memory_max_bytes"
  | some default, some ceiling =>
    if ceiling < default then
      .error "[agent_resources].memory_max_bytes must not exceed memory_override_max_bytes"
    else .ok ()
  | _, none => .ok ()

def validate (resources : AgentResourcesConfig) : Except String Unit := do
  validateValue "memory_max_bytes" resources.memoryMaxBytes
  validateValue "memory_override_max_bytes" resources.memoryOverrideMaxBytes
  resources.validateShape
  if resources.memoryOverrideMaxBytes.any fun ceiling => !isMultipleOfGib ceiling then
    throw "[agent_resources].memory_override_max_bytes must be a whole number of GiB"

end AgentResourcesConfig

/-- A configuration that was loaded. -/
structure OwnerPolicy extends AgentResourcesConfig where
  valid : toAgentResourcesConfig.validate = .ok ()

/-- Applies a policy to one request; no request is for the default. -/
def resolveMemoryMax (resources : AgentResourcesConfig) (requested : Option U64) : Except String (Option U64) :=
  match requested with
  | none => .ok resources.memoryMaxBytes
  | some requested =>
    if requested = 0 then .error "requested agent MemoryMax must be greater than zero"
    else if requested = U64.max then .error "requested agent MemoryMax cannot be infinity"
    else
      match resources.memoryMaxBytes with
      | none => .error "this machine does not enable per-agent memory isolation"
      | some default =>
        if requested = default then .ok (some requested)
        else
          match resources.memoryOverrideMaxBytes with
          | none => .error "this machine does not allow per-agent memory overrides"
          | some ceiling =>
            if !isMultipleOfGib requested then .error "agent memory overrides must be a whole number of GiB"
            else if ceiling < requested then
              .error ("requested agent MemoryMax=" ++ toString requested.val ++
                " exceeds the configured override ceiling of " ++ toString ceiling.val ++ " bytes")
            else .ok (some requested)

def validateEffectiveCeiling (memoryMaxBytes effectiveCeiling : U64) : Except String Unit :=
  if effectiveCeiling = 0 then .error "the effective host/cgroup memory ceiling is zero"
  else if effectiveCeiling ≤ memoryMaxBytes then
    .error ("agent MemoryMax=" ++ toString memoryMaxBytes.val ++
      " must be below the effective host/cgroup memory ceiling of " ++ toString effectiveCeiling.val ++ " bytes")
  else .ok ()

/-- The owner's check of one request, up to the preparation of its scope: the
cap the scope is to have, or no scope. The host's ceiling may not be known. -/
def prepareOverride (resources : AgentResourcesConfig) (requested : Option U64) (hostCeiling : Except String U64) :
    Except String (Option U64) := do
  match ← resolveMemoryMax resources requested with
  | none => pure none
  | some memoryMaxBytes =>
    if memoryMaxBytes = 0 then throw "[agent_resources].memory_max_bytes must be greater than zero"
    if memoryMaxBytes = U64.max then
      throw "agent MemoryMax cannot be u64::MAX because systemd treats it as infinity"
    validateEffectiveCeiling memoryMaxBytes (← hostCeiling)
    pure (some memoryMaxBytes)

/-! ## What the owner advertises -/

/-- The largest whole number of GiB within the policy and below the host's ceiling. -/
def clampAdvertisedOverrideCeiling (configured effectiveHostCeiling : U64) : Option U64 :=
  let strictWholeGib := U64.saturatingMul (((effectiveHostCeiling.saturatingSub 1).checkedDiv gibibyte).getD 0) gibibyte
  if 0 < strictWholeGib then some (min configured strictWholeGib) else none

def advertisedOverrideCeiling (resources : AgentResourcesConfig) (hostCeiling : Except String U64) :
    Except String (Option U64) :=
  match resources.memoryOverrideMaxBytes with
  | none => .ok none
  | some configured => hostCeiling.map fun effective => clampAdvertisedOverrideCeiling configured effective

structure AgentMemoryLaunchOptions where
  supported : Bool
  defaultBytes : Option U64
  overrideMaxBytes : Option U64
  presetsBytes : List U64
  note : Option String

def presetGibs : List U64 := [2, 4, 8, 12, 16, 24, 32, 48, 64, 96, 128]

/-- `BTreeSet::insert` -/
def insertPreset (presets : SortedMap U64 Unit) (bytes : U64) : SortedMap U64 Unit := presets.insert bytes ()

/-- The presets up to an advertised ceiling, with the default when it is one of them. -/
def presets (default : Option U64) (ceiling : U64) : SortedMap U64 Unit :=
  let standard := (presetGibs.map fun gib => gib.saturatingMul gibibyte).foldl
    (fun presets bytes => if bytes ≤ ceiling then insertPreset presets bytes else presets) SortedMap.empty
  match default with
  | some default => if default ≤ ceiling then insertPreset standard default else standard
  | none => standard

def presetsUpTo (default ceiling : Option U64) : List U64 :=
  match ceiling with
  | some ceiling => (presets default ceiling).entries.map Prod.fst
  | none => []

/-- The advertised ceiling, and whether it could not be found. -/
def checkedOverrideCeiling (resources : AgentResourcesConfig) (hostCeiling : Except String U64) : Option U64 × Bool :=
  match advertisedOverrideCeiling resources hostCeiling with
  | .ok ceiling => (ceiling, false)
  | .error _ => (none, resources.memoryOverrideMaxBytes.isSome)

/-- What a Linux machine advertises. -/
def agentMemoryLaunchOptions (resources : AgentResourcesConfig) (hostCeiling : Except String U64) :
    AgentMemoryLaunchOptions :=
  let checked := checkedOverrideCeiling resources hostCeiling
  { supported := resources.memoryMaxBytes.isSome
    defaultBytes := resources.memoryMaxBytes
    overrideMaxBytes := checked.1
    presetsBytes := presetsUpTo resources.memoryMaxBytes checked.1
    note := some (
      if checked.2 then
        "Per-launch memory overrides are unavailable because the effective host/cgroup ceiling could not be verified."
      else if resources.memoryMaxBytes.isNone then "Per-agent memory limits are not enabled on this machine."
      else if checked.1.isNone then
        "This machine enforces its default cap; per-launch overrides are not enabled."
      else
        "Changes apply on the next launch or relaunch; running cgroups are never mutated in place.") }

/-- A coordinator's check of one request, by what the machine has advertised. -/
def ensureRemoteMemoryRequestAdvertised (machine : String) (advertised : Option AgentMemoryLaunchOptions)
    (requested : U64) : Except String Unit :=
  match advertised.filter AgentMemoryLaunchOptions.supported with
  | none => .error ("machine " ++ machine ++
      " has not advertised per-agent memory override support; update that owner or use its Default limit")
  | some memory =>
    match resolveMemoryMax ⟨memory.defaultBytes, memory.overrideMaxBytes⟩ (some requested) with
    | .ok _ => .ok ()
    | .error error => .error ("machine " ++ machine ++ " did not advertise that memory limit: " ++ error)

/-! ## Both checks -/

/-- What a policy allows of a request. -/
structure Allowed (resources : AgentResourcesConfig) (requested : U64) : Prop where
  positive : requested ≠ 0
  finite : requested ≠ U64.max
  policy : ∃ default, resources.memoryMaxBytes = some default ∧ (requested = default ∨
    ∃ ceiling, resources.memoryOverrideMaxBytes = some ceiling ∧ isMultipleOfGib requested = true ∧ requested ≤ ceiling)

theorem resolveMemoryMax_iff {resources : AgentResourcesConfig} {requested : U64} {cap : Option U64} :
    resolveMemoryMax resources (some requested) = .ok cap ↔ cap = some requested ∧ Allowed resources requested := by
  have hallowed : resolveMemoryMax resources (some requested) = .ok (some requested) ↔ Allowed resources requested := by
    rw [resolveMemoryMax]
    constructor
    · intro h
      split at h
      · cases h
      next hpositive =>
      split at h
      · cases h
      next hfinite =>
      split at h
      · cases h
      next default hdefault =>
      split at h
      next heq => exact ⟨hpositive, hfinite, default, hdefault, .inl heq⟩
      · split at h
        · cases h
        next ceiling hceiling =>
        split at h
        · cases h
        next hwhole =>
        split at h
        · cases h
        next hle =>
          exact ⟨hpositive, hfinite, default, hdefault, .inr ⟨ceiling, hceiling, by simpa using hwhole, not_lt.1 hle⟩⟩
    · rintro ⟨hpositive, hfinite, default, hdefault, heq | ⟨ceiling, hceiling, hwhole, hle⟩⟩
      · simp only [if_neg hpositive, if_neg hfinite, hdefault, if_pos heq]
      · simp only [if_neg hpositive, if_neg hfinite, hdefault, hceiling, hwhole, Bool.not_true, Bool.false_eq_true, if_false,
          if_neg (not_lt.2 hle), ite_self]
  constructor
  · intro h
    have hcap : cap = some requested := by
      rw [resolveMemoryMax] at h
      repeat' split at h
      all_goals cases h
      all_goals rfl
    rw [hcap] at h
    exact ⟨hcap, hallowed.1 h⟩
  · rintro ⟨rfl, h⟩
    exact hallowed.2 h

theorem validateEffectiveCeiling_iff {bytes effective : U64} :
    validateEffectiveCeiling bytes effective = .ok () ↔ bytes < effective := by
  rw [validateEffectiveCeiling]
  split
  next hzero =>
    rw [hzero]
    exact ⟨fun h => (by cases h), fun h => absurd h (Fin.not_lt_zero bytes)⟩
  · split
    next hle => exact ⟨fun h => (by cases h), fun h => absurd h (not_lt.2 hle)⟩
    next hle => exact ⟨fun _ => not_le.1 hle, fun _ => rfl⟩

theorem prepareOverride_iff {resources : AgentResourcesConfig} {requested effective : U64} {cap : Option U64} :
    prepareOverride resources (some requested) (.ok effective) = .ok cap ↔
      cap = some requested ∧ Allowed resources requested ∧ requested < effective := by
  constructor
  · intro h
    rw [prepareOverride] at h
    obtain ⟨resolved, hresolved, h⟩ := bind_ok h
    obtain ⟨rfl, hallowed⟩ := resolveMemoryMax_iff.1 hresolved
    dsimp only at h
    obtain ⟨-, h⟩ := guard_ok h
    obtain ⟨-, h⟩ := guard_ok h
    obtain ⟨host, hhost, h⟩ := bind_ok h
    obtain rfl := Except.ok.inj hhost
    obtain ⟨_, hbelow, h⟩ := bind_ok h
    obtain rfl := Except.ok.inj h
    exact ⟨rfl, hallowed, validateEffectiveCeiling_iff.1 hbelow⟩
  · rintro ⟨rfl, hallowed, hbelow⟩
    have hresolved := resolveMemoryMax_iff.2 ⟨rfl, hallowed⟩
    simp only [prepareOverride, hresolved, bind, Except.bind, pure, Except.pure, if_neg hallowed.positive,
      if_neg hallowed.finite, validateEffectiveCeiling_iff.2 hbelow]

variable {configured effective ceiling requested : U64}

/-- The whole GiB below a host's ceiling. -/
theorem strictWholeGib_val (effective : U64) :
    (U64.saturatingMul (((effective.saturatingSub 1).checkedDiv gibibyte).getD 0) gibibyte).val =
      (effective.val - 1) / gibibyte.val * gibibyte.val := by
  have hgib : gibibyte ≠ 0 := by decide
  have hdiv : (((effective.saturatingSub 1).checkedDiv gibibyte).getD 0).val = (effective.val - 1) / gibibyte.val := by
    rw [U64.checkedDiv, if_neg hgib, Option.getD_some, Fin.div_val]
    rfl
  have hfits : (effective.val - 1) / gibibyte.val * gibibyte.val < 0x10000000000000000 :=
    lt_of_le_of_lt ((Nat.div_mul_le_self _ _).trans (Nat.sub_le _ _)) effective.isLt
  rw [U64.saturatingMul, hdiv, dif_pos hfits]

/-- The advertised ceiling is within the policy and below the host's ceiling. -/
theorem clamp_bounds (h : clampAdvertisedOverrideCeiling configured effective = some ceiling) :
    ceiling ≤ configured ∧ ceiling < effective := by
  rw [clampAdvertisedOverrideCeiling] at h
  split at h
  next hpositive =>
    obtain rfl := Option.some.inj h
    refine ⟨min_le_left _ _, lt_of_le_of_lt (min_le_right _ _) ?_⟩
    rw [Fin.lt_def, strictWholeGib_val] at hpositive ⊢
    have hbelow := Nat.div_mul_le_self (effective.val - 1) gibibyte.val
    have hzero : (0 : U64).val = 0 := rfl
    omega
  · cases h

/-- Whole GiB within both are within the advertised ceiling. -/
theorem le_clamp (hpositive : requested ≠ 0) (hwhole : isMultipleOfGib requested = true) (hconfigured : requested ≤ configured)
    (heffective : requested < effective) :
    ∃ ceiling, clampAdvertisedOverrideCeiling configured effective = some ceiling ∧ requested ≤ ceiling := by
  have hdvd : gibibyte.val ∣ requested.val := Nat.dvd_of_mod_eq_zero (by simpa [isMultipleOfGib] using hwhole)
  have hstrict : requested.val ≤ (effective.val - 1) / gibibyte.val * gibibyte.val := by
    rw [← Nat.div_mul_cancel hdvd]
    have hbelow : requested.val ≤ effective.val - 1 := by
      rw [Fin.lt_def] at heffective
      omega
    exact Nat.mul_le_mul_right _ (Nat.div_le_div_right hbelow)
  have hle : requested ≤ U64.saturatingMul (((effective.saturatingSub 1).checkedDiv gibibyte).getD 0) gibibyte := by
    rw [Fin.le_def, strictWholeGib_val]
    exact hstrict
  have hnonzero : 0 < U64.saturatingMul (((effective.saturatingSub 1).checkedDiv gibibyte).getD 0) gibibyte :=
    lt_of_lt_of_le (Fin.pos_iff_ne_zero.2 hpositive) hle
  exact ⟨_, if_pos hnonzero, le_min hconfigured hle⟩

/-! ### Presets -/

theorem mem_insertPreset {presets : SortedMap U64 Unit} {bytes preset : U64}
    (h : preset ∈ Entries.keys (insertPreset presets bytes).entries) : preset = bytes ∨ preset ∈ Entries.keys presets.entries := by
  obtain ⟨value, hmem⟩ := Entries.mem_keys.1 h
  rcases Entries.mem_insert hmem with heq | hmem
  · exact .inl (congrArg Prod.fst heq)
  · exact .inr (Entries.mem_keys.2 ⟨value, hmem⟩)

theorem mem_foldl_insertPreset {standard : List U64} {start : SortedMap U64 Unit} {preset : U64}
    (h : preset ∈ Entries.keys (standard.foldl
      (fun presets bytes => if bytes ≤ ceiling then insertPreset presets bytes else presets) start).entries) :
    (preset ∈ standard ∧ preset ≤ ceiling) ∨ preset ∈ Entries.keys start.entries := by
  induction standard generalizing start with
  | nil => exact .inr h
  | cons bytes standard ih =>
    rw [List.foldl_cons] at h
    rcases ih h with ⟨hmem, hle⟩ | hmem
    · exact .inl ⟨List.mem_cons_of_mem _ hmem, hle⟩
    · by_cases hle : bytes ≤ ceiling
      · rw [if_pos hle] at hmem
        rcases mem_insertPreset hmem with rfl | hmem
        · exact .inl ⟨List.mem_cons_self, hle⟩
        · exact .inr hmem
      · rw [if_neg hle] at hmem
        exact .inr hmem

theorem whole_of_preset {gib : U64} (h : gib ∈ presetGibs) :
    gib.saturatingMul gibibyte ≠ 0 ∧ isMultipleOfGib (gib.saturatingMul gibibyte) = true := by
  have hrange : 0 < gib.val ∧ gib.val ≤ 128 := by
    simp only [presetGibs, List.mem_cons, List.not_mem_nil, or_false] at h
    rcases h with rfl | rfl | rfl | rfl | rfl | rfl | rfl | rfl | rfl | rfl | rfl <;> exact ⟨by decide, by decide⟩
  have hgib : gibibyte.val = 1073741824 := rfl
  have hval : (gib.saturatingMul gibibyte).val = gib.val * gibibyte.val := by
    have hfits : gib.val * gibibyte.val < 0x10000000000000000 := by
      rw [hgib]
      omega
    rw [U64.saturatingMul, dif_pos hfits]
  constructor
  · intro hzero
    have hzero := congrArg Fin.val hzero
    rw [hval, hgib] at hzero
    have : (0 : U64).val = 0 := rfl
    omega
  · rw [isMultipleOfGib, hval, Nat.mul_mod_left]
    rfl

/-- A preset is the default or a whole number of GiB, within the advertised ceiling. -/
theorem mem_presets {default : Option U64} {preset : U64} (h : preset ∈ (presets default ceiling).entries.map Prod.fst) :
    preset ≤ ceiling ∧ (default = some preset ∨ preset ≠ 0 ∧ isMultipleOfGib preset = true) := by
  have hwhole : ∀ bytes ∈ presetGibs.map fun gib => gib.saturatingMul gibibyte, bytes ≠ 0 ∧ isMultipleOfGib bytes = true := by
    intro bytes hbytes
    obtain ⟨gib, hgib, rfl⟩ := List.mem_map.1 hbytes
    exact whole_of_preset hgib
  have hstandard : ∀ preset, preset ∈ Entries.keys ((presetGibs.map fun gib => gib.saturatingMul gibibyte).foldl
      (fun presets bytes => if bytes ≤ ceiling then insertPreset presets bytes else presets) SortedMap.empty).entries →
      preset ≤ ceiling ∧ (default = some preset ∨ preset ≠ 0 ∧ isMultipleOfGib preset = true) := by
    intro preset h
    rcases mem_foldl_insertPreset h with ⟨hmem, hle⟩ | hmem
    · exact ⟨hle, .inr (hwhole preset hmem)⟩
    · cases hmem
  unfold presets at h
  cases default with
  | none => exact hstandard preset h
  | some bytes =>
    dsimp only at h
    split at h
    next hle =>
      rcases mem_insertPreset h with rfl | hmem
      · exact ⟨hle, .inl rfl⟩
      · exact hstandard preset hmem
    · exact hstandard preset h

theorem checkedOverrideCeiling_ok (resources : AgentResourcesConfig) (effective : U64) :
    checkedOverrideCeiling resources (.ok effective) =
      (resources.memoryOverrideMaxBytes.bind fun configured => clampAdvertisedOverrideCeiling configured effective, false) := by
  rw [checkedOverrideCeiling, advertisedOverrideCeiling]
  cases resources.memoryOverrideMaxBytes with
  | none => rfl
  | some configured =>
    -- for any clamp, lest the one at hand be computed
    have hclamp : ∀ clamp : U64 → U64 → Option U64,
        (match ((.ok effective : Except String U64).map fun effective => clamp configured effective) with
          | .ok ceiling => (ceiling, false)
          | .error _ => (none, (some configured).isSome)) =
        ((some configured).bind fun configured => clamp configured effective, false) := fun _ => rfl
    exact hclamp clampAdvertisedOverrideCeiling

theorem mem_presetsBytes {resources : AgentResourcesConfig} {preset : U64}
    (h : preset ∈ (agentMemoryLaunchOptions resources (.ok effective)).presetsBytes) :
    ∃ ceiling, (resources.memoryOverrideMaxBytes.bind fun configured =>
      clampAdvertisedOverrideCeiling configured effective) = some ceiling ∧
        preset ∈ (presets resources.memoryMaxBytes ceiling).entries.map Prod.fst := by
  have hpresets : (agentMemoryLaunchOptions resources (.ok effective)).presetsBytes =
      presetsUpTo resources.memoryMaxBytes (checkedOverrideCeiling resources (.ok effective)).1 := rfl
  rw [hpresets, checkedOverrideCeiling_ok] at h
  cases hceiling : resources.memoryOverrideMaxBytes.bind fun configured =>
      clampAdvertisedOverrideCeiling configured effective with
  | none =>
    rw [hceiling] at h
    cases h
  | some ceiling =>
    rw [hceiling] at h
    exact ⟨ceiling, rfl, h⟩

/-! ### Owner and coordinator -/

namespace OwnerPolicy

variable {policy : OwnerPolicy}

theorem checked (policy : OwnerPolicy) : policy.memoryMaxBytes ≠ some 0 ∧ policy.memoryMaxBytes ≠ some U64.max ∧
    (∀ ceiling, policy.memoryOverrideMaxBytes = some ceiling →
      ∃ default, policy.memoryMaxBytes = some default ∧ default ≤ ceiling) := by
  have hvalid := policy.valid
  rw [AgentResourcesConfig.validate] at hvalid
  obtain ⟨_, hdefault, hvalid⟩ := bind_ok hvalid
  obtain ⟨_, -, hvalid⟩ := bind_ok hvalid
  obtain ⟨_, hshape, -⟩ := bind_ok hvalid
  rw [AgentResourcesConfig.validateValue] at hdefault
  obtain ⟨hpositive, hdefault⟩ := guard_ok hdefault
  refine ⟨hpositive, fun hmax => ?_, fun ceiling hceiling => ?_⟩
  · rw [if_pos hmax] at hdefault
    cases hdefault
  · rw [AgentResourcesConfig.validateShape, hceiling] at hshape
    cases hmemory : policy.memoryMaxBytes with
    | none =>
      rw [hmemory] at hshape
      cases hshape
    | some default =>
      rw [hmemory] at hshape
      refine ⟨default, rfl, not_lt.1 fun hlt => ?_⟩
      dsimp only at hshape
      rw [if_pos hlt] at hshape
      cases hshape

end OwnerPolicy

/-- What the coordinator lets through is allowed by the advertised policy. -/
theorem ensure_iff {resources : AgentResourcesConfig} {machine : String} :
    ensureRemoteMemoryRequestAdvertised machine (some (agentMemoryLaunchOptions resources (.ok effective))) requested = .ok () ↔
      Allowed ⟨resources.memoryMaxBytes, resources.memoryOverrideMaxBytes.bind fun configured =>
        clampAdvertisedOverrideCeiling configured effective⟩ requested := by
  have hceiling : (agentMemoryLaunchOptions resources (.ok effective)).overrideMaxBytes =
      resources.memoryOverrideMaxBytes.bind fun configured => clampAdvertisedOverrideCeiling configured effective :=
    congrArg Prod.fst (checkedOverrideCeiling_ok resources effective)
  have hdefault : (agentMemoryLaunchOptions resources (.ok effective)).defaultBytes = resources.memoryMaxBytes := rfl
  have hsupported : (agentMemoryLaunchOptions resources (.ok effective)).supported = resources.memoryMaxBytes.isSome := rfl
  rw [ensureRemoteMemoryRequestAdvertised, ← hceiling, ← hdefault]
  cases hmemory : resources.memoryMaxBytes with
  | none =>
    rw [Option.filter, hsupported, hmemory]
    constructor
    · intro h
      cases h
    · rintro ⟨-, -, default, hsome, -⟩
      rw [hdefault, hmemory] at hsome
      cases hsome
  | some default =>
    rw [Option.filter, hsupported, hmemory]
    dsimp only [Option.isSome_some, if_true]
    rw [if_pos rfl]
    dsimp only
    constructor
    · intro h
      split at h
      next hok => exact (resolveMemoryMax_iff.1 hok).2
      · cases h
    · intro h
      rw [resolveMemoryMax_iff.2 ⟨rfl, h⟩]

/-- **Coordinator and owner agree** on every request but the default; the owner
takes every preset it advertises; and no cap it takes is out of bounds. -/
theorem memory_caps_agree (policy : OwnerPolicy) (effective : U64) (machine : String) (requested : U64) :
    (policy.memoryMaxBytes ≠ some requested →
      (ensureRemoteMemoryRequestAdvertised machine
          (some (agentMemoryLaunchOptions policy.toAgentResourcesConfig (.ok effective))) requested = .ok () ↔
        prepareOverride policy.toAgentResourcesConfig (some requested) (.ok effective) = .ok (some requested))) ∧
    (∀ preset ∈ (agentMemoryLaunchOptions policy.toAgentResourcesConfig (.ok effective)).presetsBytes,
      prepareOverride policy.toAgentResourcesConfig (some preset) (.ok effective) = .ok (some preset)) ∧
    (∀ accepted, prepareOverride policy.toAgentResourcesConfig (some requested) (.ok effective) = .ok accepted →
      accepted = some requested ∧ requested ≠ 0 ∧ requested ≠ U64.max ∧ requested < effective ∧
      (policy.memoryMaxBytes = some requested ∨ policy.memoryOverrideMaxBytes ≠ none) ∧
      ∀ ceiling, policy.memoryOverrideMaxBytes = some ceiling → requested ≤ ceiling) := by
  obtain ⟨hpositive, hfinite, hceilings⟩ := policy.checked
  refine ⟨fun hother => ?_, fun preset hpreset => ?_, fun accepted haccepted => ?_⟩
  · rw [ensure_iff, prepareOverride_iff]
    constructor
    · rintro ⟨hzero, hmax, default, hdefault, heq | ⟨ceiling, hclamp, hwhole, hle⟩⟩
      · exact absurd (hdefault.trans (congrArg some heq.symm)) hother
      · obtain ⟨configured, hconfigured, hclamp⟩ := Option.bind_eq_some_iff.1 hclamp
        obtain ⟨hwithin, hbelow⟩ := clamp_bounds hclamp
        exact ⟨rfl, ⟨hzero, hmax, default, hdefault, .inr ⟨configured, hconfigured, hwhole, hle.trans hwithin⟩⟩,
          lt_of_le_of_lt hle hbelow⟩
    · rintro ⟨-, ⟨hzero, hmax, default, hdefault, heq | ⟨configured, hconfigured, hwhole, hle⟩⟩, hbelow⟩
      · exact absurd (hdefault.trans (congrArg some heq.symm)) hother
      · obtain ⟨ceiling, hclamp, hwithin⟩ := le_clamp hzero hwhole hle hbelow
        exact ⟨hzero, hmax, default, hdefault, .inr ⟨ceiling,
          Option.bind_eq_some_iff.2 ⟨configured, hconfigured, hclamp⟩, hwhole, hwithin⟩⟩
  · rw [prepareOverride_iff]
    obtain ⟨ceiling, hceiling, hmem⟩ := mem_presetsBytes hpreset
    obtain ⟨configured, hconfigured, hclamp⟩ := Option.bind_eq_some_iff.1 hceiling
    obtain ⟨hwithin, hbelow⟩ := clamp_bounds hclamp
    obtain ⟨default, hdefault, -⟩ := hceilings configured hconfigured
    obtain ⟨hle, hkind⟩ := mem_presets hmem
    have hmax : preset ≠ U64.max := fun heq => U64.not_max_lt effective (heq ▸ lt_of_le_of_lt hle hbelow)
    refine ⟨rfl, ?_, lt_of_le_of_lt hle hbelow⟩
    rcases hkind with heq | ⟨hzero, hwhole⟩
    · have hzero : preset ≠ 0 := fun hzero => hpositive (by rw [heq, hzero])
      exact ⟨hzero, hmax, preset, heq, .inl rfl⟩
    · exact ⟨hzero, hmax, default, hdefault, .inr ⟨configured, hconfigured, hwhole, hle.trans hwithin⟩⟩
  · obtain ⟨haccepted, ⟨hzero, hmax, default, hdefault, hpolicy⟩, hbelow⟩ := prepareOverride_iff.1 haccepted
    refine ⟨haccepted, hzero, hmax, hbelow, ?_, fun ceiling hceiling => ?_⟩
    · rcases hpolicy with heq | ⟨configured, hconfigured, -⟩
      · exact .inl (hdefault.trans (congrArg some heq.symm))
      · exact .inr (by rw [hconfigured]; exact Option.some_ne_none _)
    · rcases hpolicy with heq | ⟨configured, hconfigured, -, hle⟩
      · obtain ⟨default', hdefault', hle⟩ := hceilings ceiling hceiling
        obtain rfl := Option.some.inj (hdefault.symm.trans hdefault')
        rw [heq]
        exact hle
      · obtain rfl := Option.some.inj (hceiling.symm.trans hconfigured)
        exact hle

end Atmux.Resources
