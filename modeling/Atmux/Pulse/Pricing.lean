/-
The price of a model and its settings: `resolve_pricing`.

Of the rules of one list that fit the vendor and the model, those with the
longest pattern are looked at, and of these the one with the most settings that
all hold. A longer pattern whose settings do not hold therefore hides a shorter
one. `selectRule_iff` says which rule is found in terms of the list as a set;
what does not change that set's part that fits changes nothing
(`pricing_resolved`).
-/
import Mathlib.Data.List.Nodup
import Atmux.Lib.Largest
import Atmux.Pulse.Model

namespace Atmux.Pulse

open Lib

structure PricingRule where
  key : String
  vendor : Vendor
  modelPattern : String
  settingsMatch : SortedMap String String
  inputPerMillionUsd : F64
  outputPerMillionUsd : F64
  cacheWrite5mPerMillionUsd : F64
  cacheWrite1hPerMillionUsd : F64
  cacheReadPerMillionUsd : F64
deriving DecidableEq

/-- The five independently billed token classes, in USD per million tokens. -/
structure PricingRate where
  input : F64
  output : F64
  cacheWrite5m : F64
  cacheWrite1h : F64
  cacheRead : F64
deriving DecidableEq, Repr

namespace PricingRate

/-- 3.0, 15.0, 3.75, 6.0 and 0.3. -/
def fallback : PricingRate :=
  ⟨0x4008000000000000, 0x402e000000000000, 0x400e000000000000, 0x4018000000000000, 0x3fd3333333333333⟩

def fromRule (rule : PricingRule) : PricingRate :=
  ⟨rule.inputPerMillionUsd, rule.outputPerMillionUsd, rule.cacheWrite5mPerMillionUsd, rule.cacheWrite1hPerMillionUsd,
    rule.cacheReadPerMillionUsd⟩

end PricingRate

/-- Where an effective rate came from. -/
inductive PricingOrigin
  | accountOverride
  | authoritativeDefault
  | fallback
deriving DecidableEq, Repr

structure ResolvedPricing where
  rate : PricingRate
  known : Bool
  origin : PricingOrigin
  ruleKey : Option String
deriving DecidableEq, Repr

def resolved (rule : PricingRule) (origin : PricingOrigin) : ResolvedPricing :=
  ⟨.fromRule rule, true, origin, some rule.key⟩

def settingsMap (settings : AgentSettings) : SortedMap String String :=
  let values := match settings.serviceTier with
    | some tier => settings.additional.insert "service_tier" tier
    | none => settings.additional
  match settings.effort with
  | some effort => values.insert "effort" effort
  | none => values

def toAsciiLowercase (text : String) : String := String.ofList (text.toList.map Text.asciiLower)

def vendorMatches (usageVendor pricingVendor : Vendor) : Bool :=
  usageVendor == .antigravity || usageVendor == pricingVendor

/-- `vendor.is_none_or(…)` -/
def ofVendor (vendor : Option Vendor) (rule : PricingRule) : Bool :=
  match vendor with
  | none => true
  | some vendor => vendorMatches vendor rule.vendor

/-- The model starts with the pattern, whatever the case of the letters. -/
def startsWithPattern (model : String) (rule : PricingRule) : Bool :=
  (toAsciiLowercase rule.modelPattern).toList.isPrefixOf model.toList

def settingsHold (settings : SortedMap String String) (rule : PricingRule) : Bool :=
  rule.settingsMatch.entries.all fun entry => settings.find? entry.1 = some entry.2

/-- More settings first, then the lesser key. -/
def compareRules (left right : PricingRule) : Ordering :=
  (compare left.settingsMatch.size right.settingsMatch.size).then (compare right.key left.key)

/-- The rules for the model itself, or else those with the longest pattern it starts with. -/
def candidateRules (rules : List PricingRule) (vendor : Option Vendor) (model : String) : Option (List PricingRule) :=
  let exact := (rules.filter (ofVendor vendor)).filter fun rule =>
    toAsciiLowercase rule.modelPattern = toAsciiLowercase model
  if exact.isEmpty then
    (((rules.filter (ofVendor vendor)).filter (startsWithPattern model)).map
      fun rule => rule.modelPattern.utf8ByteSize).max?.map fun longest =>
        rules.filter fun rule =>
          ofVendor vendor rule && rule.modelPattern.utf8ByteSize == longest && startsWithPattern model rule
  else some exact

def selectRule (rules : List PricingRule) (vendor : Option Vendor) (model : String)
    (settings : SortedMap String String) : Option PricingRule :=
  (candidateRules rules vendor (toAsciiLowercase model)).bind fun candidates =>
    maxBy compareRules (candidates.filter (settingsHold settings))

def resolvePricingInner (vendor : Option Vendor) (model : String) (settings : AgentSettings)
    (defaults overrides : List PricingRule) : ResolvedPricing :=
  let target := settingsMap settings
  match selectRule overrides vendor model target with
  | some rule => resolved rule .accountOverride
  | none =>
    match selectRule defaults vendor model target with
    | some rule => resolved rule .authoritativeDefault
    | none => ⟨.fallback, false, .fallback, none⟩

def resolvePricing (model : String) (settings : AgentSettings) (defaults overrides : List PricingRule) : ResolvedPricing :=
  resolvePricingInner none model settings defaults overrides

def resolveVendorPricing (vendor : Vendor) (model : String) (settings : AgentSettings)
    (defaults overrides : List PricingRule) : ResolvedPricing :=
  resolvePricingInner (some vendor) model settings defaults overrides

/-! ## Patterns -/

theorem toAsciiLowercase_idem (text : String) : toAsciiLowercase (toAsciiLowercase text) = toAsciiLowercase text := by
  simp [toAsciiLowercase, Function.comp_def, Text.asciiLower_asciiLower]

theorem utf8ByteSize_toAsciiLowercase (text : String) : (toAsciiLowercase text).utf8ByteSize = text.utf8ByteSize := by
  have htext : text.utf8ByteSize = Text.utf8Size text.toList := by rw [← Text.utf8ByteSize_eq, String.ofList_toList]
  rw [toAsciiLowercase, Text.utf8ByteSize_eq, htext]
  induction text.toList with
  | nil => rfl
  | cons c text ih => rw [List.map_cons, Text.utf8Size, Text.utf8Size, ih, Text.utf8Size_asciiLower]

/-- A start of a text is no longer, and is the text when it is as long. -/
theorem size_le_of_start {start text : String} (h : start.toList <+: text.toList) :
    start.utf8ByteSize ≤ text.utf8ByteSize ∧ (start.utf8ByteSize = text.utf8ByteSize → start = text) := by
  obtain ⟨rest, hrest⟩ := h
  have htext : text = start ++ String.ofList rest := by
    rw [← String.toList_inj, String.toList_append, String.toList_ofList, hrest]
  subst htext
  rw [String.utf8ByteSize_append, Text.utf8ByteSize_eq]
  refine ⟨Nat.le_add_right _ _, fun hsize => ?_⟩
  cases rest with
  | nil => simp
  | cons c rest =>
    have hpos := c.utf8Size_pos
    rw [Text.utf8Size] at hsize
    omega

/-- The rule is for the vendor, and its pattern is a start of the model. -/
def Fits (vendor : Option Vendor) (model : String) (rule : PricingRule) : Prop :=
  ofVendor vendor rule = true ∧ (toAsciiLowercase rule.modelPattern).toList <+: (toAsciiLowercase model).toList

/-- The rule fits, and all the settings it asks for hold. -/
def Applies (vendor : Option Vendor) (model : String) (settings : SortedMap String String) (rule : PricingRule) : Prop :=
  Fits vendor model rule ∧ settingsHold settings rule = true

def patternSize (rule : PricingRule) : Nat := rule.modelPattern.utf8ByteSize

/-- No rule of the list that fits has a longer pattern. -/
def Longest (rules : List PricingRule) (vendor : Option Vendor) (model : String) (rule : PricingRule) : Prop :=
  ∀ other ∈ rules, Fits vendor model other → patternSize other ≤ patternSize rule

variable {rules : List PricingRule} {vendor : Option Vendor} {model : String} {settings : SortedMap String String}
  {rule other : PricingRule}

theorem Fits.size_le (h : Fits vendor model rule) : patternSize rule ≤ model.utf8ByteSize := by
  have hsize := (size_le_of_start h.2).1
  rwa [utf8ByteSize_toAsciiLowercase, utf8ByteSize_toAsciiLowercase] at hsize

/-- A rule that fits is for the model itself where its pattern is as long. -/
theorem exact_iff : ofVendor vendor rule = true ∧
    toAsciiLowercase rule.modelPattern = toAsciiLowercase (toAsciiLowercase model) ↔
      Fits vendor model rule ∧ patternSize rule = model.utf8ByteSize := by
  rw [toAsciiLowercase_idem]
  constructor
  · rintro ⟨hvendor, hpattern⟩
    refine ⟨⟨hvendor, hpattern ▸ List.prefix_refl _⟩, ?_⟩
    rw [patternSize, ← utf8ByteSize_toAsciiLowercase, hpattern, utf8ByteSize_toAsciiLowercase]
  · rintro ⟨hfits, hsize⟩
    refine ⟨hfits.1, (size_le_of_start hfits.2).2 ?_⟩
    rw [utf8ByteSize_toAsciiLowercase, utf8ByteSize_toAsciiLowercase]
    exact hsize

theorem startsWithPattern_iff : ofVendor vendor rule = true ∧ startsWithPattern (toAsciiLowercase model) rule = true ↔
    Fits vendor model rule := by
  rw [startsWithPattern, List.isPrefixOf_iff_prefix, Fits]

variable (rules vendor model) in
/-- **The candidates are the rules that fit with the longest pattern**, if any fits. -/
theorem candidateRules_spec :
    (candidateRules rules vendor (toAsciiLowercase model) = none ∧ ∀ rule ∈ rules, ¬ Fits vendor model rule) ∨
    ∃ candidates, candidateRules rules vendor (toAsciiLowercase model) = some candidates ∧
      ∀ rule, rule ∈ candidates ↔ rule ∈ rules ∧ Fits vendor model rule ∧ Longest rules vendor model rule := by
  have hexact : ∀ rule, rule ∈ (rules.filter (ofVendor vendor)).filter (fun rule =>
      toAsciiLowercase rule.modelPattern = toAsciiLowercase (toAsciiLowercase model)) ↔
        rule ∈ rules ∧ Fits vendor model rule ∧ patternSize rule = model.utf8ByteSize := by
    intro rule
    rw [List.mem_filter, List.mem_filter, decide_eq_true_eq, and_assoc, exact_iff]
  have hstart : ∀ rule, rule ∈ (rules.filter (ofVendor vendor)).filter (startsWithPattern (toAsciiLowercase model)) ↔
      rule ∈ rules ∧ Fits vendor model rule := by
    intro rule
    rw [List.mem_filter, List.mem_filter, and_assoc, startsWithPattern_iff]
  rw [candidateRules]
  split
  next hempty =>
    cases hmax : (((rules.filter (ofVendor vendor)).filter (startsWithPattern (toAsciiLowercase model))).map
        fun rule => rule.modelPattern.utf8ByteSize).max? with
    | none =>
      rw [List.max?_eq_none_iff, List.map_eq_nil_iff] at hmax
      refine .inl ⟨rfl, fun rule hmem hfits => ?_⟩
      have hrule := (hstart rule).2 ⟨hmem, hfits⟩
      rw [hmax] at hrule
      cases hrule
    | some longest =>
      obtain ⟨hlongest, hbound⟩ := List.max?_eq_some_iff.1 hmax
      obtain ⟨best, hbest, hsize⟩ := List.mem_map.1 hlongest
      have hbest := (hstart best).1 hbest
      have hall : ∀ rule ∈ rules, Fits vendor model rule → patternSize rule ≤ longest := fun rule hmem hfits =>
        hbound _ (List.mem_map_of_mem ((hstart rule).2 ⟨hmem, hfits⟩))
      refine .inr ⟨_, rfl, fun rule => ?_⟩
      rw [List.mem_filter, Bool.and_eq_true, Bool.and_eq_true, beq_iff_eq]
      constructor
      · rintro ⟨hmem, ⟨hvendor, hlength⟩, hpattern⟩
        refine ⟨hmem, startsWithPattern_iff.1 ⟨hvendor, hpattern⟩, fun other hother hfits => ?_⟩
        exact (hall other hother hfits).trans (le_of_eq hlength.symm)
      · rintro ⟨hmem, hfits, hlong⟩
        obtain ⟨hvendor, hpattern⟩ := startsWithPattern_iff.2 hfits
        refine ⟨hmem, ⟨hvendor, le_antisymm (hall rule hmem hfits) ?_⟩, hpattern⟩
        rw [← hsize]
        exact hlong best hbest.1 hbest.2
  next hsome =>
    obtain ⟨exact, hexactMem⟩ := List.exists_mem_of_ne_nil _ fun hnil => hsome (List.isEmpty_iff.2 hnil)
    obtain ⟨hexactRule, hexactFits, hexactSize⟩ := (hexact exact).1 hexactMem
    refine .inr ⟨_, rfl, fun rule => (hexact rule).trans ?_⟩
    constructor
    · rintro ⟨hmem, hfits, hsize⟩
      exact ⟨hmem, hfits, fun other _ hother => by rw [hsize]; exact hother.size_le⟩
    · rintro ⟨hmem, hfits, hlong⟩
      refine ⟨hmem, hfits, le_antisymm hfits.size_le ?_⟩
      rw [← hexactSize]
      exact hlong exact hexactRule hexactFits

/-! ## The rule that is found -/

/-- A rule comes before another when it asks for more settings, or has the lesser key. -/
def Before (rule other : PricingRule) : Prop :=
  other.settingsMatch.size < rule.settingsMatch.size ∨
    other.settingsMatch.size = rule.settingsMatch.size ∧ rule.key ≤ other.key

variable (rule other) in
theorem compareRules_cases : (compareRules rule other = .gt ∧ Before rule other) ∨
    (compareRules rule other ≠ .gt ∧ Before other rule) := by
  rw [compareRules]
  rcases lt_trichotomy rule.settingsMatch.size other.settingsMatch.size with hsize | hsize | hsize
  · rw [compare_lt_iff_lt.2 hsize]
    exact .inr ⟨by simp, .inl hsize⟩
  · rw [compare_eq_iff_eq.2 hsize, Ordering.eq_then]
    by_cases hkey : rule.key < other.key
    · exact .inl ⟨compare_gt_iff_gt.2 hkey, .inr ⟨hsize.symm, hkey.le⟩⟩
    · exact .inr ⟨fun hgt => hkey (compare_gt_iff_gt.1 hgt), .inr ⟨hsize, not_lt.1 hkey⟩⟩
  · rw [compare_gt_iff_gt.2 hsize]
    exact .inl ⟨rfl, .inl hsize⟩

theorem before_of_gt (rule other : PricingRule) (h : compareRules rule other = .gt) : Before rule other := by
  rcases compareRules_cases rule other with ⟨-, hbefore⟩ | ⟨hne, -⟩
  · exact hbefore
  · exact absurd h hne

theorem before_of_not_gt (rule other : PricingRule) (h : compareRules rule other ≠ .gt) : Before other rule := by
  rcases compareRules_cases rule other with ⟨hgt, -⟩ | ⟨-, hbefore⟩
  · exact absurd hgt h
  · exact hbefore

theorem Before.refl (rule : PricingRule) : Before rule rule := .inr ⟨rfl, le_rfl⟩

theorem Before.key_eq (h : Before rule other) (h' : Before other rule) : rule.key = other.key := by
  rcases h with h | ⟨hsize, hkey⟩ <;> rcases h' with h' | ⟨hsize', hkey'⟩
  · exact absurd h' (not_lt.2 h.le)
  · exact absurd hsize' h.ne'
  · exact absurd hsize h'.ne'
  · exact le_antisymm hkey hkey'

theorem Before.trans {third : PricingRule} (h : Before rule other) (h' : Before other third) : Before rule third := by
  rcases h with h | ⟨hsize, hkey⟩ <;> rcases h' with h' | ⟨hsize', hkey'⟩
  · exact .inl (h'.trans h)
  · exact .inl (hsize' ▸ h)
  · exact .inl (hsize ▸ h')
  · exact .inr ⟨hsize'.trans hsize, hkey.trans hkey'⟩

/-- A rule that applies and has the longest pattern. -/
def Eligible (rules : List PricingRule) (vendor : Option Vendor) (model : String) (settings : SortedMap String String)
    (rule : PricingRule) : Prop :=
  rule ∈ rules ∧ Applies vendor model settings rule ∧ Longest rules vendor model rule

variable (rules vendor model settings) in
/-- The rules that are looked at are the eligible ones, if there are any. -/
theorem selectRule_eligible : ∃ held, selectRule rules vendor model settings = maxBy compareRules held ∧
    ∀ rule, rule ∈ held ↔ Eligible rules vendor model settings rule := by
  rw [selectRule]
  rcases candidateRules_spec rules vendor model with ⟨hnone, hfits⟩ | ⟨candidates, hsome, hmem⟩
  · refine ⟨[], by rw [hnone]; rfl, fun rule => ?_⟩
    exact ⟨fun h => (by cases h), fun h => absurd h.2.1.1 (hfits rule h.1)⟩
  · refine ⟨candidates.filter (settingsHold settings), by rw [hsome, Option.bind_some], fun rule => ?_⟩
    rw [List.mem_filter, hmem, Eligible, Applies]
    tauto

/-- **The rule found is the first of the eligible ones.** -/
theorem selectRule_iff (hkeys : (rules.map PricingRule.key).Nodup) : selectRule rules vendor model settings = some rule ↔
    Eligible rules vendor model settings rule ∧ ∀ other, Eligible rules vendor model settings other → Before rule other := by
  obtain ⟨held, hselect, hmem⟩ := selectRule_eligible rules vendor model settings
  rw [hselect]
  have hspec : ∀ best, maxBy compareRules held = some best →
      Eligible rules vendor model settings best ∧ ∀ other, Eligible rules vendor model settings other → Before best other := by
    intro best hbest
    obtain ⟨hheld, hbefore⟩ := maxBy_spec Before.refl (fun _ _ _ => Before.trans) before_of_gt before_of_not_gt hbest
    exact ⟨(hmem best).1 hheld, fun other hother => hbefore other ((hmem other).2 hother)⟩
  refine ⟨hspec rule, fun ⟨hrule, hfirst⟩ => ?_⟩
  cases hbest : maxBy compareRules held with
  | none =>
    have hheld := (hmem rule).2 hrule
    rw [maxBy_eq_none.1 hbest] at hheld
    cases hheld
  | some best =>
    obtain ⟨hbestEligible, hbestFirst⟩ := hspec best hbest
    have hkey : best.key = rule.key := (hbestFirst rule hrule).key_eq (hfirst best hbestEligible)
    rw [List.inj_on_of_nodup_map hkeys hbestEligible.1 hrule.1 hkey]

theorem selectRule_eq_none : selectRule rules vendor model settings = none ↔
    ∀ rule, ¬ Eligible rules vendor model settings rule := by
  obtain ⟨held, hselect, hmem⟩ := selectRule_eligible rules vendor model settings
  rw [hselect, maxBy_eq_none, List.eq_nil_iff_forall_not_mem]
  exact forall_congr' fun rule => not_congr (hmem rule)

/-- Lists with the same eligible rules find the same. -/
theorem selectRule_congr {rules' : List PricingRule} (hkeys : (rules.map PricingRule.key).Nodup)
    (hkeys' : (rules'.map PricingRule.key).Nodup)
    (h : ∀ rule, Eligible rules vendor model settings rule ↔ Eligible rules' vendor model settings rule) :
    selectRule rules vendor model settings = selectRule rules' vendor model settings := by
  refine Option.ext fun rule => ?_
  rw [selectRule_iff hkeys, selectRule_iff hkeys']
  simp only [h]

theorem selectRule_perm {rules' : List PricingRule} (hkeys : (rules.map PricingRule.key).Nodup) (h : rules.Perm rules') :
    selectRule rules vendor model settings = selectRule rules' vendor model settings := by
  refine selectRule_congr hkeys ((h.map _).nodup_iff.1 hkeys) fun rule => ?_
  simp only [Eligible, Longest, h.mem_iff]

/-- A rule that does not apply is not missed where it fits with no longer pattern than another. -/
theorem selectRule_add {before after : List PricingRule}
    (hkeys : ((before ++ rule :: after).map PricingRule.key).Nodup) (happlies : ¬ Applies vendor model settings rule)
    (hlong : Fits vendor model rule → ∃ other ∈ before ++ after, Fits vendor model other ∧ patternSize rule ≤ patternSize other) :
    selectRule (before ++ rule :: after) vendor model settings = selectRule (before ++ after) vendor model settings := by
  have hperm : (before ++ rule :: after).Perm (rule :: (before ++ after)) := List.perm_middle
  have hkeys' := (hperm.map PricingRule.key).nodup_iff.1 hkeys
  rw [selectRule_perm hkeys hperm]
  refine selectRule_congr hkeys' (List.nodup_cons.1 hkeys').2 fun other => ?_
  constructor
  · rintro ⟨hmem, hother, hlongest⟩
    rcases List.mem_cons.1 hmem with rfl | hmem
    · exact absurd hother happlies
    · exact ⟨hmem, hother, fun third hthird => hlongest third (List.mem_cons_of_mem _ hthird)⟩
  · rintro ⟨hmem, hother, hlongest⟩
    refine ⟨List.mem_cons_of_mem _ hmem, hother, List.forall_mem_cons.2 ⟨fun hfits => ?_, hlongest⟩⟩
    obtain ⟨third, hthird, hthirdFits, hsize⟩ := hlong hfits
    exact hsize.trans (hlongest third hthird hthirdFits)

/-! ## Resolution -/

/-- What may be said of adding a rule to a list: it does not apply, and fits with
no longer pattern than another of the list. -/
structure Idle (rules : List PricingRule) (vendor : Option Vendor) (model : String) (settings : SortedMap String String)
    (rule : PricingRule) : Prop where
  applies : ¬ Applies vendor model settings rule
  hides_none : Fits vendor model rule → ∃ other ∈ rules, Fits vendor model other ∧ patternSize rule ≤ patternSize other

theorem selectRule_idle {before after : List PricingRule} (hkeys : (rules.map PricingRule.key).Nodup)
    (hrules : rules = before ++ after) (hkey : ∀ other ∈ rules, other.key ≠ rule.key)
    (h : Idle rules vendor model settings rule) :
    selectRule (before ++ rule :: after) vendor model settings = selectRule rules vendor model settings := by
  subst hrules
  have hperm : ((before ++ rule :: after).map PricingRule.key).Perm (rule.key :: (before ++ after).map PricingRule.key) :=
    List.perm_middle.map PricingRule.key
  refine selectRule_add (hperm.nodup_iff.2 (List.nodup_cons.2 ⟨fun hmem => ?_, hkeys⟩)) h.applies h.hides_none
  obtain ⟨other, hother, heq⟩ := List.mem_map.1 hmem
  exact hkey other hother heq

/-- There is an eligible rule exactly when one is found. -/
theorem exists_eligible : (∃ rule, Eligible rules vendor model settings rule) ↔
    ∃ rule, selectRule rules vendor model settings = some rule := by
  rw [← Option.isSome_iff_exists, Option.isSome_iff_ne_none, Ne, selectRule_eq_none]
  simp

/-- **What a price depends on**: not the order of the rules, nor a rule that is
idle; and it is of the first of the two lists that has an eligible rule. -/
theorem pricing_resolved (vendor : Option Vendor) (model : String) (settings : AgentSettings)
    (defaults overrides : List PricingRule) (hdefaults : (defaults.map PricingRule.key).Nodup)
    (hoverrides : (overrides.map PricingRule.key).Nodup) :
    (∀ defaults' overrides', defaults.Perm defaults' → overrides.Perm overrides' →
      resolvePricingInner vendor model settings defaults' overrides' =
        resolvePricingInner vendor model settings defaults overrides) ∧
    (∀ before rule after, defaults = before ++ after → (∀ other ∈ defaults, other.key ≠ rule.key) →
      Idle defaults vendor model (settingsMap settings) rule →
      resolvePricingInner vendor model settings (before ++ rule :: after) overrides =
        resolvePricingInner vendor model settings defaults overrides) ∧
    (∀ before rule after, overrides = before ++ after → (∀ other ∈ overrides, other.key ≠ rule.key) →
      Idle overrides vendor model (settingsMap settings) rule →
      resolvePricingInner vendor model settings defaults (before ++ rule :: after) =
        resolvePricingInner vendor model settings defaults overrides) ∧
    ((∃ rule, Eligible overrides vendor model (settingsMap settings) rule) →
      (resolvePricingInner vendor model settings defaults overrides).origin = .accountOverride) ∧
    ((∀ rule, ¬ Eligible overrides vendor model (settingsMap settings) rule) →
      (∃ rule, Eligible defaults vendor model (settingsMap settings) rule) →
      (resolvePricingInner vendor model settings defaults overrides).origin = .authoritativeDefault) ∧
    ((∀ rule, ¬ Eligible overrides vendor model (settingsMap settings) rule) →
      (∀ rule, ¬ Eligible defaults vendor model (settingsMap settings) rule) →
      (resolvePricingInner vendor model settings defaults overrides).origin = .fallback) := by
  refine ⟨?_, ?_, ?_, ?_, ?_, ?_⟩
  · intro defaults' overrides' hd ho
    simp only [resolvePricingInner, ← selectRule_perm hdefaults hd, ← selectRule_perm hoverrides ho]
  · intro before rule after hrules hkey hidle
    simp only [resolvePricingInner, selectRule_idle hdefaults hrules hkey hidle]
  · intro before rule after hrules hkey hidle
    simp only [resolvePricingInner, selectRule_idle hoverrides hrules hkey hidle]
  · intro h
    obtain ⟨rule, hrule⟩ := exists_eligible.1 h
    simp only [resolvePricingInner, hrule, resolved]
  · intro hnone h
    obtain ⟨rule, hrule⟩ := exists_eligible.1 h
    simp only [resolvePricingInner, selectRule_eq_none.2 hnone, hrule, resolved]
  · intro hnone hnone'
    simp only [resolvePricingInner, selectRule_eq_none.2 hnone, selectRule_eq_none.2 hnone']

/-! ### Two overrides of one model -/

namespace Priced

def override (key pattern : String) (settings : SortedMap String String) : PricingRule :=
  ⟨key, .openaiCodex, pattern, settings, 0, 0, 0, 0, 0⟩

def standard : AgentSettings := ⟨none, none, .empty⟩

/-- The price of a family of models, and of one of them. -/
def family : PricingRule := override "family" "gpt-5" .empty

def member : PricingRule := override "member" "GPT-5.5" .empty

/-- The price of that model in batches. -/
def batch : PricingRule := override "batch" "GPT-5.5" (SortedMap.empty.insert "service_tier" "batch")

end Priced

open Priced in
theorem member_priced :
    resolvePricingInner (some .openaiCodex) "gpt-5.5" standard [] [member, family] =
      resolvePricingInner (some .openaiCodex) "gpt-5.5" standard [] [family, member] ∧
    (resolvePricingInner (some .openaiCodex) "gpt-5.5" standard [] [family, member]).origin = .accountOverride := by
  have h := pricing_resolved (some .openaiCodex) "gpt-5.5" standard [] [family, member] (by decide +kernel)
    (by decide +kernel)
  exact ⟨h.1 [] [member, family] (.refl _) (.swap _ _ _), h.2.2.2.1 (exists_eligible.2 ⟨member, by decide +kernel⟩)⟩

open Priced in
/-- An override whose settings do not hold hides one that applies. -/
theorem batch_hides_family : settingsHold (settingsMap standard) batch = false ∧
    (resolvePricingInner (some .openaiCodex) "gpt-5.5" standard [] [family]).origin = .accountOverride ∧
    (resolvePricingInner (some .openaiCodex) "gpt-5.5" standard [] [family, batch]).origin = .fallback := by
  decide +kernel

end Atmux.Pulse
