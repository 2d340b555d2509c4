/-
What the store's statements do to its tables.

One inversion lemma for each statement says all that it can have done. A
statement files its row and leaves the others (`applyRow_holds`,
`applyRow_keeps`), and only a reference to what is not there fails with
`sqlError` (`applyRows_ne_sqlError`).
-/
import Atmux.Pulse.Pull

namespace Atmux.Pulse

open Lib

namespace Tables

variable {tables tables' : Tables}

/-! ## Rows put in place -/

section
variable {row : Machine} {profile : Profile} {snapshot : UsageSnapshot} {session : ContextSession} {grain : TokenGrain}
  {hsnapshot : tables.Refers snapshot.profile snapshot.machine} {hroom : tables.usageSequence + 1 < 2 ^ 63}
  {hsession : tables.Refers session.profile session.machine} {hgrain : tables.Refers grain.profile grain.machine}

@[simp] theorem putMachine_machines : (tables.putMachine row).machines = tables.machines.upsert row := rfl
@[simp] theorem putMachine_profiles : (tables.putMachine row).profiles = tables.profiles := rfl
@[simp] theorem putMachine_usage : (tables.putMachine row).usage = tables.usage := rfl
@[simp] theorem putMachine_contexts : (tables.putMachine row).contexts = tables.contexts := rfl
@[simp] theorem putMachine_tokens : (tables.putMachine row).tokens = tables.tokens := rfl

@[simp] theorem putProfile_machines : (tables.putProfile profile).machines = tables.machines := rfl
@[simp] theorem putProfile_profiles : (tables.putProfile profile).profiles = tables.profiles.upsert profile := rfl
@[simp] theorem putProfile_usage : (tables.putProfile profile).usage = tables.usage := rfl
@[simp] theorem putProfile_contexts : (tables.putProfile profile).contexts = tables.contexts := rfl
@[simp] theorem putProfile_tokens : (tables.putProfile profile).tokens = tables.tokens := rfl

@[simp] theorem putSnapshot_machines : (tables.putSnapshot snapshot hsnapshot hroom).machines = tables.machines := rfl
@[simp] theorem putSnapshot_profiles : (tables.putSnapshot snapshot hsnapshot hroom).profiles = tables.profiles := rfl
@[simp] theorem putSnapshot_usage : (tables.putSnapshot snapshot hsnapshot hroom).usage =
    tables.usage.upsert ⟨tables.usageSequence + 1, snapshot⟩ := rfl
@[simp] theorem putSnapshot_contexts : (tables.putSnapshot snapshot hsnapshot hroom).contexts = tables.contexts := rfl
@[simp] theorem putSnapshot_tokens : (tables.putSnapshot snapshot hsnapshot hroom).tokens = tables.tokens := rfl

@[simp] theorem putContext_machines : (tables.putContext session hsession).machines = tables.machines := rfl
@[simp] theorem putContext_profiles : (tables.putContext session hsession).profiles = tables.profiles := rfl
@[simp] theorem putContext_usage : (tables.putContext session hsession).usage = tables.usage := rfl
@[simp] theorem putContext_contexts : (tables.putContext session hsession).contexts = tables.contexts.upsert session := rfl
@[simp] theorem putContext_tokens : (tables.putContext session hsession).tokens = tables.tokens := rfl

@[simp] theorem putToken_machines : (tables.putToken grain hgrain).machines = tables.machines := rfl
@[simp] theorem putToken_profiles : (tables.putToken grain hgrain).profiles = tables.profiles := rfl
@[simp] theorem putToken_usage : (tables.putToken grain hgrain).usage = tables.usage := rfl
@[simp] theorem putToken_contexts : (tables.putToken grain hgrain).contexts = tables.contexts := rfl
@[simp] theorem putToken_tokens : (tables.putToken grain hgrain).tokens = tables.tokens.upsert grain := rfl

end

/-! ## Statements -/

theorem upsertMachine_ok {machine : Machine} (h : tables.upsertMachine machine = .ok tables') :
    ∃ row, tables' = tables.putMachine row ∧ row.name = machine.name ∧
      (tables.machines.find? machine.primaryKey = none ∧ row = machine ∨
        ∃ old, tables.machines.find? machine.primaryKey = some old ∧ row =
          { old with firstSeen := min old.firstSeen machine.firstSeen, lastSeen := max old.lastSeen machine.lastSeen }) := by
  unfold upsertMachine at h
  split at h
  · cases h
  split at h
  next hfind =>
    obtain rfl := Except.ok.inj h
    exact ⟨machine, rfl, rfl, .inl ⟨hfind, rfl⟩⟩
  next old hfind =>
    obtain rfl := Except.ok.inj h
    have hkey : old.primaryKey = machine.primaryKey := Table.key_of_find? hfind
    exact ⟨_, rfl, ValidatedString.value_injective hkey, .inr ⟨old, hfind, rfl⟩⟩

theorem upsertReportedProfile_ok {profile : Profile} (h : tables.upsertReportedProfile profile = .ok tables') :
    profile.origin = .reported ∧
      ((∃ existing, tables.profiles.find? profile.primaryKey = some existing ∧ existing.origin = .local ∧
          tables' = tables) ∨
        ∃ row, tables' = tables.putProfile row ∧ row.name = profile.name ∧
          (tables.profiles.find? profile.primaryKey = none ∧
              row = { profile with configDir := none, apiKeyEnv := none, apiKeyFile := none } ∨
            ∃ existing, tables.profiles.find? profile.primaryKey = some existing ∧ existing.origin ≠ .local ∧
              row = { existing with
                vendor := profile.vendor
                pollIntervalMinutes := profile.pollIntervalMinutes
                monthlyBudgetUsd := profile.monthlyBudgetUsd
                hidden := profile.hidden
                origin := profile.origin })) := by
  simp only [upsertReportedProfile, bind, Except.bind, pure, Except.pure] at h
  split at h
  · cases h
  split at h
  · cases h
  next horigin =>
    refine ⟨not_not.mp horigin, ?_⟩
    split at h
    next hfind =>
      obtain rfl := Except.ok.inj h
      exact .inr ⟨_, rfl, rfl, .inl ⟨hfind, rfl⟩⟩
    next existing hfind =>
      split at h
      · cases h
      split at h
      next hlocal =>
        obtain rfl := Except.ok.inj h
        exact .inl ⟨existing, hfind, hlocal, rfl⟩
      next hlocal =>
        obtain rfl := Except.ok.inj h
        have hkey : existing.primaryKey = profile.primaryKey := Table.key_of_find? hfind
        exact .inr ⟨_, rfl, ValidatedString.value_injective hkey, .inr ⟨existing, hfind, hlocal, rfl⟩⟩

theorem insertSnapshot_ok {snapshot : UsageSnapshot} (h : tables.insertSnapshot snapshot = .ok tables') :
    ∃ hrefers hroom, tables' = tables.putSnapshot snapshot hrefers hroom := by
  simp only [insertSnapshot, bind, Except.bind, pure, Except.pure] at h
  split at h
  · cases h
  split at h
  next hroom =>
    split at h
    next hrefers =>
      obtain rfl := Except.ok.inj h
      exact ⟨hrefers, hroom, rfl⟩
    · cases h
  · cases h

theorem upsertContext_ok {session : ContextSession} (h : tables.upsertContext session = .ok tables') :
    (∃ old, tables.contexts.find? session.primaryKey = some old ∧ session.collectedAt < old.collectedAt ∧
        tables' = tables) ∨
      (∀ old, tables.contexts.find? session.primaryKey = some old → old.collectedAt ≤ session.collectedAt) ∧
        ∃ hrefers, tables' = tables.putContext session hrefers := by
  unfold upsertContext at h
  obtain ⟨-, -, h⟩ := bind_ok h
  obtain ⟨-, -, h⟩ := bind_ok h
  split at h
  next hrefers =>
    split at h
    next holder =>
      obtain rfl := Except.ok.inj h
      obtain ⟨old, hfind, hlt⟩ := Option.any_eq_true _ _ |>.mp holder
      exact .inl ⟨old, hfind, of_decide_eq_true hlt, rfl⟩
    next holder =>
      obtain rfl := Except.ok.inj h
      refine .inr ⟨fun old hfind => ?_, hrefers, rfl⟩
      rw [hfind] at holder
      simpa using holder
  · cases h

theorem upsertToken_ok {grain : TokenGrain} (h : tables.upsertToken grain = .ok tables') :
    ∃ hrefers, tables' = tables.putToken grain hrefers := by
  unfold upsertToken at h
  split at h
  next hrefers =>
    obtain rfl := Except.ok.inj h
    exact ⟨hrefers, rfl⟩
  · cases h

/-! ## Tokens -/

/-- The tables after some grains were filed: each is there, when no two have
one key, and nothing else has changed. -/
structure Filed (tables : Tables) (grains : List TokenGrain) (tables' : Tables) : Prop where
  machines : tables'.machines = tables.machines
  profiles : tables'.profiles = tables.profiles
  usage : tables'.usage = tables.usage
  contexts : tables'.contexts = tables.contexts
  others : ∀ k, (∀ grain ∈ grains, grain.primaryKey ≠ k) → tables'.tokens.find? k = tables.tokens.find? k
  filed : (grains.map TokenGrain.primaryKey).Nodup → ∀ grain ∈ grains,
    tables'.tokens.find? grain.primaryKey = some grain
  mem : ∀ row ∈ tables'.tokens.rows, row ∈ tables.tokens.rows ∨ row ∈ grains

theorem Filed.nil (tables : Tables) : Filed tables [] tables :=
  ⟨rfl, rfl, rfl, rfl, fun _ _ => rfl, fun _ _ hmem => (by cases hmem), fun _ hrow => .inl hrow⟩

theorem Filed.append {tables'' : Tables} {grains grains' : List TokenGrain} (h : Filed tables grains tables')
    (h' : Filed tables' grains' tables'') : Filed tables (grains ++ grains') tables'' := by
  refine ⟨h'.machines.trans h.machines, h'.profiles.trans h.profiles, h'.usage.trans h.usage,
    h'.contexts.trans h.contexts, fun k hk => ?_, fun hnodup grain hgrain => ?_, fun row hrow => ?_⟩
  · rw [h'.others k fun grain hgrain => hk grain (List.mem_append_right _ hgrain)]
    exact h.others k fun grain hgrain => hk grain (List.mem_append_left _ hgrain)
  · rw [List.map_append, List.nodup_append] at hnodup
    rcases List.mem_append.mp hgrain with hgrain | hgrain
    · rw [h'.others _ fun grain' hgrain' heq => hnodup.2.2 _ (List.mem_map_of_mem hgrain) _
        (List.mem_map_of_mem hgrain') heq.symm]
      exact h.filed hnodup.1 grain hgrain
    · exact h'.filed hnodup.2.1 grain hgrain
  · rcases h'.mem row hrow with hrow | hrow
    · exact (h.mem row hrow).imp_right (List.mem_append_left _)
    · exact .inr (List.mem_append_right _ hrow)

theorem Filed.perm {grains grains' : List TokenGrain} (h : Filed tables grains tables') (hperm : grains.Perm grains') :
    Filed tables grains' tables' :=
  ⟨h.machines, h.profiles, h.usage, h.contexts, fun k hk => h.others k fun grain hgrain => hk grain (hperm.mem_iff.mp hgrain),
    fun hnodup grain hgrain => h.filed ((hperm.map _).nodup_iff.mpr hnodup) grain (hperm.mem_iff.mpr hgrain),
    fun row hrow => (h.mem row hrow).imp_right hperm.mem_iff.mp⟩

theorem Filed.refers {grains : List TokenGrain} (h : Filed tables grains tables') (profile : ProfileName)
    (machine : MachineName) : tables'.Refers profile machine ↔ tables.Refers profile machine := by
  unfold Tables.Refers
  rw [h.machines, h.profiles]

theorem putToken_filed {grain : TokenGrain} (hrefers : tables.Refers grain.profile grain.machine) :
    Filed tables [grain] (tables.putToken grain hrefers) := by
  refine ⟨rfl, rfl, rfl, rfl, fun k hk => ?_, fun _ grain' hmem => ?_, fun row hrow => ?_⟩
  · exact Table.find?_upsert_of_ne (hk grain (List.mem_singleton.mpr rfl)).symm
  · obtain rfl := List.mem_singleton.mp hmem
    exact Table.find?_upsert_self
  · rcases Table.mem_upsert hrow with rfl | hrow
    · exact .inr (List.mem_singleton.mpr rfl)
    · exact .inl hrow

theorem foldlM_upsertToken_filed {grains : List TokenGrain} (h : grains.foldlM upsertToken tables = .ok tables') :
    Filed tables grains tables' := by
  induction grains generalizing tables with
  | nil =>
    obtain rfl := Except.ok.inj h
    exact .nil _
  | cons grain grains ih =>
    rw [List.foldlM_cons] at h
    obtain ⟨between, hput, h⟩ := bind_ok h
    obtain ⟨hrefers, rfl⟩ := upsertToken_ok hput
    exact (putToken_filed hrefers).append (ih h)

/-- A grain that matches is the row there is. -/
theorem find?_of_tokenMatches {grain : TokenGrain} (h : tables.tokenMatches grain = true) :
    tables.tokens.find? grain.primaryKey = some grain := by
  obtain ⟨old, hfind, hmatch⟩ := (Option.any_eq_true _ _).mp h
  have hkey : old.primaryKey = grain.primaryKey := Table.key_of_find? hfind
  rw [hfind]
  obtain ⟨haccount, hsettings, hin, hout, h5m, h1h, hread⟩ := of_decide_eq_true hmatch
  simp only [TokenGrain.primaryKey, List.cons.injEq, and_true] at hkey
  obtain ⟨hprofile, hmachine, hsession, hmodel, hhash, hday, hsource⟩ := hkey
  have hprofile := ValidatedString.value_injective hprofile
  have hmachine := ValidatedString.value_injective hmachine
  have hsession := ValidatedString.value_injective hsession
  have hsource := TokenSource.json_injective hsource
  cases old
  cases grain
  simp_all

theorem upsertScope_filed {rows : List TokenGrain} (h : tables.upsertScope rows = .ok tables') :
    Filed tables rows tables' := by
  unfold upsertScope at h
  obtain ⟨-, -, h⟩ := bind_ok h
  have hfiled := foldlM_upsertToken_filed h
  refine ⟨hfiled.machines, hfiled.profiles, hfiled.usage, hfiled.contexts, fun k hk => ?_, fun hnodup grain hgrain => ?_,
    fun row hrow => (hfiled.mem row hrow).imp_right List.mem_of_mem_filter⟩
  · exact hfiled.others k fun grain hgrain => hk grain (List.mem_of_mem_filter hgrain)
  · have hsub := List.filter_sublist (p := fun grain => !tables.tokenMatches grain) (l := rows)
    cases hmatch : tables.tokenMatches grain with
    | false =>
      exact hfiled.filed (hnodup.sublist (hsub.map _)) grain (List.mem_filter.mpr ⟨hgrain, by simp [hmatch]⟩)
    | true =>
      rw [hfiled.others _ fun grain' hgrain' heq => ?_]
      · exact find?_of_tokenMatches hmatch
      · have hsame := List.inj_on_of_nodup_map hnodup (List.mem_of_mem_filter hgrain') hgrain heq
        have hdiffers := (List.mem_filter.mp hgrain').2
        rw [hsame, hmatch] at hdiffers
        cases hdiffers

theorem byScope_perm (grains : List TokenGrain) : (byScope grains).values.flatten.Perm grains := by
  suffices h : ∀ (grains : List TokenGrain) (scopes : SortedMap (List String) (List TokenGrain)),
      (grains.foldl (fun scopes grain =>
        let scope := [grain.profile.value, grain.machine.value]
        scopes.insert scope ((scopes.find? scope).getD [] ++ [grain])) scopes).values.flatten.Perm
        (scopes.values.flatten ++ grains) from h grains .empty
  intro grains
  induction grains with
  | nil =>
    intro scopes
    rw [List.append_nil]
    exact .refl _
  | cons grain grains ih =>
    intro scopes
    rw [List.foldl_cons]
    refine (ih _).trans ?_
    rw [← List.singleton_append (l := grains), ← List.append_assoc]
    refine List.Perm.append_right _ ?_
    have hinsert := Entries.flatMap_insert_append (k := [grain.profile.value, grain.machine.value]) (a := grain)
      scopes.ascending
    simpa [SortedMap.values, SortedMap.find?, List.flatMap] using hinsert

theorem foldlM_upsertScope_filed {scopes : List (List TokenGrain)} (h : scopes.foldlM upsertScope tables = .ok tables') :
    Filed tables scopes.flatten tables' := by
  induction scopes generalizing tables with
  | nil =>
    obtain rfl := Except.ok.inj h
    exact .nil _
  | cons rows scopes ih =>
    rw [List.foldlM_cons] at h
    obtain ⟨between, hscope, h⟩ := bind_ok h
    exact (upsertScope_filed hscope).append (ih h)

theorem upsertTokenBatch_filed {crates : Crates} {grains : List TokenGrain}
    (h : tables.upsertTokenBatch crates grains = .ok tables') : Filed tables grains tables' := by
  unfold upsertTokenBatch at h
  obtain ⟨-, -, h⟩ := bind_ok h
  exact (foldlM_upsertScope_filed h).perm (byScope_perm grains)

/-! ## What is kept -/

/-- No profile and no machine is lost. -/
structure Keeps (tables tables' : Tables) : Prop where
  profiles : ∀ k, (tables.profiles.find? k).isSome → (tables'.profiles.find? k).isSome
  machines : ∀ k, (tables.machines.find? k).isSome → (tables'.machines.find? k).isSome

theorem Keeps.refl (tables : Tables) : Keeps tables tables := ⟨fun _ h => h, fun _ h => h⟩

theorem Keeps.trans {tables'' : Tables} (h : Keeps tables tables') (h' : Keeps tables' tables'') : Keeps tables tables'' :=
  ⟨fun k hk => h'.profiles k (h.profiles k hk), fun k hk => h'.machines k (h.machines k hk)⟩

theorem Filed.keeps {grains : List TokenGrain} (h : Filed tables grains tables') : Keeps tables tables' := by
  refine ⟨fun k hk => ?_, fun k hk => ?_⟩
  · rwa [h.profiles]
  · rwa [h.machines]

/-- The profile or machine of a row is there. -/
def Has (tables : Tables) : FederatedPulseRow → Prop
  | .machine row => (tables.machines.find? row.name.value).isSome
  | .profile row => (tables.profiles.find? row.name.value).isSome
  | _ => True

theorem Keeps.has {row : FederatedPulseRow} (h : Keeps tables tables') (hrow : tables.Has row) : tables'.Has row := by
  cases row with
  | machine row => exact h.machines _ hrow
  | profile row => exact h.profiles _ hrow
  | _ => trivial

theorem applyRow_keeps {row : FederatedPulseRow} (h : tables.applyRow row = .ok tables') :
    Keeps tables tables' ∧ tables'.Has row := by
  cases row with
  | machine machine =>
    obtain ⟨row, rfl, hname, -⟩ := upsertMachine_ok h
    refine ⟨⟨fun _ hk => hk, fun _ hk => Table.isSome_upsert hk⟩, ?_⟩
    have hself : (tables.machines.upsert row).find? row.primaryKey = some row := Table.find?_upsert_self
    rw [Machine.primaryKey, hname] at hself
    show ((tables.putMachine row).machines.find? machine.name.value).isSome
    rw [putMachine_machines, hself]
    rfl
  | profile profile =>
    obtain ⟨-, ⟨existing, hfind, -, rfl⟩ | ⟨row, rfl, hname, -⟩⟩ := upsertReportedProfile_ok h
    · refine ⟨.refl _, ?_⟩
      show (tables'.profiles.find? profile.primaryKey).isSome
      rw [hfind]
      rfl
    · refine ⟨⟨fun _ hk => Table.isSome_upsert hk, fun _ hk => hk⟩, ?_⟩
      have hself : (tables.profiles.upsert row).find? row.primaryKey = some row := Table.find?_upsert_self
      rw [Profile.primaryKey, hname] at hself
      show ((tables.putProfile row).profiles.find? profile.name.value).isSome
      rw [putProfile_profiles, hself]
      rfl
  | usage snapshot =>
    obtain ⟨hrefers, hroom, rfl⟩ := insertSnapshot_ok h
    exact ⟨⟨fun _ hk => hk, fun _ hk => hk⟩, trivial⟩
  | context session =>
    obtain ⟨old, -, -, rfl⟩ | ⟨-, hrefers, rfl⟩ := upsertContext_ok h
    · exact ⟨.refl _, trivial⟩
    · exact ⟨⟨fun _ hk => hk, fun _ hk => hk⟩, trivial⟩
  | token grain =>
    obtain rfl := Except.ok.inj h
    exact ⟨.refl _, trivial⟩

theorem foldlM_applyRow_keeps {rows : List FederatedPulseRow} (h : rows.foldlM applyRow tables = .ok tables') :
    Keeps tables tables' ∧ ∀ row ∈ rows, tables'.Has row := by
  induction rows generalizing tables with
  | nil =>
    obtain rfl := Except.ok.inj h
    exact ⟨.refl _, fun _ hmem => (by cases hmem)⟩
  | cons row rows ih =>
    rw [List.foldlM_cons] at h
    obtain ⟨between, hrow, h⟩ := bind_ok h
    obtain ⟨hkeeps, hhas⟩ := applyRow_keeps hrow
    obtain ⟨hlast, hothers⟩ := ih h
    refine ⟨hkeeps.trans hlast, fun row' hmem => ?_⟩
    rcases List.mem_cons.mp hmem with rfl | hmem
    · exact hlast.has hhas
    · exact hothers row' hmem

theorem has_of_grain {row : FederatedPulseRow} (h : row.grain?.isNone = false) : tables.Has row := by
  cases row with
  | token _ => trivial
  | _ => cases h

/-- The rows but the tokens are there before the tokens. -/
theorem foldlM_applyRow_has {rows : List FederatedPulseRow}
    (h : (rows.filter fun row => row.grain?.isNone).foldlM applyRow tables = .ok tables') :
    Keeps tables tables' ∧ ∀ row ∈ rows, tables'.Has row := by
  obtain ⟨hkeeps, hhas⟩ := foldlM_applyRow_keeps h
  refine ⟨hkeeps, fun row hrow => ?_⟩
  cases hgrain : row.grain?.isNone with
  | true => exact hhas row (List.mem_filter.mpr ⟨hrow, hgrain⟩)
  | false => exact has_of_grain hgrain

theorem applyRows_keeps {crates : Crates} {rows : List FederatedPulseRow} (h : tables.applyRows crates rows = .ok tables') :
    Keeps tables tables' ∧ ∀ row ∈ rows, tables'.Has row := by
  unfold applyRows at h
  obtain ⟨between, hfold, hbatch⟩ := bind_ok h
  have hkeeps := (upsertTokenBatch_filed hbatch).keeps
  obtain ⟨hbetween, hhas⟩ := foldlM_applyRow_has hfold
  exact ⟨hbetween.trans hkeeps, fun row hrow => hkeeps.has (hhas row hrow)⟩

end Tables

/-! ## What fails -/

theorem validateText_ne_sqlError {kind value : String} {maxBytes : Nat} :
    validateText kind value maxBytes ≠ .error sqlError := by
  unfold validateText
  repeat' split
  all_goals simp [sqlError, PulseError.invalidInput]

theorem CollectionOutcome.validate_ne_sqlError {outcome : CollectionOutcome} : outcome.validate ≠ .error sqlError := by
  unfold CollectionOutcome.validate
  repeat' split
  all_goals simp [sqlError, PulseError.invalidInput]

theorem invalidInput_ne_sqlError {message : String} : PulseError.invalidInput message ≠ sqlError := by
  intro h
  cases h

/-- A check before the rest of a computation. -/
theorem guard_ne_sqlError {α : Type} {c : Prop} [Decidable c] {e : PulseError} {rest : Unit → PulseResult α}
    (he : e ≠ sqlError) (hrest : rest () ≠ .error sqlError) :
    (if c then throw e >>= rest else rest ()) ≠ .error sqlError := by
  split
  · exact fun h => he (Except.error.inj h)
  · exact hrest

theorem UsageSnapshot.validate_ne_sqlError {snapshot : UsageSnapshot} : snapshot.validate ≠ .error sqlError := by
  refine bind_ne_error CollectionOutcome.validate_ne_sqlError fun _ _ => ?_
  refine guard_ne_sqlError invalidInput_ne_sqlError ?_
  refine guard_ne_sqlError invalidInput_ne_sqlError ?_
  refine guard_ne_sqlError invalidInput_ne_sqlError ?_
  refine guard_ne_sqlError invalidInput_ne_sqlError ?_
  split
  · exact validateText_ne_sqlError
  · exact fun h => (by cases h)

theorem ContextSession.validate_ne_sqlError {session : ContextSession} : session.validate ≠ .error sqlError := by
  have hrest : (do
      if session.contextTokens.any fun tokens => session.effectiveLimit.any fun limit => decide (limit < tokens) then
        throw (.invalidInput "context token count cannot exceed its effective limit")
      if session.effectiveLimit = some 0 then
        throw (.invalidInput "context effective limit must be greater than zero")
      if session.contextPercent.isSome ∧ (session.contextTokens = none ∨ session.effectiveLimit = none) then
        throw (.invalidInput "context percentage requires tokens and effective limit") : PulseResult Unit) ≠
        .error sqlError := by
    refine guard_ne_sqlError invalidInput_ne_sqlError ?_
    refine guard_ne_sqlError invalidInput_ne_sqlError ?_
    split
    · exact fun h => invalidInput_ne_sqlError (Except.error.inj h)
    · exact fun h => (by cases h)
  unfold ContextSession.validate
  cases session.model with
  | some model => exact bind_ne_error validateText_ne_sqlError fun _ _ => hrest
  | none => exact hrest

theorem TokenGrain.validate_ne_sqlError {crates : Crates} {grain : TokenGrain} :
    grain.validate crates ≠ .error sqlError := by
  refine bind_ne_error validateText_ne_sqlError fun _ _ => ?_
  have hrest : (if grain.settingsHash ≠ grain.settings.sha256 crates then
      throw (.invalidInput "settings_hash does not match settings") else pure () : PulseResult Unit) ≠ .error sqlError := by
    split
    · exact fun h => invalidInput_ne_sqlError (Except.error.inj h)
    · exact fun h => (by cases h)
  cases crates.dateError grain.day with
  | some error => exact fun h => invalidInput_ne_sqlError (Except.error.inj h)
  | none => exact hrest

theorem Profile.validate_ne_sqlError {profile : Profile} : profile.validate ≠ .error sqlError := by
  have hconfiguration : ∀ {message : String}, PulseError.configuration message ≠ sqlError := fun h => (by cases h)
  have horigin : profile.validateOrigin ≠ .error sqlError := by
    unfold Profile.validateOrigin
    repeat' split
    all_goals simp [sqlError, PulseError.configuration]
  have hname : ∀ name, validateEnvironmentName name ≠ .error sqlError := by
    intro name
    unfold validateEnvironmentName
    simp only
    split <;> simp [sqlError, PulseError.configuration]
  have hbudget : (do
      if profile.monthlyBudgetUsd.any fun budget => !(budget.isFinite && budget.isPositive) then
        throw (.configuration "monthly_budget_usd must be finite and greater than zero")
      profile.validateOrigin : PulseResult Unit) ≠ .error sqlError :=
    guard_ne_sqlError hconfiguration horigin
  have hrest : (do
      if profile.apiKeyFile.any fun path => !path.startsWith "/" then
        throw (.configuration "api_key_file must be an absolute path")
      if profile.monthlyBudgetUsd.any fun budget => !(budget.isFinite && budget.isPositive) then
        throw (.configuration "monthly_budget_usd must be finite and greater than zero")
      profile.validateOrigin : PulseResult Unit) ≠ .error sqlError :=
    guard_ne_sqlError hconfiguration hbudget
  unfold Profile.validate
  refine guard_ne_sqlError hconfiguration ?_
  refine guard_ne_sqlError hconfiguration ?_
  cases profile.apiKeyEnv with
  | some name => exact bind_ne_error (hname _) fun _ _ => hrest
  | none => exact hrest

theorem Tables.asI64_ne_sqlError {value : Nat} {field : String} : asI64 value field ≠ .error sqlError := by
  unfold asI64
  split <;> simp [sqlError, PulseError.invalidInput]

/-! ## References -/

/-- The profile and the machine that a row refers to. -/
def FederatedPulseRow.references : FederatedPulseRow → Option (ProfileName × MachineName)
  | usage row => some (row.profile, row.machine)
  | context row => some (row.profile, row.machine)
  | token row => some (row.profile, row.machine)
  | _ => none

namespace Tables

variable {tables tables' : Tables}

/-- What a row refers to is stored, or is one of some rows before it. -/
def RefersWithin (tables : Tables) (before : List FederatedPulseRow) (profile : ProfileName) (machine : MachineName) :
    Prop :=
  ((tables.profiles.find? profile.value).isSome ∨ ∃ row, .profile row ∈ before ∧ row.name = profile) ∧
    ((tables.machines.find? machine.value).isSome ∨ ∃ row, .machine row ∈ before ∧ row.name = machine)

/-- What each row of a page refers to is stored, or comes before it. -/
def Arrived (tables : Tables) (rows : List FederatedPulseRow) : Prop :=
  ∀ before row after, rows = before ++ row :: after → ∀ profile machine, row.references = some (profile, machine) →
    RefersWithin tables before profile machine

theorem RefersWithin.refers {before : List FederatedPulseRow} {profile : ProfileName} {machine : MachineName}
    (h : RefersWithin tables before profile machine) (hkeeps : Keeps tables tables')
    (hbefore : ∀ row ∈ before, tables'.Has row) : tables'.Refers profile machine := by
  refine ⟨?_, ?_⟩
  · rcases h.1 with hstored | ⟨row, hrow, rfl⟩
    · exact hkeeps.profiles _ hstored
    · exact hbefore _ hrow
  · rcases h.2 with hstored | ⟨row, hrow, rfl⟩
    · exact hkeeps.machines _ hstored
    · exact hbefore _ hrow

theorem applyRow_ne_sqlError {row : FederatedPulseRow}
    (h : ∀ profile machine, row.references = some (profile, machine) → tables.Refers profile machine) :
    tables.applyRow row ≠ .error sqlError := by
  cases row with
  | machine row =>
    show tables.upsertMachine row ≠ _
    unfold upsertMachine
    repeat' split
    all_goals simp [sqlError, PulseError.invalidInput]
  | profile row =>
    refine bind_ne_error Profile.validate_ne_sqlError fun _ _ => ?_
    refine guard_ne_sqlError invalidInput_ne_sqlError ?_
    split
    · exact fun h => (by cases h)
    · split
      · exact fun h => absurd (Except.error.inj h) (by decide)
      · split <;> exact fun h => (by cases h)
  | usage row =>
    refine bind_ne_error UsageSnapshot.validate_ne_sqlError fun _ _ => ?_
    split
    · rw [dif_pos (h _ _ rfl)]
      exact fun h => (by cases h)
    · exact fun h => absurd (Except.error.inj h) (by decide)
  | context row =>
    refine bind_ne_error ContextSession.validate_ne_sqlError fun _ _ => ?_
    refine bind_ne_error ?_ fun _ _ => ?_
    · refine bind_ne_error ?_ fun _ _ => ?_
      · cases row.contextTokens with
        | none => exact fun h => (by cases h)
        | some value => exact asI64_ne_sqlError
      · cases row.effectiveLimit with
        | none => exact fun h => (by cases h)
        | some value => exact asI64_ne_sqlError
    · rw [dif_pos (h _ _ rfl)]
      split <;> exact fun h => (by cases h)
  | token row => exact fun h => (by cases h)

theorem foldlM_upsertToken_ne_sqlError {grains : List TokenGrain}
    (h : ∀ grain ∈ grains, tables.Refers grain.profile grain.machine) :
    grains.foldlM upsertToken tables ≠ .error sqlError := by
  refine foldlM_ne_error (fun rest tables' => ∀ grain ∈ rest, tables'.Refers grain.profile grain.machine) ?_ ?_ h
  · intro grain rest before after hrest hput grain' hgrain'
    obtain ⟨hrefers, rfl⟩ := upsertToken_ok hput
    exact hrest grain' (List.mem_cons_of_mem _ hgrain')
  · intro grain rest before hrest
    rw [upsertToken, dif_pos (hrest grain List.mem_cons_self)]
    exact fun h => (by cases h)

theorem upsertTokenBatch_ne_sqlError {crates : Crates} {grains : List TokenGrain}
    (h : ∀ grain ∈ grains, tables.Refers grain.profile grain.machine) :
    tables.upsertTokenBatch crates grains ≠ .error sqlError := by
  refine bind_ne_error (forM_ne_error fun _ _ => TokenGrain.validate_ne_sqlError) fun _ _ => ?_
  have hscopes : ∀ rows ∈ (byScope grains).values, ∀ grain ∈ rows, tables.Refers grain.profile grain.machine :=
    fun rows hrows grain hgrain =>
      h grain ((byScope_perm grains).mem_iff.mp (List.mem_flatten.mpr ⟨rows, hrows, hgrain⟩))
  refine foldlM_ne_error (fun rest tables' => ∀ rows ∈ rest, ∀ grain ∈ rows, tables'.Refers grain.profile grain.machine)
    ?_ ?_ hscopes
  · intro rows rest before after hrest hscope rows' hrows' grain hgrain
    exact ((upsertScope_filed hscope).refers _ _).mpr (hrest rows' (List.mem_cons_of_mem _ hrows') grain hgrain)
  · intro rows rest before hrest
    refine bind_ne_error (forM_ne_error fun grain _ => ?_) fun _ _ => ?_
    · refine bind_ne_error asI64_ne_sqlError fun _ _ => ?_
      refine bind_ne_error asI64_ne_sqlError fun _ _ => ?_
      refine bind_ne_error asI64_ne_sqlError fun _ _ => ?_
      exact bind_ne_error asI64_ne_sqlError fun _ _ => asI64_ne_sqlError
    · exact foldlM_upsertToken_ne_sqlError fun grain hgrain =>
        hrest rows List.mem_cons_self grain (List.mem_of_mem_filter hgrain)

/-- What is left out of a page has to be stored already. -/
theorem Arrived.filter {α : Type} {items : List α} {f : α → FederatedPulseRow} (h : Arrived tables (items.map f))
    {p : α → Bool} (hp : ∀ a ∈ items, p a = false → tables.Has (f a)) : Arrived tables ((items.filter p).map f) := by
  intro before row after hsplit profile machine hreferences
  obtain ⟨before', rest, hfilter, rfl, hrest⟩ := List.map_eq_append_iff.mp hsplit
  obtain ⟨item, after', rfl, rfl, rfl⟩ := List.map_eq_cons_iff.mp hrest
  obtain ⟨first, rest, rfl, rfl, hrest⟩ := List.filter_eq_append_iff.mp hfilter
  obtain ⟨skipped, last, rfl, hskipped, -, -⟩ := List.filter_eq_cons_iff.mp hrest
  have hrefers := h ((first ++ skipped).map f) (f item) (last.map f) (by simp) profile machine hreferences
  have hstored : ∀ row' ∈ (first ++ skipped).map f, row' ∈ (first.filter p).map f ∨ tables.Has row' := by
    intro row' hrow'
    obtain ⟨a, ha, rfl⟩ := List.mem_map.mp hrow'
    cases hp' : p a with
    | false =>
      have hmem : a ∈ first ++ (skipped ++ item :: last) := by
        rw [← List.append_assoc]
        exact List.mem_append_left _ ha
      exact .inr (hp a hmem hp')
    | true =>
      rcases List.mem_append.mp ha with hmem | hmem
      · exact .inl (List.mem_map_of_mem (List.mem_filter.mpr ⟨hmem, hp'⟩))
      · exact absurd hp' (hskipped a hmem)
  refine ⟨?_, ?_⟩
  · rcases hrefers.1 with hprofile | ⟨row', hrow', rfl⟩
    · exact .inl hprofile
    · exact (hstored _ hrow').symm.imp id fun hmem => ⟨row', hmem, rfl⟩
  · rcases hrefers.2 with hmachine | ⟨row', hrow', rfl⟩
    · exact .inl hmachine
    · exact (hstored _ hrow').symm.imp id fun hmem => ⟨row', hmem, rfl⟩

theorem Arrived.step {row : FederatedPulseRow} {rows : List FederatedPulseRow} (h : Arrived tables (row :: rows))
    (hrow : tables.applyRow row = .ok tables') : Arrived tables' rows := by
  obtain ⟨hkeeps, hhas⟩ := applyRow_keeps hrow
  intro before row' after hsplit profile machine hreferences
  have hrefers := h (row :: before) row' after (by rw [hsplit]; rfl) profile machine hreferences
  refine ⟨?_, ?_⟩
  · rcases hrefers.1 with hprofile | ⟨named, hnamed, rfl⟩
    · exact .inl (hkeeps.profiles _ hprofile)
    · rcases List.mem_cons.mp hnamed with rfl | hnamed
      · exact .inl hhas
      · exact .inr ⟨named, hnamed, rfl⟩
  · rcases hrefers.2 with hmachine | ⟨named, hnamed, rfl⟩
    · exact .inl (hkeeps.machines _ hmachine)
    · rcases List.mem_cons.mp hnamed with rfl | hnamed
      · exact .inl hhas
      · exact .inr ⟨named, hnamed, rfl⟩

/-- **Rows whose references arrive do not fail on them.** -/
theorem applyRows_ne_sqlError {crates : Crates} {rows : List FederatedPulseRow} (h : Arrived tables rows) :
    tables.applyRows crates rows ≠ .error sqlError := by
  refine bind_ne_error ?_ fun between hbetween => ?_
  · have hothers : Arrived tables (rows.filter fun row => row.grain?.isNone) := by
      rw [← List.map_id rows] at h
      rw [← List.map_id (rows.filter fun row => row.grain?.isNone)]
      exact h.filter fun _ _ hgrain => has_of_grain hgrain
    refine foldlM_ne_error (fun rest tables' => Arrived tables' rest) (fun _ _ _ _ hrest hrow => hrest.step hrow) ?_
      hothers
    intro row rest before hrest
    refine applyRow_ne_sqlError fun profile machine hreferences => ?_
    exact (hrest [] row rest rfl profile machine hreferences).refers (.refl _) fun _ hmem => (by cases hmem)
  · obtain ⟨hkeeps, hhas⟩ := foldlM_applyRow_has hbetween
    refine upsertTokenBatch_ne_sqlError fun grain hgrain => ?_
    obtain ⟨row, hrow, hrowgrain⟩ := List.mem_filterMap.mp hgrain
    cases row with
    | token grain' =>
      obtain rfl := Option.some.inj hrowgrain
      obtain ⟨before, after, hsplit⟩ := List.append_of_mem hrow
      refine (h before _ after hsplit _ _ rfl).refers hkeeps fun row' hrow' => hhas row' ?_
      rw [hsplit]
      exact List.mem_append_left _ hrow'
    | _ => cases hrowgrain

end Tables

/-! ## A page -/

section
variable {rowCrates : Crates} {crates : FederationCrates} {accountId : AccountId} {source : MachineName}
  {store store' : FederationStore} {expected next : Option OpaqueCursor} {records pending : List FederatedRecord}
  {known : SortedMap String String}

theorem pendingRecords_ok (h : pendingRecords crates known records = .ok pending) :
    pending = records.filter (fun record => (known.find? record.key).isNone) ∧
      ∀ record ∈ records, ∀ fingerprint, known.find? record.key = some fingerprint →
        fingerprint = crates.rowDigest record.row := by
  induction records generalizing pending with
  | nil =>
    obtain rfl := Except.ok.inj h
    exact ⟨rfl, fun _ hmem => (by cases hmem)⟩
  | cons record records ih =>
    rw [pendingRecords] at h
    cases hfind : known.find? record.key with
    | some fingerprint =>
      simp only [hfind] at h
      split at h
      next heq =>
        obtain ⟨rfl, hknown⟩ := ih h
        refine ⟨by rw [List.filter_cons, hfind]; rfl, fun record' hmem fingerprint' hfind' => ?_⟩
        rcases List.mem_cons.mp hmem with rfl | hmem
        · obtain rfl := Option.some.inj (hfind.symm.trans hfind')
          exact heq
        · exact hknown record' hmem fingerprint' hfind'
      · cases h
    | none =>
      simp only [hfind] at h
      obtain ⟨pending', hpending, rfl⟩ := map_ok h
      obtain ⟨rfl, hknown⟩ := ih hpending
      refine ⟨by rw [List.filter_cons, hfind]; rfl, fun record' hmem fingerprint' hfind' => ?_⟩
      rcases List.mem_cons.mp hmem with rfl | hmem
      · rw [hfind] at hfind'
        cases hfind'
      · exact hknown record' hmem fingerprint' hfind'

/-- A fingerprint on file is an old one, or one of the records filed. -/
theorem find?_filed {key fingerprint : String}
    (h : (pending.foldl (fun known record => known.insert record.key (crates.rowDigest record.row)) known).find? key =
      some fingerprint) :
    known.find? key = some fingerprint ∨ ∃ record ∈ pending, crates.rowDigest record.row = fingerprint := by
  induction pending generalizing known with
  | nil => exact .inl h
  | cons record pending ih =>
    rcases ih h with hfind | ⟨record', hmem, hdigest⟩
    · have hinsert : (known.insert record.key (crates.rowDigest record.row)).find? key =
          if key = record.key then some (crates.rowDigest record.row) else known.find? key := Entries.find?_insert
      rw [hinsert] at hfind
      split at hfind
      · exact .inr ⟨record, List.mem_cons_self, Option.some.inj hfind⟩
      · exact .inl hfind
    · exact .inr ⟨record', List.mem_cons_of_mem _ hmem, hdigest⟩

/-- The page's records in the order they are applied in. -/
abbrev inOrder (records : List FederatedRecord) : List FederatedRecord :=
  records.insertionSort fun a b => a.row.applyPriority ≤ b.row.applyPriority

theorem applyFederationPage_ok
    (h : applyFederationPage rowCrates crates store accountId source expected next records = .ok store') :
    ∃ pending, pendingRecords crates store.records (inOrder records) = .ok pending ∧
      store.tables.applyRows rowCrates (pending.map (·.row)) = .ok store'.tables ∧
      checkRecords accountId source [] records = .ok () ∧
      store'.peer.cursor = next ∧ store'.peer.complete = next.isNone ∧ store.peer.complete = false ∧
      store'.records =
        pending.foldl (fun known record => known.insert record.key (crates.rowDigest record.row)) store.records := by
  simp only [applyFederationPage, bind, Except.bind, pure, Except.pure] at h
  split at h
  · cases h
  next hcheck =>
    split at h
    · cases h
    next hstate =>
      split at h
      · cases h
      next pending hpending =>
        split at h
        · cases h
        next tables happly =>
          obtain rfl := Except.ok.inj h
          rw [not_or, Bool.not_eq_true] at hstate
          exact ⟨pending, hpending, happly, hcheck, rfl, rfl, hstate.2, rfl⟩

theorem FederatedRecord.validate_ne_sqlError {record : FederatedRecord} :
    record.validate accountId source ≠ .error sqlError := by
  have horigin : record.origin.validateDirect source ≠ .error sqlError := by
    unfold PulseOrigin.validateDirect
    split
    · exact fun h => absurd (Except.error.inj h) (by decide)
    · exact fun h => (by cases h)
  have hmismatch : originMismatch ≠ sqlError := by decide
  unfold FederatedRecord.validate
  refine guard_ne_sqlError invalidInput_ne_sqlError ?_
  refine bind_ne_error horigin fun _ _ => ?_
  refine guard_ne_sqlError (by decide) ?_
  cases record.row with
  | profile row =>
    simp only
    split
    · exact fun h => absurd (Except.error.inj h) (by decide)
    · exact fun h => (by cases h)
  | machine row | usage row | context row | token row =>
    simp only
    split
    · exact fun h => hmismatch (Except.error.inj h)
    · exact fun h => (by cases h)

theorem checkRecords_ne_sqlError {keys : List String} : checkRecords accountId source keys records ≠ .error sqlError := by
  induction records generalizing keys with
  | nil => exact fun h => (by cases h)
  | cons record records ih =>
    refine bind_ne_error FederatedRecord.validate_ne_sqlError fun _ _ => ?_
    exact guard_ne_sqlError (by decide) ih

theorem pendingRecords_ne_sqlError : pendingRecords crates known records ≠ .error sqlError := by
  induction records with
  | nil => exact fun h => (by cases h)
  | cons record records ih =>
    rw [pendingRecords]
    split
    · split
      · exact ih
      · exact fun h => absurd (Except.error.inj h) (by decide)
    · cases hrest : pendingRecords crates known records with
      | error e =>
        intro h
        exact ih (hrest.trans (congrArg _ (Except.error.inj h)))
      | ok pending => exact fun h => (by cases h)

/-- A page whose references arrive is not refused for them. -/
theorem applyFederationPage_ne_sqlError (h : ∀ pending, pendingRecords crates store.records (inOrder records) = .ok pending →
      Tables.Arrived store.tables (pending.map (·.row))) :
    applyFederationPage rowCrates crates store accountId source expected next records ≠ .error sqlError := by
  unfold applyFederationPage
  refine bind_ne_error checkRecords_ne_sqlError fun _ _ => ?_
  refine guard_ne_sqlError (by decide) ?_
  refine bind_ne_error pendingRecords_ne_sqlError fun pending hpending => ?_
  exact bind_ne_error (Tables.applyRows_ne_sqlError (h pending hpending)) fun _ _ => fun h => (by cases h)

end

end Atmux.Pulse
