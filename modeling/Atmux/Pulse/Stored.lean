/-
What storing a batch has done to the tables.

Each statement adds rows of the batch and keeps the others (`Grows`), and the
statements' additions add up. So new rows carry the batch's account and
machine, a profile of this store's own stays as it is, and a table has no more
rows than it had and keys that were new (`length_rows_le`).
-/
import Mathlib.Data.List.Nodup
import Atmux.Pulse.Ingest

namespace Atmux.Pulse

open Lib

/-! ## Tables that grow -/

section
variable {K R : Type} [LinearOrder K] {key : R → K} {table table' table'' : Table key} {p : R → Prop} {keys keys' : List K} {row : R}

/-- Rows were added under some keys, and no key has got lost. -/
structure Adds (p : R → Prop) (table : Table key) (keys : List K) (table' : Table key) : Prop where
  mem : ∀ row ∈ table'.rows, row ∈ table.rows ∨ p row
  keys : ∀ k, (table'.find? k).isSome → (table.find? k).isSome ∨ k ∈ keys

theorem Adds.refl : Adds p table [] table := ⟨fun _ h => .inl h, fun _ h => .inl h⟩

theorem Adds.append (h : Adds p table keys table') (h' : Adds p table' keys' table'') : Adds p table (keys ++ keys') table'' := by
  refine ⟨fun row hrow => ?_, fun k hk => ?_⟩
  · exact (h'.mem row hrow).elim (h.mem row) .inr
  · rcases h'.keys k hk with hk | hk
    · exact (h.keys k hk).imp_right (List.mem_append_left _)
    · exact .inr (List.mem_append_right _ hk)

theorem adds_upsert (hp : p row) : Adds p table [key row] (table.upsert row) := by
  refine ⟨fun other hother => ?_, fun k hk => ?_⟩
  · rcases Table.mem_upsert hother with rfl | hother
    · exact .inr hp
    · exact .inl hother
  · rw [Table.find?_upsert] at hk
    split at hk
    next heq => exact .inr (List.mem_singleton.mpr heq)
    · exact .inl hk

theorem Adds.weaken (h : Adds p table keys table') (hkeys : ∀ k ∈ keys, k ∈ keys') : Adds p table keys' table' :=
  ⟨h.mem, fun k hk => (h.keys k hk).imp_right (hkeys k)⟩

theorem isSome_find?_iff {k : K} : (table.find? k).isSome ↔ k ∈ table.rows.map key := by
  rw [Option.isSome_iff_exists, List.mem_map]
  constructor
  · rintro ⟨row, hrow⟩
    obtain rfl := Table.key_of_find? hrow
    exact ⟨row, Table.mem_rows.mpr hrow, rfl⟩
  · rintro ⟨row, hrow, rfl⟩
    exact ⟨row, Table.mem_rows.mp hrow⟩

/-- There are no more rows than there were, and keys that were new. -/
theorem Adds.length_rows_le (h : Adds p table keys table') :
    table'.rows.length ≤ table.rows.length + newKeys table.toSortedMap keys := by
  have hnodup : (table'.rows.map key).Nodup :=
    List.pairwise_map.mpr (table'.rows_pairwise.imp fun hlt => ne_of_lt hlt)
  have hsubset : table'.rows.map key ⊆ table.rows.map key ++ keys.dedup.filter fun k => (table.find? k).isNone := by
    intro k hk
    rcases h.keys k (isSome_find?_iff.mpr hk) with hold | hnew
    · exact List.mem_append_left _ (isSome_find?_iff.mp hold)
    · cases hfind : table.find? k with
      | none => exact List.mem_append_right _ (List.mem_filter.mpr ⟨List.mem_dedup.mpr hnew, by rw [hfind]; rfl⟩)
      | some row => exact List.mem_append_left _ (isSome_find?_iff.mp (by rw [hfind]; rfl))
  have hle := (hnodup.subperm hsubset).length_le
  simpa [newKeys] using hle

end

namespace Tables

variable {tables tables' tables'' : Tables} {accountId : AccountId} {machine : MachineName}

/-- The tables after rows of an account and a machine were added. -/
structure Grows (accountId : AccountId) (machine : MachineName) (tables : Tables) (profiles : List String) (snapshots : Nat)
    (tokens contexts : List (List String)) (tables' : Tables) : Prop where
  profiles : Adds (fun _ => True) tables.profiles profiles tables'.profiles
  locals : ∀ profile ∈ tables.profiles.rows, profile.origin = .local → profile ∈ tables'.profiles.rows
  usage : ∀ stored ∈ tables'.usage.rows, stored ∈ tables.usage.rows ∨
    stored.snapshot.accountId = accountId ∧ stored.snapshot.machine = machine
  snapshots : tables'.usage.rows.length ≤ tables.usage.rows.length + snapshots
  tokens : Adds (fun row => row.accountId = accountId ∧ row.machine = machine) tables.tokens tokens tables'.tokens
  contexts : Adds (fun row => row.accountId = accountId ∧ row.machine = machine) tables.contexts contexts tables'.contexts

theorem Grows.refl : Grows accountId machine tables [] 0 [] [] tables :=
  ⟨.refl, fun _ h _ => h, fun _ h => .inl h, le_refl _, .refl, .refl⟩

theorem Grows.append {profiles profiles' : List String} {snapshots snapshots' : Nat}
    {tokens tokens' contexts contexts' : List (List String)} (h : Grows accountId machine tables profiles snapshots tokens contexts tables')
    (h' : Grows accountId machine tables' profiles' snapshots' tokens' contexts' tables'') :
    Grows accountId machine tables (profiles ++ profiles') (snapshots + snapshots') (tokens ++ tokens') (contexts ++ contexts') tables'' := by
  refine ⟨h.profiles.append h'.profiles, fun profile hprofile hlocal => ?_, fun stored hstored => ?_, ?_,
    h.tokens.append h'.tokens, h.contexts.append h'.contexts⟩
  · exact h'.locals profile (h.locals profile hprofile hlocal) hlocal
  · exact (h'.usage stored hstored).elim (h.usage stored) .inr
  · have hle := h.snapshots
    have hle' := h'.snapshots
    omega

theorem upsertReportedProfile_grows {profile : Profile} (h : tables.upsertReportedProfile profile = .ok tables') :
    Grows accountId machine tables [profile.primaryKey] 0 [] [] tables' := by
  obtain ⟨horigin, ⟨existing, -, -, rfl⟩ | ⟨row, rfl, hname, hrow⟩⟩ := upsertReportedProfile_ok h
  · exact { Grows.refl with profiles := Adds.refl.weaken fun _ hk => (by cases hk) }
  · have hkey : row.primaryKey = profile.primaryKey := congrArg ValidatedString.value hname
    refine { Grows.refl with profiles := hkey ▸ adds_upsert trivial, locals := fun other hother hlocal => ?_ }
    -- a row that is replaced is not of this store's own
    have hne : other.primaryKey ≠ row.primaryKey := by
      intro heq
      rcases hrow with ⟨hnone, -⟩ | ⟨existing, hfind, hreported, -⟩
      · rw [Table.mem_rows, heq, hkey, hnone] at hother
        cases hother
      · rw [Table.mem_rows, heq, hkey, hfind] at hother
        exact hreported ((Option.some.inj hother).symm ▸ hlocal)
    refine Table.mem_rows.mpr ?_
    rw [putProfile_profiles, Table.find?_upsert_of_ne hne]
    exact Table.mem_rows.mp hother

theorem insertSnapshot_grows {snapshot : UsageSnapshot} (haccount : snapshot.accountId = accountId)
    (hmachine : snapshot.machine = machine) (h : tables.insertSnapshot snapshot = .ok tables') :
    Grows accountId machine tables [] 1 [] [] tables' := by
  obtain ⟨hrefers, hroom, rfl⟩ := insertSnapshot_ok h
  let row : StoredUsageSnapshot := ⟨tables.usageSequence + 1, snapshot⟩
  have hadds : Adds (fun stored => stored.snapshot.accountId = accountId ∧ stored.snapshot.machine = machine)
      tables.usage [row.id] (tables.usage.upsert row) := adds_upsert ⟨haccount, hmachine⟩
  refine { Grows.refl with usage := hadds.mem, snapshots := ?_ }
  have hle := hadds.length_rows_le
  have hone : newKeys tables.usage.toSortedMap [row.id] ≤ 1 := List.length_filter_le _ _
  exact hle.trans (Nat.add_le_add_left hone _)

theorem upsertContext_grows {session : ContextSession} (haccount : session.accountId = accountId)
    (hmachine : session.machine = machine) (h : tables.upsertContext session = .ok tables') :
    Grows accountId machine tables [] 0 [] [session.primaryKey] tables' := by
  obtain ⟨old, -, -, rfl⟩ | ⟨-, hrefers, rfl⟩ := upsertContext_ok h
  · exact { Grows.refl with contexts := Adds.refl.weaken fun _ hk => (by cases hk) }
  · exact { Grows.refl with contexts := adds_upsert ⟨haccount, hmachine⟩ }

theorem Filed.grows {grains : List TokenGrain} (hscope : ∀ row ∈ grains, row.accountId = accountId ∧ row.machine = machine)
    (h : Filed tables grains tables') :
    Grows accountId machine tables [] 0 (grains.map TokenGrain.primaryKey) [] tables' := by
  have htokens : Adds (fun row : TokenGrain => row.accountId = accountId ∧ row.machine = machine) tables.tokens
      (grains.map TokenGrain.primaryKey) tables'.tokens := by
    refine ⟨fun row hrow => (h.mem row hrow).imp_right (hscope row), fun k hk => ?_⟩
    by_cases hkey : ∀ grain ∈ grains, grain.primaryKey ≠ k
    · rw [h.others k hkey] at hk
      exact .inl hk
    · push Not at hkey
      obtain ⟨grain, hgrain, rfl⟩ := hkey
      exact .inr (List.mem_map_of_mem hgrain)
  refine ⟨?_, fun profile hprofile _ => ?_, fun stored hstored => .inl ?_, ?_, htokens, ?_⟩
  · rw [h.profiles]
    exact .refl
  · rwa [h.profiles]
  · rwa [h.usage] at hstored
  · rw [h.usage, Nat.add_zero]
  · rw [h.contexts]
    exact .refl

/-! ## Whole batches -/

/-- Rows that are stored one after another. -/
theorem foldlM_grows {R : Type} {store : Tables → R → PulseResult Tables} {rows : List R} (profiles : R → List String)
    (snapshots : Nat) (tokens contexts : R → List (List String))
    (hstore : ∀ row ∈ rows, ∀ before after, store before row = .ok after →
      Grows accountId machine before (profiles row) snapshots (tokens row) (contexts row) after)
    (h : rows.foldlM store tables = .ok tables') :
    Grows accountId machine tables (rows.flatMap profiles) (rows.length * snapshots) (rows.flatMap tokens)
      (rows.flatMap contexts) tables' := by
  induction rows generalizing tables with
  | nil =>
    obtain rfl := Except.ok.inj h
    simpa using Grows.refl
  | cons row rows ih =>
    rw [List.foldlM_cons] at h
    obtain ⟨between, hrow, h⟩ := bind_ok h
    have hfirst := hstore row List.mem_cons_self _ _ hrow
    have hrest := ih (fun row' hrow' => hstore row' (List.mem_cons_of_mem _ hrow')) h
    have hgrows := hfirst.append hrest
    rwa [← List.flatMap_cons, ← List.flatMap_cons, ← List.flatMap_cons, Nat.add_comm snapshots, ← Nat.succ_mul] at hgrows

end Tables

namespace IngestStore

variable {crates : Crates} {accountId : AccountId} {machine : MachineName} {store store' : IngestStore} {batch : IngestBatch}

theorem upsertGemini_adds {gemini gemini' : Table GeminiQuota.primaryKey} {quota : GeminiQuota}
    (h : upsertGemini gemini quota = .ok gemini') : Adds (fun _ => True) gemini [quota.primaryKey] gemini' := by
  obtain ⟨_, -, h⟩ := bind_ok h
  split at h
  · obtain rfl := Except.ok.inj h
    exact Adds.refl.weaken fun _ hk => (by cases hk)
  · obtain rfl := Except.ok.inj h
    exact adds_upsert trivial

theorem foldlM_upsertGemini_adds {gemini gemini' : Table GeminiQuota.primaryKey} {quotas : List GeminiQuota}
    (h : quotas.foldlM upsertGemini gemini = .ok gemini') :
    Adds (fun _ => True) gemini (quotas.map GeminiQuota.primaryKey) gemini' := by
  induction quotas generalizing gemini with
  | nil =>
    obtain rfl := Except.ok.inj h
    exact .refl
  | cons quota quotas ih =>
    rw [List.foldlM_cons] at h
    obtain ⟨between, hquota, h⟩ := bind_ok h
    exact (upsertGemini_adds hquota).append (ih h)

/-- What was stored is the batch, and the account's requests are still to be remembered. -/
structure Grows (accountId : AccountId) (machine : MachineName) (store : IngestStore) (batch : IngestBatch)
    (store' : IngestStore) : Prop where
  tables : store.tables.Grows accountId machine (batch.profiles.map Profile.primaryKey) batch.snapshots.length
    (batch.tokenGrains.map TokenGrain.primaryKey) (batch.contextSessions.map ContextSession.primaryKey) store'.tables
  gemini : Adds (fun _ => True) store.gemini (batch.geminiQuotas.map GeminiQuota.primaryKey) store'.gemini
  replays : store'.replays = store.replays

theorem storeBatch_grows (hscope : batch.inScope accountId machine) (h : store.storeBatch crates batch = .ok store') :
    store.Grows accountId machine batch store' := by
  obtain ⟨-, hsnapshots, htokens, hcontexts, -⟩ := hscope
  obtain ⟨profiled, hprofiled, h⟩ := bind_ok h
  obtain ⟨polled, hpolled, h⟩ := bind_ok h
  obtain ⟨counted, hcounted, h⟩ := bind_ok h
  obtain ⟨observed, hobserved, h⟩ := bind_ok h
  obtain ⟨gemini, hgemini, h⟩ := bind_ok h
  obtain rfl := Except.ok.inj h
  have hfirst : store.tables.Grows accountId machine _ _ _ _ profiled :=
    Tables.foldlM_grows (fun row => [row.primaryKey]) 0 (fun _ => []) (fun _ => [])
      (fun row _ _ _ => Tables.upsertReportedProfile_grows) hprofiled
  have hsecond := Tables.foldlM_grows (fun _ => []) 1 (fun _ => []) (fun _ => [])
    (fun row hrow _ _ => Tables.insertSnapshot_grows (hsnapshots row hrow).1 (hsnapshots row hrow).2) hpolled
  have hthird := (Tables.upsertTokenBatch_filed hcounted).grows htokens
  have hfourth := Tables.foldlM_grows (fun _ => []) 0 (fun _ => []) (fun row => [row.primaryKey])
    (fun row hrow _ _ => Tables.upsertContext_grows (hcontexts row hrow).1 (hcontexts row hrow).2) hobserved
  refine ⟨?_, foldlM_upsertGemini_adds hgemini, rfl⟩
  have hnone {R K : Type} (rows : List R) : (rows.flatMap fun _ => ([] : List K)) = [] :=
    List.flatMap_eq_nil_iff.mpr fun _ _ => rfl
  simpa [List.map_eq_flatMap, hnone] using ((hfirst.append hsecond).append hthird).append hfourth

end IngestStore

end Atmux.Pulse
