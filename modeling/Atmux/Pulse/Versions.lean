/-
What a coordinator holds of a row that changes from pull to pull.

A record that is on file is not applied again, however long ago it was filed.
As long as no page brings a row back to a content that another has since
replaced, the coordinator holds the latest version it received of each row
(`Mirrors`), and at the end of a generation in which the node was quiet that
is the node's own (`generation_mirrors`). A row that does come back is
skipped, and the coordinator keeps the other content (`profile_came_back`).
-/
import Atmux.Pulse.References

namespace Atmux.Pulse

open Lib

/-! ## Versions -/

namespace FederatedPulseRow

/-- Two versions of one row; usage rows have one each. -/
def Same : FederatedPulseRow → FederatedPulseRow → Prop
  | machine a, machine b => a.name = b.name
  | profile a, profile b => a.name = b.name
  | context a, context b => a.primaryKey = b.primaryKey
  | token a, token b => a.primaryKey = b.primaryKey
  | _, _ => False

theorem Same.symm {a b : FederatedPulseRow} (h : Same a b) : Same b a := by
  cases a <;> cases b <;> first | exact Eq.symm h | exact h

/-- A version that no later one has replaced. -/
def Latest (received : List FederatedPulseRow) (row : FederatedPulseRow) : Prop :=
  ∃ before after, received = before ++ row :: after ∧ ∀ later ∈ after, ¬ Same row later

variable {received page : List FederatedPulseRow} {row : FederatedPulseRow}

theorem Latest.mem (h : Latest received row) : row ∈ received := by
  obtain ⟨before, after, rfl, -⟩ := h
  simp

theorem Latest.append (h : Latest received row) (hpage : ∀ later ∈ page, ¬ Same row later) :
    Latest (received ++ page) row := by
  obtain ⟨before, after, rfl, hafter⟩ := h
  refine ⟨before, after ++ page, by simp, fun later hlater => ?_⟩
  rcases List.mem_append.mp hlater with hlater | hlater
  · exact hafter later hlater
  · exact hpage later hlater

/-- A row of the last page is the latest version. -/
theorem latest_of_mem (hrow : row ∈ page) (hpage : page.Pairwise fun a b => ¬ Same a b) :
    Latest (received ++ page) row := by
  obtain ⟨before, after, rfl⟩ := List.append_of_mem hrow
  refine ⟨received ++ before, after, by simp, ?_⟩
  exact (List.pairwise_cons.mp (List.pairwise_append.mp hpage).2.1).1

/-- The latest version is of the last page, or has none there. -/
theorem Latest.of_append (h : Latest (received ++ page) row) :
    row ∈ page ∨ Latest received row ∧ ∀ later ∈ page, ¬ Same row later := by
  obtain ⟨before, after, heq, hafter⟩ := h
  rcases List.append_eq_append_iff.mp heq with ⟨between, -, rfl⟩ | ⟨between, rfl, hrest⟩
  · exact .inl (by simp)
  · cases between with
    | nil =>
      refine .inl ?_
      rw [List.nil_append] at hrest
      rw [← hrest]
      exact List.mem_cons_self
    | cons row' between =>
      obtain ⟨rfl, rfl⟩ := List.cons.inj hrest
      refine .inr ⟨⟨before, between, rfl, fun later hlater => hafter later (List.mem_append_left _ hlater)⟩, ?_⟩
      exact fun later hlater => hafter later (List.mem_append_right _ hlater)

/-- No version goes behind an earlier one. -/
def NotBehind : FederatedPulseRow → FederatedPulseRow → Prop
  | machine old, machine new => new.firstSeen ≤ old.firstSeen ∧ old.lastSeen ≤ new.lastSeen
  | context old, context new => old.primaryKey = new.primaryKey → old.collectedAt ≤ new.collectedAt
  | _, _ => True

end FederatedPulseRow

/-! ## What the tables hold -/

/-- As a profile is exported. -/
def Profile.Plain (accountId : AccountId) (profile : Profile) : Prop :=
  profile.accountId = accountId ∧ profile.configDir = none ∧ profile.apiKeyEnv = none ∧ profile.apiKeyFile = none ∧
    profile.refresh = .never

namespace Tables

variable {tables tables' : Tables}

/-- The coordinator has a profile of its own by the name. -/
def OwnProfile (tables : Tables) : FederatedPulseRow → Prop
  | .profile row => ∃ own, tables.profiles.find? row.primaryKey = some own ∧ own.origin = .local
  | _ => False

/-- A row is there as it is, or it is a profile that the coordinator has its
own of. -/
def Holds (tables : Tables) : FederatedPulseRow → Prop
  | .machine row => tables.machines.find? row.primaryKey = some row
  | .profile row => tables.profiles.find? row.primaryKey = some row ∨ OwnProfile tables (.profile row)
  | .usage row => ∃ stored ∈ tables.usage.rows, stored.snapshot = row
  | .context row => tables.contexts.find? row.primaryKey = some row
  | .token row => tables.tokens.find? row.primaryKey = some row

/-- The tables have the same under a row's key; of usage rows, no fewer. -/
def AgreeOn (tables tables' : Tables) : FederatedPulseRow → Prop
  | .machine row => tables'.machines.find? row.primaryKey = tables.machines.find? row.primaryKey
  | .profile row => tables'.profiles.find? row.primaryKey = tables.profiles.find? row.primaryKey
  | .usage _ => ∀ stored ∈ tables.usage.rows, stored ∈ tables'.usage.rows
  | .context row => tables'.contexts.find? row.primaryKey = tables.contexts.find? row.primaryKey
  | .token row => tables'.tokens.find? row.primaryKey = tables.tokens.find? row.primaryKey

/-- A statement with the row would leave it as it is. -/
def Fits (accountId : AccountId) (tables : Tables) : FederatedPulseRow → Prop
  | .machine row => ∀ old, tables.machines.find? row.primaryKey = some old →
      old.accountId = row.accountId ∧ FederatedPulseRow.NotBehind (.machine old) (.machine row)
  | .profile row => row.Plain accountId ∧ ∀ old, tables.profiles.find? row.primaryKey = some old →
      old.origin = .local ∨ old.Plain accountId
  | .context row => ∀ old, tables.contexts.find? row.primaryKey = some old → old.collectedAt ≤ row.collectedAt
  | _ => True

variable {row row' : FederatedPulseRow} {accountId : AccountId}

theorem AgreeOn.refl (tables : Tables) (row : FederatedPulseRow) : AgreeOn tables tables row := by
  cases row with
  | usage row => exact fun _ h => h
  | _ => rfl

theorem AgreeOn.trans {tables'' : Tables} (h : AgreeOn tables tables' row) (h' : AgreeOn tables' tables'' row) :
    AgreeOn tables tables'' row := by
  cases row with
  | usage row => exact fun stored hmem => h' stored (h stored hmem)
  | _ => exact Eq.trans h' h

theorem AgreeOn.holds (h : AgreeOn tables tables' row) (hrow : tables.Holds row) : tables'.Holds row := by
  cases row with
  | usage row =>
    obtain ⟨stored, hmem, hsnapshot⟩ := hrow
    exact ⟨stored, h stored hmem, hsnapshot⟩
  | profile row => exact hrow.imp (Eq.trans h) fun ⟨own, hfind, horigin⟩ => ⟨own, Eq.trans h hfind, horigin⟩
  | _ => exact Eq.trans h hrow

theorem AgreeOn.fits (h : AgreeOn tables tables' row) (hrow : Fits accountId tables row) : Fits accountId tables' row := by
  cases row with
  | machine row => exact fun old hfind => hrow old (Eq.trans (Eq.symm h) hfind)
  | profile row => exact ⟨hrow.1, fun old hfind => hrow.2 old (Eq.trans (Eq.symm h) hfind)⟩
  | context row => exact fun old hfind => hrow old (Eq.trans (Eq.symm h) hfind)
  | _ => trivial

theorem applyRow_agrees (h : tables.applyRow row = .ok tables') (hother : ¬ row.Same row') : AgreeOn tables tables' row' := by
  cases row with
  | machine machine =>
    obtain ⟨filed, rfl, hname, -⟩ := upsertMachine_ok h
    cases row' with
    | machine machine' =>
      refine Table.find?_upsert_of_ne fun heq => hother ?_
      exact (ValidatedString.value_injective heq).trans hname |>.symm
    | usage _ => exact fun _ hmem => hmem
    | _ => rfl
  | profile profile =>
    obtain ⟨-, ⟨existing, -, -, rfl⟩ | ⟨filed, rfl, hname, -⟩⟩ := upsertReportedProfile_ok h
    · exact .refl _ _
    · cases row' with
      | profile profile' =>
        refine Table.find?_upsert_of_ne fun heq => hother ?_
        exact (ValidatedString.value_injective heq).trans hname |>.symm
      | usage _ => exact fun _ hmem => hmem
      | _ => rfl
  | usage snapshot =>
    obtain ⟨hrefers, hroom, rfl⟩ := insertSnapshot_ok h
    cases row' with
    | usage _ =>
      intro stored hmem
      have hid := (tables.usage_ids stored hmem).2
      refine Table.mem_rows.mpr ?_
      rw [putSnapshot_usage, Table.find?_upsert_of_ne (by show stored.id ≠ tables.usageSequence + 1; omega)]
      exact Table.mem_rows.mp hmem
    | _ => rfl
  | context session =>
    obtain ⟨old, -, -, rfl⟩ | ⟨-, hrefers, rfl⟩ := upsertContext_ok h
    · exact .refl _ _
    · cases row' with
      | context session' => exact Table.find?_upsert_of_ne fun heq => hother heq.symm
      | usage _ => exact fun _ hmem => hmem
      | _ => rfl
  | token grain =>
    obtain rfl := Except.ok.inj h
    exact .refl _ _

theorem applyRow_holds (h : tables.applyRow row = .ok tables') (hfits : Fits accountId tables row)
    (hgrain : row.grain?.isNone = true) : tables'.Holds row := by
  cases row with
  | machine machine =>
    obtain ⟨filed, rfl, hname, ⟨-, rfl⟩ | ⟨old, hfind, rfl⟩⟩ := upsertMachine_ok h
    · exact Table.find?_upsert_self
    · obtain ⟨haccount, hfirst, hlast⟩ := hfits old hfind
      have hfiled : ({ old with
          firstSeen := min old.firstSeen machine.firstSeen
          lastSeen := max old.lastSeen machine.lastSeen } : Machine) = machine := by
        cases old
        cases machine
        simp_all
      rw [hfiled]
      exact Table.find?_upsert_self
  | profile profile =>
    obtain ⟨⟨haccount, hdir, henv, hfile, hrefresh⟩, hplain⟩ := hfits
    obtain ⟨horigin, ⟨existing, hfind, hlocal, rfl⟩ | ⟨filed, rfl, hname, ⟨-, rfl⟩ | ⟨existing, hfind, hlocal, rfl⟩⟩⟩ :=
      upsertReportedProfile_ok h
    · exact .inr ⟨existing, hfind, hlocal⟩
    · have hfiled : { profile with configDir := none, apiKeyEnv := none, apiKeyFile := none } = profile := by
        cases profile
        simp_all
      rw [hfiled]
      exact .inl Table.find?_upsert_self
    · obtain ⟨haccount', hdir', henv', hfile', hrefresh'⟩ := (hplain existing hfind).resolve_left hlocal
      have hfiled : ({ existing with
          vendor := profile.vendor
          pollIntervalMinutes := profile.pollIntervalMinutes
          monthlyBudgetUsd := profile.monthlyBudgetUsd
          hidden := profile.hidden
          origin := profile.origin } : Profile) = profile := by
        cases existing
        cases profile
        simp_all
      rw [hfiled]
      exact .inl Table.find?_upsert_self
  | usage snapshot =>
    obtain ⟨hrefers, hroom, rfl⟩ := insertSnapshot_ok h
    exact ⟨_, Table.mem_rows.mpr Table.find?_upsert_self, rfl⟩
  | context session =>
    obtain ⟨old, hfind, hlt, rfl⟩ | ⟨-, hrefers, rfl⟩ := upsertContext_ok h
    · exact absurd (hfits old hfind) (not_le.mpr hlt)
    · exact Table.find?_upsert_self
  | token grain => cases hgrain

/-- Rows of which no two are versions of one row are all there in the end. -/
theorem foldlM_applyRow_holds {rows : List FederatedPulseRow} (h : rows.foldlM applyRow tables = .ok tables')
    (hdistinct : rows.Pairwise fun a b => ¬ a.Same b) (hfits : ∀ row ∈ rows, Fits accountId tables row)
    (hgrains : ∀ row ∈ rows, row.grain?.isNone = true) :
    (∀ row ∈ rows, tables'.Holds row) ∧ ∀ row', (∀ row ∈ rows, ¬ row.Same row') → AgreeOn tables tables' row' := by
  induction rows generalizing tables with
  | nil =>
    obtain rfl := Except.ok.inj h
    exact ⟨fun _ hmem => (by cases hmem), fun row' _ => .refl _ _⟩
  | cons row rows ih =>
    rw [List.foldlM_cons] at h
    obtain ⟨between, hrow, h⟩ := bind_ok h
    obtain ⟨hothers, hdistinct⟩ := List.pairwise_cons.mp hdistinct
    have hbetween : ∀ row' ∈ rows, Fits accountId between row' := fun row' hrow' =>
      (applyRow_agrees hrow (hothers row' hrow')).fits (hfits row' (List.mem_cons_of_mem _ hrow'))
    obtain ⟨hholds, hagrees⟩ := ih h hdistinct hbetween fun row' hrow' => hgrains row' (List.mem_cons_of_mem _ hrow')
    refine ⟨fun row' hrow' => ?_, fun row' hother => ?_⟩
    · rcases List.mem_cons.mp hrow' with rfl | hrow'
      · have hself := applyRow_holds hrow (hfits row' List.mem_cons_self) (hgrains row' List.mem_cons_self)
        exact (hagrees row' fun later hlater hsame => hothers later hlater hsame.symm).holds hself
      · exact hholds row' hrow'
    · exact (applyRow_agrees hrow (hother row List.mem_cons_self)).trans
        (hagrees row' fun row hrow => hother row (List.mem_cons_of_mem _ hrow))

/-- **A page's rows are all there once they are applied**, and of the others
nothing has changed. -/
theorem applyRows_holds {crates : Crates} {rows : List FederatedPulseRow} (h : tables.applyRows crates rows = .ok tables')
    (hdistinct : rows.Pairwise fun a b => ¬ a.Same b) (hfits : ∀ row ∈ rows, Fits accountId tables row) :
    (∀ row ∈ rows, tables'.Holds row) ∧ ∀ row', (∀ row ∈ rows, ¬ row.Same row') → AgreeOn tables tables' row' := by
  unfold applyRows at h
  obtain ⟨between, hfold, hbatch⟩ := bind_ok h
  have hfiled := upsertTokenBatch_filed hbatch
  obtain ⟨hholds, hagrees⟩ := foldlM_applyRow_holds hfold (hdistinct.filter _)
    (fun row hrow => hfits row (List.mem_of_mem_filter hrow)) fun row hrow => (List.mem_filter.mp hrow).2
  have hgrain : ∀ grain, grain ∈ rows.filterMap FederatedPulseRow.grain? ↔ .token grain ∈ rows := by
    intro grain
    refine List.mem_filterMap.trans ⟨fun ⟨row, hrow, heq⟩ => ?_, fun hrow => ⟨_, hrow, rfl⟩⟩
    cases row with
    | token grain' => exact Option.some.inj heq ▸ hrow
    | _ => cases heq
  have hkeys : ((rows.filterMap FederatedPulseRow.grain?).map TokenGrain.primaryKey).Nodup := by
    refine List.pairwise_map.mpr (List.pairwise_filterMap.mpr (hdistinct.imp fun {a b} hab grain hgrain grain' hgrain' heq => ?_))
    cases a with
    | token a =>
      cases b with
      | token b =>
        obtain rfl := Option.some.inj hgrain
        obtain rfl := Option.some.inj hgrain'
        exact hab heq
      | _ => cases hgrain'
    | _ => cases hgrain
  -- the tokens leave the other tables alone
  have hbatched : ∀ row', (∀ grain, .token grain ∈ rows → ¬ (FederatedPulseRow.token grain).Same row') →
      AgreeOn between tables' row' := by
    intro row' hother
    cases row' with
    | machine row' =>
      show tables'.machines.find? _ = between.machines.find? _
      rw [hfiled.machines]
    | profile row' =>
      show tables'.profiles.find? _ = between.profiles.find? _
      rw [hfiled.profiles]
    | usage row' =>
      intro stored hmem
      rw [hfiled.usage]
      exact hmem
    | context row' =>
      show tables'.contexts.find? _ = between.contexts.find? _
      rw [hfiled.contexts]
    | token row' => exact hfiled.others _ fun grain hmem heq => hother grain ((hgrain grain).mp hmem) heq
  refine ⟨fun row hrow => ?_, fun row' hother => ?_⟩
  · cases hisNone : row.grain?.isNone with
    | false =>
      cases row with
      | token grain => exact hfiled.filed hkeys grain ((hgrain grain).mpr hrow)
      | _ => cases hisNone
    | true =>
      have hbetween := hholds row (List.mem_filter.mpr ⟨hrow, hisNone⟩)
      refine (hbatched row fun grain _ hsame => ?_).holds hbetween
      cases row with
      | token _ => cases hisNone
      | _ => exact hsame
  · exact (hagrees row' fun row hrow => hother row (List.mem_of_mem_filter hrow)).trans
      (hbatched row' fun grain hmem => hother _ hmem)

end Tables

/-! ## Runs -/

/-- A coordinator that has nothing of the machine yet. -/
structure Fresh (accountId : AccountId) (machine : MachineName) (tables : Tables) : Prop where
  machines : tables.machines.find? machine.value = none
  profiles : ∀ profile ∈ tables.profiles.rows, profile.origin = .local ∨ profile.Plain accountId

section
variable {machine : MachineName} {tables : Tables} {a b : LocalRow}

theorem order_of_same (h : a.exported.Same b.exported) : a.order = b.order := by
  cases a with
  | machine a =>
    cases b with
    | machine b => rfl
    | _ => cases h
  | profile a =>
    cases b with
    | profile b => exact profile_order h
    | _ => cases h
  | usage a => cases b <;> cases h
  | context a =>
    cases b with
    | context b =>
      simp only [LocalRow.exported, FederatedPulseRow.Same, ContextSession.primaryKey, List.cons.injEq] at h
      refine order_of_samePlace ⟨rfl, ?_⟩
      simp only [LocalRow.values, List.cons.injEq, and_true]
      exact ⟨by tauto, by tauto⟩
    | _ => cases h
  | token a =>
    cases b with
    | token b =>
      simp only [LocalRow.exported, FederatedPulseRow.Same, TokenGrain.primaryKey, List.cons.injEq] at h
      refine order_of_samePlace ⟨rfl, ?_⟩
      simp only [LocalRow.values, List.cons.injEq, and_true]
      exact ⟨by tauto, by tauto, by tauto, by tauto, by tauto, by tauto⟩
    | _ => cases h

theorem eq_of_order (ha : a ∈ exportRows tables machine) (hb : b ∈ exportRows tables machine) (h : a.order = b.order) :
    a = b := by
  by_contra hne
  have hsymm : Std.Symm fun a b : LocalRow => a.order ≠ b.order := ⟨fun _ _ h => h.symm⟩
  exact ((exportRows_ascending tables machine).imp fun hlt => hlt.ne).forall ha hb hne h

theorem notBehind_exported (ha : a ∈ exportRows tables machine) (hb : b ∈ exportRows tables machine) :
    a.exported.NotBehind b.exported := by
  cases a with
  | machine a =>
    cases b with
    | machine b =>
      obtain rfl := LocalRow.machine.inj (eq_of_order ha hb rfl)
      exact ⟨le_refl _, le_refl _⟩
    | _ => trivial
  | context a =>
    cases b with
    | context b =>
      intro hkey
      obtain rfl := LocalRow.context.inj (eq_of_order ha hb (order_of_same hkey))
      exact le_refl _
    | _ => trivial
  | _ => trivial

/-- The rows of a page are each of a row of their own. -/
theorem exported_distinct {rows : List LocalRow} (h : rows.Pairwise fun a b => a.order < b.order) :
    (rows.map LocalRow.exported).Pairwise fun a b => ¬ a.Same b :=
  List.pairwise_map.mpr (h.imp fun hlt hsame => hlt.ne (order_of_same hsame))

end

namespace PullState

/-- The sessions that the node writes were not collected before what was
received of them, and it has known its machine for as long. -/
def Forward (machine : MachineName) (state : PullState) : PullStep → Prop
  | .write tables => ∀ row ∈ exportRows tables machine, ∀ old ∈ state.received, old.NotBehind row.exported
  | _ => True

/-- Of the rows of the next page, none is back at a content that another has
replaced since. -/
def Unreturned (crates : FederationCrates) (machine : MachineName) (state : PullState) : PullStep → Prop
  | .pull limit => ∀ bound, cursorBound crates state.store.peer.cursor = .ok bound →
      ∀ row ∈ (rowsAfter state.node machine bound).take (max 1 (min limit maxPageRows)),
        row.exported ∈ state.received → ¬ state.store.tables.OwnProfile row.exported →
          FederatedPulseRow.Latest state.received row.exported
  | _ => True

/-- The node's rows do not change. -/
def Quiet (machine : MachineName) (state : PullState) : PullStep → Prop
  | .write tables => exportRows tables machine = exportRows state.node machine
  | _ => True

section
variable {rowCrates : Crates} {crates : FederationCrates} {accountId : AccountId} {machine : MachineName}
  {state state' : PullState}

/-- What the coordinator holds in a run in which no row returns. -/
structure Mirrors (crates : FederationCrates) (accountId : AccountId) (machine : MachineName) (state : PullState) : Prop where
  holds : ∀ row, FederatedPulseRow.Latest state.received row → state.store.tables.Holds row
  accounts : ∀ row ∈ state.received, row.accountId = accountId
  machines : ∀ row, state.store.tables.machines.find? machine.value = some row → .machine row ∈ state.received
  profiles : ∀ profile ∈ state.store.tables.profiles.rows, profile.origin = .local ∨ profile.Plain accountId
  contexts : ∀ session ∈ state.store.tables.contexts.rows, session.machine = machine → .context session ∈ state.received
  forward : ∀ row ∈ exportRows state.node machine, ∀ old ∈ state.received, old.NotBehind row.exported
  cursor : ∃ bound, cursorBound crates state.store.peer.cursor = .ok bound
  records : state.Recorded crates

theorem mirrors_new {node tables : Tables} (h : Fresh accountId machine tables) :
    (PullState.new node tables).Mirrors crates accountId machine where
  holds row hlatest := (by cases hlatest.mem)
  accounts _ hmem := (by cases hmem)
  machines row hfind := (by cases h.machines.symm.trans hfind)
  profiles := h.profiles
  contexts session hmem hmachine := by
    have hrefers := (tables.context_refers session hmem).2
    rw [hmachine, h.machines] at hrefers
    cases hrefers
  forward _ _ _ hmem := (by cases hmem)
  cursor := ⟨none, rfl⟩
  records _ _ hfind := (by cases hfind)

/-- A statement with a row that the node exports leaves it as it is. -/
theorem Mirrors.fits (h : state.Mirrors crates accountId machine) {row : LocalRow} (hrow : row ∈ exportRows state.node machine)
    (haccount : row.exported.accountId = accountId) : Tables.Fits accountId state.store.tables row.exported := by
  have hown := (mem_exportRows.mp hrow).2
  cases row with
  | machine row =>
    intro old hfind
    have hreceived := h.machines old (show _ = _ from (show row.name = machine from hown) ▸ hfind)
    exact ⟨(h.accounts _ hreceived).trans haccount.symm, h.forward _ hrow _ hreceived⟩
  | profile row =>
    refine ⟨⟨haccount, rfl, rfl, rfl, rfl⟩, fun old hfind => h.profiles old (Table.mem_rows.mpr ?_)⟩
    rwa [Table.key_of_find? hfind]
  | context row =>
    intro old hfind
    have hkey : old.primaryKey = row.primaryKey := Table.key_of_find? hfind
    have hmem := Table.mem_rows.mpr (hkey.symm ▸ hfind)
    have hmachine : old.machine = machine := by
      simp only [ContextSession.primaryKey, List.cons.injEq] at hkey
      refine Eq.trans (ValidatedString.value_injective ?_) hown
      tauto
    exact h.forward _ hrow _ (h.contexts old hmem hmachine) hkey
  | _ => trivial

section
variable {page : FederationPage} {store : FederationStore} {sent left : List LocalRow} {bound bound' : Option ExportOrder}

theorem Honest.distinct (hpage : Honest crates machine state page sent left bound bound') :
    (page.records.map (·.row)).Pairwise fun a b => ¬ a.Same b := by
  have hsent : sent.Sublist (rowsAfter state.node machine bound) := by
    rw [hpage.rows]
    exact List.sublist_append_left _ _
  have hascending : (rowsAfter state.node machine bound).Pairwise fun a b => a.order < b.order :=
    (exportRows_ascending state.node machine).filter _
  rw [hpage.sent]
  exact exported_distinct (hascending.sublist hsent)

theorem Honest.exported (hpage : Honest crates machine state page sent left bound bound') {row : FederatedPulseRow}
    (hrow : row ∈ page.records.map (·.row)) : ∃ local' ∈ sent, local' ∈ exportRows state.node machine ∧ local'.exported = row := by
  rw [hpage.sent] at hrow
  obtain ⟨local', hlocal, rfl⟩ := List.mem_map.mp hrow
  have hmem : local' ∈ rowsAfter state.node machine bound := by
    rw [hpage.rows]
    exact List.mem_append_left _ hlocal
  exact ⟨local', hlocal, (mem_rowsAfter.mp hmem).1, rfl⟩

/-- What the statements of a page have done, and what was skipped. -/
theorem Mirrors.applied (h : state.Mirrors crates accountId machine) (hpage : Honest crates machine state page sent left bound bound')
    (hdigests : crates.Distinguishes (state.received ++ page.records.map (·.row)))
    (happly : state.applyPage rowCrates crates accountId machine page = .ok store) :
    ∃ rows, rows ⊆ page.records.map (·.row) ∧
      (∀ row ∈ page.records.map (·.row), row ∈ rows ∨ row ∈ state.received ∧ ∀ row' ∈ rows, ¬ row'.Same row) ∧
      (∀ row ∈ rows, store.tables.Holds row) ∧
      ∀ row', (∀ row ∈ rows, ¬ row.Same row') → Tables.AgreeOn state.store.tables store.tables row' := by
  obtain ⟨pending, hpending, happly, hcheck, -⟩ := applyFederationPage_ok happly
  rw [inOrder_eq hpage.rows hpage.sent] at hpending
  obtain ⟨rfl, hskipped⟩ := pending_of_page h.records hdigests hpending
  have hdistinct := hpage.distinct
  have hsubset : (page.records.filter fun record => (state.store.records.find? record.key).isNone).map (·.row) ⊆
      page.records.map (·.row) := List.map_subset _ List.filter_sublist.subset
  obtain ⟨hholds, hagrees⟩ := Tables.applyRows_holds happly (hdistinct.sublist (List.filter_sublist.map _)) fun row hrow => by
    obtain ⟨local', -, hlocal, rfl⟩ := hpage.exported (hsubset hrow)
    obtain ⟨record, hrecord, heq⟩ := List.mem_map.mp (hsubset hrow)
    exact h.fits hlocal (heq ▸ checkRecords_ok hcheck record hrecord)
  refine ⟨_, hsubset, fun row hrow => ?_, hholds, hagrees⟩
  obtain ⟨record, hrecord, rfl⟩ := List.mem_map.mp hrow
  cases hnone : (state.store.records.find? record.key).isNone with
  | true => exact .inl (List.mem_map_of_mem (List.mem_filter.mpr ⟨hrecord, hnone⟩))
  | false =>
    refine .inr ⟨hskipped record hrecord hnone, fun row' hrow' => ?_⟩
    obtain ⟨record', hrecord', rfl⟩ := List.mem_map.mp hrow'
    obtain ⟨hmem, hnone'⟩ := List.mem_filter.mp hrecord'
    have hne : record' ≠ record := by
      rintro rfl
      rw [hnone] at hnone'
      cases hnone'
    have hsymm : Std.Symm fun a b : FederatedRecord => ¬ a.row.Same b.row := ⟨fun _ _ h hsame => h hsame.symm⟩
    exact (List.pairwise_map.mp hdistinct).forall hmem hrecord hne

/-- **A page of which no row returns leaves the latest versions there.** -/
theorem Mirrors.apply (h : state.Mirrors crates accountId machine) (hpage : Honest crates machine state page sent left bound bound')
    (hunreturned : ∀ row ∈ page.records.map (·.row), row ∈ state.received → ¬ state.store.tables.OwnProfile row →
      FederatedPulseRow.Latest state.received row)
    (hdigests : crates.Distinguishes (state.received ++ page.records.map (·.row)))
    (happly : state.applyPage rowCrates crates accountId machine page = .ok store) :
    Mirrors crates accountId machine { state with store, received := state.received ++ page.records.map (·.row) } := by
  obtain ⟨rows, hsubset, hrows, hholds, hagrees⟩ := h.applied hpage hdigests happly
  have hkept : ∀ row', (∃ row ∈ rows, row.Same row') ∨ Tables.AgreeOn state.store.tables store.tables row' := fun row' =>
    or_iff_not_imp_left.mpr fun hnone => hagrees row' fun row hrow hsame => hnone ⟨row, hrow, hsame⟩
  have hrecords := h.records.file happly
  obtain ⟨-, -, -, hcheck, hcursor, -⟩ := applyFederationPage_ok happly
  refine ⟨fun row hlatest => ?_, fun row hrow => ?_, fun row hfind => ?_, fun profile hmem => ?_,
    fun session hmem hmachine => ?_, fun row hrow old hold => ?_, ⟨bound', by rw [hcursor]; exact hpage.next⟩, hrecords⟩
  · rcases hlatest.of_append with hrow | ⟨hlatest, hother⟩
    · rcases hrows row hrow with hrow | ⟨hreceived, hother⟩
      · exact hholds row hrow
      · refine (hagrees row hother).holds ?_
        by_cases hown : state.store.tables.OwnProfile row
        · cases row with
          | profile row => exact .inr hown
          | _ => cases hown
        · exact h.holds row (hunreturned row hrow hreceived hown)
    · exact (hagrees row fun row' hrow' hsame => hother row' (hsubset hrow') hsame.symm).holds (h.holds row hlatest)
  · rcases List.mem_append.mp hrow with hrow | hrow
    · exact h.accounts row hrow
    · obtain ⟨record, hrecord, rfl⟩ := List.mem_map.mp hrow
      exact checkRecords_ok hcheck record hrecord
  · rcases hkept (.machine row) with ⟨row', hrow', hsame⟩ | hagree
    · cases row' with
      | machine row' =>
        have hkey : row.primaryKey = machine.value := Table.key_of_find? hfind
        have hholds : store.tables.machines.find? row'.primaryKey = some row' := hholds _ hrow'
        rw [show row'.primaryKey = machine.value from (congrArg (·.value) hsame).trans hkey, hfind] at hholds
        obtain rfl := Option.some.inj hholds
        exact List.mem_append_right _ (hsubset hrow')
      | _ => cases hsame
    · have hkey : row.primaryKey = machine.value := Table.key_of_find? hfind
      have hagree : store.tables.machines.find? row.primaryKey = state.store.tables.machines.find? row.primaryKey := hagree
      rw [hkey, hfind] at hagree
      exact List.mem_append_left _ (h.machines row hagree.symm)
  · have hfind := Table.mem_rows.mp hmem
    rcases hkept (.profile profile) with ⟨row', hrow', hsame⟩ | hagree
    · cases row' with
      | profile row' =>
        have hkey : row'.primaryKey = profile.primaryKey := congrArg (·.value) hsame
        rcases hholds _ hrow' with hfind' | ⟨own, hfind', horigin⟩
        · rw [hkey, hfind] at hfind'
          obtain rfl := Option.some.inj hfind'
          obtain ⟨local', -, -, heq⟩ := hpage.exported (hsubset hrow')
          obtain ⟨record, hrecord, hrow⟩ := List.mem_map.mp (hsubset hrow')
          have haccount := checkRecords_ok hcheck record hrecord
          rw [hrow] at haccount
          cases local' with
          | profile local' =>
            obtain rfl := FederatedPulseRow.profile.inj heq
            exact .inr ⟨haccount, rfl, rfl, rfl, rfl⟩
          | _ => cases heq
        · rw [hkey, hfind] at hfind'
          obtain rfl := Option.some.inj hfind'
          exact .inl horigin
      | _ => cases hsame
    · exact h.profiles profile (Table.mem_rows.mpr ((Eq.symm hagree).trans hfind))
  · have hfind := Table.mem_rows.mp hmem
    rcases hkept (.context session) with ⟨row', hrow', hsame⟩ | hagree
    · cases row' with
      | context row' =>
        have hholds : store.tables.contexts.find? row'.primaryKey = some row' := hholds _ hrow'
        rw [show row'.primaryKey = session.primaryKey from hsame, hfind] at hholds
        obtain rfl := Option.some.inj hholds
        exact List.mem_append_right _ (hsubset hrow')
      | _ => cases hsame
    · exact List.mem_append_left _ (h.contexts session (Table.mem_rows.mpr ((Eq.symm hagree).trans hfind)) hmachine)
  · rcases List.mem_append.mp hold with hold | hold
    · exact h.forward row hrow old hold
    · obtain ⟨local', -, hlocal, rfl⟩ := hpage.exported hold
      exact notBehind_exported hlocal hrow

/-- What of the node's rows has been passed in this generation is there in its
latest version. -/
def Swept (crates : FederationCrates) (machine : MachineName) (state : PullState) : Prop :=
  ∀ bound, cursorBound crates state.store.peer.cursor = .ok bound → ∀ row ∈ exportRows state.node machine,
    state.store.peer.complete = true ∨ Entries.beyond bound row.order = false →
      FederatedPulseRow.Latest state.received row.exported

theorem Swept.apply (h : state.Swept crates machine) (hpage : Honest crates machine state page sent left bound bound')
    (happly : state.applyPage rowCrates crates accountId machine page = .ok store) :
    Swept crates machine { state with store, received := state.received ++ page.records.map (·.row) } := by
  obtain ⟨-, -, -, -, hcursor, hcomplete, hopen, -⟩ := applyFederationPage_ok happly
  intro bound'' hbound'' row hrow hpassed
  simp only [hcursor, hcomplete] at hbound'' hpassed
  obtain rfl := Except.ok.inj (hpage.next.symm.trans hbound'')
  cases hbeyond : Entries.beyond bound row.order with
  | true =>
    have hmem := mem_rowsAfter.mpr ⟨hrow, hbeyond⟩
    rw [hpage.rows] at hmem
    have hsent : row ∈ sent := by
      refine (List.mem_append.mp hmem).resolve_right fun hleft => ?_
      rcases hpage.left with ⟨-, rfl⟩ | ⟨hsome, rfl⟩
      · cases hleft
      · rcases hpassed with hnone | hpassed
        · rw [Option.isNone_iff_eq_none.mp hnone] at hsome
          cases hsome
        · rw [(mem_rowsAfter.mp hleft).2] at hpassed
          cases hpassed
    refine FederatedPulseRow.latest_of_mem ?_ hpage.distinct
    rw [hpage.sent]
    exact List.mem_map_of_mem hsent
  | false =>
    refine (h bound hpage.cursor row hrow (.inr hbeyond)).append fun later hlater hsame => ?_
    rw [hpage.sent] at hlater
    obtain ⟨local', hlocal, rfl⟩ := List.mem_map.mp hlater
    have hmem : local' ∈ rowsAfter state.node machine bound := by
      rw [hpage.rows]
      exact List.mem_append_left _ hlocal
    have hahead := (mem_rowsAfter.mp hmem).2
    rw [← order_of_same hsame, hbeyond] at hahead
    cases hahead

end

theorem Swept.begin (h : state.Swept crates machine) :
    Swept crates machine { state with store := beginFederationSync state.store } := by
  unfold beginFederationSync
  split
  · intro bound hbound row hrow hpassed
    obtain rfl := Except.ok.inj hbound
    rcases hpassed with hpassed | hpassed <;> cases hpassed
  · exact h

theorem Mirrors.begin (h : state.Mirrors crates accountId machine) :
    Mirrors crates accountId machine { state with store := beginFederationSync state.store } := by
  unfold beginFederationSync
  split
  · exact ⟨h.holds, h.accounts, h.machines, h.profiles, h.contexts, h.forward, ⟨none, rfl⟩, h.records⟩
  · exact h

theorem Mirrors.step {step : PullStep} (hcrates : crates.RoundTrips) (h : state.Mirrors crates accountId machine)
    (hforward : state.Forward machine step) (hunreturned : state.Unreturned crates machine step)
    (hdigests : crates.Distinguishes (state.step rowCrates crates accountId machine step).received) :
    (state.step rowCrates crates accountId machine step).Mirrors crates accountId machine ∧
      (state.Quiet machine step → state.Swept crates machine →
        (state.step rowCrates crates accountId machine step).Swept crates machine) := by
  cases step with
  | write tables =>
    refine ⟨⟨h.holds, h.accounts, h.machines, h.profiles, h.contexts, hforward, h.cursor, h.records⟩, fun hquiet hswept => ?_⟩
    intro bound hbound row hrow hpassed
    exact hswept bound hbound row (hquiet ▸ hrow) hpassed
  | begin => exact ⟨h.begin, fun _ hswept => hswept.begin⟩
  | pull limit =>
    rw [PullState.step] at hdigests ⊢
    obtain ⟨bound, hbound⟩ := h.cursor
    cases hpage : state.nextPage crates accountId machine limit with
    | error e => exact ⟨h, fun _ hswept => hswept⟩
    | ok page =>
      simp only [hpage] at hdigests ⊢
      obtain ⟨sent, left, bound', hrows, hlength, hsent, hbound', hleft⟩ := nextPage_ok hcrates hbound hpage
      cases happly : state.applyPage rowCrates crates accountId machine page with
      | error e => exact ⟨h, fun _ hswept => hswept⟩
      | ok store =>
        simp only [happly] at hdigests
        have hhonest : Honest crates machine state page sent left bound bound' := ⟨hbound, hbound', hrows, hsent, hleft⟩
        refine ⟨h.apply hhonest (fun row hrow hreceived hown => ?_) hdigests happly, fun _ hswept => hswept.apply hhonest happly⟩
        rw [hsent] at hrow
        obtain ⟨local', hlocal, rfl⟩ := List.mem_map.mp hrow
        refine hunreturned bound hbound local' ?_ hreceived hown
        rw [hrows, List.take_append, List.take_of_length_le hlength]
        exact List.mem_append_left _ hlocal

/-- A run in which no row goes behind what was received of it, or returns. -/
abbrev MirrorRun (rowCrates : Crates) (crates : FederationCrates) (accountId : AccountId) (machine : MachineName) :=
  Run fun state step state' => Forward machine state step ∧ Unreturned crates machine state step ∧
    state' = state.step rowCrates crates accountId machine step

/-- A mirror run in which the node's rows do not change. -/
abbrev QuietRun (rowCrates : Crates) (crates : FederationCrates) (accountId : AccountId) (machine : MachineName) :=
  Run fun state step state' => (Forward machine state step ∧ Unreturned crates machine state step ∧
    Quiet machine state step) ∧ state' = state.step rowCrates crates accountId machine step

theorem mirrorRun_subset {steps : List PullStep} (hrun : MirrorRun rowCrates crates accountId machine state steps state') :
    state.received ⊆ state'.received := by
  induction hrun with
  | nil => exact fun _ h => h
  | cons hstep _ ih =>
    obtain ⟨-, -, rfl⟩ := hstep
    exact fun _ h => ih (received_subset _ h)

theorem quietRun_mirrorRun {steps : List PullStep} (hrun : QuietRun rowCrates crates accountId machine state steps state') :
    MirrorRun rowCrates crates accountId machine state steps state' := by
  induction hrun with
  | nil => exact .nil _
  | cons hstep _ ih =>
    obtain ⟨⟨hforward, hunreturned, -⟩, hstep⟩ := hstep
    exact .cons ⟨hforward, hunreturned, hstep⟩ ih

theorem mirrors_run {steps : List PullStep} (hcrates : crates.RoundTrips) (h : state.Mirrors crates accountId machine)
    (hrun : MirrorRun rowCrates crates accountId machine state steps state')
    (hdigests : crates.Distinguishes state'.received) : state'.Mirrors crates accountId machine := by
  induction hrun with
  | nil => exact h
  | cons hstep hrest ih =>
    obtain ⟨hforward, hunreturned, rfl⟩ := hstep
    exact ih (h.step hcrates hforward hunreturned (hdigests.mono (mirrorRun_subset hrest))).1 hdigests

theorem swept_run {steps : List PullStep} (hcrates : crates.RoundTrips) (h : state.Mirrors crates accountId machine)
    (hswept : state.Swept crates machine) (hrun : QuietRun rowCrates crates accountId machine state steps state')
    (hdigests : crates.Distinguishes state'.received) :
    state'.Mirrors crates accountId machine ∧ state'.Swept crates machine := by
  induction hrun with
  | nil => exact ⟨h, hswept⟩
  | cons hstep hrest ih =>
    obtain ⟨⟨hforward, hunreturned, hquiet⟩, rfl⟩ := hstep
    obtain ⟨hmirrors, hpassed⟩ := h.step hcrates hforward hunreturned
      (hdigests.mono (mirrorRun_subset (quietRun_mirrorRun hrest)))
    exact ih hmirrors (hpassed hquiet hswept) hdigests

end

end PullState

/-- **At the end of a quiet generation the coordinator holds the node's rows**,
in a run in which no row returns to a content that has been replaced. -/
theorem generation_mirrors {rowCrates : Crates} {crates : FederationCrates} {accountId : AccountId} {machine : MachineName}
    {node tables : Tables} {earlier steps : List PullStep} {start state : PullState} (hcrates : crates.RoundTrips)
    (hfresh : Fresh accountId machine tables)
    (hearlier : PullState.MirrorRun rowCrates crates accountId machine (.new node tables) earlier start)
    (hopen : start.store.peer.complete = false) (hstart : start.store.peer.cursor = none)
    (hrun : PullState.QuietRun rowCrates crates accountId machine start steps state)
    (hcomplete : state.store.peer.complete = true) (hdigests : crates.Distinguishes state.received) :
    ∀ row ∈ exportRows state.node machine, state.store.tables.Holds row.exported := by
  have hsubset := PullState.mirrorRun_subset (PullState.quietRun_mirrorRun hrun)
  have hmirrors := PullState.mirrors_run hcrates (PullState.mirrors_new hfresh) hearlier (hdigests.mono hsubset)
  have hswept : start.Swept crates machine := by
    intro bound hbound row hrow hpassed
    rw [hstart] at hbound
    obtain rfl := Except.ok.inj hbound
    rw [hopen] at hpassed
    rcases hpassed with hpassed | hpassed <;> cases hpassed
  obtain ⟨hmirrors, hswept⟩ := PullState.swept_run hcrates hmirrors hswept hrun hdigests
  obtain ⟨bound, hbound⟩ := hmirrors.cursor
  intro row hrow
  exact hmirrors.holds _ (hswept bound hbound row hrow (.inl hcomplete))

/-! ## A profile that comes back -/

def hiddenProfile (hidden : Bool) : Profile := { sampleProfile with hidden }

/-- The machine, and the profile as it is hidden or not. -/
def shownOrHidden (hidden : Bool) : Tables where
  __ := Tables.empty
  machines := Table.empty.upsert sampleMachine
  profiles := Table.empty.upsert (hiddenProfile hidden)
  usage_ids := by decide
  usage_refers _ hmem := (by cases hmem)
  context_refers _ hmem := (by cases hmem)
  token_refers _ hmem := (by cases hmem)

theorem exportRows_shownOrHidden (hidden : Bool) : exportRows (shownOrHidden hidden) sampleMachine.name =
    [.machine sampleMachine, .profile (hiddenProfile hidden)] := by
  cases hidden <;> decide +kernel

theorem fresh_empty {accountId : AccountId} {machine : MachineName} : Fresh accountId machine .empty :=
  ⟨rfl, fun _ hmem => (by cases hmem)⟩

namespace PullState

/-- The profile is pulled, hidden, pulled again, and shown. -/
def sampleSteps : List PullStep :=
  [.pull 2, .write (shownOrHidden true), .begin, .pull 2, .write (shownOrHidden false), .begin]

def sampleTwice : PullState := sampleSteps.foldl sampleStep (PullState.new (shownOrHidden false) .empty)

theorem forward_sample {state : PullState} {hidden : Bool} (h : ∀ row ∈ state.received,
    row = .machine sampleMachine ∨ ∃ profile, row = .profile profile) :
    state.Forward sampleMachine.name (.write (shownOrHidden hidden)) := by
  intro row hrow old hold
  rw [exportRows_shownOrHidden] at hrow
  simp only [List.mem_cons, List.not_mem_nil, or_false] at hrow
  rcases h old hold with rfl | ⟨profile, rfl⟩ <;> rcases hrow with rfl | rfl
  · exact ⟨le_refl _, le_refl _⟩
  · trivial
  · trivial
  · trivial

end PullState

/-- The third time it is skipped, and stays hidden. -/
theorem profile_came_back : ∃ (earlier : List PullStep) (start state : PullState),
    Run (fun (state : PullState) step state' => state.Forward sampleMachine.name step ∧ state' = state.sampleStep step)
      (.new (shownOrHidden false) .empty) earlier start ∧
    start.store.peer.complete = false ∧ start.store.peer.cursor = none ∧
    state = start.sampleStep (.pull 2) ∧ state.store.peer.complete = true ∧
    pulledCrates.Distinguishes state.received ∧
    ¬ ∀ row ∈ exportRows state.node sampleMachine.name, state.store.tables.Holds row.exported := by
  have hfirst : ((PullState.new (shownOrHidden false) .empty).sampleStep (.pull 2)).received =
      [.machine sampleMachine, .profile (hiddenProfile false).forExport] := by decide +kernel
  have hsecond : ((PullState.sampleSteps.take 4).foldl PullState.sampleStep
      (PullState.new (shownOrHidden false) .empty)).received =
      [.machine sampleMachine, .profile (hiddenProfile false).forExport,
        .machine sampleMachine, .profile (hiddenProfile true).forExport] := by decide +kernel
  have hthird : (PullState.sampleTwice.sampleStep (.pull 2)).received =
      [.machine sampleMachine, .profile (hiddenProfile false).forExport,
        .machine sampleMachine, .profile (hiddenProfile true).forExport,
        .machine sampleMachine, .profile (hiddenProfile false).forExport] := by decide +kernel
  refine ⟨PullState.sampleSteps, PullState.sampleTwice, PullState.sampleTwice.sampleStep (.pull 2), ?_, by decide +kernel, by decide +kernel, rfl,
    by decide +kernel, ?_, fun hholds => ?_⟩
  · refine .cons ⟨trivial, rfl⟩ (.cons ⟨PullState.forward_sample fun row hrow => ?_, rfl⟩ (.cons ⟨trivial, rfl⟩
      (.cons ⟨trivial, rfl⟩ (.cons ⟨PullState.forward_sample fun row hrow => ?_, rfl⟩ (.cons ⟨trivial, rfl⟩ (.nil _))))))
    · rw [hfirst] at hrow
      simp only [List.mem_cons, List.not_mem_nil, or_false] at hrow
      exact hrow.imp_right fun h => ⟨_, h⟩
    · have hrow : row ∈ ((PullState.sampleSteps.take 4).foldl PullState.sampleStep
          (PullState.new (shownOrHidden false) .empty)).received := hrow
      rw [hsecond] at hrow
      simp only [List.mem_cons, List.not_mem_nil, or_false] at hrow
      rcases hrow with rfl | rfl | rfl | rfl
      · exact .inl rfl
      · exact .inr ⟨_, rfl⟩
      · exact .inl rfl
      · exact .inr ⟨_, rfl⟩
  · rw [hthird]
    unfold FederationCrates.Distinguishes
    decide +kernel
  · have hmem : .profile (hiddenProfile false) ∈
        exportRows (PullState.sampleTwice.sampleStep (.pull 2)).node sampleMachine.name := by decide +kernel
    have hstored : (PullState.sampleTwice.sampleStep (.pull 2)).store.tables.profiles.find? sampleProfile.primaryKey =
        some (hiddenProfile true).forExport := by decide +kernel
    rcases hholds _ hmem with hshown | ⟨own, hown, horigin⟩
    · cases hstored.symm.trans hshown
    · cases hstored.symm.trans hown
      cases horigin

/-- The first time it is there. -/
theorem profile_came : ((PullState.new (shownOrHidden false) .empty).sampleStep (.pull 2)).store.peer.complete = true ∧
    ∀ row ∈ exportRows (shownOrHidden false) sampleMachine.name,
      ((PullState.new (shownOrHidden false) .empty).sampleStep (.pull 2)).store.tables.Holds row.exported := by
  have hreceived : ((PullState.new (shownOrHidden false) .empty).sampleStep (.pull 2)).received =
      [.machine sampleMachine, .profile (hiddenProfile false).forExport] := by decide +kernel
  have hcomplete : ((PullState.new (shownOrHidden false) .empty).sampleStep (.pull 2)).store.peer.complete = true := by
    decide +kernel
  have hdigests : pulledCrates.Distinguishes ((PullState.new (shownOrHidden false) .empty).sampleStep (.pull 2)).received := by
    rw [hreceived]
    unfold FederationCrates.Distinguishes
    decide +kernel
  have hrun : PullState.QuietRun sampleRowCrates pulledCrates ⟨1, by decide⟩ sampleMachine.name
      (.new (shownOrHidden false) .empty) [.pull 2] ((PullState.new (shownOrHidden false) .empty).sampleStep (.pull 2)) :=
    .single ⟨⟨trivial, fun _ _ _ _ hmem => (by cases hmem), trivial⟩, rfl⟩
  exact ⟨hcomplete, generation_mirrors pulledCrates_roundTrips fresh_empty (.nil _) rfl rfl hrun hcomplete hdigests⟩

end Atmux.Pulse
