/-
The usage tables of all accounts, and what is shown of them.

A window is accepted or not when its snapshot is inserted, by what was shown
of its kind until then. The window that is shown of a kind is the accepted one
with the latest reset (`standing`), and a machine contributes with its latest
report of the kind, accepted or not.
-/
import Mathlib.Data.Prod.Lex
import Atmux.Lib.Newest
import Atmux.Lib.Result
import Atmux.Lib.Table
import Atmux.Pulse.Store

namespace Atmux.Pulse

open Lib

/-! ## Numbers -/

/-- `i64::saturating_sub`. -/
def saturatingSubI64 (a b : Int) : Int := max (-2 ^ 63) (min (2 ^ 63 - 1) (a - b))

/-- As numbers compare: the two zeros are one. -/
def Percent.rank (percent : Percent) : Nat := if percent.value = 0x8000000000000000 then 0 else percent.value.toNat

/-- The text of a kind. -/
def QuotaWindowKind.json : QuotaWindowKind → String
  | fiveHour => "\"five_hour\""
  | rollingSevenDay => "\"rolling_seven_day\""
  | fixedWeekly => "\"fixed_weekly\""
  | monthlyBudget => "\"monthly_budget\""

/-- Whether same-period quota decreases are stale for this vendor. -/
def Vendor.rejectsSamePeriodDecrease : Vendor → QuotaWindowKind → Bool
  | .anthropicOauth, .rollingSevenDay => false
  | _, _ => true

/-! ## Tables -/

/-- A row of `usage_windows`. -/
structure StoredWindow where
  window : QuotaWindow
  accepted : Bool
deriving DecidableEq

/-- A row of `usage_snapshots`, and those of its windows. -/
structure UsageRow where
  id : Nat
  snapshot : UsageSnapshot
  windows : List StoredWindow
  same : windows.map (·.window) = snapshot.windows
  kinds : (snapshot.windows.map (·.kind)).Nodup
deriving DecidableEq

/-- A row of `alert_events`. -/
structure AlertEvent where
  id : Int
  triggeredAt : Int
deriving DecidableEq

structure UsageStore where
  usage : Table UsageRow.id
  /-- The largest id that was ever given out. -/
  sequence : Nat
  contexts : List ContextSession
  alerts : List AlertEvent
  ids : ∀ row ∈ usage.rows, 0 < row.id ∧ row.id ≤ sequence
  sequence_bounded : sequence < 2 ^ 63

/-- A window with the snapshot it came in. -/
abbrev Report := UsageRow × StoredWindow

/-- Where a window stands among those of its kind. -/
def standing (report : Report) : ℤ ×ₗ ℤ ×ₗ ℕ :=
  toLex (report.2.window.resetsAt, toLex (report.1.snapshot.polledAt, report.1.id))

/-- The windows of one profile. -/
def reports (rows : List UsageRow) (accountId : AccountId) (profile : ProfileName) : List Report :=
  (rows.filter fun row => row.snapshot.accountId = accountId ∧ row.snapshot.profile = profile).flatMap fun row =>
    row.windows.map (row, ·)

/-! ## Inserting -/

def resetJitterToleranceMs : Nat := 5 * 60 * 1000

def windowIsAccepted (vendor : Vendor) (window : QuotaWindow) (oldReset : Int) (oldPercent : Percent) : Bool :=
  if window.resetsAt < saturatingSubI64 oldReset resetJitterToleranceMs then false
  else
    let samePeriod : Bool := (window.resetsAt - oldReset).natAbs ≤ resetJitterToleranceMs
    !(samePeriod && vendor.rejectsSamePeriodDecrease window.kind && decide (window.usedPercent.rank < oldPercent.rank))

/-- The accepted window of a kind that stands first. -/
def previous (rows : List UsageRow) (accountId : AccountId) (profile : ProfileName) (kind : QuotaWindowKind) : Option Report :=
  (orderBy (fun report => OrderDual.toDual (standing report)) ((reports rows accountId profile).filter fun report =>
    report.2.window.kind = kind ∧ report.2.accepted)).head?

/-- Whether a snapshot's window is accepted, as the rows are. The snapshot's
other windows are of other kinds. -/
def accepts (rows : List UsageRow) (snapshot : UsageSnapshot) (window : QuotaWindow) : Bool :=
  match previous rows snapshot.accountId snapshot.profile window.kind with
  | none => true
  | some old => windowIsAccepted snapshot.vendor window old.2.window.resetsAt old.2.window.usedPercent

def usageRow (rows : List UsageRow) (id : Nat) (snapshot : UsageSnapshot)
    (hkinds : (snapshot.windows.map (·.kind)).Nodup) : UsageRow where
  id := id
  snapshot := snapshot
  windows := snapshot.windows.map fun window => ⟨window, accepts rows snapshot window⟩
  same := by rw [List.map_map]; exact List.map_id _
  kinds := hkinds

theorem UsageSnapshot.validate_kinds {snapshot : UsageSnapshot} (h : snapshot.validate = .ok ()) :
    (snapshot.windows.map QuotaWindow.kind).Nodup := by
  unfold UsageSnapshot.validate at h
  obtain ⟨_, -, h⟩ := bind_ok h
  simp only [bind, Except.bind] at h
  split at h
  · cases h
  split at h
  · cases h
  split at h
  · cases h
  split at h
  · cases h
  next hkinds => exact not_not.mp hkinds

namespace UsageStore

def empty (contexts : List ContextSession) (alerts : List AlertEvent) : UsageStore where
  usage := .empty
  sequence := 0
  contexts := contexts
  alerts := alerts
  ids _ hmem := (by cases hmem)
  sequence_bounded := no_id_bounded

/-- A row under the next id. -/
def put (store : UsageStore) (row : UsageRow) (hid : row.id = store.sequence + 1) (hroom : store.sequence + 1 < 2 ^ 63) :
    UsageStore where
  __ := store
  usage := store.usage.upsert row
  sequence := store.sequence + 1
  ids a hmem := by
    rcases Table.mem_upsert hmem with rfl | hmem
    · omega
    · have := store.ids a hmem
      omega
  sequence_bounded := hroom

/-- `insert_snapshot`; `refers` says whether the profile and the machine are
there. -/
def insertSnapshot (store : UsageStore) (refers : Bool) (snapshot : UsageSnapshot) : PulseResult UsageStore :=
  match h : snapshot.validate with
  | .error e => .error e
  | .ok () =>
    if hroom : store.sequence + 1 < 2 ^ 63 then
      if refers then
        .ok (store.put (usageRow store.usage.rows (store.sequence + 1) snapshot (UsageSnapshot.validate_kinds h)) rfl hroom)
      else .error sqlError
    else .error sqlError

theorem insertSnapshot_ok {store store' : UsageStore} {refers : Bool} {snapshot : UsageSnapshot}
    (h : store.insertSnapshot refers snapshot = .ok store') :
    ∃ row hid hroom, store' = store.put row hid hroom ∧ row.snapshot = snapshot ∧
      ∀ stored ∈ row.windows, stored.accepted = accepts store.usage.rows snapshot stored.window := by
  unfold insertSnapshot at h
  split at h
  · cases h
  · split at h
    · split at h
      · obtain rfl := Except.ok.inj h
        refine ⟨_, _, _, rfl, rfl, fun stored hstored => ?_⟩
        obtain ⟨window, -, rfl⟩ := List.mem_map.mp hstored
        rfl
      · cases h
    · cases h

theorem mem_put {store : UsageStore} {row : UsageRow} {hid : row.id = store.sequence + 1}
    {hroom : store.sequence + 1 < 2 ^ 63} {other : UsageRow} :
    other ∈ (store.put row hid hroom).usage.rows ↔ other = row ∨ other ∈ store.usage.rows := by
  refine ⟨Table.mem_upsert, ?_⟩
  rintro (rfl | hmem)
  · exact Table.mem_rows.mpr Table.find?_upsert_self
  · have hle := (store.ids other hmem).2
    refine Table.mem_rows.mpr ?_
    show (store.usage.upsert row).find? other.id = some other
    rw [Table.find?_upsert_of_ne (by omega)]
    exact Table.mem_rows.mp hmem

end UsageStore

/-! ## What is shown -/

structure UsageContributor where
  machine : MachineName
  reporterVersion : Option String
  polledAt : Int
  chosen : Bool
deriving DecidableEq

/-- Current account-global value of one quota window. -/
structure CurrentQuotaWindow where
  profile : ProfileName
  vendor : Vendor
  window : QuotaWindow
  polledAt : Int
  contributors : List UsageContributor
deriving DecidableEq

/-- A report's place among all, by kind and then by its standing. -/
def winnerColumn (report : Report) : String ×ₗ (ℤ ×ₗ ℤ ×ₗ ℕ)ᵒᵈ :=
  toLex (report.2.window.kind.json, OrderDual.toDual (standing report))

/-- The first window of a kind is shown, and the others add their machines. -/
def addWinner (profile : ProfileName) (windows : List CurrentQuotaWindow) (report : Report) : List CurrentQuotaWindow :=
  let contributor (chosen : Bool) : UsageContributor :=
    ⟨report.1.snapshot.machine, report.1.snapshot.reporterVersion, report.1.snapshot.polledAt, chosen⟩
  if windows.any fun shown => shown.window.kind = report.2.window.kind then
    windows.map fun shown =>
      if shown.window.kind = report.2.window.kind ∧ ∀ item ∈ shown.contributors, item.machine ≠ report.1.snapshot.machine then
        { shown with contributors := shown.contributors ++ [contributor false] }
      else shown
  else
    windows ++ [⟨profile, report.1.snapshot.vendor, report.2.window, report.1.snapshot.polledAt, [contributor true]⟩]

def loadCurrentWinners (rows : List UsageRow) (accountId : AccountId) (profile : ProfileName) : List CurrentQuotaWindow :=
  (orderBy winnerColumn ((reports rows accountId profile).filter fun report => report.2.accepted)).foldl (addWinner profile) []

/-- The reports of a profile, each machine's latest of a kind first. -/
def loadCurrentReports (rows : List UsageRow) (accountId : AccountId) (profile : ProfileName) : List Report :=
  orderBy (fun report : Report => toLex (report.2.window.kind.json, toLex (report.1.snapshot.machine.value,
    OrderDual.toDual (toLex (report.1.snapshot.polledAt, report.1.id))))) (reports rows accountId profile)

/-- A shown window, and whose it is. -/
abbrev Winner := CurrentQuotaWindow × Option (MachineName × Int)

def winner (shown : CurrentQuotaWindow) : Winner :=
  (shown, shown.contributors.head?.map fun contributor => (contributor.machine, contributor.polledAt))

/-- A machine's first report of a kind makes it a contributor; it is the
chosen one when the window is its own. -/
def addContributor (windows : List Winner) (report : Report) : List Winner :=
  windows.map fun shown =>
    if shown.1.window.kind = report.2.window.kind ∧
        ∀ item ∈ shown.1.contributors, item.machine ≠ report.1.snapshot.machine then
      ({ shown.1 with contributors := shown.1.contributors ++ [⟨report.1.snapshot.machine,
          report.1.snapshot.reporterVersion, report.1.snapshot.polledAt,
          shown.2 = some (report.1.snapshot.machine, report.1.snapshot.polledAt)⟩] }, shown.2)
    else shown

/-- The chosen one first, then by machine. -/
def sortContributors (contributors : List UsageContributor) : List UsageContributor :=
  contributors.insertionSort fun a b => toLex (!a.chosen, a.machine.value) ≤ toLex (!b.chosen, b.machine.value)

def loadCurrentUsage (rows : List UsageRow) (accountId : AccountId) (profile : ProfileName) : List CurrentQuotaWindow :=
  let windows := (loadCurrentWinners rows accountId profile).map winner
  let windows := windows.map fun shown => ({ shown.1 with contributors := [] }, shown.2)
  let windows := (loadCurrentReports rows accountId profile).foldl addContributor windows
  windows.map fun shown => { shown.1 with contributors := sortContributors shown.1.contributors }

end Atmux.Pulse
