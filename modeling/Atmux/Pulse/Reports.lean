/-
Token reports: `build_report`.

Every row that passes the filters is added to five totals at once: the
report's, its profile's, and those of its period, its machine and its drill
key. `Holds` says what a total is after some rows; a profile's three maps are
groups of the profile's rows, and the profiles are groups of the rows.
Costs are left to the arithmetic of floats.
-/
import Mathlib.Algebra.GroupWithZero.Nat
import Mathlib.Algebra.Order.BigOperators.Group.List
import Mathlib.Data.Multiset.Defs
import Atmux.Lib.GroupBy
import Atmux.Pulse.Pricing

namespace Atmux.Pulse

open Lib

namespace Reports

def maxReportRows : Nat := 9999

inductive ReportGranularity
  | daily
  | weekly
deriving DecidableEq, Repr

inductive ReportDrill
  | profile
  | machine
  | session
  | model
deriving DecidableEq, Repr

structure ReportRange where
  sinceDay : String
  throughDay : String
deriving DecidableEq, Repr

structure TokenReportRequest where
  accountId : AccountId
  range : ReportRange
  granularity : ReportGranularity
  drill : ReportDrill
  profile : Option ProfileName
  machine : Option MachineName
  excludeProfiles : List ProfileName

structure ReportTotals where
  tokensIn : Nat
  tokensOut : Nat
  cacheWrite5m : Nat
  cacheWrite1h : Nat
  cacheRead : Nat
  totalTokens : Nat
  costUsd : F64
deriving DecidableEq, Repr

structure ReportBreakdown where
  key : String
  totals : ReportTotals
deriving DecidableEq, Repr

structure ReportPeriod where
  day : String
  totals : ReportTotals
deriving DecidableEq, Repr

structure ProfileTokenReport where
  profile : ProfileName
  totals : ReportTotals
  byPeriod : List ReportPeriod
  byMachine : List ReportBreakdown
  drill : List ReportBreakdown

structure TokenReport where
  range : ReportRange
  granularity : ReportGranularity
  drill : ReportDrill
  profiles : List ProfileTokenReport
  total : ReportTotals
  rowsScanned : Nat
  fallbackPricedRows : Nat

/-- What a report asks of floats and of `jiff`. A date is the number of its day, 0 for 1970-01-01. -/
structure Crates where
  add : F64 → F64 → F64
  mul : F64 → F64 → F64
  div : F64 → F64 → F64
  ofU64 : Nat → F64
  round : F64 → F64
  parseDate : String → Except String Int
  printDate : Int → String
  /-- `Date::MIN` -/
  firstDate : Int
  /-- Why there is no date before it. -/
  beforeFirst : String

/-! ## Costs -/

/-- 1_000_000.0 -/
def million : F64 := 0x412e848000000000

/-- `value < 0.0`, of a finite value. -/
def isNegative (value : F64) : Bool := value >>> 63 == 1 && value != 0x8000000000000000

/-- `f64::total_cmp` compares these. -/
def totalOrder (value : F64) : UInt64 := if value >>> 63 == 0 then value ||| 0x8000000000000000 else ~~~value

def totalCmp (left right : F64) : Ordering := compare (totalOrder left) (totalOrder right)

section Build

variable (crates : Crates)

def roundMicro (cost : F64) : F64 := crates.div (crates.round (crates.mul cost million)) million

def scaled (tokens : Nat) (perMillion : F64) : F64 := crates.mul (crates.div (crates.ofU64 tokens) million) perMillion

def costForGrain (grain : TokenGrain) (rate : PricingRate) : PulseResult F64 :=
  let rates := [rate.input, rate.output, rate.cacheWrite5m, rate.cacheWrite1h, rate.cacheRead]
  if rates.any fun value => !value.isFinite || isNegative value then
    .error (.invalidInput "pricing rates must be finite and nonnegative")
  else
    let cost := crates.add (crates.add (crates.add (crates.add (scaled crates grain.tokensIn rate.input)
      (scaled crates grain.tokensOut rate.output)) (scaled crates grain.cacheWrite5m rate.cacheWrite5m))
      (scaled crates grain.cacheWrite1h rate.cacheWrite1h)) (scaled crates grain.cacheRead rate.cacheRead)
    if cost.isFinite then .ok (roundMicro crates cost) else .error (.invalidInput "computed token cost overflowed")

/-! ## Totals -/

/-- Above `u64::MAX`. -/
def u64Limit : Nat := 0x10000000000000000

def checkedAdd (left right : Nat) : PulseResult Nat :=
  if left + right < u64Limit then .ok (left + right) else .error (.invalidInput "token report total overflowed")

def costOverflowed : PulseError := .invalidInput "token report cost overflowed"

namespace ReportTotals

def zero : ReportTotals := ⟨0, 0, 0, 0, 0, 0, 0⟩

def rowTotal (row : TokenGrain) : PulseResult Nat := do
  let exchanged ← checkedAdd row.tokensIn row.tokensOut
  let written ← checkedAdd row.cacheWrite5m row.cacheWrite1h
  let uncached ← checkedAdd exchanged written
  checkedAdd uncached row.cacheRead

def addCost (totals : ReportTotals) (cost : F64) : PulseResult ReportTotals :=
  let costUsd := crates.add totals.costUsd cost
  if costUsd.isFinite then .ok { totals with costUsd } else .error costOverflowed

def add (totals : ReportTotals) (row : TokenGrain) (cost : F64) : PulseResult ReportTotals := do
  let tokensIn ← checkedAdd totals.tokensIn row.tokensIn
  let tokensOut ← checkedAdd totals.tokensOut row.tokensOut
  let cacheWrite5m ← checkedAdd totals.cacheWrite5m row.cacheWrite5m
  let cacheWrite1h ← checkedAdd totals.cacheWrite1h row.cacheWrite1h
  let cacheRead ← checkedAdd totals.cacheRead row.cacheRead
  let rowTotal ← rowTotal row
  let totalTokens ← checkedAdd totals.totalTokens rowTotal
  addCost crates { totals with tokensIn, tokensOut, cacheWrite5m, cacheWrite1h, cacheRead, totalTokens } cost

def roundCost (totals : ReportTotals) : ReportTotals := { totals with costUsd := roundMicro crates totals.costUsd }

end ReportTotals

/-! ## Profiles -/

/-- `Weekday::to_monday_zero_offset`; 1970-01-01 was a Thursday. -/
def mondayOffset (date : Int) : Int := (date + 3) % 7

def weekBucket (day : String) : PulseResult String :=
  match crates.parseDate day with
  | .error error => .error (.invalidInput ("invalid report day: " ++ error))
  | .ok date =>
    if date - mondayOffset date < crates.firstDate then
      .error (.invalidInput ("weekly bucket overflowed: " ++ crates.beforeFirst))
    else .ok (crates.printDate (date - mondayOffset date))

def periodBucket (granularity : ReportGranularity) (row : TokenGrain) : PulseResult String :=
  match granularity with
  | .daily => .ok row.day
  | .weekly => weekBucket crates row.day

def drillKey (drill : ReportDrill) (row : TokenGrain) : Option String :=
  match drill with
  | .profile => none
  | .machine => some row.machine.value
  | .session => some row.sessionId.value
  | .model => some row.model

structure ProfileAccumulator where
  totals : ReportTotals
  periods : SortedMap String ReportTotals
  machines : SortedMap String ReportTotals
  drill : SortedMap String ReportTotals

namespace ProfileAccumulator

def zero : ProfileAccumulator := ⟨.zero, .empty, .empty, .empty⟩

def addDrill (values : SortedMap String ReportTotals) (row : TokenGrain) (cost : F64) (drill : ReportDrill) :
    PulseResult (SortedMap String ReportTotals) :=
  match drillKey drill row with
  | none => .ok values
  | some key => values.change key .zero fun totals => totals.add crates row cost

def add (accumulator : ProfileAccumulator) (row : TokenGrain) (cost : F64) (granularity : ReportGranularity)
    (drill : ReportDrill) : PulseResult ProfileAccumulator := do
  let totals ← accumulator.totals.add crates row cost
  let bucket ← periodBucket crates granularity row
  let periods ← accumulator.periods.change bucket .zero fun totals => totals.add crates row cost
  let machines ← accumulator.machines.change row.machine.value .zero fun totals => totals.add crates row cost
  let drill ← addDrill crates accumulator.drill row cost drill
  pure ⟨totals, periods, machines, drill⟩

end ProfileAccumulator

/-- The dearer first, then by name. -/
def costThenKey (leftCost : F64) (left : String) (rightCost : F64) (right : String) : Bool :=
  ((totalCmp rightCost leftCost).then (compare left right)).isLE

def finishBreakdown (values : SortedMap String ReportTotals) : List ReportBreakdown :=
  (values.entries.map fun entry => ⟨entry.1, entry.2.roundCost crates⟩).mergeSort fun left right =>
    costThenKey left.totals.costUsd left.key right.totals.costUsd right.key

def ProfileAccumulator.finish (accumulator : ProfileAccumulator) (profile : ProfileName) : ProfileTokenReport where
  profile := profile
  totals := accumulator.totals.roundCost crates
  byPeriod := accumulator.periods.entries.map fun entry => ⟨entry.1, entry.2.roundCost crates⟩
  byMachine := finishBreakdown crates accumulator.machines
  drill := finishBreakdown crates accumulator.drill

/-! ## Reports -/

/-- What the profiles of a report are kept by. -/
instance {label : String} {maxBytes : Nat} : LinearOrder (ValidatedString label maxBytes) :=
  LinearOrder.lift' ValidatedString.value fun left right h => by
    cases left
    cases right
    cases h
    rfl

structure ReportRun where
  profiles : SortedMap ProfileName ProfileAccumulator
  total : ReportTotals
  rowsScanned : Nat
  fallbackPricedRows : Nat

variable (request : TokenReportRequest) (defaults overrides : List PricingRule) (vendors : SortedMap ProfileName Vendor)

/-- The rows that are passed over. -/
def skipped (row : TokenGrain) : Bool :=
  row.accountId != request.accountId || row.day < request.range.sinceDay || request.range.throughDay < row.day ||
    request.machine.any (fun machine => row.machine != machine) || request.excludeProfiles.contains row.profile

/-- What a row is billed at. -/
def resolvedFor (row : TokenGrain) : PulseResult ResolvedPricing :=
  match vendors.find? row.profile with
  | none => .error ⟨.storage, "token report row referenced an unavailable profile"⟩
  | some vendor => .ok (resolveVendorPricing vendor row.model row.settings defaults overrides)

/-- `saturating_add` on a `usize`. -/
def saturatingAdd (count more : Nat) : Nat := min (count + more) (u64Limit - 1)

def addPassing (run : ReportRun) (row : TokenGrain) : PulseResult ReportRun := do
  let resolved ← resolvedFor defaults overrides vendors row
  let cost ← costForGrain crates row resolved.rate
  let total ← run.total.add crates row cost
  let profiles ← run.profiles.change row.profile .zero fun accumulator =>
    accumulator.add crates row cost request.granularity request.drill
  pure ⟨profiles, total, saturatingAdd run.rowsScanned 1,
    saturatingAdd run.fallbackPricedRows (if resolved.origin = .fallback then 1 else 0)⟩

def addRow (run : ReportRun) (row : TokenGrain) : PulseResult ReportRun :=
  if skipped request row then .ok run else addPassing crates request defaults overrides vendors run row

def finishReport (run : ReportRun) : TokenReport where
  range := request.range
  granularity := request.granularity
  drill := request.drill
  profiles := (run.profiles.entries.map fun entry => entry.2.finish crates entry.1).mergeSort fun left right =>
    costThenKey left.totals.costUsd left.profile.value right.totals.costUsd right.profile.value
  total := run.total.roundCost crates
  rowsScanned := run.rowsScanned
  fallbackPricedRows := run.fallbackPricedRows

def buildReport (rows : List TokenGrain) : PulseResult TokenReport :=
  if maxReportRows < rows.length then .error ⟨.storage, "token report exceeded its work bound"⟩
  else finishReport crates request <$> rows.foldlM (addRow crates request defaults overrides vendors) ⟨.empty, .zero, 0, 0⟩

end Build

/-! ## Integers -/

/-- The six integers of a total. -/
inductive Counted
  | tokensIn
  | tokensOut
  | cacheWrite5m
  | cacheWrite1h
  | cacheRead
  | totalTokens
deriving DecidableEq, Repr

def ReportTotals.count (totals : ReportTotals) : Counted → Nat
  | .tokensIn => totals.tokensIn
  | .tokensOut => totals.tokensOut
  | .cacheWrite5m => totals.cacheWrite5m
  | .cacheWrite1h => totals.cacheWrite1h
  | .cacheRead => totals.cacheRead
  | .totalTokens => totals.totalTokens

/-- The tokens of a row; all of them are those of its five classes. -/
def tokens (counted : Counted) (row : TokenGrain) : Nat :=
  match counted with
  | .tokensIn => row.tokensIn
  | .tokensOut => row.tokensOut
  | .cacheWrite5m => row.cacheWrite5m
  | .cacheWrite1h => row.cacheWrite1h
  | .cacheRead => row.cacheRead
  | .totalTokens => row.tokensIn + row.tokensOut + row.cacheWrite5m + row.cacheWrite1h + row.cacheRead

/-- What rows add up to. -/
def sumOf (counted : Counted) (rows : List TokenGrain) : Nat := (rows.map (tokens counted)).sum

/-- The total is that of the rows. -/
def Holds (totals : ReportTotals) (rows : List TokenGrain) : Prop := ∀ counted, totals.count counted = sumOf counted rows

/-- The total of a total is the sum of its classes. -/
def ReportTotals.Adds (totals : ReportTotals) : Prop :=
  totals.totalTokens = totals.tokensIn + totals.tokensOut + totals.cacheWrite5m + totals.cacheWrite1h + totals.cacheRead

variable {crates : Crates} {totals totals' : ReportTotals} {row : TokenGrain} {rows rows' group group' : List TokenGrain}
  {cost : F64} {counted : Counted}

@[simp] theorem count_roundCost : (totals.roundCost crates).count counted = totals.count counted := by
  cases counted <;> rfl

theorem sumOf_append : sumOf counted (rows ++ rows') = sumOf counted rows + sumOf counted rows' := by
  rw [sumOf, List.map_append, List.sum_append, sumOf, sumOf]

theorem sumOf_perm (h : rows.Perm rows') : sumOf counted rows = sumOf counted rows' := (h.map _).sum_eq

theorem sumOf_le (h : rows.Sublist rows') : sumOf counted rows ≤ sumOf counted rows' := (h.map _).sum_le_sum fun _ _ => Nat.zero_le _

theorem sumOf_totalTokens (rows : List TokenGrain) : sumOf .totalTokens rows = sumOf .tokensIn rows + sumOf .tokensOut rows +
    sumOf .cacheWrite5m rows + sumOf .cacheWrite1h rows + sumOf .cacheRead rows := by
  induction rows with
  | nil => rfl
  | cons row rows ih =>
    simp only [sumOf, List.map_cons, List.sum_cons] at ih ⊢
    simp only [tokens] at ih ⊢
    omega

theorem Holds.zero : Holds .zero [] := by
  intro counted
  cases counted <;> rfl

theorem Holds.adds (h : Holds totals rows) : totals.Adds := by
  have htotal := h .totalTokens
  rw [sumOf_totalTokens, ← h .tokensIn, ← h .tokensOut, ← h .cacheWrite5m, ← h .cacheWrite1h, ← h .cacheRead] at htotal
  exact htotal

theorem Holds.roundCost (h : Holds totals rows) : Holds (totals.roundCost crates) rows :=
  fun counted => count_roundCost.trans (h counted)

theorem Holds.eq_of_perm (h : Holds totals rows) (h' : Holds totals' rows') (hrows : rows.Perm rows') :
    totals.count = totals'.count := funext fun counted => by rw [h counted, h' counted, sumOf_perm hrows]

theorem checkedAdd_ok {left right sum : Nat} (h : checkedAdd left right = .ok sum) : sum = left + right ∧ sum < u64Limit := by
  rw [checkedAdd] at h
  split at h
  next hlt =>
    obtain rfl := Except.ok.inj h
    exact ⟨rfl, hlt⟩
  next => cases h

theorem checkedAdd_ne_error {left right : Nat} {error : PulseError} (h : left + right < u64Limit) :
    checkedAdd left right ≠ .error error := by
  rw [checkedAdd, if_pos h]
  exact fun h => (by cases h)

theorem rowTotal_ok {total : Nat} (h : ReportTotals.rowTotal row = .ok total) : total = tokens .totalTokens row := by
  rw [ReportTotals.rowTotal] at h
  obtain ⟨exchanged, hexchanged, h⟩ := bind_ok h
  obtain ⟨written, hwritten, h⟩ := bind_ok h
  obtain ⟨uncached, huncached, h⟩ := bind_ok h
  have h₁ := (checkedAdd_ok hexchanged).1
  have h₂ := (checkedAdd_ok hwritten).1
  have h₃ := (checkedAdd_ok huncached).1
  have h₄ := (checkedAdd_ok h).1
  rw [tokens]
  omega

theorem rowTotal_ne_error {error : PulseError} (h : tokens .totalTokens row < u64Limit) :
    ReportTotals.rowTotal row ≠ .error error := by
  rw [tokens] at h
  refine bind_ne_error (checkedAdd_ne_error (by omega)) fun exchanged hexchanged => ?_
  refine bind_ne_error (checkedAdd_ne_error (by omega)) fun written hwritten => ?_
  have h₁ := (checkedAdd_ok hexchanged).1
  have h₂ := (checkedAdd_ok hwritten).1
  refine bind_ne_error (checkedAdd_ne_error (by omega)) fun uncached huncached => ?_
  have h₃ := (checkedAdd_ok huncached).1
  exact checkedAdd_ne_error (by omega)

theorem addCost_ok (h : ReportTotals.addCost crates totals cost = .ok totals') : totals'.count = totals.count := by
  rw [ReportTotals.addCost] at h
  split at h
  · obtain rfl := Except.ok.inj h
    funext counted
    cases counted <;> rfl
  · cases h

/-- A row that is added adds its tokens, and none of the sums leaves a `u64`. -/
theorem add_ok (h : totals.add crates row cost = .ok totals') (counted : Counted) :
    totals'.count counted = totals.count counted + tokens counted row ∧ totals'.count counted < u64Limit := by
  rw [ReportTotals.add] at h
  obtain ⟨tokensIn, h₁, h⟩ := bind_ok h
  obtain ⟨tokensOut, h₂, h⟩ := bind_ok h
  obtain ⟨cacheWrite5m, h₃, h⟩ := bind_ok h
  obtain ⟨cacheWrite1h, h₄, h⟩ := bind_ok h
  obtain ⟨cacheRead, h₅, h⟩ := bind_ok h
  obtain ⟨rowTotal, hrow, h⟩ := bind_ok h
  obtain ⟨totalTokens, h₆, h⟩ := bind_ok h
  rw [rowTotal_ok hrow] at h₆
  rw [addCost_ok h]
  cases counted with
  | tokensIn => exact checkedAdd_ok h₁
  | tokensOut => exact checkedAdd_ok h₂
  | cacheWrite5m => exact checkedAdd_ok h₃
  | cacheWrite1h => exact checkedAdd_ok h₄
  | cacheRead => exact checkedAdd_ok h₅
  | totalTokens => exact checkedAdd_ok h₆

/-- Where the sums fit a `u64`, only the cost can keep a row from being added. -/
theorem totals_add_ne_error {error : PulseError} (hcost : error ≠ costOverflowed)
    (hfits : ∀ counted, totals.count counted + tokens counted row < u64Limit) :
    totals.add crates row cost ≠ .error error := by
  refine bind_ne_error (checkedAdd_ne_error (hfits .tokensIn)) fun _ _ => ?_
  refine bind_ne_error (checkedAdd_ne_error (hfits .tokensOut)) fun _ _ => ?_
  refine bind_ne_error (checkedAdd_ne_error (hfits .cacheWrite5m)) fun _ _ => ?_
  refine bind_ne_error (checkedAdd_ne_error (hfits .cacheWrite1h)) fun _ _ => ?_
  refine bind_ne_error (checkedAdd_ne_error (hfits .cacheRead)) fun _ _ => ?_
  have hrow : tokens .totalTokens row < u64Limit := lt_of_le_of_lt (Nat.le_add_left _ _) (hfits .totalTokens)
  refine bind_ne_error (rowTotal_ne_error hrow) fun rowTotal htotal => ?_
  rw [rowTotal_ok htotal]
  refine bind_ne_error (checkedAdd_ne_error (hfits .totalTokens)) fun _ _ => ?_
  rw [ReportTotals.addCost]
  dsimp only
  split
  · exact fun h => (by cases h)
  · exact fun h => hcost (Except.error.inj h).symm

theorem Holds.add (h : Holds totals group) (hok : totals.add crates row cost = .ok totals') : Holds totals' (group ++ [row]) := by
  intro counted
  rw [(add_ok hok counted).1, h counted, sumOf_append]
  simp [sumOf]

/-! ## Groups -/

variable {request : TokenReportRequest} {granularity : ReportGranularity} {drill : ReportDrill}
  {accumulator accumulator' : ProfileAccumulator}

/-- The period of a row, where it has one. -/
def periodOf (crates : Crates) (granularity : ReportGranularity) (row : TokenGrain) : Option String :=
  (periodBucket crates granularity row).toOption

theorem periodOf_eq_some {bucket : String} :
    periodOf crates granularity row = some bucket ↔ periodBucket crates granularity row = .ok bucket := by
  rw [periodOf]
  cases periodBucket crates granularity row with
  | error error => exact ⟨fun h => (by cases h), fun h => (by cases h)⟩
  | ok found => exact ⟨fun h => congrArg _ (Option.some.inj h), fun h => congrArg _ (Except.ok.inj h)⟩

/-- What a profile's totals are after its rows. -/
structure ProfileHolds (crates : Crates) (granularity : ReportGranularity) (drill : ReportDrill)
    (accumulator : ProfileAccumulator) (rows : List TokenGrain) : Prop where
  totals : Holds accumulator.totals rows
  periods : Grouped (periodOf crates granularity) Holds accumulator.periods rows
  machines : Grouped (fun row => some row.machine.value) Holds accumulator.machines rows
  drilled : drill ≠ .profile → Grouped (drillKey drill) Holds accumulator.drill rows
  undrilled : drill = .profile → accumulator.drill = .empty

theorem ProfileHolds.zero : ProfileHolds crates granularity drill .zero [] where
  totals := .zero
  periods := .empty
  machines := .empty
  drilled := fun _ => .empty
  undrilled := fun _ => rfl

theorem drillKey_eq_none : drillKey drill row = none ↔ drill = .profile := by
  cases drill with
  | profile => exact ⟨fun _ => rfl, fun _ => rfl⟩
  | machine => exact ⟨fun h => (by cases h), fun h => (by cases h)⟩
  | session => exact ⟨fun h => (by cases h), fun h => (by cases h)⟩
  | model => exact ⟨fun h => (by cases h), fun h => (by cases h)⟩

/-- One more row of the profile. -/
theorem ProfileHolds.add (h : ProfileHolds crates granularity drill accumulator rows)
    (hok : accumulator.add crates row cost granularity drill = .ok accumulator') :
    ProfileHolds crates granularity drill accumulator' (rows ++ [row]) := by
  rw [ProfileAccumulator.add] at hok
  obtain ⟨totals, htotals, hok⟩ := bind_ok hok
  obtain ⟨bucket, hbucket, hok⟩ := bind_ok hok
  obtain ⟨periods, hperiods, hok⟩ := bind_ok hok
  obtain ⟨machines, hmachines, hok⟩ := bind_ok hok
  obtain ⟨drilled, hdrilled, hok⟩ := bind_ok hok
  obtain rfl := Except.ok.inj hok
  have hstep : ∀ (totals totals' : ReportTotals) (group : List TokenGrain), Holds totals group →
      totals.add crates row cost = .ok totals' → Holds totals' (group ++ [row]) := fun _ _ _ hheld hadd => hheld.add hadd
  refine ⟨h.totals.add htotals, ?_, ?_, fun hdrill => ?_, fun hdrill => ?_⟩
  · exact h.periods.change (periodOf_eq_some.2 hbucket) .zero hstep hperiods
  · exact h.machines.change rfl .zero hstep hmachines
  · rw [ProfileAccumulator.addDrill] at hdrilled
    split at hdrilled
    next hnone => exact absurd (drillKey_eq_none.1 hnone) hdrill
    next key hkey => exact (h.drilled hdrill).change hkey .zero hstep hdrilled
  · rw [ProfileAccumulator.addDrill, drillKey_eq_none.2 hdrill] at hdrilled
    obtain rfl := Except.ok.inj hdrilled
    exact h.undrilled hdrill

section Build

variable {defaults overrides : List PricingRule} {vendors : SortedMap ProfileName Vendor} {run run' : ReportRun}

/-- What a row needs, apart from room in the totals. -/
structure Addable (crates : Crates) (request : TokenReportRequest) (defaults overrides : List PricingRule)
    (vendors : SortedMap ProfileName Vendor) (row : TokenGrain) : Prop where
  priced : ∃ resolved cost, resolvedFor defaults overrides vendors row = .ok resolved ∧
    costForGrain crates row resolved.rate = .ok cost
  placed : ∃ bucket, periodBucket crates request.granularity row = .ok bucket

/-- What a report's totals are after the rows that passed. -/
structure RunHolds (crates : Crates) (request : TokenReportRequest) (defaults overrides : List PricingRule)
    (vendors : SortedMap ProfileName Vendor) (run : ReportRun) (passing : List TokenGrain) : Prop where
  total : Holds run.total passing
  profiles : Grouped (fun row => some row.profile) (ProfileHolds crates request.granularity request.drill) run.profiles passing
  addable : ∀ row ∈ passing, Addable crates request defaults overrides vendors row
  fits : ∀ counted, sumOf counted passing < u64Limit

theorem RunHolds.zero : RunHolds crates request defaults overrides vendors ⟨.empty, .zero, 0, 0⟩ [] where
  total := .zero
  profiles := .empty
  addable := fun _ h => (by cases h)
  fits := fun _ => (by decide : 0 < u64Limit)

theorem RunHolds.addPassing (h : RunHolds crates request defaults overrides vendors run rows)
    (hok : Reports.addPassing crates request defaults overrides vendors run row = .ok run') :
    RunHolds crates request defaults overrides vendors run' (rows ++ [row]) := by
  rw [Reports.addPassing] at hok
  obtain ⟨resolved, hresolved, hok⟩ := bind_ok hok
  obtain ⟨cost, hcost, hok⟩ := bind_ok hok
  obtain ⟨total, htotal, hok⟩ := bind_ok hok
  obtain ⟨profiles, hprofiles, hok⟩ := bind_ok hok
  obtain rfl := Except.ok.inj hok
  have hsum := h.total.add htotal
  refine ⟨hsum, ?_, fun other hother => ?_, fun counted => ?_⟩
  · exact h.profiles.change rfl .zero (fun _ _ _ hheld hadd => hheld.add hadd) hprofiles
  · rcases List.mem_append.1 hother with hmem | hlast
    · exact h.addable other hmem
    · obtain rfl := List.mem_singleton.1 hlast
      obtain ⟨added, hadded, -⟩ := map_ok hprofiles
      dsimp only at hadded
      rw [ProfileAccumulator.add] at hadded
      obtain ⟨_, _, hplaced⟩ := bind_ok hadded
      obtain ⟨bucket, hbucket, -⟩ := bind_ok hplaced
      exact ⟨⟨resolved, cost, hresolved, hcost⟩, bucket, hbucket⟩
  · rw [← hsum counted]
    exact (add_ok htotal counted).2

/-- The row is of the account, of the days, of the machine asked for, if any, and of no excluded profile. -/
def Passes (request : TokenReportRequest) (row : TokenGrain) : Prop :=
  row.accountId = request.accountId ∧ request.range.sinceDay ≤ row.day ∧ row.day ≤ request.range.throughDay ∧
    (∀ machine ∈ request.machine, row.machine = machine) ∧ row.profile ∉ request.excludeProfiles

theorem skipped_iff : skipped request row = true ↔ ¬ Passes request row := by
  have hlt : ∀ left right : String, left < right ↔ ¬ right ≤ left := fun _ _ => not_le.symm
  rw [skipped, Passes]
  cases request.machine with
  | none =>
    simp only [Bool.or_eq_true, bne_iff_ne, decide_eq_true_eq, hlt, Option.any_none, List.contains_iff_mem, Option.mem_def,
      reduceCtorEq, false_implies, implies_true]
    tauto
  | some machine =>
    simp only [Bool.or_eq_true, bne_iff_ne, decide_eq_true_eq, hlt, Option.any_some, List.contains_iff_mem, Option.mem_def,
      Option.some.injEq, forall_eq']
    tauto

instance (request : TokenReportRequest) : DecidablePred (Passes request) := fun row =>
  decidable_of_iff (skipped request row = false) (by rw [← Bool.not_eq_true, skipped_iff, not_not])

/-- The rows that a report is about. -/
def passing (request : TokenReportRequest) (rows : List TokenGrain) : List TokenGrain := rows.filter fun row => Passes request row

theorem RunHolds.addRow {seen : List TokenGrain}
    (h : RunHolds crates request defaults overrides vendors run (passing request seen))
    (hok : Reports.addRow crates request defaults overrides vendors run row = .ok run') :
    RunHolds crates request defaults overrides vendors run' (passing request (seen ++ [row])) := by
  rw [Reports.addRow] at hok
  rw [passing, List.filter_append, ← passing]
  split at hok
  next hskipped =>
    obtain rfl := Except.ok.inj hok
    have hnone : [row].filter (fun row => decide (Passes request row)) = [] := by simp [skipped_iff.1 hskipped]
    rw [hnone, List.append_nil]
    exact h
  next hpasses =>
    have hone : [row].filter (fun row => decide (Passes request row)) = [row] := by
      rw [skipped_iff, not_not] at hpasses
      simp [hpasses]
    rw [hone]
    exact h.addPassing hok

/-- The run of a report that was built. -/
theorem buildReport_ok {report : TokenReport}
    (h : buildReport crates request defaults overrides vendors rows = .ok report) :
    ∃ run, RunHolds crates request defaults overrides vendors run (passing request rows) ∧
      report = finishReport crates request run := by
  rw [buildReport] at h
  split at h
  next => cases h
  next =>
    obtain ⟨run, hrun, rfl⟩ := map_ok h
    refine ⟨run, ?_, rfl⟩
    obtain ⟨seen, hseen, hholds⟩ := foldlM_ok
      (fun rest run => ∃ seen, rows = seen ++ rest ∧
        RunHolds crates request defaults overrides vendors run (passing request seen))
      (fun row rest run run' ⟨seen, hseen, hholds⟩ hstep =>
        ⟨seen ++ [row], by rw [hseen, List.append_assoc]; rfl, hholds.addRow hstep⟩)
      ⟨[], rfl, RunHolds.zero⟩ hrun
    rwa [hseen, List.append_nil]

/-! ## Finished totals -/

variable {α : Type} {values : SortedMap String ReportTotals}

variable (crates values) in
theorem map_finishBreakdown (f : ReportBreakdown → α) :
    ((finishBreakdown crates values).map f).Perm (values.entries.map fun entry => f ⟨entry.1, entry.2.roundCost crates⟩) := by
  refine ((List.mergeSort_perm _ _).map f).trans ?_
  rw [List.map_map]
  exact .refl _

variable (crates request) in
theorem map_profiles (f : ProfileTokenReport → α) (run : ReportRun) :
    ((finishReport crates request run).profiles.map f).Perm
      (run.profiles.entries.map fun entry => f (entry.2.finish crates entry.1)) := by
  refine ((List.mergeSort_perm _ _).map f).trans ?_
  rw [List.map_map]
  exact .refl _

theorem mem_profiles {profile : ProfileTokenReport} : profile ∈ (finishReport crates request run).profiles ↔
    ∃ name accumulator, run.profiles.find? name = some accumulator ∧ profile = accumulator.finish crates name := by
  have hperm := map_profiles crates request id run
  rw [List.map_id] at hperm
  rw [hperm.mem_iff, List.mem_map]
  constructor
  · rintro ⟨⟨name, accumulator⟩, hentry, rfl⟩
    exact ⟨name, accumulator, SortedMap.mem_entries.1 hentry, rfl⟩
  · rintro ⟨name, accumulator, hfind, rfl⟩
    exact ⟨(name, accumulator), SortedMap.mem_entries.2 hfind, rfl⟩

/-- A breakdown adds up to what its rows do. -/
theorem sum_breakdown {key : TokenGrain → Option String} (h : Grouped key Holds values rows) (counted : Counted) :
    ((finishBreakdown crates values).map fun breakdown => breakdown.totals.count counted).sum = sumOf counted rows := by
  rw [(map_finishBreakdown _ _ _).sum_eq]
  have hsum := h.sum (tokens counted) (fun totals => totals.count counted)
    fun totals group hheld => hheld counted
  rw [SortedMap.values, List.map_map] at hsum
  simp only [count_roundCost]
  exact hsum

theorem adds_breakdown {key : TokenGrain → Option String} (h : Grouped key Holds values rows) :
    ∀ breakdown ∈ finishBreakdown crates values, breakdown.totals.Adds := by
  intro breakdown hmem
  have hperm := map_finishBreakdown crates values id
  rw [List.map_id] at hperm
  obtain ⟨⟨key, totals⟩, hentry, rfl⟩ := List.mem_map.1 (hperm.subset hmem)
  exact (h.held key totals (SortedMap.mem_entries.1 hentry)).roundCost.adds

theorem sum_periods {accumulator : ProfileAccumulator} (h : ProfileHolds crates granularity drill accumulator rows)
    (counted : Counted) (name : ProfileName) :
    ((accumulator.finish crates name).byPeriod.map fun period => period.totals.count counted).sum = sumOf counted rows := by
  have hsum := h.periods.sum (tokens counted) (fun totals => totals.count counted)
    fun totals group hheld => hheld counted
  rw [SortedMap.values, List.map_map] at hsum
  rw [ProfileAccumulator.finish, List.map_map]
  exact (congrArg List.sum (List.map_congr_left fun entry _ => count_roundCost)).trans hsum

/-- What a report says of its rows, costs aside. -/
structure Conserves (crates : Crates) (request : TokenReportRequest) (rows : List TokenGrain) (report : TokenReport) :
    Prop where
  total : Holds report.total rows
  names : (report.profiles.map ProfileTokenReport.profile).Nodup
  profile : ∀ profile ∈ report.profiles, Holds profile.totals (rows.filter fun row => row.profile = profile.profile)
  profiles : ∀ counted, (report.profiles.map fun profile => profile.totals.count counted).sum = report.total.count counted
  periods : ∀ profile ∈ report.profiles, ∀ counted,
    (profile.byPeriod.map fun period => period.totals.count counted).sum = profile.totals.count counted
  machines : ∀ profile ∈ report.profiles, ∀ counted,
    (profile.byMachine.map fun machine => machine.totals.count counted).sum = profile.totals.count counted
  drilled : request.drill ≠ .profile → ∀ profile ∈ report.profiles, ∀ counted,
    (profile.drill.map fun breakdown => breakdown.totals.count counted).sum = profile.totals.count counted
  adds : report.total.Adds ∧ ∀ profile ∈ report.profiles, profile.totals.Adds ∧
    (∀ period ∈ profile.byPeriod, period.totals.Adds) ∧ (∀ machine ∈ profile.byMachine, machine.totals.Adds) ∧
      ∀ breakdown ∈ profile.drill, breakdown.totals.Adds
  /-- A period is there once, and holds the profile's rows that it is the bucket of. -/
  days : ∀ profile ∈ report.profiles, (profile.byPeriod.map ReportPeriod.day).Nodup
  period : ∀ profile ∈ report.profiles, ∀ period ∈ profile.byPeriod, Holds period.totals
    ((rows.filter fun row => row.profile = profile.profile).filter fun row =>
      periodOf crates request.granularity row = some period.day)
  placed : ∀ row ∈ rows, ∃ profile ∈ report.profiles, profile.profile = row.profile ∧
    ∃ period ∈ profile.byPeriod, periodBucket crates request.granularity row = .ok period.day

theorem RunHolds.conserves (h : RunHolds crates request defaults overrides vendors run rows) :
    Conserves crates request rows (finishReport crates request run) := by
  have hheld : ∀ name accumulator, run.profiles.find? name = some accumulator →
      ProfileHolds crates request.granularity request.drill accumulator (rows.filter fun row => row.profile = name) := by
    intro name accumulator hfind
    exact h.profiles.held_filter hfind _ fun row => by simp
  refine ⟨h.total.roundCost, ?_, ?_, ?_, ?_, ?_, ?_, ⟨h.total.roundCost.adds, ?_⟩, ?_, ?_, ?_⟩
  · refine (map_profiles _ _ _ run).nodup_iff.2 ?_
    exact run.profiles.keys_nodup
  · intro profile hprofile
    obtain ⟨name, accumulator, hfind, rfl⟩ := mem_profiles.1 hprofile
    exact (hheld name accumulator hfind).totals.roundCost
  · intro counted
    rw [(map_profiles _ _ _ run).sum_eq]
    have hsum := h.profiles.sum (tokens counted) (fun accumulator => accumulator.totals.count counted)
      fun accumulator group hgroup => hgroup.totals counted
    rw [SortedMap.values, List.map_map] at hsum
    refine Eq.trans (congrArg List.sum (List.map_congr_left fun entry _ => count_roundCost)) (hsum.trans ?_)
    exact (h.total.roundCost counted).symm
  · intro profile hprofile counted
    obtain ⟨name, accumulator, hfind, rfl⟩ := mem_profiles.1 hprofile
    rw [sum_periods (hheld name accumulator hfind)]
    exact ((hheld name accumulator hfind).totals.roundCost counted).symm
  · intro profile hprofile counted
    obtain ⟨name, accumulator, hfind, rfl⟩ := mem_profiles.1 hprofile
    refine (sum_breakdown (hheld name accumulator hfind).machines counted).trans ?_
    exact ((hheld name accumulator hfind).totals.roundCost counted).symm
  · intro hdrill profile hprofile counted
    obtain ⟨name, accumulator, hfind, rfl⟩ := mem_profiles.1 hprofile
    refine (sum_breakdown ((hheld name accumulator hfind).drilled hdrill) counted).trans ?_
    exact ((hheld name accumulator hfind).totals.roundCost counted).symm
  · intro profile hprofile
    obtain ⟨name, accumulator, hfind, rfl⟩ := mem_profiles.1 hprofile
    have hprofile := hheld name accumulator hfind
    refine ⟨hprofile.totals.roundCost.adds, ?_, adds_breakdown hprofile.machines, ?_⟩
    · intro period hperiod
      obtain ⟨⟨day, totals⟩, hentry, rfl⟩ := List.mem_map.1 hperiod
      exact (hprofile.periods.held day totals (SortedMap.mem_entries.1 hentry)).roundCost.adds
    · by_cases hdrill : request.drill = .profile
      · intro breakdown hbreakdown
        rw [ProfileAccumulator.finish, hprofile.undrilled hdrill] at hbreakdown
        cases (List.mergeSort_perm _ _).subset hbreakdown
      · exact adds_breakdown (hprofile.drilled hdrill)
  · intro profile hprofile
    obtain ⟨name, accumulator, hfind, rfl⟩ := mem_profiles.1 hprofile
    rw [ProfileAccumulator.finish, List.map_map]
    exact accumulator.periods.keys_nodup
  · intro profile hprofile period hperiod
    obtain ⟨name, accumulator, hfind, rfl⟩ := mem_profiles.1 hprofile
    obtain ⟨⟨day, totals⟩, hentry, rfl⟩ := List.mem_map.1 hperiod
    exact ((hheld name accumulator hfind).periods.held_filter (SortedMap.mem_entries.1 hentry) _
      fun row => by simp).roundCost
  · intro row hrow
    obtain ⟨accumulator, hfind⟩ := Option.isSome_iff_exists.1 ((h.profiles.present row.profile).2 ⟨row, hrow, rfl⟩)
    obtain ⟨bucket, hbucket⟩ := (h.addable row hrow).placed
    refine ⟨_, mem_profiles.2 ⟨row.profile, accumulator, hfind, rfl⟩, rfl, ?_⟩
    have hown : row ∈ rows.filter fun other => other.profile = row.profile := List.mem_filter.2 ⟨hrow, by simp⟩
    obtain ⟨totals, htotals⟩ := Option.isSome_iff_exists.1
      (((hheld row.profile accumulator hfind).periods.present bucket).2 ⟨row, hown, periodOf_eq_some.2 hbucket⟩)
    exact ⟨_, List.mem_map.2 ⟨(bucket, totals), SortedMap.mem_entries.2 htotals, rfl⟩, hbucket⟩

/-! ## The order of the rows -/

/-- The integers of a total, by what they count. -/
abbrev Integers := Counted → Nat

def breakdownIntegers (breakdowns : List ReportBreakdown) : Multiset (String × Integers) :=
  ↑(breakdowns.map fun breakdown => (breakdown.key, breakdown.totals.count))

/-- The integers of a profile's report, each under its keys. -/
def ProfileTokenReport.integers (report : ProfileTokenReport) :
    Integers × Multiset (String × Integers) × Multiset (String × Integers) × Multiset (String × Integers) :=
  (report.totals.count, ↑(report.byPeriod.map fun period => (period.day, period.totals.count)),
    breakdownIntegers report.byMachine, breakdownIntegers report.drill)

/-- All integers of a report. -/
def TokenReport.integers (report : TokenReport) : Integers × Multiset (ProfileName ×
    Integers × Multiset (String × Integers) × Multiset (String × Integers) × Multiset (String × Integers)) :=
  (report.total.count, ↑(report.profiles.map fun profile => (profile.profile, profile.integers)))

theorem count_eq_roundCost : (totals.roundCost crates).count = totals.count := funext fun _ => count_roundCost

theorem breakdownIntegers_eq {values' : SortedMap String ReportTotals} {key : TokenGrain → Option String}
    (h : Grouped key Holds values rows) (h' : Grouped key Holds values' rows') (hrows : rows.Perm rows') :
    breakdownIntegers (finishBreakdown crates values) = breakdownIntegers (finishBreakdown crates values') := by
  refine Multiset.coe_eq_coe.2 (((map_finishBreakdown _ _ _).trans ?_).trans (map_finishBreakdown _ _ _).symm)
  simp only [count_eq_roundCost]
  exact h.perm (fun _ totals => totals.count) h' hrows
    fun _ _ _ _ _ hheld hheld' hgroup => hheld.eq_of_perm hheld' hgroup

theorem ProfileHolds.integers_eq {accumulator accumulator' : ProfileAccumulator} {name : ProfileName}
    (h : ProfileHolds crates granularity drill accumulator rows)
    (h' : ProfileHolds crates granularity drill accumulator' rows') (hrows : rows.Perm rows') :
    (accumulator.finish crates name).integers = (accumulator'.finish crates name).integers := by
  have htotals : (accumulator.finish crates name).totals.count = (accumulator'.finish crates name).totals.count :=
    h.totals.roundCost.eq_of_perm h'.totals.roundCost hrows
  have hperiods := Multiset.coe_eq_coe.2 (h.periods.perm (fun _ totals => (totals.roundCost crates).count) h'.periods hrows
    fun _ _ _ _ _ hheld hheld' hgroup => hheld.roundCost.eq_of_perm hheld'.roundCost hgroup)
  have hdrill : breakdownIntegers (finishBreakdown crates accumulator.drill) =
      breakdownIntegers (finishBreakdown crates accumulator'.drill) := by
    by_cases hprofile : drill = .profile
    · rw [h.undrilled hprofile, h'.undrilled hprofile]
    · exact breakdownIntegers_eq (h.drilled hprofile) (h'.drilled hprofile) hrows
  rw [ProfileTokenReport.integers, ProfileTokenReport.integers, htotals]
  refine congrArg (Prod.mk _) (Prod.ext ?_ (Prod.ext (breakdownIntegers_eq h.machines h'.machines hrows) hdrill))
  simp only [ProfileAccumulator.finish, List.map_map]
  exact hperiods

theorem RunHolds.integers_eq (h : RunHolds crates request defaults overrides vendors run rows)
    (h' : RunHolds crates request defaults overrides vendors run' rows') (hrows : rows.Perm rows') :
    (finishReport crates request run).integers = (finishReport crates request run').integers := by
  refine Prod.ext (h.total.roundCost.eq_of_perm h'.total.roundCost hrows) ?_
  refine Multiset.coe_eq_coe.2 (((map_profiles _ _ _ _).trans ?_).trans (map_profiles _ _ _ _).symm)
  exact h.profiles.perm (fun name accumulator => (accumulator.finish crates name).integers) h'.profiles hrows
    fun _ _ _ _ _ hheld hheld' hgroup => hheld.integers_eq hheld' hgroup

/-! ## Refusals -/

/-- None of the sums leaves a `u64`. -/
def Fits (rows : List TokenGrain) : Prop := ∀ counted, sumOf counted rows < u64Limit

theorem Fits.sublist (h : Fits rows') (hrows : rows.Sublist rows') : Fits rows :=
  fun counted => lt_of_le_of_lt (sumOf_le hrows) (h counted)

variable {error : PulseError}

theorem Holds.add_ne_error (h : Holds totals group) (hfits : Fits (group ++ [row])) (hcost : error ≠ costOverflowed) :
    totals.add crates row cost ≠ .error error := by
  refine totals_add_ne_error hcost fun counted => ?_
  have hsum := hfits counted
  rw [sumOf_append, ← h counted] at hsum
  simpa [sumOf] using hsum

theorem change_ne_error {key : TokenGrain → Option String} {k : String} (h : Grouped key Holds values rows)
    (hfits : Fits (rows ++ [row])) (hcost : error ≠ costOverflowed) :
    (values.change k .zero fun totals => totals.add crates row cost) ≠ .error error := by
  refine SortedMap.change_ne_error ?_
  refine (h.held_getD .zero k).add_ne_error (hfits.sublist ?_) hcost
  exact List.filter_sublist.append (List.Sublist.refl _)

theorem ProfileHolds.add_ne_error {accumulator : ProfileAccumulator} {bucket : String}
    (h : ProfileHolds crates granularity drill accumulator rows) (hbucket : periodBucket crates granularity row = .ok bucket)
    (hfits : Fits (rows ++ [row])) (hcost : error ≠ costOverflowed) :
    accumulator.add crates row cost granularity drill ≠ .error error := by
  refine bind_ne_error (h.totals.add_ne_error hfits hcost) fun _ _ => ?_
  rw [hbucket]
  refine bind_ne_error (fun hok => (by cases hok)) fun _ _ => ?_
  refine bind_ne_error (change_ne_error h.periods hfits hcost) fun _ _ => ?_
  refine bind_ne_error (change_ne_error h.machines hfits hcost) fun _ _ => ?_
  refine bind_ne_error ?_ fun _ _ hpure => (by cases hpure)
  rw [ProfileAccumulator.addDrill]
  split
  next => exact fun hnone => (by cases hnone)
  next key hkey =>
    have hdrill : drill ≠ .profile := by
      intro hprofile
      rw [drillKey_eq_none.2 hprofile] at hkey
      cases hkey
    exact change_ne_error (h.drilled hdrill) hfits hcost

theorem RunHolds.addPassing_ne_error (h : RunHolds crates request defaults overrides vendors run rows)
    (haddable : Addable crates request defaults overrides vendors row) (hfits : Fits (rows ++ [row]))
    (hcost : error ≠ costOverflowed) : Reports.addPassing crates request defaults overrides vendors run row ≠ .error error := by
  obtain ⟨⟨resolved, cost, hresolved, hpriced⟩, bucket, hbucket⟩ := haddable
  rw [Reports.addPassing, hresolved]
  refine bind_ne_error (fun hok => (by cases hok)) fun found hfound => ?_
  obtain rfl := Except.ok.inj hfound
  rw [hpriced]
  refine bind_ne_error (fun hok => (by cases hok)) fun found hfound => ?_
  obtain rfl := Except.ok.inj hfound
  refine bind_ne_error (h.total.add_ne_error hfits hcost) fun _ _ => ?_
  refine bind_ne_error (SortedMap.change_ne_error ?_) fun _ _ hpure => (by cases hpure)
  refine (h.profiles.held_getD .zero row.profile).add_ne_error hbucket (hfits.sublist ?_) hcost
  exact List.filter_sublist.append (List.Sublist.refl _)

/-- Rows that make a report in one order are refused in another one for their cost only. -/
theorem buildReport_ne_error {report : TokenReport} (h : buildReport crates request defaults overrides vendors rows = .ok report)
    (hrows : rows.Perm rows') (hcost : error ≠ costOverflowed) :
    buildReport crates request defaults overrides vendors rows' ≠ .error error := by
  obtain ⟨built, hbuilt, -⟩ := buildReport_ok h
  have hpassing : (passing request rows).Perm (passing request rows') := hrows.filter _
  have hfits : Fits (passing request rows') := fun counted => by
    rw [← sumOf_perm hpassing]
    exact hbuilt.fits counted
  rw [buildReport] at h ⊢
  rw [← hrows.length_eq]
  split at h
  next => cases h
  next hlength =>
    rw [if_neg hlength]
    refine fun hrefused => ?_
    refine foldlM_ne_error
      (fun rest run => ∃ seen, rows' = seen ++ rest ∧
        RunHolds crates request defaults overrides vendors run (passing request seen))
      (fun row rest run run' ⟨seen, hseen, hholds⟩ hstep =>
        ⟨seen ++ [row], by rw [hseen, List.append_assoc]; rfl, hholds.addRow hstep⟩)
      ?_ ⟨[], rfl, RunHolds.zero⟩ (map_error hrefused)
    rintro row rest run ⟨seen, hseen, hholds⟩
    rw [Reports.addRow]
    split
    next => exact fun hok => (by cases hok)
    next hskipped =>
      have hpasses : Passes request row := by rwa [skipped_iff, not_not] at hskipped
      have hmem : row ∈ passing request rows' := by
        refine List.mem_filter.2 ⟨?_, decide_eq_true hpasses⟩
        rw [hseen]
        exact List.mem_append_right _ List.mem_cons_self
      refine hholds.addPassing_ne_error (hbuilt.addable row (hpassing.mem_iff.2 hmem)) (hfits.sublist ?_) hcost
      have hone : passing request [row] = [row] := by simp [passing, hpasses]
      rw [← hone, passing, passing, ← List.filter_append, passing, hseen]
      exact (List.Sublist.append_left (List.singleton_sublist.2 List.mem_cons_self) seen).filter _

/-! ## Weeks -/

/-- The bucket of a week is the Monday on or before the day. -/
theorem weekBucket_ok {day bucket : String} (h : weekBucket crates day = .ok bucket) :
    ∃ date monday, crates.parseDate day = .ok date ∧ bucket = crates.printDate monday ∧ mondayOffset monday = 0 ∧
      monday ≤ date ∧ date < monday + 7 := by
  rw [weekBucket] at h
  split at h
  next => cases h
  next date hdate =>
    split at h
    next => cases h
    next =>
      obtain rfl := Except.ok.inj h
      refine ⟨date, date - mondayOffset date, hdate, rfl, ?_, ?_, ?_⟩
      · simp only [mondayOffset]
        omega
      · simp only [mondayOffset]
        omega
      · simp only [mondayOffset]
        omega

/-- **Reports conserve tokens.** The totals of a report, of its profiles and of their periods,
machines and drill keys are the sums over the rows that pass; a week's bucket is its Monday; and the
rows in another order make the same integers, unless the sum of their costs overflows in that order. -/
theorem report_conserves_tokens (crates : Crates) (request : TokenReportRequest) (rows : List TokenGrain)
    (defaults overrides : List PricingRule) (vendors : SortedMap ProfileName Vendor) (report : TokenReport)
    (h : buildReport crates request defaults overrides vendors rows = .ok report) :
    Conserves crates request (rows.filter fun row => Passes request row) report ∧
      (∀ row bucket, periodBucket crates .daily row = .ok bucket → bucket = row.day) ∧
      (∀ row bucket, periodBucket crates .weekly row = .ok bucket →
        ∃ date monday, crates.parseDate row.day = .ok date ∧ bucket = crates.printDate monday ∧ mondayOffset monday = 0 ∧
          monday ≤ date ∧ date < monday + 7) ∧
      ∀ rows', rows.Perm rows' →
        (∀ report', buildReport crates request defaults overrides vendors rows' = .ok report' →
          report'.integers = report.integers) ∧
        ∀ error, buildReport crates request defaults overrides vendors rows' = .error error → error = costOverflowed := by
  obtain ⟨run, hrun, hreport⟩ := buildReport_ok h
  refine ⟨hreport ▸ hrun.conserves, fun row bucket hbucket => (Except.ok.inj hbucket).symm,
    fun row bucket hbucket => weekBucket_ok hbucket, fun rows' hrows => ⟨fun report' h' => ?_, fun error hrefused => ?_⟩⟩
  · obtain ⟨run', hrun', hreport'⟩ := buildReport_ok h'
    rw [hreport, hreport']
    exact hrun'.integers_eq hrun (hrows.symm.filter _)
  · by_contra hcost
    exact buildReport_ne_error h hrows hcost hrefused

/-! ## One week -/

/-- Floats and dates as they are for a million tokens at no price on 2026-08-04 and 2026-08-08. -/
def fewCrates : Crates where
  add := fun left right => if left = 0 then right else left
  mul := fun left right => if right = 0 then 0 else left
  div := fun left right => if left = 0 then 0 else if left = right then 0x3ff0000000000000 else left
  ofU64 := fun tokens => if tokens = 1000000 then million else 0
  round := fun value => value
  parseDate := fun day =>
    if day = "2026-08-04" then .ok 20669 else if day = "2026-08-08" then .ok 20673 else .error "invalid date"
  printDate := fun date => if date = 20668 then "2026-08-03" else "2026-08-10"
  firstDate := -4371587
  beforeFirst := "underflow"

def freeRule : PricingRule := ⟨"free", .anthropicOauth, "claude", .empty, 0, 0, 0, 0, 0⟩

def grainOf (day : String) (machine : MachineName) : TokenGrain where
  accountId := firstAccount
  profile := workProfile
  machine := machine
  sessionId := ⟨"session", by decide⟩
  model := "claude"
  settings := ⟨none, none, .empty⟩
  settingsHash := ""
  day := day
  tokensIn := 1000000
  tokensOut := 0
  cacheWrite5m := 0
  cacheWrite1h := 0
  cacheRead := 1000000
  source := .local

def weekRequest : TokenReportRequest where
  accountId := firstAccount
  range := ⟨"2026-08-01", "2026-08-08"⟩
  granularity := .weekly
  drill := .machine
  profile := none
  machine := none
  excludeProfiles := []

/-- Two machines, one week. -/
def weekRows : List TokenGrain := [grainOf "2026-08-04" ⟨"desk", by decide⟩, grainOf "2026-08-08" ⟨"couch", by decide⟩]

theorem week_reported : ∃ report, buildReport fewCrates weekRequest [] [freeRule] (SortedMap.empty.insert workProfile .anthropicOauth)
    weekRows = .ok report ∧ report.total.totalTokens = 4000000 ∧
      (report.profiles.map fun profile => profile.totals.totalTokens).sum = 4000000 := by
  have hrun : ∃ run, weekRows.foldlM (addRow fewCrates weekRequest [] [freeRule]
      (SortedMap.empty.insert workProfile .anthropicOauth)) ⟨.empty, .zero, 0, 0⟩ = .ok run := by
    exact ⟨_, rfl⟩
  obtain ⟨run, hrun⟩ := hrun
  have hreport : buildReport fewCrates weekRequest [] [freeRule] (SortedMap.empty.insert workProfile .anthropicOauth)
      weekRows = .ok (finishReport fewCrates weekRequest run) := by
    rw [buildReport, hrun]
    rfl
  have hconserves := (report_conserves_tokens _ _ _ _ _ _ _ hreport).1
  have hsum : sumOf .totalTokens (weekRows.filter fun row => Passes weekRequest row) = 4000000 := by decide
  have htotal := hconserves.total .totalTokens
  rw [hsum] at htotal
  exact ⟨_, hreport, htotal, (hconserves.profiles .totalTokens).trans htotal⟩

end Build

end Reports

end Atmux.Pulse
