/-
Thinning the usage snapshots as they grow old.

The cutoffs move from run to run and fall inside the days and hours, so a
bucket is thinned in parts. Its newest snapshot is never dropped, and once the
whole bucket lies behind the cutoff the newest of all that were ever inserted
is what is left of it, whatever the runs on the way
(`retention_history_independent`).
-/
import Mathlib.Algebra.GroupWithZero.Nat
import Atmux.Lib.Runs
import Atmux.Pulse.Usage

namespace Atmux.Pulse

open Lib

/-! ## A run -/

/-- Bounded lifecycle settings in days. -/
structure PulseRetentionConfig where
  contextDays : UInt16
  alertDays : UInt16
  hourlySnapshotsAfterDays : UInt16
  dailySnapshotsAfterDays : UInt16
deriving DecidableEq

/-- Retention work completed in one transaction. -/
structure RetentionResult where
  contextSessions : Nat
  usageWindows : Nat
  usageSnapshots : Nat
  alertEvents : Nat
deriving DecidableEq

def hourMs : Int := 3600000

def dayMs : Int := 24 * 60 * 60 * 1000

def cutoff (now : Int) (days : UInt16) : Int := saturatingSubI64 now (days.toNat * dayMs)

/-- The columns a snapshot is ranked by. -/
def polled (row : UsageRow) : ℤ ×ₗ ℕ := toLex (row.snapshot.polledAt, row.id)

/-- The partition of a snapshot by buckets of one width. -/
def bucket (width : Int) (row : UsageRow) : AccountId × ProfileName × MachineName × Int :=
  (row.snapshot.accountId, row.snapshot.profile, row.snapshot.machine, row.snapshot.polledAt.tdiv width)

namespace UsageStore

/-- `DELETE FROM usage_snapshots`, and of their windows. -/
def thinUsage (store : UsageStore) (range : UsageRow → Bool) (width : Int) : UsageStore where
  __ := store
  usage := store.usage.filter fun row =>
    !(range row && decide (1 < rowNumber (bucket width) polled (store.usage.rows.filter range) row))
  ids row hrow := by
    rw [Table.rows_filter] at hrow
    exact store.ids row (List.mem_of_mem_filter hrow)

def windowCount (store : UsageStore) : Nat := (store.usage.rows.map fun row => row.windows.length).sum

def applyRetention (store : UsageStore) (now : Int) (settings : PulseRetentionConfig) :
    PulseResult (UsageStore × RetentionResult) :=
  if settings.contextDays = 0 ∨ settings.alertDays = 0 ∨ settings.hourlySnapshotsAfterDays = 0 ∨
      settings.dailySnapshotsAfterDays ≤ settings.hourlySnapshotsAfterDays then
    .error (.invalidInput "retention periods must be nonzero and daily must follow hourly")
  else
    let contexts := store.contexts.filter fun session => ¬ session.lastActiveAt < cutoff now settings.contextDays
    let alerts := store.alerts.filter fun event => ¬ event.triggeredAt < cutoff now settings.alertDays
    let daily := cutoff now settings.dailySnapshotsAfterDays
    let hourly := cutoff now settings.hourlySnapshotsAfterDays
    let byDay := store.thinUsage (fun row => row.snapshot.polledAt < daily) dayMs
    let byHour := byDay.thinUsage (fun row => daily ≤ row.snapshot.polledAt ∧ row.snapshot.polledAt < hourly) hourMs
    .ok ({ byHour with contexts, alerts },
      { contextSessions := store.contexts.length - contexts.length
        usageWindows := store.windowCount - byHour.windowCount
        usageSnapshots := (store.usage.rows.length - byDay.usage.rows.length) +
          (byDay.usage.rows.length - byHour.usage.rows.length)
        alertEvents := store.alerts.length - alerts.length })

@[simp] theorem thinUsage_rows {store : UsageStore} {range : UsageRow → Bool} {width : Int} :
    (store.thinUsage range width).usage.rows = thin range (bucket width) polled store.usage.rows := Table.rows_filter

end UsageStore

/-! ## Runs -/

/-- A store, the snapshots that were ever inserted, and when retention last
ran. -/
structure RetentionState where
  store : UsageStore
  inserted : List UsageRow
  last : Option Int

inductive RetentionStep
  | insert (refers : Bool) (snapshot : UsageSnapshot)
  | retain (now : Int)

namespace RetentionState

def new (contexts : List ContextSession) (alerts : List AlertEvent) : RetentionState := ⟨.empty contexts alerts, [], none⟩

/-- An inserted snapshot is the one under the last id. -/
def step (settings : PulseRetentionConfig) (state : RetentionState) : RetentionStep → RetentionState
  | .insert refers snapshot =>
    match state.store.insertSnapshot refers snapshot with
    | .error _ => state
    | .ok store => { state with store, inserted := (store.usage.find? store.sequence).toList ++ state.inserted }
  | .retain now =>
    match state.store.applyRetention now settings with
    | .error _ => state
    | .ok (store, _) => { state with store, last := some now }

/-- Snapshots are polled after the epoch, and retention does not go back. -/
def Timely (state : RetentionState) : RetentionStep → Prop
  | .insert _ snapshot => 0 ≤ snapshot.polledAt
  | .retain now => ∀ last, state.last = some last → last ≤ now

/-- A run of inserts and of retention under one set of settings. -/
abbrev TimelyRun (settings : PulseRetentionConfig) :=
  Run fun state step state' => Timely state step ∧ state' = state.step settings step

end RetentionState

/-! ## Buckets -/

section
variable {row other : UsageRow} {width start : Int}

/-- Whole buckets of one width. -/
theorem tdiv_eq_iff {t n : Int} (ht : 0 ≤ t) (hwidth : 0 < width) : t.tdiv width = n ↔ n * width ≤ t ∧ t < (n + 1) * width := by
  rw [Int.tdiv_eq_ediv_of_nonneg ht]
  have hdiv := Int.mul_ediv_add_emod t width
  have hnonneg := Int.emod_nonneg t hwidth.ne'
  have hlt := Int.emod_lt_of_pos t hwidth
  constructor
  · rintro rfl
    have hcomm := Int.mul_comm (t / width) width
    have hsucc : (t / width + 1) * width = t / width * width + width := by rw [Int.add_mul, Int.one_mul]
    rw [hsucc]
    omega
  · rintro ⟨hle, hlt'⟩
    exact le_antisymm (Int.lt_add_one_iff.mp (Int.ediv_lt_of_lt_mul hwidth hlt')) ((Int.le_ediv_iff_mul_le hwidth).mpr hle)

theorem tdiv_day (t : Int) : t.tdiv dayMs = (t.tdiv hourMs).tdiv 24 := by
  have hnonneg : ∀ t : Int, 0 ≤ t → t.tdiv dayMs = (t.tdiv hourMs).tdiv 24 := by
    intro t ht
    have hhour : 0 ≤ t / hourMs := Int.ediv_nonneg ht (by decide)
    rw [Int.tdiv_eq_ediv_of_nonneg ht, Int.tdiv_eq_ediv_of_nonneg ht, Int.tdiv_eq_ediv_of_nonneg hhour]
    unfold dayMs hourMs
    omega
  rcases le_total 0 t with ht | ht
  · exact hnonneg t ht
  · have hneg := hnonneg (-t) (by omega)
    rw [Int.neg_tdiv, Int.neg_tdiv, Int.neg_tdiv] at hneg
    omega

/-- An hour is of one day. -/
theorem bucket_day_of_hour (h : bucket hourMs row = bucket hourMs other) : bucket dayMs row = bucket dayMs other := by
  simp only [bucket, Prod.mk.injEq] at h ⊢
  obtain ⟨haccount, hprofile, hmachine, hhour⟩ := h
  refine ⟨haccount, hprofile, hmachine, ?_⟩
  rw [tdiv_day, tdiv_day, hhour]

theorem cutoff_mono {now now' : Int} (h : now ≤ now') (days : UInt16) : cutoff now days ≤ cutoff now' days := by
  unfold cutoff saturatingSubI64
  omega

end

/-! ## What is kept -/

namespace RetentionState

variable {settings : PulseRetentionConfig} {state : RetentionState}

/-- Retention has thinned nothing of a row's hour by the day. -/
def ahead (settings : PulseRetentionConfig) (last : Option Int) (row : UsageRow) : Bool :=
  last.all fun now => cutoff now settings.dailySnapshotsAfterDays ≤ row.snapshot.polledAt.tdiv hourMs * hourMs

/-- The newest snapshots of the days, and of the hours ahead of the cutoff,
are kept. -/
structure Thinned (settings : PulseRetentionConfig) (state : RetentionState) : Prop where
  stored : state.store.usage.rows ⊆ state.inserted
  epoch : ∀ row ∈ state.inserted, 0 ≤ row.snapshot.polledAt
  ids : ∀ row ∈ state.inserted, row.id ≤ state.store.sequence
  distinct : ∀ a ∈ state.inserted, ∀ b ∈ state.inserted, polled a = polled b → a = b
  days : Covers (bucket dayMs) polled (fun _ => true) state.inserted state.store.usage.rows
  hours : Covers (bucket hourMs) polled (ahead settings state.last) state.inserted state.store.usage.rows

theorem thinned_new {contexts : List ContextSession} {alerts : List AlertEvent} : (new contexts alerts).Thinned settings where
  stored _ hmem := (by cases hmem)
  epoch _ hmem := (by cases hmem)
  ids _ hmem := (by cases hmem)
  distinct _ hmem := (by cases hmem)
  days _ hmem := (by cases hmem)
  hours _ hmem := (by cases hmem)

end RetentionState

namespace RetentionState

variable {settings : PulseRetentionConfig} {state : RetentionState}

theorem Thinned.insert (h : state.Thinned settings) {refers : Bool} {snapshot : UsageSnapshot} {store : UsageStore}
    (hepoch : 0 ≤ snapshot.polledAt) (hinsert : state.store.insertSnapshot refers snapshot = .ok store) :
    Thinned settings { state with store, inserted := (store.usage.find? store.sequence).toList ++ state.inserted } := by
  obtain ⟨row, hid, hroom, rfl, rfl, -⟩ := UsageStore.insertSnapshot_ok hinsert
  have hfind : (state.store.put row hid hroom).usage.find? (state.store.put row hid hroom).sequence = some row := by
    show (state.store.usage.upsert row).find? (state.store.sequence + 1) = some row
    rw [← hid]
    exact Table.find?_upsert_self
  have hrows (other : UsageRow) := @UsageStore.mem_put state.store row hid hroom other
  rw [hfind]
  refine ⟨fun other hmem => ?_, fun other hmem => ?_, fun other hmem => ?_, fun a ha b hb heq => ?_,
    h.days.cons row hrows, h.hours.cons row hrows⟩
  · exact List.mem_cons.mpr (((hrows other).mp hmem).imp_right fun hmem => h.stored hmem)
  · rcases List.mem_cons.mp hmem with rfl | hmem
    · exact hepoch
    · exact h.epoch other hmem
  · show other.id ≤ state.store.sequence + 1
    rcases List.mem_cons.mp hmem with rfl | hmem
    · omega
    · have := h.ids other hmem
      omega
  · have hids : a.id = b.id := (Prod.mk.inj (toLex.injective heq)).2
    rcases List.mem_cons.mp ha with harow | ha <;> rcases List.mem_cons.mp hb with hbrow | hb
    · rw [harow, hbrow]
    · have := h.ids b hb
      rw [harow] at hids
      omega
    · have := h.ids a ha
      rw [hbrow] at hids
      omega
    · exact h.distinct a ha b hb heq

/-- What is thinned by the day. -/
abbrev dayRange (settings : PulseRetentionConfig) (now : Int) (row : UsageRow) : Bool :=
  row.snapshot.polledAt < cutoff now settings.dailySnapshotsAfterDays

/-- What is thinned by the hour. -/
abbrev hourRange (settings : PulseRetentionConfig) (now : Int) (row : UsageRow) : Bool :=
  cutoff now settings.dailySnapshotsAfterDays ≤ row.snapshot.polledAt ∧
    row.snapshot.polledAt < cutoff now settings.hourlySnapshotsAfterDays

theorem applyRetention_ok {store store' : UsageStore} {now : Int} {result : RetentionResult}
    (h : store.applyRetention now settings = .ok (store', result)) :
    store'.usage.rows = thin (hourRange settings now) (bucket hourMs) polled
        (thin (dayRange settings now) (bucket dayMs) polled store.usage.rows) ∧
      store'.sequence = store.sequence ∧
      settings.hourlySnapshotsAfterDays < settings.dailySnapshotsAfterDays := by
  unfold UsageStore.applyRetention at h
  split at h
  · cases h
  next hvalid =>
    obtain ⟨rfl, -⟩ := Prod.mk.inj (Except.ok.inj h)
    simp only [not_or, UInt16.not_le] at hvalid
    refine ⟨?_, rfl, hvalid.2.2.2⟩
    show (UsageStore.thinUsage _ _ _).usage.rows = _
    rw [UsageStore.thinUsage_rows, UsageStore.thinUsage_rows]

theorem thin_subset {rows : List UsageRow} {range : UsageRow → Bool} {width : Int} :
    thin range (bucket width) polled rows ⊆ rows := List.filter_sublist.subset

/-- A run leaves a newest snapshot of each day, and of each hour that lies
ahead of its cutoff. -/
theorem Thinned.byDay (h : state.Thinned settings) {now : Int} (hnow : ∀ last, state.last = some last → last ≤ now) :
    Covers (bucket dayMs) polled (fun _ => true) state.inserted
        (thin (dayRange settings now) (bucket dayMs) polled state.store.usage.rows) ∧
      Covers (bucket hourMs) polled (ahead settings (some now)) state.inserted
        (thin (dayRange settings now) (bucket dayMs) polled state.store.usage.rows) := by
  have hmono : ∀ row, ahead settings (some now) row = true → ahead settings state.last row = true := by
    intro row hahead
    cases hlast : state.last with
    | none => rfl
    | some last =>
      have hcutoff := cutoff_mono (hnow last hlast) settings.dailySnapshotsAfterDays
      exact decide_eq_true (hcutoff.trans (of_decide_eq_true hahead))
  refine ⟨h.days.thin fun _ _ _ heq => heq, Covers.apart (fun row hrow hp => h.hours row hrow (hmono row hp)) ?_⟩
  intro row hrow hp other hother hpart
  have hstart := of_decide_eq_true hp
  have hhour : other.snapshot.polledAt.tdiv hourMs = row.snapshot.polledAt.tdiv hourMs := (Prod.mk.inj (Prod.mk.inj (Prod.mk.inj hpart).2).2).2
  have hle := ((tdiv_eq_iff (h.epoch other (h.stored hother)) (by decide)).mp hhour).1
  exact decide_eq_false (not_lt.mpr (hstart.trans hle))

theorem Thinned.retain (h : state.Thinned settings) {now : Int} {store : UsageStore} {result : RetentionResult}
    (hnow : ∀ last, state.last = some last → last ≤ now)
    (happly : state.store.applyRetention now settings = .ok (store, result)) :
    Thinned settings { state with store, last := some now } := by
  obtain ⟨hrows, hsequence, -⟩ := applyRetention_ok happly
  obtain ⟨hdays, hhours⟩ := h.byDay hnow
  refine ⟨fun row hmem => ?_, h.epoch, fun row hmem => ?_, h.distinct, ?_, ?_⟩
  · have hmem : row ∈ store.usage.rows := hmem
    rw [hrows] at hmem
    exact h.stored (thin_subset (thin_subset hmem))
  · show row.id ≤ store.sequence
    rw [hsequence]
    exact h.ids row hmem
  · show Covers _ _ _ _ store.usage.rows
    rw [hrows]
    exact hdays.thin fun _ _ _ heq => bucket_day_of_hour heq
  · show Covers _ _ _ _ store.usage.rows
    rw [hrows]
    exact hhours.thin fun _ _ _ heq => heq

theorem Thinned.step {step : RetentionStep} (h : state.Thinned settings) (htimely : state.Timely step) :
    (state.step settings step).Thinned settings := by
  cases step with
  | insert refers snapshot =>
    rw [RetentionState.step]
    split
    · exact h
    next store hinsert => exact h.insert htimely hinsert
  | retain now =>
    rw [RetentionState.step]
    split
    · exact h
    next store result happly => exact h.retain htimely happly

theorem thinned_run {steps : List RetentionStep} {contexts : List ContextSession} {alerts : List AlertEvent}
    (hrun : TimelyRun settings (.new contexts alerts) steps state) : state.Thinned settings := by
  refine hrun.invariant ?_ thinned_new
  rintro _ _ _ h ⟨htimely, rfl⟩
  exact h.step htimely

end RetentionState

/-- The snapshots of one machine's profile from one time up to another. -/
def UsageRow.within (accountId : AccountId) (profile : ProfileName) (machine : MachineName) (start stop : Int)
    (row : UsageRow) : Bool :=
  row.snapshot.accountId = accountId ∧ row.snapshot.profile = profile ∧ row.snapshot.machine = machine ∧
    start ≤ row.snapshot.polledAt ∧ row.snapshot.polledAt < stop

/-- All the snapshots of one machine's profile. -/
def UsageRow.ofMachine (accountId : AccountId) (profile : ProfileName) (machine : MachineName) (row : UsageRow) : Bool :=
  row.snapshot.accountId = accountId ∧ row.snapshot.profile = profile ∧ row.snapshot.machine = machine

section
variable {settings : PulseRetentionConfig} {state : RetentionState} {accountId : AccountId} {profile : ProfileName}
  {machine : MachineName} {now : Int} {row : UsageRow}

/-- A whole bucket from its start to its end. -/
theorem within_iff {width n : Int} (hepoch : 0 ≤ row.snapshot.polledAt) (hwidth : 0 < width) :
    row.within accountId profile machine (n * width) ((n + 1) * width) =
      decide (bucket width row = (accountId, profile, machine, n)) := by
  have hbucket := tdiv_eq_iff (n := n) hepoch hwidth
  simp only [UsageRow.within, bucket, Prod.mk.injEq, hbucket]

theorem newest_within_iff {rows : List UsageRow} {width n : Int} (hepoch : ∀ row ∈ rows, 0 ≤ row.snapshot.polledAt)
    (hwidth : 0 < width) :
    Newest polled rows (UsageRow.within accountId profile machine (n * width) ((n + 1) * width)) row ↔
      Newest polled rows (fun other => bucket width other = (accountId, profile, machine, n)) row :=
  Newest.congr fun other hother => within_iff (hepoch other hother) hwidth

/-- The newest of a machine's profile is the newest of its day. -/
theorem RetentionState.Thinned.newest (h : state.Thinned settings)
    (hnewest : Newest polled state.inserted (UsageRow.ofMachine accountId profile machine) row) :
    row ∈ state.store.usage.rows := by
  obtain ⟨hmem, hrow, hnewest⟩ := hnewest
  obtain ⟨newer, hnewer, hbucket, hle⟩ := h.days row hmem rfl
  simp only [bucket, Prod.mk.injEq] at hbucket
  have hsame : newer.ofMachine accountId profile machine = true := by
    simpa only [UsageRow.ofMachine, hbucket.1, hbucket.2.1, hbucket.2.2.1] using hrow
  have heq := le_antisymm (hnewest newer (h.stored hnewer) hsame) hle
  rwa [← h.distinct newer (h.stored hnewer) row hmem heq]

/-- A day behind the cutoff is left with its newest snapshot. -/
theorem RetentionState.Thinned.day (h : state.Thinned settings) {store : UsageStore} {result : RetentionResult}
    (happly : state.store.applyRetention now settings = .ok (store, result)) {day : Int}
    (hday : (day + 1) * dayMs ≤ cutoff now settings.dailySnapshotsAfterDays) :
    row ∈ store.usage.rows ∧ row.within accountId profile machine (day * dayMs) ((day + 1) * dayMs) = true ↔
      Newest polled state.inserted (UsageRow.within accountId profile machine (day * dayMs) ((day + 1) * dayMs)) row := by
  obtain ⟨hrows, -, -⟩ := RetentionState.applyRetention_ok happly
  have hbehind : ∀ row ∈ state.inserted, bucket dayMs row = (accountId, profile, machine, day) →
      RetentionState.dayRange settings now row = true := by
    intro row hrow hbucket
    have hpolled := (tdiv_eq_iff (h.epoch row hrow) (by decide)).mp (Prod.mk.inj (Prod.mk.inj (Prod.mk.inj hbucket).2).2).2
    exact decide_eq_true (hpolled.2.trans_le hday)
  rw [newest_within_iff h.epoch (by decide), ← h.days.newest_iff h.stored (fun _ _ _ => rfl) hbehind h.distinct, hrows]
  refine ⟨fun ⟨hmem, hwithin⟩ => ?_, fun ⟨hmem, hbucket⟩ => ?_⟩
  · have hmem := RetentionState.thin_subset hmem
    rw [within_iff (h.epoch row (h.stored (RetentionState.thin_subset hmem))) (by decide)] at hwithin
    exact ⟨hmem, of_decide_eq_true hwithin⟩
  · have hinserted := h.stored (RetentionState.thin_subset hmem)
    refine ⟨mem_thin.mpr ⟨hmem, fun hhour => ?_⟩, ?_⟩
    · have hday := of_decide_eq_true (hbehind row hinserted hbucket)
      exact absurd (of_decide_eq_true hhour).1 (not_le.mpr hday)
    · rw [within_iff (h.epoch row hinserted) (by decide)]
      exact decide_eq_true hbucket

/-- So is an hour between the cutoffs. -/
theorem RetentionState.Thinned.hour (h : state.Thinned settings) {store : UsageStore} {result : RetentionResult}
    (hnow : ∀ last, state.last = some last → last ≤ now)
    (happly : state.store.applyRetention now settings = .ok (store, result)) {hour : Int}
    (hstart : cutoff now settings.dailySnapshotsAfterDays ≤ hour * hourMs)
    (hstop : (hour + 1) * hourMs ≤ cutoff now settings.hourlySnapshotsAfterDays) :
    row ∈ store.usage.rows ∧ row.within accountId profile machine (hour * hourMs) ((hour + 1) * hourMs) = true ↔
      Newest polled state.inserted (UsageRow.within accountId profile machine (hour * hourMs) ((hour + 1) * hourMs)) row := by
  obtain ⟨hrows, -, -⟩ := RetentionState.applyRetention_ok happly
  obtain ⟨-, hhours⟩ := h.byDay hnow
  have hpolled : ∀ row ∈ state.inserted, bucket hourMs row = (accountId, profile, machine, hour) →
      row.snapshot.polledAt.tdiv hourMs = hour ∧ hour * hourMs ≤ row.snapshot.polledAt ∧
        row.snapshot.polledAt < (hour + 1) * hourMs := by
    intro row hrow hbucket
    have htdiv := (Prod.mk.inj (Prod.mk.inj (Prod.mk.inj hbucket).2).2).2
    exact ⟨htdiv, (tdiv_eq_iff (h.epoch row hrow) (by decide)).mp htdiv⟩
  have hsubset : thin (RetentionState.dayRange settings now) (bucket dayMs) polled state.store.usage.rows ⊆ state.inserted :=
    fun row hmem => h.stored (RetentionState.thin_subset hmem)
  rw [newest_within_iff h.epoch (by decide), hrows, ← hhours.newest_iff hsubset (fun row hrow hbucket => ?_)
    (fun row hrow hbucket => ?_) h.distinct]
  · refine and_congr_right fun hmem => ?_
    rw [within_iff (h.epoch row (hsubset (RetentionState.thin_subset hmem))) (by decide), decide_eq_true_eq]
  · obtain ⟨htdiv, -⟩ := hpolled row hrow hbucket
    refine decide_eq_true ?_
    rw [htdiv]
    exact hstart
  · obtain ⟨-, hle, hlt⟩ := hpolled row hrow hbucket
    exact decide_eq_true ⟨hstart.trans hle, hlt.trans_le hstop⟩

theorem thinUsage_eq_self {store : UsageStore} {range : UsageRow → Bool} {width : Int} {rows : List UsageRow}
    (h : store.usage.rows ⊆ thin range (bucket width) polled rows) : store.thinUsage range width = store := by
  have hrows := List.filter_eq_self.mp (thin_eq_self h)
  obtain ⟨usage, sequence, contexts, alerts, ids, hbounded⟩ := store
  simp only [UsageStore.thinUsage, UsageStore.mk.injEq, and_true]
  exact Table.filter_eq_self hrows

/-- Retention that has run at a time does nothing at that time. -/
theorem applyRetention_again {store store' : UsageStore} {result : RetentionResult}
    (h : store.applyRetention now settings = .ok (store', result)) :
    store'.applyRetention now settings = .ok (store', ⟨0, 0, 0, 0⟩) := by
  obtain ⟨hrows, -, -⟩ := RetentionState.applyRetention_ok h
  have hday : store'.thinUsage (RetentionState.dayRange settings now) dayMs = store' := by
    have hsubset : store'.usage.rows ⊆ thin (RetentionState.dayRange settings now) (bucket dayMs) polled store.usage.rows := by
      rw [hrows]
      exact RetentionState.thin_subset
    exact thinUsage_eq_self hsubset
  have hhour : store'.thinUsage (RetentionState.hourRange settings now) hourMs = store' :=
    thinUsage_eq_self fun row hmem => hrows ▸ hmem
  unfold UsageStore.applyRetention at h
  split at h
  · cases h
  next hvalid =>
    obtain ⟨hstore, -⟩ := Prod.mk.inj (Except.ok.inj h)
    have hcontexts : (store'.contexts.filter fun session => ¬ session.lastActiveAt < cutoff now settings.contextDays) =
        store'.contexts := by
      rw [← hstore]
      exact List.filter_eq_self.mpr fun _ hmem => (List.mem_filter.mp hmem).2
    have halerts : (store'.alerts.filter fun event => ¬ event.triggeredAt < cutoff now settings.alertDays) =
        store'.alerts := by
      rw [← hstore]
      exact List.filter_eq_self.mpr fun _ hmem => (List.mem_filter.mp hmem).2
    unfold UsageStore.applyRetention
    simp only [if_neg hvalid, hday, hhour, hcontexts, halerts, Nat.sub_self, Nat.add_zero]

end

/-- **What retention leaves of a settled day or hour does not depend on the
runs before**: it is the newest snapshot that was ever inserted. A machine's
newest snapshot is always there, and a second run at a time does nothing. -/
theorem retention_history_independent {settings : PulseRetentionConfig} {contexts : List ContextSession}
    {alerts : List AlertEvent} {steps : List RetentionStep} {state : RetentionState}
    (hrun : RetentionState.TimelyRun settings (.new contexts alerts) steps state) :
    (∀ accountId profile machine row, Newest polled state.inserted (UsageRow.ofMachine accountId profile machine) row →
      row ∈ state.store.usage.rows) ∧
    ∀ now store result, (∀ last, state.last = some last → last ≤ now) →
      state.store.applyRetention now settings = .ok (store, result) →
      (∀ accountId profile machine day, (day + 1) * dayMs ≤ cutoff now settings.dailySnapshotsAfterDays → ∀ row,
        row ∈ store.usage.rows ∧ row.within accountId profile machine (day * dayMs) ((day + 1) * dayMs) = true ↔
          Newest polled state.inserted (UsageRow.within accountId profile machine (day * dayMs) ((day + 1) * dayMs)) row) ∧
      (∀ accountId profile machine hour, cutoff now settings.dailySnapshotsAfterDays ≤ hour * hourMs →
        (hour + 1) * hourMs ≤ cutoff now settings.hourlySnapshotsAfterDays → ∀ row,
        row ∈ store.usage.rows ∧ row.within accountId profile machine (hour * hourMs) ((hour + 1) * hourMs) = true ↔
          Newest polled state.inserted (UsageRow.within accountId profile machine (hour * hourMs) ((hour + 1) * hourMs)) row) ∧
      store.applyRetention now settings = .ok (store, ⟨0, 0, 0, 0⟩) := by
  have hthinned := RetentionState.thinned_run hrun
  refine ⟨fun accountId profile machine row hnewest => hthinned.newest hnewest, fun now store result hnow happly => ⟨?_, ?_, ?_⟩⟩
  · exact fun accountId profile machine day hday row => hthinned.day happly hday
  · exact fun accountId profile machine hour hstart hstop row => hthinned.hour hnow happly hstart hstop
  · exact applyRetention_again happly

def defaultRetention : PulseRetentionConfig := ⟨1, 180, 7, 90⟩

/-- A poll of one machine's profile. -/
def samplePoll (outcome : CollectionOutcome) (windows : List QuotaWindow) (polledAt : Int) : UsageSnapshot :=
  ⟨firstAccount, workProfile, laptop, .anthropicOauth, windows, outcome, polledAt, none⟩

/-- After two polls on one day. -/
def twoPolls : RetentionState :=
  ((RetentionState.new [] []).step defaultRetention (.insert true (samplePoll (.rateLimited none) [] 1))).step
    defaultRetention (.insert true (samplePoll (.rateLimited none) [] 2))

/-- The second poll is left of the day. -/
theorem two_polls_thinned : ∃ store result, twoPolls.store.applyRetention (100 * dayMs) defaultRetention = .ok (store, result) ∧
    ∀ row, row ∈ store.usage.rows ∧ row.within ⟨1, by decide⟩ ⟨"work", by decide⟩ ⟨"laptop", by decide⟩ (0 * dayMs) ((0 + 1) * dayMs) = true ↔
      Newest polled twoPolls.inserted
        (UsageRow.within ⟨1, by decide⟩ ⟨"work", by decide⟩ ⟨"laptop", by decide⟩ (0 * dayMs) ((0 + 1) * dayMs)) row := by
  have hrun : RetentionState.TimelyRun defaultRetention (.new [] [])
      [.insert true (samplePoll (.rateLimited none) [] 1), .insert true (samplePoll (.rateLimited none) [] 2)] twoPolls :=
    .cons ⟨show (0 : Int) ≤ 1 by decide, rfl⟩ (.cons ⟨show (0 : Int) ≤ 2 by decide, rfl⟩ (.nil _))
  have hlast : twoPolls.last = none := by decide +kernel
  have hnow : ∀ last, twoPolls.last = some last → last ≤ 100 * dayMs := by
    intro last h
    rw [hlast] at h
    cases h
  refine ⟨_, _, rfl, ?_⟩
  exact ((retention_history_independent hrun).2 _ _ _ hnow rfl).1 _ _ _ 0 (by decide)

end Atmux.Pulse
