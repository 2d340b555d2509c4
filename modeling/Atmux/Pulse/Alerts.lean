/-
Alerts and their cooldowns.

A subscription's cooldown runs from its newest event that is stored, and
retention deletes events of an age. What keeps events apart over a whole run is
that none comes within the cooldown of one that was deleted
(`alerts_lawful`).
-/
import Atmux.Pulse.Retention

namespace Atmux.Pulse.Alerts

open Lib

/-! ## Subscriptions -/

/-- A point in time that the calendar has. -/
structure Instant where
  epochMillis : Int
  supported : -377705023201000 ≤ epochMillis ∧ epochMillis ≤ 253402207200999
deriving DecidableEq

/-- Zero of either sign is zero. -/
def magnitude (percent : Percent) : F64 := if percent.value = 0x8000000000000000 then 0 else percent.value

/-- Alert signal types. -/
inductive AlertType
  | fiveHourThreshold
  | sevenDayThreshold
  | authenticationFailure
  | contextThreshold
deriving DecidableEq, Repr

/-- Opt-in alert delivery. -/
inductive AlertDelivery
  | channel
  | pane (paneId : String)
deriving DecidableEq

structure AlertSubscription where
  accountId : AccountId
  profile : ProfileName
  alertType : AlertType
  threshold : Option Percent
  cooldownMinutes : UInt32
  delivery : Option AlertDelivery
  enabled : Bool
deriving DecidableEq

def AlertType.needsThreshold : AlertType → Bool
  | .fiveHourThreshold | .sevenDayThreshold | .contextThreshold => true
  | .authenticationFailure => false

def AlertDelivery.paneId? : AlertDelivery → Option String
  | .channel => none
  | .pane paneId => some paneId

def AlertSubscription.validate (subscription : AlertSubscription) : PulseResult Unit := do
  if subscription.alertType.needsThreshold ≠ subscription.threshold.isSome then
    throw (.invalidInput "threshold alerts require a threshold and non-threshold alerts forbid one")
  if subscription.cooldownMinutes = 0 then
    throw (.invalidInput "alert cooldown must be at least one minute")
  let paneId := subscription.delivery.bind AlertDelivery.paneId?
  if subscription.alertType = .authenticationFailure ∧ paneId.isSome then
    throw (.invalidInput "authentication failures cannot be delivered into an agent pane")
  if let some paneId := paneId then
    validateText "pane id" paneId 128

structure StoredAlertSubscription where
  id : Nat
  subscription : AlertSubscription
  createdAt : Instant
deriving DecidableEq

/-! ## Events -/

/-- Candidate alert event. -/
structure AlertEventInput where
  accountId : AccountId
  subscriptionId : Nat
  profile : ProfileName
  alertType : AlertType
  message : String
  currentValue : Option Percent
  threshold : Option Percent
  triggeredAt : Instant
deriving DecidableEq

/-- Persisted alert event. -/
structure AlertEvent where
  id : Nat
  input : AlertEventInput
  acknowledged : Bool
deriving DecidableEq

structure AlertStore where
  subscriptions : Table StoredAlertSubscription.id
  events : List AlertEvent
  /-- The largest ids that were ever given out. -/
  subscriptionSequence : Nat
  eventSequence : Nat
  ids : ∀ row ∈ subscriptions.rows, row.id ≤ subscriptionSequence

def sequenceFull : PulseError := ⟨.storage, "Pulse SQLite operation failed"⟩

def AlertSubscription.cooldownMs (subscription : AlertSubscription) : Int :=
  subscription.cooldownMinutes.toNat * 60 * 1000

def sameThreshold (a b : Option Percent) : Bool := a.map magnitude == b.map magnitude

/-- The values that an event of a type comes with. -/
def validateValues (event : AlertEventInput) : PulseResult Unit :=
  if event.alertType.needsThreshold then
    match event.currentValue, event.threshold with
    | some current, some threshold =>
      if magnitude current < magnitude threshold then
        .error (.invalidInput "threshold alert current value is below its stored threshold")
      else .ok ()
    | _, _ => .error (.invalidInput "threshold alerts require threshold and current value")
  else if event.threshold.isSome ∨ event.currentValue.isSome then
    .error (.invalidInput "authentication alerts cannot contain threshold values")
  else .ok ()

namespace AlertStore

variable (store : AlertStore)

def empty : AlertStore := ⟨.empty, [], 0, 0, fun _ hmem => (by cases hmem)⟩

def putSubscription (row : StoredAlertSubscription) : AlertStore where
  __ := store
  subscriptions := store.subscriptions.upsert row
  subscriptionSequence := max store.subscriptionSequence row.id
  ids other hother := by
    rcases Table.mem_upsert hother with rfl | hother
    · exact le_max_right _ _
    · exact (store.ids other hother).trans (le_max_left _ _)

/-- The text that thresholds are compared by in the natural key, and `format`
writes a percentage with nine decimals. -/
def thresholdKey (format : Percent → String) (threshold : Option Percent) : String := threshold.elim "none" format

/-- The row with a subscription's natural key. -/
def existing (format : Percent → String) (subscription : AlertSubscription) : Option StoredAlertSubscription :=
  store.subscriptions.rows.find? fun row =>
    row.subscription.accountId = subscription.accountId ∧ row.subscription.profile = subscription.profile ∧
      row.subscription.alertType = subscription.alertType ∧
      thresholdKey format row.subscription.threshold = thresholdKey format subscription.threshold

/-- `refers` is whether the account has the profile. -/
def createAlertSubscription (format : Percent → String) (refers : Bool) (subscription : AlertSubscription) (createdAt : Instant) :
    PulseResult (AlertStore × StoredAlertSubscription) := do
  subscription.validate
  match store.existing format subscription with
  | some old =>
    let row := { old with subscription := { old.subscription with
      cooldownMinutes := subscription.cooldownMinutes
      delivery := subscription.delivery
      enabled := subscription.enabled } }
    pure (store.putSubscription row, ⟨old.id, subscription, old.createdAt⟩)
  | none =>
    if 2 ^ 63 ≤ store.subscriptionSequence + 1 then throw sequenceFull
    if !refers then throw sqlError
    let row := ⟨store.subscriptionSequence + 1, subscription, createdAt⟩
    pure (store.putSubscription row, row)

/-- `triggered_at_ms` of the newest event of a subscription. -/
def newestTrigger (accountId : AccountId) (subscriptionId : Nat) : Option Int :=
  ((store.events.filter fun event => event.input.accountId = accountId ∧ event.input.subscriptionId = subscriptionId).map
    fun event => event.input.triggeredAt.epochMillis).max?

def saturatingAddI64 (a b : Int) : Int := max (-2 ^ 63) (min (2 ^ 63 - 1) (a + b))

def recordAlertIfDue (event : AlertEventInput) : PulseResult (AlertStore × Option AlertEvent) := do
  if event.message = "" ∨ 4096 < event.message.utf8ByteSize then
    throw (.invalidInput "alert message must be between 1 and 4096 bytes")
  let found := (store.subscriptions.find? event.subscriptionId).filter fun row => row.subscription.accountId = event.accountId
  match found with
  | none => throw ⟨.notFound, "alert subscription not found"⟩
  | some ⟨_, subscription, _⟩ =>
    if !subscription.enabled then return (store, none)
    if subscription.profile ≠ event.profile ∨ subscription.alertType ≠ event.alertType then
      throw ⟨.conflict, "alert event does not match its account-scoped subscription"⟩
    if !sameThreshold subscription.threshold event.threshold then
      throw ⟨.conflict, "alert event threshold does not match its account-scoped subscription"⟩
    validateValues event
    if (store.newestTrigger event.accountId event.subscriptionId).any fun last =>
        event.triggeredAt.epochMillis < saturatingAddI64 last subscription.cooldownMs then
      return (store, none)
    if 2 ^ 63 ≤ store.eventSequence + 1 then throw sequenceFull
    let recorded := ⟨store.eventSequence + 1, event, false⟩
    pure ({ store with events := store.events ++ [recorded], eventSequence := store.eventSequence + 1 }, some recorded)

/-- What retention does to the alerts. -/
def applyRetention (now : Int) (settings : PulseRetentionConfig) : PulseResult AlertStore :=
  if settings.contextDays = 0 ∨ settings.alertDays = 0 ∨ settings.hourlySnapshotsAfterDays = 0 ∨
      settings.dailySnapshotsAfterDays ≤ settings.hourlySnapshotsAfterDays then
    .error (.invalidInput "retention periods must be nonzero and daily must follow hourly")
  else .ok { store with
    events := store.events.filter fun event => ¬ event.input.triggeredAt.epochMillis < cutoff now settings.alertDays }

end AlertStore

/-! ## Runs -/

/-- An event, and its subscription as it was when the event was recorded. -/
structure Recorded where
  event : AlertEvent
  subscription : AlertSubscription

structure AlertState where
  store : AlertStore
  /-- Every event ever recorded, the newest record first. -/
  recorded : List Recorded

inductive AlertStep
  | subscribe (refers : Bool) (subscription : AlertSubscription) (createdAt : Instant)
  | record (event : AlertEventInput)
  | retain (now : Int) (settings : PulseRetentionConfig)

/-- Two triggers are at least a cooldown apart. -/
def Apart (cooldownMs : Int) (a b : Instant) : Prop :=
  a.epochMillis + cooldownMs ≤ b.epochMillis ∨ b.epochMillis + cooldownMs ≤ a.epochMillis

/-- The values of an event do not contradict its subscription. -/
def Matches (subscription : AlertSubscription) (input : AlertEventInput) : Prop :=
  sameThreshold subscription.threshold input.threshold = true ∧
    if input.alertType.needsThreshold then
      ∃ current threshold, input.currentValue = some current ∧ input.threshold = some threshold ∧
        magnitude threshold ≤ magnitude current
    else input.threshold = none ∧ input.currentValue = none

namespace AlertState

def new : AlertState := ⟨.empty, []⟩

/-- A step that fails changes nothing. -/
def step (format : Percent → String) (state : AlertState) : AlertStep → AlertState
  | .subscribe refers subscription createdAt =>
    match state.store.createAlertSubscription format refers subscription createdAt with
    | .error _ => state
    | .ok (store, _) => { state with store }
  | .record event =>
    match state.store.recordAlertIfDue event, state.store.subscriptions.find? event.subscriptionId with
    | .ok (store, some event), some row => ⟨store, ⟨event, row.subscription⟩ :: state.recorded⟩
    | _, _ => state
  | .retain now settings =>
    match state.store.applyRetention now settings with
    | .error _ => state
    | .ok store => { state with store }

/-- An update keeps the cooldown, and retention runs no earlier than the
triggers that were recorded. -/
def Timely (format : Percent → String) (state : AlertState) : AlertStep → Prop
  | .subscribe _ subscription _ => ∀ old, state.store.existing format subscription = some old →
    old.subscription.cooldownMinutes = subscription.cooldownMinutes
  | .record _ => True
  | .retain now _ => ∀ recorded ∈ state.recorded, recorded.event.input.triggeredAt.epochMillis ≤ now

/-- A trigger is not within the cooldown of an event that retention has
deleted. -/
def Clear (state : AlertState) : AlertStep → Prop
  | .record event => ∀ recorded ∈ state.recorded, recorded.event.input.subscriptionId = event.subscriptionId →
    recorded.event ∉ state.store.events →
      Apart recorded.subscription.cooldownMs recorded.event.input.triggeredAt event.triggeredAt
  | _ => True

/-- Events of one subscription are its cooldown apart, and each was recorded
for an enabled subscription and agrees with its threshold. -/
structure Lawful (state : AlertState) : Prop where
  spaced : state.recorded.Pairwise fun later earlier =>
    later.event.input.subscriptionId = earlier.event.input.subscriptionId →
      Apart later.subscription.cooldownMs earlier.event.input.triggeredAt later.event.input.triggeredAt
  enabled : ∀ recorded ∈ state.recorded, recorded.subscription.enabled = true
  agree : ∀ recorded ∈ state.recorded, Matches recorded.subscription recorded.event.input

end AlertState

/-! ## Statements -/

namespace AlertStore

variable {store store' : AlertStore} {format : Percent → String}

/-- A subscription is stored under an id of its own, or over the one of its
natural key. -/
theorem createAlertSubscription_ok {refers : Bool} {subscription : AlertSubscription} {createdAt : Instant}
    {stored : StoredAlertSubscription}
    (h : store.createAlertSubscription format refers subscription createdAt = .ok (store', stored)) :
    ∃ row, store' = store.putSubscription row ∧
      (row.id = store.subscriptionSequence + 1 ∨
        ∃ old, store.existing format subscription = some old ∧ row.id = old.id ∧
          row.subscription.cooldownMinutes = subscription.cooldownMinutes ∧
          row.subscription.accountId = old.subscription.accountId) := by
  unfold createAlertSubscription at h
  obtain ⟨_, -, h⟩ := bind_ok h
  split at h
  next old hold =>
    obtain ⟨rfl, -⟩ := Prod.mk.inj (Except.ok.inj h)
    exact ⟨_, rfl, .inr ⟨old, hold, rfl, rfl, rfl⟩⟩
  next =>
    obtain ⟨-, h⟩ := guard_ok h
    obtain ⟨-, h⟩ := guard_ok h
    obtain ⟨rfl, -⟩ := Prod.mk.inj (Except.ok.inj h)
    exact ⟨_, rfl, .inl rfl⟩

/-- A subscription stays, with its account and its cooldown. -/
theorem find?_createAlertSubscription {refers : Bool} {subscription : AlertSubscription} {createdAt : Instant}
    {stored row : StoredAlertSubscription} {id : Nat}
    (h : store.createAlertSubscription format refers subscription createdAt = .ok (store', stored))
    (hkeeps : ∀ old, store.existing format subscription = some old →
      old.subscription.cooldownMinutes = subscription.cooldownMinutes)
    (hrow : store.subscriptions.find? id = some row) :
    ∃ row', store'.subscriptions.find? id = some row' ∧
      row'.subscription.cooldownMinutes = row.subscription.cooldownMinutes ∧
      row'.subscription.accountId = row.subscription.accountId := by
  obtain ⟨put, rfl, hput⟩ := createAlertSubscription_ok h
  have hid : row.id = id := Table.key_of_find? hrow
  have hmem : row ∈ store.subscriptions.rows := Table.mem_rows.mpr (hid ▸ hrow)
  change ∃ row', (store.subscriptions.upsert put).find? id = some row' ∧ _
  by_cases heq : id = put.id
  · rcases hput with hnew | ⟨old, hold, holdid, hcooldown, haccount⟩
    · have hle := store.ids row hmem
      omega
    · have holdrow : old ∈ store.subscriptions.rows := List.mem_of_find?_eq_some hold
      obtain rfl : old = row := Table.eq_of_key holdrow hmem (by rw [hid, heq, holdid])
      rw [Table.find?_upsert, if_pos heq]
      exact ⟨put, rfl, hcooldown.trans (hkeeps old hold).symm, haccount⟩
  · rw [Table.find?_upsert_of_ne heq]
    exact ⟨row, hrow, rfl, rfl⟩

theorem validateValues_ok {event : AlertEventInput} (h : validateValues event = .ok ()) :
    if event.alertType.needsThreshold then
      ∃ current threshold, event.currentValue = some current ∧ event.threshold = some threshold ∧
        magnitude threshold ≤ magnitude current
    else event.threshold = none ∧ event.currentValue = none := by
  unfold validateValues at h
  split at h
  next hneeds =>
    rw [if_pos hneeds]
    split at h
    next current threshold hcurrent hthreshold =>
      split at h
      · cases h
      next hge => exact ⟨current, threshold, hcurrent, hthreshold, UInt64.not_lt.mp hge⟩
    · cases h
  next hneeds =>
    rw [if_neg hneeds]
    split at h
    · cases h
    next hnone => simpa using hnone

/-- An event that is recorded is of an enabled subscription that it agrees
with, and not within the cooldown of the newest that is stored. -/
theorem recordAlertIfDue_ok {event : AlertEventInput} {recorded : AlertEvent}
    (h : store.recordAlertIfDue event = .ok (store', some recorded)) :
    recorded.input = event ∧ store'.events = store.events ++ [recorded] ∧ store'.subscriptions = store.subscriptions ∧
      ∃ row, store.subscriptions.find? event.subscriptionId = some row ∧
        row.subscription.accountId = event.accountId ∧ row.subscription.enabled = true ∧
        Matches row.subscription event ∧
        ∀ last, store.newestTrigger event.accountId event.subscriptionId = some last →
          saturatingAddI64 last row.subscription.cooldownMs ≤ event.triggeredAt.epochMillis := by
  unfold recordAlertIfDue at h
  obtain ⟨-, h⟩ := guard_ok h
  dsimp only at h
  split at h
  · cases h
  next id subscription createdAt hfind =>
    obtain ⟨hrow, haccount⟩ := Option.filter_eq_some_iff.mp hfind
    split at h
    · cases h
    next henabled =>
      obtain ⟨hsame, h⟩ := guard_ok h
      obtain ⟨hthreshold, h⟩ := guard_ok h
      obtain ⟨⟨⟩, hvalues, h⟩ := bind_ok h
      split at h
      · cases h
      next hdue =>
        obtain ⟨-, h⟩ := guard_ok h
        obtain ⟨rfl, hrecorded⟩ := Prod.mk.inj (Except.ok.inj h)
        obtain rfl := Option.some.inj hrecorded
        refine ⟨rfl, rfl, rfl, _, hrow, by simpa using haccount, by simpa using henabled, ⟨by simpa using hthreshold,
          validateValues_ok hvalues⟩, fun last hlast => ?_⟩
        rw [hlast] at hdue
        simpa using hdue

/-- A due trigger is past the cooldown of every event that is stored. -/
theorem due_of_newestTrigger {accountId : AccountId} {subscriptionId : Nat} {cooldownMs : Int} {trigger : Instant}
    (hcooldown : cooldownMs ≤ 2 ^ 32 * 60000)
    (hdue : ∀ last, store.newestTrigger accountId subscriptionId = some last →
      saturatingAddI64 last cooldownMs ≤ trigger.epochMillis) :
    ∀ event ∈ store.events, event.input.accountId = accountId → event.input.subscriptionId = subscriptionId →
      event.input.triggeredAt.epochMillis + cooldownMs ≤ trigger.epochMillis := by
  intro event hevent haccount hsubscription
  have hmem : event.input.triggeredAt.epochMillis ∈ (store.events.filter fun event =>
      event.input.accountId = accountId ∧ event.input.subscriptionId = subscriptionId).map
      fun event => event.input.triggeredAt.epochMillis :=
    List.mem_map.mpr ⟨event, List.mem_filter.mpr ⟨hevent, by simp [haccount, hsubscription]⟩, rfl⟩
  cases hnewest : store.newestTrigger accountId subscriptionId with
  | none =>
    rw [newestTrigger, List.max?_eq_none_iff] at hnewest
    rw [hnewest] at hmem
    cases hmem
  | some last =>
    have hdue := hdue last hnewest
    rw [newestTrigger, List.max?_eq_some_iff] at hnewest
    have hle := hnewest.2 _ hmem
    obtain ⟨newest, -, rfl⟩ := List.mem_map.mp hnewest.1
    -- the calendar ends before the addition saturates
    have hlast := newest.input.triggeredAt.supported
    have htrigger := trigger.supported
    unfold saturatingAddI64 at hdue
    omega

theorem cooldownMs_le (subscription : AlertSubscription) : subscription.cooldownMs ≤ 2 ^ 32 * 60000 := by
  have hlt := subscription.cooldownMinutes.toNat_lt
  unfold AlertSubscription.cooldownMs
  omega

end AlertStore

/-! ## Lawful runs -/

namespace AlertState

variable {format : Percent → String} {state state' : AlertState} {label : AlertStep} {labels : List AlertStep}

/-- What is stored was recorded, and the subscriptions of the events are there
with their cooldowns. -/
structure Sound (state : AlertState) : Prop extends state.Lawful where
  stored : ∀ event ∈ state.store.events, ∃ recorded ∈ state.recorded, recorded.event = event
  known : ∀ recorded ∈ state.recorded, ∃ row,
    state.store.subscriptions.find? recorded.event.input.subscriptionId = some row ∧
      row.subscription.cooldownMinutes = recorded.subscription.cooldownMinutes ∧
      row.subscription.accountId = recorded.event.input.accountId

theorem sound_new : new.Sound where
  spaced := .nil
  enabled _ hmem := (by cases hmem)
  agree _ hmem := (by cases hmem)
  stored _ hmem := (by cases hmem)
  known _ hmem := (by cases hmem)

theorem Sound.subscribe {refers : Bool} {subscription : AlertSubscription} {createdAt : Instant} (h : state.Sound)
    (htimely : state.Timely format (.subscribe refers subscription createdAt)) :
    (state.step format (.subscribe refers subscription createdAt)).Sound := by
  simp only [step]
  split
  · exact h
  next store stored hok =>
    obtain ⟨row, hput, -⟩ := AlertStore.createAlertSubscription_ok hok
    refine { h with stored := fun event hevent => h.stored event ?_, known := fun recorded hrecorded => ?_ }
    · rw [hput] at hevent
      exact hevent
    · obtain ⟨row, hrow, hcooldown, haccount⟩ := h.known recorded hrecorded
      obtain ⟨row', hrow', hcooldown', haccount'⟩ := AlertStore.find?_createAlertSubscription hok htimely hrow
      exact ⟨row', hrow', hcooldown'.trans hcooldown, haccount'.trans haccount⟩

theorem Sound.retain {now : Int} {settings : PulseRetentionConfig} (h : state.Sound) :
    (state.step format (.retain now settings)).Sound := by
  simp only [step]
  split
  · exact h
  next store hok =>
    unfold AlertStore.applyRetention at hok
    split at hok
    · cases hok
    · obtain rfl := Except.ok.inj hok
      exact { h with stored := fun event hevent => h.stored event (List.mem_of_mem_filter hevent) }

theorem Sound.record {event : AlertEventInput} (h : state.Sound) (hclear : state.Clear (.record event)) :
    (state.step format (.record event)).Sound := by
  simp only [step]
  split
  next store recorded row hok hrow =>
    obtain ⟨rfl, hevents, hsubscriptions, row', hrow', haccount, henabled, hmatches, hdue⟩ :=
      AlertStore.recordAlertIfDue_ok hok
    obtain rfl := Option.some.inj (hrow.symm.trans hrow')
    have hstored := AlertStore.due_of_newestTrigger (AlertStore.cooldownMs_le _) hdue
    have hknown {earlier : Recorded} (hearlier : earlier ∈ state.recorded)
        (hsame : recorded.input.subscriptionId = earlier.event.input.subscriptionId) :
        row.subscription.cooldownMs = earlier.subscription.cooldownMs ∧
          earlier.event.input.accountId = recorded.input.accountId := by
      obtain ⟨old, hold, hcooldown, holdaccount⟩ := h.known earlier hearlier
      rw [← hsame, hrow] at hold
      obtain rfl := Option.some.inj hold
      exact ⟨by rw [AlertSubscription.cooldownMs, AlertSubscription.cooldownMs, hcooldown], holdaccount.symm.trans haccount⟩
    refine ⟨⟨List.pairwise_cons.mpr ⟨fun earlier hearlier hsame => ?_, h.spaced⟩, ?_, ?_⟩, ?_, ?_⟩
    · obtain ⟨hcooldown, hearlieraccount⟩ := hknown hearlier hsame
      by_cases hthere : earlier.event ∈ state.store.events
      · exact .inl (hstored earlier.event hthere hearlieraccount hsame.symm)
      · rw [hcooldown]
        exact hclear earlier hearlier hsame.symm hthere
    · exact List.forall_mem_cons.mpr ⟨henabled, h.enabled⟩
    · exact List.forall_mem_cons.mpr ⟨hmatches, h.agree⟩
    · intro event hevent
      rw [hevents, List.mem_append, List.mem_singleton] at hevent
      rcases hevent with hevent | rfl
      · obtain ⟨earlier, hearlier, heq⟩ := h.stored event hevent
        exact ⟨earlier, List.mem_cons_of_mem _ hearlier, heq⟩
      · exact ⟨_, List.mem_cons_self, rfl⟩
    · rw [hsubscriptions]
      exact List.forall_mem_cons.mpr ⟨⟨row, hrow, rfl, haccount⟩, h.known⟩
  · exact h

theorem Sound.step (h : state.Sound) (htimely : state.Timely format label) (hclear : state.Clear label) :
    (state.step format label).Sound := by
  cases label with
  | subscribe refers subscription createdAt => exact h.subscribe htimely
  | record event => exact h.record hclear
  | retain now settings => exact h.retain

/-- **Alerts of one subscription are its cooldown apart over the whole history**,
unless one is triggered within the cooldown of one that retention has deleted. -/
theorem alerts_lawful (h : Run (fun state label state' => state.Timely format label ∧ state.Clear label ∧
    state' = state.step format label) new labels state) : state.Lawful := by
  have hsound : state.Sound := by
    refine h.invariant (I := Sound) (fun {before label after} hbefore hstep => ?_) sound_new
    obtain ⟨htimely, hclear, rfl⟩ := hstep
    exact hbefore.step htimely hclear
  exact hsound.toLawful

/-! A subscription with a cooldown of seven days, while alerts are kept for one. -/

private def failures : AlertSubscription := ⟨firstAccount, workProfile, .authenticationFailure, none, 10080, none, true⟩

private def epoch : Instant := ⟨0, by decide⟩

private def twoDays : Instant := ⟨172800000, by decide⟩

private def failure (triggeredAt : Instant) : AlertEventInput :=
  ⟨firstAccount, 1, workProfile, .authenticationFailure, "authentication failed", none, none, triggeredAt⟩

private def oneDay : PulseRetentionConfig := ⟨1, 1, 1, 2⟩

private def after (labels : List AlertStep) : AlertState := labels.foldl (step fun _ => "") new

private def failed : List AlertStep := [.subscribe true failures epoch, .record (failure epoch)]

private theorem subscribed_new : new.Timely (fun _ => "") (.subscribe true failures epoch) := by
  intro old hold
  cases hold

/-- An event is recorded for a subscription. -/
theorem failure_recorded : (after failed).recorded.length = 1 ∧ (after failed).Lawful := by
  have hnone : (after [.subscribe true failures epoch]).recorded = [] := by decide +kernel
  have hclear : (after [.subscribe true failures epoch]).Clear (.record (failure epoch)) := by
    intro recorded hrecorded
    rw [hnone] at hrecorded
    cases hrecorded
  have hrun : Run (fun state label state' => Timely (fun _ => "") state label ∧ state.Clear label ∧
      state' = state.step (fun _ => "") label) new failed (after failed) :=
    .cons ⟨subscribed_new, trivial, rfl⟩ (.cons ⟨trivial, hclear, rfl⟩ (.nil _))
  exact ⟨by decide +kernel, alerts_lawful hrun⟩

/-- Two events are two days apart, and the first was deleted in between. -/
theorem cooldown_forgotten : ¬ ∀ format labels state,
    Run (fun state label state' => Timely format state label ∧ state' = state.step format label) new labels state →
      state.Lawful := by
  intro hall
  have hretain : (after failed).Timely (fun _ => "") (.retain 172800000 oneDay) := by
    have htriggers : ∀ recorded ∈ (after failed).recorded, recorded.event.input.triggeredAt = epoch := by decide +kernel
    intro recorded hrecorded
    rw [htriggers recorded hrecorded]
    decide
  have hlawful := hall _ (failed ++ [.retain 172800000 oneDay, .record (failure twoDays)]) _
    (.cons ⟨subscribed_new, rfl⟩ (.cons ⟨trivial, rfl⟩ (.cons ⟨hretain, rfl⟩ (.cons ⟨trivial, rfl⟩ (.nil _)))))
  have hpair : ¬ (((after (failed ++ [.retain 172800000 oneDay, .record (failure twoDays)])).recorded.map fun recorded =>
      (recorded.event.input.triggeredAt.epochMillis, recorded.subscription.cooldownMs)).Pairwise fun later earlier =>
        earlier.1 + later.2 ≤ later.1 ∨ later.1 + later.2 ≤ earlier.1) := by decide +kernel
  have hone : ∀ recorded ∈ (after (failed ++ [.retain 172800000 oneDay, .record (failure twoDays)])).recorded,
      recorded.event.input.subscriptionId = 1 := by decide +kernel
  refine hpair (List.pairwise_map.mpr (hlawful.spaced.imp_of_mem fun hlater hearlier happart => ?_))
  exact happart ((hone _ hlater).trans (hone _ hearlier).symm)

end AlertState

end Atmux.Pulse.Alerts
