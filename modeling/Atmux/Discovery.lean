/-
Machines that announce themselves on the network.

The table of services refuses new names when it is full, so announcements do
not push a service out that is still announced. The machines that are kept of
it are the most recently seen ones, and there newer announcements do: a
machine stays active exactly while fewer than `maxDiscoveredMachines` others
rank before it (`active_iff_ahead`).
-/
import Mathlib.Data.List.Nodup
import Mathlib.Data.Prod.Lex
import Mathlib.Data.String.Basic
import Atmux.Lib.Runs
import Atmux.Lib.Table
import Atmux.Lib.Text
import Atmux.Machine

namespace Atmux.LanDiscovery

open Lib

/-! ## Announcements -/

structure DiscoveredNode where
  fullname : String
  id : String
  label : String
  address : UInt32
  port : UInt16
deriving DecidableEq

/-- What a service record says. -/
structure ResolvedService where
  fullname : String
  id : Option String
  label : Option String
  addressesV4 : List UInt32
  port : UInt16

def maxMachineLabelLen : Nat := 64

def validMachineLabel (label : String) : Bool :=
  Text.trim label.toList ≠ [] && label.utf8ByteSize ≤ maxMachineLabelLen && !label.toList.any Text.isControl

/-- Ranks usable local addresses: private, carrier-grade, link-local. -/
def lanAddressRank (address : UInt32) : Option Nat :=
  let a := address >>> 24
  let b := (address >>> 16) &&& 255
  if a = 10 ∨ (a = 172 ∧ 16 ≤ b ∧ b ≤ 31) ∨ (a = 192 ∧ b = 168) then some 0
  else if a = 100 ∧ 64 ≤ b ∧ b ≤ 127 then some 1
  else if a = 169 ∧ b = 254 then some 2
  else none

def trimmed (text : String) : String := String.ofList (Text.trim text.toList)

def nodeFromResolved (service : ResolvedService) : Option DiscoveredNode := do
  let machineId := trimmed (← service.id)
  if ¬ ValidMachineId machineId then none
  let label := ((service.label.map trimmed).filter fun label => label ≠ "").getD machineId
  if !validMachineLabel label then none
  let ranked := service.addressesV4.filterMap fun address => (lanAddressRank address).map fun rank => (rank, address)
  let (_, address) ← (orderBy (fun ranked => toLex (ranked.1, ranked.2.toNat)) ranked).head?
  pure ⟨service.fullname, machineId, label, address, service.port⟩

/-! ## Services -/

/-- A service and when it was last seen, in nanoseconds. -/
structure SeenService where
  node : DiscoveredNode
  seen : Nat
deriving DecidableEq

def SeenService.fullname (service : SeenService) : String := service.node.fullname

def SeenService.id (service : SeenService) : String := service.node.id

abbrev Services := Table SeenService.fullname

def maxDiscoveredServices : Nat := 64
def maxDiscoveredMachines : Nat := 16
def discoveredServiceMaxAge : Nat := 10 * 60 * 1000000000

def expireServices (services : Services) (now : Nat) : Services :=
  services.filter fun service => now - service.seen ≤ discoveredServiceMaxAge

def rememberService (services : Services) (node : DiscoveredNode) (now : Nat) : Services :=
  if (services.find? node.fullname).isSome then services.upsert ⟨node, now⟩
  else
    let services := expireServices services now
    if maxDiscoveredServices ≤ services.rows.length then services else services.upsert ⟨node, now⟩

/-! ## Machines -/

/-- One service of an id is kept, the one whose name is first. -/
def mergeService (wanted : Table SeenService.id) (service : SeenService) : Table SeenService.id :=
  match wanted.find? service.id with
  | some current => if service.fullname < current.fullname then wanted.upsert service else wanted
  | none => wanted.upsert service

def byId (services : Services) : Table SeenService.id := services.rows.foldl mergeService .empty

/-- The most recently seen first, then by id. -/
def recency (service : SeenService) : ℕᵒᵈ ×ₗ String := toLex (OrderDual.toDual service.seen, service.id)

/-- The machines that `reconcile` keeps. -/
def wantedServices (services : Services) : Table SeenService.id :=
  let wanted := byId services
  if maxDiscoveredMachines < wanted.rows.length then
    let dropped := (orderBy recency wanted.rows).drop maxDiscoveredMachines
    wanted.filter fun service => !(dropped.map SeenService.id).contains service.id
  else wanted

/-- What the coordinator does with machines: the ones it is configured with or
is itself are left alone, and `connects` is whether a node gives a client. -/
structure Peers where
  connects : DiscoveredNode → Bool
  configured : String → Bool

/-- What the browser task holds, and what it has done. -/
structure Browser where
  services : Services
  active : List String
  /-- The discovered machines that the coordinator holds. -/
  machines : SortedMap String DiscoveredNode
  /-- The services that `reconcile` last went over. -/
  reconciled : Services
  /-- When each service was last announced. -/
  announced : String → Option Nat
  /-- The time of the last event. -/
  clock : Nat

namespace Browser

def new : Browser := ⟨.empty, [], .empty, .empty, fun _ => none, 0⟩

def reconcile (peers : Peers) (browser : Browser) : Browser :=
  let wanted := wantedServices browser.services
  let wantedIds := wanted.rows.map SeenService.id
  let gone := browser.active.filter fun id => !wantedIds.contains id && !peers.configured id
  let kept := gone.foldl SortedMap.remove browser.machines
  let connected := wanted.rows.filter fun service => peers.connects service.node && !peers.configured service.id
  { browser with
    active := wantedIds
    machines := connected.foldl (fun machines service => machines.insert service.id service.node) kept
    reconciled := browser.services }

inductive Event
  | serviceResolved (service : ResolvedService)
  | serviceRemoved (fullname : String)
  | tick

def handle (peers : Peers) (now : Nat) (browser : Browser) : Event → Browser
  | .serviceResolved service =>
    match nodeFromResolved service with
    | some node =>
      reconcile peers { browser with
        services := rememberService browser.services node now
        announced := Function.update browser.announced node.fullname (some now) }
    | none => browser
  | .serviceRemoved fullname =>
    if (browser.services.find? fullname).isSome then
      reconcile peers { browser with services := browser.services.filter fun service => service.fullname ≠ fullname }
    else browser
  | .tick => reconcile peers { browser with services := expireServices browser.services now }

def step (peers : Peers) (browser : Browser) (label : Nat × Event) : Browser :=
  { handle peers label.1 browser label.2 with clock := label.1 }

end Browser

/-! ## What is kept of the services -/

section
variable {services : Services} {service mine : SeenService} {now : Nat} {node : DiscoveredNode}

/-- A merge files the service or keeps the one that is there. -/
theorem mergeService_cases (wanted : Table SeenService.id) (service : SeenService) :
    mergeService wanted service = wanted.upsert service ∨
      mergeService wanted service = wanted ∧ (wanted.find? service.id).isSome := by
  unfold mergeService
  split
  next current hfind =>
    split
    · exact .inl rfl
    · exact .inr ⟨rfl, by rw [hfind]; rfl⟩
  · exact .inl rfl

theorem mem_foldl_mergeService {rows : List SeenService} {wanted : Table SeenService.id}
    (h : service ∈ (rows.foldl mergeService wanted).rows) : service ∈ wanted.rows ∨ service ∈ rows := by
  induction rows generalizing wanted with
  | nil => exact .inl h
  | cons row rows ih =>
    rcases ih h with hmem | hmem
    · rcases mergeService_cases wanted row with heq | ⟨heq, -⟩ <;> rw [heq] at hmem
      · rcases Table.mem_upsert hmem with rfl | hmem
        · exact .inr List.mem_cons_self
        · exact .inl hmem
      · exact .inl hmem
    · exact .inr (List.mem_cons_of_mem _ hmem)

theorem isSome_foldl_mergeService {rows : List SeenService} (wanted : Table SeenService.id) {machineId : String}
    (h : (wanted.find? machineId).isSome ∨ ∃ row ∈ rows, row.id = machineId) :
    ((rows.foldl mergeService wanted).find? machineId).isSome := by
  induction rows generalizing wanted with
  | nil => simpa using h
  | cons row rows ih =>
    refine ih _ ?_
    have hmerge : (wanted.find? machineId).isSome ∨ row.id = machineId →
        ((mergeService wanted row).find? machineId).isSome := by
      rintro (hsome | rfl) <;> rcases mergeService_cases wanted row with heq | ⟨heq, hthere⟩ <;> rw [heq]
      · exact Table.isSome_upsert hsome
      · exact hsome
      · rw [Table.find?_upsert_self]
        rfl
      · exact hthere
    rcases h with hsome | ⟨other, hother, hid⟩
    · exact .inl (hmerge (.inl hsome))
    · rcases List.mem_cons.mp hother with rfl | hother
      · exact .inl (hmerge (.inr hid))
      · exact .inr ⟨other, hother, hid⟩

theorem mem_of_mem_byId (h : service ∈ (byId services).rows) : service ∈ services.rows :=
  (mem_foldl_mergeService h).resolve_left fun hmem => (by cases hmem)

/-- The only service of an id is kept of it. -/
theorem mem_byId (hmem : mine ∈ services.rows) (honly : ∀ row ∈ services.rows, row.id = mine.id → row = mine) :
    mine ∈ (byId services).rows := by
  obtain ⟨row, hrow⟩ := Option.isSome_iff_exists.mp
    (isSome_foldl_mergeService .empty (.inr ⟨mine, hmem, rfl⟩))
  obtain rfl := honly row (mem_of_mem_byId (Table.mem_rows.mpr (Table.key_of_find? hrow ▸ hrow))) (Table.key_of_find? hrow)
  exact Table.mem_rows.mpr hrow

/-- Ids are told apart, and so are the services of the ids. -/
theorem nodup_id (wanted : Table SeenService.id) : (wanted.rows.map SeenService.id).Nodup :=
  List.pairwise_map.mpr (wanted.rows_pairwise.imp fun hlt => hlt.ne)

theorem nodup_recency (wanted : Table SeenService.id) : (wanted.rows.map recency).Nodup := by
  refine List.pairwise_map.mpr ((List.pairwise_map.mp (nodup_id wanted)).imp fun hne heq => hne ?_)
  exact congrArg (fun rank => (ofLex rank).2) heq

/-- The services of other ids that rank before one. -/
def ahead (services : Services) (mine : SeenService) : List SeenService :=
  (byId services).rows.filter fun other => recency other < recency mine

theorem mem_wantedServices (hmem : mine ∈ (byId services).rows) :
    mine ∈ (wantedServices services).rows ↔ (ahead services mine).length < maxDiscoveredMachines := by
  unfold wantedServices ahead
  dsimp only
  have hnodup : ((orderBy recency (byId services).rows).map SeenService.id).Nodup :=
    (((List.perm_insertionSort _ _).map SeenService.id).nodup_iff).mpr (nodup_id _)
  have hsplit := List.take_append_drop maxDiscoveredMachines (orderBy recency (byId services).rows)
  split
  · rw [Table.rows_filter, List.mem_filter, ← (mem_take_orderBy (nodup_recency _)).trans (and_iff_right hmem)]
    rw [← hsplit, List.map_append, List.nodup_append] at hnodup
    constructor
    · rintro ⟨-, hkept⟩
      have hall : mine ∈ orderBy recency (byId services).rows := mem_orderBy.mpr hmem
      rw [← hsplit, List.mem_append] at hall
      refine hall.resolve_right fun hdropped => ?_
      rw [Bool.not_eq_true', List.contains_eq_mem, decide_eq_false_iff_not] at hkept
      exact hkept (List.mem_map_of_mem hdropped)
    · intro htake
      refine ⟨hmem, ?_⟩
      have hnot : mine.id ∉ ((orderBy recency (byId services).rows).drop maxDiscoveredMachines).map SeenService.id :=
        fun hdropped => hnodup.2.2 _ (List.mem_map_of_mem htake) _ hdropped rfl
      simpa using hnot
  next hfew =>
    refine iff_of_true hmem (lt_of_lt_of_le ?_ (not_lt.mp hfew))
    refine List.length_filter_lt_length_iff_exists.mpr ⟨mine, hmem, by simp⟩

theorem mem_of_mem_wantedServices (h : service ∈ (wantedServices services).rows) : service ∈ (byId services).rows := by
  unfold wantedServices at h
  dsimp only at h
  split at h
  · rw [Table.rows_filter] at h
    exact List.mem_of_mem_filter h
  · exact h

theorem length_wantedServices_le : (wantedServices services).rows.length ≤ maxDiscoveredMachines := by
  have hnodup : List.Nodup (wantedServices services).rows := (nodup_id _).of_map
  have hsubset : (wantedServices services).rows ⊆
      (orderBy recency (byId services).rows).take maxDiscoveredMachines := by
    intro row hrow
    have hmem := mem_of_mem_wantedServices hrow
    exact (mem_take_orderBy (nodup_recency _)).mpr ⟨hmem, (mem_wantedServices hmem).mp hrow⟩
  exact (List.subperm_of_subset hnodup hsubset).length_le.trans (List.length_take_le _ _)

theorem length_rememberService_le (h : services.rows.length ≤ maxDiscoveredServices) :
    (rememberService services node now).rows.length ≤ maxDiscoveredServices := by
  unfold rememberService
  split
  next hthere =>
    have hlength : (services.upsert ⟨node, now⟩).rows.length = services.rows.length := Table.length_rows_upsert hthere
    exact hlength.le.trans h
  next =>
    dsimp only
    split
    · rw [expireServices, Table.rows_filter]
      exact (List.length_filter_le _ _).trans h
    next hroom => exact Table.length_rows_upsert_le.trans (not_le.mp hroom)

theorem mem_rememberService (h : service ∈ (rememberService services node now).rows) :
    service = ⟨node, now⟩ ∨ service ∈ services.rows := by
  have hexpire (h : service ∈ (expireServices services now).rows) : service ∈ services.rows := by
    rw [expireServices, Table.rows_filter] at h
    exact List.mem_of_mem_filter h
  unfold rememberService at h
  split at h
  · exact Table.mem_upsert h
  · dsimp only at h
    split at h
    · exact .inr (hexpire h)
    · exact (Table.mem_upsert h).imp_right hexpire

/-- A service under the announced name is the one that was announced. -/
theorem eq_of_mem_rememberService (h : service ∈ (rememberService services node now).rows)
    (hname : service.fullname = node.fullname) : service = ⟨node, now⟩ := by
  have hupsert {services : Services} (h : service ∈ (services.upsert ⟨node, now⟩).rows) : service = ⟨node, now⟩ := by
    have hfind := Table.mem_rows.mp h
    have hself : (services.upsert ⟨node, now⟩).find? node.fullname = some ⟨node, now⟩ := Table.find?_upsert_self
    rw [hname, hself] at hfind
    exact (Option.some.inj hfind).symm
  unfold rememberService at h
  split at h
  · exact hupsert h
  next hnone =>
    dsimp only at h
    split at h
    · rw [expireServices, Table.rows_filter] at h
      have hfind := Table.mem_rows.mp (List.mem_of_mem_filter h)
      rw [hname] at hfind
      rw [hfind] at hnone
      exact absurd rfl hnone
    · exact hupsert h

theorem mem_expireServices (h : service ∈ services.rows) (hfresh : now ≤ service.seen + discoveredServiceMaxAge) :
    service ∈ (expireServices services now).rows := by
  rw [expireServices, Table.rows_filter, List.mem_filter]
  refine ⟨h, decide_eq_true ?_⟩
  omega

/-- A service that is still announced stays. -/
theorem isSome_rememberService (h : service ∈ services.rows) (hfresh : now ≤ service.seen + discoveredServiceMaxAge) :
    ((rememberService services node now).find? service.fullname).isSome := by
  have hthere : (services.find? service.fullname).isSome := by
    rw [Table.mem_rows.mp h]
    rfl
  have hfreshly : ((expireServices services now).find? service.fullname).isSome := by
    rw [Table.mem_rows.mp (mem_expireServices h hfresh)]
    rfl
  unfold rememberService
  split
  · exact Table.isSome_upsert hthere
  · dsimp only
    split
    · exact hfreshly
    · exact Table.isSome_upsert hfreshly

end

/-! ## Runs of the browser -/

namespace Browser

variable {peers : Peers} {browser browser' : Browser} {label : Nat × Event} {labels : List (Nat × Event)}
  {fullname machineId : String}

/-- Tables within their bounds, and the active machines as they were last kept. -/
structure Bounded (browser : Browser) : Prop where
  services : browser.services.rows.length ≤ maxDiscoveredServices
  machines : browser.active.length ≤ maxDiscoveredMachines
  active : browser.active = (wantedServices browser.reconciled).rows.map SeenService.id
  held : ∀ id ∈ Entries.keys browser.machines.entries, id ∈ browser.active

/-- The coordinator holds active machines that it is not configured with, and
the services were gone over as they are. -/
structure Tidy (peers : Peers) (browser : Browser) : Prop extends Bounded browser where
  reconciled : browser.reconciled = browser.services
  unconfigured : ∀ id ∈ Entries.keys browser.machines.entries, peers.configured id = false
  seen : ∀ service ∈ browser.services.rows, browser.announced service.fullname = some service.seen

theorem tidy_new : new.Tidy peers where
  services := Nat.zero_le _
  machines := Nat.zero_le _
  active := rfl
  held _ hmem := (by cases hmem)
  reconciled := rfl
  unconfigured _ hmem := (by cases hmem)
  seen _ hmem := (by cases hmem)

theorem keys_foldl_insert {rows : List SeenService} {machines : SortedMap String DiscoveredNode} {id : String}
    (h : id ∈ Entries.keys (rows.foldl (fun machines service => machines.insert service.id service.node) machines).entries) :
    id ∈ Entries.keys machines.entries ∨ ∃ service ∈ rows, service.id = id := by
  induction rows generalizing machines with
  | nil => exact .inl h
  | cons row rows ih =>
    rcases ih h with hmem | ⟨service, hservice, hid⟩
    · obtain ⟨node, hnode⟩ := Entries.mem_keys.mp hmem
      rcases Entries.mem_insert hnode with heq | hnode
      · exact .inr ⟨row, List.mem_cons_self, (congrArg Prod.fst heq).symm⟩
      · exact .inl (Entries.mem_keys.mpr ⟨node, hnode⟩)
    · exact .inr ⟨service, List.mem_cons_of_mem _ hservice, hid⟩

theorem keys_foldl_remove {ids : List String} {machines : SortedMap String DiscoveredNode} {id : String}
    (h : id ∈ Entries.keys (ids.foldl SortedMap.remove machines).entries) :
    id ∈ Entries.keys machines.entries ∧ id ∉ ids := by
  induction ids generalizing machines with
  | nil => exact ⟨h, List.not_mem_nil⟩
  | cons gone ids ih =>
    obtain ⟨hmem, hids⟩ := ih h
    obtain ⟨node, hnode⟩ := Entries.mem_keys.mp hmem
    obtain ⟨hnode, hne⟩ := List.mem_filter.mp hnode
    refine ⟨Entries.mem_keys.mpr ⟨node, hnode⟩, ?_⟩
    simpa using ⟨by simpa using hne, hids⟩

/-- Going over the services again tidies the machines. -/
theorem tidy_reconcile (hlength : browser.services.rows.length ≤ maxDiscoveredServices)
    (hheld : ∀ id ∈ Entries.keys browser.machines.entries, id ∈ browser.active ∧ peers.configured id = false)
    (hseen : ∀ service ∈ browser.services.rows, browser.announced service.fullname = some service.seen) :
    (reconcile peers browser).Tidy peers := by
  have hmachines : ∀ id ∈ Entries.keys (reconcile peers browser).machines.entries,
      id ∈ (reconcile peers browser).active ∧ peers.configured id = false := by
    intro id hid
    rcases keys_foldl_insert hid with hmem | ⟨service, hservice, rfl⟩
    · obtain ⟨hmem, hgone⟩ := keys_foldl_remove hmem
      obtain ⟨hactive, hconfigured⟩ := hheld id hmem
      refine ⟨?_, hconfigured⟩
      simp only [List.mem_filter, hactive, hconfigured, true_and] at hgone
      simpa [reconcile] using hgone
    · obtain ⟨hservice, hconnects⟩ := List.mem_filter.mp hservice
      rw [Bool.and_eq_true, Bool.not_eq_true'] at hconnects
      exact ⟨List.mem_map_of_mem hservice, hconnects.2⟩
  exact {
    services := hlength
    machines := (List.length_map _).le.trans length_wantedServices_le
    active := rfl
    held := fun id hid => (hmachines id hid).1
    reconciled := rfl
    unconfigured := fun id hid => (hmachines id hid).2
    seen := hseen }

theorem Tidy.step (h : browser.Tidy peers) : (browser.step peers label).Tidy peers := by
  have hheld : ∀ id ∈ Entries.keys browser.machines.entries, id ∈ browser.active ∧ peers.configured id = false :=
    fun id hid => ⟨h.held id hid, h.unconfigured id hid⟩
  have hhandle : (handle peers label.1 browser label.2).Tidy peers := by
    unfold handle
    split
    next service heq =>
      split
      next node hnode =>
        refine tidy_reconcile (length_rememberService_le h.services) hheld fun service hservice => ?_
        dsimp only at hservice ⊢
        by_cases hname : service.fullname = node.fullname
        · rw [eq_of_mem_rememberService hservice hname]
          exact Function.update_self ..
        · rw [Function.update_of_ne hname]
          refine h.seen service ((mem_rememberService hservice).resolve_left ?_)
          rintro rfl
          exact hname rfl
      · exact h
    next fullname heq =>
      split
      · refine tidy_reconcile ?_ hheld fun service hservice => ?_
        · dsimp only
          rw [Table.rows_filter]
          exact (List.length_filter_le _ _).trans h.services
        · dsimp only at hservice
          rw [Table.rows_filter] at hservice
          exact h.seen service (List.mem_of_mem_filter hservice)
      · exact h
    next heq =>
      refine tidy_reconcile ?_ hheld fun service hservice => ?_
      · dsimp only [expireServices]
        rw [Table.rows_filter]
        exact (List.length_filter_le _ _).trans h.services
      · dsimp only [expireServices] at hservice
        rw [Table.rows_filter] at hservice
        exact h.seen service (List.mem_of_mem_filter hservice)
  exact { hhandle with }

/-! ## A machine that answers -/

/-- Only the machine is announced under its name, and under its id. -/
def Own (fullname machineId : String) (node : DiscoveredNode) : Prop := node.fullname = fullname ↔ node.id = machineId

/-- Events are in order, and others are announced under other names and ids. -/
def Hears (peers : Peers) (fullname machineId : String) (browser : Browser) (label : Nat × Event) (browser' : Browser) : Prop :=
  browser.clock ≤ label.1 ∧
    (∀ service node, label.2 = .serviceResolved service → nodeFromResolved service = some node → Own fullname machineId node) ∧
    browser' = browser.step peers label

/-- The machine is not taken back, and was announced within the age that
services are kept for. -/
def Answers (fullname : String) (browser : Browser) (label : Nat × Event) : Prop :=
  label.2 ≠ .serviceRemoved fullname ∧
    ∃ seen, browser.announced fullname = some seen ∧ label.1 ≤ seen + discoveredServiceMaxAge

/-- While the machine answers. -/
abbrev HearsOn (peers : Peers) (fullname machineId : String) (browser : Browser) (label : Nat × Event) (browser' : Browser) :
    Prop :=
  Hears peers fullname machineId browser label browser' ∧ Answers fullname browser label

/-- The services are whose they say they are. -/
structure Owned (peers : Peers) (fullname machineId : String) (browser : Browser) : Prop extends Tidy peers browser where
  own : ∀ service ∈ browser.services.rows, Own fullname machineId service.node

theorem Owned.step (h : browser.Owned peers fullname machineId) (hstep : Hears peers fullname machineId browser label browser') :
    browser'.Owned peers fullname machineId := by
  obtain ⟨-, hown, rfl⟩ := hstep
  refine ⟨h.toTidy.step, ?_⟩
  unfold Browser.step handle
  split
  next service heq =>
    split
    next node hnode =>
      intro row hrow
      rcases mem_rememberService hrow with rfl | hrow
      · exact hown service node heq hnode
      · exact h.own row hrow
    · exact h.own
  next name heq =>
    split
    · intro row hrow
      dsimp only [reconcile] at hrow
      rw [Table.rows_filter] at hrow
      exact h.own row (List.mem_of_mem_filter hrow)
    · exact h.own
  next heq =>
    intro row hrow
    dsimp only [reconcile, expireServices] at hrow
    rw [Table.rows_filter] at hrow
    exact h.own row (List.mem_of_mem_filter hrow)

/-- A service stays while its machine answers. -/
theorem Owned.held_step (h : browser.Owned peers fullname machineId) (hheld : (browser.services.find? fullname).isSome)
    (hstep : HearsOn peers fullname machineId browser label browser') : (browser'.services.find? fullname).isSome := by
  obtain ⟨⟨-, -, rfl⟩, hremoved, seen, hseen, hfresh⟩ := hstep
  obtain ⟨mine, hmine⟩ := Option.isSome_iff_exists.mp hheld
  obtain rfl : mine.fullname = fullname := Table.key_of_find? hmine
  have hmem : mine ∈ browser.services.rows := Table.mem_rows.mpr hmine
  rw [h.seen mine hmem] at hseen
  obtain rfl := Option.some.inj hseen
  unfold Browser.step handle
  split
  next service heq =>
    split
    · exact isSome_rememberService hmem hfresh
    · exact hheld
  next name heq =>
    split
    · dsimp only [reconcile]
      have hkept : mine ∈ (browser.services.filter fun service => service.fullname ≠ name).rows := by
        rw [Table.rows_filter, List.mem_filter]
        refine ⟨hmem, decide_eq_true fun hname => hremoved ?_⟩
        rw [heq, hname]
      rw [Table.mem_rows.mp hkept]
      rfl
    · exact hheld
  next heq =>
    dsimp only [reconcile]
    rw [Table.mem_rows.mp (mem_expireServices hmem hfresh)]
    rfl

/-- A machine whose service is there is active when few rank before it. -/
theorem Owned.active_iff (h : browser.Owned peers fullname machineId) {mine : SeenService}
    (hmine : browser.services.find? fullname = some mine) :
    machineId ∈ browser.active ↔ (ahead browser.services mine).length < maxDiscoveredMachines := by
  have hmem : mine ∈ browser.services.rows := Table.mem_rows.mpr (by rw [Table.key_of_find? hmine, hmine])
  have hname : mine.fullname = fullname := Table.key_of_find? hmine
  have hid : mine.id = machineId := (h.own mine hmem).mp hname
  have honly : ∀ row ∈ browser.services.rows, row.id = mine.id → row = mine := by
    intro row hrow heq
    refine Table.eq_of_key hrow hmem ?_
    exact ((h.own row hrow).mpr (heq.trans hid)).trans hname.symm
  have hbyId := mem_byId hmem honly
  rw [← mem_wantedServices hbyId, h.active, h.reconciled, List.mem_map]
  constructor
  · rintro ⟨row, hrow, heq⟩
    rwa [← honly row (mem_of_mem_byId (mem_of_mem_wantedServices hrow)) (heq.trans hid.symm)]
  · intro hwanted
    exact ⟨mine, hwanted, hid⟩

/-- The service of an active machine is there. -/
theorem Owned.isSome_of_active (h : browser.Owned peers fullname machineId) (hactive : machineId ∈ browser.active) :
    (browser.services.find? fullname).isSome := by
  rw [h.active, h.reconciled] at hactive
  obtain ⟨row, hrow, hid⟩ := List.mem_map.mp hactive
  have hmem := mem_of_mem_byId (mem_of_mem_wantedServices hrow)
  have hname : row.fullname = fullname := (h.own row hmem).mpr hid
  rw [← hname, Table.mem_rows.mp hmem]
  rfl

/-- **A machine that answers stays active exactly while fewer than
`maxDiscoveredMachines` others rank before it**, and the tables keep their
bounds in every run. -/
theorem active_iff_ahead (peers : Peers) :
    (∀ labels browser, Run (fun browser label browser' => browser.clock ≤ label.1 ∧ browser' = browser.step peers label)
        new labels browser → browser.Bounded) ∧
      ∀ fullname machineId before browser after browser', Run (Hears peers fullname machineId) new before browser →
        machineId ∈ browser.active → Run (HearsOn peers fullname machineId) browser after browser' →
        ∃ mine, browser'.reconciled.find? fullname = some mine ∧
          (machineId ∈ browser'.active ↔ (ahead browser'.reconciled mine).length < maxDiscoveredMachines) := by
  constructor
  · intro labels browser hrun
    refine (hrun.invariant (I := Tidy peers) (fun {_ _ _} htidy hstep => ?_) tidy_new).toBounded
    obtain ⟨-, rfl⟩ := hstep
    exact htidy.step
  · intro fullname machineId before browser after browser' hbefore hactive hafter
    have howned : browser.Owned peers fullname machineId :=
      hbefore.invariant (I := Owned peers fullname machineId) (fun {_ _ _} h hstep => h.step hstep)
        ⟨tidy_new, fun _ hmem => (by cases hmem)⟩
    obtain ⟨howned', hheld'⟩ := hafter.invariant
      (I := fun browser => browser.Owned peers fullname machineId ∧ (browser.services.find? fullname).isSome)
      (fun {_ _ _} h hstep => ⟨h.1.step hstep.1, h.1.held_step h.2 hstep⟩) ⟨howned, howned.isSome_of_active hactive⟩
    obtain ⟨mine, hmine⟩ := Option.isSome_iff_exists.mp hheld'
    rw [howned'.reconciled]
    exact ⟨mine, hmine, howned'.active_iff hmine⟩

/-! Sixteen machines announced after one. -/

private def nearby (name : String) : ResolvedService := ⟨name, some name, none, [0xc0a80108], 7345⟩

private def alone : Peers := ⟨fun _ => true, fun _ => false⟩

private def first : Browser := new.step alone (0, .serviceResolved (nearby "z"))

private def crowd : List (Nat × Event) :=
  ["a", "b", "c", "d", "e", "f", "g", "h", "i", "j", "k", "l", "m", "n", "o", "p"].map fun name =>
    (1, .serviceResolved (nearby name))

private theorem hears_first : Hears alone "z" "z" new (0, .serviceResolved (nearby "z")) first := by
  have hnode : nodeFromResolved (nearby "z") = some ⟨"z", "z", "z", 0xc0a80108, 7345⟩ := by decide +kernel
  refine ⟨le_refl _, fun service node heq hresolved => ?_, rfl⟩
  cases heq
  rw [hnode] at hresolved
  obtain rfl := Option.some.inj hresolved
  exact iff_of_true rfl rfl

private theorem first_active : "z" ∈ first.active ∧ first.announced "z" = some 0 := by decide +kernel

private theorem run_crowd {labels : List (Nat × Event)} {browser : Browser} (hclock : browser.clock ≤ 1)
    (hannounced : browser.announced "z" = some 0)
    (hlabels : ∀ label ∈ labels, ∃ name, label = (1, .serviceResolved (nearby name)) ∧ name ≠ "z" ∧
      nodeFromResolved (nearby name) = some ⟨name, name, name, 0xc0a80108, 7345⟩) :
    Run (HearsOn alone "z" "z") browser labels (labels.foldl (step alone) browser) := by
  induction labels generalizing browser with
  | nil => exact .nil _
  | cons label labels ih =>
    obtain ⟨name, rfl, hne, hnode⟩ := hlabels label List.mem_cons_self
    have hown : ∀ service node, Event.serviceResolved (nearby name) = .serviceResolved service →
        nodeFromResolved service = some node → Own "z" "z" node := by
      intro service node heq hresolved
      cases heq
      rw [hnode] at hresolved
      obtain rfl := Option.some.inj hresolved
      exact iff_of_false hne hne
    have hclock' : (step alone browser (1, .serviceResolved (nearby name))).clock ≤ 1 := le_refl 1
    have hannounced' : (step alone browser (1, .serviceResolved (nearby name))).announced "z" = some 0 := by
      simp only [step, handle, hnode, reconcile]
      exact (Function.update_of_ne (Ne.symm hne) ..).trans hannounced
    have hfresh : 1 ≤ 0 + discoveredServiceMaxAge := by decide
    have hrest := ih hclock' hannounced' fun label hlabel => hlabels label (List.mem_cons_of_mem _ hlabel)
    have hanswers : Answers "z" browser (1, .serviceResolved (nearby name)) :=
      ⟨fun heq => (by cases heq), 0, hannounced, hfresh⟩
    have hhears : Hears alone "z" "z" browser (1, .serviceResolved (nearby name))
        (step alone browser (1, .serviceResolved (nearby name))) := ⟨hclock, hown, rfl⟩
    rw [List.foldl_cons]
    exact .cons ⟨hhears, hanswers⟩ hrest

/-- The machine is active with another beside it. -/
theorem first_stays : ∃ mine, (first.step alone (0, .tick)).reconciled.find? "z" = some mine ∧
    ("z" ∈ (first.step alone (0, .tick)).active ↔
      (ahead (first.step alone (0, .tick)).reconciled mine).length < maxDiscoveredMachines) :=
  (active_iff_ahead alone).2 "z" "z" _ first [(0, .tick)] _ (.single hears_first) first_active.1
    (.single ⟨⟨le_refl _, fun _ _ heq => (by cases heq), rfl⟩, by simp, 0, first_active.2, Nat.zero_le _⟩)

/-- Sixteen announcements push out a machine that still answers. -/
theorem crowded_out : ¬ ∀ peers fullname machineId before browser after browser',
    Run (Hears peers fullname machineId) new before browser → machineId ∈ browser.active →
      Run (HearsOn peers fullname machineId) browser after browser' → machineId ∈ browser'.active := by
  intro hall
  have hcrowd : ∀ label ∈ crowd, ∃ name, label = (1, .serviceResolved (nearby name)) ∧ name ≠ "z" ∧
      nodeFromResolved (nearby name) = some ⟨name, name, name, 0xc0a80108, 7345⟩ := by
    intro label hlabel
    obtain ⟨name, hname, rfl⟩ := List.mem_map.mp hlabel
    refine ⟨name, rfl, ?_⟩
    have hnames : ∀ name ∈ ["a", "b", "c", "d", "e", "f", "g", "h", "i", "j", "k", "l", "m", "n", "o", "p"], name ≠ "z" ∧
        nodeFromResolved (nearby name) = some ⟨name, name, name, 0xc0a80108, 7345⟩ := by decide +kernel
    exact hnames name hname
  have hactive := hall alone "z" "z" _ first crowd _ (.single hears_first) first_active.1
    (run_crowd (Nat.zero_le _) first_active.2 hcrowd)
  have hout : "z" ∉ (crowd.foldl (step alone) first).active := by decide +kernel
  exact hout hactive

end Browser

end Atmux.LanDiscovery
