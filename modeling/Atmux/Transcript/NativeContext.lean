/-
The context usage that an agent's own log shows.

A log is read line by line for its latest usage record and for a compaction
after it (`parseNativeContext`). What comes of it is said of the records alone
by `nativeContext_eq`: nothing, if the log was capped, its last line is
malformed or a usage record is incomplete, and else the last usage record. The
reader makes no difference between the main conversation and those of
subagents, so it keeps to the main one exactly where it returns nothing anyway
(`lawful_iff`), or where the others have no usage and no compaction.
-/
import Atmux.Pulse.Json
import Atmux.Session
import Mathlib.Data.List.Induction

namespace Atmux.Transcript

open Lib Pulse

/-! ## Records -/

structure LogTail where
  bytes : List UInt8
  startsMidLine : Bool
  readCapped : Bool

/-- What the reader has seen, with the places of records among the parsed lines. -/
structure Seen where
  latestUsage : Option (Nat × Nat)
  latestCompact : Option Nat
  parsedIndex : Nat

def checkedAdd (a b : Nat) : Option Nat := if a + b < 2 ^ 64 then some (a + b) else none

def typeOf (value : Json) : Option String := (value.get? "type").bind Json.asStr

def isAssistant (value message : Json) : Bool :=
  typeOf value = some "assistant" || (message.get? "role").bind Json.asStr = some "assistant"

def isCompactBoundary (value : Json) : Bool :=
  typeOf value = some "system" && (value.get? "subtype").bind Json.asStr = some "compact_boundary"

def isTokenCount (value : Json) : Bool :=
  typeOf value = some "event_msg" && ((value.get? "payload").bind typeOf) = some "token_count"

/-- The tokens of a Claude usage record. -/
def claudeTotal (message : Json) : Option Nat := do
  let usage ← message.get? "usage"
  let input ← (usage.get? "input_tokens").bind Json.asU64
  let cacheCreation ← (usage.get? "cache_creation_input_tokens").bind Json.asU64
  let cacheRead ← (usage.get? "cache_read_input_tokens").bind Json.asU64
  (checkedAdd input cacheCreation).bind fun total => checkedAdd total cacheRead

/-- The tokens of a Codex usage record. -/
def codexTotal (value : Json) : Option Nat := do
  let payload ← value.get? "payload"
  let info ← payload.get? "info"
  let usage ← info.get? "last_token_usage"
  (usage.get? "input_tokens").bind Json.asU64

/-- One parsed line. -/
def readRecord (agent : AgentKind) (seen : Seen) (value : Json) : Option Seen :=
  let index := seen.parsedIndex
  let seen := { seen with parsedIndex := index + 1 }
  match agent with
  | .claude =>
    let seen := if isCompactBoundary value then { seen with latestCompact := some index } else seen
    match value.get? "message" with
    | none => some seen
    | some message =>
      if !isAssistant value message then some seen
      else (claudeTotal message).map fun total => { seen with latestUsage := some (total, index) }
  | .codex =>
    if typeOf value = some "compacted" then some { seen with latestCompact := some index }
    else if !isTokenCount value then some seen
    else (codexTotal value).map fun input => { seen with latestUsage := some (input, index) }
  | .other => none

variable (parse : List UInt8 → Option Json)

/-- The lines that are left, each with its place; `newest` is the last one that is not empty. -/
def readLines (agent : AgentKind) (newest : Option Nat) : List (List UInt8 × Nat) → Seen → Option Seen
  | [], seen => some seen
  | (line, index) :: rest, seen =>
    if line.isEmpty then readLines agent newest rest seen
    else match parse line with
      | some value => (readRecord agent seen value).bind fun seen => readLines agent newest rest seen
      | none => if newest = some index then none else readLines agent newest rest seen

def newestNonempty (physical : List (List UInt8 × Nat)) : Option Nat :=
  (physical.filter fun line => !line.1.isEmpty).getLast?.map Prod.snd

def parseNativeContext (agent : AgentKind) (bytes : List UInt8) : Option (Nat × Nat × Option Nat) :=
  let physical := (bytes.splitOn 10).zipIdx
  (readLines parse agent (newestNonempty physical) physical ⟨none, none, 0⟩).bind fun seen =>
    seen.latestUsage.map fun usage => (usage.1, usage.2, seen.latestCompact)

def parseNativeContextTail (agent : AgentKind) (log : LogTail) : Option (Nat × Nat × Option Nat) :=
  if log.readCapped then none else parseNativeContext parse agent log.bytes

/-- The tokens in use, and whether a compaction follows. -/
def nativeContext (agent : AgentKind) (log : LogTail) : Option (Nat × Bool) :=
  (parseNativeContextTail parse agent log).map fun usage => (usage.1, usage.2.2.any fun index => usage.2.1 < index)

/-! ## What records there are -/

/-- A record of a subagent's side conversation. -/
def isSidechain (value : Json) : Bool := (value.get? "isSidechain").bind Json.asBool = some true

def isUsage : AgentKind → Json → Bool
  | .claude, value => (value.get? "message").any fun message => isAssistant value message
  | .codex, value => isTokenCount value
  | .other, _ => false

def isCompaction : AgentKind → Json → Bool
  | .claude, value => isCompactBoundary value
  | .codex, value => typeOf value = some "compacted"
  | .other, _ => false

/-- The tokens of a usage record that is complete and does not overflow. -/
def total : AgentKind → Json → Option Nat
  | .claude, value => (value.get? "message").bind claudeTotal
  | .codex, value => codexTotal value
  | .other, _ => none

/-- The lines that are not empty. -/
def lines (log : LogTail) : List (List UInt8) := (log.bytes.splitOn 10).filter fun line => !line.isEmpty

def values (log : LogTail) : List Json := (lines log).filterMap parse

def mainValues (log : LogTail) : List Json := (values parse log).filter fun value => !isSidechain value

/-- The last line that is not empty is complete. -/
def tailParses (log : LogTail) : Bool := (lines log).getLast?.all fun line => (parse line).isSome

/-- The tokens are those of the last usage record, and a reset is pending if
a compaction follows it. -/
def IsCurrent (agent : AgentKind) (values : List Json) (tokens : Nat) (reset : Bool) : Prop :=
  (∀ value ∈ values, isUsage agent value = true → total agent value ≠ none) ∧
    ∃ before value after, values = before ++ value :: after ∧ isUsage agent value = true ∧
      total agent value = some tokens ∧ (∀ value ∈ after, isUsage agent value = false) ∧
      (reset = true ↔ ∃ value ∈ after, isCompaction agent value = true)

/-- Logs of one main conversation. -/
def SameMain (log log' : LogTail) : Prop :=
  log'.readCapped = log.readCapped ∧ tailParses parse log' = tailParses parse log ∧
    mainValues parse log' = mainValues parse log

/-- What is asked of a reading: it is current, and the main conversation's. -/
def Lawful (agent : AgentKind) (log : LogTail) : Prop :=
  (∀ tokens reset, nativeContext parse agent log = some (tokens, reset) →
    log.readCapped = false ∧ tailParses parse log = true ∧ IsCurrent agent (mainValues parse log) tokens reset) ∧
    ∀ log', SameMain parse log log' → nativeContext parse agent log' = nativeContext parse agent log

/-- The log is not to be read, whatever subagents add to it. -/
def Unreadable (agent : AgentKind) (log : LogTail) : Prop :=
  log.readCapped = true ∨ tailParses parse log = false ∨
    ∃ value ∈ mainValues parse log, isUsage agent value = true ∧ total agent value = none

/-- Nothing that subagents did is a usage or a compaction. -/
def MainOnly (agent : AgentKind) (log : LogTail) : Prop :=
  ∀ value ∈ values parse log, isSidechain value = true → isUsage agent value = false ∧ isCompaction agent value = false

/-! ## What a reading is made of -/

variable {parse} {agent : AgentKind} {seen : Seen} {value : Json} {log : LogTail} {held : Option (Nat × Bool)}
  {tokens : Nat} {reset : Bool}

/-- What one record makes of the current usage. -/
def follow (agent : AgentKind) (held : Option (Nat × Bool)) (value : Json) : Option (Option (Nat × Bool)) :=
  if isUsage agent value then (total agent value).map fun tokens => some (tokens, false)
  else some (if isCompaction agent value then held.map fun usage => (usage.1, true) else held)

def Seen.current (seen : Seen) : Option (Nat × Bool) :=
  seen.latestUsage.map fun usage => (usage.1, seen.latestCompact.any fun index => usage.2 < index)

/-- What was seen stands before the next line. -/
structure Seen.Below (seen : Seen) : Prop where
  usage : ∀ usage, seen.latestUsage = some usage → usage.2 < seen.parsedIndex
  compact : ∀ index, seen.latestCompact = some index → index < seen.parsedIndex

/-- The last compaction, this record included. -/
def Seen.compacted (agent : AgentKind) (seen : Seen) (value : Json) : Option Nat :=
  if isCompaction agent value then some seen.parsedIndex else seen.latestCompact

theorem readRecord_eq (hagent : agent ≠ .other) : readRecord agent seen value =
    if isUsage agent value then (total agent value).map fun tokens =>
      ⟨some (tokens, seen.parsedIndex), seen.compacted agent value, seen.parsedIndex + 1⟩
    else some ⟨seen.latestUsage, seen.compacted agent value, seen.parsedIndex + 1⟩ := by
  cases agent with
  | other => exact absurd rfl hagent
  | claude =>
    unfold readRecord isUsage total Seen.compacted isCompaction
    cases hmessage : value.get? "message" with
    | none =>
      by_cases hcompact : isCompactBoundary value = true <;> simp [hcompact, hmessage]
    | some message =>
      by_cases hcompact : isCompactBoundary value = true <;> by_cases hassistant : isAssistant value message = true <;>
        simp [hcompact, hassistant, hmessage]
  | codex =>
    unfold readRecord isUsage total Seen.compacted isCompaction
    by_cases hcompact : typeOf value = some "compacted"
    · have hcount : isTokenCount value = false := by
        unfold isTokenCount
        rw [hcompact]
        rfl
      simp [hcompact, hcount]
    · by_cases hcount : isTokenCount value = true <;> simp [hcompact, hcount]

theorem Seen.compacted_le (h : seen.Below) {index : Nat} (hindex : seen.compacted agent value = some index) :
    index ≤ seen.parsedIndex := by
  unfold Seen.compacted at hindex
  split at hindex
  · exact Nat.le_of_eq (Option.some.inj hindex).symm
  · exact Nat.le_of_lt (h.compact index hindex)

/-- A record is read into the current usage. -/
theorem readRecord_current (hagent : agent ≠ .other) (h : seen.Below) :
    (readRecord agent seen value).map Seen.current = follow agent seen.current value := by
  rw [readRecord_eq hagent]
  unfold follow
  split
  · rw [Option.map_map]
    congr 1
    funext tokens
    have hnone : (seen.compacted agent value).any (fun index => seen.parsedIndex < index) = false := by
      cases hindex : seen.compacted agent value with
      | none => rfl
      | some index => simpa using Seen.compacted_le h hindex
    simp [Seen.current, hnone]
  · rw [Option.map_some]
    congr 1
    unfold Seen.current Seen.compacted
    split
    · cases husage : seen.latestUsage with
      | none => rfl
      | some usage => simp [h.usage usage husage]
    · rfl

theorem readRecord_below {seen' : Seen} (hagent : agent ≠ .other) (h : seen.Below)
    (hread : readRecord agent seen value = some seen') : seen'.Below := by
  rw [readRecord_eq hagent] at hread
  have hcompact (index : Nat) (hindex : seen.compacted agent value = some index) : index < seen.parsedIndex + 1 :=
    Nat.lt_succ_of_le (Seen.compacted_le h hindex)
  split at hread
  · obtain ⟨tokens, _, rfl⟩ := Option.map_eq_some_iff.mp hread
    refine ⟨fun usage husage => ?_, hcompact⟩
    obtain rfl := Option.some.inj husage
    exact Nat.lt_succ_self _
  · obtain rfl := Option.some.inj hread
    exact ⟨fun usage husage => Nat.lt_succ_of_lt (h.usage usage husage), hcompact⟩

/-- So are all of them. -/
theorem foldlM_current (hagent : agent ≠ .other) (h : seen.Below) (values : List Json) :
    (values.foldlM (readRecord agent) seen).map Seen.current = values.foldlM (follow agent) seen.current := by
  induction values generalizing seen with
  | nil => rfl
  | cons value values ih =>
    rw [List.foldlM_cons, List.foldlM_cons, ← readRecord_current hagent h]
    cases hread : readRecord agent seen value with
    | none => rfl
    | some seen' => exact ih (readRecord_below hagent h hread)

/-! ## Lines -/

theorem readLines_empty {newest : Option Nat} (physical : List (List UInt8 × Nat))
    (h : (physical.filter fun line => !line.1.isEmpty) = []) : readLines parse agent newest physical seen = some seen := by
  induction physical with
  | nil => rfl
  | cons entry physical ih =>
    have hempty : entry.1.isEmpty = true := by
      have hnot := List.filter_eq_nil_iff.mp h entry List.mem_cons_self
      simpa using hnot
    rw [List.filter_cons_of_neg (by simp [hempty])] at h
    rw [readLines, if_pos hempty, ih h]

/-- The last line that is not empty stands among the rest, if they have one. -/
theorem newestNonempty_cons (entry : List UInt8 × Nat) {physical : List (List UInt8 × Nat)}
    (hne : (physical.filter fun line => !line.1.isEmpty) ≠ []) :
    newestNonempty (entry :: physical) = newestNonempty physical ∧
      ∃ index ∈ physical.map Prod.snd, newestNonempty physical = some index := by
  have hlast := List.getLast?_eq_some_getLast hne
  refine ⟨?_, _, List.mem_map_of_mem (List.mem_of_mem_filter (List.getLast_mem hne)), ?_⟩
  · unfold newestNonempty
    rw [List.filter_cons]
    split
    · rw [List.getLast?_cons, hlast]
      rfl
    · rfl
  · unfold newestNonempty
    rw [hlast]
    rfl

/-- Lines are read up to a malformed last one, and past others. -/
theorem readLines_eq (physical : List (List UInt8 × Nat)) (hplaces : (physical.map Prod.snd).Nodup) :
    readLines parse agent (newestNonempty physical) physical seen =
      if (physical.filter fun line => !line.1.isEmpty).getLast?.all (fun line => (parse line.1).isSome) then
        ((physical.filter fun line => !line.1.isEmpty).filterMap fun line => parse line.1).foldlM (readRecord agent) seen
      else none := by
  induction physical generalizing seen with
  | nil => rfl
  | cons entry physical ih =>
    obtain ⟨line, index⟩ := entry
    obtain ⟨hnew, hplaces⟩ := List.nodup_cons.mp hplaces
    by_cases hempty : line.isEmpty = true
    · have hnewest : newestNonempty ((line, index) :: physical) = newestNonempty physical := by
        simp [newestNonempty, hempty]
      rw [readLines, if_pos hempty, hnewest, ih hplaces, List.filter_cons_of_neg (by simp [hempty])]
    · rw [readLines, if_neg hempty, List.filter_cons_of_pos (by simp [hempty])]
      by_cases hlast : (physical.filter fun line => !line.1.isEmpty) = []
      · have hnewest : newestNonempty ((line, index) :: physical) = some index := by
          unfold newestNonempty
          rw [List.filter_cons_of_pos (by simp [hempty]), hlast]
          rfl
        rw [hlast, hnewest]
        cases hparse : parse line with
        | none => simp [hparse]
        | some value => simp [hparse, readLines_empty physical hlast]
      · obtain ⟨hnewest, other, hother, heq⟩ := newestNonempty_cons (line, index) hlast
        have hne : other ≠ index := fun h => hnew (h ▸ hother)
        have hall : ((line, index) :: physical.filter fun line => !line.1.isEmpty).getLast? =
            (physical.filter fun line => !line.1.isEmpty).getLast? := by
          rw [List.getLast?_cons, List.getLast?_eq_some_getLast hlast]
          rfl
        rw [hnewest, hall]
        cases hparse : parse line with
        | none =>
          rw [List.filterMap_cons_none (by simpa using hparse), ← ih hplaces, if_neg]
          rw [heq]
          exact fun h => hne (Option.some.inj h)
        | some value =>
          rw [List.filterMap_cons_some (by simpa using hparse), List.foldlM_cons]
          dsimp only
          cases readRecord agent seen value with
          | none => simp
          | some seen => exact ih hplaces

/-- A reading goes by the records alone. -/
theorem nativeContext_eq (hagent : agent ≠ .other) : nativeContext parse agent log =
    if log.readCapped then none
    else if tailParses parse log then ((values parse log).foldlM (follow agent) none).join
    else none := by
  unfold nativeContext parseNativeContextTail
  split
  · rfl
  · have hlines : ((log.bytes.splitOn 10).zipIdx.filter fun line => !line.1.isEmpty).map Prod.fst = lines log := by
      unfold lines
      rw [← List.zipIdx_map_fst 0 (log.bytes.splitOn 10), List.filter_map, List.zipIdx_map_fst]
      rfl
    have hplaces : ((log.bytes.splitOn 10).zipIdx.map Prod.snd).Nodup := by
      rw [List.zipIdx_map_snd]
      exact List.nodup_range'
    have htail : ((log.bytes.splitOn 10).zipIdx.filter fun line => !line.1.isEmpty).getLast?.all
        (fun line => (parse line.1).isSome) = tailParses parse log := by
      unfold tailParses
      rw [← hlines, List.getLast?_map, Option.all_map]
    have hvalues : (((log.bytes.splitOn 10).zipIdx.filter fun line => !line.1.isEmpty).filterMap fun line => parse line.1) =
        values parse log := by
      unfold values
      rw [← hlines, List.filterMap_map]
      rfl
    have hcurrent : ((values parse log).foldlM (readRecord agent) ⟨none, none, 0⟩).map Seen.current =
        (values parse log).foldlM (follow agent) none :=
      foldlM_current hagent ⟨fun _ h => (by cases h), fun _ h => (by cases h)⟩ _
    unfold parseNativeContext
    dsimp only
    rw [readLines_eq _ hplaces, htail, hvalues]
    split
    · rw [← hcurrent]
      cases (values parse log).foldlM (readRecord agent) ⟨none, none, 0⟩ with
      | none => rfl
      | some seen =>
        unfold Seen.current
        simp only [Option.bind_some, Option.map_some, Option.map_map, Option.join_some]
        rfl
    · rfl

/-! ## What is current -/

/-- A record that is neither a usage nor a compaction changes nothing. -/
theorem follow_of_plain (husage : isUsage agent value = false) (hcompact : isCompaction agent value = false) :
    follow agent held value = some held := by
  simp [follow, husage, hcompact]

theorem foldlM_follow_filter {p : Json → Bool} (values : List Json)
    (h : ∀ value ∈ values, p value = false → isUsage agent value = false ∧ isCompaction agent value = false) :
    values.foldlM (follow agent) held = (values.filter p).foldlM (follow agent) held := by
  induction values generalizing held with
  | nil => rfl
  | cons value values ih =>
    have hrest (held : Option (Nat × Bool)) : values.foldlM (follow agent) held = _ :=
      ih fun value hvalue => h value (List.mem_cons_of_mem _ hvalue)
    cases hp : p value with
    | true =>
      rw [List.filter_cons_of_pos hp, List.foldlM_cons, List.foldlM_cons]
      congr 1
      funext held
      exact hrest held
    | false =>
      obtain ⟨husage, hcompact⟩ := h value List.mem_cons_self hp
      rw [List.filter_cons_of_neg (by simp [hp]), List.foldlM_cons, follow_of_plain husage hcompact]
      exact hrest held

/-- An incomplete usage record is read as nothing at all. -/
theorem foldlM_follow_eq_none {values : List Json} :
    values.foldlM (follow agent) held = none ↔ ∃ value ∈ values, isUsage agent value = true ∧ total agent value = none := by
  induction values generalizing held with
  | nil => simp
  | cons value values ih =>
    rw [List.foldlM_cons, List.exists_mem_cons_iff]
    cases hfollow : follow agent held value with
    | none =>
      unfold follow at hfollow
      split at hfollow
      next husage => exact ⟨fun _ => .inl ⟨husage, Option.map_eq_none_iff.mp hfollow⟩, fun _ => rfl⟩
      · cases hfollow
    | some held' =>
      refine ih.trans ⟨.inr, fun h => h.resolve_left fun ⟨husage, htotal⟩ => ?_⟩
      simp [follow, husage, htotal] at hfollow

/-- What is held is current, or there was no usage record. -/
def HoldsFor (agent : AgentKind) (values : List Json) : Option (Nat × Bool) → Prop
  | some (tokens, reset) => IsCurrent agent values tokens reset
  | none => ∀ value ∈ values, isUsage agent value = false

theorem foldlM_follow_some {values : List Json} (h : values.foldlM (follow agent) none = some held) :
    HoldsFor agent values held := by
  induction values using List.reverseRecOn generalizing held with
  | nil =>
    obtain rfl := Option.some.inj h
    exact fun _ hvalue => (by cases hvalue)
  | append_singleton values value ih =>
    rw [List.foldlM_append] at h
    obtain ⟨before, hbefore, h⟩ := Option.bind_eq_some_iff.mp h
    obtain ⟨after, hafter, h⟩ := Option.bind_eq_some_iff.mp h
    obtain rfl := Option.some.inj h
    have hcomplete : ∀ value ∈ values, isUsage agent value = true → total agent value ≠ none := by
      intro value hvalue husage htotal
      have hnone : values.foldlM (follow agent) none = none := foldlM_follow_eq_none.mpr ⟨value, hvalue, husage, htotal⟩
      rw [hbefore] at hnone
      cases hnone
    have hprevious := ih hbefore
    unfold follow at hafter
    split at hafter
    next husage =>
      obtain ⟨tokens, htokens, rfl⟩ := Option.map_eq_some_iff.mp hafter
      refine ⟨fun other hother => ?_, values, value, [], rfl, husage, htokens, by simp, by simp⟩
      rcases List.mem_append.mp hother with hother | hother
      · exact hcomplete other hother
      · obtain rfl := List.mem_singleton.mp hother
        intro _
        rw [htokens]
        exact Option.some_ne_none _
    next husage =>
      have hplain : isUsage agent value = false := Bool.eq_false_iff.mpr husage
      obtain rfl := Option.some.inj hafter
      cases before with
      | none =>
        have hnone : (if isCompaction agent value then (none : Option (Nat × Bool)).map fun usage => (usage.1, true)
            else none) = none := by split <;> rfl
        rw [hnone]
        change ∀ other ∈ values ++ [value], isUsage agent other = false
        intro other hother
        rcases List.mem_append.mp hother with hother | hother
        · exact hprevious other hother
        · exact List.mem_singleton.mp hother ▸ hplain
      | some usage =>
        obtain ⟨tokens, reset⟩ := usage
        have hpending : (if isCompaction agent value then (some (tokens, reset)).map fun usage => (usage.1, true)
            else some (tokens, reset)) = some (tokens, reset || isCompaction agent value) := by
          cases hcompact : isCompaction agent value <;> simp
        rw [hpending]
        obtain ⟨-, before, latest, after, rfl, hlatest, htokens, hafter, hreset⟩ := hprevious
        refine ⟨fun other hother => ?_, before, latest, after ++ [value], by simp, hlatest, htokens, ?_, ?_⟩
        · rcases List.mem_append.mp hother with hother | hother
          · exact hcomplete other hother
          · obtain rfl := List.mem_singleton.mp hother
            intro husage'
            exact absurd husage' husage
        · intro other hother
          rcases List.mem_append.mp hother with hother | hother
          · exact hafter other hother
          · exact List.mem_singleton.mp hother ▸ hplain
        · rw [Bool.or_eq_true, hreset]
          simp [or_and_right, exists_or]

/-- No usage record of the main conversation is incomplete where a reading is current. -/
theorem isCurrent_of_eq {values : List Json} (h : (values.foldlM (follow agent) none).join = some (tokens, reset)) :
    IsCurrent agent values tokens reset := by
  cases hfold : values.foldlM (follow agent) none with
  | none =>
    rw [hfold] at h
    cases h
  | some held =>
    rw [hfold, Option.join_some] at h
    have hholds := foldlM_follow_some hfold
    rw [h] at hholds
    exact hholds

theorem foldlM_values (h : MainOnly parse agent log) :
    (values parse log).foldlM (follow agent) none = (mainValues parse log).foldlM (follow agent) none :=
  foldlM_follow_filter _ fun value hvalue hside => h value hvalue (by simpa using hside)

/-- Without usages and compactions of subagents a reading is the main conversation's. -/
theorem isCurrent_of_mainOnly (hagent : agent ≠ .other) (h : MainOnly parse agent log)
    (hread : nativeContext parse agent log = some (tokens, reset)) :
    log.readCapped = false ∧ tailParses parse log = true ∧ IsCurrent agent (mainValues parse log) tokens reset := by
  rw [nativeContext_eq hagent] at hread
  split at hread
  · cases hread
  next hcapped =>
    split at hread
    next htail =>
      rw [foldlM_values h] at hread
      exact ⟨Bool.eq_false_iff.mpr hcapped, htail, isCurrent_of_eq hread⟩
    · cases hread

theorem nativeContext_congr {log' : LogTail} (hagent : agent ≠ .other) (h : MainOnly parse agent log)
    (h' : MainOnly parse agent log') (hsame : SameMain parse log log') :
    nativeContext parse agent log' = nativeContext parse agent log := by
  rw [nativeContext_eq hagent, nativeContext_eq hagent, foldlM_values h, foldlM_values h', hsame.1, hsame.2.1, hsame.2.2]

theorem nativeContext_unreadable (hagent : agent ≠ .other) (h : Unreadable parse agent log) :
    nativeContext parse agent log = none := by
  rw [nativeContext_eq hagent]
  rcases h with hcapped | htail | ⟨value, hvalue, husage, htotal⟩
  · rw [if_pos hcapped]
  · simp [htail]
  · have hnone : (values parse log).foldlM (follow agent) none = none :=
      foldlM_follow_eq_none.mpr ⟨value, List.mem_of_mem_filter hvalue, husage, htotal⟩
    rw [hnone]
    split
    · rfl
    · split <;> rfl

theorem Unreadable.congr {log' : LogTail} (h : Unreadable parse agent log) (hsame : SameMain parse log log') :
    Unreadable parse agent log' := by
  unfold Unreadable
  rw [hsame.1, hsame.2.1, hsame.2.2]
  exact h

/-! ## A subagent's record -/

/-- A usage record of a subagent, and the line that it is read from. -/
def sideRecord (agent : AgentKind) (tokens : String) : Json :=
  match agent with
  | .codex =>
    .object [("isSidechain", .bool true), ("payload", .object [("info", .object [("last_token_usage",
      .object [("input_tokens", .number tokens)])]), ("type", .string "token_count")]), ("type", .string "event_msg")]
  | _ =>
    .object [("isSidechain", .bool true), ("message", .object [("usage", .object [("cache_creation_input_tokens",
      .number "0"), ("cache_read_input_tokens", .number "0"), ("input_tokens", .number tokens)])]),
      ("type", .string "assistant")]

def sideText (agent : AgentKind) (tokens : String) : String :=
  match agent with
  | .codex =>
    "\x7b\"isSidechain\":true,\"type\":\"event_msg\",\"payload\":\x7b\"type\":\"token_count\"," ++
      "\"info\":\x7b\"last_token_usage\":\x7b\"input_tokens\":" ++ tokens ++ "\x7d\x7d\x7d\x7d"
  | _ =>
    "\x7b\"isSidechain\":true,\"type\":\"assistant\",\"message\":\x7b\"usage\":\x7b\"input_tokens\":" ++ tokens ++
      ",\"cache_creation_input_tokens\":0,\"cache_read_input_tokens\":0\x7d\x7d\x7d"

def sideLine (agent : AgentKind) (tokens : String) : List UInt8 :=
  (sideText agent tokens).toList.map fun c => c.toNat.toUInt8

/-- The main conversation's lines alone, and one of a subagent. -/
def withSide (parse : List UInt8 → Option Json) (agent : AgentKind) (log : LogTail) (tokens : String) : LogTail where
  bytes := [10].intercalate (((lines log).filter fun line => (parse line).any fun value => !isSidechain value) ++
    [sideLine agent tokens])
  startsMidLine := log.startsMidLine
  readCapped := log.readCapped

theorem filterMap_filter_any {α β : Type} {f : α → Option β} {p : β → Bool} (l : List α) :
    (l.filter fun a => (f a).any p).filterMap f = (l.filterMap f).filter p := by
  induction l with
  | nil => rfl
  | cons a l ih =>
    cases hf : f a with
    | none => rw [List.filter_cons_of_neg (by simp [hf]), List.filterMap_cons_none hf, ih]
    | some b =>
      rw [List.filterMap_cons_some hf]
      by_cases hp : p b = true
      · rw [List.filter_cons_of_pos (by simp [hf, hp]), List.filterMap_cons_some hf, List.filter_cons_of_pos hp, ih]
      · rw [List.filter_cons_of_neg (by simp [hf, hp]), List.filter_cons_of_neg hp, ih]

theorem lines_withSide {tokens : String} (hnewline : 10 ∉ sideLine agent tokens) (hempty : (sideLine agent tokens).isEmpty = false) :
    lines (withSide parse agent log tokens) =
      ((lines log).filter fun line => (parse line).any fun value => !isSidechain value) ++ [sideLine agent tokens] := by
  have hlines {line : List UInt8} (hline : line ∈ (lines log).filter fun line =>
      (parse line).any fun value => !isSidechain value) : 10 ∉ line ∧ line.isEmpty = false := by
    have hmem := List.mem_filter.mp (List.mem_of_mem_filter hline)
    exact ⟨Text.not_mem_of_mem_splitOn hmem.1, by simpa using hmem.2⟩
  unfold lines withSide
  dsimp only
  rw [List.splitOn_intercalate, List.filter_eq_self.mpr]
  · rfl
  · intro line hline
    rcases List.mem_append.mp hline with hline | hline
    · simp [(hlines hline).2]
    · simp [List.mem_singleton.mp hline, hempty]
  · intro line hline
    rcases List.mem_append.mp hline with hline | hline
    · exact (hlines hline).1
    · exact List.mem_singleton.mp hline ▸ hnewline
  · simp

/-- A subagent's usage record at the end is taken for the main conversation's. -/
theorem nativeContext_withSide {text : String} (hagent : agent ≠ .other) (hnewline : 10 ∉ sideLine agent text)
    (hempty : (sideLine agent text).isEmpty = false) (hparse : parse (sideLine agent text) = some (sideRecord agent text))
    (hside : isSidechain (sideRecord agent text) = true) (husage : isUsage agent (sideRecord agent text) = true)
    (htotal : total agent (sideRecord agent text) = some tokens) (h : ¬ Unreadable parse agent log) :
    SameMain parse log (withSide parse agent log text) ∧
      nativeContext parse agent (withSide parse agent log text) = some (tokens, false) := by
  have hcapped : log.readCapped = false := Bool.eq_false_iff.mpr fun hcapped => h (.inl hcapped)
  have htail : tailParses parse log = true := by
    cases hparses : tailParses parse log with
    | true => rfl
    | false => exact absurd (.inr (.inl hparses)) h
  have hlines : lines (withSide parse agent log text) =
      ((lines log).filter fun line => (parse line).any fun value => !isSidechain value) ++ [sideLine agent text] :=
    lines_withSide hnewline hempty
  have hvalues : values parse (withSide parse agent log text) = mainValues parse log ++ [sideRecord agent text] := by
    unfold values mainValues
    rw [hlines, List.filterMap_append, filterMap_filter_any, List.filterMap_cons_some hparse]
    rfl
  have htail' : tailParses parse (withSide parse agent log text) = true := by
    unfold tailParses
    rw [hlines, List.getLast?_append, List.getLast?_singleton]
    simp [hparse]
  have hmain : mainValues parse (withSide parse agent log text) = mainValues parse log := by
    have hkept : (mainValues parse log).filter (fun value => !isSidechain value) = mainValues parse log := by
      unfold mainValues
      rw [List.filter_filter]
      simp
    unfold mainValues at hkept ⊢
    rw [hvalues, List.filter_append]
    unfold mainValues
    rw [hkept, List.filter_cons_of_neg (by simp [hside])]
    simp
  refine ⟨⟨rfl, htail'.trans htail.symm, hmain⟩, ?_⟩
  rw [nativeContext_eq hagent, if_neg (by simp [withSide, hcapped]), if_pos htail', hvalues, List.foldlM_append]
  cases hfold : (mainValues parse log).foldlM (follow agent) none with
  | none =>
    obtain ⟨value, hvalue, hrecord, hincomplete⟩ := foldlM_follow_eq_none.mp hfold
    exact absurd (.inr (.inr ⟨value, hvalue, hrecord, hincomplete⟩)) h
  | some held => simp [follow, husage, htotal]

private def parseSides (line : List UInt8) : Option Json :=
  if line = sideLine .claude "0" then some (sideRecord .claude "0")
  else if line = sideLine .claude "1" then some (sideRecord .claude "1")
  else none

private def emptyLog : LogTail := ⟨[], false, false⟩

end Atmux.Transcript
