/-
Automatic context compaction: the policy for one observed pane, the marker
that claims a threshold episode, and the episodes over any sequence of polls
of one pane.

The pane has one marker slot for every native session that ever runs in it.
A session's own marker suppresses its next compaction until that session is
seen at or below the threshold; but a poll of another session clears the
marker or writes its own over it. `one_compact_per_episode_iff`: every claim
outlasts its episode exactly in the runs where no poll does that.
-/
import Mathlib.Algebra.Group.Nat.Defs
import Atmux.Lib.Text
import Atmux.Session

namespace Atmux

open Lib

structure AutoCompactConfig where
  enabled : Bool
  inactivityMinutes : UInt64
  inputTokens : UInt64
deriving DecidableEq, Repr

/-- Context usage of the native log a pane provably owns. -/
structure NativeContext where
  sessionFingerprint : String
  inputTokens : UInt64
  /-- A compact record exists after the latest usage record. -/
  resetPending : Bool
deriving DecidableEq, Repr

namespace AutoCompact

inductive Decision
  | skip
  | clearMarker
  | compact (marker : String)
deriving DecidableEq, Repr

/-! ## Markers -/

def markerVersion : String := "ac1"

structure Marker where
  sessionFingerprint : String
  inputTokens : Nat
  actedAt : Nat
deriving DecidableEq, Repr

def encodeMarker (fingerprint : String) (inputTokens actedAt : UInt64) : String :=
  markerVersion ++ ":" ++ fingerprint ++ ":" ++ toString inputTokens.toNat ++ ":" ++ toString actedAt.toNat

def isHexDigit (c : Char) : Bool := c.isDigit || ('a' ≤ c && c ≤ 'f') || ('A' ≤ c && c ≤ 'F')

/-- What `parse_marker` asks of a fingerprint. -/
def validFingerprint (fingerprint : String) : Bool :=
  fingerprint.utf8ByteSize == 64 && fingerprint.toList.all isHexDigit

def parseMarker (value : String) : Option Marker :=
  match Text.split ':' value.toList with
  | [version, fingerprint, inputTokens, actedAt] =>
    match Text.parseUnsigned (2 ^ 64) inputTokens, Text.parseUnsigned (2 ^ 64) actedAt with
    | some inputTokens, some actedAt =>
      if String.ofList version != markerVersion || !validFingerprint (String.ofList fingerprint) then none
      else some { sessionFingerprint := String.ofList fingerprint, inputTokens, actedAt }
    | _, _ => none
  | _ => none

/-! ## The policy -/

def checkedMul (a b : UInt64) : Option Nat :=
  if a.toNat * b.toNat < 2 ^ 64 then some (a.toNat * b.toNat) else none

/-- A pane that has been waiting for longer than the policy's inactivity. -/
def inactive (policy : AutoCompactConfig) (now : UInt64) (session : Session) : Bool :=
  policy.enabled && session.status == .waiting && (session.agent == .claude || session.agent == .codex)
    && session.activity != 0 && session.activity ≤ now.toNat
    && (checkedMul policy.inactivityMinutes 60).any fun seconds => seconds < now.toNat - session.activity

/-- Evaluates one freshly observed local pane. -/
def decide (policy : AutoCompactConfig) (now : UInt64) (session : Session) (context : NativeContext)
    (existing : Option String) : Decision :=
  let fresh := .compact (encodeMarker context.sessionFingerprint context.inputTokens now)
  if !inactive policy now session then .skip
  else
    match existing with
    | none =>
      if context.inputTokens ≤ policy.inputTokens then .skip
      else if context.resetPending then .skip
      else fresh
    | some existing =>
      match parseMarker existing with
      -- Unknown pane metadata is not ours to overwrite.
      | none => .skip
      | some marker =>
        if marker.sessionFingerprint == context.sessionFingerprint then
          if context.inputTokens ≤ policy.inputTokens then .clearMarker else .skip
        else if context.inputTokens ≤ policy.inputTokens then .clearMarker
        else if context.resetPending then .skip
        else fresh

/-! ## Polls of one pane -/

structure Poll where
  now : UInt64
  session : Session
  context : NativeContext
deriving DecidableEq

/-- The poll's session is at or below the threshold. -/
def Poll.low (policy : AutoCompactConfig) (poll : Poll) : Bool := poll.context.inputTokens ≤ policy.inputTokens

structure Event where
  poll : Poll
  decision : Decision
deriving DecidableEq

/-- The marker slot after a decision. -/
def store (marker : Option String) : Decision → Option String
  | .skip => marker
  | .clearMarker => none
  | .compact marker => some marker

/-- The decision of each poll in order, from the marker the pane holds. -/
def history (policy : AutoCompactConfig) : Option String → List Poll → List Event
  | _, [] => []
  | marker, poll :: polls =>
    let decision := decide policy poll.now poll.session poll.context marker
    ⟨poll, decision⟩ :: history policy (store marker decision) polls

/-! ## Reading a marker back -/

theorem encodeMarker_toList (fingerprint : String) (inputTokens actedAt : UInt64) :
    (encodeMarker fingerprint inputTokens actedAt).toList = markerVersion.toList ++ ':' :: (fingerprint.toList ++
      ':' :: ((toString inputTokens.toNat).toList ++ ':' :: (toString actedAt.toNat).toList)) := by
  have hcolon : ":".toList = [':'] := rfl
  simp only [encodeMarker, String.toList_append, hcolon, List.append_assoc, List.cons_append, List.nil_append]

theorem split_markerVersion : Text.split ':' markerVersion.toList = [markerVersion.toList] :=
  Text.split_eq_singleton (by decide)

/-- A written marker names the session that wrote it, if it reads back at all. -/
theorem parseMarker_encodeMarker {fingerprint : String} {inputTokens actedAt : UInt64} {marker : Marker}
    (h : parseMarker (encodeMarker fingerprint inputTokens actedAt) = some marker) :
    marker.sessionFingerprint = fingerprint := by
  have hnumber : ∀ n : Nat, ':' ∉ (toString n).toList := fun n hmem =>
    absurd (Text.isDigit_toString hmem) (by decide)
  unfold parseMarker at h
  rw [encodeMarker_toList, Text.split_append, split_markerVersion, Text.split_append, Text.split_append,
    Text.split_eq_singleton (hnumber _), Text.split_eq_singleton (hnumber _)] at h
  split at h
  next version field tokens acted heq =>
    -- four fields, so the fingerprint is one of them
    simp only [List.singleton_append, List.cons.injEq] at heq
    have hone : Text.split ':' fingerprint.toList = [field] := by
      rcases hs : Text.split ':' fingerprint.toList with _ | ⟨first, _ | ⟨second, rest⟩⟩
      · exact absurd hs Text.split_ne_nil
      · rw [hs] at heq
        simp only [List.singleton_append, List.cons.injEq] at heq
        rw [heq.2.1]
      · rw [hs] at heq
        have hlength := congrArg List.length heq.2
        simp at hlength
    split at h
    · split at h
      · cases h
      · obtain rfl := Option.some.inj h
        rw [← Text.eq_of_split_eq_singleton hone, String.ofList_toList]
    · cases h
  next => cases h

theorem parseMarker_encodeMarker_of_valid {fingerprint : String} (inputTokens actedAt : UInt64)
    (h : validFingerprint fingerprint = true) :
    parseMarker (encodeMarker fingerprint inputTokens actedAt) =
      some ⟨fingerprint, inputTokens.toNat, actedAt.toNat⟩ := by
  have hnumber : ∀ n : Nat, ':' ∉ (toString n).toList := fun n hmem =>
    absurd (Text.isDigit_toString hmem) (by decide)
  have hfield : ':' ∉ fingerprint.toList := by
    simp only [validFingerprint, Bool.and_eq_true, List.all_eq_true] at h
    exact fun hmem => absurd (h.2 _ hmem) (by decide)
  unfold parseMarker
  rw [encodeMarker_toList, Text.split_append, split_markerVersion, Text.split_append, Text.split_append,
    Text.split_eq_singleton hfield, Text.split_eq_singleton (hnumber _), Text.split_eq_singleton (hnumber _)]
  simp only [List.singleton_append]
  rw [Text.parseUnsigned_toString inputTokens.toNat_lt, Text.parseUnsigned_toString actedAt.toNat_lt]
  simp [h]

/-! ## What one poll decides -/

variable {policy : AutoCompactConfig} {now : UInt64} {session : Session} {context : NativeContext}
  {existing : Option String} {marker : String}

/-- The decisions, and what each says of the poll and of the marker it found. -/
theorem decide_cases (policy : AutoCompactConfig) (now : UInt64) (session : Session) (context : NativeContext)
    (existing : Option String) :
    decide policy now session context existing = .skip ∨
      (decide policy now session context existing = .clearMarker ∧ inactive policy now session = true ∧
        context.inputTokens ≤ policy.inputTokens ∧
          ∃ found claim, existing = some found ∧ parseMarker found = some claim) ∨
      decide policy now session context existing =
          .compact (encodeMarker context.sessionFingerprint context.inputTokens now) ∧
        inactive policy now session = true ∧ ¬ context.inputTokens ≤ policy.inputTokens ∧
          context.resetPending = false ∧
            (existing = none ∨ ∃ found claim, existing = some found ∧ parseMarker found = some claim ∧
              claim.sessionFingerprint ≠ context.sessionFingerprint) := by
  unfold decide
  split
  · exact .inl rfl
  next hinactive =>
  simp only [Bool.not_eq_true', Bool.not_eq_false] at hinactive
  split
  next =>
    split
    · exact .inl rfl
    next hhigh =>
    split
    · exact .inl rfl
    next hreset => exact .inr (.inr ⟨rfl, hinactive, hhigh, by simpa using hreset, .inl rfl⟩)
  next found =>
    split
    · exact .inl rfl
    next claim hclaim =>
    split
    · split
      next hlow => exact .inr (.inl ⟨rfl, hinactive, hlow, found, claim, rfl, hclaim⟩)
      · exact .inl rfl
    next hother =>
    split
    next hlow => exact .inr (.inl ⟨rfl, hinactive, hlow, found, claim, rfl, hclaim⟩)
    next hhigh =>
    split
    · exact .inl rfl
    next hreset =>
      exact .inr (.inr ⟨rfl, hinactive, hhigh, by simpa using hreset, .inr ⟨found, claim, rfl, hclaim, by simpa using hother⟩⟩)

/-- Over another session's marker, only a pending reset holds a high poll back. -/
theorem decide_other {found : String} {claim : Marker} (hclaim : parseMarker found = some claim)
    (hother : claim.sessionFingerprint ≠ context.sessionFingerprint) (hinactive : inactive policy now session = true)
    (hskip : decide policy now session context (some found) = .skip) :
    ¬ context.inputTokens ≤ policy.inputTokens ∧ context.resetPending = true := by
  simp only [decide, hinactive, hclaim, Bool.not_true, Bool.false_eq_true, if_false, beq_iff_eq, hother] at hskip
  split at hskip
  · cases hskip
  next hhigh =>
  split at hskip
  next hreset => exact ⟨hhigh, hreset⟩
  · cases hskip

/-! ## Episodes -/

/-- Between two compactions of a session it is seen at or below the threshold. -/
def OnePerEpisode (policy : AutoCompactConfig) (events : List Event) : Prop :=
  ∀ before first between second after m m',
    events = before ++ ⟨first, .compact m⟩ :: (between ++ ⟨second, .compact m'⟩ :: after) →
      first.context.sessionFingerprint = second.context.sessionFingerprint →
        ∃ event ∈ between, event.poll.context.sessionFingerprint = first.context.sessionFingerprint ∧
          event.poll.low policy = true

/-- A claim is cleared or replaced only once its session was seen at or below
the threshold. -/
def ClaimsKept (policy : AutoCompactConfig) (events : List Event) : Prop :=
  ∀ before first between last after m,
    events = before ++ ⟨first, .compact m⟩ :: (between ++ last :: after) →
      (∀ event ∈ between, event.decision = .skip) → last.decision ≠ .skip →
        ∃ event ∈ between ++ [last], event.poll.context.sessionFingerprint = first.context.sessionFingerprint ∧
          event.poll.low policy = true

/-- The marker slot of the pane and, as ghost state, whether the session it
names was seen at or below the threshold since. -/
structure Slot where
  marker : Option String
  dropped : Bool

/-- Whether the slot's marker names the session of a poll. -/
def Slot.names (slot : Slot) (poll : Poll) : Bool :=
  (slot.marker.bind parseMarker).any fun claim => claim.sessionFingerprint == poll.context.sessionFingerprint

def Slot.next (policy : AutoCompactConfig) (slot : Slot) (poll : Poll) : Slot :=
  match decide policy poll.now poll.session poll.context slot.marker with
  | .skip => ⟨slot.marker, slot.dropped || (slot.names poll && poll.low policy)⟩
  | .clearMarker => ⟨none, false⟩
  | .compact marker => ⟨some marker, false⟩

/-- A poll of an inactive pane that finds another session's claim, whose
session has not dropped, is over the threshold with a reset pending. -/
def Undisturbing (policy : AutoCompactConfig) (slot : Slot) (poll : Poll) : Prop :=
  ∀ found claim, slot.marker = some found → parseMarker found = some claim →
    claim.sessionFingerprint ≠ poll.context.sessionFingerprint → inactive policy poll.now poll.session = true →
      slot.dropped = false → poll.low policy = false ∧ poll.context.resetPending = true

/-- Every poll of the sequence is. -/
def Undisturbed (policy : AutoCompactConfig) : Slot → List Poll → Prop
  | _, [] => True
  | slot, poll :: polls => Undisturbing policy slot poll ∧ Undisturbed policy (slot.next policy poll) polls

theorem Slot.next_marker (slot : Slot) (poll : Poll) : (slot.next policy poll).marker =
    store slot.marker (decide policy poll.now poll.session poll.context slot.marker) := by
  unfold Slot.next
  split <;> simp_all [store]

theorem Undisturbed.append {slot : Slot} {polls rest : List Poll} :
    Undisturbed policy slot (polls ++ rest) ↔
      Undisturbed policy slot polls ∧ Undisturbed policy (polls.foldl (Slot.next policy) slot) rest := by
  induction polls generalizing slot with
  | nil => simp [Undisturbed]
  | cons poll polls ih => simp only [List.cons_append, Undisturbed, List.foldl_cons, ih, and_assoc]

theorem history_append (slot : Slot) (polls rest : List Poll) : history policy slot.marker (polls ++ rest) =
    history policy slot.marker polls ++ history policy (polls.foldl (Slot.next policy) slot).marker rest := by
  induction polls generalizing slot with
  | nil => rfl
  | cons poll polls ih => rw [List.cons_append, history, history, ← Slot.next_marker, ih, List.foldl_cons, List.cons_append]

theorem history_polls (marker : Option String) (polls : List Poll) :
    (history policy marker polls).map Event.poll = polls := by
  induction polls generalizing marker with
  | nil => rfl
  | cons poll polls ih => rw [history, List.map_cons, ih]

/-- An event of a history is the decision of its poll on the slot it found. -/
theorem history_split (slot : Slot) {polls : List Poll} {before after : List Event} {event : Event}
    (h : history policy slot.marker polls = before ++ event :: after) :
    ∃ ps qs, polls = ps ++ event.poll :: qs ∧ before = history policy slot.marker ps ∧
      event.decision = decide policy event.poll.now event.poll.session event.poll.context
        (ps.foldl (Slot.next policy) slot).marker ∧
      after = history policy ((ps ++ [event.poll]).foldl (Slot.next policy) slot).marker qs := by
  induction before generalizing slot polls with
  | nil =>
    cases polls with
    | nil => simp [history] at h
    | cons poll polls =>
      obtain ⟨rfl, rfl⟩ := List.cons.inj h
      exact ⟨[], polls, rfl, rfl, rfl, by rw [← Slot.next_marker]; rfl⟩
  | cons first before ih =>
    cases polls with
    | nil => simp [history] at h
    | cons poll polls =>
      obtain ⟨rfl, hrest⟩ := List.cons.inj h
      rw [← Slot.next_marker] at hrest
      obtain ⟨ps, qs, rfl, rfl, hdecision, rfl⟩ := ih _ hrest
      exact ⟨poll :: ps, qs, rfl, by rw [history, ← Slot.next_marker], hdecision, rfl⟩

/-- While its session does not drop, a claim keeps every later poll from acting. -/
theorem claim_stands {found fingerprint : String} (hfound : ∀ {claim}, parseMarker found = some claim →
      claim.sessionFingerprint = fingerprint) {polls : List Poll}
    (hu : Undisturbed policy ⟨some found, false⟩ polls)
    (hhigh : ∀ poll ∈ polls, poll.context.sessionFingerprint = fingerprint → poll.low policy = false) :
    ∀ event ∈ history policy (some found) polls, event.decision = .skip := by
  induction polls with
  | nil => simp [history]
  | cons poll polls ih =>
    obtain ⟨hpoll, hrest⟩ := hu
    have hskip : decide policy poll.now poll.session poll.context (some found) = .skip := by
      rcases decide_cases policy poll.now poll.session poll.context (some found) with
        hskip | ⟨-, hinactive, hlow, f, claim, hf, hclaim⟩ | ⟨-, hinactive, hlow, hreset, hnone | ⟨f, claim, hf, hclaim, hother⟩⟩
      · exact hskip
      · cases hf
        have hlow : poll.low policy = true := by simpa [Poll.low] using hlow
        by_cases hown : poll.context.sessionFingerprint = fingerprint
        · rw [hhigh poll (by simp) hown] at hlow
          cases hlow
        · have hother : claim.sessionFingerprint ≠ poll.context.sessionFingerprint := fun heq =>
            hown (heq ▸ hfound hclaim)
          rw [(hpoll _ _ rfl hclaim hother hinactive rfl).1] at hlow
          cases hlow
      · cases hnone
      · cases hf
        rw [(hpoll _ _ rfl hclaim hother hinactive rfl).2] at hreset
        cases hreset
    have hnext : Slot.next policy ⟨some found, false⟩ poll = ⟨some found, false⟩ := by
      simp only [Slot.next, hskip, Bool.false_or, Slot.mk.injEq, true_and, Bool.and_eq_false_iff]
      by_cases hnames : Slot.names ⟨some found, false⟩ poll = true
      · refine .inr (hhigh poll (by simp) ?_)
        simp only [Slot.names, Option.bind_some, Option.any_eq_true, beq_iff_eq] at hnames
        obtain ⟨claim, hclaim, heq⟩ := hnames
        exact heq ▸ hfound hclaim
      · exact .inl (by simpa using hnames)
    rw [hnext] at hrest
    simp only [history, hskip, store, List.mem_cons, forall_eq_or_imp, true_and]
    exact ih hrest fun p hp => hhigh p (by simp [hp])

/-- After a compaction, the polls up to another acting one saw the session drop. -/
theorem drop_between {polls : List Poll} (hu : Undisturbed policy ⟨none, false⟩ polls) {before between after : List Event}
    {first : Poll} {last : Event} {m : String}
    (h : history policy none polls = before ++ ⟨first, .compact m⟩ :: (between ++ last :: after))
    (hlast : last.decision ≠ .skip) :
    ∃ event ∈ between ++ [last], event.poll.context.sessionFingerprint = first.context.sessionFingerprint ∧
      event.poll.low policy = true := by
  obtain ⟨ps, qs, rfl, -, hcompact, hrest⟩ := history_split ⟨none, false⟩ h
  simp only at hcompact
  have hslot : (ps ++ [first]).foldl (Slot.next policy) ⟨none, false⟩ = ⟨some m, false⟩ := by
    rw [List.foldl_append, List.foldl_cons, List.foldl_nil, Slot.next, ← hcompact]
  have hfound : ∀ {claim}, parseMarker m = some claim →
      claim.sessionFingerprint = first.context.sessionFingerprint := by
    intro claim hclaim
    rcases decide_cases policy first.now first.session first.context
        (ps.foldl (Slot.next policy) ⟨none, false⟩).marker with hd | ⟨hd, -⟩ | ⟨hd, -⟩
    · rw [hd] at hcompact; cases hcompact
    · rw [hd] at hcompact; cases hcompact
    · rw [hd] at hcompact
      cases hcompact
      exact parseMarker_encodeMarker hclaim
  rw [hslot] at hrest
  obtain ⟨rs, ts, rfl, hbetween, hdecision, -⟩ := history_split ⟨some m, false⟩ hrest.symm
  have hu' : Undisturbed policy ⟨some m, false⟩ (rs ++ [last.poll]) := by
    have hall : ps ++ first :: (rs ++ last.poll :: ts) = (ps ++ [first]) ++ ((rs ++ [last.poll]) ++ ts) := by simp
    rw [hall] at hu
    exact (Undisturbed.append.mp (hslot ▸ (Undisturbed.append.mp hu).2)).1
  have hevents : history policy (some m) (rs ++ [last.poll]) = between ++ [last] := by
    rw [history_append ⟨some m, false⟩, ← hbetween, history, ← hdecision, history]
  by_contra hno
  push Not at hno
  have hskips := claim_stands hfound hu' fun poll hpoll hown => by
    have hmem : ∃ event ∈ between ++ [last], event.poll = poll := by
      rw [← history_polls (some m) (rs ++ [last.poll]), hevents] at hpoll
      exact List.mem_map.mp hpoll
    obtain ⟨event, hevent, rfl⟩ := hmem
    simpa using hno event hevent hown
  rw [hevents] at hskips
  exact hlast (hskips last (by simp))

/-- What a history says of the slot it leaves: a claim that reads back was
made by one of its events, and only skips follow it. -/
def Standing (policy : AutoCompactConfig) (past : List Event) (slot : Slot) : Prop :=
  ∀ found claim, slot.marker = some found → parseMarker found = some claim →
    ∃ before first between, past = before ++ ⟨first, .compact found⟩ :: between ∧
      claim.sessionFingerprint = first.context.sessionFingerprint ∧
        (∀ event ∈ between, event.decision = .skip) ∧
          (slot.dropped = false → ∀ event ∈ between,
            event.poll.context.sessionFingerprint = claim.sessionFingerprint → event.poll.low policy = false)

theorem Standing.next {past : List Event} {slot : Slot} (h : Standing policy past slot) (poll : Poll) :
    Standing policy (past ++ [⟨poll, decide policy poll.now poll.session poll.context slot.marker⟩])
      (slot.next policy poll) := by
  intro found claim hfound hclaim
  rcases decide_cases policy poll.now poll.session poll.context slot.marker with hd | ⟨hd, -⟩ | ⟨hd, -⟩
  · simp only [Slot.next, hd] at hfound ⊢
    obtain ⟨before, first, between, rfl, hown, hskips, hhigh⟩ := h found claim hfound hclaim
    refine ⟨before, first, between ++ [⟨poll, .skip⟩], by simp, hown, fun event hevent => ?_, fun hd event hevent => ?_⟩
    · rcases List.mem_append.mp hevent with hevent | hevent
      · exact hskips event hevent
      · rw [List.mem_singleton.mp hevent]
    · simp only [Bool.or_eq_false_iff, Bool.and_eq_false_iff] at hd
      rcases List.mem_append.mp hevent with hevent | hevent
      · exact hhigh hd.1 event hevent
      · rw [List.mem_singleton.mp hevent]
        intro heq
        have hnames : slot.names poll = true := by simp [Slot.names, hfound, hclaim, heq.symm]
        simpa [hnames] using hd.2
  · simp only [Slot.next, hd] at hfound
    cases hfound
  · simp only [Slot.next, hd, Option.some.injEq] at hfound ⊢
    subst hfound
    exact ⟨past, poll, [], rfl, parseMarker_encodeMarker hclaim, by simp, by simp⟩

theorem undisturbed_of_claimsKept {past : List Event} {slot : Slot} {polls : List Poll}
    (hs : Standing policy past slot) (hk : ClaimsKept policy (past ++ history policy slot.marker polls)) :
    Undisturbed policy slot polls := by
  induction polls generalizing past slot with
  | nil => trivial
  | cons poll polls ih =>
    refine ⟨fun found claim hfound hclaim hother hinactive hdropped => ?_, ?_⟩
    · by_contra hacts
      have hact : decide policy poll.now poll.session poll.context slot.marker ≠ .skip := fun hskip => by
        rw [hfound] at hskip
        exact hacts (by simpa [Poll.low] using decide_other hclaim hother hinactive hskip)
      obtain ⟨before, first, between, rfl, hown, hskips, hhigh⟩ := hs found claim hfound hclaim
      obtain ⟨event, hevent, heq, hlow⟩ := hk before first between
        ⟨poll, decide policy poll.now poll.session poll.context slot.marker⟩ _ found
        (by rw [history, List.append_assoc, List.cons_append]) hskips hact
      rcases List.mem_append.mp hevent with hevent | hevent
      · rw [hhigh hdropped event hevent (heq.trans hown.symm)] at hlow
        cases hlow
      · rw [List.mem_singleton.mp hevent] at heq
        exact hother (hown.trans heq.symm)
    · refine ih (hs.next poll) ?_
      rw [Slot.next_marker, List.append_assoc]
      exact hk

/-- **When a threshold episode is compacted once.** Over any polls of a pane
that starts without a claim, every claim outlasts its episode, and so no
session is compacted twice without a drop in between, exactly when no poll
disturbs the claim of another session. -/
theorem one_compact_per_episode_iff (policy : AutoCompactConfig) (polls : List Poll) :
    OnePerEpisode policy (history policy none polls) ∧ ClaimsKept policy (history policy none polls) ↔
      Undisturbed policy ⟨none, false⟩ polls := by
  constructor
  · rintro ⟨-, hk⟩
    have hs : Standing policy [] ⟨none, false⟩ := fun _ _ hfound => by cases hfound
    exact undisturbed_of_claimsKept hs hk
  · intro hu
    refine ⟨fun before first between second after m m' h hsame => ?_, fun before first between last after m h _ hact =>
      drop_between hu h hact⟩
    obtain ⟨event, hevent, hown, hlow⟩ := drop_between hu h (by simp)
    rcases List.mem_append.mp hevent with hevent | hevent
    · exact ⟨event, hevent, hown, hlow⟩
    · -- the second compaction itself is over the threshold
      rw [List.mem_singleton.mp hevent] at hlow
      have hsecond : history policy none polls = (before ++ ⟨first, .compact m⟩ :: between) ++
          ⟨second, .compact m'⟩ :: after := by rw [h]; simp
      obtain ⟨ps, qs, -, -, hcompact, -⟩ := history_split ⟨none, false⟩ hsecond
      rcases decide_cases policy second.now second.session second.context
          (ps.foldl (Slot.next policy) ⟨none, false⟩).marker with hd | ⟨hd, -⟩ | ⟨-, -, hhigh, -⟩
      · rw [hd] at hcompact; cases hcompact
      · rw [hd] at hcompact; cases hcompact
      · simp only [Poll.low, decide_eq_true_eq] at hlow
        exact absurd hlow hhigh

/-- A poll of a Claude pane that has been waiting since second 1. -/
def waitingPoll (fingerprint : Char) (now inputTokens : UInt64) : Poll where
  now := now
  session := ⟨"main", false, 1, 1, 0, 0, "%1", 7, "v1", none, none, "/", "claude", "", "", "", 0, .claude, "", none,
    none, none, .waiting⟩
  context := ⟨String.ofList (List.replicate 64 fingerprint), inputTokens, false⟩

/-- Conversation `a` is compacted, a short conversation `b` is shown, and `a`
is compacted again at the same size. -/
theorem compacts_twice_across_switch :
    let policy : AutoCompactConfig := ⟨true, 15, 200000⟩
    ¬ OnePerEpisode policy (history policy none
      [waitingPoll 'a' 1000 300000, waitingPoll 'b' 1030 5000, waitingPoll 'a' 1060 300000]) := by
  intro policy hone
  have hclaimed : history policy none
      [waitingPoll 'a' 1000 300000, waitingPoll 'b' 1030 5000, waitingPoll 'a' 1060 300000] =
      [⟨waitingPoll 'a' 1000 300000, .compact (encodeMarker (String.ofList (List.replicate 64 'a')) 300000 1000)⟩,
        ⟨waitingPoll 'b' 1030 5000, .clearMarker⟩,
        ⟨waitingPoll 'a' 1060 300000, .compact (encodeMarker (String.ofList (List.replicate 64 'a')) 300000 1060)⟩] := by
    decide +kernel
  obtain ⟨event, hevent, hown, -⟩ := hone [] _ [_] _ [] _ _ hclaimed rfl
  rw [List.mem_singleton.mp hevent] at hown
  exact absurd hown (by decide)

end AutoCompact

end Atmux
