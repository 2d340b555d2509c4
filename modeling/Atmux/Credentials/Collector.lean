/-
What one process remembers of the credentials that it polls with.

A poll starts with the tokens that are remembered for its profile unless the
store holds others, and a refresh is remembered whatever became of it. What is
remembered as stored is what the grant returned, so a store that still holds
what was exchanged for it looks newer, and the next poll goes back to it.
`rotated_kept` says when that does no harm: exactly when no poll reads what an
unpersisted grant replaced.
-/
import Atmux.Credentials.Store
import Atmux.Lib.Runs
import Mathlib.Logic.Function.Basic

namespace Atmux.Credentials

open Lib Pulse

/-! ## The collector of one poll -/

inductive ClaudeRequestKind
  | usage
  | inference
deriving DecidableEq, Repr

structure ClaudeResponse where
  status : Nat
  headers : List (String × String)
  body : List UInt8

/-- What the provider's answers are read as. -/
structure ClaudeReadings (Reading : Type) where
  parseUsageResponse : List UInt8 → PulseResult Reading
  parseInferenceHeaders : List (String × String) → PulseResult Reading

/-- The next action required by the pure collector state machine. -/
inductive ClaudeAction (Reading : Type)
  | request (kind : ClaudeRequestKind) (delaySeconds : Nat) (authorization : SecretString)
  | refreshRequired
  | complete (reading : Reading)
  | failed (error : PulseError)

structure ClaudeCollector where
  tokens : ClaudeOauthTokens
  inferenceFallback : Bool
  retryIndex : Nat
  refreshAttempted : Bool
  pending : Option ClaudeRequestKind
  finished : Bool

def maxResponseBytes : Nat := 1024 * 1024
def retryDelays : List Nat := [2, 5]

namespace ClaudeCollector

variable {Reading : Type} (readings : ClaudeReadings Reading)

def new (tokens : ClaudeOauthTokens) (inferenceFallback : Bool) : ClaudeCollector :=
  ⟨tokens, inferenceFallback, 0, false, none, false⟩

def stateError (message : String) : ClaudeAction Reading := .failed ⟨.conflict, message⟩

def request (collector : ClaudeCollector) (kind : ClaudeRequestKind) (delaySeconds : Nat) :
    ClaudeAction Reading × ClaudeCollector :=
  (.request kind delaySeconds collector.tokens.accessToken, { collector with pending := some kind })

def fail (collector : ClaudeCollector) (error : PulseError) : ClaudeAction Reading × ClaudeCollector :=
  (.failed error, { collector with finished := true })

def complete (collector : ClaudeCollector) (reading : Reading) : ClaudeAction Reading × ClaudeCollector :=
  (.complete reading, { collector with finished := true })

def start (collector : ClaudeCollector) : ClaudeAction Reading × ClaudeCollector :=
  if collector.finished || collector.pending.isSome then
    (stateError "anthropic collector is not ready to start", collector)
  else if collector.tokens.hasScope "user:profile" then collector.request .usage 0
  else if collector.inferenceFallback && collector.tokens.hasScope "user:inference" then collector.request .inference 0
  else collector.fail ⟨.authentication, "anthropic credential lacks a required usage scope"⟩

def fallbackOrFail (collector : ClaudeCollector) (error : PulseError) : ClaudeAction Reading × ClaudeCollector :=
  if collector.inferenceFallback && collector.tokens.hasScope "user:inference" then collector.request .inference 0
  else collector.fail error

/-- What a usage response that is no success means, retried in vain. -/
def usageError (status : Nat) : PulseError :=
  if status = 401 ∨ status = 403 then ⟨.authentication, "anthropic usage authentication was rejected"⟩
  else if status = 429 then ⟨.rateLimited, "anthropic usage is temporarily throttled"⟩
  else if 500 ≤ status then ⟨.upstream, "anthropic usage service is temporarily unavailable"⟩
  else ⟨.upstream, "anthropic usage request was rejected"⟩

def handleUsage (collector : ClaudeCollector) (response : ClaudeResponse) : ClaudeAction Reading × ClaudeCollector :=
  if 200 ≤ response.status ∧ response.status < 300 then
    match readings.parseUsageResponse response.body with
    | .ok reading => collector.complete reading
    | .error error => collector.fallbackOrFail error
  else if response.status = 401 ∧ !collector.refreshAttempted ∧ collector.tokens.canRefresh then
    (.refreshRequired, { collector with refreshAttempted := true })
  else match retryDelays[collector.retryIndex]? with
    | some delay =>
      if response.status = 429 ∨ 500 ≤ response.status then
        { collector with retryIndex := collector.retryIndex + 1 }.request .usage delay
      else collector.fallbackOrFail (usageError response.status)
    | none => collector.fallbackOrFail (usageError response.status)

def handleInference (collector : ClaudeCollector) (response : ClaudeResponse) : ClaudeAction Reading × ClaudeCollector :=
  match readings.parseInferenceHeaders response.headers with
  | .ok reading => collector.complete reading
  | .error error =>
    collector.fail (if response.status = 401 ∨ response.status = 403 then
      ⟨.authentication, "anthropic inference authentication was rejected"⟩ else error)

def handleResponse (collector : ClaudeCollector) (response : ClaudeResponse) : ClaudeAction Reading × ClaudeCollector :=
  match collector.pending with
  | none => (stateError "anthropic collector has no pending request", collector)
  | some kind =>
    let collector := { collector with pending := none }
    if collector.finished then (stateError "anthropic collector already finished", collector)
    else if maxResponseBytes < response.body.length then
      collector.fallbackOrFail ⟨.upstream, "anthropic response exceeded its size bound"⟩
    else match kind with
      | .usage => collector.handleUsage readings response
      | .inference => collector.handleInference readings response

/-- Resumes after the credential layer completed one forced refresh. -/
def resumeAfterRefresh (collector : ClaudeCollector) (refreshed : ClaudeOauthTokens) :
    ClaudeAction Reading × ClaudeCollector :=
  if collector.finished || collector.pending.isSome || !collector.refreshAttempted then
    (stateError "anthropic collector is not awaiting refresh", collector)
  else
    let collector := { collector with tokens := refreshed }
    if !collector.tokens.hasScope "user:profile" then
      collector.fallbackOrFail ⟨.authentication, "refreshed anthropic credential lacks the usage scope"⟩
    else collector.request .usage 0

end ClaudeCollector

/-! ## Refreshes and the memory of them -/

/-- What a refresh meets: whether the lock is taken, what the provider grants,
and whether the document is written and synchronized. -/
structure RefreshAnswer where
  policy : RefreshPolicy
  nowMillis : Int
  lock : PulseResult Unit
  grant : PulseResult RefreshGrant
  written : Bool
  synchronized : Bool

/-- What a refresh returns and leaves in the store, the token that it presented,
and the credential that a successful exchange replaced. -/
structure Refreshed where
  result : PulseResult RefreshResult
  store : PulseResult Json
  presented : Option SecretString
  replaced : Option ClaudeOauthTokens

/-- `cooperative_refresh_with`, forced, of a store that nobody else writes meanwhile. -/
def cooperativeRefresh (rejected : ClaudeOauthTokens) (store : PulseResult Json) (answer : RefreshAnswer) : Refreshed :=
  match answer.lock >>= fun _ => store with
  | .error error => ⟨.error error, store, none, none⟩
  | .ok document =>
    match decision answer.policy rejected true answer.nowMillis document with
    | .error error => ⟨.error error, store, none, none⟩
    | .ok (.adopt tokens) => ⟨.ok ⟨tokens, .adopted⟩, store, none, none⟩
    | .ok (.spend current refreshToken) =>
      match answer.grant with
      | .error error => ⟨.error error, store, some refreshToken, none⟩
      | .ok grant =>
        match current.granted grant with
        | .error error => ⟨.error error, store, some refreshToken, some current⟩
        | .ok tokens =>
          match updateDocumentTokens document grant, answer.written with
          | .ok document', true =>
            ⟨.ok ⟨tokens, if answer.synchronized then .grantedAndPersisted else .grantedUnpersisted⟩, .ok document',
              some refreshToken, some current⟩
          | _, _ => ⟨.ok ⟨tokens, .grantedUnpersisted⟩, store, some refreshToken, some current⟩

structure ClaudeProfileTokens where
  authoritative : ClaudeOauthTokens
  active : ClaudeOauthTokens

def maxProfileStateEntries : Nat := 1024

variable {Key Reading : Type} [LinearOrder Key]

/-- The active and the authoritative tokens of a poll, and what is remembered. -/
def prepareClaudeTokens (state : SortedMap Key ClaudeProfileTokens) (key : Key) (observed : ClaudeOauthTokens) :
    (ClaudeOauthTokens × ClaudeOauthTokens) × SortedMap Key ClaudeProfileTokens :=
  if maxProfileStateEntries ≤ state.size && !state.contains key then ((observed, observed), state)
  else
    let entry := (state.find? key).getD ⟨observed, observed⟩
    let entry := if entry.authoritative ≠ observed then ⟨observed, observed⟩ else entry
    ((entry.active, entry.authoritative), state.insert key entry)

def recordClaudeRefresh (state : SortedMap Key ClaudeProfileTokens) (key : Key) (refreshed : RefreshResult) :
    SortedMap Key ClaudeProfileTokens :=
  if maxProfileStateEntries ≤ state.size && !state.contains key then state
  else state.insert key ⟨refreshed.tokens, refreshed.tokens⟩

/-- `collect_claude` between two of its actions. -/
structure Poll (Reading : Type) where
  rejected : ClaudeOauthTokens
  collector : ClaudeCollector
  action : ClaudeAction Reading
  rounds : Nat

/-- A poll with its active and its authoritative tokens. -/
def Poll.opened (tokens : ClaudeOauthTokens × ClaudeOauthTokens) (inferenceFallback : Bool) : Poll Reading :=
  let started := (ClaudeCollector.new tokens.1 inferenceFallback).start
  ⟨tokens.2, started.2, started.1, 8⟩

inductive Answer
  | response (response : PulseResult ClaudeResponse)
  | refresh (answer : RefreshAnswer)

/-- The profiles of one process. -/
structure NativeCollectors (Key Reading : Type) [LinearOrder Key] where
  claudeTokens : SortedMap Key ClaudeProfileTokens
  store : Key → PulseResult Json
  polls : Key → Option (Poll Reading)
  /-- The refresh tokens that were exchanged. -/
  exchanged : Key → List SecretString
  /-- What unpersisted grants replaced and returned, the last one first. -/
  unpersisted : Key → List (ClaudeOauthTokens × ClaudeOauthTokens)

inductive Label (Key : Type)
  /-- Another program writes the store. -/
  | change (key : Key) (store : PulseResult Json)
  | poll (key : Key)
  | proceed (key : Key) (answer : Answer)
  /-- The profiles are these from now on. -/
  | reconcile (keys : List Key)

namespace NativeCollectors

variable (readings : ClaudeReadings Reading) (inferenceFallback : Bool)

def start (store : Key → PulseResult Json) : NativeCollectors Key Reading where
  claudeTokens := .empty
  store := store
  polls _ := none
  exchanged _ := []
  unpersisted _ := []

def read (collectors : NativeCollectors Key Reading) (key : Key) : PulseResult ClaudeOauthTokens :=
  collectors.store key >>= tokensFromDocument

/-- The tokens that a poll starts with once it has read these. -/
def active (collectors : NativeCollectors Key Reading) (key : Key) (observed : ClaudeOauthTokens) : ClaudeOauthTokens :=
  (prepareClaudeTokens collectors.claudeTokens key observed).1.1

def setPoll (collectors : NativeCollectors Key Reading) (key : Key) (poll : Option (Poll Reading)) :
    NativeCollectors Key Reading :=
  { collectors with polls := Function.update collectors.polls key poll }

def begin (collectors : NativeCollectors Key Reading) (key : Key) : NativeCollectors Key Reading :=
  match collectors.polls key, collectors.read key with
  | none, .ok observed =>
    let prepared := prepareClaudeTokens collectors.claudeTokens key observed
    { collectors with claudeTokens := prepared.2 }.setPoll key (some (.opened prepared.1 inferenceFallback))
  | _, _ => collectors

/-- What a refresh does beside its result. -/
def spend (collectors : NativeCollectors Key Reading) (key : Key) (refreshed : Refreshed) : NativeCollectors Key Reading :=
  { collectors with
    store := Function.update collectors.store key refreshed.store
    exchanged := Function.update collectors.exchanged key
      ((refreshed.replaced.bind fun _ => refreshed.presented).toList ++ collectors.exchanged key)
    unpersisted := Function.update collectors.unpersisted key
      (match refreshed.result, refreshed.replaced with
        | .ok ⟨tokens, .grantedUnpersisted⟩, some current => (current, tokens) :: collectors.unpersisted key
        | _, _ => collectors.unpersisted key) }

/-- One round of the loop in `collect_claude`. -/
def proceed (collectors : NativeCollectors Key Reading) (key : Key) (poll : Poll Reading) (answer : Answer) :
    NativeCollectors Key Reading :=
  match poll.rounds, poll.action, answer with
  | 0, _, _ => collectors.setPoll key none
  | _ + 1, .request _ _ _, .response (.error _) => collectors.setPoll key none
  | rounds + 1, .request _ _ _, .response (.ok response) =>
    let (action, collector) := poll.collector.handleResponse readings response
    collectors.setPoll key (some ⟨poll.rejected, collector, action, rounds⟩)
  | rounds + 1, .refreshRequired, .refresh answer =>
    let refreshed := cooperativeRefresh poll.rejected (collectors.store key) answer
    match refreshed.result with
    | .ok result =>
      let (action, collector) := poll.collector.resumeAfterRefresh result.tokens
      { collectors.spend key refreshed with
        claudeTokens := recordClaudeRefresh collectors.claudeTokens key result }.setPoll key
          (some ⟨poll.rejected, collector, action, rounds⟩)
    | .error _ => (collectors.spend key refreshed).setPoll key none
  | _ + 1, .complete _, _ => collectors.setPoll key none
  | _ + 1, .failed _, _ => collectors.setPoll key none
  | _, _, _ => collectors

def step (collectors : NativeCollectors Key Reading) : Label Key → NativeCollectors Key Reading
  | .change key store => { collectors with store := Function.update collectors.store key store }
  | .poll key => collectors.begin inferenceFallback key
  | .proceed key answer =>
    match collectors.polls key with
    | none => collectors
    | some poll => collectors.proceed readings key poll answer
  | .reconcile keys => { collectors with claudeTokens := collectors.claudeTokens.retain fun key => key ∈ keys }

/-- The refresh token that the next round of a poll presents. -/
def presents (collectors : NativeCollectors Key Reading) (key : Key) (answer : Answer) : Option SecretString :=
  match collectors.polls key, answer with
  | some ⟨rejected, _, .refreshRequired, _ + 1⟩, .refresh answer =>
    (cooperativeRefresh rejected (collectors.store key) answer).presented
  | _, _ => none

/-- What an unpersisted grant returned for a credential. -/
def rotated (collectors : NativeCollectors Key Reading) (key : Key) (observed : ClaudeOauthTokens) :
    Option ClaudeOauthTokens :=
  ((collectors.unpersisted key).find? fun pair => pair.1 = observed).map Prod.snd

/-- What is asked of a step: a poll starts with what an unpersisted grant
returned for what it reads, or with what it reads, and no refresh token is
presented that was exchanged. -/
def KeepsRotated (collectors : NativeCollectors Key Reading) : Label Key → Prop
  | .poll key => ∀ observed, collectors.read key = .ok observed →
      collectors.active key observed = (collectors.rotated key observed).getD observed
  | .proceed key answer => ∀ refreshToken, collectors.presents key answer = some refreshToken →
      refreshToken ∉ collectors.exchanged key
  | _ => True

/-- When it does no harm that an unpersisted grant is forgotten: no poll reads
what one replaced, nobody brings back what was exchanged, and a grant's refresh
token is a new one. -/
def Meets (collectors : NativeCollectors Key Reading) : Label Key → Prop
  | .poll key => ∀ observed, collectors.read key = .ok observed → collectors.rotated key observed = none
  | .change key store => ∀ document refreshToken, store = .ok document → refreshTokenOf document = some refreshToken →
      refreshToken ∉ collectors.exchanged key
  | .proceed key (.refresh answer) => ∀ grant, answer.grant = .ok grant →
      grant.refreshToken ∉ collectors.exchanged key ∧
        collectors.presents key (.refresh answer) ≠ some grant.refreshToken
  | _ => True

end NativeCollectors

/-! ## A poll asks for one refresh -/

def ClaudeAction.isRefresh : ClaudeAction Reading → Bool
  | .refreshRequired => true
  | _ => false

namespace ClaudeCollector

variable {readings : ClaudeReadings Reading} {collector : ClaudeCollector} {kind : ClaudeRequestKind} {delay : Nat}
  {error : PulseError} {response : ClaudeResponse} {refreshed : ClaudeOauthTokens}

/-- What comes of a collector without a refresh. -/
def Plain (collector : ClaudeCollector) (result : ClaudeAction Reading × ClaudeCollector) : Prop :=
  result.1.isRefresh = false ∧ result.2.refreshAttempted = collector.refreshAttempted

/-- A refresh is asked for once. -/
def Once (collector : ClaudeCollector) (result : ClaudeAction Reading × ClaudeCollector) : Prop :=
  (result.1.isRefresh = true → result.2.refreshAttempted = true) ∧
    (collector.refreshAttempted = true → result.1.isRefresh = false ∧ result.2.refreshAttempted = true)

omit [LinearOrder Key]

theorem Plain.once {result : ClaudeAction Reading × ClaudeCollector} (h : collector.Plain result) :
    collector.Once result := by
  refine ⟨fun hrefresh => ?_, fun hattempted => ⟨h.1, h.2.trans hattempted⟩⟩
  rw [h.1] at hrefresh
  cases hrefresh

theorem plain_fallbackOrFail : collector.Plain (collector.fallbackOrFail error : ClaudeAction Reading × ClaudeCollector) := by
  unfold fallbackOrFail
  split <;> exact ⟨rfl, rfl⟩

theorem plain_start : collector.Plain (collector.start : ClaudeAction Reading × ClaudeCollector) := by
  unfold start
  split
  · exact ⟨rfl, rfl⟩
  · split
    · exact ⟨rfl, rfl⟩
    · split <;> exact ⟨rfl, rfl⟩

theorem plain_resume :
    collector.Plain (collector.resumeAfterRefresh refreshed : ClaudeAction Reading × ClaudeCollector) := by
  unfold resumeAfterRefresh
  split
  · exact ⟨rfl, rfl⟩
  · dsimp only
    split
    · exact plain_fallbackOrFail
    · exact ⟨rfl, rfl⟩

theorem once_handleUsage : collector.Once (collector.handleUsage readings response) := by
  unfold handleUsage
  split
  · split
    · exact Plain.once ⟨rfl, rfl⟩
    · exact plain_fallbackOrFail.once
  · split
    next hrefresh =>
      refine ⟨fun _ => rfl, fun hattempted => ?_⟩
      rw [hattempted] at hrefresh
      exact absurd hrefresh.2.1 (by decide)
    · split
      · split
        · exact Plain.once ⟨rfl, rfl⟩
        · exact plain_fallbackOrFail.once
      · exact plain_fallbackOrFail.once

theorem plain_handleInference : collector.Plain (collector.handleInference readings response) := by
  unfold handleInference
  split <;> exact ⟨rfl, rfl⟩

theorem once_handleResponse : collector.Once (collector.handleResponse readings response) := by
  unfold handleResponse
  split
  · exact Plain.once ⟨rfl, rfl⟩
  · dsimp only
    split
    · exact Plain.once ⟨rfl, rfl⟩
    · split
      · exact Plain.once plain_fallbackOrFail
      · split
        · exact once_handleUsage
        · exact Plain.once plain_handleInference

end ClaudeCollector

omit [LinearOrder Key] in
theorem isRefresh_opened {tokens : ClaudeOauthTokens × ClaudeOauthTokens} {inferenceFallback : Bool} :
    (Poll.opened tokens inferenceFallback : Poll Reading).action.isRefresh = false :=
  ClaudeCollector.plain_start.1

/-! ## What a refresh does -/

section Refresh

variable {rejected : ClaudeOauthTokens} {store : PulseResult Json} {answer : RefreshAnswer} {refreshToken : SecretString}

/-- A successful exchange: what it replaced, what it returned, and whether the
store still holds the one or holds the other. -/
structure Exchange (store : PulseResult Json) (answer : RefreshAnswer) (refreshed : Refreshed) where
  document : Json
  current : ClaudeOauthTokens
  refreshToken : SecretString
  grant : RefreshGrant
  tokens : ClaudeOauthTokens
  source : RefreshSource
  store_eq : store = .ok document
  current_eq : tokensFromDocument document = .ok current
  refreshToken_eq : current.refreshToken = some refreshToken
  presented : refreshed.presented = some refreshToken
  grant_eq : answer.grant = .ok grant
  tokens_eq : tokens.refreshToken = some grant.refreshToken
  replaced : refreshed.replaced = some current
  result : refreshed.result = .ok ⟨tokens, source⟩
  stored : refreshed.store = store ∧ source = .grantedUnpersisted ∨
    ∃ document', refreshed.store = .ok document' ∧ tokensFromDocument document' = .ok tokens

/-- A refresh leaves everything as it is, or exchanges what the store holds. -/
theorem cooperativeRefresh_cases (rejected : ClaudeOauthTokens) (store : PulseResult Json) (answer : RefreshAnswer) :
    ((cooperativeRefresh rejected store answer).store = store ∧ (cooperativeRefresh rejected store answer).replaced = none) ∨
      Nonempty (Exchange store answer (cooperativeRefresh rejected store answer)) := by
  unfold cooperativeRefresh
  split
  · exact .inl ⟨rfl, rfl⟩
  next document hread =>
    obtain ⟨_, _, hstore⟩ := bind_ok hread
    split
    · exact .inl ⟨rfl, rfl⟩
    · exact .inl ⟨rfl, rfl⟩
    next current refreshToken hdecision =>
      obtain ⟨hcurrent, htoken⟩ := decision_spend hdecision
      split
      · exact .inl ⟨rfl, rfl⟩
      next grant hgrant =>
        rw [granted_ok hcurrent grant]
        dsimp only
        split
        next document' hupdate hwritten =>
          have hdocument := (tokensFromDocument_update hcurrent hupdate).trans (granted_ok hcurrent grant)
          exact .inr ⟨document, current, refreshToken, grant, _, _, hstore, hcurrent, htoken, rfl, hgrant, rfl, rfl, rfl,
            .inr ⟨document', rfl, hdocument⟩⟩
        · exact .inr ⟨document, current, refreshToken, grant, _, _, hstore, hcurrent, htoken, rfl, hgrant, rfl, rfl, rfl,
            .inl ⟨rfl, rfl⟩⟩

/-- What is presented is what the store holds. -/
theorem cooperativeRefresh_presented (h : (cooperativeRefresh rejected store answer).presented = some refreshToken) :
    ∃ document, store = .ok document ∧ refreshTokenOf document = some refreshToken := by
  unfold cooperativeRefresh at h
  split at h
  · cases h
  next document hread =>
    obtain ⟨_, _, hstore⟩ := bind_ok hread
    split at h
    · cases h
    · cases h
    next current token hdecision =>
      obtain ⟨hcurrent, htoken⟩ := decision_spend hdecision
      refine ⟨document, hstore, (refreshTokenOf_eq hcurrent).trans (htoken.trans ?_)⟩
      split at h
      · exact h
      · split at h
        · exact h
        · split at h <;> exact h

end Refresh

/-! ## What is remembered -/

section Memory

variable {state : SortedMap Key ClaudeProfileTokens} {key : Key} {observed : ClaudeOauthTokens} {refreshed : RefreshResult}

/-- The active tokens are always the ones that are remembered as stored. -/
def Paired (state : SortedMap Key ClaudeProfileTokens) : Prop :=
  ∀ entry ∈ state.entries, entry.2.authoritative = entry.2.active

theorem Paired.insert {tokens : ClaudeOauthTokens} (h : Paired state) : Paired (state.insert key ⟨tokens, tokens⟩) := by
  intro entry hentry
  rcases Entries.mem_insert hentry with rfl | hentry
  · rfl
  · exact h entry hentry

/-- So a poll always starts with what it has read. -/
theorem Paired.prepare (h : Paired state) :
    (prepareClaudeTokens state key observed).1 = (observed, observed) ∧
      Paired (prepareClaudeTokens state key observed).2 := by
  unfold prepareClaudeTokens
  split
  · exact ⟨rfl, h⟩
  · have hentry : (if ((state.find? key).getD ⟨observed, observed⟩).authoritative ≠ observed then ⟨observed, observed⟩
        else (state.find? key).getD ⟨observed, observed⟩) = (⟨observed, observed⟩ : ClaudeProfileTokens) := by
      split
      · rfl
      next hsame =>
        rw [ne_eq, not_not] at hsame
        cases hfind : state.find? key with
        | none => rfl
        | some entry =>
          rw [hfind, Option.getD_some] at hsame
          have hpaired := h (key, entry) (Entries.mem_of_find? hfind)
          cases entry
          cases hsame
          cases hpaired
          rfl
    dsimp only
    rw [hentry]
    exact ⟨rfl, h.insert⟩

theorem Paired.record (h : Paired state) : Paired (recordClaudeRefresh state key refreshed) := by
  unfold recordClaudeRefresh
  split
  · exact h
  · exact h.insert

theorem Paired.retain {p : Key → Bool} (h : Paired state) : Paired (state.retain p) :=
  fun entry hentry => h entry (List.mem_of_mem_filter hentry)

end Memory

/-! ## What holds of every profile -/

namespace NativeCollectors

variable {readings : ClaudeReadings Reading} {inferenceFallback : Bool} {collectors collectors' : NativeCollectors Key Reading}
  {key key' : Key} {label : Label Key} {labels : List (Label Key)} {observed : ClaudeOauthTokens} {poll poll' : Poll Reading}
  {answer : RefreshAnswer}

/-- The store holds nothing that was exchanged. -/
def Unspent (collectors : NativeCollectors Key Reading) (key : Key) : Prop :=
  ∀ document refreshToken, collectors.store key = .ok document → refreshTokenOf document = some refreshToken →
    refreshToken ∉ collectors.exchanged key

/-- The store holds what an unpersisted grant replaced, and the poll that asked
for the grant asks for no other. -/
def Stranded (collectors : NativeCollectors Key Reading) (key : Key) : Prop :=
  (∃ observed, collectors.read key = .ok observed ∧ collectors.rotated key observed ≠ none) ∧
    ∀ poll, collectors.polls key = some poll → poll.action.isRefresh = false ∧ poll.collector.refreshAttempted = true

structure SoundAt (collectors : NativeCollectors Key Reading) (key : Key) : Prop where
  fresh : ∀ pair ∈ collectors.unpersisted key, pair.2 ≠ pair.1
  asked : ∀ poll, collectors.polls key = some poll → poll.action.isRefresh = true → poll.collector.refreshAttempted = true
  unspent : collectors.Unspent key ∨ collectors.Stranded key

structure Sound (collectors : NativeCollectors Key Reading) : Prop where
  paired : Paired collectors.claudeTokens
  at_ : ∀ key, collectors.SoundAt key

theorem sound_start {store : Key → PulseResult Json} : (start store : NativeCollectors Key Reading).Sound where
  paired _ hentry := (by cases hentry)
  at_ _ := {
    fresh := fun _ hpair => (by cases hpair)
    asked := fun _ hpoll => (by cases hpoll)
    unspent := .inl fun _ _ _ _ => List.not_mem_nil }

/-- A profile that nothing happens to. -/
theorem SoundAt.congr (h : collectors.SoundAt key) (hstore : collectors'.store key = collectors.store key)
    (hpolls : collectors'.polls key = collectors.polls key) (hexchanged : collectors'.exchanged key = collectors.exchanged key)
    (hunpersisted : collectors'.unpersisted key = collectors.unpersisted key) : collectors'.SoundAt key := by
  have hread (observed : ClaudeOauthTokens) : collectors'.rotated key observed = collectors.rotated key observed := by
    unfold rotated
    rw [hunpersisted]
  refine ⟨hunpersisted ▸ h.fresh, hpolls ▸ h.asked, h.unspent.imp (fun hunspent => ?_) fun hstranded => ?_⟩
  · unfold Unspent
    rw [hstore, hexchanged]
    exact hunspent
  · unfold Stranded read
    simp only [hstore, hpolls, hread]
    exact hstranded

/-- The next round of a poll, or its end. -/
theorem SoundAt.setPoll (h : collectors.SoundAt key) {next : Option (Poll Reading)}
    (hasked : ∀ poll, next = some poll → poll.action.isRefresh = true → poll.collector.refreshAttempted = true)
    (hstranded : collectors.Stranded key → ∀ poll, next = some poll →
      poll.action.isRefresh = false ∧ poll.collector.refreshAttempted = true) :
    (collectors.setPoll key next).SoundAt key := by
  have hpolls : (collectors.setPoll key next).polls key = next := Function.update_self ..
  refine ⟨h.fresh, ?_, h.unspent.imp id fun hold => ⟨hold.1, ?_⟩⟩
  · rw [hpolls]
    exact hasked
  · rw [hpolls]
    exact hstranded hold

theorem SoundAt.endPoll (h : collectors.SoundAt key) : (collectors.setPoll key none).SoundAt key :=
  h.setPoll (fun _ hpoll => (by cases hpoll)) fun _ _ hpoll => (by cases hpoll)

/-- What a poll does about its own profile leaves others alone. -/
theorem SoundAt.setPoll_of_ne (h : collectors.SoundAt key') (hne : key' ≠ key) {next : Option (Poll Reading)} :
    (collectors.setPoll key next).SoundAt key' :=
  h.congr rfl (Function.update_of_ne hne ..) rfl rfl

theorem Sound.begin (h : collectors.Sound)
    (hmeets : ∀ observed, collectors.read key = .ok observed → collectors.rotated key observed = none) :
    (collectors.begin inferenceFallback key).Sound := by
  unfold NativeCollectors.begin
  split
  next observed _ hread =>
    refine ⟨h.paired.prepare.2, fun other => ?_⟩
    have hsame : ({ collectors with
        claudeTokens := (prepareClaudeTokens collectors.claudeTokens key observed).2 } : NativeCollectors Key Reading).SoundAt
          other := (h.at_ other).congr rfl rfl rfl rfl
    by_cases hother : other = key
    · subst hother
      refine hsame.setPoll (fun poll hpoll hrefresh => ?_) fun hstranded => ?_
      · obtain rfl := Option.some.inj hpoll
        rw [isRefresh_opened] at hrefresh
        cases hrefresh
      · obtain ⟨⟨tokens, htokens, hrotated⟩, -⟩ := hstranded
        exact absurd (hmeets tokens htokens) hrotated
    · exact hsame.setPoll_of_ne hother
  · exact h

/-! ## A poll's rounds -/

theorem store_spend {refreshed : Refreshed} : (collectors.spend key refreshed).store key = refreshed.store :=
  Function.update_self ..

/-- An exchange that is recorded. -/
theorem spend_exchange {refreshed : Refreshed} (h : Exchange (collectors.store key) answer refreshed) :
    (collectors.spend key refreshed).exchanged key = h.refreshToken :: collectors.exchanged key ∧
      (collectors.spend key refreshed).unpersisted key =
        if h.source = .grantedUnpersisted then (h.current, h.tokens) :: collectors.unpersisted key
        else collectors.unpersisted key := by
  constructor
  · change Function.update _ _ _ _ = _
    rw [Function.update_self, h.replaced, h.presented]
    rfl
  · change Function.update _ _ _ _ = _
    rw [Function.update_self, h.result, h.replaced]
    cases h.source <;> rfl

/-- What a refresh does to its own profile. -/
theorem SoundAt.spend {refreshed : Refreshed} (h : collectors.SoundAt key) (hunspent : collectors.Unspent key)
    (hmeets : ∀ grant, answer.grant = .ok grant →
      grant.refreshToken ∉ collectors.exchanged key ∧ refreshed.presented ≠ some grant.refreshToken)
    (hrefreshed : (refreshed.store = collectors.store key ∧ refreshed.replaced = none) ∨
      Nonempty (Exchange (collectors.store key) answer refreshed)) :
    (∀ pair ∈ (collectors.spend key refreshed).unpersisted key, pair.2 ≠ pair.1) ∧
      ((collectors.spend key refreshed).Unspent key ∨
        ∃ observed, (collectors.spend key refreshed).read key = .ok observed ∧
          (collectors.spend key refreshed).rotated key observed ≠ none) := by
  rcases hrefreshed with ⟨hstore, hreplaced⟩ | hexchange
  · have hunpersisted : (collectors.spend key refreshed).unpersisted key = collectors.unpersisted key := by
      change Function.update _ _ _ _ = _
      rw [Function.update_self, hreplaced]
      split <;> first | rfl | contradiction
    have hexchanged : (collectors.spend key refreshed).exchanged key = collectors.exchanged key := by
      change Function.update _ _ _ _ = _
      rw [Function.update_self, hreplaced]
      rfl
    refine ⟨hunpersisted ▸ h.fresh, .inl ?_⟩
    unfold Unspent
    rw [store_spend, hstore, hexchanged]
    exact hunspent
  · obtain ⟨hexchange⟩ := hexchange
    obtain ⟨hexchanged, hunpersisted⟩ := spend_exchange hexchange
    obtain ⟨hnew, hother⟩ := hmeets hexchange.grant hexchange.grant_eq
    rw [hexchange.presented] at hother
    refine ⟨fun pair hpair => ?_, ?_⟩
    · have hne : hexchange.tokens ≠ hexchange.current := by
        intro heq
        have htoken := hexchange.tokens_eq
        rw [heq, hexchange.refreshToken_eq] at htoken
        exact hother htoken
      rw [hunpersisted] at hpair
      split at hpair
      · rcases List.mem_cons.mp hpair with rfl | hpair
        · exact hne
        · exact h.fresh pair hpair
      · exact h.fresh pair hpair
    · rcases hexchange.stored with ⟨hstore, hsource⟩ | ⟨document', hstore, hdocument⟩
      · have hdocument : (collectors.spend key refreshed).store key = .ok hexchange.document :=
          store_spend.trans (hstore.trans hexchange.store_eq)
        refine .inr ⟨hexchange.current, ?_, ?_⟩
        · exact (congrArg (fun store => store >>= tokensFromDocument) hdocument).trans hexchange.current_eq
        · unfold rotated
          rw [hunpersisted, if_pos hsource, List.find?_cons_of_pos (by simp)]
          exact Option.some_ne_none _
      · refine .inl fun document refreshToken heq htoken => ?_
        rw [store_spend, hstore] at heq
        obtain rfl := Except.ok.inj heq
        rw [refreshTokenOf_eq hdocument, hexchange.tokens_eq] at htoken
        obtain rfl := Option.some.inj htoken
        rw [hexchanged, List.mem_cons, not_or]
        exact ⟨fun heq => hother (congrArg some heq.symm), hnew⟩

theorem SoundAt.spend_of_ne {refreshed : Refreshed} (h : collectors.SoundAt key') (hne : key' ≠ key) :
    (collectors.spend key refreshed).SoundAt key' :=
  h.congr (Function.update_of_ne hne ..) rfl (Function.update_of_ne hne ..) (Function.update_of_ne hne ..)

/-- A poll after a refresh, or none. -/
theorem SoundAt.refreshed {refreshed : Refreshed} {next : Option (Poll Reading)} (h : collectors.SoundAt key)
    (hunspent : collectors.Unspent key)
    (hmeets : ∀ grant, answer.grant = .ok grant →
      grant.refreshToken ∉ collectors.exchanged key ∧ refreshed.presented ≠ some grant.refreshToken)
    (hrefreshed : (refreshed.store = collectors.store key ∧ refreshed.replaced = none) ∨
      Nonempty (Exchange (collectors.store key) answer refreshed))
    (hnext : ∀ poll, next = some poll → poll.action.isRefresh = false ∧ poll.collector.refreshAttempted = true)
    {claudeTokens : SortedMap Key ClaudeProfileTokens} :
    ({ collectors.spend key refreshed with claudeTokens := claudeTokens }.setPoll key next).SoundAt key := by
  obtain ⟨hfresh, hstore⟩ := h.spend hunspent hmeets hrefreshed
  have hpolls : ({ collectors.spend key refreshed with claudeTokens := claudeTokens }.setPoll key next).polls key = next :=
    Function.update_self ..
  refine ⟨hfresh, fun poll hpoll hrefresh => ?_, hstore.imp id fun hstranded => ⟨hstranded, fun poll hpoll => ?_⟩⟩
  · rw [hpolls] at hpoll
    exact (hnext poll hpoll).2
  · rw [hpolls] at hpoll
    exact hnext poll hpoll

/-- A poll that asks for a refresh reads a store that holds nothing spent. -/
theorem SoundAt.unspent_of_refresh (h : collectors.SoundAt key) (hpoll : collectors.polls key = some poll)
    (hrefresh : poll.action = .refreshRequired) : collectors.Unspent key := by
  rcases h.unspent with hunspent | hstranded
  · exact hunspent
  · have hquiet := (hstranded.2 poll hpoll).1
    rw [hrefresh] at hquiet
    cases hquiet

theorem Sound.proceed {answer : Answer} (h : collectors.Sound) (hpoll : collectors.polls key = some poll)
    (hmeets : collectors.Meets (.proceed key answer)) : (collectors.proceed readings key poll answer).Sound := by
  have hend : (collectors.setPoll key none).Sound := by
    refine ⟨h.paired, fun other => ?_⟩
    by_cases hother : other = key
    · exact hother ▸ (h.at_ key).endPoll
    · exact (h.at_ other).setPoll_of_ne hother
  have hask := (h.at_ key).asked poll hpoll
  obtain ⟨rejected, collector, action, rounds⟩ := poll
  unfold NativeCollectors.proceed
  dsimp only at hask ⊢
  split
  · exact hend
  · exact hend
  next rounds kind delay authorization response =>
    have honce : collector.Once (collector.handleResponse readings response) := ClaudeCollector.once_handleResponse
    refine ⟨h.paired, fun other => ?_⟩
    by_cases hother : other = key
    · subst hother
      refine (h.at_ other).setPoll (fun poll hnext hrefresh => ?_) fun hstranded poll hnext => ?_
      · obtain rfl := Option.some.inj hnext
        exact honce.1 hrefresh
      · obtain rfl := Option.some.inj hnext
        exact honce.2 (hstranded.2 _ hpoll).2
    · exact (h.at_ other).setPoll_of_ne hother
  next rounds answer =>
    have hunspent := (h.at_ key).unspent_of_refresh hpoll rfl
    have hpresents : collectors.presents key (.refresh answer) =
        (cooperativeRefresh rejected (collectors.store key) answer).presented := by
      unfold presents
      rw [hpoll]
    have hnew (grant : RefreshGrant) (hgrant : answer.grant = .ok grant) := hmeets grant hgrant
    rw [hpresents] at hnew
    have hcases := cooperativeRefresh_cases rejected (collectors.store key) answer
    generalize cooperativeRefresh rejected (collectors.store key) answer = refreshed at hnew hcases
    split
    next result _ =>
      refine ⟨h.paired.record, fun other => ?_⟩
      by_cases hother : other = key
      · subst hother
        refine (h.at_ other).refreshed hunspent hnew hcases fun poll hnext => ?_
        obtain rfl := Option.some.inj hnext
        exact ⟨ClaudeCollector.plain_resume.1, ClaudeCollector.plain_resume.2.trans (hask rfl)⟩
      · have hspent : ({ collectors.spend key refreshed with
            claudeTokens := recordClaudeRefresh collectors.claudeTokens key result } : NativeCollectors Key Reading).SoundAt
              other := ((h.at_ other).spend_of_ne hother).congr rfl rfl rfl rfl
        exact hspent.setPoll_of_ne hother
    · refine ⟨h.paired, fun other => ?_⟩
      by_cases hother : other = key
      · subst hother
        exact (h.at_ other).refreshed hunspent hnew hcases fun poll hnext => (by cases hnext)
      · exact ((h.at_ other).spend_of_ne hother).setPoll_of_ne hother
  · exact hend
  · exact hend
  · exact h

theorem Sound.step (h : collectors.Sound) (hmeets : collectors.Meets label) :
    (collectors.step readings inferenceFallback label).Sound := by
  cases label with
  | change key store =>
    refine ⟨h.paired, fun other => ?_⟩
    by_cases hother : other = key
    · subst hother
      refine ⟨(h.at_ other).fresh, (h.at_ other).asked, .inl fun document refreshToken hstore htoken => ?_⟩
      change Function.update collectors.store other store other = _ at hstore
      rw [Function.update_self] at hstore
      exact hmeets document refreshToken hstore htoken
    · exact (h.at_ other).congr (Function.update_of_ne hother ..) rfl rfl rfl
  | poll key => exact h.begin hmeets
  | proceed key answer =>
    change (match collectors.polls key with
      | none => collectors
      | some poll => collectors.proceed readings key poll answer).Sound
    split
    · exact h
    next poll hpoll => exact h.proceed hpoll hmeets
  | reconcile keys => exact ⟨h.paired.retain, fun other => (h.at_ other).congr rfl rfl rfl rfl⟩

/-- A poll starts with what it has read. -/
theorem Sound.active (h : collectors.Sound) : collectors.active key observed = observed := by
  unfold NativeCollectors.active
  rw [h.paired.prepare.1]

/-- What is presented was not exchanged. -/
theorem Sound.keepsRotated (h : collectors.Sound) (hmeets : collectors.Meets label) : collectors.KeepsRotated label := by
  cases label with
  | change key store => trivial
  | reconcile keys => trivial
  | poll key =>
    intro observed hread
    rw [h.active, hmeets observed hread]
    rfl
  | proceed key answer =>
    intro refreshToken hpresented
    unfold presents at hpresented
    split at hpresented
    next hpoll =>
      obtain ⟨document, hstore, htoken⟩ := cooperativeRefresh_presented hpresented
      exact (h.at_ key).unspent_of_refresh hpoll rfl document refreshToken hstore htoken
    · cases hpresented

/-- A poll that reads what an unpersisted grant replaced goes back to it. -/
theorem Sound.meets_of_keepsRotated (h : collectors.Sound) (hkeeps : collectors.KeepsRotated (.poll key)) :
    collectors.Meets (.poll key) := by
  intro observed hread
  cases hrotated : collectors.rotated key observed with
  | none => rfl
  | some tokens =>
    have hactive := hkeeps observed hread
    rw [h.active, hrotated] at hactive
    unfold rotated at hrotated
    obtain ⟨pair, hfind, rfl⟩ := Option.map_eq_some_iff.mp hrotated
    have hfirst : pair.1 = observed := by simpa using List.find?_some hfind
    exact absurd (hactive.symm.trans hfirst.symm) ((h.at_ key).fresh pair (List.mem_of_find?_eq_some hfind))

/-- **A rotated credential is kept exactly where it need not be remembered.** A
run in which no poll reads what an unpersisted grant replaced presents no
refresh token twice, and its polls start with what the store holds; the first
poll that does read it starts with the spent credential. -/
theorem rotated_kept (readings : ClaudeReadings Reading) (inferenceFallback : Bool) (store : Key → PulseResult Json)
    (labels : List (Label Key)) (collectors : NativeCollectors Key Reading)
    (h : Run (fun c label c' => Meets c label ∧ c' = step readings inferenceFallback c label) (start store) labels
      collectors) :
    (∀ label, collectors.Meets label → collectors.KeepsRotated label) ∧
      ∀ key, collectors.KeepsRotated (.poll key) ↔ collectors.Meets (.poll key) := by
  have hsound : collectors.Sound := by
    refine h.invariant (I := Sound) ?_ sound_start
    rintro _ label _ hs ⟨hmeets, rfl⟩
    exact hs.step hmeets
  exact ⟨fun label => hsound.keepsRotated, fun key => ⟨hsound.meets_of_keepsRotated, hsound.keepsRotated⟩⟩

/-! A poll whose grant is not written back, and the next one. -/

private def unread : ClaudeReadings Unit :=
  ⟨fun _ => .error ⟨.upstream, "unread"⟩, fun _ => .error ⟨.upstream, "unread"⟩⟩

private def spentStore : Nat → PulseResult Json := fun _ =>
  .ok (.object [("claudeAiOauth", .object [("accessToken", .string "a"), ("expiresAt", .number "0"),
    ("refreshToken", .string "r"), ("scopes", .array [.string "user:profile"])])])

private def spentTokens : ClaudeOauthTokens := ⟨⟨"a", rfl⟩, some ⟨"r", rfl⟩, 0, ["user:profile"], none, none⟩

private def rotatedGrant : RefreshGrant := ⟨⟨"b", rfl⟩, ⟨"s", rfl⟩, 0, by decide⟩

private def unwrittenAnswer : RefreshAnswer := ⟨.persist, 0, .ok (), .ok rotatedGrant, false, false⟩

private def rejectedPoll : List (Label Nat) :=
  [.poll 0, .proceed 0 (.response (.ok ⟨401, [], []⟩)), .proceed 0 (.refresh unwrittenAnswer),
    .proceed 0 (.response (.error ⟨.offline, "offline"⟩))]

private def after (labels : List (Label Nat)) : NativeCollectors Nat Unit :=
  labels.foldl (step unread false) (start spentStore)

/-- A grant that is not written back leaves everything lawful so far. -/
theorem unwritten_lawful : (after rejectedPoll).KeepsRotated (.poll 0) ↔ (after rejectedPoll).Meets (.poll 0) := by
  have hpoll : Meets (after []) (.poll 0) := fun _ _ => rfl
  have hrefresh : Meets (after (rejectedPoll.take 2)) (.proceed 0 (.refresh unwrittenAnswer)) := by
    intro grant hgrant
    obtain rfl := Except.ok.inj hgrant
    have hpresents : (after (rejectedPoll.take 2)).presents 0 (.refresh unwrittenAnswer) ≠ some rotatedGrant.refreshToken := by
      decide +kernel
    have hexchanged : rotatedGrant.refreshToken ∉ (after (rejectedPoll.take 2)).exchanged 0 := by decide +kernel
    exact ⟨hexchanged, hpresents⟩
  exact (rotated_kept unread false spentStore rejectedPoll (after rejectedPoll) (.cons ⟨hpoll, rfl⟩ (.cons ⟨trivial, rfl⟩
    (.cons ⟨hrefresh, rfl⟩ (.single ⟨trivial, rfl⟩))))).2 0

/-- The next poll goes back to what was spent. -/
theorem rotated_lost : ¬ ∀ (store : Nat → PulseResult Json) labels (collectors : NativeCollectors Nat Unit),
    Run (fun c label c' => c' = step unread false c label) (start store) labels collectors →
      ∀ label, collectors.KeepsRotated label := by
  intro hall
  have hread : (after rejectedPoll).read 0 = .ok spentTokens := by decide +kernel
  have hactive : (after rejectedPoll).active 0 spentTokens = spentTokens := by decide +kernel
  have hrotated : ((after rejectedPoll).rotated 0 spentTokens).map (fun tokens => tokens.accessToken.expose) = some "b" := by
    decide +kernel
  have hkeeps := hall spentStore rejectedPoll (after rejectedPoll)
    (.cons rfl (.cons rfl (.cons rfl (.single rfl)))) (.poll 0) spentTokens hread
  rw [hactive] at hkeeps
  obtain ⟨tokens, htokens, haccess⟩ := Option.map_eq_some_iff.mp hrotated
  rw [htokens, Option.getD_some] at hkeeps
  rw [← hkeeps] at haccess
  exact absurd haccess (by decide)

end NativeCollectors

end Atmux.Credentials
