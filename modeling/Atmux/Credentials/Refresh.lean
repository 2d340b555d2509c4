/-
Callers that refresh the credential of one profile together.

A caller takes two locks, reads the store and spends its refresh token only if
what it read still is what the provider rejected. The lock's holder alone
writes the store, by one rename, so what it read stands until then, and the
tokens that were spent for what the store holds are never presented again
(`refresh_spent_once`). A caller may crash and the power may fail between any
two steps.
-/
import Atmux.Credentials.Store
import Atmux.Lib.Runs
import Mathlib.Logic.Function.Basic

namespace Atmux.Credentials

open Lib Pulse

/-! ## Callers and what they share -/

def maxCredentialBytes : Nat := 256 * 1024

/-- What a file holds while it is written, and after. -/
inductive Contents
  | partly
  | complete (document : Json)

/-- The store, and the refresh tokens that were exchanged for what it holds. -/
structure Saved where
  contents : Contents
  replaced : List SecretString

structure Disk (Caller : Type) where
  store : Saved
  /-- What the directory was when it was last synchronized. -/
  durable : Saved
  temporaries : Nat → Option Contents
  directoryLock : Option Caller
  fileLock : Option Caller
  /-- Every refresh token that there was. -/
  issued : List SecretString
  /-- Every refresh token that a grant was asked for, the last one first. -/
  presented : List SecretString

structure Request where
  rejected : ClaudeOauthTokens
  nowMillis : Int

/-- A document that waits to be written in place of the one that was read. -/
structure Pending where
  base : Json
  document : Json
  spent : SecretString
  tokens : ClaudeOauthTokens

/-- How far a call of `cooperative_refresh_with` has got. -/
inductive Phase
  /-- Not in a call, with the tokens that were read last. -/
  | idle (held : Option ClaudeOauthTokens)
  | called (request : Request)
  | directoryLocked (request : Request)
  | locked (request : Request)
  | read (request : Request) (document : Json)
  | spending (document : Json) (current : ClaudeOauthTokens) (refreshToken : SecretString)
  | updated (pending : Pending)
  | created (temporary : Nat) (pending : Pending)
  | written (temporary : Nat) (pending : Pending)
  | synced (temporary : Nat) (pending : Pending)
  | renamed (pending : Pending)
  | unlocking (result : PulseResult RefreshResult)
  | fileUnlocked (result : PulseResult RefreshResult)
  | finished (result : PulseResult RefreshResult)

/-- What still waits to be written, and the name that it is written under. -/
def Phase.writing : Phase → Option (Option Nat × Pending)
  | .updated pending | .renamed pending => some (none, pending)
  | .created temporary pending | .written temporary pending | .synced temporary pending =>
    some (some temporary, pending)
  | _ => none

def Phase.holdsFile : Phase → Bool
  | .locked _ | .read _ _ | .spending _ _ _ | .updated _ | .created _ _ | .written _ _ | .synced _ _ | .renamed _
  | .unlocking _ => true
  | _ => false

def Phase.holdsDirectory : Phase → Bool
  | .directoryLocked _ | .fileUnlocked _ => true
  | phase => phase.holdsFile

/-- What a caller does once its grant has returned. -/
def afterGrant (size : Json → Nat) (document : Json) (current : ClaudeOauthTokens) (grant : RefreshGrant)
    (refreshToken : SecretString) : Phase :=
  match current.granted grant with
  | .error error => .unlocking (.error error)
  | .ok tokens =>
    match updateDocumentTokens document grant with
    | .ok document' =>
      if maxCredentialBytes < size document' then .unlocking (.ok ⟨tokens, .grantedUnpersisted⟩)
      else .updated ⟨document, document', refreshToken, tokens⟩
    | .error _ => .unlocking (.ok ⟨tokens, .grantedUnpersisted⟩)

inductive Act
  | observe
  | call
  | lock
  | read
  | decide
  | grant (outcome : PulseResult RefreshGrant)
  | write
  | unlock
  | crash

/-- One step of a caller; `size` is how many bytes a document is encoded in. A
grant comes with a refresh token that there never was. -/
inductive CallerStep {Caller : Type} [DecidableEq Caller] (size : Json → Nat) (caller : Caller) :
    Act → Disk Caller → Phase → Disk Caller → Phase → Prop
  | observe {disk document held tokens} (hstore : disk.store.contents = .complete document)
      (htokens : tokensFromDocument document = .ok tokens) :
      CallerStep size caller .observe disk (.idle held) disk (.idle (some tokens))
  | call {disk rejected nowMillis} :
      CallerStep size caller .call disk (.idle (some rejected)) disk (.called ⟨rejected, nowMillis⟩)
  | lockDirectory {disk request} (hfree : disk.directoryLock = none) :
      CallerStep size caller .lock disk (.called request) { disk with directoryLock := some caller }
        (.directoryLocked request)
  | directoryBusy {disk request error} :
      CallerStep size caller .lock disk (.called request) disk (.finished (.error error))
  | lockFile {disk request} (hfree : disk.fileLock = none) :
      CallerStep size caller .lock disk (.directoryLocked request) { disk with fileLock := some caller } (.locked request)
  | fileBusy {disk request error} :
      CallerStep size caller .lock disk (.directoryLocked request) disk (.fileUnlocked (.error error))
  | read {disk request document} (hstore : disk.store.contents = .complete document) :
      CallerStep size caller .read disk (.locked request) disk (.read request document)
  | unreadable {disk request error} :
      CallerStep size caller .read disk (.locked request) disk (.unlocking (.error error))
  | refuse {disk request document error}
      (hdecision : decision .persist request.rejected true request.nowMillis document = .error error) :
      CallerStep size caller .decide disk (.read request document) disk (.unlocking (.error error))
  | adopt {disk request document tokens}
      (hdecision : decision .persist request.rejected true request.nowMillis document = .ok (.adopt tokens)) :
      CallerStep size caller .decide disk (.read request document) disk (.unlocking (.ok ⟨tokens, .adopted⟩))
  | spend {disk request document current refreshToken}
      (hdecision : decision .persist request.rejected true request.nowMillis document = .ok (.spend current refreshToken)) :
      CallerStep size caller .decide disk (.read request document) disk (.spending document current refreshToken)
  | refused {disk document current refreshToken error} :
      CallerStep size caller (.grant (.error error)) disk (.spending document current refreshToken)
        { disk with presented := refreshToken :: disk.presented } (.unlocking (.error error))
  | granted {disk document current refreshToken grant} (hfresh : grant.refreshToken ∉ disk.issued) :
      CallerStep size caller (.grant (.ok grant)) disk (.spending document current refreshToken)
        { disk with
          presented := refreshToken :: disk.presented
          issued := grant.refreshToken :: disk.issued }
        (afterGrant size document current grant refreshToken)
  | create {disk pending temporary} (hnew : disk.temporaries temporary = none) :
      CallerStep size caller .write disk (.updated pending)
        { disk with temporaries := Function.update disk.temporaries temporary (some .partly) } (.created temporary pending)
  | write {disk pending temporary} :
      CallerStep size caller .write disk (.created temporary pending)
        { disk with temporaries := Function.update disk.temporaries temporary (some (.complete pending.document)) }
        (.written temporary pending)
  | sync {disk pending temporary} :
      CallerStep size caller .write disk (.written temporary pending) disk (.synced temporary pending)
  | rename {disk pending temporary contents} (hcontents : disk.temporaries temporary = some contents) :
      CallerStep size caller .write disk (.synced temporary pending)
        { disk with
          store := ⟨contents, pending.spent :: disk.store.replaced⟩
          temporaries := Function.update disk.temporaries temporary none }
        (.renamed pending)
  | persist {disk pending} :
      CallerStep size caller .write disk (.renamed pending) { disk with durable := disk.store }
        (.unlocking (.ok ⟨pending.tokens, .grantedAndPersisted⟩))
  | unwritten {disk phase temporary pending} (hwriting : phase.writing = some (temporary, pending)) :
      CallerStep size caller .write disk phase
        { disk with temporaries := fun name => if some name = temporary then none else disk.temporaries name }
        (.unlocking (.ok ⟨pending.tokens, .grantedUnpersisted⟩))
  | unlockFile {disk result} :
      CallerStep size caller .unlock disk (.unlocking result) { disk with fileLock := none } (.fileUnlocked result)
  | unlockDirectory {disk result} :
      CallerStep size caller .unlock disk (.fileUnlocked result) { disk with directoryLock := none } (.finished result)
  | return_ {disk result} :
      CallerStep size caller .unlock disk (.finished result) disk (.idle (result.toOption.map RefreshResult.tokens))
  | crash {disk phase} :
      CallerStep size caller .crash disk phase
        { disk with
          directoryLock := if disk.directoryLock = some caller then none else disk.directoryLock
          fileLock := if disk.fileLock = some caller then none else disk.fileLock }
        (.idle none)

structure System (Caller : Type) where
  disk : Disk Caller
  phase : Caller → Phase

inductive System.Label (Caller : Type)
  | caller (caller : Caller) (act : Act)
  | powerLoss (kept : Bool)

variable {Caller : Type}

/-- A power loss leaves the store as it was last synchronized, or as it is. -/
inductive System.Step [DecidableEq Caller] (size : Json → Nat) : System Caller → System.Label Caller → System Caller → Prop
  | caller {system caller act disk phase} (h : CallerStep size caller act system.disk (system.phase caller) disk phase) :
      System.Step size system (.caller caller act) ⟨disk, Function.update system.phase caller phase⟩
  | powerLoss {system} (kept : Bool) :
      System.Step size system (.powerLoss kept)
        ⟨{ system.disk with
            store := if kept then system.disk.store else system.disk.durable
            durable := if kept then system.disk.store else system.disk.durable
            directoryLock := none
            fileLock := none }, fun _ => .idle none⟩

/-- Nobody has called yet. -/
def System.start (document : Json) : System Caller where
  disk :=
    { store := ⟨.complete document, []⟩
      durable := ⟨.complete document, []⟩
      temporaries := fun _ => none
      directoryLock := none
      fileLock := none
      issued := (refreshTokenOf document).toList
      presented := [] }
  phase _ := .idle none

/-! ## What holds at every point -/

variable {size : Json → Nat} {caller other : Caller} {act : Act} {disk disk' : Disk Caller} {phase phase' : Phase}
  {system system' : System Caller} {document document' : Json} {refreshToken : SecretString} {pending : Pending}

/-- A complete document, whose refresh token was not exchanged for it. -/
structure Unspent (issued : List SecretString) (saved : Saved) : Prop where
  complete : ∃ document, saved.contents = .complete document
  unspent : ∀ document refreshToken, saved.contents = .complete document → refreshTokenOf document = some refreshToken →
    refreshToken ∈ issued ∧ refreshToken ∉ saved.replaced
  issued : ∀ refreshToken ∈ saved.replaced, refreshToken ∈ issued

/-- What waits to be written was made from what the store still holds. -/
structure Ready (disk : Disk Caller) (pending : Pending) : Prop where
  base : disk.store.contents = .complete pending.base
  differ : OnlyTokensDiffer pending.base pending.document
  tokens : tokensFromDocument pending.document = .ok pending.tokens
  fresh : ∃ refreshToken, pending.tokens.refreshToken = some refreshToken ∧ refreshToken ∈ disk.issued ∧
    refreshToken ∉ pending.spent :: disk.store.replaced
  spent : refreshTokenOf pending.base = some pending.spent

/-- What a caller that holds both locks knows. -/
def AtPhase (disk : Disk Caller) : Phase → Prop
  | .read _ document => disk.store.contents = .complete document
  | .spending document current refreshToken => disk.store.contents = .complete document ∧
      tokensFromDocument document = .ok current ∧ current.refreshToken = some refreshToken
  | .updated pending | .created _ pending => Ready disk pending
  | .written temporary pending | .synced temporary pending =>
    Ready disk pending ∧ disk.temporaries temporary = some (.complete pending.document)
  | .renamed pending => disk.store.contents = .complete pending.document ∧
      tokensFromDocument pending.document = .ok pending.tokens
  | _ => True

/-- What the callers share. -/
structure Shared (disk : Disk Caller) : Prop where
  store : Unspent disk.issued disk.store
  durable : Unspent disk.issued disk.durable
  replaced : ∀ refreshToken ∈ disk.durable.replaced, refreshToken ∈ disk.store.replaced

structure Holds (disk : Disk Caller) (caller : Caller) (phase : Phase) : Prop where
  directory : phase.holdsDirectory = true → disk.directoryLock = some caller
  file : phase.holdsFile = true → disk.fileLock = some caller
  knows : AtPhase disk phase

structure System.Sound (system : System Caller) : Prop where
  shared : Shared system.disk
  holds : ∀ caller, Holds system.disk caller (system.phase caller)

theorem holdsDirectory_of_holdsFile (h : phase.holdsFile = true) : phase.holdsDirectory = true := by
  cases phase <;> first | rfl | cases h

theorem holdsFile_of_writing {writing : Option Nat × Pending} (h : phase.writing = some writing) :
    phase.holdsFile = true := by
  cases phase <;> first | rfl | cases h

theorem atPhase_of_not_holdsFile (h : phase.holdsFile = false) : AtPhase disk phase := by
  cases phase <;> trivial

theorem Unspent.issue {issued : List SecretString} {saved : Saved} (h : Unspent issued saved) :
    Unspent (refreshToken :: issued) saved where
  complete := h.complete
  unspent document token hcontents htoken :=
    (h.unspent document token hcontents htoken).imp_left (List.mem_cons_of_mem _)
  issued token htoken := List.mem_cons_of_mem _ (h.issued token htoken)

/-! ## A caller's own steps -/

theorem holds_idle {held : Option ClaudeOauthTokens} : Holds disk caller (.idle held) :=
  ⟨fun h => (by cases h), fun h => (by cases h), trivial⟩

/-- A caller that keeps its locks to its end. -/
theorem Holds.unlocking {result : PulseResult RefreshResult} (h : Holds disk caller phase) (hfile : phase.holdsFile = true)
    (hdirectory' : disk'.directoryLock = disk.directoryLock) (hfile' : disk'.fileLock = disk.fileLock) :
    Holds disk' caller (.unlocking result) :=
  ⟨fun _ => hdirectory'.trans (h.directory (holdsDirectory_of_holdsFile hfile)), fun _ => hfile'.trans (h.file hfile),
    trivial⟩

theorem Ready.congr (h : Ready disk pending) (hstore : disk'.store = disk.store) (hissued : disk'.issued = disk.issued) :
    Ready disk' pending := by
  refine ⟨hstore ▸ h.base, h.differ, h.tokens, ?_, h.spent⟩
  rw [hstore, hissued]
  exact h.fresh

/-- A grant's document waits to replace the one that was read. -/
theorem holds_afterGrant {current : ClaudeOauthTokens} {grant : RefreshGrant} (hshared : Shared disk)
    (hholds : Holds disk caller (.spending document current refreshToken)) (hfresh : grant.refreshToken ∉ disk.issued)
    (hdirectory' : disk'.directoryLock = disk.directoryLock) (hfile' : disk'.fileLock = disk.fileLock)
    (hstore' : disk'.store = disk.store) (hissued' : disk'.issued = grant.refreshToken :: disk.issued) :
    Holds disk' caller (afterGrant size document current grant refreshToken) := by
  obtain ⟨hstore, hcurrent, hrefresh⟩ := hholds.knows
  have htoken := (refreshTokenOf_eq hcurrent).trans hrefresh
  have hspent := hshared.store.unspent document refreshToken hstore htoken
  unfold afterGrant
  split
  · exact hholds.unlocking rfl hdirectory' hfile'
  next tokens htokens =>
    split
    next document' hupdate =>
      split
      · exact hholds.unlocking rfl hdirectory' hfile'
      · have hdocument := (tokensFromDocument_update hcurrent hupdate).trans htokens
        obtain rfl := Except.ok.inj ((granted_ok hcurrent grant).symm.trans htokens)
        refine ⟨fun _ => hdirectory'.trans (hholds.directory rfl), fun _ => hfile'.trans (hholds.file rfl), ?_⟩
        refine ⟨hstore' ▸ hstore, onlyTokensDiffer_update hupdate, hdocument, ⟨grant.refreshToken, rfl, ?_, ?_⟩, htoken⟩
        · rw [hissued']
          exact List.mem_cons_self
        · rw [hstore', List.mem_cons, not_or]
          exact ⟨fun heq => hfresh (heq ▸ hspent.1), fun hmem => hfresh (hshared.store.issued _ hmem)⟩
    · exact hholds.unlocking rfl hdirectory' hfile'

/-- What is renamed into place was exchanged for what was spent. -/
theorem Ready.unspent (h : Ready disk pending) (hshared : Shared disk) :
    Unspent disk.issued ⟨.complete pending.document, pending.spent :: disk.store.replaced⟩ where
  complete := ⟨pending.document, rfl⟩
  unspent document token hcontents htoken := by
    obtain rfl := Contents.complete.inj hcontents
    obtain ⟨fresh, hfresh, hissued, hnew⟩ := h.fresh
    rw [refreshTokenOf_eq h.tokens, hfresh] at htoken
    obtain rfl := Option.some.inj htoken
    exact ⟨hissued, hnew⟩
  issued token htoken := by
    rcases List.mem_cons.mp htoken with rfl | htoken
    · exact (hshared.store.unspent _ _ h.base h.spent).1
    · exact hshared.store.issued token htoken

theorem atPhase_congr (hstore : disk'.store = disk.store) (htemporaries : disk'.temporaries = disk.temporaries)
    (hissued : disk'.issued = disk.issued) (h : AtPhase disk phase) : AtPhase disk' phase := by
  cases phase with
  | read _ document =>
    change disk'.store.contents = _
    rw [hstore]
    exact h
  | spending document current refreshToken =>
    refine ⟨?_, h.2⟩
    rw [hstore]
    exact h.1
  | updated pending => exact Ready.congr h hstore hissued
  | created _ pending => exact Ready.congr h hstore hissued
  | written temporary pending => exact ⟨h.1.congr hstore hissued, htemporaries ▸ h.2⟩
  | synced temporary pending => exact ⟨h.1.congr hstore hissued, htemporaries ▸ h.2⟩
  | renamed pending =>
    refine ⟨?_, h.2⟩
    rw [hstore]
    exact h.1
  | _ => trivial

theorem Shared.congr (h : Shared disk) (hstore : disk'.store = disk.store) (hdurable : disk'.durable = disk.durable)
    (hissued : disk'.issued = disk.issued) : Shared disk' := by
  refine ⟨?_, ?_, ?_⟩
  · rw [hstore, hissued]
    exact h.store
  · rw [hdurable, hissued]
    exact h.durable
  · rw [hstore, hdurable]
    exact h.replaced

/-! ## Steps -/

variable [DecidableEq Caller]

/-- Who holds the directory lock is disturbed by nobody. -/
theorem CallerStep.frame (h : CallerStep size caller act disk phase disk' phase') (hholds : Holds disk caller phase)
    (hne : other ≠ caller) (hother : disk.directoryLock = some other) :
    disk'.directoryLock = some other ∧ (disk.fileLock = some other → disk'.fileLock = some other) ∧
      disk'.store = disk.store ∧ disk'.temporaries = disk.temporaries ∧ disk'.issued = disk.issued := by
  have hfree (hphase : phase.holdsDirectory = true) : False := by
    have heq := (hholds.directory hphase).symm.trans hother
    exact hne (Option.some.inj heq).symm
  cases h with
  | lockDirectory hnone =>
    rw [hother] at hnone
    cases hnone
  | crash =>
    have hcaller : ¬ disk.directoryLock = some caller := by
      rw [hother]
      exact fun heq => hne (Option.some.inj heq)
    refine ⟨(if_neg hcaller).trans hother, fun hfile => ?_, rfl, rfl, rfl⟩
    have hkept : ¬ disk.fileLock = some caller := by
      rw [hfile]
      exact fun heq => hne (Option.some.inj heq)
    exact (if_neg hkept).trans hfile
  | unwritten hwriting => exact (hfree (holdsDirectory_of_holdsFile (holdsFile_of_writing hwriting))).elim
  | observe | call | directoryBusy | return_ => exact ⟨hother, id, rfl, rfl, rfl⟩
  | _ => exact (hfree rfl).elim

theorem CallerStep.sound (h : CallerStep size caller act disk phase disk' phase') (hshared : Shared disk)
    (hholds : Holds disk caller phase) : Shared disk' ∧ Holds disk' caller phase' := by
  cases h with
  | observe => exact ⟨hshared, holds_idle⟩
  | call => exact ⟨hshared, fun h => (by cases h), fun h => (by cases h), trivial⟩
  | return_ => exact ⟨hshared, holds_idle⟩
  | lockDirectory hfree => exact ⟨hshared.congr rfl rfl rfl, fun _ => rfl, fun h => (by cases h), trivial⟩
  | directoryBusy => exact ⟨hshared, fun h => (by cases h), fun h => (by cases h), trivial⟩
  | lockFile hfree => exact ⟨hshared.congr rfl rfl rfl, fun _ => hholds.directory rfl, fun _ => rfl, trivial⟩
  | fileBusy => exact ⟨hshared, fun _ => hholds.directory rfl, fun h => (by cases h), trivial⟩
  | read hstore => exact ⟨hshared, fun _ => hholds.directory rfl, fun _ => hholds.file rfl, hstore⟩
  | unreadable | refuse | adopt => exact ⟨hshared, hholds.unlocking rfl rfl rfl⟩
  | spend hdecision =>
    exact ⟨hshared, fun _ => hholds.directory rfl, fun _ => hholds.file rfl, hholds.knows, decision_spend hdecision⟩
  | refused => exact ⟨hshared.congr rfl rfl rfl, hholds.unlocking rfl rfl rfl⟩
  | granted hfresh =>
    exact ⟨⟨hshared.store.issue, hshared.durable.issue, hshared.replaced⟩,
      holds_afterGrant hshared hholds hfresh rfl rfl rfl rfl⟩
  | create hnew =>
    have hready : Ready disk _ := hholds.knows
    exact ⟨hshared.congr rfl rfl rfl, fun _ => hholds.directory rfl, fun _ => hholds.file rfl,
      hready.congr rfl rfl⟩
  | write =>
    have hready : Ready disk _ := hholds.knows
    exact ⟨hshared.congr rfl rfl rfl, fun _ => hholds.directory rfl, fun _ => hholds.file rfl,
      hready.congr rfl rfl, Function.update_self ..⟩
  | sync => exact ⟨hshared, fun _ => hholds.directory rfl, fun _ => hholds.file rfl, hholds.knows⟩
  | rename hcontents =>
    obtain ⟨hready, htemporary⟩ := hholds.knows
    obtain rfl := Option.some.inj (htemporary.symm.trans hcontents)
    exact ⟨⟨hready.unspent hshared, hshared.durable, fun token htoken =>
      List.mem_cons_of_mem _ (hshared.replaced token htoken)⟩, fun _ => hholds.directory rfl, fun _ => hholds.file rfl,
      rfl, hready.tokens⟩
  | persist => exact ⟨⟨hshared.store, hshared.store, fun _ => id⟩, hholds.unlocking rfl rfl rfl⟩
  | unwritten hwriting =>
    exact ⟨hshared.congr rfl rfl rfl, hholds.unlocking (holdsFile_of_writing hwriting) rfl rfl⟩
  | unlockFile =>
    exact ⟨hshared.congr rfl rfl rfl, fun _ => hholds.directory rfl, fun h => (by cases h), trivial⟩
  | unlockDirectory =>
    exact ⟨hshared.congr rfl rfl rfl, fun h => (by cases h), fun h => (by cases h), trivial⟩
  | crash => exact ⟨hshared.congr rfl rfl rfl, holds_idle⟩

/-! ## Runs -/

theorem System.Sound.step {label : System.Label Caller} (h : system.Sound) (hstep : system.Step size label system') :
    system'.Sound := by
  cases hstep with
  | @caller caller act disk phase hstep =>
    obtain ⟨hshared, hown⟩ := hstep.sound h.shared (h.holds caller)
    refine ⟨hshared, fun other => ?_⟩
    by_cases hne : other = caller
    · subst hne
      change Holds disk other (Function.update system.phase other phase other)
      rw [Function.update_self]
      exact hown
    · change Holds disk other (Function.update system.phase caller phase other)
      rw [Function.update_of_ne hne]
      have hother := h.holds other
      by_cases hdirectory : (system.phase other).holdsDirectory = true
      · obtain ⟨hlock, hfile, hstore, htemporaries, hissued⟩ :=
          hstep.frame (h.holds caller) hne (hother.directory hdirectory)
        exact ⟨fun _ => hlock, fun hheld => hfile (hother.file hheld),
          atPhase_congr hstore htemporaries hissued hother.knows⟩
      · have hnot : (system.phase other).holdsFile = false :=
          Bool.eq_false_iff.mpr fun hheld => hdirectory (holdsDirectory_of_holdsFile hheld)
        refine ⟨fun hheld => (hdirectory hheld).elim, fun hheld => ?_, atPhase_of_not_holdsFile hnot⟩
        rw [hnot] at hheld
        cases hheld
  | powerLoss kept =>
    refine ⟨?_, fun _ => holds_idle⟩
    cases kept with
    | true => exact ⟨h.shared.store, h.shared.store, fun _ => id⟩
    | false => exact ⟨h.shared.durable, h.shared.durable, fun _ => id⟩

omit [DecidableEq Caller] in
theorem sound_start : (System.start document : System Caller).Sound where
  shared := by
    have hunspent : Unspent (refreshTokenOf document).toList ⟨.complete document, []⟩ := by
      refine ⟨⟨document, rfl⟩, fun document' token hcontents htoken => ⟨?_, List.not_mem_nil⟩, fun token htoken => ?_⟩
      · obtain rfl := Contents.complete.inj hcontents
        rw [htoken]
        exact List.mem_singleton_self token
      · cases htoken
    exact ⟨hunspent, hunspent, fun _ => id⟩
  holds _ := holds_idle

/-! ## What a step spends and writes -/

/-- The caller holds the locks, and the store the token, which was not
exchanged for it. -/
structure System.Spends (system : System Caller) (caller : Caller) (refreshToken : SecretString) : Prop where
  directory : system.disk.directoryLock = some caller
  file : system.disk.fileLock = some caller
  stored : ∃ document, system.disk.store.contents = .complete document ∧ refreshTokenOf document = some refreshToken
  unspent : refreshToken ∉ system.disk.store.replaced

/-- A grant is asked for at most, and only so. -/
def System.PresentsLawfully (system : System Caller) (label : System.Label Caller) (system' : System Caller) : Prop :=
  system'.disk.presented = system.disk.presented ∨
    ∃ caller outcome refreshToken, label = .caller caller (.grant outcome) ∧ system.Spends caller refreshToken ∧
      system'.disk.presented = refreshToken :: system.disk.presented

/-- The store stands, is what it was when it was last synchronized, or is
replaced by the holder of the locks with what differs from it in the tokens. -/
def System.WritesLawfully (system : System Caller) (label : System.Label Caller) (system' : System Caller) : Prop :=
  system'.disk.store = system.disk.store ∨
    label = .powerLoss false ∧ system'.disk.store = system.disk.durable ∨
    ∃ caller document document' refreshToken, label = .caller caller .write ∧
      system.disk.directoryLock = some caller ∧ system.disk.fileLock = some caller ∧
      system.disk.store.contents = .complete document ∧ refreshTokenOf document = some refreshToken ∧
      OnlyTokensDiffer document document' ∧
      system'.disk.store = ⟨.complete document', refreshToken :: system.disk.store.replaced⟩

omit [DecidableEq Caller] in
theorem System.Sound.spends {current : ClaudeOauthTokens} (h : system.Sound)
    (hphase : system.phase caller = .spending document current refreshToken) : system.Spends caller refreshToken := by
  have hholds := h.holds caller
  rw [hphase] at hholds
  obtain ⟨hstore, hcurrent, hrefresh⟩ := hholds.knows
  have htoken := (refreshTokenOf_eq hcurrent).trans hrefresh
  exact ⟨hholds.directory rfl, hholds.file rfl, ⟨document, hstore, htoken⟩,
    (h.shared.store.unspent document refreshToken hstore htoken).2⟩

theorem System.Sound.presents {label : System.Label Caller} (h : system.Sound) (hstep : system.Step size label system') :
    system.PresentsLawfully label system' := by
  cases hstep with
  | powerLoss kept => exact .inl rfl
  | @caller caller act disk phase hstep =>
    generalize hphase : system.phase caller = before at hstep
    cases hstep with
    | refused => exact .inr ⟨caller, _, _, rfl, h.spends hphase, rfl⟩
    | granted hfresh => exact .inr ⟨caller, _, _, rfl, h.spends hphase, rfl⟩
    | _ => exact .inl rfl

theorem System.Sound.writes {label : System.Label Caller} (h : system.Sound) (hstep : system.Step size label system') :
    system.WritesLawfully label system' := by
  cases hstep with
  | powerLoss kept =>
    cases kept with
    | true => exact .inl rfl
    | false => exact .inr (.inl ⟨rfl, rfl⟩)
  | @caller caller act disk phase hstep =>
    have hholds := h.holds caller
    generalize system.phase caller = before at hstep hholds
    cases hstep with
    | rename hcontents =>
      obtain ⟨hready, htemporary⟩ := hholds.knows
      obtain rfl := Option.some.inj (htemporary.symm.trans hcontents)
      exact .inr (.inr ⟨caller, _, _, _, rfl, hholds.directory rfl, hholds.file rfl, hready.base, hready.spent,
        hready.differ, rfl⟩)
    | _ => exact .inl rfl

/-- What was exchanged for what is synchronized stays exchanged. -/
theorem System.Sound.replaced_step {label : System.Label Caller} (h : system.Sound) (hstep : system.Step size label system')
    (hmem : refreshToken ∈ system.disk.durable.replaced) : refreshToken ∈ system'.disk.durable.replaced := by
  cases hstep with
  | powerLoss kept =>
    cases kept with
    | true => exact h.shared.replaced refreshToken hmem
    | false => exact hmem
  | @caller caller act disk phase hstep =>
    generalize system.phase caller = before at hstep
    cases hstep with
    | persist => exact h.shared.replaced refreshToken hmem
    | _ => exact hmem

/-! ## While the stored tokens serve -/

/-- Nothing is spent or waits to be written. -/
def Phase.settled : Phase → Bool
  | .spending _ _ _ => false
  | phase => phase.writing.isNone

/-- Decisions are made by callers that reject other tokens, before these expire. -/
def System.Adopts (tokens : ClaudeOauthTokens) (system : System Caller) : System.Label Caller → Prop
  | .caller caller .decide => ∀ request document, system.phase caller = .read request document →
      tokens.accessToken ≠ request.rejected.accessToken ∧ tokens.isExpired request.nowMillis = false
  | _ => True

/-- The store holds the tokens, synchronized, and nobody is about to write. -/
structure System.Settled (saved : Saved) (presented : List SecretString) (system : System Caller) : Prop where
  sound : system.Sound
  store : system.disk.store = saved
  durable : system.disk.durable = saved
  presented : system.disk.presented = presented
  phase : ∀ caller, (system.phase caller).settled = true

theorem not_settled_of_writing {writing : Option Nat × Pending} (h : phase.writing = some writing) :
    phase.settled = false := by
  cases phase <;> first | rfl | cases h

/-- A caller that finds the tokens adopts them. -/
theorem CallerStep.settled {tokens : ClaudeOauthTokens} (h : CallerStep size caller act disk phase disk' phase')
    (hholds : Holds disk caller phase) (hsettled : phase.settled = true)
    (hstore : disk.store.contents = .complete document) (htokens : tokensFromDocument document = .ok tokens)
    (hadopts : act = .decide → ∀ request document, phase = .read request document →
      tokens.accessToken ≠ request.rejected.accessToken ∧ tokens.isExpired request.nowMillis = false) :
    phase'.settled = true ∧ disk'.store = disk.store ∧ disk'.durable = disk.durable ∧
      disk'.presented = disk.presented := by
  have hdecision {request : Request} {held : Json} {result : PulseResult Decision} (hact : act = .decide)
      (hphase : phase = .read request held) (h : decision .persist request.rejected true request.nowMillis held = result) :
      result = .ok (.adopt tokens) := by
    have hknows := hholds.knows
    rw [hphase] at hknows
    obtain rfl := Contents.complete.inj (hstore.symm.trans hknows)
    obtain ⟨hne, hexpired⟩ := hadopts hact request document hphase
    exact h.symm.trans (decision_adopt htokens hexpired hne)
  cases h with
  | refuse h => cases hdecision rfl rfl h
  | spend h => cases hdecision rfl rfl h
  | refused | granted | create | write | sync | rename | persist => cases hsettled
  | unwritten hwriting =>
    rw [not_settled_of_writing hwriting] at hsettled
    cases hsettled
  | _ => exact ⟨rfl, rfl, rfl, rfl⟩

theorem System.Settled.step {saved : Saved} {presented : List SecretString} {tokens : ClaudeOauthTokens}
    {label : System.Label Caller} (h : system.Settled saved presented) (hsaved : saved.contents = .complete document)
    (htokens : tokensFromDocument document = .ok tokens) (hstep : system.Step size label system')
    (hadopts : system.Adopts tokens label) : system'.Settled saved presented := by
  have hsound := h.sound.step hstep
  cases hstep with
  | powerLoss kept =>
    have hsame : (if kept then system.disk.store else system.disk.durable) = saved := by
      rw [h.store, h.durable, ite_self]
    exact ⟨hsound, hsame, hsame, h.presented, fun _ => rfl⟩
  | @caller caller act disk phase hstep =>
    have hstore : system.disk.store.contents = .complete document := h.store ▸ hsaved
    obtain ⟨hphase, hstore', hdurable', hpresented'⟩ :=
      hstep.settled (h.sound.holds caller) (h.phase caller) hstore htokens fun hact => by
        subst hact
        exact hadopts
    refine ⟨hsound, hstore'.trans h.store, hdurable'.trans h.durable, hpresented'.trans h.presented, fun other => ?_⟩
    change (Function.update system.phase caller phase other).settled = true
    by_cases heq : other = caller
    · rw [heq, Function.update_self]
      exact hphase
    · rw [Function.update_of_ne heq]
      exact h.phase other

theorem settled_of_not_holdsFile (h : phase.holdsFile = false) : phase.settled = true := by
  cases phase <;> first | rfl | cases h

/-- Once a grant is persisted, its tokens are what the store holds. -/
theorem System.Sound.settled {tokens : ClaudeOauthTokens} (h : system.Sound)
    (hstep : system.Step size (.caller caller .write) system')
    (hpersisted : system'.phase caller = .unlocking (.ok ⟨tokens, .grantedAndPersisted⟩)) :
    system'.Settled system'.disk.store system'.disk.presented ∧
      ∃ document, system'.disk.store.contents = .complete document ∧ tokensFromDocument document = .ok tokens := by
  have hsound := h.step hstep
  have hothers {other : Caller} (hne : other ≠ caller) : (system'.phase other).settled = true := by
    refine settled_of_not_holdsFile (Bool.eq_false_iff.mpr fun hheld => hne ?_)
    have hown := (hsound.holds caller).file (by rw [hpersisted]; rfl)
    exact Option.some.inj (((hsound.holds other).file hheld).symm.trans hown)
  have hphase (other : Caller) : (system'.phase other).settled = true := by
    by_cases heq : other = caller
    · rw [heq, hpersisted]
      rfl
    · exact hothers heq
  have hstored : system'.disk.durable = system'.disk.store ∧
      ∃ document, system'.disk.store.contents = .complete document ∧ tokensFromDocument document = .ok tokens := by
    clear hothers hphase hsound
    cases hstep with
    | @caller _ _ disk phase hstep =>
      have hholds := h.holds caller
      change Function.update system.phase caller phase caller = _ at hpersisted
      rw [Function.update_self] at hpersisted
      generalize system.phase caller = before at hstep hholds
      cases hstep with
      | persist =>
        obtain ⟨hcontents, htokens⟩ := hholds.knows
        cases hpersisted
        exact ⟨rfl, _, hcontents, htokens⟩
      | _ => cases hpersisted
  exact ⟨⟨hsound, rfl, hstored.1, rfl, hphase⟩, hstored.2⟩

/-- Tokens that serve are adopted where they are read. -/
theorem System.adopts {tokens : ClaudeOauthTokens} {request : Request}
    (hphase : system.phase caller = .read request document) (htokens : tokensFromDocument document = .ok tokens)
    (hne : tokens.accessToken ≠ request.rejected.accessToken) (hexpired : tokens.isExpired request.nowMillis = false)
    (hstep : system.Step size (.caller caller .decide) system') :
    system'.phase caller = .unlocking (.ok ⟨tokens, .adopted⟩) ∧ system'.disk = system.disk := by
  have hdecision : decision .persist request.rejected true request.nowMillis document = .ok (.adopt tokens) :=
    decision_adopt htokens hexpired hne
  cases hstep with
  | @caller _ _ disk phase hstep =>
    change Function.update system.phase caller phase caller = _ ∧ disk = system.disk
    rw [Function.update_self]
    rw [hphase] at hstep
    cases hstep with
    | refuse hrefuse => cases hdecision.symm.trans hrefuse
    | adopt hadopt =>
      cases hdecision.symm.trans hadopt
      exact ⟨rfl, rfl⟩
    | spend hspend => cases hdecision.symm.trans hspend

/-- **A refresh token is spent once.** Whoever asks for a grant holds the locks
and presents what the store holds, which nobody exchanged for it. The store is
complete and changes in its tokens only. Persisted tokens are adopted, and no
grant is asked for, as long as they serve; what they were exchanged for stays
exchanged, whatever crashes. -/
theorem refresh_spent_once (size : Json → Nat) (document : Json) (labels : List (System.Label Caller)) (system : System Caller)
    (hrun : Run (System.Step size) (System.start document) labels system) :
    (∃ document, system.disk.store.contents = .complete document) ∧
      (∀ label system', system.Step size label system' →
        system.PresentsLawfully label system' ∧ system.WritesLawfully label system') ∧
      (∀ caller request document tokens system', system.phase caller = .read request document →
        tokensFromDocument document = .ok tokens → tokens.accessToken ≠ request.rejected.accessToken →
        tokens.isExpired request.nowMillis = false → system.Step size (.caller caller .decide) system' →
        system.disk.store.contents = .complete document ∧
          system'.phase caller = .unlocking (.ok ⟨tokens, .adopted⟩) ∧ system'.disk = system.disk) ∧
      (∀ caller tokens system', system.Step size (.caller caller .write) system' →
        system'.phase caller = .unlocking (.ok ⟨tokens, .grantedAndPersisted⟩) →
        system'.disk.durable = system'.disk.store ∧
          ∀ labels later, Run (fun s label s' => s.Step size label s' ∧ s.Adopts tokens label) system' labels later →
            later.disk.store = system'.disk.store ∧ later.disk.presented = system'.disk.presented) ∧
      (∀ labels later, Run (System.Step size) system labels later →
        ∀ refreshToken ∈ system.disk.durable.replaced, refreshToken ∈ later.disk.store.replaced) := by
  have hsound : system.Sound := hrun.invariant System.Sound.step sound_start
  refine ⟨hsound.shared.store.complete, fun label system' hstep => ⟨hsound.presents hstep, hsound.writes hstep⟩,
    fun caller request document tokens system' hphase htokens hne hexpired hstep => ⟨?_, ?_⟩,
    fun caller tokens system' hstep hpersisted => ?_, fun labels later hlater refreshToken hmem => ?_⟩
  · have hknows := (hsound.holds caller).knows
    rw [hphase] at hknows
    exact hknows
  · exact System.adopts hphase htokens hne hexpired hstep
  · obtain ⟨hsettled, document, hdocument, htokens⟩ := hsound.settled hstep hpersisted
    refine ⟨hsettled.durable, fun labels later hlater => ?_⟩
    have hlast := hlater.invariant (I := System.Settled system'.disk.store system'.disk.presented)
      (fun hlast hstep => hlast.step hdocument htokens hstep.1 hstep.2) hsettled
    exact ⟨hlast.store, hlast.presented⟩
  · have hlast : later.Sound ∧ refreshToken ∈ later.disk.durable.replaced :=
      hlater.invariant (I := fun later => later.Sound ∧ refreshToken ∈ later.disk.durable.replaced)
        (fun hlast hstep => ⟨hlast.1.step hstep, hlast.1.replaced_step hstep hlast.2⟩) ⟨hsound, hmem⟩
    exact hlast.1.shared.replaced refreshToken hlast.2

/-! A caller that rejects what it finds. -/

private def stored : Json :=
  .object [("claudeAiOauth", .object [("accessToken", .string "a"), ("expiresAt", .number "0"), ("refreshToken", .string "r")])]

private def storedTokens : ClaudeOauthTokens := ⟨⟨"a", by decide⟩, some ⟨"r", by decide⟩, 0, [], none, none⟩

private theorem tokens_stored : tokensFromDocument stored = .ok storedTokens := by
  decide +kernel

private def alone (disk : Disk Unit) (phase : Phase) : System Unit := ⟨disk, fun _ => phase⟩

private theorem alone_step {disk disk' : Disk Unit} (h : CallerStep size () act disk phase disk' phase') :
    (alone disk phase).Step size (.caller () act) (alone disk' phase') := by
  have hphase : alone disk' phase' = ⟨disk', Function.update (alone disk phase).phase () phase'⟩ := by
    rw [alone, Function.update_eq_const_of_subsingleton]
    rfl
  rw [hphase]
  exact .caller h

private def request : Request := ⟨storedTokens, -60000⟩

private def unlocked : Disk Unit := (System.start stored).disk

private def locked : Disk Unit := { unlocked with directoryLock := some (), fileLock := some () }

/-- A caller that rejects the tokens it finds presents what the store holds. -/
theorem token_presented : ∃ system : System Unit,
    system.phase () = .spending stored storedTokens ⟨"r", by decide⟩ ∧
      ∀ outcome system', system.Step (fun _ => 0) (.caller () (.grant outcome)) system' →
        system.PresentsLawfully (.caller () (.grant outcome)) system' := by
  have hdecision : decision .persist storedTokens true (-60000) stored = .ok (.spend storedTokens ⟨"r", by decide⟩) := by
    unfold decision
    rw [tokens_stored]
    rfl
  have hobserve : CallerStep (fun _ => 0) () .observe unlocked (.idle none) unlocked (.idle (some storedTokens)) :=
    .observe rfl tokens_stored
  have hcall : CallerStep (fun _ => 0) () .call unlocked (.idle (some storedTokens)) unlocked (.called request) := .call
  have hdirectory : CallerStep (fun _ => 0) () .lock unlocked (.called request)
      { unlocked with directoryLock := some () } (.directoryLocked request) := .lockDirectory rfl
  have hfile : CallerStep (fun _ => 0) () .lock { unlocked with directoryLock := some () } (.directoryLocked request)
      locked (.locked request) := .lockFile rfl
  have hread : CallerStep (fun _ => 0) () .read locked (.locked request) locked (.read request stored) := .read rfl
  have hspend : CallerStep (fun _ => 0) () .decide locked (.read request stored)
      locked (.spending stored storedTokens ⟨"r", by decide⟩) := .spend hdecision
  have hrun := Run.cons (alone_step hobserve) (.cons (alone_step hcall) (.cons (alone_step hdirectory)
    (.cons (alone_step hfile) (.cons (alone_step hread) (.single (alone_step hspend))))))
  refine ⟨alone locked _, rfl, fun outcome system' hstep => ?_⟩
  exact ((refresh_spent_once (fun _ => 0) stored _ _ hrun).2.1 _ _ hstep).1

end Atmux.Credentials
