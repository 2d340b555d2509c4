/-
One node's self-update state machine.

Checks, applies, rollbacks and the periodic check run at the same time over
one `Shared` under a lock, and wait for the network, the disk and other
programs outside it. Each is a task of a pool; a turn is the work between two
waits, with at most one critical section, and `Answer` is what the wait
brought. `act` is the turn of every kind of task, so a run of the pool is any
interleaving of any calls with any answers.
-/
import Atmux.Lib.Tasks
import Atmux.SelfUpdate.Manifest

namespace Atmux.SelfUpdate

open Lib Proc

/-! ## Policy -/

/-- The version and the target this binary was compiled with. -/
structure Build where
  version : String
  target : String
  debugAssertions : Bool

structure SelfUpdateConfig where
  enabled : Bool
  repository : String
  checkIntervalSeconds : Nat
  autoApply : Bool
  publicKey : Option String
deriving DecidableEq, Repr

def SelfUpdateConfig.default : SelfUpdateConfig where
  enabled := false
  repository := "ryanmurf/atmux"
  checkIntervalSeconds := 3600
  autoApply := false
  publicKey := none

def releasePublicKey : String := "hvFQRGa4xvRCKeazrWPnihuxkl3+Lsr3hM4GYZ+KyRQ="

def minCheckIntervalSeconds : Nat := 300

def maxCheckIntervalSeconds : Nat := 7 * 24 * 60 * 60

/-- `^[A-Za-z0-9_.-]+/[A-Za-z0-9_.-]+$`. -/
def isRepositoryCoordinate (value : String) : Bool :=
  match Text.cut '/' value.toList with
  | none => false
  | some (owner, name) =>
    !name.contains '/' && [owner, name].all fun part =>
      !part.isEmpty && part.all fun c => c.isAlphanum || c == '_' || c == '.' || c == '-'

def SelfUpdateConfig.validate {V K : Type} (crates : Crates V K) (build : Build) (config : SelfUpdateConfig) :
    Except String Unit :=
  if !isRepositoryCoordinate config.repository then
    .error "[self_update].repository must look like owner/name using letters, digits, '_', '.', or '-'"
  else if config.checkIntervalSeconds < minCheckIntervalSeconds ||
      config.checkIntervalSeconds > maxCheckIntervalSeconds then
    .error ("[self_update].check_interval_seconds must be between " ++ toString minCheckIntervalSeconds ++ " and " ++
      toString maxCheckIntervalSeconds)
  else if config.publicKey.isSome && config.enabled && !build.debugAssertions then
    .error ("[self_update].public_key overrides the compiled-in release key and exists only for tests; it cannot be " ++
      "combined with enabled = true")
  else
    match decodePublicKey crates (config.publicKey.getD releasePublicKey) with
    | .error _ => .error "invalid [self_update].public_key"
    | .ok _ => .ok ()

/-- How this node relates to its own executable. -/
inductive Mode
  | own
  | managedExternally
  | disabled
deriving DecidableEq, Repr

/-- What the updater may touch outside its own state. -/
structure Environment where
  exe : String
  processId : Nat
  container : Bool
  restart : Bool

/-! ## The update document -/

inductive Phase
  | idle
  | checking
  | downloading
  | verifying
  | applying
  | restarting
  | failed
deriving DecidableEq, Repr

structure Progress where
  downloaded : Nat
  total : Option Nat
deriving DecidableEq, Repr

structure LatestRelease where
  version : String
  tag : String
  publishedAt : Option String
  verified : Bool
  asset : String
deriving DecidableEq, Repr

structure PreviousRelease where
  version : String
  path : String
deriving DecidableEq, Repr

structure UpdateStatus where
  enabled : Bool
  version : String
  target : String
  mode : Mode
  latest : Option LatestRelease
  state : Phase
  progress : Option Progress
  lastCheckedAt : Option Nat
  lastError : Option String
  previous : Option PreviousRelease
deriving DecidableEq, Repr

structure UpdateError where
  conflict : Bool
  message : String
deriving DecidableEq, Repr

/-- A refusal the caller can act on. -/
def conflict (message : String) : UpdateError := ⟨true, message⟩

def stateVersion : Nat := 1

/-- Durable record of the last applied update. -/
structure PersistedState where
  version : Nat
  appliedVersion : Option String
  previousVersion : Option String
  previousPath : Option String
  previousSha256 : Option String
  appliedAtMs : Option Nat
deriving DecidableEq, Repr

structure Shared (V : Type) where
  phase : Phase
  progress : Option Progress
  latest : Option LatestRelease
  candidate : Option (Candidate V)
  lastCheckedAt : Option Nat
  lastError : Option String
  previous : Option PreviousRelease
  lastManualCheck : Option Nat
  busy : Bool

def Shared.default (V : Type) : Shared V := ⟨.idle, none, none, none, none, none, none, none, false⟩

/-! ## The world and its tasks -/

/-- A manifest that was fetched and passed, and the digest it has for the
candidate's asset. -/
structure Fetched where
  checksums : Bytes
  signature : String
  expected : String

/-- What happened, for the record: a call was answered, an install came to the
swap with the staged file as it then was, an operation recorded what it
replaced while `kept` was at `.prev`, an operation ended. -/
inductive Event (V : Type)
  | answered (reply : Except UpdateError UpdateStatus)
  | swapping (candidate : Candidate V) (fetched : Fetched) (content : Bytes) (output : String) (staged : Option Bytes)
  | recorded (replaced kept : Option Bytes) (state : PersistedState)
  | finished (outcome : Except String Unit)

structure World (V : Type) where
  shared : Shared V
  files : String → Option Bytes
  record : Option PersistedState
  log : List (Event V)

def World.happened {V : Type} (w : World V) (event : Event V) : World V := { w with log := event :: w.log }

/-- What a check is for: a caller's, an apply's, or the periodic one. -/
inductive Next
  | report
  | claim
  | background
deriving DecidableEq, Repr

/-- What a task has still to do, with the local variables it goes on with.
`replaced` of `recording` is the executable the operation replaced. -/
inductive Task (V : Type)
  | checkCalled (manual : Bool) (next : Next)
  | checking (next : Next)
  | discovering (next : Next)
  | concluding (next : Next) (outcome : Except String (Option LatestRelease × Option (Candidate V)))
  | reporting
  | ready
  | applyCalled
  | deciding
  | claiming
  | installing (candidate : Candidate V)
  | downloading (candidate : Candidate V) (fetched : Fetched)
  | verifying (candidate : Candidate V) (fetched : Fetched) (content : Bytes) (digest : String) (written : Nat)
  | probing (candidate : Candidate V) (fetched : Fetched) (content : Bytes)
  | swapping (candidate : Candidate V) (fetched : Fetched) (content : Bytes) (output : String)
  | rollbackCalled
  | rollbackClaiming
  | rollingBack
  | restoring (restored : V)
  | recording (applied replacedSha : String) (replaced : Option Bytes)
  | finishing (outcome : Except String Unit)
  | restarting

/-- What may come in: the three actions, and the periodic check falling due. -/
inductive Request
  | check (manual : Bool)
  | apply
  | rollback
  | tick
deriving DecidableEq, Repr

def Request.task {V : Type} : Request → Task V
  | .check manual => .checkCalled manual .report
  | .apply => .applyCalled
  | .rollback => .rollbackCalled
  | .tick => .checkCalled false .background

/-- What a wait can bring; each task reads the fields of its own waits.
`instant` and `now` are the clocks in milliseconds. A chunk comes with whether
it could be written, `transfer` is how the download ended after the chunks,
and `probe` is the output of a `--version` run, or why there is none. -/
structure Answer where
  instant : Nat := 0
  now : Nat := 0
  writable : Bool := true
  release : Except String Bytes := .error ""
  checksums : Except String Bytes := .error ""
  signature : Except String Bytes := .error ""
  removed : Bool := true
  created : Bool := true
  total : Option Nat := none
  chunks : List (Bytes × Bool) := []
  transfer : Except String Unit := .ok ()
  flushed : Bool := true
  runnable : Bool := true
  probe : Except String String := .error ""
  faults : SwapStep → Bool := fun _ => false
  stateRead : Bool := true
  stateWritten : Except String Unit := .ok ()
  execError : String := ""

/-! ## The updater -/

/-- An updater, with a policy and a key that passed. -/
structure Updater {V K : Type} (crates : Crates V K) (build : Build) where
  config : SelfUpdateConfig
  environment : Environment
  key : K
  running : V
  valid : config.validate crates build = .ok ()
  key_decoded : decodePublicKey crates (config.publicKey.getD releasePublicKey) = .ok key
  running_parsed : crates.parseVersion build.version = some running

section Transport

/-- Removes the staged file, if that can be done. -/
def discard (answer : Answer) (files : String → Option Bytes) (staged : String) : String → Option Bytes :=
  if answer.removed then Function.update files staged none else files

/-- Streams an asset to the staged file. -/
structure StagingSink where
  content : Bytes
  written : Nat
  total : Option Nat

def StagingSink.expectTotal (total : Option Nat) : StagingSink where
  content := []
  written := 0
  total := total.filter (· ≤ maxAssetBytes)

/-- A chunk that is too much, or cannot be written, leaves the sink as it was. -/
def StagingSink.writeChunk (sink : StagingSink) (chunk : Bytes × Bool) : Except (StagingSink × String) StagingSink :=
  let written := sink.written + chunk.1.length
  if maxAssetBytes < written then
    .error (sink, "release asset exceeds the " ++ toString maxAssetBytes ++ " byte bound")
  else if !chunk.2 then .error (sink, "failed to write the staged atmux executable")
  else .ok { sink with content := sink.content ++ chunk.1, written }

/-- The sink after the transfer, and how it went. -/
def download (answer : Answer) : StagingSink × Except String Unit :=
  match answer.chunks.foldlM StagingSink.writeChunk (StagingSink.expectTotal answer.total) with
  | .error (sink, error) => (sink, .error error)
  | .ok sink =>
    match answer.transfer with
    | .error error => (sink, .error error)
    | .ok _ => (sink, if answer.flushed then .ok () else .error "could not flush the staged atmux executable")

/-- The two fetches every look at a manifest starts with. -/
def fetchManifest (answer : Answer) : Except String (Bytes × String) :=
  match answer.checksums with
  | .error error => .error error
  | .ok checksums =>
    match answer.signature with
    | .error error => .error error
    | .ok signature =>
      match decodeUtf8 signature with
      | none => .error "the release signature is not valid UTF-8 base64"
      | some signature => .ok (checksums, signature)

end Transport

section Crates

variable {V K : Type} [LinearOrder V] (crates : Crates V K)

/-- The checks of a fetched manifest, and the digest it has for the asset. -/
def signedChecksum (key : K) (candidate : Candidate V) (checksums : Bytes) (signature : String) :
    Except String String :=
  match verifyDetached crates key checksums signature with
  | .error error => .error error
  | .ok _ =>
    match decodeUtf8 checksums with
    | none => .error "the checksum document is not UTF-8"
    | some document =>
      match SignedManifest.parse crates document with
      | .error error => .error error
      | .ok manifest =>
        match ensureManifestMatches crates manifest candidate with
        | .error error => .error error
        | .ok _ => manifest.checksumFor candidate.asset

/-- Reads the output of a `--version` run. -/
def probeVersion (target : String) (probe : Except String String) (expected : Option String) : Except String V :=
  match probe with
  | .error error => .error error
  | .ok stdout =>
    let printed := trimText stdout
    match expected.map (versionLine target) with
    | none => parseVersionLine crates printed
    | some wanted =>
      if printed ≠ wanted then
        .error ("the staged atmux reported " ++ printed.quote ++ " instead of " ++ wanted.quote)
      else parseVersionLine crates printed

/-- The blocking part of an install. -/
def replaceExecutable (faults : SwapStep → Bool) (exe previous staged : String) : Proc String Disk String := do
  let replacedSha ← fileSha256 faults crates.sha256 exe
  swapIntoPlace faults exe previous staged
  pure replacedSha

def describe (candidate : Candidate V) (verified : Bool) : LatestRelease where
  version := crates.printVersion candidate.version
  tag := candidate.tag
  publishedAt := candidate.publishedAt
  verified
  asset := candidate.asset

end Crates

namespace Updater

variable {V K : Type} [LinearOrder V] {crates : Crates V K} {build : Build}

def withEnvironment (crates : Crates V K) (build : Build) (config : SelfUpdateConfig) (environment : Environment) :
    Except String (Updater crates build) :=
  match hvalid : config.validate crates build with
  | .error error => .error error
  | .ok _ =>
    match hkey : decodePublicKey crates (config.publicKey.getD releasePublicKey) with
    | .error error => .error error
    | .ok key =>
      match hrunning : crates.parseVersion build.version with
      | none => .error "this binary's own version is not semver"
      | some running => .ok ⟨config, environment, key, running, hvalid, hkey, hrunning⟩

variable (u : Updater crates build)

def mode : Mode :=
  if u.environment.container then .managedExternally else if u.config.enabled then .own else .disabled

def previousFile : String := previousPath u.environment.exe

def stagedFile : String := stagingPath u.environment.exe "staged" u.environment.processId

def rollbackFile : String := stagingPath u.environment.exe "rollback" u.environment.processId

def status (shared : Shared V) : UpdateStatus where
  enabled := u.config.enabled
  version := build.version
  target := build.target
  mode := u.mode
  latest := shared.latest
  state := shared.phase
  progress := shared.progress
  lastCheckedAt := shared.lastCheckedAt
  lastError := shared.lastError
  previous := shared.previous

def ensureActionable : Except UpdateError Unit :=
  match u.mode with
  | .own => .ok ()
  | .managedExternally =>
    .error (conflict "this atmux runs from a container image and is managed externally")
  | .disabled => .error (conflict "self-update is disabled in this machine's configuration")

def ensureWritableDirectory (answer : Answer) : Except UpdateError Unit :=
  if answer.writable then .ok ()
  else .error (conflict (parent u.environment.exe ++ " is not writable, so this atmux cannot replace itself"))

def inProgress : UpdateError := conflict "an update is already in progress"

def refuse (w : World V) (error : UpdateError) : World V × List (Task V) := (w.happened (.answered (.error error)), [])

/-! ## Checks -/

def manualCheckInterval : Nat := 30000

/-- The refusals of a check that do not depend on an update in progress. -/
def checkCalled (answer : Answer) (w : World V) (manual : Bool) (next : Next) : World V × List (Task V) :=
  match u.ensureActionable with
  | .error error => refuse w error
  | .ok _ =>
    if manual then
      match w.shared.lastManualCheck with
      | some previous =>
        if answer.instant - previous < manualCheckInterval then
          refuse w (conflict "an update check already ran in the last 30 seconds")
        else ({ w with shared := { w.shared with lastManualCheck := some answer.instant } }, [.checking next])
      | none => ({ w with shared := { w.shared with lastManualCheck := some answer.instant } }, [.checking next])
    else (w, [.checking next])

def checking (w : World V) (next : Next) : World V × List (Task V) :=
  if w.shared.busy then refuse w inProgress
  else ({ w with shared := { w.shared with phase := .checking } }, [.discovering next])

/-- Fetches the release index, then the signed checksum document. An error can
come with a release to show as unverified. -/
def discover (answer : Answer) :
    Except (Option LatestRelease × String) (Option LatestRelease × Option (Candidate V)) :=
  match answer.release with
  | .error error => .error (none, error)
  | .ok body =>
    match crates.parseRelease body with
    | none => .error (none, "GitHub returned an unreadable release")
    | some release =>
      match selectCandidate crates release u.running build.target with
      | .error error => .error (none, error)
      | .ok none => .ok (none, none)
      | .ok (some candidate) =>
        match fetchManifest answer with
        | .error error => .error (none, error)
        | .ok (checksums, signature) =>
          match signedChecksum crates u.key candidate checksums signature with
          | .error error => .error (some (describe crates candidate false), error)
          | .ok _ => .ok (some (describe crates candidate true), some candidate)

def discovering (answer : Answer) (w : World V) (next : Next) : World V × List (Task V) :=
  match u.discover answer with
  | .ok found => (w, [.concluding next (.ok found)])
  | .error (none, error) => (w, [.concluding next (.error error)])
  | .error (some latest, error) =>
    ({ w with shared := { w.shared with latest := some latest } }, [.concluding next (.error error)])

def Next.task : Next → Task V
  | .report => .reporting
  | .claim => .claiming
  | .background => .ready

def concluding (answer : Answer) (w : World V) (next : Next)
    (outcome : Except String (Option LatestRelease × Option (Candidate V))) : World V × List (Task V) :=
  let shared := { w.shared with
    lastCheckedAt := some answer.now
    -- An apply that started while this check was on the network owns the phase.
    phase := if w.shared.busy then w.shared.phase else .idle }
  let shared := match outcome with
    | .ok (latest, candidate) => { shared with latest, candidate, lastError := none }
    | .error error => { shared with lastError := some error }
  ({ w with shared }, [Next.task next])

def reporting (w : World V) : World V × List (Task V) := (w.happened (.answered (.ok (u.status w.shared))), [])

/-- A candidate is stored and the release shown is verified. -/
def applicable (shared : Shared V) : Bool :=
  shared.candidate.isSome && shared.latest.any fun latest => latest.verified

/-- The periodic check goes on to apply when policy allows. -/
def ready (w : World V) : World V × List (Task V) :=
  (w, if u.config.autoApply && applicable w.shared then [.applyCalled] else [])

/-! ## Applies -/

def applyCalled (answer : Answer) (w : World V) : World V × List (Task V) :=
  match u.ensureActionable with
  | .error error => refuse w error
  | .ok _ =>
    match u.ensureWritableDirectory answer with
    | .error error => refuse w error
    | .ok _ => if w.shared.busy then refuse w inProgress else (w, [.deciding])

def deciding (w : World V) : World V × List (Task V) :=
  (w, if w.shared.candidate.isNone then [.checkCalled false .claim] else [.claiming])

/-- Claims `busy` in the critical section that reads the candidate. -/
def claiming (build : Build) (w : World V) : World V × List (Task V) :=
  if w.shared.busy then refuse w inProgress
  else
    match w.shared.candidate.filter fun _ => w.shared.latest.any fun latest => latest.verified with
    | none =>
      refuse w (conflict
        ("no verified release newer than " ++ build.version ++ " is available for " ++ build.target))
    | some candidate =>
      ({ w with shared := { w.shared with busy := true, phase := .downloading, progress := none, lastError := none } },
        [.installing candidate, .reporting])

def fail (w : World V) (error : String) : World V × List (Task V) := (w, [.finishing (.error error)])

def installing (answer : Answer) (w : World V) (candidate : Candidate V) : World V × List (Task V) :=
  match fetchManifest answer with
  | .error error => fail w error
  | .ok (checksums, signature) =>
    match signedChecksum crates u.key candidate checksums signature with
    | .error error => fail w error
    | .ok expected => (w, [.downloading candidate ⟨checksums, signature, expected⟩])

def downloading (answer : Answer) (w : World V) (candidate : Candidate V) (fetched : Fetched) :
    World V × List (Task V) :=
  let cleared := discard answer w.files u.stagedFile
  if !answer.created || (cleared u.stagedFile).isSome then
    fail { w with files := cleared } ("could not stage " ++ u.stagedFile)
  else
    let (sink, outcome) := download answer
    let shared := { w.shared with progress := some ⟨sink.written, sink.total⟩ }
    let files := Function.update cleared u.stagedFile (some sink.content)
    match outcome with
    | .error error => fail { w with shared, files := discard answer files u.stagedFile } error
    | .ok _ =>
      ({ w with shared, files },
        [.verifying candidate fetched sink.content (crates.sha256 sink.content) sink.written])

def verifying (answer : Answer) (w : World V) (candidate : Candidate V) (fetched : Fetched) (content : Bytes)
    (digest : String) (written : Nat) : World V × List (Task V) :=
  let w := { w with shared := { w.shared with phase := .verifying } }
  let discarded := { w with files := discard answer w.files u.stagedFile }
  if digest ≠ fetched.expected then
    fail discarded ("the downloaded " ++ candidate.asset ++ " does not match its signed SHA-256")
  else if written = 0 then fail discarded ("the downloaded " ++ candidate.asset ++ " is empty")
  else (w, [.probing candidate fetched content])

def probing (answer : Answer) (w : World V) (candidate : Candidate V) (fetched : Fetched) (content : Bytes) :
    World V × List (Task V) :=
  if !answer.runnable then fail w "could not make the staged atmux executable runnable"
  else
    match probeVersion crates build.target answer.probe (some (crates.printVersion candidate.version)) with
    | .error error => fail { w with files := discard answer w.files u.stagedFile } error
    | .ok _ =>
      ({ w with shared := { w.shared with phase := .applying } },
        [.swapping candidate fetched content (answer.probe.toOption.getD "")])

/-- The files after a change of the executable, and how to go on. -/
def changed (w : World V) (change : Proc String Disk String) (applied : String) (replaced : Option Bytes) :
    World V × List (Task V) :=
  match change.run ⟨w.files, []⟩ with
  | (.ok replacedSha, disk) => ({ w with files := disk.files }, [.recording applied replacedSha replaced])
  | (.error error, disk) => fail { w with files := disk.files } error

def swapping (answer : Answer) (w : World V) (candidate : Candidate V) (fetched : Fetched) (content : Bytes)
    (output : String) : World V × List (Task V) :=
  changed (w.happened (.swapping candidate fetched content output (w.files u.stagedFile)))
    (replaceExecutable crates answer.faults u.environment.exe u.previousFile u.stagedFile)
    (crates.printVersion candidate.version) (w.files u.environment.exe)

/-! ## Rollbacks -/

def rollbackCalled (answer : Answer) (w : World V) : World V × List (Task V) :=
  match u.ensureActionable with
  | .error error => refuse w error
  | .ok _ =>
    match u.ensureWritableDirectory answer with
    | .error error => refuse w error
    | .ok _ =>
      if (w.files u.previousFile).isNone then
        refuse w (conflict "this machine has no previous atmux executable to roll back to")
      else (w, [.rollbackClaiming])

def rollbackClaiming (w : World V) : World V × List (Task V) :=
  if w.shared.busy then refuse w inProgress
  else
    ({ w with shared := { w.shared with busy := true, phase := .applying, progress := none, lastError := none } },
      [.rollingBack, .reporting])

def readState (answer : Answer) (w : World V) : Option PersistedState := if answer.stateRead then w.record else none

/-- A rollback only goes into the file this node set aside. -/
def rollingBack (answer : Answer) (w : World V) : World V × List (Task V) :=
  match (readState answer w).bind fun state => state.previousSha256 with
  | none => fail w ("no recorded SHA-256 for " ++ u.previousFile ++ "; refusing an unverified rollback")
  | some recorded =>
    match ((fileSha256 answer.faults crates.sha256 u.previousFile).run ⟨w.files, []⟩).1 with
    | .error error => fail w error
    | .ok actual =>
      if actual ≠ recorded then
        fail w (u.previousFile ++ " is not the executable this atmux set aside; refusing to roll back into it")
      else
        match probeVersion crates build.target answer.probe none with
        | .error error => fail w error
        | .ok restored => (w, [.restoring restored])

def restoring (answer : Answer) (w : World V) (restored : V) : World V × List (Task V) :=
  changed w (restorePrevious answer.faults crates.sha256 u.environment.exe u.previousFile u.rollbackFile)
    (crates.printVersion restored) (w.files u.environment.exe)

/-! ## The end of an operation -/

def recordApplied (answer : Answer) (applied replaced replacedSha : String) : PersistedState where
  version := stateVersion
  appliedVersion := some applied
  previousVersion := some replaced
  previousPath := some u.previousFile
  previousSha256 := some replacedSha
  appliedAtMs := some answer.now

/-- Records what was applied, and schedules the restart. -/
def recording (answer : Answer) (w : World V) (applied replacedSha : String) (replaced : Option Bytes) :
    World V × List (Task V) :=
  let state := u.recordApplied answer applied build.version replacedSha
  let w := { w with shared := { w.shared with previous := some ⟨build.version, u.previousFile⟩ } }
  match answer.stateWritten with
  | .error error => fail w error
  | .ok _ =>
    (({ w with record := some state }).happened (.recorded replaced (w.files u.previousFile) state),
      .finishing (.ok ()) :: if u.environment.restart then [.restarting] else [])

def finishing (w : World V) (outcome : Except String Unit) : World V × List (Task V) :=
  let shared := { w.shared with busy := false, progress := none }
  let shared := match outcome with
    | .ok _ => { shared with phase := .restarting }
    | .error error => { shared with phase := .failed, lastError := some error }
  (({ w with shared }).happened (.finished outcome), [])

/-- The delayed re-execution failed; one that does not ends the process. -/
def restarting (answer : Answer) (w : World V) : World V × List (Task V) :=
  ({ w with shared := { w.shared with
      phase := .failed
      lastError := some ("the new atmux is installed but this process could not restart into it: " ++
        answer.execError) } }, [])

/-! ## Turns and runs -/

def act (answer : Answer) (w : World V) : Task V → World V × List (Task V)
  | .checkCalled manual next => u.checkCalled answer w manual next
  | .checking next => checking w next
  | .discovering next => u.discovering answer w next
  | .concluding next outcome => concluding answer w next outcome
  | .reporting => u.reporting w
  | .ready => u.ready w
  | .applyCalled => u.applyCalled answer w
  | .deciding => deciding w
  | .claiming => claiming build w
  | .installing candidate => u.installing answer w candidate
  | .downloading candidate fetched => u.downloading answer w candidate fetched
  | .verifying candidate fetched content digest written =>
    u.verifying answer w candidate fetched content digest written
  | .probing candidate fetched content => u.probing answer w candidate fetched content
  | .swapping candidate fetched content output => u.swapping answer w candidate fetched content output
  | .rollbackCalled => u.rollbackCalled answer w
  | .rollbackClaiming => rollbackClaiming w
  | .rollingBack => u.rollingBack answer w
  | .restoring restored => u.restoring answer w restored
  | .recording applied replacedSha replaced => u.recording answer w applied replacedSha replaced
  | .finishing outcome => finishing w outcome
  | .restarting => restarting answer w

/-- What a process finds when it starts. -/
def restorePersistedState (files : String → Option Bytes) (record : Option PersistedState) : Shared V :=
  { Shared.default V with
    previous := (record.bind fun state => state.previousVersion).bind fun version =>
      if (files u.previousFile).isSome then some ⟨version, u.previousFile⟩ else none }

def start (files : String → Option Bytes) (record : Option PersistedState) : Pool (World V) (Task V) :=
  ⟨⟨u.restorePersistedState files record, files, record, []⟩, []⟩

/-- The process's run through calls and turns in any order. -/
def run (files : String → Option Bytes) (record : Option PersistedState) (turns : List (Turn Request Answer)) :
    Pool (World V) (Task V) :=
  (u.start files record).run Request.task u.act turns

end Updater

end Atmux.SelfUpdate
