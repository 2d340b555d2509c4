/-
The record of a rollback, and the file it is about.

Both operations leave the executable they replaced at `.prev` and record its
digest, so the digest is always right; the version they record is the one this
process was compiled with, which is the replaced executable's only while the
process has not been replaced itself. `record_truthful_iff` is this for every
run, `second_rollback_misreports` a run where the version is wrong.
-/
import Mathlib.Data.Prod.Lex
import Atmux.SelfUpdate.Operations

namespace Atmux.SelfUpdate

open Lib Proc Volume

/-! ## What the changes leave at `.prev` -/

section Changes

variable {faults : SwapStep → Bool} {message exe aside source previous staged staging : String} {volume : Disk}

/-- The running file is under its other name when it was set aside. -/
theorem wp_setAside_kept (hne : aside ≠ exe) :
    wp (setAside faults message exe aside)
      (fun _ volume' => ∃ old, volume.files exe = some old ∧ volume'.files aside = some old)
      (fun _ _ => True) volume := by
  cases hexe : volume.files exe with
  | some old =>
    rw [wp_setAside hexe hne]
    split
    · exact ⟨old, rfl, by simp [linkedAside, after]⟩
    split
    · trivial
    · exact ⟨old, rfl, by simp [movedAside, after]⟩
  | none =>
    rw [wp_setAside_none hexe hne]
    trivial

/-- An installed file took the executable's name, and nothing else changed. -/
theorem wp_installOver_frame {linked : Bool} :
    wp (installOver faults message linked exe aside source)
      (fun _ volume' => ∀ path, path ≠ exe → path ≠ source → volume'.files path = volume.files path)
      (fun _ _ => True) volume := by
  rw [installOver, wp_bind, wp_attempt, wp_rename]
  split
  · intro path hexe hsource
    simp [after, hexe, hsource]
  · simp only [wp_bind, wp_attempt, wp_stop]
    exact wp_true

theorem wp_syncDirectory_frame :
    wp (syncDirectory faults exe) (fun _ volume' => volume'.files = volume.files) (fun _ _ => True) volume := by
  rw [wp_syncDirectory]
  split
  · trivial
  · rfl

theorem wp_fileSha256_frame {sha256 : Bytes → String} {path : String} :
    wp (fileSha256 faults sha256 path)
      (fun digest volume' => volume'.files = volume.files ∧
        ∃ content, volume.files path = some content ∧ digest = sha256 content)
      (fun _ _ => True) volume := by
  rw [fileSha256, wp_bind, wp_context, contents, wp_call]
  cases hcontent : volume.files path with
  | none => simp
  | some content => cases faults .hash <;> simp [after]

variable {V K : Type} {crates : Crates V K}

/-- An install that replaced the executable kept it, and has its digest. -/
theorem replaceExecutable_kept (hprevious : previous ≠ exe) (hstaged : staged ≠ previous) :
    wp (replaceExecutable crates faults exe previous staged)
      (fun digest volume' => ∃ old, volume.files exe = some old ∧ volume'.files previous = some old ∧
        digest = crates.sha256 old)
      (fun _ _ => True) volume := by
  simp only [replaceExecutable, swapIntoPlace, wp_bind, wp_pure]
  refine wp_mono wp_fileSha256_frame (fun digest volume₁ hread => ?_) fun _ _ => id
  obtain ⟨hfiles, old, hexe, rfl⟩ := hread
  refine wp_mono (wp_setAside_kept hprevious) (fun linked volume₂ haside => ?_) fun _ _ => id
  obtain ⟨old', hexe', haside⟩ := haside
  refine wp_mono wp_installOver_frame (fun _ volume₃ hinstalled => ?_) fun _ _ => id
  refine wp_mono wp_syncDirectory_frame (fun _ volume₄ hsynced => ?_) fun _ _ => id
  rw [hfiles, hexe] at hexe'
  obtain rfl := Option.some.inj hexe'
  refine ⟨old, hexe, ?_, rfl⟩
  rw [hsynced, hinstalled previous hprevious (Ne.symm hstaged), haside]

/-- So did a rollback. -/
theorem restorePrevious_kept (hstaging : staging ≠ exe) (hne : staging ≠ previous) :
    wp (restorePrevious faults crates.sha256 exe previous staging)
      (fun digest volume' => ∃ old, volume.files exe = some old ∧ volume'.files previous = some old ∧
        digest = crates.sha256 old)
      (fun _ _ => True) volume := by
  simp only [restorePrevious, wp_bind, wp_pure, wp_context]
  refine wp_mono (wp_setAside_kept hstaging) (fun linked volume₁ haside => ?_) fun _ _ => id
  obtain ⟨old, hexe, haside⟩ := haside
  refine wp_mono wp_fileSha256_frame (fun digest volume₂ hread => ?_) fun _ _ => id
  obtain ⟨hfiles, content, hcontent, rfl⟩ := hread
  rw [haside] at hcontent
  obtain rfl := Option.some.inj hcontent
  refine wp_mono wp_installOver_frame (fun _ volume₃ hinstalled => ?_) fun _ _ => id
  have hkept : volume₃.files staging = some old := by
    rw [hinstalled staging hstaging hne, hfiles, haside]
  rw [wp_rename]
  split
  · refine wp_mono wp_syncDirectory_frame (fun _ volume₄ hsynced => ?_) fun _ _ => id
    refine ⟨old, hexe, ?_, rfl⟩
    rw [hsynced]
    simp [after, hkept]
  · trivial

end Changes

/-! ## What operations record -/

/-- An operation that recorded `state` while `kept` was at `.prev`; `replaced`
is the executable it replaced. -/
structure Recording where
  replaced : Option Bytes
  kept : Option Bytes
  state : PersistedState
deriving DecidableEq, Repr

def Event.recording {V : Type} : Event V → Option Recording
  | .recorded replaced kept state => some ⟨replaced, kept, state⟩
  | _ => none

def Event.failed {V : Type} : Event V → Bool
  | .finished (.error _) => true
  | _ => false

/-- The recordings of a run, the latest first. -/
def recordings {V : Type} (log : List (Event V)) : List Recording := log.filterMap Event.recording

/-- Every operation of the run that ended succeeded. -/
def AllSucceeded {V : Type} (log : List (Event V)) : Prop := ∀ event ∈ log, event.failed = false

namespace Updater

variable {V K : Type} {crates : Crates V K} {build : Build} (u : Updater crates build)

/-- The file, run with `--version`, reports this version. -/
def Reports (crates : Crates V K) (prints : Bytes → String) (file : Option Bytes) (version : V) : Prop :=
  ∃ content, file = some content ∧ parseVersionLine crates (trimText (prints content)) = .ok version

/-- The record has the digest of the file and the version it reports. -/
structure Describes (crates : Crates V K) (prints : Bytes → String) (state : PersistedState) (file : Option Bytes) :
    Prop where
  digest : ∃ content, file = some content ∧ state.previousSha256 = some (crates.sha256 content)
  version : ∃ text version, state.previousVersion = some text ∧ crates.parseVersion text = some version ∧
    Reports crates prints file version

/-- A recording keeps what it replaced, under its digest and the version this
process was compiled with. -/
structure Recorded (crates : Crates V K) (build : Build) (recording : Recording) : Prop where
  kept : recording.kept = recording.replaced
  digest : ∃ content, recording.kept = some content ∧
    recording.state.previousSha256 = some (crates.sha256 content)
  version : recording.state.previousVersion = some build.version

/-- The record and the file at `.prev` are those of the latest recording. -/
def Current (w : World V) : Prop :=
  ∀ recording, (recordings w.log).head? = some recording →
    w.record = some recording.state ∧ w.files u.previousFile = recording.kept

/-- Unless an operation failed. -/
def CurrentOrFailed (w : World V) : Prop := AllSucceeded w.log → u.Current w

structure Faithful (w : World V) : Prop where
  recorded : ∀ recording ∈ recordings w.log, Recorded crates build recording
  current : w.shared.busy = false → u.CurrentOrFailed w

/-- What a task of an operation knows of the file at `.prev`. -/
def Holds (w : World V) : Task V → Prop
  | .recording _ replacedSha replaced => ∃ old, replaced = some old ∧ w.files u.previousFile = some old ∧
      replacedSha = crates.sha256 old
  | .finishing (.error _) => True
  | task => task.operating = true → u.CurrentOrFailed w

variable {u} {w w' : World V} {task : Task V}

theorem CurrentOrFailed.of_eq (h : u.CurrentOrFailed w) (hfiles : w'.files u.previousFile = w.files u.previousFile)
    (hrecord : w'.record = w.record) (hlog : w'.log = w.log) : u.CurrentOrFailed w' := by
  unfold CurrentOrFailed Current at h ⊢
  rwa [hlog, hrecord, hfiles]

theorem CurrentOrFailed.quiet (h : u.CurrentOrFailed w) (hquiet : w.Quiet w') : u.CurrentOrFailed w' := by
  rcases hquiet.log with hlog | ⟨reply, hlog⟩
  · exact h.of_eq (by rw [hquiet.files]) hquiet.record hlog
  · intro hsucceeded recording hrecording
    rw [hlog] at hsucceeded hrecording
    rw [hquiet.files, hquiet.record]
    exact h (fun event hmem => hsucceeded event (List.mem_cons_of_mem _ hmem)) recording hrecording

theorem recordings_quiet (hquiet : w.Quiet w') : recordings w'.log = recordings w.log := by
  rcases hquiet.log with hlog | ⟨reply, hlog⟩
  · rw [hlog]
  · rw [hlog]
    rfl

/-- A task that is no operation's knows nothing of the disk. -/
theorem Holds.of_not_operating (h : task.operating = false) : u.Holds w task := by
  cases task <;> first
    | exact fun hoperating => absurd hoperating (by rw [h]; decide)
    | cases h

theorem Holds.quiet (h : u.Holds w task) (hquiet : w.Quiet w') : u.Holds w' task := by
  cases task with
  | recording applied replacedSha replaced =>
    obtain ⟨old, hreplaced, hkept, hsha⟩ := h
    exact ⟨old, hreplaced, by rw [hquiet.files, hkept], hsha⟩
  | finishing outcome =>
    cases outcome with
    | error => trivial
    | ok => exact fun hoperating => (h hoperating).quiet hquiet
  | _ => exact fun hoperating => CurrentOrFailed.quiet (h hoperating) hquiet

/-- A recording describes what is at `.prev` exactly when the executable it
replaced reports the version this process was compiled with. -/
theorem Recorded.describes_iff {prints : Bytes → String} {recording : Recording}
    (h : Recorded crates build recording) :
    Describes crates prints recording.state recording.kept ↔
      Reports crates prints recording.replaced u.running := by
  constructor
  · intro hdescribes
    obtain ⟨text, version, htext, hparse, hreports⟩ := hdescribes.version
    rw [h.version] at htext
    obtain rfl := Option.some.inj htext
    rw [u.running_parsed] at hparse
    obtain rfl := Option.some.inj hparse
    rwa [← h.kept]
  · intro hreports
    refine ⟨h.digest, build.version, u.running, h.version, u.running_parsed, ?_⟩
    rwa [h.kept]

/-! ## Every turn -/

theorem Faithful.busy (h : u.Faithful w) (hlog : recordings w'.log = recordings w.log) (hbusy : w'.shared.busy = true) :
    u.Faithful w' where
  recorded := by rw [hlog]; exact h.recorded
  current hfree := by rw [hbusy] at hfree; cases hfree

theorem stagedFile_ne_previousFile (u : Updater crates build) : u.stagedFile ≠ u.previousFile :=
  stagingPath_ne_previousPath _ _ rfl (by decide)

theorem discard_previous (answer : Answer) (files : String → Option Bytes) :
    discard answer files u.stagedFile u.previousFile = files u.previousFile := by
  unfold discard
  split
  · exact Function.update_of_ne u.stagedFile_ne_previousFile.symm _ _
  · rfl

/-- A change of the executable ends with the old one at `.prev`. -/
theorem changed_faithful {change : Proc String Disk String} {applied : String} (h : u.Faithful w)
    (hbusy : w.shared.busy = true)
    (hchange : wp change
      (fun digest volume => ∃ old, w.files u.environment.exe = some old ∧ volume.files u.previousFile = some old ∧
        digest = crates.sha256 old)
      (fun _ _ => True) ⟨w.files, []⟩) :
    u.Faithful (changed w change applied (w.files u.environment.exe)).1 ∧
      ∀ next ∈ (changed w change applied (w.files u.environment.exe)).2,
        u.Holds (changed w change applied (w.files u.environment.exe)).1 next := by
  unfold changed
  split
  next digest disk hrun =>
    obtain ⟨old, hexe, hkept, hdigest⟩ := wp_run hchange hrun
    refine ⟨h.busy rfl hbusy, fun next hnext => ?_⟩
    obtain rfl := List.mem_singleton.1 hnext
    exact ⟨old, hexe, hkept, hdigest⟩
  · exact ⟨h.busy rfl hbusy, by simp [fail, Holds]⟩

variable [LinearOrder V]

/-- A turn of a task that is no operation's. -/
theorem act_faithful_quiet (answer : Answer) (h : u.Faithful w) (hoperating : task.operating = false) :
    u.Faithful (u.act answer w task).1 ∧ ∀ next ∈ (u.act answer w task).2, u.Holds (u.act answer w task).1 next := by
  have hquiet := u.act_quiet answer w hoperating
  refine ⟨⟨?_, fun hfree => ?_⟩, fun next hnext => ?_⟩
  · rw [recordings_quiet hquiet]
    exact h.recorded
  · have hbalance := u.act_balance answer w task fun htrue => by rw [hoperating] at htrue; cases htrue
    have hbusy : w.shared.busy = false := by
      cases hbusy : w.shared.busy with
      | false => rfl
      | true => simp [hoperating, hbusy, hfree] at hbalance
    exact (h.current hbusy).quiet hquiet
  · cases hnext' : next.operating with
    | false => exact Holds.of_not_operating hnext'
    | true =>
      obtain ⟨hbusy, ⟨candidate, rfl⟩ | rfl⟩ := u.act_claims answer w hoperating hnext hnext'
      · exact fun _ => (h.current hbusy).quiet hquiet
      · exact fun _ => (h.current hbusy).quiet hquiet

theorem act_faithful (answer : Answer) (h : u.Faithful w) (htask : u.Holds w task)
    (hbusy : task.operating = true → w.shared.busy = true) :
    u.Faithful (u.act answer w task).1 ∧ ∀ next ∈ (u.act answer w task).2, u.Holds (u.act answer w task).1 next := by
  cases hoperating : task.operating with
  | false => exact act_faithful_quiet answer h hoperating
  | true =>
  replace hbusy := hbusy hoperating
  cases task with
  | installing candidate =>
    simp only [act, installing, fail]
    repeat' split
    · exact ⟨h, by simp [Holds]⟩
    · exact ⟨h, by simp [Holds]⟩
    · refine ⟨h, fun next hnext => ?_⟩
      obtain rfl := List.mem_singleton.1 hnext
      exact htask
  | downloading candidate fetched =>
    simp only [act, downloading, fail]
    split
    · exact ⟨h.busy rfl hbusy, by simp [Holds]⟩
    split
    · exact ⟨h.busy rfl hbusy, by simp [Holds]⟩
    · refine ⟨h.busy rfl hbusy, fun next hnext => ?_⟩
      obtain rfl := List.mem_singleton.1 hnext
      refine fun _ => CurrentOrFailed.of_eq (htask rfl) ?_ rfl rfl
      exact (Function.update_of_ne u.stagedFile_ne_previousFile.symm _ _).trans (discard_previous answer _)
  | verifying candidate fetched content digest written =>
    simp only [act, verifying, fail]
    split
    · exact ⟨h.busy rfl hbusy, by simp [Holds]⟩
    split
    · exact ⟨h.busy rfl hbusy, by simp [Holds]⟩
    · refine ⟨h.busy rfl hbusy, fun next hnext => ?_⟩
      obtain rfl := List.mem_singleton.1 hnext
      exact fun _ => CurrentOrFailed.of_eq (htask rfl) rfl rfl rfl
  | probing candidate fetched content =>
    simp only [act, probing, fail]
    split
    · exact ⟨h, by simp [Holds]⟩
    split
    · exact ⟨h.busy rfl hbusy, by simp [Holds]⟩
    · refine ⟨h.busy rfl hbusy, fun next hnext => ?_⟩
      obtain rfl := List.mem_singleton.1 hnext
      exact fun _ => CurrentOrFailed.of_eq (htask rfl) rfl rfl rfl
  | swapping candidate fetched content output =>
    have hlogged : u.Faithful (w.happened (.swapping candidate fetched content output (w.files u.stagedFile))) :=
      h.busy rfl hbusy
    exact changed_faithful hlogged hbusy
      (replaceExecutable_kept (previousPath_ne _) u.stagedFile_ne_previousFile)
  | rollingBack =>
    simp only [act, rollingBack, fail]
    repeat' split
    · exact ⟨h, by simp [Holds]⟩
    · exact ⟨h, by simp [Holds]⟩
    · exact ⟨h, by simp [Holds]⟩
    · exact ⟨h, by simp [Holds]⟩
    · refine ⟨h, fun next hnext => ?_⟩
      obtain rfl := List.mem_singleton.1 hnext
      exact htask
  | restoring restored =>
    exact changed_faithful h hbusy
      (restorePrevious_kept (stagingPath_ne _ _ _) (stagingPath_ne_previousPath _ _ rfl (by decide)))
  | recording applied replacedSha replaced =>
    obtain ⟨old, rfl, hkept, rfl⟩ := htask
    simp only [act, recording, fail]
    split
    · exact ⟨h.busy rfl hbusy, by simp [Holds]⟩
    · refine ⟨⟨fun recording hmem => ?_, fun hfree => absurd (hbusy.symm.trans hfree) (by decide)⟩, fun next hnext => ?_⟩
      · rcases List.mem_cons.1 hmem with rfl | hmem
        · exact ⟨hkept, ⟨old, hkept, rfl⟩, rfl⟩
        · exact h.recorded recording hmem
      · rcases List.mem_cons.1 hnext with rfl | hnext
        · intro _ _ recording hlatest
          obtain rfl := Option.some.inj hlatest
          exact ⟨rfl, rfl⟩
        · split at hnext
          · obtain rfl := List.mem_singleton.1 hnext
            exact Holds.of_not_operating rfl
          · cases hnext
  | finishing outcome =>
    refine ⟨⟨h.recorded, fun _ => ?_⟩, by simp [act, finishing]⟩
    cases outcome with
    | error error =>
      intro hsucceeded
      have hfailed := hsucceeded (.finished (.error error)) (List.mem_cons_self ..)
      cases hfailed
    | ok done =>
      intro hsucceeded
      exact (htask rfl) fun event hmem => hsucceeded event (List.mem_cons_of_mem _ hmem)
  | _ => cases hoperating

theorem keeps_faithful :
    Pool.Keeps (R := Request) Request.task u.act Task.operating (fun w => w.shared.busy) u.Faithful u.Holds where
  enter_task w request := Holds.of_not_operating (by cases request <;> rfl)
  enter_token request := by cases request <;> rfl
  step answer w task h htask hbusy := act_faithful answer h htask hbusy
  balance answer w task := u.act_balance answer w task
  frame answer w task other h htask hother hboth := by
    cases hoperating : task.operating with
    | false => exact hother.quiet (u.act_quiet answer w hoperating)
    | true =>
      cases hother' : other.operating with
      | false => exact Holds.of_not_operating hother'
      | true => exact absurd ⟨hoperating, hother'⟩ hboth

/-- **When the record of a rollback is truthful.** In every run: the recorded
digest is always the one of the file at `.prev`; every recording describes
that file exactly when every operation of the run replaced an executable that
reports this process's own version; and while the operations succeed, the
record and the file at rest are those of the latest recording. -/
theorem record_truthful_iff (u : Updater crates build) (prints : Bytes → String) (files : String → Option Bytes)
    (record : Option PersistedState) (turns : List (Turn Request Answer)) :
    ((∀ recording ∈ recordings (u.run files record turns).world.log,
        Describes crates prints recording.state recording.kept) ↔
      ∀ recording ∈ recordings (u.run files record turns).world.log,
        Reports crates prints recording.replaced u.running) ∧
    (∀ recording ∈ recordings (u.run files record turns).world.log, ∃ content,
      recording.kept = some content ∧ recording.state.previousSha256 = some (crates.sha256 content)) ∧
    (AllSucceeded (u.run files record turns).world.log → (u.run files record turns).world.shared.busy = false →
      u.Current (u.run files record turns).world) := by
  have hstart : Pool.Sound Task.operating (fun w => w.shared.busy) u.Faithful u.Holds (u.start files record) := by
    refine ⟨⟨?_, ?_⟩, ?_, rfl⟩
    · exact fun _ hmem => by cases hmem
    · exact fun _ _ _ hnone => by cases hnone
    · exact fun _ hmem => by cases hmem
  have hrun := (keeps_faithful.run turns hstart).world
  refine ⟨?_, fun recording hmem => (hrun.recorded recording hmem).digest, fun hsucceeded hfree => ?_⟩
  · constructor
    · intro h recording hmem
      exact (hrun.recorded recording hmem).describes_iff.1 (h recording hmem)
    · intro h recording hmem
      exact (hrun.recorded recording hmem).describes_iff.2 (h recording hmem)
  · exact hrun.current hfree hsucceeded

end Updater

/-! ## Two rollbacks before the restart -/

namespace Opt

abbrev Version := ℕ ×ₗ ℕ ×ₗ ℕ

def number (digits : List Char) : Option ℕ :=
  if digits.isEmpty || !digits.all Char.isDigit then none
  else some (digits.foldl (fun n c => 10 * n + (c.toNat - '0'.toNat)) 0)

def parseVersion (text : String) : Option Version := do
  let (major, rest) ← Text.cut '.' text.toList
  let (minor, patch) ← Text.cut '.' rest
  pure (toLex (← number major, toLex (← number minor, ← number patch)))

def printVersion (version : Version) : String :=
  let (major, rest) := ofLex version
  let (minor, patch) := ofLex rest
  toString major ++ "." ++ toString minor ++ "." ++ toString patch

def sha256 : Bytes → String
  | [1] => "4bf5122f344554c53bde2ebb8cd2b7e3d1600ad631c385a5d7cce23c7785459a"
  | [2] => "dbc1b4c900ffe48d575b5da5c638040125f65db0fe3e24494b76ea986457d986"
  | _ => ""

def keyBytes : Bytes :=
  [134, 241, 80, 68, 102, 184, 198, 244, 66, 41, 230, 179, 173, 99, 231, 138, 27, 177, 146, 93, 254, 46, 202, 247,
    132, 206, 6, 97, 159, 138, 201, 20]

def crates : Crates Version Bytes where
  parseVersion
  printVersion
  isPrerelease _ := false
  sha256
  decodeBase64 text := if text = releasePublicKey then some keyBytes else none
  keyFromBytes := some
  verifyStrict _ _ _ := false
  parseRelease _ := none

def build : Build := ⟨"0.2.0", "x86_64-unknown-linux-gnu", false⟩

/-- The running executable `[2]` is version 0.2.0, the one before it was 0.1.0. -/
def prints : Bytes → String
  | [1] => "atmux 0.1.0 (x86_64-unknown-linux-gnu)\n"
  | [2] => "atmux 0.2.0 (x86_64-unknown-linux-gnu)\n"
  | _ => ""

def updater : Updater crates build where
  config := { SelfUpdateConfig.default with enabled := true }
  environment := ⟨"/opt/atmux", 7, false, true⟩
  key := keyBytes
  running := toLex (0, toLex (2, 0))
  valid := by decide +kernel
  key_decoded := by decide +kernel
  running_parsed := by decide +kernel

def record : PersistedState where
  version := stateVersion
  appliedVersion := some "0.2.0"
  previousVersion := some "0.1.0"
  previousPath := some "/opt/atmux.prev"
  previousSha256 := some (sha256 [1])
  appliedAtMs := some 1000

/-- A rollback to the file at `.prev`, from the call to its end; its restart is
still to come. -/
def rollbackTurns (previous : Bytes) : List (Turn Request Answer) :=
  [.call .rollback, .advance 0 {}, .advance 0 {}, .advance 0 { probe := .ok (prints previous) }, .advance 0 {},
    .advance 0 {}, .advance 0 {}]

def rolledBack (turns : List (Turn Request Answer)) : World Version := (updater.run files (some record) turns).world

theorem reports_current : Updater.Reports crates prints (some [2]) (toLex (0, toLex (2, 0)) : Version) :=
  ⟨[2], rfl, by decide +kernel⟩

theorem reports_previous : Updater.Reports crates prints (some [1]) (toLex (0, toLex (1, 0)) : Version) :=
  ⟨[1], rfl, by decide +kernel⟩

end Opt

theorem first_rollback_described :
    (recordings (Opt.rolledBack (Opt.rollbackTurns [1])).log).length = 1 ∧
      ∀ recording ∈ recordings (Opt.rolledBack (Opt.rollbackTurns [1])).log,
        Updater.Describes Opt.crates Opt.prints recording.state recording.kept := by
  have hreplaced : (recordings (Opt.rolledBack (Opt.rollbackTurns [1])).log).map Recording.replaced = [some [2]] := by
    decide +kernel
  refine ⟨by simpa using congrArg List.length hreplaced, ?_⟩
  refine (Updater.record_truthful_iff Opt.updater Opt.prints Opt.files (some Opt.record) (Opt.rollbackTurns [1])).1.2
    fun recording hmem => ?_
  have hmem' : recording.replaced ∈
      (recordings (Opt.rolledBack (Opt.rollbackTurns [1])).log).map Recording.replaced := List.mem_map_of_mem hmem
  rw [hreplaced] at hmem'
  rw [List.mem_singleton.1 hmem']
  exact Opt.reports_current

/-- A second rollback before the process restarts: both succeed, and the
record says version 0.2.0 of a file that reports 0.1.0. -/
theorem second_rollback_misreports :
    AllSucceeded (Opt.rolledBack (Opt.rollbackTurns [1] ++ Opt.rollbackTurns [2])).log ∧
      (Opt.rolledBack (Opt.rollbackTurns [1] ++ Opt.rollbackTurns [2])).shared.busy = false ∧
      ∃ state, (Opt.rolledBack (Opt.rollbackTurns [1] ++ Opt.rollbackTurns [2])).record = some state ∧
        ¬ Updater.Describes Opt.crates Opt.prints state
          ((Opt.rolledBack (Opt.rollbackTurns [1] ++ Opt.rollbackTurns [2])).files (previousPath "/opt/atmux")) := by
  have hall : (Opt.rolledBack (Opt.rollbackTurns [1] ++ Opt.rollbackTurns [2])).log.all
      (fun event => !event.failed) = true := by decide +kernel
  have hversion : (Opt.rolledBack (Opt.rollbackTurns [1] ++ Opt.rollbackTurns [2])).record.bind
      (fun state => state.previousVersion) = some "0.2.0" := by decide +kernel
  have hkept : (Opt.rolledBack (Opt.rollbackTurns [1] ++ Opt.rollbackTurns [2])).files (previousPath "/opt/atmux") =
      some [1] := by decide +kernel
  refine ⟨fun event hmem => by simpa using List.all_eq_true.1 hall event hmem, by decide +kernel, ?_⟩
  obtain ⟨state, hrecord, hversion⟩ := Option.bind_eq_some_iff.1 hversion
  refine ⟨state, hrecord, fun hdescribes => ?_⟩
  obtain ⟨text, version, htext, hparse, content, hcontent, hreports⟩ := hdescribes.version
  obtain rfl := Option.some.inj (htext.symm.trans hversion)
  have hparsed : Opt.crates.parseVersion "0.2.0" = some (toLex (0, toLex (2, 0))) := by decide +kernel
  obtain ⟨_, hcontent', hprevious⟩ := Opt.reports_previous
  rw [hkept] at hcontent
  obtain rfl := Option.some.inj hcontent
  obtain rfl := Option.some.inj hcontent'
  rw [hparsed] at hparse
  rw [hprevious, ← Option.some.inj hparse] at hreports
  exact absurd (Except.ok.inj hreports) (by decide)

end Atmux.SelfUpdate
