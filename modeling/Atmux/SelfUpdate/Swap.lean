/-
The two changes of the executable: a staged file into its place, and the
previous executable back.

Each sets the running file aside, by a hard link where the filesystem has
them, renames the other file over its name, and undoes the first step when
that fails; all calls on the directory can fail. `wp_setAside` and
`wp_installOver` say what the two shared parts do. `swap_atomic_iff` and
`restore_atomic_iff` say for which single failing call an error leaves the
executable as it was and its kept predecessor in place.
-/
import Atmux.Lib.Directory
import Atmux.Lib.Text

namespace Atmux.SelfUpdate

open Lib Proc Volume

/-- The calls of both changes. -/
inductive SwapStep
  | clear
  | link
  | setAside
  | hash
  | install
  | undo
  | keep
  | sync
deriving DecidableEq, Repr

/-- The bytes of a file. -/
abbrev Bytes := List UInt8

abbrev Disk := Volume SwapStep String Bytes

/-- `Path::parent` of a canonical path. -/
def parent (path : String) : String :=
  match Text.cut '/' path.toList.reverse with
  | some (_, directory) => if directory.isEmpty then "/" else String.ofList directory.reverse
  | none => ""

section Changes

variable (faults : SwapStep → Bool) (sha256 : Bytes → String)

/-- Persists the renames themselves, not just the bytes they moved. -/
def syncDirectory (exe : String) : Proc String Disk Unit :=
  context ("could not flush " ++ parent exe) (flush faults .sync)

def fileSha256 (path : String) : Proc String Disk String := do
  let content ← context ("could not read " ++ path) (contents faults .hash path)
  pure (sha256 content)

/-- Frees the name `aside` and puts the running file there; whether by a hard
link, so that `exe` never stopped resolving. -/
def setAside (message exe aside : String) : Proc String Disk Bool := do
  let _ ← attempt (remove faults .clear aside)
  let linked ← attempt (link faults .link exe aside)
  match linked with
  | .ok _ => pure true
  | .error _ =>
    context message (rename faults .setAside exe aside)
    pure false

/-- Renames `source` over `exe`, or undoes the setting aside. -/
def installOver (message : String) (linked : Bool) (exe aside source : String) : Proc String Disk Unit := do
  let installed ← attempt (rename faults .install source exe)
  match installed with
  | .ok _ => pure ()
  | .error _ =>
    let _ ← attempt (if linked then remove faults .undo aside else rename faults .undo aside exe)
    stop message

/-- Installs the staged executable without the path ever going missing. -/
def swapIntoPlace (exe previous staged : String) : Proc String Disk Unit := do
  let linked ← setAside faults "could not move the running atmux aside" exe previous
  installOver faults "could not install the staged atmux executable" linked exe previous staged
  syncDirectory faults exe

/-- Puts `previous` back at `exe`, keeps what was running as the new
`previous`, and reports the digest of the executable being left behind. -/
def restorePrevious (exe previous staging : String) : Proc String Disk String := do
  let linked ← setAside faults "could not set the running atmux aside for a rollback" exe staging
  let leavingSha ← fileSha256 faults sha256 staging
  installOver faults "could not restore the previous atmux executable" linked exe staging previous
  context "could not keep the rolled-back atmux for a second attempt" (rename faults .keep staging previous)
  syncDirectory faults exe
  pure leavingSha

end Changes

/-! ## What the parts do -/

section Parts

variable {faults : SwapStep → Bool} {message exe aside source : String} {old new : Bytes} {volume : Disk}

/-- The volume once the name `aside` was to be freed. -/
def cleared (faults : SwapStep → Bool) (volume : Disk) (aside : String) : Disk :=
  if !faults .clear && (volume.files aside).isSome then
    volume.after .clear true (Function.update volume.files aside none)
  else volume.after .clear false volume.files

theorem cleared_files_ne {path : String} (h : path ≠ aside) :
    (cleared faults volume aside).files path = volume.files path := by
  unfold cleared
  split <;> simp [after, h]

theorem cleared_isNone :
    ((cleared faults volume aside).files aside).isNone = (!faults .clear || (volume.files aside).isNone) := by
  unfold cleared
  cases faults .clear <;> cases haside : volume.files aside <;> simp [after, haside]

/-- The running file under both names. -/
def linkedAside (start : Disk) (aside : String) (old : Bytes) : Disk :=
  start.after .link true (Function.update start.files aside (some old))

/-- The running file under the new name only. -/
def movedAside (start : Disk) (exe aside : String) (old : Bytes) : Disk :=
  (start.after .link false start.files).after .setAside true
    (Function.update (Function.update start.files exe none) aside (some old))

/-- The running file where it was. -/
def notAside (start : Disk) : Disk := (start.after .link false start.files).after .setAside false start.files

/-- The setting aside after the name `aside` was to be freed. -/
theorem wp_setAside_cleared {post : Bool → Disk → Prop} {halt : String → Disk → Prop} :
    wp (setAside faults message exe aside) post halt volume ↔
      wp (do
        let linked ← attempt (link faults .link exe aside)
        match linked with
        | .ok _ => pure true
        | .error _ =>
          context message (rename faults .setAside exe aside)
          pure false) post halt (cleared faults volume aside) := by
  rw [setAside, wp_bind, wp_attempt, wp_remove]
  simp only [cleared]
  split <;> rfl

theorem wp_setAside {post : Bool → Disk → Prop} {halt : String → Disk → Prop} (hexe : volume.files exe = some old)
    (hne : aside ≠ exe) :
    wp (setAside faults message exe aside) post halt volume ↔
      if !faults .link && ((cleared faults volume aside).files aside).isNone then
        post true (linkedAside (cleared faults volume aside) aside old)
      else if faults .setAside then halt message (notAside (cleared faults volume aside))
      else post false (movedAside (cleared faults volume aside) exe aside old) := by
  have hstart : (cleared faults volume aside).files exe = some old := (cleared_files_ne (Ne.symm hne)).trans hexe
  rw [wp_setAside_cleared, wp_bind, wp_attempt, wp_link, hstart]
  simp only [Option.isSome_some, Bool.true_and]
  split
  · rfl
  · simp only [wp_bind, wp_context, wp_rename, after, hstart, Option.isSome_some, Bool.and_true]
    cases faults .setAside <;> rfl

/-- Without an executable neither the link nor the rename can be made. -/
theorem wp_setAside_none {post : Bool → Disk → Prop} {halt : String → Disk → Prop} (hexe : volume.files exe = none)
    (hne : aside ≠ exe) :
    wp (setAside faults message exe aside) post halt volume ↔
      halt message (notAside (cleared faults volume aside)) := by
  have hstart : (cleared faults volume aside).files exe = none := (cleared_files_ne (Ne.symm hne)).trans hexe
  rw [wp_setAside_cleared, wp_bind, wp_attempt, wp_link, hstart]
  simp only [Option.isSome_none, Bool.false_and, Bool.and_false, Bool.false_eq_true, if_false]
  rw [wp_bind, wp_context, wp_rename]
  simp [after, hstart, notAside]

theorem wp_installOver {linked : Bool} {post : Unit → Disk → Prop} {halt : String → Disk → Prop}
    (hsource : volume.files source = some new) (haside : volume.files aside = some old)
    (hundo : faults .install = true → faults .undo = false) :
    wp (installOver faults message linked exe aside source) post halt volume ↔
      if faults .install then
        halt message ((volume.after .install false volume.files).after .undo true
          (if linked then Function.update volume.files aside none
            else Function.update (Function.update volume.files aside none) exe (some old)))
      else post () (volume.after .install true
        (Function.update (Function.update volume.files source none) exe (some new))) := by
  rw [installOver, wp_bind, wp_attempt, wp_rename, hsource]
  cases hinstall : faults .install with
  | false => rfl
  | true =>
    cases linked with
    | true =>
      simp [wp_remove, after, haside, hundo hinstall]
    | false =>
      simp [wp_rename, after, haside, hundo hinstall]

theorem wp_syncDirectory {post : Unit → Disk → Prop} {halt : String → Disk → Prop} :
    wp (syncDirectory faults exe) post halt volume ↔
      if faults .sync then halt ("could not flush " ++ parent exe) (volume.after .sync false volume.files)
      else post () (volume.after .sync true volume.files) := by
  rw [syncDirectory, wp_context, wp_flush]
  cases faults .sync <;> rfl

theorem wp_fileSha256 {sha256 : Bytes → String} {path : String} {content : Bytes} {post : String → Disk → Prop}
    {halt : String → Disk → Prop} (h : volume.files path = some content) :
    wp (fileSha256 faults sha256 path) post halt volume ↔
      if faults .hash then halt ("could not read " ++ path) (volume.after .hash false volume.files)
      else post (sha256 content) (volume.after .hash true volume.files) := by
  rw [fileSha256, wp_bind, wp_context, wp_contents h]
  cases faults .hash <;> rfl

end Parts

/-! ## Failure atomicity -/

/-- The one call that fails, on a filesystem with or without hard links. -/
def singleFault (links : Bool) (fault : Option SwapStep) (step : SwapStep) : Bool :=
  (step == .link && !links) || fault == some step

/-- Whether a call made the hard link. -/
def Linked (moment : Moment SwapStep String Bytes) : Prop := moment.label = .link ∧ moment.succeeded = true

/-- From the first hard link on, the executable's name stood for the whole old
or the whole new file. -/
def WholeSinceLink (exe : String) (old new : Bytes) : List (Moment SwapStep String Bytes) → Prop
  | [] => True
  | moment :: trail =>
    ((∃ linked ∈ moment :: trail, Linked linked) → moment.files exe = some old ∨ moment.files exe = some new) ∧
      WholeSinceLink exe old new trail

/-- The change keeps the executable whole, and an error leaves it as it was
and its predecessor, if there was one, in place. -/
def FailureAtomic {α : Type} (change : Proc String Disk α) (exe previous : String) (old new : Bytes)
    (files : String → Option Bytes) : Prop :=
  wp change (fun _ volume => WholeSinceLink exe old new volume.trail)
    (fun _ volume => WholeSinceLink exe old new volume.trail ∧ volume.files exe = some old ∧
      ((files previous).isSome → (volume.files previous).isSome)) ⟨files, []⟩

section Whole

variable {exe : String} {old new : Bytes} {trail : List (Moment SwapStep String Bytes)} {volume : Disk}
  {files : String → Option Bytes}

/-- No link was made yet, or the executable is whole now and was all along. -/
def Safe (exe : String) (old new : Bytes) (volume : Disk) : Prop :=
  (∀ moment ∈ volume.trail, ¬ Linked moment) ∨
    (WholeSinceLink exe old new volume.trail ∧ (volume.files exe = some old ∨ volume.files exe = some new))

theorem Safe.whole (h : Safe exe old new volume) : WholeSinceLink exe old new volume.trail := by
  rcases h with hunlinked | ⟨hwhole, -⟩
  · generalize volume.trail = trail at hunlinked
    induction trail with
    | nil => trivial
    | cons moment trail ih =>
      refine ⟨fun ⟨linked, hmem, hlinked⟩ => absurd hlinked (hunlinked linked hmem), ih fun moment hmem => ?_⟩
      exact hunlinked moment (List.mem_cons_of_mem _ hmem)
  · exact hwhole

/-- A call other than the link that leaves a whole executable whole. -/
theorem Safe.after (h : Safe exe old new volume) (label : SwapStep) (succeeded : Bool) (hlabel : label ≠ .link)
    (hfiles : volume.files exe = some old ∨ volume.files exe = some new →
      files exe = some old ∨ files exe = some new) : Safe exe old new (volume.after label succeeded files) := by
  rcases h with hunlinked | ⟨hwhole, hexe⟩
  · refine .inl fun moment hmem => ?_
    rcases List.mem_cons.1 hmem with rfl | hmem
    · exact fun hlinked => hlabel hlinked.1
    · exact hunlinked moment hmem
  · exact .inr ⟨⟨fun _ => hfiles hexe, hwhole⟩, hfiles hexe⟩

theorem cleared_unlinked {faults : SwapStep → Bool} {aside : String} :
    ∀ moment ∈ (cleared faults ⟨files, []⟩ aside).trail, ¬ Linked moment := by
  unfold cleared
  split <;> simp [Volume.after, Linked]

end Whole

section Iff

variable {links : Bool} {fault : Option SwapStep} {message exe aside source : String} {old new : Bytes}
  {start volume : Disk} {linked : Bool}

theorem singleFault_undo (h : singleFault links fault .install = true) : singleFault links fault .undo = false := by
  obtain rfl : fault = some .install := by simpa [singleFault] using h
  simp [singleFault]

theorem singleFault_eq {step : SwapStep} (h : step ≠ .link) : singleFault links fault step = (fault == some step) := by
  simp [singleFault, h]

theorem links_of_link {free : Bool} (h : (!singleFault links fault .link && free) = true) : links = true := by
  simp only [singleFault, beq_self_eq_true, Bool.true_and, Bool.and_eq_true, Bool.not_eq_true', Bool.or_eq_false_iff,
    Bool.not_eq_false'] at h
  exact h.1.1

/-- A disk on which the running file was set aside. -/
structure SetAside (exe aside source : String) (old new : Bytes) (linked : Bool) (volume : Disk) : Prop where
  safe : Safe exe old new volume
  exe : volume.files exe = if linked then some old else none
  aside : volume.files aside = some old
  source : volume.files source = some new

theorem setAside_linked (hne : aside ≠ exe) (hsource : source ≠ aside) (hunlinked : ∀ moment ∈ start.trail, ¬ Linked moment)
    (hexe : start.files exe = some old) (hnew : start.files source = some new) :
    SetAside exe aside source old new true (linkedAside start aside old) := by
  have hfiles : (Function.update start.files aside (some old)) exe = some old := by simp [Ne.symm hne, hexe]
  refine ⟨.inr ⟨⟨fun _ => .inl hfiles, ?_⟩, .inl hfiles⟩, hfiles, by simp [linkedAside, after], ?_⟩
  · exact Safe.whole (.inl hunlinked)
  · simp [linkedAside, after, hsource, hnew]

theorem setAside_moved (hne : aside ≠ exe) (hexe : source ≠ exe) (hsource : source ≠ aside)
    (hunlinked : ∀ moment ∈ start.trail, ¬ Linked moment) (hnew : start.files source = some new) :
    SetAside exe aside source old new false (movedAside start exe aside old) := by
  refine ⟨.inl fun moment hmem => ?_, by simp [movedAside, after, Ne.symm hne], by simp [movedAside, after], ?_⟩
  · rcases List.mem_cons.1 hmem with rfl | hmem
    · simp [Linked]
    rcases List.mem_cons.1 hmem with rfl | hmem
    · simp [Linked]
    · exact hunlinked moment hmem
  · simp [movedAside, after, hexe, hsource, hnew]

/-- The running file back under its name. -/
def undone (volume : Disk) (linked : Bool) (exe aside : String) (old : Bytes) : Disk :=
  (volume.after .install false volume.files).after .undo true
    (if linked then Function.update volume.files aside none
      else Function.update (Function.update volume.files aside none) exe (some old))

/-- The new file under the executable's name. -/
def installed (volume : Disk) (exe source : String) (new : Bytes) : Disk :=
  volume.after .install true (Function.update (Function.update volume.files source none) exe (some new))

namespace SetAside

variable (h : SetAside exe aside source old new linked volume)

include h

theorem wp_install {post : Unit → Disk → Prop} {halt : String → Disk → Prop} :
    wp (installOver (singleFault links fault) message linked exe aside source) post halt volume ↔
      if fault = some .install then halt message (undone volume linked exe aside old)
      else post () (installed volume exe source new) := by
  rw [wp_installOver h.source h.aside singleFault_undo, singleFault_eq (by decide)]
  by_cases hfault : fault = some .install <;> simp [hfault, undone, installed]

theorem undone_exe (hne : aside ≠ exe) : (undone volume linked exe aside old).files exe = some old := by
  have hexe := h.exe
  cases linked <;> simp_all [undone, after, Ne.symm hne]

theorem undone_source (hexe : source ≠ exe) (hsource : source ≠ aside) :
    (undone volume linked exe aside old).files source = some new := by
  have hnew := h.source
  cases linked <;> simp_all [undone, after]

theorem undone_safe (hne : aside ≠ exe) : Safe exe old new (undone volume linked exe aside old) := by
  have hinstall : Safe exe old new (volume.after .install false volume.files) := h.safe.after _ _ (by decide) id
  exact hinstall.after _ _ (by decide) fun _ => .inl (h.undone_exe hne)

theorem installed_safe : Safe exe old new (installed volume exe source new) :=
  h.safe.after _ _ (by decide) fun _ => .inr (by simp)

theorem installed_aside (hne : aside ≠ exe) (hsource : source ≠ aside) :
    (installed volume exe source new).files aside = some old := by
  simp [installed, after, hne, Ne.symm hsource, h.aside]

end SetAside

theorem undone_aside (hne : aside ≠ exe) : (undone volume linked exe aside old).files aside = none := by
  cases linked <;> simp [undone, after, hne]

theorem installed_exe : (installed volume exe source new).files exe = some new := by simp [installed, after]

theorem installed_source (hne : source ≠ exe) : (installed volume exe source new).files source = none := by
  simp [installed, after, hne]

theorem notAside_safe (hunlinked : ∀ moment ∈ start.trail, ¬ Linked moment) : Safe exe old new (notAside start) := by
  have hlink : ∀ moment ∈ (start.after .link false start.files).trail, ¬ Linked moment := by
    intro moment hmem
    rcases List.mem_cons.1 hmem with rfl | hmem
    · simp [Linked]
    · exact hunlinked moment hmem
  exact Safe.after (.inl hlink) _ _ (by decide) id

/-- What follows the setting aside in `swap_into_place`. -/
theorem SetAside.swap_iff {previous staged : String} (h : SetAside exe previous staged old new linked volume)
    (hprevious : previous ≠ exe) (hdistinct : staged ≠ previous) {existed : Prop} :
    wp (do
        installOver (singleFault links fault) message linked exe previous staged
        syncDirectory (singleFault links fault) exe)
      (fun _ volume => WholeSinceLink exe old new volume.trail)
      (fun _ volume => WholeSinceLink exe old new volume.trail ∧ volume.files exe = some old ∧
        (existed → (volume.files previous).isSome)) volume ↔
      (fault = some .sync → new = old) ∧ (existed → fault ≠ some .install) := by
  rw [wp_bind, h.wp_install]
  by_cases hinstall : fault = some .install
  · simp [hinstall, (h.undone_safe hprevious).whole, h.undone_exe hprevious, undone_aside hprevious]
  have hsafe := h.installed_safe
  rw [if_neg hinstall, wp_syncDirectory, singleFault_eq (by decide)]
  by_cases hsync : fault = some .sync
  · have hwhole := (hsafe.after .sync false (by decide) id).whole
    have hexe : ((installed volume exe staged new).after .sync false
        (installed volume exe staged new).files).files exe = some new := installed_exe
    have haside : ((installed volume exe staged new).after .sync false
        (installed volume exe staged new).files).files previous = some old := h.installed_aside hprevious hdistinct
    simp [hsync, hwhole, hexe, haside]
  · have hwhole := (hsafe.after .sync true (by decide) id).whole
    simp [hsync, hinstall, hwhole]

/-- What follows the setting aside in `restore_previous`. -/
theorem SetAside.restore_iff {sha256 : Bytes → String} {message' previous staging : String}
    (h : SetAside exe staging previous old new linked volume) (hprevious : previous ≠ exe) (hstaging : staging ≠ exe)
    (hdistinct : previous ≠ staging) :
    wp (do
        let leavingSha ← fileSha256 (singleFault links fault) sha256 staging
        installOver (singleFault links fault) message linked exe staging previous
        context message' (rename (singleFault links fault) .keep staging previous)
        syncDirectory (singleFault links fault) exe
        pure leavingSha)
      (fun _ volume => WholeSinceLink exe old new volume.trail)
      (fun _ volume => WholeSinceLink exe old new volume.trail ∧ volume.files exe = some old ∧
        (volume.files previous).isSome) volume ↔
      fault ≠ some .keep ∧ (fault = some .sync → new = old) ∧ (fault = some .hash → linked = true) := by
  rw [wp_bind, wp_fileSha256 h.aside, singleFault_eq (by decide)]
  by_cases hhash : fault = some .hash
  · have hwhole := (h.safe.after .hash false (by decide) id).whole
    have hexe := h.exe
    simp only [hhash, hwhole]
    cases linked <;> simp_all [after, h.source]
  have hread : SetAside exe staging previous old new linked (volume.after .hash true volume.files) :=
    ⟨h.safe.after _ _ (by decide) id, h.exe, h.aside, h.source⟩
  rw [if_neg (by simpa using hhash), wp_bind, hread.wp_install]
  by_cases hinstall : fault = some .install
  · simp [hinstall, (hread.undone_safe hstaging).whole, hread.undone_exe hstaging,
      hread.undone_source hprevious hdistinct]
  have hsafe := hread.installed_safe
  have hexe : (installed (volume.after .hash true volume.files) exe previous new).files exe = some new := installed_exe
  have haside := hread.installed_aside hstaging hdistinct
  have hnone : (installed (volume.after .hash true volume.files) exe previous new).files previous = none :=
    installed_source hprevious
  generalize installed (volume.after .hash true volume.files) exe previous new = volume at *
  rw [if_neg hinstall, wp_bind, wp_context, wp_rename, singleFault_eq (by decide), haside]
  by_cases hkeep : fault = some .keep
  · simp [hkeep, after, hnone]
  have hkept : Safe exe old new (volume.after .keep true
      (Function.update (Function.update volume.files staging none) previous (some old))) :=
    hsafe.after _ _ (by decide) (by simp [Ne.symm hprevious, Ne.symm hstaging])
  have hexe' : (volume.after .keep true (Function.update (Function.update volume.files staging none) previous
      (some old))).files exe = some new := by
    simp [after, Ne.symm hprevious, Ne.symm hstaging, hexe]
  have hprevious' : (volume.after .keep true (Function.update (Function.update volume.files staging none) previous
      (some old))).files previous = some old := by
    simp [after]
  generalize volume.after .keep true (Function.update (Function.update volume.files staging none) previous
    (some old)) = volume at *
  have hrename : (!(fault == some SwapStep.keep) && (some old).isSome) = true := by simpa using hkeep
  rw [if_pos hrename, wp_bind, wp_syncDirectory, singleFault_eq (by decide)]
  by_cases hsync : fault = some .sync
  · have hwhole := (hkept.after .sync false (by decide) id).whole
    have hexe : (volume.after .sync false volume.files).files exe = some new := hexe'
    have hprevious : (volume.after .sync false volume.files).files previous = some old := hprevious'
    simp [hsync, hwhole, hexe, hprevious]
  · have hwhole := (hkept.after .sync true (by decide) id).whole
    simp [hsync, hkeep, hhash, hwhole]

end Iff

theorem swap_atomic_iff (links : Bool) (fault : Option SwapStep) {exe previous staged : String}
    (hprevious : previous ≠ exe) (hstaged : staged ≠ exe) (hdistinct : staged ≠ previous)
    {files : String → Option Bytes} {old new : Bytes} (hexe : files exe = some old) (hnew : files staged = some new) :
    FailureAtomic (swapIntoPlace (singleFault links fault) exe previous staged) exe previous old new files ↔
      (fault = some .sync → new = old) ∧
        ((files previous).isSome → fault ≠ some .install ∧ (fault = some .setAside → links = true)) := by
  have hstart : (cleared (singleFault links fault) ⟨files, []⟩ previous).files exe = some old :=
    (cleared_files_ne (Ne.symm hprevious)).trans hexe
  have hsource : (cleared (singleFault links fault) ⟨files, []⟩ previous).files staged = some new :=
    (cleared_files_ne hdistinct).trans hnew
  unfold FailureAtomic swapIntoPlace
  rw [wp_bind, wp_setAside hexe hprevious, cleared_isNone]
  split
  next hlinked =>
    have hlinks := links_of_link hlinked
    rw [(setAside_linked hprevious hdistinct cleared_unlinked hstart hsource).swap_iff hprevious hdistinct]
    simp [hlinks]
  next hlinked =>
    split
    next haside =>
      -- the predecessor is gone before the running file is set aside
      obtain rfl : fault = some .setAside := by simpa [singleFault] using haside
      have hlinks : links = false := by simpa [singleFault] using hlinked
      have hfree : ((cleared (singleFault links (some .setAside)) ⟨files, []⟩ previous).files previous).isNone = true := by
        simp [cleared_isNone, singleFault]
      have hwhole : WholeSinceLink exe old new
          (notAside (cleared (singleFault links (some .setAside)) ⟨files, []⟩ previous)).trail :=
        (notAside_safe cleared_unlinked).whole
      generalize cleared (singleFault links (some .setAside)) ⟨files, []⟩ previous = start at *
      have hexe' : (notAside start).files exe = some old := hstart
      have hnone : (notAside start).files previous = none := Option.isNone_iff_eq_none.1 hfree
      simp [hwhole, hexe', hnone, hlinks]
    next haside =>
      have hfault : fault ≠ some .setAside := by
        rintro rfl
        exact haside rfl
      rw [(setAside_moved hprevious hstaged hdistinct cleared_unlinked hsource).swap_iff hprevious hdistinct]
      simp [hfault]

theorem restore_atomic_iff (links : Bool) (fault : Option SwapStep) (sha256 : Bytes → String)
    {exe previous staging : String} (hprevious : previous ≠ exe) (hstaging : staging ≠ exe)
    (hdistinct : previous ≠ staging) {files : String → Option Bytes} {old new : Bytes} (hexe : files exe = some old)
    (hnew : files previous = some new) :
    FailureAtomic (restorePrevious (singleFault links fault) sha256 exe previous staging) exe previous old new files ↔
      fault ≠ some .keep ∧ (fault = some .sync → new = old) ∧ (fault = some .hash → links = true) := by
  have hstart : (cleared (singleFault links fault) ⟨files, []⟩ staging).files exe = some old :=
    (cleared_files_ne (Ne.symm hstaging)).trans hexe
  have hsource : (cleared (singleFault links fault) ⟨files, []⟩ staging).files previous = some new :=
    (cleared_files_ne hdistinct).trans hnew
  unfold FailureAtomic restorePrevious
  rw [wp_bind, wp_setAside hexe hstaging, cleared_isNone]
  simp only [hnew, Option.isSome_some, forall_true_left]
  split
  next hlinked =>
    have hlinks := links_of_link hlinked
    rw [(setAside_linked hstaging hdistinct cleared_unlinked hstart hsource).restore_iff hprevious hstaging hdistinct]
    simp [hlinks]
  next hlinked =>
    split
    next haside =>
      obtain rfl : fault = some .setAside := by simpa [singleFault] using haside
      have hwhole : WholeSinceLink exe old new
          (notAside (cleared (singleFault links (some .setAside)) ⟨files, []⟩ staging)).trail :=
        (notAside_safe cleared_unlinked).whole
      generalize cleared (singleFault links (some .setAside)) ⟨files, []⟩ staging = start at *
      have hexe' : (notAside start).files exe = some old := hstart
      have hprevious' : (notAside start).files previous = some new := hsource
      simp [hwhole, hexe', hprevious']
    next haside =>
      rw [(setAside_moved hstaging hprevious hdistinct cleared_unlinked hsource).restore_iff hprevious hstaging hdistinct]
      have hhash : fault = some .hash → links = false := by
        rintro rfl
        simpa [singleFault] using hlinked
      by_cases hfault : fault = some .hash
      · simp [hfault, hhash hfault]
      · simp [hfault]

/-! ## The updater's own paths -/

def previousPath (exe : String) : String := exe ++ ".prev"

def stagingPath (exe label : String) (processId : Nat) : String :=
  exe ++ "." ++ label ++ "-" ++ toString processId

theorem previousPath_ne (exe : String) : previousPath exe ≠ exe := by
  intro h
  have hlength := congrArg String.length h
  simp [previousPath] at hlength

theorem stagingPath_ne (exe label : String) (processId : Nat) : stagingPath exe label processId ≠ exe := by
  intro h
  have hlength := congrArg String.length h
  have hdash : "-".length = 1 := rfl
  simp [stagingPath] at hlength
  omega

/-- A staging label that does not start like `prev` gives another name. -/
theorem stagingPath_ne_previousPath (exe : String) {label : String} {first : Char} {rest : List Char} (processId : Nat)
    (hlabel : label.toList = first :: rest) (hfirst : first ≠ 'p') :
    stagingPath exe label processId ≠ previousPath exe := by
  intro h
  have hlist := congrArg String.toList h
  simp [stagingPath, previousPath, hlabel] at hlist
  exact hfirst hlist.1

/-- **Which single failures the changes of the executable survive.** An error
of `swap_into_place` leaves the executable and its kept predecessor in place
unless the flush failed, or there was a predecessor and a rename failed; one
of `restore_previous` does unless the flush or the last rename failed, or the
digest could not be read where there are no hard links. -/
theorem executable_change_atomic_iff (links : Bool) (fault : Option SwapStep) (sha256 : Bytes → String) (exe : String)
    (processId : Nat) (files : String → Option Bytes) (old new : Bytes) (hexe : files exe = some old) :
    (files (stagingPath exe "staged" processId) = some new →
      (FailureAtomic (swapIntoPlace (singleFault links fault) exe (previousPath exe) (stagingPath exe "staged" processId))
          exe (previousPath exe) old new files ↔
        (fault = some .sync → new = old) ∧
          ((files (previousPath exe)).isSome → fault ≠ some .install ∧ (fault = some .setAside → links = true)))) ∧
    (files (previousPath exe) = some new →
      (FailureAtomic (restorePrevious (singleFault links fault) sha256 exe (previousPath exe)
          (stagingPath exe "rollback" processId)) exe (previousPath exe) old new files ↔
        fault ≠ some .keep ∧ (fault = some .sync → new = old) ∧ (fault = some .hash → links = true))) := by
  constructor
  · exact swap_atomic_iff links fault (previousPath_ne exe) (stagingPath_ne exe _ _)
      (stagingPath_ne_previousPath exe processId rfl (by decide)) hexe
  · exact restore_atomic_iff links fault sha256 (previousPath_ne exe) (stagingPath_ne exe _ _)
      (Ne.symm (stagingPath_ne_previousPath exe processId rfl (by decide))) hexe

namespace Opt

def files : String → Option Bytes :=
  Function.update (Function.update (Function.update (fun _ => none) "/opt/atmux" (some [2]))
    "/opt/atmux.prev" (some [1])) "/opt/atmux.staged-7" (some [3])

def swap (links : Bool) (fault : Option SwapStep) : Proc String Disk Unit :=
  swapIntoPlace (singleFault links fault) "/opt/atmux" (previousPath "/opt/atmux") (stagingPath "/opt/atmux" "staged" 7)

def rollback (links : Bool) (fault : Option SwapStep) : Proc String Disk String :=
  restorePrevious (singleFault links fault) (fun _ => "") "/opt/atmux" (previousPath "/opt/atmux")
    (stagingPath "/opt/atmux" "rollback" 7)

end Opt

theorem executable_survives_failed_read :
    FailureAtomic (Opt.swap true (some .hash)) "/opt/atmux" (previousPath "/opt/atmux") [2] [3] Opt.files ∧
      FailureAtomic (Opt.rollback true (some .hash)) "/opt/atmux" (previousPath "/opt/atmux") [2] [1] Opt.files := by
  have hexe : Opt.files "/opt/atmux" = some [2] := by decide
  have hswap := executable_change_atomic_iff true (some .hash) (fun _ => "") "/opt/atmux" 7 Opt.files [2] [3] hexe
  have hrestore := executable_change_atomic_iff true (some .hash) (fun _ => "") "/opt/atmux" 7 Opt.files [2] [1] hexe
  exact ⟨(hswap.1 (by decide)).2 (by decide), (hrestore.2 (by decide)).2 (by decide)⟩

/-- A rollback without hard links whose read of the file set aside fails:
nothing undoes the setting aside, and the executable's name is gone. -/
theorem failed_read_loses_executable :
    (world (Opt.rollback false (some .hash)) ⟨Opt.files, []⟩).files "/opt/atmux" = none ∧
      ¬ FailureAtomic (Opt.rollback false (some .hash)) "/opt/atmux" (previousPath "/opt/atmux") [2] [1] Opt.files := by
  refine ⟨by decide +kernel, fun h => ?_⟩
  have hiff := restore_atomic_iff false (some .hash) (fun _ => "") (previousPath_ne "/opt/atmux")
    (stagingPath_ne "/opt/atmux" "rollback" 7) (Ne.symm (stagingPath_ne_previousPath "/opt/atmux" 7 rfl (by decide)))
    (by decide : Opt.files "/opt/atmux" = some [2]) (by decide : Opt.files (previousPath "/opt/atmux") = some [1])
  have hhash := (hiff.1 h).2.2 rfl
  cases hhash

end Atmux.SelfUpdate
