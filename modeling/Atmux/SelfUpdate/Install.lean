/-
What an install has seen by the time it replaces the executable.

`Signed` is what the manifest's checks leave, `Downloaded` what the transfer
and the digest's comparison leave, and `Earned` collects them along the tasks
of an install. The staged file keeps its bytes from the download to the swap
because no other operation runs in between; the check's two ways of writing
`latest` keep it and the candidate together. `only_verified_newer_installed`
is both, for every run.
-/
import Atmux.SelfUpdate.Operations

namespace Atmux.SelfUpdate

open Lib Proc

namespace Updater

variable {V K : Type} [LinearOrder V] {crates : Crates V K} {build : Build}
variable (u : Updater crates build)

/-! ## What the guards leave -/

/-- A manifest signed for exactly this release, and its digest of the asset. -/
structure Signed (candidate : Candidate V) (fetched : Fetched) : Prop where
  signature : ∃ raw, crates.decodeBase64 (trimText fetched.signature) = some raw ∧ raw.length = 64 ∧
    crates.verifyStrict u.key fetched.checksums raw = true
  manifest : ∃ document manifest, decodeUtf8 fetched.checksums = some document ∧
    SignedManifest.parse crates document = .ok manifest ∧ manifest.version = candidate.version ∧
    (candidate.asset, fetched.expected) ∈ manifest.entries
  digest : isDigest fetched.expected.toList = true

/-- The bytes written for the asset. -/
structure Downloaded (crates : Crates V K) (fetched : Fetched) (content : Bytes) : Prop where
  digest : crates.sha256 content = fetched.expected
  nonempty : 1 ≤ content.length
  bounded : content.length ≤ maxAssetBytes

/-- All an install has checked when it comes to the swap. -/
structure Verified (candidate : Candidate V) (fetched : Fetched) (content : Bytes) (output : String)
    (staged : Option Bytes) : Prop where
  newer : candidate.Newer crates u.running build.target
  signed : u.Signed candidate fetched
  downloaded : Downloaded crates fetched content
  printed : trimText output = versionLine build.target (crates.printVersion candidate.version)
  staged : staged = some content

variable {u} {candidate : Candidate V} {fetched : Fetched} {content : Bytes}

theorem signed_of_ok {checksums : Bytes} {signature expected : String}
    (h : signedChecksum crates u.key candidate checksums signature = .ok expected) :
    u.Signed candidate ⟨checksums, signature, expected⟩ := by
  unfold signedChecksum at h
  split at h
  · cases h
  next hsignature =>
  split at h
  · cases h
  next document hdocument =>
  split at h
  · cases h
  next manifest hmanifest =>
  split at h
  · cases h
  next hmatches =>
  have hversion : manifest.version = candidate.version := by
    unfold ensureManifestMatches at hmatches
    split at hmatches
    · assumption
    · cases hmatches
  have hlisted := SignedManifest.checksumFor_mem h
  exact ⟨verifyDetached_ok hsignature, ⟨document, manifest, hdocument, hmanifest, hversion, hlisted⟩,
    (SignedManifest.parse_listed crates hmanifest).digests _ hlisted⟩

/-- What the sink has counted is what it has written, and within the bound. -/
structure StagingSink.Counted (sink : StagingSink) : Prop where
  written : sink.written = sink.content.length
  bounded : sink.written ≤ maxAssetBytes

theorem writeChunk_counted {sink sink' : StagingSink} {chunk : Bytes × Bool} (h : StagingSink.Counted sink)
    (hwrite : sink.writeChunk chunk = .ok sink') : StagingSink.Counted sink' := by
  unfold StagingSink.writeChunk at hwrite
  dsimp only at hwrite
  split at hwrite
  · cases hwrite
  next hbound =>
  split at hwrite
  · cases hwrite
  · obtain rfl := Except.ok.inj hwrite
    have hwritten := h.written
    refine ⟨?_, ?_⟩
    · simp only [List.length_append]
      omega
    · simp only
      omega

theorem writeChunks_counted {chunks : List (Bytes × Bool)} {sink sink' : StagingSink} (h : StagingSink.Counted sink)
    (hwrite : chunks.foldlM StagingSink.writeChunk sink = .ok sink') : StagingSink.Counted sink' := by
  induction chunks generalizing sink with
  | nil =>
    obtain rfl := Except.ok.inj hwrite
    exact h
  | cons chunk chunks ih =>
    rw [List.foldlM_cons] at hwrite
    cases hchunk : sink.writeChunk chunk with
    | error => simp [hchunk, bind, Except.bind] at hwrite
    | ok next =>
      simp only [hchunk, bind, Except.bind] at hwrite
      exact ih (writeChunk_counted h hchunk) hwrite

theorem download_counted {answer : Answer} {sink : StagingSink} {done : Unit} (h : download answer = (sink, .ok done)) :
    StagingSink.Counted sink := by
  unfold download at h
  split at h
  · cases h
  next sink' hchunks =>
    have hcounted := writeChunks_counted ⟨rfl, Nat.zero_le _⟩ hchunks
    split at h
    · cases h
    · obtain ⟨rfl, -⟩ := Prod.mk.inj h
      exact hcounted

omit [LinearOrder V] in
theorem probeVersion_printed {target version : String} {probe : Except String String} {reported : V}
    (h : probeVersion crates target probe (some version) = .ok reported) :
    trimText (probe.toOption.getD "") = versionLine target version := by
  unfold probeVersion at h
  split at h
  · cases h
  next stdout =>
  simp only [Option.map_some] at h
  split at h
  · cases h
  next hprinted => exact not_not.1 hprinted

/-! ## What the tasks of an install know -/

/-- A release shown as verified is the stored candidate. -/
def Matched (crates : Crates V K) (latest : Option LatestRelease) (candidate : Option (Candidate V)) : Prop :=
  ∀ release, latest = some release → release.verified = true →
    ∃ chosen, candidate = some chosen ∧ release = describe crates chosen true

variable (u) in
/-- A task of an install has passed the checks before it. -/
def Earned (files : String → Option Bytes) : Task V → Prop
  | .concluding _ outcome => ∀ latest candidate, outcome = .ok (latest, candidate) →
      Matched crates latest candidate ∧ ∀ chosen, candidate = some chosen → chosen.Newer crates u.running build.target
  | .installing candidate => candidate.Newer crates u.running build.target
  | .downloading candidate fetched => candidate.Newer crates u.running build.target ∧ u.Signed candidate fetched
  | .verifying candidate fetched content digest written =>
    candidate.Newer crates u.running build.target ∧ u.Signed candidate fetched ∧ digest = crates.sha256 content ∧
      written = content.length ∧ written ≤ maxAssetBytes ∧ files u.stagedFile = some content
  | .probing candidate fetched content =>
    candidate.Newer crates u.running build.target ∧ u.Signed candidate fetched ∧ Downloaded crates fetched content ∧
      files u.stagedFile = some content
  | .swapping candidate fetched content output => u.Verified candidate fetched content output (files u.stagedFile)
  | _ => True

variable (u) in
/-- What holds of the world through every run. -/
structure Honest (w : World V) : Prop where
  latest : Matched crates w.shared.latest w.shared.candidate
  candidate : ∀ chosen, w.shared.candidate = some chosen → chosen.Newer crates u.running build.target
  log : ∀ candidate fetched content output staged, .swapping candidate fetched content output staged ∈ w.log →
    u.Verified candidate fetched content output staged

theorem Honest.happened {w : World V} (h : u.Honest w) (event : Event V)
    (hevent : ∀ candidate fetched content output staged, event = .swapping candidate fetched content output staged →
      u.Verified candidate fetched content output staged) : u.Honest (w.happened event) := by
  refine ⟨h.latest, h.candidate, fun candidate fetched content output staged hmem => ?_⟩
  rcases List.mem_cons.1 hmem with heq | hmem
  · exact hevent _ _ _ _ _ heq.symm
  · exact h.log _ _ _ _ _ hmem

/-- A verified release is only found with its candidate. -/
theorem discover_matched {answer : Answer} {latest : Option LatestRelease} {candidate : Option (Candidate V)}
    (h : u.discover answer = .ok (latest, candidate)) :
    Matched crates latest candidate ∧ ∀ chosen, candidate = some chosen → chosen.Newer crates u.running build.target := by
  unfold discover at h
  split at h
  · cases h
  split at h
  · cases h
  split at h
  · cases h
  · cases h
    exact ⟨fun _ hnone => (by cases hnone), fun _ hnone => (by cases hnone)⟩
  next chosen hselect =>
  split at h
  · cases h
  split at h
  · cases h
  · cases h
    refine ⟨fun release hrelease _ => ⟨chosen, rfl, (Option.some.inj hrelease).symm⟩, fun other hother => ?_⟩
    obtain rfl := Option.some.inj hother
    exact select_newer crates hselect

/-- An error of a discovery shows its release as unverified. -/
theorem discover_unverified {answer : Answer} {latest : LatestRelease} {error : String}
    (h : u.discover answer = .error (some latest, error)) : latest.verified = false := by
  unfold discover at h
  repeat' split at h
  all_goals cases h
  rfl

/-! ## Every turn -/

theorem Earned.of_not_operating {files files' : String → Option Bytes} {task : Task V}
    (hoperating : task.operating = false) (h : u.Earned files task) : u.Earned files' task := by
  cases task <;> first
    | exact h
    | cases hoperating

theorem Honest.of_eq {w w' : World V} (h : u.Honest w) (hlatest : w'.shared.latest = w.shared.latest)
    (hcandidate : w'.shared.candidate = w.shared.candidate) (hlog : w'.log = w.log) : u.Honest w' where
  latest := by rw [hlatest, hcandidate]; exact h.latest
  candidate := by rw [hcandidate]; exact h.candidate
  log := by rw [hlog]; exact h.log

theorem Honest.answered {w : World V} (h : u.Honest w) (reply : Except UpdateError UpdateStatus) :
    u.Honest (w.happened (.answered reply)) :=
  h.happened _ fun _ _ _ _ _ heq => by cases heq

omit [LinearOrder V] in
theorem Matched.unverified {latest : LatestRelease} {candidate : Option (Candidate V)} (h : latest.verified = false) :
    Matched crates (some latest) candidate := by
  intro release hrelease hverified
  obtain rfl := Option.some.inj hrelease
  rw [h] at hverified
  cases hverified

/-- One turn keeps the world honest, and its next tasks have earned their place. -/
theorem act_honest (answer : Answer) (w : World V) (task : Task V) (h : u.Honest w) (htask : u.Earned w.files task) :
    u.Honest (u.act answer w task).1 ∧ ∀ next ∈ (u.act answer w task).2, u.Earned (u.act answer w task).1.files next := by
  cases task with
  | checkCalled manual next =>
    simp only [act, checkCalled]
    repeat' split
    all_goals first
      | exact ⟨h.answered _, by simp [refuse]⟩
      | exact ⟨h.of_eq rfl rfl rfl, by simp [Earned]⟩
  | checking next =>
    simp only [act, checking]
    split
    · exact ⟨h.answered _, by simp [refuse]⟩
    · exact ⟨h.of_eq rfl rfl rfl, by simp [Earned]⟩
  | discovering next =>
    simp only [act, discovering]
    split
    next found hfound =>
      refine ⟨h, fun task hmem => ?_⟩
      obtain rfl := List.mem_singleton.1 hmem
      intro latest candidate heq
      obtain rfl := Except.ok.inj heq
      exact discover_matched hfound
    · exact ⟨h, by simp [Earned]⟩
    next latest error hlatest =>
      refine ⟨⟨.unverified (discover_unverified hlatest), h.candidate, h.log⟩, ?_⟩
      simp [Earned]
  | concluding next outcome =>
    simp only [act, concluding]
    refine ⟨?_, fun task hmem => ?_⟩
    · cases outcome with
      | error => exact h.of_eq rfl rfl rfl
      | ok found =>
        obtain ⟨hmatched, hnewer⟩ := htask _ _ rfl
        exact ⟨hmatched, hnewer, h.log⟩
    · obtain rfl := List.mem_singleton.1 hmem
      cases next <;> trivial
  | reporting => exact ⟨h.answered _, by simp [act, reporting]⟩
  | ready =>
    refine ⟨h, fun task hmem => ?_⟩
    simp only [act, ready] at hmem
    split at hmem <;> simp_all [Earned]
  | applyCalled =>
    simp only [act, applyCalled]
    repeat' split
    all_goals first
      | exact ⟨h.answered _, by simp [refuse]⟩
      | exact ⟨h, by simp [Earned]⟩
  | deciding =>
    refine ⟨h, fun task hmem => ?_⟩
    simp only [act, deciding] at hmem
    split at hmem <;> simp_all [Earned]
  | claiming =>
    simp only [act, claiming]
    split
    · exact ⟨h.answered _, by simp [refuse]⟩
    split
    · exact ⟨h.answered _, by simp [refuse]⟩
    next candidate hcandidate =>
      refine ⟨h.of_eq rfl rfl rfl, fun task hmem => ?_⟩
      simp only [List.mem_cons, List.not_mem_nil, or_false] at hmem
      rcases hmem with rfl | rfl
      · exact h.candidate candidate (Option.filter_eq_some_iff.1 hcandidate).1
      · trivial
  | installing candidate =>
    simp only [act, installing, fail]
    repeat' split
    · exact ⟨h, by simp [Earned]⟩
    · exact ⟨h, by simp [Earned]⟩
    next hsigned =>
      refine ⟨h, fun task hmem => ?_⟩
      obtain rfl := List.mem_singleton.1 hmem
      exact ⟨htask, signed_of_ok hsigned⟩
  | downloading candidate fetched =>
    simp only [act, downloading, fail]
    split
    · exact ⟨h.of_eq rfl rfl rfl, by simp [Earned]⟩
    split
    · exact ⟨h.of_eq rfl rfl rfl, by simp [Earned]⟩
    next hdownload =>
      have hcounted := download_counted (Prod.ext rfl hdownload)
      refine ⟨h.of_eq rfl rfl rfl, fun task hmem => ?_⟩
      obtain rfl := List.mem_singleton.1 hmem
      exact ⟨htask.1, htask.2, rfl, hcounted.written, hcounted.bounded, by simp⟩
  | verifying candidate fetched content digest written =>
    obtain ⟨hnewer, hsigned, hdigest, hwritten, hbounded, hstaged⟩ := htask
    simp only [act, verifying, fail]
    split
    · exact ⟨h.of_eq rfl rfl rfl, by simp [Earned]⟩
    next hexpected =>
    split
    · exact ⟨h.of_eq rfl rfl rfl, by simp [Earned]⟩
    next hempty =>
      refine ⟨h.of_eq rfl rfl rfl, fun task hmem => ?_⟩
      obtain rfl := List.mem_singleton.1 hmem
      have hdownloaded : Downloaded crates fetched content :=
        ⟨hdigest ▸ not_not.1 hexpected, by omega, by omega⟩
      exact ⟨hnewer, hsigned, hdownloaded, hstaged⟩
  | probing candidate fetched content =>
    obtain ⟨hnewer, hsigned, hdownloaded, hstaged⟩ := htask
    simp only [act, probing, fail]
    split
    · exact ⟨h, by simp [Earned]⟩
    split
    · exact ⟨h.of_eq rfl rfl rfl, by simp [Earned]⟩
    next hprobe =>
      refine ⟨h.of_eq rfl rfl rfl, fun task hmem => ?_⟩
      obtain rfl := List.mem_singleton.1 hmem
      exact ⟨hnewer, hsigned, hdownloaded, probeVersion_printed hprobe, hstaged⟩
  | swapping candidate fetched content output =>
    have hlogged : u.Honest (w.happened (.swapping candidate fetched content output (w.files u.stagedFile))) := by
      refine h.happened _ fun _ _ _ _ _ heq => ?_
      cases heq
      exact htask
    simp only [act, swapping, changed, fail]
    split <;> exact ⟨hlogged.of_eq rfl rfl rfl, by simp [Earned]⟩
  | rollbackCalled =>
    simp only [act, rollbackCalled]
    repeat' split
    all_goals first
      | exact ⟨h.answered _, by simp [refuse]⟩
      | exact ⟨h, by simp [Earned]⟩
  | rollbackClaiming =>
    simp only [act, rollbackClaiming]
    split
    · exact ⟨h.answered _, by simp [refuse]⟩
    · exact ⟨h.of_eq rfl rfl rfl, by simp [Earned]⟩
  | rollingBack =>
    simp only [act, rollingBack, fail]
    repeat' split
    all_goals exact ⟨h, by simp [Earned]⟩
  | restoring restored =>
    simp only [act, restoring, changed, fail]
    split <;> exact ⟨h.of_eq rfl rfl rfl, by simp [Earned]⟩
  | recording applied replacedSha replaced =>
    simp only [act, recording, fail]
    split
    · exact ⟨h.of_eq rfl rfl rfl, by simp [Earned]⟩
    · have hlogged := h.happened (.recorded replaced (w.files u.previousFile)
        (u.recordApplied answer applied build.version replacedSha)) fun _ _ _ _ _ heq => by cases heq
      refine ⟨hlogged.of_eq rfl rfl rfl, fun task hmem => ?_⟩
      split at hmem
      · simp only [List.mem_cons, List.not_mem_nil, or_false] at hmem
        rcases hmem with rfl | rfl <;> trivial
      · obtain rfl := List.mem_singleton.1 hmem
        trivial
  | finishing outcome =>
    have hlogged := h.happened (.finished outcome) fun _ _ _ _ _ heq => by cases heq
    refine ⟨?_, by simp [act, finishing]⟩
    cases outcome <;> exact hlogged.of_eq rfl rfl rfl
  | restarting => exact ⟨h.of_eq rfl rfl rfl, by simp [act, restarting]⟩

theorem keeps_honest :
    Pool.Keeps (R := Request) Request.task u.act Task.operating (fun w => w.shared.busy) u.Honest
      (fun w => u.Earned w.files) where
  enter_task w request := by cases request <;> trivial
  enter_token request := by cases request <;> rfl
  step answer w task h htask _ := act_honest answer w task h htask
  balance answer w task := u.act_balance answer w task
  frame answer w task other h htask hother hboth := by
    cases hoperating : task.operating with
    | false => rwa [(u.act_quiet answer w hoperating).files]
    | true =>
      cases hother' : other.operating with
      | false => exact hother.of_not_operating hother'
      | true => exact absurd ⟨hoperating, hother'⟩ hboth

/-- **Only a verified newer release is installed.** In every run, whatever was
fetched, written and printed: an install that comes to replacing the
executable has passed every check, and the staged file is what it checked;
and a release shown as verified is the stored candidate. -/
theorem only_verified_newer_installed (u : Updater crates build) (files : String → Option Bytes)
    (record : Option PersistedState) (turns : List (Turn Request Answer)) :
    (∀ candidate fetched content output staged,
      .swapping candidate fetched content output staged ∈ (u.run files record turns).world.log →
        u.Verified candidate fetched content output staged) ∧
    ∀ latest, (u.run files record turns).world.shared.latest = some latest → latest.verified = true →
      ∃ candidate, (u.run files record turns).world.shared.candidate = some candidate ∧
        latest = describe crates candidate true := by
  have hstart : Pool.Sound Task.operating (fun w => w.shared.busy) u.Honest (fun w => u.Earned w.files)
      (u.start files record) := by
    refine ⟨⟨?_, ?_, ?_⟩, ?_, rfl⟩
    · exact fun _ hnone => by cases hnone
    · exact fun _ hnone => by cases hnone
    · exact fun _ _ _ _ _ hmem => by cases hmem
    · exact fun _ hmem => by cases hmem
  have hrun := (keeps_honest.run turns hstart).world
  exact ⟨hrun.log, hrun.latest⟩

end Updater

end Atmux.SelfUpdate
