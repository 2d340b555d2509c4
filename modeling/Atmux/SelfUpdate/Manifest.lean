/-
The documents a self-update reads: the release GitHub describes, the signed
manifest of its assets, and the line a binary prints for `--version`.

Signatures, digests, base64, version numbers and JSON are other crates' work;
`Crates` is what the updater uses of them. `SignedManifest.parse_listed` and
`select_newer` say what a parsed manifest and a chosen candidate are known to
be.
-/
import Mathlib.Order.Lattice
import Atmux.Lib.Text
import Atmux.SelfUpdate.Swap

namespace Atmux.SelfUpdate

open Lib

structure GithubAsset where
  name : String
  browserDownloadUrl : String
deriving DecidableEq, Repr

structure GithubRelease where
  tagName : String
  prerelease : Bool
  draft : Bool
  publishedAt : Option String
  assets : List GithubAsset
deriving DecidableEq, Repr

/-- What is used of other crates: versions `V` and their order, keys `K`. -/
structure Crates (V K : Type) where
  parseVersion : String → Option V
  printVersion : V → String
  /-- The version has a prerelease part. -/
  isPrerelease : V → Bool
  sha256 : Bytes → String
  decodeBase64 : String → Option Bytes
  keyFromBytes : Bytes → Option K
  verifyStrict : K → Bytes → Bytes → Bool
  parseRelease : Bytes → Option GithubRelease

def decodeUtf8 (bytes : Bytes) : Option String := String.fromUTF8? ⟨bytes.toArray⟩

def trimText (text : String) : String := String.ofList (Text.trim text.toList)

def checksumAsset : String := "SHA256SUMS"

def signatureAsset : String := "SHA256SUMS.sig"

def maxAssetBytes : Nat := 256 * 1024 * 1024

def assetName (target : String) : String := "atmux-" ++ target

/-! ## Keys and signatures -/

section Signatures

variable {V K : Type} (crates : Crates V K)

def decodePublicKey (encoded : String) : Except String K :=
  match crates.decodeBase64 (trimText encoded) with
  | none => .error "release public key is not valid base64"
  | some bytes =>
    if bytes.length = 32 then
      match crates.keyFromBytes bytes with
      | none => .error "release public key is not a valid Ed25519 key"
      | some key => .ok key
    else .error "release public key must decode to exactly 32 bytes"

def verifyDetached (key : K) (message : Bytes) (signature : String) : Except String Unit :=
  match crates.decodeBase64 (trimText signature) with
  | none => .error "release signature is not valid base64"
  | some bytes =>
    if bytes.length = 64 then
      if crates.verifyStrict key message bytes then .ok ()
      else .error "release signature did not verify against the compiled-in key"
    else .error "release signature must decode to exactly 64 bytes"

/-- A signature that passes is one of 64 bytes over exactly the message. -/
theorem verifyDetached_ok {crates : Crates V K} {key : K} {message : Bytes} {signature : String}
    (h : verifyDetached crates key message signature = .ok ()) :
    ∃ raw, crates.decodeBase64 (trimText signature) = some raw ∧ raw.length = 64 ∧
      crates.verifyStrict key message raw = true := by
  unfold verifyDetached at h
  split at h
  · cases h
  next raw hraw =>
  split at h
  next hlength =>
    split at h
    next hverified => exact ⟨raw, hraw, hlength, hverified⟩
    · cases h
  · cases h

end Signatures

/-! ## The signed manifest -/

structure SignedManifest (V : Type) where
  version : V
  entries : List (String × String)

/-- 64 hexadecimal digits. -/
def isDigest (digest : List Char) : Bool := digest.length == 64 && digest.all Text.isHexDigit

namespace SignedManifest

variable {V K : Type} (crates : Crates V K)

/-- The manifest read so far. -/
structure Reading (V : Type) where
  version : Option V
  entries : List (String × String)

def readHeader (line : List Char) : Except String V :=
  match Text.strip "version ".toList line with
  | none => .error "SHA256SUMS must begin with a `version vX.Y.Z` line"
  | some header =>
    match crates.parseVersion (String.ofList ((Text.trim header).dropWhile (· == 'v'))) with
    | none => .error ("SHA256SUMS has an unparseable version header " ++ (String.ofList header).quote)
    | some version => .ok version

def readEntry (entries : List (String × String)) (line : List Char) : Except String (List (String × String)) :=
  match (Text.cutText "  ".toList line).or (Text.cutText " *".toList line) with
  | none => .error "SHA256SUMS has a line that is not sha256sum format"
  | some (digest, name) =>
    if !isDigest digest then .error "SHA256SUMS has a line whose digest is not 64 hex characters"
    else if name.isEmpty then .error "SHA256SUMS has a line with no asset name"
    else if entries.any fun entry => entry.1 == String.ofList name then
      .error ("SHA256SUMS names " ++ String.ofList name ++ " more than once")
    else .ok (entries ++ [(String.ofList name, String.ofList (digest.map Text.asciiLower))])

def readLine (reading : Reading V) (line : List Char) : Except String (Reading V) :=
  let line := Text.trimEnd line
  if line.isEmpty then .ok reading
  else
    match reading.version with
    | none => (readHeader crates line).map fun version => { reading with version := some version }
    | some _ => (readEntry reading.entries line).map fun entries => { reading with entries := entries }

def parse (document : String) : Except String (SignedManifest V) :=
  match (Text.lines document.toList).foldlM (readLine crates) ⟨none, []⟩ with
  | .error error => .error error
  | .ok ⟨none, _⟩ => .error "SHA256SUMS carries no version header"
  | .ok ⟨some version, entries⟩ =>
    if entries.isEmpty then .error "SHA256SUMS lists no assets" else .ok ⟨version, entries⟩

def checksumFor (manifest : SignedManifest V) (asset : String) : Except String String :=
  match manifest.entries.find? fun entry => entry.1 == asset with
  | none => .error ("SHA256SUMS has no entry for " ++ asset)
  | some entry => .ok entry.2

/-- The assets of a manifest are named once each, with a digest. -/
structure Listed (entries : List (String × String)) : Prop where
  digests : ∀ entry ∈ entries, isDigest entry.2.toList = true
  names : (entries.map Prod.fst).Nodup

theorem readEntry_listed {entries entries' : List (String × String)} {line : List Char} (h : Listed entries)
    (hread : readEntry entries line = .ok entries') : Listed entries' := by
  unfold readEntry at hread
  split at hread
  · cases hread
  next digest name _ =>
  split at hread
  · cases hread
  next hdigest =>
  split at hread
  · cases hread
  split at hread
  · cases hread
  next hnew =>
    obtain rfl := Except.ok.inj hread
    simp only [isDigest, Bool.not_eq_true', Bool.not_eq_false, Bool.and_eq_true, beq_iff_eq, List.all_eq_true] at hdigest
    simp only [List.any_eq_true, beq_iff_eq, not_exists, not_and] at hnew
    refine ⟨fun entry hentry => ?_, ?_⟩
    · rcases List.mem_append.1 hentry with hentry | hentry
      · exact h.digests entry hentry
      · obtain rfl := List.mem_singleton.1 hentry
        simp only [isDigest, String.toList_ofList, List.length_map, hdigest.1, beq_self_eq_true, Bool.true_and,
          List.all_eq_true, List.mem_map]
        rintro _ ⟨c, hc, rfl⟩
        exact Text.isHexDigit_asciiLower (hdigest.2 c hc)
    · rw [List.map_append, List.nodup_append]
      refine ⟨h.names, by simp, fun a ha b hb hab => ?_⟩
      obtain ⟨entry, hentry, rfl⟩ := List.mem_map.1 ha
      obtain rfl := List.mem_singleton.1 hb
      exact hnew entry hentry hab

theorem readLine_listed {reading reading' : Reading V} {line : List Char} (h : Listed reading.entries)
    (hread : readLine crates reading line = .ok reading') : Listed reading'.entries := by
  unfold readLine at hread
  dsimp only at hread
  split at hread
  · obtain rfl := Except.ok.inj hread
    exact h
  split at hread
  · cases hheader : readHeader crates (Text.trimEnd line) with
    | error => simp [hheader, Except.map] at hread
    | ok version =>
      simp only [hheader, Except.map, Except.ok.injEq] at hread
      subst hread
      exact h
  · cases hentry : readEntry reading.entries (Text.trimEnd line) with
    | error => simp [hentry, Except.map] at hread
    | ok entries =>
      simp only [hentry, Except.map, Except.ok.injEq] at hread
      subst hread
      exact readEntry_listed h hentry

theorem parse_listed {document : String} {manifest : SignedManifest V} (h : parse crates document = .ok manifest) :
    Listed manifest.entries := by
  have hlines : ∀ (lines : List (List Char)) (reading reading' : Reading V), Listed reading.entries →
      lines.foldlM (readLine crates) reading = .ok reading' → Listed reading'.entries := by
    intro lines
    induction lines with
    | nil =>
      intro reading reading' hlisted hread
      obtain rfl := Except.ok.inj hread
      exact hlisted
    | cons line lines ih =>
      intro reading reading' hlisted hread
      rw [List.foldlM_cons] at hread
      cases hline : readLine crates reading line with
      | error => simp [hline, bind, Except.bind] at hread
      | ok next =>
        simp only [hline, bind, Except.bind] at hread
        exact ih next reading' (readLine_listed crates hlisted hline) hread
  unfold parse at h
  split at h
  · cases h
  · cases h
  next version entries hread =>
    split at h
    · cases h
    · obtain rfl := Except.ok.inj h
      exact hlines _ _ _ ⟨by simp, by simp⟩ hread

/-- The digest found for an asset is one the manifest lists. -/
theorem checksumFor_mem {manifest : SignedManifest V} {asset digest : String}
    (h : manifest.checksumFor asset = .ok digest) : (asset, digest) ∈ manifest.entries := by
  unfold checksumFor at h
  split at h
  · cases h
  next entry hfind =>
    obtain rfl := Except.ok.inj h
    have hname := List.find?_some hfind
    rw [beq_iff_eq] at hname
    rw [← hname]
    exact List.mem_of_find?_eq_some hfind

end SignedManifest

/-! ## Release URLs -/

structure HttpsUrl where
  host : String
  target : String
deriving DecidableEq, Repr

def allowedHosts : List String :=
  ["api.github.com", "github.com", "objects.githubusercontent.com", "release-assets.githubusercontent.com"]

def parseHttpsUrl (value : String) : Except String HttpsUrl :=
  match Text.strip "https://".toList value.toList with
  | none => .error "release URLs must use https"
  | some rest =>
    let (authority, path) := (Text.cut '/' rest).getD (rest, [])
    if authority.contains '@' then .error "release URLs must not carry credentials"
    else
      let host : Except String (List Char) := match Text.cut ':' authority with
        | some (host, port) =>
          if port = "443".toList then .ok host else .error "release URLs must use the default https port"
        | none => .ok authority
      match host with
      | .error error => .error error
      | .ok host =>
        let host := String.ofList (host.map Text.asciiLower)
        if allowedHosts.contains host then .ok ⟨host, "/" ++ String.ofList path⟩
        else .error ("release host " ++ host ++ " is not a trusted GitHub release host")

def validatedUrl (value : String) : Except String String := (parseHttpsUrl value).map fun _ => value

/-! ## Candidates -/

structure Candidate (V : Type) where
  version : V
  tag : String
  publishedAt : Option String
  asset : String
  assetUrl : String
  checksumsUrl : String
  signatureUrl : String

section Candidates

variable {V K : Type} [LinearOrder V] (crates : Crates V K)

/-- Chooses the release worth installing, or `none` when there is nothing newer. -/
def selectCandidate (release : GithubRelease) (running : V) (target : String) :
    Except String (Option (Candidate V)) :=
  if release.draft || release.prerelease then .ok none
  else
    match crates.parseVersion (String.ofList (release.tagName.toList.dropWhile (· == 'v'))) with
    | none => .ok none
    | some version =>
      if crates.isPrerelease version || version ≤ running then .ok none
      else
        let find (name : String) := release.assets.find? fun item => item.name == name
        match find (assetName target), find checksumAsset, find signatureAsset with
        | some asset, some checksums, some signature => do
          let assetUrl ← validatedUrl asset.browserDownloadUrl
          let checksumsUrl ← validatedUrl checksums.browserDownloadUrl
          let signatureUrl ← validatedUrl signature.browserDownloadUrl
          pure (some {
            version, tag := release.tagName, publishedAt := release.publishedAt, asset := assetName target
            assetUrl, checksumsUrl, signatureUrl })
        | _, _, _ => .ok none

/-- What a chosen candidate is known to be. -/
structure Candidate.Newer (candidate : Candidate V) (running : V) (target : String) : Prop where
  parsed : crates.parseVersion (String.ofList (candidate.tag.toList.dropWhile (· == 'v'))) = some candidate.version
  release : crates.isPrerelease candidate.version = false
  newer : running < candidate.version
  asset : candidate.asset = assetName target

theorem select_newer {release : GithubRelease} {running : V} {target : String} {candidate : Candidate V}
    (h : selectCandidate crates release running target = .ok (some candidate)) :
    candidate.Newer crates running target := by
  unfold selectCandidate at h
  split at h
  · cases h
  split at h
  · cases h
  next version hversion =>
  split at h
  · cases h
  next hnewer =>
  simp only [Bool.or_eq_true, decide_eq_true_eq, not_or, Bool.not_eq_true, not_le] at hnewer
  dsimp only at h
  split at h
  · simp only [bind, Except.bind, pure, Except.pure] at h
    repeat' split at h
    all_goals cases h
    exact ⟨hversion, hnewer.1, hnewer.2, rfl⟩
  · cases h

def ensureManifestMatches (manifest : SignedManifest V) (candidate : Candidate V) : Except String Unit :=
  if manifest.version = candidate.version then .ok ()
  else .error ("the signed release manifest is for " ++ crates.printVersion manifest.version ++ " but release " ++
    candidate.tag ++ " was chosen; refusing a replayed release")

end Candidates

/-! ## Version lines -/

def versionLine (target version : String) : String := "atmux " ++ version ++ " (" ++ target ++ ")"

/-- The version in an `atmux <version> (<target>)` line. -/
def parseVersionLine {V K : Type} (crates : Crates V K) (printed : String) : Except String V :=
  let malformed := .error (printed.quote ++ " is not an atmux --version line")
  match Text.strip "atmux ".toList printed.toList with
  | none => malformed
  | some rest =>
    match Text.cut ' ' rest with
    | none => malformed
    | some (version, target) =>
      if target.head? = some '(' && target.getLast? = some ')' && 2 < target.length then
        match crates.parseVersion (String.ofList version) with
        | none => .error (printed.quote ++ " does not carry a semver version")
        | some version => .ok version
      else malformed

end Atmux.SelfUpdate
