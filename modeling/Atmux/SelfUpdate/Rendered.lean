/-
The signed manifest as `sha256sum` writes it, read back.

A line of `sha256sum` is the digest, two spaces and the name, or in binary mode
the digest, a space, a star and the name. The reader looks for two spaces
anywhere in the line before it looks for a space and a star, so a name with two
spaces in a row is misread when its line is in binary mode, and only then
(`parse_render_iff`).
-/
import Mathlib.Data.List.Infix
import Mathlib.Data.List.Nodup
import Atmux.SelfUpdate.Manifest

namespace Atmux.SelfUpdate

open Lib

/-- What the crate for version numbers is relied on: a printed version starts
with a digit, is of the characters of a version, and parses back. -/
structure Crates.PrintsVersions {V K : Type} (crates : Crates V K) : Prop where
  parse_print (version : V) : crates.parseVersion (crates.printVersion version) = some version
  starts (version : V) : ∃ c rest, (crates.printVersion version).toList = c :: rest ∧ c.isDigit = true
  characters (version : V) : ∀ c ∈ (crates.printVersion version).toList, (c.isAlphanum || ['.', '-', '+'].contains c) = true

/-- How `sha256sum` marks the mode a file was read in. -/
inductive ReadMode where
  | text
  | binary
deriving DecidableEq, Repr

def ReadMode.mark : ReadMode → List Char
  | text => "  ".toList
  | binary => " *".toList

/-- An asset of a release as its line gives it. -/
structure SignedAsset where
  name : String
  mode : ReadMode
  digest : String
deriving DecidableEq, Repr

namespace SignedAsset

def line (asset : SignedAsset) : List Char := asset.digest.toList ++ (asset.mode.mark ++ asset.name.toList)

/-- What the manifest is to hold of the asset. -/
def entry (asset : SignedAsset) : String × String :=
  (asset.name, String.ofList (asset.digest.toList.map Text.asciiLower))

/-- A name of one line with no white space at its end, and 64 hexadecimal digits. -/
structure Listable (asset : SignedAsset) : Prop where
  named : asset.name.toList ≠ []
  oneLine : '\n' ∉ asset.name.toList
  trimmed : ∀ c ∈ asset.name.toList.getLast?, Text.isWhitespace c = false
  digest : isDigest asset.digest.toList = true

/-- A name with two spaces in a row, in binary mode. -/
def Misread (asset : SignedAsset) : Prop := asset.mode = .binary ∧ [' ', ' '] <:+: asset.name.toList

end SignedAsset

theorem trimmed_of_last {text : List Char} {last : Char} (h : text.getLast? = some last)
    (hlast : Text.isWhitespace last = false) : ∀ c ∈ text.getLast?, Text.isWhitespace c = false := by
  intro c hc
  rw [h] at hc
  obtain rfl := Option.some.inj hc
  exact hlast

section Render

variable {V K : Type} (crates : Crates V K)

def versionHeader (version : V) : List Char := ("version v" ++ crates.printVersion version).toList

/-- The document for a version and its assets. -/
def renderManifest (version : V) (assets : List SignedAsset) : String :=
  String.ofList ((versionHeader crates version :: assets.map SignedAsset.line).flatMap fun line => line ++ ['\n'])

/-- The document parses to the version, and to the digest of every asset. -/
def Recovered (version : V) (assets : List SignedAsset) : Prop :=
  ∃ manifest, SignedManifest.parse crates (renderManifest crates version assets) = .ok manifest ∧
    manifest.version = version ∧ manifest.entries = assets.map SignedAsset.entry ∧
    ∀ asset ∈ assets, manifest.checksumFor asset.name = .ok asset.entry.2

end Render

/-! ## Lines of a rendered document -/

theorem isHexDigit_of_digest {digest : String} (h : isDigest digest.toList = true) :
    ∀ c ∈ digest.toList, Text.isHexDigit c = true := by
  rw [isDigest, Bool.and_eq_true, List.all_eq_true] at h
  exact h.2

/-- A digest has neither spaces nor line ends in it. -/
theorem not_mem_digest {digest : String} (h : isDigest digest.toList = true) {c : Char} (hc : Text.isHexDigit c = false) :
    c ∉ digest.toList := by
  intro hmem
  rw [isHexDigit_of_digest h c hmem] at hc
  cases hc

namespace SignedAsset

variable {asset : SignedAsset}

theorem mem_mark {c : Char} (h : c ∈ asset.mode.mark) : c = ' ' ∨ c = '*' := by
  cases hmode : asset.mode with
  | text => exact .inl (by simpa [hmode, ReadMode.mark] using h)
  | binary => simpa [hmode, ReadMode.mark] using h

theorem Listable.line_feed (h : asset.Listable) : '\n' ∉ asset.line := by
  rw [line, List.mem_append, List.mem_append]
  rintro (hmem | hmem | hmem)
  · exact not_mem_digest h.digest (by decide) hmem
  · rcases mem_mark hmem with h | h <;> cases h
  · exact h.oneLine hmem

/-- The line ends as the name does. -/
theorem Listable.getLast?_line (h : asset.Listable) : asset.line.getLast? = asset.name.toList.getLast? := by
  rw [line, ← List.append_assoc, List.getLast?_append_of_ne_nil _ h.named]

theorem Listable.trimEnd_line (h : asset.Listable) : Text.trimEnd asset.line = asset.line :=
  Text.trimEnd_eq_self fun c hc => h.trimmed c (h.getLast?_line ▸ hc)

theorem Listable.line_return (h : asset.Listable) : asset.line.getLast? ≠ some '\r' := by
  intro hlast
  have hspace := h.trimmed '\r' (by rw [← h.getLast?_line, hlast]; rfl)
  exact absurd hspace (by decide)

theorem Listable.line_ne_nil (h : asset.Listable) : asset.line ≠ [] := by
  rw [line]
  exact List.append_ne_nil_of_right_ne_nil _ (List.append_ne_nil_of_right_ne_nil _ h.named)

/-- The first two spaces of a line: its mark in text mode, in binary mode any in the name. -/
theorem Listable.cutText_spaces (h : asset.Listable) : Text.cutText [' ', ' '] asset.line =
    match asset.mode with
    | .text => some (asset.digest.toList, asset.name.toList)
    | .binary => (Text.cutText [' ', ' '] asset.name.toList).map fun (head, tail) =>
        (asset.digest.toList ++ ' ' :: '*' :: head, tail) := by
  rw [line, Text.cutText_append (not_mem_digest h.digest (by decide))]
  cases asset.mode with
  | text =>
    have hmark : ReadMode.text.mark ++ asset.name.toList = [' ', ' '] ++ asset.name.toList := rfl
    rw [hmark, Text.cutText_self]
    simp
  | binary =>
    have hskip : Text.cutText [' ', ' '] (ReadMode.binary.mark ++ asset.name.toList) =
        (Text.cutText [' ', ' '] asset.name.toList).map fun (head, tail) => (' ' :: '*' :: head, tail) := by
      change Text.cutText [' ', ' '] (' ' :: '*' :: asset.name.toList) = _
      rw [Text.cutText, if_neg (by simp [List.isPrefixOf]), Text.cutText, if_neg (by simp [List.isPrefixOf]),
        Option.map_map]
      rfl
    rw [hskip, Option.map_map]
    rfl

theorem Listable.cutText_star (h : asset.Listable) (hmode : asset.mode = .binary) :
    Text.cutText [' ', '*'] asset.line = some (asset.digest.toList, asset.name.toList) := by
  rw [line, Text.cutText_append (not_mem_digest h.digest (by decide)), hmode]
  have hmark : ReadMode.binary.mark ++ asset.name.toList = [' ', '*'] ++ asset.name.toList := rfl
  rw [hmark, Text.cutText_self]
  simp

/-- The line is cut into the digest and the name, or behind a mark that is too far right. -/
theorem Listable.cut_line (h : asset.Listable) :
    (¬ asset.Misread ∧ (Text.cutText "  ".toList asset.line).or (Text.cutText " *".toList asset.line) =
      some (asset.digest.toList, asset.name.toList)) ∨
    (asset.Misread ∧ ∃ head tail, (Text.cutText "  ".toList asset.line).or (Text.cutText " *".toList asset.line) =
      some (asset.digest.toList ++ ' ' :: '*' :: head, tail)) := by
  have hspaces := h.cutText_spaces
  have hstar := h.cutText_star
  change (¬ asset.Misread ∧ (Text.cutText [' ', ' '] asset.line).or (Text.cutText [' ', '*'] asset.line) = _) ∨
    (asset.Misread ∧ ∃ head tail, (Text.cutText [' ', ' '] asset.line).or (Text.cutText [' ', '*'] asset.line) = _)
  cases hmode : asset.mode with
  | text =>
    rw [hmode] at hspaces
    refine .inl ⟨fun hmisread => ?_, by rw [hspaces]; rfl⟩
    rw [hmisread.1] at hmode
    cases hmode
  | binary =>
    rw [hmode] at hspaces
    cases hcut : Text.cutText [' ', ' '] asset.name.toList with
    | none =>
      refine .inl ⟨fun hmisread => Text.cutText_eq_none_iff.1 hcut hmisread.2, ?_⟩
      rw [hspaces, hcut, hstar hmode]
      rfl
    | some cut =>
      refine .inr ⟨⟨hmode, ?_⟩, cut.1, cut.2, by rw [hspaces, hcut]; rfl⟩
      by_contra hspaces
      rw [Text.cutText_eq_none_iff.2 hspaces] at hcut
      cases hcut

/-- **A line is read as it was written unless it is misread**, and a misread one is an error. -/
theorem Listable.readEntry_line (h : asset.Listable) (entries : List (String × String))
    (hnew : asset.name ∉ entries.map Prod.fst) :
    (¬ asset.Misread ∧ SignedManifest.readEntry entries asset.line = .ok (entries ++ [asset.entry])) ∨
      (asset.Misread ∧ ∃ error, SignedManifest.readEntry entries asset.line = .error error) := by
  rcases h.cut_line with ⟨hread, hcut⟩ | ⟨hmisread, head, tail, hcut⟩
  · refine .inl ⟨hread, ?_⟩
    have hlisted : (entries.any fun entry => entry.1 == asset.name) = false := by
      rw [List.any_eq_false]
      intro entry hentry hname
      exact hnew (List.mem_map.2 ⟨entry, hentry, by simpa using hname⟩)
    have hempty : asset.name.toList.isEmpty = false := List.isEmpty_eq_false_iff.2 h.named
    simp only [SignedManifest.readEntry, hcut, h.digest, hempty, String.ofList_toList, hlisted, Bool.not_true,
      Bool.false_eq_true, if_false, entry]
  · refine .inr ⟨hmisread, "SHA256SUMS has a line whose digest is not 64 hex characters", ?_⟩
    have hlong : isDigest (asset.digest.toList ++ ' ' :: '*' :: head) = false := by
      have hlength := h.digest
      simp only [isDigest, Bool.and_eq_true, beq_iff_eq] at hlength
      rw [isDigest, Bool.and_eq_false_iff]
      refine .inl ?_
      rw [List.length_append, hlength.1, beq_eq_false_iff_ne, List.length_cons]
      omega
    simp only [SignedManifest.readEntry, hcut, hlong, Bool.not_false, if_true]

end SignedAsset

/-! ## Whole documents -/

section Documents

variable {V K : Type} {crates : Crates V K} {assets : List SignedAsset}

/-- No character of a version is white space. -/
theorem not_whitespace_of_version {c : Char} (h : (c.isAlphanum || ['.', '-', '+'].contains c) = true) :
    Text.isWhitespace c = false := by
  have hcode : 43 ≤ c.toNat ∧ c.toNat ≤ 122 := by
    have hkind : (decide (c.val ≥ 'A'.val ∧ c.val ≤ 'Z'.val) || (decide (c.val ≥ 'a'.val) && decide (c.val ≤ 'z'.val)) ||
        (decide (c.val ≥ '0'.val) && decide (c.val ≤ '9'.val)) || ['.', '-', '+'].contains c) = true := h
    simp only [List.contains_cons, List.contains_nil, Bool.or_eq_true, Bool.and_eq_true, decide_eq_true_eq, beq_iff_eq,
      ge_iff_le, UInt32.le_iff_toNat_le, Bool.or_false] at hkind
    rcases hkind with ((⟨hlow, hhigh⟩ | ⟨hlow, hhigh⟩) | ⟨hlow, hhigh⟩) | rfl | rfl | rfl
    · exact ⟨le_trans (by decide) hlow, le_trans hhigh (by decide)⟩
    · exact ⟨le_trans (by decide) hlow, le_trans hhigh (by decide)⟩
    · exact ⟨le_trans (by decide) hlow, le_trans hhigh (by decide)⟩
    all_goals decide
  simp only [Text.isWhitespace, Bool.or_eq_false_iff, Bool.and_eq_false_iff, decide_eq_false_iff_not, beq_eq_false_iff_ne]
  omega

/-- The header ends as its version does, which is not in white space. -/
theorem getLast?_versionHeader (hcrates : crates.PrintsVersions) (version : V) :
    ∀ c ∈ (versionHeader crates version).getLast?, Text.isWhitespace c = false := by
  obtain ⟨first, rest, hprinted, -⟩ := hcrates.starts version
  intro c hc
  have hprinted : (crates.printVersion version).toList ≠ [] := by simp [hprinted]
  rw [versionHeader, String.toList_append, List.getLast?_append_of_ne_nil _ hprinted] at hc
  exact not_whitespace_of_version (hcrates.characters version c (List.mem_of_getLast? hc))

theorem line_feed_versionHeader (hcrates : crates.PrintsVersions) (version : V) : '\n' ∉ versionHeader crates version := by
  rw [versionHeader, String.toList_append, List.mem_append]
  rintro (hmem | hmem)
  · simp at hmem
  · exact absurd (not_whitespace_of_version (hcrates.characters version _ hmem)) (by decide)

theorem readHeader_version (hcrates : crates.PrintsVersions) (version : V) :
    SignedManifest.readHeader crates (versionHeader crates version) = .ok version := by
  obtain ⟨c, rest, hprinted, hdigit⟩ := hcrates.starts version
  have hplain := hcrates.characters version
  have hstrip : Text.strip "version ".toList (versionHeader crates version) =
      some ('v' :: (crates.printVersion version).toList) := by
    have hsplit : versionHeader crates version = "version ".toList ++ 'v' :: (crates.printVersion version).toList := by
      simp [versionHeader]
    rw [Text.strip, hsplit, if_pos (List.isPrefixOf_iff_prefix.2 (List.prefix_append _ _)), List.drop_left]
  have htrim : Text.trim ('v' :: (crates.printVersion version).toList) = 'v' :: (crates.printVersion version).toList := by
    rw [Text.trim, List.dropWhile_cons, if_neg (by decide)]
    refine Text.trimEnd_eq_self fun d hd => ?_
    rw [hprinted, List.getLast?_cons_cons, ← hprinted] at hd
    exact not_whitespace_of_version (hplain d (List.mem_of_getLast? hd))
  have hnumber : c ≠ 'v' := by
    rintro rfl
    revert hdigit
    decide
  have hdrop : ('v' :: (crates.printVersion version).toList).dropWhile (· == 'v') = (crates.printVersion version).toList := by
    rw [List.dropWhile_cons, if_pos (beq_self_eq_true 'v'), hprinted, List.dropWhile_cons, if_neg (by simpa using hnumber)]
  simp only [SignedManifest.readHeader, hstrip, htrim, hdrop, String.ofList_toList, hcrates.parse_print]

theorem readLine_header (hcrates : crates.PrintsVersions) (version : V) :
    SignedManifest.readLine crates ⟨none, []⟩ (versionHeader crates version) = .ok ⟨some version, []⟩ := by
  have htrim := Text.trimEnd_eq_self (getLast?_versionHeader hcrates version)
  have hempty : (versionHeader crates version).isEmpty = false := by simp [versionHeader]
  rw [SignedManifest.readLine, htrim, hempty, if_neg Bool.false_ne_true, readHeader_version hcrates]
  rfl

/-- Assets not misread are added in their order, and a misread one ends the reading. -/
theorem foldlM_readLine (version : V) (hlistable : ∀ asset ∈ assets, asset.Listable) (entries : List (String × String))
    (hnames : (entries.map Prod.fst ++ assets.map SignedAsset.name).Nodup) :
    ((∀ asset ∈ assets, ¬ asset.Misread) ∧ (assets.map SignedAsset.line).foldlM (SignedManifest.readLine crates)
      ⟨some version, entries⟩ = .ok ⟨some version, entries ++ assets.map SignedAsset.entry⟩) ∨
    ((∃ asset ∈ assets, asset.Misread) ∧ ∃ error, (assets.map SignedAsset.line).foldlM (SignedManifest.readLine crates)
      ⟨some version, entries⟩ = .error error) := by
  induction assets generalizing entries with
  | nil => exact .inl ⟨by simp, by simp; rfl⟩
  | cons asset assets ih =>
    have hasset := hlistable asset (by simp)
    have hnew : asset.name ∉ entries.map Prod.fst := by
      intro hmem
      exact (List.nodup_append.1 hnames).2.2 _ hmem asset.name (by simp) rfl
    have hline : SignedManifest.readLine crates ⟨some version, entries⟩ asset.line =
        (SignedManifest.readEntry entries asset.line).map fun entries => ⟨some version, entries⟩ := by
      have hempty : asset.line.isEmpty = false := List.isEmpty_eq_false_iff.2 hasset.line_ne_nil
      simp [SignedManifest.readLine, hasset.trimEnd_line, hempty]
    rw [List.map_cons, List.foldlM_cons, hline]
    rcases hasset.readEntry_line entries hnew with ⟨hread, hentry⟩ | ⟨hmisread, error, hentry⟩
    · have hnext : ((entries ++ [asset.entry]).map Prod.fst ++ assets.map SignedAsset.name).Nodup := by
        simpa [SignedAsset.entry] using hnames
      rw [hentry]
      rcases ih (fun asset hmem => hlistable asset (by simp [hmem])) _ hnext with ⟨hall, hrest⟩ | ⟨⟨other, hmem, hmisread⟩, hrest⟩
      · refine .inl ⟨by simpa [hread] using hall, ?_⟩
        rw [List.append_assoc] at hrest
        exact hrest
      · exact .inr ⟨⟨other, by simp [hmem], hmisread⟩, hrest⟩
    · rw [hentry]
      exact .inr ⟨⟨asset, by simp, hmisread⟩, error, rfl⟩

theorem checksumFor_listed {manifest : SignedManifest V} (hlisted : (manifest.entries.map Prod.fst).Nodup)
    {entry : String × String} (hmem : entry ∈ manifest.entries) : manifest.checksumFor entry.1 = .ok entry.2 := by
  cases hfind : manifest.entries.find? fun other => other.1 == entry.1 with
  | none =>
    have hne := List.find?_eq_none.1 hfind entry hmem
    simp at hne
  | some other =>
    have hname : other.1 = entry.1 := by simpa using List.find?_some hfind
    have hother : other = entry := List.inj_on_of_nodup_map hlisted (List.mem_of_find?_eq_some hfind) hmem hname
    rw [SignedManifest.checksumFor, hfind, hother]

variable {version : V} (hlistable : ∀ asset ∈ assets, asset.Listable)

include hlistable in
theorem lines_render (hcrates : crates.PrintsVersions) :
    Text.lines (renderManifest crates version assets).toList = versionHeader crates version :: assets.map SignedAsset.line := by
  rw [renderManifest, String.toList_ofList]
  refine Text.lines_terminated (fun line hline => ?_) fun line hline => ?_
  · rcases List.mem_cons.1 hline with hheader | hline
    · rw [hheader]
      exact line_feed_versionHeader hcrates version
    · obtain ⟨asset, hasset, rfl⟩ := List.mem_map.1 hline
      exact (hlistable asset hasset).line_feed
  · rcases List.mem_cons.1 hline with hheader | hline
    · rw [hheader]
      intro hlast
      exact absurd (getLast?_versionHeader hcrates version '\r' hlast) (by decide)
    · obtain ⟨asset, hasset, rfl⟩ := List.mem_map.1 hline
      exact (hlistable asset hasset).line_return

/-- **A manifest is recovered exactly when none of its assets is misread**, and
whatever document is accepted lists each name once. -/
theorem parse_render_iff (crates : Crates V K) (hcrates : crates.PrintsVersions) (version : V)
    (assets : List SignedAsset) (hassets : assets ≠ []) (hlistable : ∀ asset ∈ assets, asset.Listable)
    (hnames : (assets.map SignedAsset.name).Nodup) :
    (Recovered crates version assets ↔ ∀ asset ∈ assets, ¬ asset.Misread) ∧
      ∀ document manifest, SignedManifest.parse crates document = .ok manifest → (manifest.entries.map Prod.fst).Nodup := by
  refine ⟨?_, fun document manifest h => (SignedManifest.parse_listed crates h).names⟩
  have hread : (Text.lines (renderManifest crates version assets).toList).foldlM (SignedManifest.readLine crates) ⟨none, []⟩ =
      (assets.map SignedAsset.line).foldlM (SignedManifest.readLine crates) ⟨some version, []⟩ := by
    rw [lines_render hlistable hcrates, List.foldlM_cons, readLine_header hcrates]
    rfl
  rcases foldlM_readLine version hlistable [] (by simpa using hnames) with ⟨hall, hok⟩ | ⟨hmisread, error, herror⟩
  · rw [hok] at hread
    have hentries : (assets.map SignedAsset.entry).isEmpty = false := by simpa using hassets
    have hparse : SignedManifest.parse crates (renderManifest crates version assets) =
        .ok ⟨version, assets.map SignedAsset.entry⟩ := by
      simp only [SignedManifest.parse, hread, List.nil_append, hentries, Bool.false_eq_true, if_false]
    refine ⟨fun _ => hall, fun _ => ⟨_, hparse, rfl, rfl, fun asset hmem => ?_⟩⟩
    exact checksumFor_listed (SignedManifest.parse_listed crates hparse).names (List.mem_map_of_mem hmem)
  · rw [herror] at hread
    constructor
    · rintro ⟨manifest, hparse, -⟩
      simp only [SignedManifest.parse, hread] at hparse
      cases hparse
    · intro hall
      obtain ⟨asset, hmem, h⟩ := hmisread
      exact absurd h (hall asset hmem)

end Documents

/-! ## Two manifests -/

namespace Rendered

/-- A crate that knows the one version these documents are for. -/
def crates : Crates Unit Unit where
  parseVersion text := if text = "1.2.3" then some () else none
  printVersion _ := "1.2.3"
  isPrerelease _ := false
  sha256 _ := ""
  decodeBase64 _ := none
  keyFromBytes _ := none
  verifyStrict _ _ _ := false
  parseRelease _ := none

theorem prints_versions : crates.PrintsVersions where
  parse_print _ := rfl
  starts _ := ⟨'1', ['.', '2', '.', '3'], by simp [crates], by decide⟩
  characters _ := by
    have hall : ("1.2.3".toList.all fun c => c.isAlphanum || ['.', '-', '+'].contains c) = true := by decide +kernel
    exact List.all_eq_true.1 hall

def digest : String := "AB" ++ String.ofList (List.replicate 62 '0')

/-- Two spaces in a name listed in text mode, and a star. -/
def readable : List SignedAsset :=
  [⟨"atmux  notes *v1.txt", .text, digest⟩, ⟨"atmux-x86_64-unknown-linux-gnu", .binary, digest⟩]

def misread : List SignedAsset := [⟨"atmux  notes.txt", .binary, digest⟩]

end Rendered

/-- A manifest in both modes is recovered, with a name that has two spaces in text mode. -/
theorem both_modes_recovered : Recovered Rendered.crates () Rendered.readable := by
  refine (parse_render_iff Rendered.crates Rendered.prints_versions () Rendered.readable (by decide) ?_ ?_).1.2 ?_
  · intro asset hasset
    simp only [Rendered.readable, List.mem_cons, List.not_mem_nil, or_false] at hasset
    rcases hasset with rfl | rfl
    · exact ⟨by decide +kernel, by decide +kernel, trimmed_of_last rfl (by decide +kernel), by decide +kernel⟩
    · exact ⟨by decide +kernel, by decide +kernel, trimmed_of_last rfl (by decide +kernel), by decide +kernel⟩
  · decide +kernel
  · intro asset hasset
    simp only [Rendered.readable, List.mem_cons, List.not_mem_nil, or_false] at hasset
    rcases hasset with rfl | rfl
    · rintro ⟨hmode, -⟩
      cases hmode
    · rintro ⟨-, hspaces⟩
      exact Text.cutText_eq_none_iff.1 (by decide +kernel) hspaces

/-- Two spaces in a name listed in binary mode end the reading. -/
theorem two_spaces_misread : Rendered.crates.PrintsVersions ∧ (∀ asset ∈ Rendered.misread, asset.Listable) ∧
    (Rendered.misread.map SignedAsset.name).Nodup ∧ ¬ Recovered Rendered.crates () Rendered.misread := by
  refine ⟨Rendered.prints_versions, fun asset hasset => ?_, by decide +kernel, ?_⟩
  · obtain rfl := List.mem_singleton.1 hasset
    exact ⟨by decide +kernel, by decide +kernel, trimmed_of_last rfl (by decide +kernel), by decide +kernel⟩
  · rintro ⟨manifest, hparse, -⟩
    have hfails : (SignedManifest.parse Rendered.crates
        (renderManifest Rendered.crates () Rendered.misread)).toOption.isNone = true := by decide +kernel
    rw [hparse] at hfails
    cases hfails

end Atmux.SelfUpdate
