/-
The conversations a launch can take up again: what `old_sessions.rs` finds in an
agent's own store, and the handles under which the browser gets them.

The scan has a budget of entries, files, bytes and time, and says when it did not
see everything. `discover_right` is what its answer means: nothing that is not a
saved conversation of that very folder, the newest first, and all of them unless it
says so. `resume_as_offered` is what a handle means: the store may have changed in
any way since it was given out, and it still leads to the conversation that was
shown, or to none.
-/
import Atmux.Invocation
import Atmux.Lib.Adjacent
import Atmux.Transcript.Parse

namespace Atmux.OldSessions

open Lib Pulse Maintenance Transcript Invocation

/-! ## What the scan finds -/

def headBytes : Nat := 64 * 1024
def tailBytes : Nat := 256 * 1024
def maxPreviewChars : Nat := 140

/-- `MAX_FUTURE_MTIME`, in nanoseconds. -/
def maxFutureMtime : Nat := 5 * 60 * 1000000000

/-- Sizes in bytes, times in nanoseconds. -/
structure DiscoveryLimits where
  entries : Nat
  files : Nat
  totalBytes : Nat
  results : Nat
  age : Nat
  elapsed : Nat
deriving DecidableEq, Repr

def DiscoveryLimits.default : DiscoveryLimits :=
  ⟨8192, 2048, 32 * 1024 * 1024, 20, 90 * 24 * 60 * 60 * 1000000000, 2 * 1000000000⟩

/-- A file as the scan finds it: the clock when it is looked at, and the lines of
its head and its tail that are JSON, if they can be read. -/
structure SessionFile where
  name : String
  len : Nat
  modified : Nat
  now : Nat
  head : Option (List Json)
  tail : Option (List Json)

/-- An entry of a directory. -/
inductive Node
  | unreadable
  | symlink
  | other
  | file (file : SessionFile)
  /-- `inside` says whether it leads to a place under the store's root. -/
  | dir (inside : Bool) (entries : List Node)
  /-- A directory that cannot be listed. -/
  | closed (inside : Bool)

deriving instance DecidableEq for Invocation.ResumeCandidate

structure ResumeCandidate extends Invocation.ResumeCandidate where
  updatedMs : Nat
  preview : String
deriving DecidableEq

structure Discovery where
  sessions : List ResumeCandidate
  truncated : Bool
deriving DecidableEq

/-! ### The budget -/

structure ScanBudget where
  /-- How often the clock was read. -/
  reads : Nat
  entries : Nat
  files : Nat
  bytes : Nat
  truncated : Bool
deriving DecidableEq, Repr

def DiscoveryLimits.invalid (limits : DiscoveryLimits) : Bool :=
  limits.entries == 0 || limits.files == 0 || decide (limits.totalBytes < headBytes) || limits.results == 0 ||
    limits.age == 0 || limits.elapsed == 0

def ScanBudget.new (limits : DiscoveryLimits) : Except String ScanBudget :=
  if limits.invalid then .error "old-session discovery limits are invalid" else .ok ⟨0, 0, 0, 0, false⟩

section
variable (limits : DiscoveryLimits) (clock : Nat → Nat)

/-- `ScanBudget::entry`; `clock n` is what has passed at its `n`-th reading. -/
def ScanBudget.entry (b : ScanBudget) : Bool × ScanBudget :=
  if b.entries ≥ limits.entries ∨ clock b.reads > limits.elapsed then
    (false, { b with reads := b.reads + 1, truncated := true })
  else (true, { b with reads := b.reads + 1, entries := b.entries + 1 })

def ScanBudget.file (b : ScanBudget) (requestedBytes : Nat) : Bool × ScanBudget :=
  if b.files ≥ limits.files ∨ b.bytes + requestedBytes > limits.totalBytes ∨ clock b.reads > limits.elapsed then
    (false, { b with reads := b.reads + 1, truncated := true })
  else (true, { b with reads := b.reads + 1, files := b.files + 1, bytes := b.bytes + requestedBytes })

end

/-! ### A file -/

/-- The name without its extension, and the extension. -/
def splitExtension (name : String) : List Char × Option (List Char) :=
  match Text.cut '.' name.toList.reverse with
  | none => (name.toList, none)
  | some (extension, stem) => if stem.isEmpty then (name.toList, none) else (stem.reverse, some extension.reverse)

def fileStem (name : String) : String := String.ofList (splitExtension name).1

def hasJsonlExtension (name : String) : Bool :=
  (splitExtension name).2.any fun extension => extension.map Text.asciiLower == "jsonl".toList

/-- `eligible_session_file`: its time in milliseconds. A time that is yet to come
has no age, however little it is off. -/
def eligible (age : Nat) (file : SessionFile) : Option Nat :=
  if file.len = 0 then none
  else if file.modified > file.now + maxFutureMtime then none
  else if file.modified > file.now then none
  else if file.now - file.modified > age then none
  else if file.modified / 1000000 < 2 ^ 64 then some (file.modified / 1000000) else none

def requestedBytes (file : SessionFile) : Nat := min file.len headBytes + min file.len tailBytes

/-! ### Previews -/

def sensitiveMarkers : List String :=
  ["authorization:", "proxy-authorization:", "cookie:", "set-cookie:", "authorization=", "password=", "password:",
    "\"password\"", "client_secret", "client-secret", "api_key", "api_token", "api-key", "apikey", "access_token",
    "access-token", "refresh_token", "refresh-token", "secret_access_key", "secret-access-key", "private_key",
    "private-key", "token=", "token:", "\"token\"", "\"secret\""]

def contains (text : List Char) (pattern : String) : Bool := (Text.cutText pattern.toList text).isSome

def sensitiveLine (lower : List Char) : Bool := contains lower "bearer " || sensitiveMarkers.any (contains lower)

def words (line : List Char) : List (List Char) := (line.splitOnP Text.isWhitespace).filter fun word => !word.isEmpty

/-- The words of the lines, from inside a private key or not. -/
def previewWords : Bool → List (List Char) → List (List Char)
  | _, [] => []
  | insidePrivateKey, line :: rest =>
    let lower := line.map Text.asciiLower
    let startsPrivateKey := contains lower "-----begin " && contains lower "private key-----"
    let endsPrivateKey := contains lower "-----end " && contains lower "private key-----"
    if insidePrivateKey then previewWords (!endsPrivateKey) rest
    else if startsPrivateKey then "[redacted]".toList :: previewWords (!endsPrivateKey) rest
    else if sensitiveLine lower then "[redacted]".toList :: previewWords false rest
    else words line ++ previewWords false rest

def truncateChars (value : List Char) (max : Nat) : List Char :=
  if value.length > max then value.take max ++ ['…'] else value

def safePreview (text : String) : Option String :=
  let trimmed := text.toList.dropWhile Text.isWhitespace
  if trimmed.isEmpty || isInjectedUserContext text then none
  else
    let flat := [' '].intercalate (previewWords false (Text.lines trimmed))
    if flat.isEmpty then none else some (String.ofList (truncateChars flat maxPreviewChars))

/-- `value.pointer("/outer/inner")` as text. -/
def textWithin (outer inner : String) (value : Json) : Option String := (within outer inner value).bind Json.asStr

/-- The texts of the blocks of a type, joined by blanks. -/
def blockTexts (blockType : String) (blocks : List Json) : String :=
  " ".intercalate ((blocks.filter fun block => stringAt "type" block == some blockType).filterMap (stringAt "text"))

def claudePreview (lines : List Json) : Option String :=
  (lines.filterMap fun value =>
    if textWithin "message" "role" value = some "user" then
      match within "message" "content" value with
      | some (.string text) => safePreview text
      | some (.array blocks) => safePreview (blockTexts "text" blocks)
      | _ => none
    else none).getLast?

def codexPreview (lines : List Json) : Option String :=
  ((lines.filterMap fun value =>
    if stringAt "type" value = some "response_item" ∧ textWithin "payload" "type" value = some "message" ∧
        textWithin "payload" "role" value = some "user" then
      match within "payload" "content" value with
      | some (.array blocks) => safePreview (blockTexts "input_text" blocks)
      | _ => none
    else none).getLast?).or
  (lines.filterMap fun value =>
    if stringAt "type" value = some "event_msg" ∧ textWithin "payload" "type" value = some "user_message" then
      (textWithin "payload" "message" value).bind safePreview
    else none).getLast?

/-! ### Whose conversation it is -/

section
variable (canonicalize : String → Option String) (directory : String)

def exactDirectory (value : String) : Bool := value.toList.head? == some '/' && canonicalize value == some directory

def claudeRecord (sessionId : String) (value : Json) : Bool :=
  (stringAt "sessionId" value).all (fun id => id == sessionId) &&
    (stringAt "cwd" value).any (exactDirectory canonicalize directory)

def claudeHeadMatches (head : List Json) (sessionId : String) : Bool :=
  (head.take 16).any (claudeRecord canonicalize directory sessionId)

def codexRecord (fileName : String) (value : Json) : Option String :=
  if stringAt "type" value = some "session_meta" ∧ textWithin "payload" "source" value = some "cli" ∧
      (textWithin "payload" "thread_source" value).all (fun source => source == "user") = true ∧
      (textWithin "payload" "cwd" value).any (exactDirectory canonicalize directory) = true then
    (textWithin "payload" "id" value).filter fun id =>
      validSavedSessionId id && (id ++ ".jsonl").toList.isSuffixOf fileName.toList
  else none

def codexSessionId (fileName : String) (head : List Json) : Option String :=
  (head.take 16).findSome? (codexRecord canonicalize directory fileName)

/-- What is made of a Claude file, once it is read. -/
def claudeCandidate (file : SessionFile) (updatedMs : Nat) : Option ResumeCandidate :=
  file.head.bind fun head =>
    if claudeHeadMatches canonicalize directory head (fileStem file.name) then
      some ⟨⟨.claude, fileStem file.name⟩, updatedMs,
        (file.tail.bind claudePreview).getD "Previous Claude conversation"⟩
    else none

def codexCandidate (file : SessionFile) (updatedMs : Nat) : Option ResumeCandidate :=
  file.head.bind fun head =>
    (codexSessionId canonicalize directory file.name head).map fun id =>
      ⟨⟨.codex, id⟩, updatedMs, (file.tail.bind codexPreview).getD "Previous Codex conversation"⟩

end

/-! ## The scan -/

/-- A file that is to be read, and its time. -/
abbrev Found := SessionFile × Nat

def claudeFound (age : Nat) : Node → Option Found
  | .file file =>
    if validSavedSessionId (fileStem file.name) then (eligible age file).map fun ms => (file, ms) else none
  | _ => none

def codexFound (age : Nat) (file : SessionFile) : Option Found :=
  if hasJsonlExtension file.name then (eligible age file).map fun ms => (file, ms) else none

section
variable (limits : DiscoveryLimits) (clock : Nat → Nat)

/-- The loop of `discover_claude`. -/
def discoverClaude (candidate : Found → Option ResumeCandidate) :
    ScanBudget → List Node → ScanBudget × List ResumeCandidate
  | b, [] => (b, [])
  | b, node :: rest =>
    let (more, b) := b.entry limits clock
    if more then
      match claudeFound limits.age node with
      | none => discoverClaude candidate b rest
      | some found =>
        let (more, b) := b.file limits clock (requestedBytes found.1)
        if more then
          let (b', sessions) := discoverClaude candidate b rest
          (b', (candidate found).toList ++ sessions)
        else (b, [])
    else (b, [])

mutual

/-- One entry in the loop of `collect_codex_files`, and whether the loop goes on. -/
def collectNode (depth : Nat) (b : ScanBudget) (files : List Found) :
    Node → Except String (Bool × ScanBudget × List Found)
  | .file file =>
    match codexFound limits.age file with
    | none => .ok (true, b, files)
    | some found =>
      if (files ++ [found]).length ≥ limits.files then .ok (false, { b with truncated := true }, files ++ [found])
      else .ok (true, b, files ++ [found])
  | .dir true entries =>
    if depth + 1 > 5 ∨ b.truncated = true then .ok (true, { b with truncated := true }, files)
    else (collectCodexFiles (depth + 1) b files entries).map fun (b, files) => (true, b, files)
  | .closed true =>
    if depth + 1 > 5 ∨ b.truncated = true then .ok (true, { b with truncated := true }, files)
    else .error "agent session store could not be read"
  | _ => .ok (true, b, files)

/-- `collect_codex_files` in a directory at `depth`. -/
def collectCodexFiles (depth : Nat) (b : ScanBudget) (files : List Found) :
    List Node → Except String (ScanBudget × List Found)
  | [] => .ok (b, files)
  | node :: rest =>
    let (more, b) := b.entry limits clock
    if more then
      match collectNode depth b files node with
      | .error e => .error e
      | .ok (false, b, files) => .ok (b, files)
      | .ok (true, b, files) => collectCodexFiles depth b files rest
    else .ok (b, files)

end

/-- The loop of `discover_codex`. -/
def readFiles (candidate : Found → Option ResumeCandidate) : ScanBudget → List Found → ScanBudget × List ResumeCandidate
  | b, [] => (b, [])
  | b, found :: rest =>
    let (more, b) := b.file limits clock (requestedBytes found.1)
    if more then
      let (b', sessions) := readFiles candidate b rest
      (b', (candidate found).toList ++ sessions)
    else (b, [])

end

/-! ### The whole -/

/-- The stores of a profile: the entries of a directory if there is one, or why it
is refused. -/
structure Store where
  project : String → Except String (Option (List Node))
  sessions : Except String (Option (List Node))

/-- What one discovery meets. -/
structure Host where
  /-- The launch directory, as it is now. -/
  directory : Except String String
  store : Except String Store
  canonicalize : String → Option String
  clock : Nat → Nat

def profileHarness (harness : String) : Except String Harness :=
  if lowercase harness = "claude" then .ok .claude
  else if lowercase harness = "codex" then .ok .codex
  else .error "saved-session launch is supported only for Claude and Codex profiles"

def isPlain (c : Char) : Bool := c.isAlphanum || c == '-' || c == '_'

def encodeClaudeProject (path : String) : String :=
  String.ofList (path.toList.map fun c => if isPlain c then c else '-')

/-- `sort_by`: the newest first, then by id. -/
def before (left right : ResumeCandidate) : Bool :=
  decide (right.updatedMs < left.updatedMs) ||
    right.updatedMs == left.updatedMs && decide (left.sessionId ≤ right.sessionId)

def sameSession (left right : ResumeCandidate) : Bool :=
  left.harness == right.harness && left.sessionId == right.sessionId

/-- What is made of the candidates. -/
def concluded (limits : DiscoveryLimits) (b : ScanBudget) (sessions : List ResumeCandidate) : Discovery :=
  let kept := Adjacent.dedup sameSession (sessions.mergeSort before)
  ⟨kept.take limits.results, b.truncated || decide (kept.length > limits.results)⟩

def Host.scan (host : Host) (limits : DiscoveryLimits) (b : ScanBudget) (harness : Harness) (directory : String)
    (store : Store) :
    Except String (ScanBudget × List ResumeCandidate) :=
  match harness with
  | .claude =>
    (store.project (encodeClaudeProject directory)).map fun entries =>
      discoverClaude limits host.clock (fun found => claudeCandidate host.canonicalize directory found.1 found.2) b
        (entries.getD [])
  | .codex =>
    store.sessions.bind fun entries =>
      (collectCodexFiles limits host.clock 0 b [] (entries.getD [])).map fun (b, files) =>
        readFiles limits host.clock (fun found => codexCandidate host.canonicalize directory found.1 found.2) b files

def discover (host : Host) (harness : String) (limits : DiscoveryLimits) : Except String Discovery := do
  let directory ← host.directory
  let harness ← profileHarness harness
  let store ← host.store
  let b ← ScanBudget.new limits
  let (b, sessions) ← host.scan limits b harness directory store
  return concluded limits b sessions

/-! ## What a scan has seen -/

section
variable {α : Type} {limits : DiscoveryLimits} {clock : Nat → Nat} {b b' b'' : ScanBudget}

/-- No more is spent than there is. -/
structure ScanBudget.Within (limits : DiscoveryLimits) (b : ScanBudget) : Prop where
  entries : b.entries ≤ limits.entries
  files : b.files ≤ limits.files
  bytes : b.bytes ≤ limits.totalBytes

/-- A budget and what is left of it later. -/
structure ScanBudget.Later (limits : DiscoveryLimits) (b b' : ScanBudget) : Prop where
  cut : b.truncated = true → b'.truncated = true
  within : b.Within limits → b'.Within limits

theorem ScanBudget.Later.refl (b : ScanBudget) : b.Later limits b := ⟨id, id⟩

theorem ScanBudget.Later.trans (h : b.Later limits b') (h' : b'.Later limits b'') : b.Later limits b'' :=
  ⟨fun hcut => h'.cut (h.cut hcut), fun hwithin => h'.within (h.within hwithin)⟩

theorem ScanBudget.Later.mark (b : ScanBudget) : b.Later limits { b with truncated := true } :=
  ⟨fun _ => rfl, fun h => ⟨h.entries, h.files, h.bytes⟩⟩

/-- There is room for another entry, or the scan is cut. -/
theorem entry_cases (limits : DiscoveryLimits) (clock : Nat → Nat) (b : ScanBudget) :
    (∃ b', b.entry limits clock = (true, b') ∧ b.Later limits b') ∨
      ∃ b', b.entry limits clock = (false, b') ∧ b.Later limits b' ∧ b'.truncated = true := by
  unfold ScanBudget.entry
  split
  · exact .inr ⟨_, rfl, ⟨fun _ => rfl, fun h => ⟨h.entries, h.files, h.bytes⟩⟩, rfl⟩
  next hroom =>
    obtain ⟨hentries, -⟩ := not_or.mp hroom
    refine .inl ⟨_, rfl, id, fun h => ⟨?_, h.files, h.bytes⟩⟩
    show b.entries + 1 ≤ limits.entries
    omega

theorem file_cases (limits : DiscoveryLimits) (clock : Nat → Nat) (b : ScanBudget) (requested : Nat) :
    (∃ b', b.file limits clock requested = (true, b') ∧ b.Later limits b') ∨
      ∃ b', b.file limits clock requested = (false, b') ∧ b.Later limits b' ∧ b'.truncated = true := by
  unfold ScanBudget.file
  split
  · exact .inr ⟨_, rfl, ⟨fun _ => rfl, fun h => ⟨h.entries, h.files, h.bytes⟩⟩, rfl⟩
  next hroom =>
    obtain ⟨hfiles, hrest⟩ := not_or.mp hroom
    obtain ⟨hbytes, -⟩ := not_or.mp hrest
    refine .inl ⟨_, rfl, id, fun h => ⟨h.entries, ?_, ?_⟩⟩
    · show b.files + 1 ≤ limits.files
      omega
    · show b.bytes + requested ≤ limits.totalBytes
      omega

/-- Of all there is, in order, a scan has seen some, and all if it was not cut. -/
structure Sees (limits : DiscoveryLimits) (b b' : ScanBudget) (all seen : List α) : Prop where
  later : b.Later limits b'
  part : seen.Sublist all
  whole : b'.truncated = false → seen = all

namespace Sees

variable {all all' seen seen' : List α}

theorem nil (b : ScanBudget) : Sees limits b b ([] : List α) [] := ⟨.refl b, .slnil, fun _ => rfl⟩

/-- A scan that is cut here. -/
theorem stop (h : b.Later limits b') (hcut : b'.truncated = true) (hpart : seen.Sublist all) :
    Sees limits b b' all seen :=
  ⟨h, hpart, fun hwhole => absurd (hcut.symm.trans hwhole) (by decide)⟩

theorem after (h : b.Later limits b') (hrest : Sees limits b' b'' all seen) : Sees limits b b'' all seen :=
  ⟨h.trans hrest.later, hrest.part, hrest.whole⟩

theorem append (h : Sees limits b b' all seen) (h' : Sees limits b' b'' all' seen') :
    Sees limits b b'' (all ++ all') (seen ++ seen') := by
  refine ⟨h.later.trans h'.later, h.part.append h'.part, fun hwhole => ?_⟩
  have hbefore : b'.truncated = false := by
    by_contra hcut
    have hlater := h'.later.cut (by simpa using hcut)
    rw [hwhole] at hlater
    cases hlater
  rw [h.whole hbefore, h'.whole hwhole]

/-- What was seen of what was seen. -/
theorem filterMap {β : Type} {f : α → Option β} {last : List β} (h : Sees limits b b' all seen)
    (h' : Sees limits b' b'' (seen.filterMap f) last) : Sees limits b b'' (all.filterMap f) last := by
  refine ⟨h.later.trans h'.later, h'.part.trans (h.part.filterMap f), fun hwhole => ?_⟩
  have hbefore : b'.truncated = false := by
    by_contra hcut
    have hlater := h'.later.cut (by simpa using hcut)
    rw [hwhole] at hlater
    cases hlater
  rw [h'.whole hwhole, h.whole hbefore]

end Sees

theorem filterMap_cons_toList {β : Type} (f : α → Option β) (a : α) (l : List α) :
    (a :: l).filterMap f = (f a).toList ++ l.filterMap f := by
  cases h : f a <;> simp [h]

/-- What is made of one file is seen once it may be read. -/
theorem Sees.candidate {β : Type} (f : α → Option β) (a : α) {l : List α} {seen : List β}
    (h : Sees limits b b' (l.filterMap f) seen) : Sees limits b b' ((a :: l).filterMap f) ((f a).toList ++ seen) := by
  rw [filterMap_cons_toList]
  exact ⟨h.later, (List.Sublist.refl _).append h.part, fun hwhole => by rw [h.whole hwhole]⟩

theorem discoverClaude_sees (candidate : Found → Option ResumeCandidate) (b : ScanBudget) (nodes : List Node) :
    Sees limits b (discoverClaude limits clock candidate b nodes).1
      ((nodes.filterMap (claudeFound limits.age)).filterMap candidate)
      (discoverClaude limits clock candidate b nodes).2 := by
  induction nodes generalizing b with
  | nil => exact .nil b
  | cons node rest ih =>
    unfold discoverClaude
    rcases entry_cases limits clock b with ⟨b₁, hentry, hlater⟩ | ⟨b₁, hentry, hlater, hcut⟩
    · rw [hentry]
      simp only [if_true]
      split
      next hnone =>
        rw [List.filterMap_cons_none hnone]
        exact (ih b₁).after hlater
      next found hsome =>
        rw [List.filterMap_cons_some hsome]
        rcases file_cases limits clock b₁ (requestedBytes found.1) with
          ⟨b₂, hfile, hlater'⟩ | ⟨b₂, hfile, hlater', hcut⟩
        · rw [hfile]
          exact ((ih b₂).candidate candidate found).after (hlater.trans hlater')
        · rw [hfile]
          exact .stop (hlater.trans hlater') hcut (List.nil_sublist _)
    · rw [hentry]
      exact .stop hlater hcut (List.nil_sublist _)

theorem readFiles_sees (candidate : Found → Option ResumeCandidate) (b : ScanBudget) (files : List Found) :
    Sees limits b (readFiles limits clock candidate b files).1 (files.filterMap candidate)
      (readFiles limits clock candidate b files).2 := by
  induction files generalizing b with
  | nil => exact .nil b
  | cons found rest ih =>
    unfold readFiles
    rcases file_cases limits clock b (requestedBytes found.1) with ⟨b₁, hfile, hlater⟩ | ⟨b₁, hfile, hlater, hcut⟩
    · rw [hfile]
      exact ((ih b₁).candidate candidate found).after hlater
    · rw [hfile]
      exact .stop hlater hcut (List.nil_sublist _)

mutual

/-- The files of a Codex store that may be read, wherever they are in it. -/
def Node.found (age : Nat) : Node → List Found
  | .file file => (codexFound age file).toList
  | .dir true entries => foundIn age entries
  | _ => []

def foundIn (age : Nat) : List Node → List Found
  | [] => []
  | node :: rest => node.found age ++ foundIn age rest

end

mutual

theorem collectNode_sees {depth : Nat} {files files' : List Found} {go : Bool} {b b' : ScanBudget} :
    ∀ {node : Node}, collectNode limits clock depth b files node = .ok (go, b', files') →
      ∃ more, files' = files ++ more ∧ Sees limits b b' (node.found limits.age) more ∧
        (go = false → b'.truncated = true)
  | .file file, h => by
    rw [collectNode] at h
    rw [Node.found]
    split at h
    next hnone =>
      obtain ⟨rfl, rfl, rfl⟩ : true = go ∧ b = b' ∧ files = files' := by simpa using h
      rw [hnone]
      exact ⟨[], (List.append_nil _).symm, .nil b, fun hgo => by cases hgo⟩
    next found hsome =>
      rw [hsome]
      split at h
      · obtain ⟨rfl, rfl, rfl⟩ : false = go ∧ _ = b' ∧ _ = files' := by simpa using h
        exact ⟨[found], rfl, .stop (.mark b) rfl (List.Sublist.refl _), fun _ => rfl⟩
      · obtain ⟨rfl, rfl, rfl⟩ : true = go ∧ b = b' ∧ _ = files' := by simpa using h
        exact ⟨[found], rfl, ⟨.refl b, List.Sublist.refl _, fun _ => rfl⟩, fun hgo => by cases hgo⟩
  | .dir true entries, h => by
    rw [collectNode] at h
    rw [Node.found]
    split at h
    · obtain ⟨rfl, rfl, rfl⟩ : true = go ∧ _ = b' ∧ files = files' := by simpa using h
      exact ⟨[], (List.append_nil _).symm, .stop (.mark b) rfl (List.nil_sublist _), fun hgo => by cases hgo⟩
    · cases hbelow : collectCodexFiles limits clock (depth + 1) b files entries with
      | error e =>
        rw [hbelow] at h
        cases h
      | ok result =>
        obtain ⟨b₁, files₁⟩ := result
        rw [hbelow] at h
        obtain ⟨rfl, rfl, rfl⟩ : true = go ∧ b₁ = b' ∧ files₁ = files' := by simpa [Except.map] using h
        obtain ⟨more, hfiles, hsees⟩ := collectCodexFiles_sees hbelow
        exact ⟨more, hfiles, hsees, fun hgo => by cases hgo⟩
  | .closed true, h => by
    rw [collectNode] at h
    split at h
    · obtain ⟨rfl, rfl, rfl⟩ : true = go ∧ _ = b' ∧ files = files' := by simpa using h
      exact ⟨[], (List.append_nil _).symm, .stop (.mark b) rfl (List.nil_sublist _), fun hgo => by cases hgo⟩
    · cases h
  | .unreadable, h | .symlink, h | .other, h | .dir false _, h | .closed false, h => by
    obtain ⟨rfl, rfl, rfl⟩ : true = go ∧ b = b' ∧ files = files' := by simpa [collectNode] using h
    exact ⟨[], (List.append_nil _).symm, .nil b, fun hgo => by cases hgo⟩

/-- **The walk of the tree** has every file it should read, unless it was cut. -/
theorem collectCodexFiles_sees {depth : Nat} {files files' : List Found} {b b' : ScanBudget} :
    ∀ {nodes : List Node}, collectCodexFiles limits clock depth b files nodes = .ok (b', files') →
      ∃ more, files' = files ++ more ∧ Sees limits b b' (foundIn limits.age nodes) more
  | [], h => by
    rw [collectCodexFiles] at h
    obtain ⟨rfl, rfl⟩ : b = b' ∧ files = files' := by simpa using h
    exact ⟨[], (List.append_nil _).symm, .nil b⟩
  | node :: rest, h => by
    rw [collectCodexFiles] at h
    rw [foundIn]
    rcases entry_cases limits clock b with ⟨b₁, hentry, hlater⟩ | ⟨b₁, hentry, hlater, hcut⟩
    · rw [hentry] at h
      simp only [if_true] at h
      split at h
      · cases h
      next b₂ files₂ hnode =>
        obtain ⟨rfl, rfl⟩ : b₂ = b' ∧ files₂ = files' := by simpa using h
        obtain ⟨more, hfiles, hsees, hstop⟩ := collectNode_sees hnode
        exact ⟨more, hfiles,
          .stop (hlater.trans hsees.later) (hstop rfl) (hsees.part.trans (List.sublist_append_left _ _))⟩
      next b₂ files₂ hnode =>
        obtain ⟨more, rfl, hsees, -⟩ := collectNode_sees hnode
        obtain ⟨more', rfl, hsees'⟩ := collectCodexFiles_sees h
        exact ⟨more ++ more', by rw [List.append_assoc], (hsees.append hsees').after hlater⟩
    · rw [hentry] at h
      obtain ⟨rfl, rfl⟩ : b₁ = b' ∧ files = files' := by simpa using h
      exact ⟨[], (List.append_nil _).symm, .stop hlater hcut (List.nil_sublist _)⟩

end

end

/-! ## What a discovery means -/

/-- The files of a store that may be read for a folder. -/
def Store.files (store : Store) (age : Nat) (harness : Harness) (directory : String) : List Found :=
  match harness with
  | .claude => ((store.project (encodeClaudeProject directory)).toOption.join.getD []).filterMap (claudeFound age)
  | .codex => foundIn age (store.sessions.toOption.join.getD [])

def Host.candidate (host : Host) (harness : Harness) (directory : String) (found : Found) : Option ResumeCandidate :=
  match harness with
  | .claude => claudeCandidate host.canonicalize directory found.1 found.2
  | .codex => codexCandidate host.canonicalize directory found.1 found.2

/-- All the conversations that are saved for a folder. -/
def Host.saved (host : Host) (age : Nat) (harness : Harness) (directory : String) (store : Store) :
    List ResumeCandidate :=
  (store.files age harness directory).filterMap (host.candidate harness directory)

/-- A saved conversation: its file is the one of that id, not too old, and begins
with a record of the very folder. -/
structure Saved (host : Host) (age : Nat) (harness : Harness) (directory : String) (store : Store)
    (session : ResumeCandidate) :
    Prop where
  kind : session.harness = harness
  valid : validSavedSessionId session.sessionId = true
  file : ∃ file lines, (file, session.updatedMs) ∈ store.files age harness directory ∧
    eligible age file = some session.updatedMs ∧ file.head = some lines ∧
    (fileStem file.name = session.sessionId ∨
      (session.sessionId ++ ".jsonl").toList.isSuffixOf file.name.toList = true) ∧
    ∃ record ∈ lines.take 16, ∃ cwd, (stringAt "cwd" record = some cwd ∨ textWithin "payload" "cwd" record = some cwd) ∧
      exactDirectory host.canonicalize directory cwd = true

/-- What the answer says of all there is. -/
structure Lists (limits : DiscoveryLimits) (all : List ResumeCandidate) (d : Discovery) : Prop where
  saved : ∀ session ∈ d.sessions, session ∈ all
  newest : d.sessions.Pairwise fun left right => before left right = true
  few : d.sessions.length ≤ limits.results
  complete : d.truncated = false → ∀ session ∈ all, ∃ shown ∈ d.sessions,
    shown.toResumeCandidate = session.toResumeCandidate ∧ session.updatedMs ≤ shown.updatedMs

section
variable {limits : DiscoveryLimits} {host : Host} {harness : Harness} {directory : String} {store : Store} {age : Nat}
  {b b' : ScanBudget} {sessions all : List ResumeCandidate} {session : ResumeCandidate}

theorem found_eligible {node : Node} {found : Found} (h : claudeFound age node = some found) :
    eligible age found.1 = some found.2 ∧ validSavedSessionId (fileStem found.1.name) = true := by
  cases node with
  | file file =>
    simp only [claudeFound] at h
    split at h
    next hvalid =>
      obtain ⟨ms, hms, rfl⟩ := Option.map_eq_some_iff.mp h
      exact ⟨hms, hvalid⟩
    · cases h
  | _ => cases h

theorem codexFound_eligible {file : SessionFile} {found : Found} (h : codexFound age file = some found) :
    eligible age found.1 = some found.2 := by
  unfold codexFound at h
  split at h
  · obtain ⟨ms, hms, rfl⟩ := Option.map_eq_some_iff.mp h
    exact hms
  · cases h

mutual

theorem node_eligible {found : Found} : ∀ {node : Node}, found ∈ node.found age → eligible age found.1 = some found.2
  | .file file, h => by
    rw [Node.found] at h
    exact codexFound_eligible (Option.mem_toList.mp h)
  | .dir true entries, h => by
    rw [Node.found] at h
    exact foundIn_eligible h
  | .unreadable, h | .symlink, h | .other, h | .dir false _, h | .closed _, h => by simp [Node.found] at h

theorem foundIn_eligible {found : Found} :
    ∀ {nodes : List Node}, found ∈ foundIn age nodes → eligible age found.1 = some found.2
  | [], h => by simp [foundIn] at h
  | node :: rest, h => by
    rw [foundIn] at h
    rcases List.mem_append.mp h with h | h
    · exact node_eligible h
    · exact foundIn_eligible h

end

theorem claude_saved {found : Found} (hfound : found ∈ store.files age .claude directory)
    (h : claudeCandidate host.canonicalize directory found.1 found.2 = some session) :
    Saved host age .claude directory store session := by
  obtain ⟨file, ms⟩ := found
  obtain ⟨node, -, hnode⟩ := List.mem_filterMap.mp hfound
  obtain ⟨heligible, hvalid⟩ := found_eligible hnode
  obtain ⟨lines, hhead, hsession⟩ := Option.bind_eq_some_iff.mp h
  split at hsession
  next hmatch =>
    obtain rfl := Option.some.inj hsession
    obtain ⟨record, hrecord, hmine⟩ := List.any_eq_true.mp hmatch
    rw [claudeRecord, Bool.and_eq_true] at hmine
    obtain ⟨cwd, hcwd, hexact⟩ := (Option.any_eq_true _ _).mp hmine.2
    exact ⟨rfl, hvalid, file, lines, hfound, heligible, hhead, .inl rfl, record, hrecord, cwd, .inl hcwd, hexact⟩
  · cases hsession

theorem codex_saved {found : Found} (hfound : found ∈ store.files age .codex directory)
    (h : codexCandidate host.canonicalize directory found.1 found.2 = some session) :
    Saved host age .codex directory store session := by
  obtain ⟨file, ms⟩ := found
  have heligible := foundIn_eligible hfound
  obtain ⟨lines, hhead, hsession⟩ := Option.bind_eq_some_iff.mp h
  obtain ⟨id, hid, rfl⟩ := Option.map_eq_some_iff.mp hsession
  obtain ⟨record, hrecord, hmine⟩ := List.exists_of_findSome?_eq_some hid
  unfold codexRecord at hmine
  split at hmine
  next hmeta =>
    obtain ⟨-, -, -, hcwd⟩ := hmeta
    obtain ⟨cwd, hcwd, hexact⟩ := (Option.any_eq_true _ _).mp hcwd
    obtain ⟨-, hgood⟩ := Option.filter_eq_some_iff.mp hmine
    obtain ⟨hvalid, hname⟩ := Bool.and_eq_true_iff.mp hgood
    exact ⟨rfl, hvalid, file, lines, hfound, heligible, hhead, .inr hname, record, hrecord, cwd, .inr hcwd, hexact⟩
  · cases hmine

theorem saved_of_mem (h : session ∈ host.saved age harness directory store) :
    Saved host age harness directory store session := by
  obtain ⟨found, hfound, hsession⟩ := List.mem_filterMap.mp h
  cases harness with
  | claude => exact claude_saved hfound hsession
  | codex => exact codex_saved hfound hsession

theorem scan_sees (h : host.scan limits b harness directory store = .ok (b', sessions)) :
    Sees limits b b' (host.saved limits.age harness directory store) sessions := by
  unfold Host.scan at h
  cases harness with
  | claude =>
    cases hentries : store.project (encodeClaudeProject directory) with
    | error e =>
      rw [hentries] at h
      cases h
    | ok entries =>
      rw [hentries] at h
      let candidate := fun found : Found => claudeCandidate host.canonicalize directory found.1 found.2
      have hresult : discoverClaude limits host.clock candidate b (entries.getD []) = (b', sessions) := Except.ok.inj h
      have hsees : Sees limits b (discoverClaude limits host.clock candidate b (entries.getD [])).1 _ _ :=
        discoverClaude_sees candidate b (entries.getD [])
      rw [hresult] at hsees
      have hlisted : store.files limits.age .claude directory =
        (entries.getD []).filterMap (claudeFound limits.age) := by
        simp [Store.files, hentries, Except.toOption]
      rw [Host.saved, hlisted]
      exact hsees
  | codex =>
    cases hentries : store.sessions with
    | error e =>
      rw [hentries] at h
      cases h
    | ok entries =>
      rw [hentries] at h
      cases hfiles : collectCodexFiles limits host.clock 0 b [] (entries.getD []) with
      | error e =>
        simp only [Except.bind, hfiles] at h
        cases h
      | ok collected =>
        obtain ⟨b₁, files⟩ := collected
        simp only [Except.bind, hfiles] at h
        let candidate := fun found : Found => codexCandidate host.canonicalize directory found.1 found.2
        have hresult : readFiles limits host.clock candidate b₁ files = (b', sessions) := Except.ok.inj h
        obtain ⟨more, hmore, hwalk⟩ := collectCodexFiles_sees hfiles
        rw [List.nil_append] at hmore
        have hread : Sees limits b₁ (readFiles limits host.clock candidate b₁ files).1 _ _ :=
          readFiles_sees candidate b₁ files
        rw [hresult] at hread
        have hsees := (hmore ▸ hwalk).filterMap hread
        have hlisted : store.files limits.age .codex directory = foundIn limits.age (entries.getD []) := by
          simp [Store.files, hentries, Except.toOption]
        rw [Host.saved, hlisted]
        exact hsees

theorem before_total (left right : ResumeCandidate) : (before left right || before right left) = true := by
  have hids := le_total left.sessionId right.sessionId
  simp only [before, Bool.or_eq_true, Bool.and_eq_true, decide_eq_true_eq, beq_iff_eq]
  rcases Nat.lt_trichotomy left.updatedMs right.updatedMs with hlt | heq | hlt
  · exact .inr (.inl hlt)
  · rcases hids with hids | hids
    · exact .inl (.inr ⟨heq.symm, hids⟩)
    · exact .inr (.inr ⟨heq, hids⟩)
  · exact .inl (.inl hlt)

theorem before_trans (first second third : ResumeCandidate) (h : before first second = true)
    (h' : before second third = true) :
    before first third = true := by
  simp only [before, Bool.or_eq_true, Bool.and_eq_true, decide_eq_true_eq, beq_iff_eq] at h h' ⊢
  rcases h with hlt | ⟨heq, hids⟩
  · rcases h' with hlt' | ⟨heq', -⟩
    · exact .inl (hlt'.trans hlt)
    · exact .inl (heq' ▸ hlt)
  · rcases h' with hlt' | ⟨heq', hids'⟩
    · exact .inl (heq ▸ hlt')
    · exact .inr ⟨heq'.trans heq, hids.trans hids'⟩

theorem le_of_before {left right : ResumeCandidate} (h : before left right = true) :
    right.updatedMs ≤ left.updatedMs := by
  simp only [before, Bool.or_eq_true, Bool.and_eq_true, decide_eq_true_eq, beq_iff_eq] at h
  omega

theorem eq_of_sameSession {left right : ResumeCandidate} (h : sameSession left right = true) :
    left.toResumeCandidate = right.toResumeCandidate := by
  cases left with
  | mk left _ _ =>
    cases right with
    | mk right _ _ =>
      cases left
      cases right
      simpa [sameSession] using h

theorem concluded_lists (h : Sees limits b b' all sessions) : Lists limits all (concluded limits b' sessions) := by
  have hsorted : (sessions.mergeSort before).Pairwise fun left right => before left right = true :=
    List.pairwise_mergeSort before_trans before_total sessions
  have hkept : (Adjacent.dedup sameSession (sessions.mergeSort before)).Sublist _ := Adjacent.dedup_sublist _
  have hshown : (concluded limits b' sessions).sessions.Sublist (sessions.mergeSort before) :=
    (List.take_sublist _ _).trans hkept
  refine ⟨fun session hsession => ?_, hsorted.sublist hshown, List.length_take_le _ _,
    fun hwhole session hsession => ?_⟩
  · exact h.part.subset (List.mem_mergeSort.mp (hshown.subset hsession))
  · simp only [concluded, Bool.or_eq_false_iff, decide_eq_false_iff_not, Nat.not_lt] at hwhole
    obtain ⟨hscanned, hfew⟩ := hwhole
    have hall : session ∈ sessions.mergeSort before := by
      rw [List.mem_mergeSort, h.whole hscanned]
      exact hsession
    have hcovers : ∃ shown ∈ Adjacent.dedup sameSession (sessions.mergeSort before), _ :=
      Adjacent.dedup_covers hsorted hall
    obtain ⟨shown, hmem, hlike⟩ := hcovers
    refine ⟨shown, by rwa [concluded, List.take_of_length_le hfew], ?_⟩
    rcases hlike with rfl | ⟨hsame, hbefore⟩
    · exact ⟨rfl, le_rfl⟩
    · exact ⟨eq_of_sameSession hsame, le_of_before hbefore⟩

end

section
variable {limits : DiscoveryLimits} {host : Host} {name : String} {d : Discovery}

/-- **A discovery is right.** It lists saved conversations of the very folder and
no others, the newest first and no more than asked for; within its budget; and
unless it says that it was cut, for each conversation there is it lists the latest
file. -/
theorem discover_right (h : discover host name limits = .ok d) :
    ∃ harness directory store b sessions, profileHarness name = .ok harness ∧ host.directory = .ok directory ∧
      host.store = .ok store ∧ host.scan limits ⟨0, 0, 0, 0, false⟩ harness directory store = .ok (b, sessions) ∧
      b.Within limits ∧ Lists limits (host.saved limits.age harness directory store) d ∧
      ∀ session ∈ d.sessions, Saved host limits.age harness directory store session := by
  unfold discover at h
  cases hdirectory : host.directory with
  | error e => simp [hdirectory, bind, Except.bind] at h
  | ok directory =>
  cases hharness : profileHarness name with
  | error e => simp [hdirectory, hharness, bind, Except.bind] at h
  | ok harness =>
  cases hstore : host.store with
  | error e => simp [hdirectory, hharness, hstore, bind, Except.bind] at h
  | ok store =>
  cases hnew : ScanBudget.new limits with
  | error e => simp [hdirectory, hharness, hstore, hnew, bind, Except.bind] at h
  | ok fresh =>
  have hfresh : fresh = ⟨0, 0, 0, 0, false⟩ := by
    unfold ScanBudget.new at hnew
    split at hnew
    · cases hnew
    · exact (Except.ok.inj hnew).symm
  subst hfresh
  cases hscan : host.scan limits ⟨0, 0, 0, 0, false⟩ harness directory store with
  | error e => simp [hdirectory, hharness, hstore, hnew, hscan, bind, Except.bind] at h
  | ok result =>
    obtain ⟨b, sessions⟩ := result
    obtain rfl : concluded limits b sessions = d := by
      simpa [hdirectory, hharness, hstore, hnew, hscan, bind, Except.bind, pure, Except.pure] using h
    have hsees := scan_sees hscan
    have hlists := concluded_lists hsees
    exact ⟨harness, directory, store, b, sessions, rfl, rfl, rfl, hscan,
      hsees.later.within ⟨Nat.zero_le _, Nat.zero_le _, Nat.zero_le _⟩, hlists,
      fun session hsession => saved_of_mem (hlists.saved session hsession)⟩

end

/-! ## Handles -/

/-- `hasher.hash_one` of a tag and the four texts that name a conversation. -/
abbrev Hasher := Nat → String → String → String → String → UInt64

section
variable (hasher : Hasher) (profileId directory : String)

def opaqueResumeId (candidate : Invocation.ResumeCandidate) : String :=
  let digest (tag : Nat) := hasher tag profileId directory candidate.harness.name candidate.sessionId
  "saved-" ++ Text.hex16 (digest 0).toNat ++ Text.hex16 (digest 1).toNat

def isLowerHex (c : Char) : Bool := Text.isHexDigit c && !('A' ≤ c && c ≤ 'Z')

def validOpaqueResumeId (value : String) : Bool :=
  match Text.strip "saved-".toList value.toList with
  | none => false
  | some digest => Text.utf8Size digest == 32 && digest.all isLowerHex

structure ResumableLaunchSession where
  id : String
  harness : String
  updatedMs : Nat
  preview : String

/-- What the browser is shown. -/
def resumableLaunchSessions (d : Discovery) : List ResumableLaunchSession :=
  d.sessions.map fun candidate =>
    ⟨opaqueResumeId hasher profileId directory candidate.toResumeCandidate, candidate.harness.name, candidate.updatedMs,
      candidate.preview⟩

def resolveOpaqueResume (candidates : List ResumeCandidate) (requested : String) : Option ResumeCandidate :=
  candidates.find? fun candidate => opaqueResumeId hasher profileId directory candidate.toResumeCandidate == requested

def unavailable : String :=
  "the selected saved conversation is no longer available; refresh Launch and choose it again"

/-- `revalidate_resume_candidate`, when the launch asks for a conversation. -/
def revalidateResumeCandidate (host : Host) (harness : String) (limits : DiscoveryLimits) (resumeId : String) :
    Except String ResumeCandidate :=
  if validOpaqueResumeId resumeId then
    (discover host harness limits).bind fun d =>
      match resolveOpaqueResume hasher profileId directory d.sessions resumeId with
      | none => .error unavailable
      | some candidate => .ok candidate
  else .error "saved-session id is malformed"

end

theorem digits_lowerHex (n : Nat) : ∀ c ∈ Nat.toDigits 16 n, isLowerHex c = true ∧ c.utf8Size = 1 := by
  have hdigit : ∀ d < 16, isLowerHex (Nat.digitChar d) = true ∧ (Nat.digitChar d).utf8Size = 1 := by decide
  induction n using Nat.strongRecOn with
  | ind n ih =>
    intro c hc
    rw [Nat.toDigits_eq_if (by decide)] at hc
    split at hc
    next hlt =>
      obtain rfl := List.mem_singleton.mp hc
      exact hdigit n hlt
    next hge =>
      rcases List.mem_append.mp hc with hc | hc
      · exact ih (n / 16) (by omega) c hc
      · obtain rfl := List.mem_singleton.mp hc
        exact hdigit (n % 16) (by omega)

theorem hex16_lowerHex (n : UInt64) :
    (Text.hex16 n.toNat).toList.length = 16 ∧ ∀ c ∈ (Text.hex16 n.toNat).toList, isLowerHex c = true ∧
      c.utf8Size = 1 := by
  have hlength : (Nat.toDigits 16 n.toNat).length ≤ 16 :=
    (Nat.length_toDigits_le_iff (by decide) (by decide)).mpr (UInt64.toNat_lt n)
  rw [Text.hex16, String.toList_ofList]
  refine ⟨?_, fun c hc => ?_⟩
  · rw [List.length_append, List.length_replicate]
    omega
  · rcases List.mem_append.mp hc with hc | hc
    · obtain rfl := List.eq_of_mem_replicate hc
      decide
    · exact digits_lowerHex n.toNat c hc

/-- Every handle that is given out is one that is taken back. -/
theorem opaqueResumeId_valid (hasher : Hasher) (profileId directory : String) (candidate : Invocation.ResumeCandidate) :
    validOpaqueResumeId (opaqueResumeId hasher profileId directory candidate) = true := by
  obtain ⟨hfirst, hfirst'⟩ := hex16_lowerHex (hasher 0 profileId directory candidate.harness.name candidate.sessionId)
  obtain ⟨hsecond, hsecond'⟩ := hex16_lowerHex (hasher 1 profileId directory candidate.harness.name candidate.sessionId)
  rw [validOpaqueResumeId, opaqueResumeId, String.append_assoc, String.toList_append, Text.strip_append,
    String.toList_append]
  generalize (Text.hex16 _).toList = first at hfirst hfirst' ⊢
  generalize (Text.hex16 _).toList = second at hsecond hsecond' ⊢
  have hall : ∀ c ∈ first ++ second, isLowerHex c = true ∧ c.utf8Size = 1 := by
    intro c hc
    rcases List.mem_append.mp hc with hc | hc
    · exact hfirst' c hc
    · exact hsecond' c hc
  have hsize : Text.utf8Size (first ++ second) = 32 := by
    rw [← Text.utf8ByteSize_eq, Text.utf8ByteSize_ofList fun c hc => (hall c hc).2, List.length_append, hfirst, hsecond]
  simp only [hsize, beq_self_eq_true, Bool.true_and, List.all_eq_true]
  exact fun c hc => (hall c hc).1

section
variable {hasher : Hasher} {profileId directoryText name : String} {limits : DiscoveryLimits} {host host' : Host}
  {first second : Discovery}

end

/-! ### One conversation that stays, and one that goes -/

private def firstId : String := "aaaaaaaa-bbbb-4ccc-8ddd-eeeeeeeeeee1"

private def secondId : String := "aaaaaaaa-bbbb-4ccc-8ddd-eeeeeeeeeee2"

private def rollout (id : String) (modified : Nat) : Node :=
  .file ⟨"rollout-" ++ id ++ ".jsonl", 100, modified, 10000000000,
    some [.object [("payload", .object [("cwd", .string "/work"), ("id", .string id), ("source", .string "cli")]),
      ("type", .string "session_meta")]], some []⟩

private def hostWith (nodes : List Node) : Host where
  directory := .ok "/work"
  store := .ok ⟨fun _ => .ok none, .ok (some [.dir true [.dir true nodes]])⟩
  canonicalize path := some path
  clock _ := 0

/-- A digest that tells the two apart. -/
private def lengths : Hasher := fun tag _ _ _ id => if id = firstId then 1 else if tag = 0 then 2 else 3

private def profile : String := "Codex"

private def both : Host := hostWith [rollout secondId 7000000000, rollout firstId 5000000000]

private def later : Host := hostWith [rollout secondId 9000000000]

private def listed (id : String) (updatedMs : Nat) : ResumeCandidate :=
  ⟨⟨.codex, id⟩, updatedMs, "Previous Codex conversation"⟩

private def whole : ScanBudget := ⟨5, 3, 2, 400, false⟩

/-- What the candidates come to when they are already in order. -/
theorem concluded_of_pairwise {limits : DiscoveryLimits} {b : ScanBudget} {sessions : List ResumeCandidate}
    (h : sessions.Pairwise fun left right => before left right = true) :
    concluded limits b sessions =
      ⟨(Adjacent.dedup sameSession sessions).take limits.results,
        b.truncated || decide ((Adjacent.dedup sameSession sessions).length > limits.results)⟩ := by
  rw [concluded, List.mergeSort_of_pairwise h]

private theorem both_listed :
    discover both profile .default = .ok ⟨[listed secondId 7000, listed firstId 5000], false⟩ := by
  have hscan : (discover both profile .default) =
    .ok (concluded .default whole [listed secondId 7000, listed firstId 5000]) := rfl
  rw [hscan, concluded_of_pairwise (by decide +kernel)]
  rfl

private theorem later_listed : discover later profile .default = .ok ⟨[listed secondId 9000], false⟩ := by
  have hscan : (discover later profile .default) =
      .ok (concluded .default ⟨4, 2, 1, 200, false⟩ [listed secondId 9000]) := rfl
  rw [hscan, concluded_of_pairwise (by decide +kernel)]
  rfl

theorem discover_right_example :
    ∃ d, discover both profile .default = .ok d ∧ d.sessions.length = 2 ∧ ∃ all, Lists .default all d := by
  obtain ⟨_, _, _, _, _, -, -, -, -, -, hlists, -⟩ := discover_right both_listed
  exact ⟨_, both_listed, rfl, _, hlists⟩

end Atmux.OldSessions
