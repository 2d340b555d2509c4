/-
The changes that are read from `git status --porcelain=v2 -z`, of which only so
many bytes are kept.

A record that was cut short is read like any other: what is left of it may be
a record with a shorter path. `git_status_right` says what is reported of any
records and any cut, and exactly when only complete records are.
-/
import Mathlib.Data.List.Sort
import Atmux.Lib.Fields
import Atmux.SelfUpdate.Manifest

namespace Atmux.Workspace.GitStatus

open Lib SelfUpdate

/-! ## Paths -/

def maxRelativePathBytes : Nat := 4096

/-- `std::path::Component` of a Unix path. -/
inductive Component
  | rootDir
  | curDir
  | parentDir
  | normal (name : List Char)
deriving DecidableEq

/-- A piece between slashes. Only a path's first piece may be the current
directory; elsewhere it is dropped, as an empty one is. -/
def component (first : Bool) (piece : List Char) : Option Component :=
  if piece = [] then none
  else if piece = ['.'] then (if first then some .curDir else none)
  else if piece = ['.', '.'] then some .parentDir
  else some (.normal piece)

def components (path : List Char) : List Component :=
  (if path.head? = some '/' then [.rootDir] else []) ++
    match Text.split '/' path with
    | [] => []
    | first :: rest => (component true first).toList ++ rest.filterMap (component false)

def safeComponent (name : List Char) : Bool :=
  !name.isEmpty && name ≠ ['.'] && name ≠ ['.', '.'] && !name.any Text.isControl

/-- `Path::extension` of a name: what follows the last dot, where something is
before it. -/
def extension (name : List Char) : Option (List Char) :=
  match Text.cut '.' name.reverse with
  | none => none
  | some (after, before) => if before = [] then none else some after.reverse

def sensitiveNames : List String :=
  [".git", ".ssh", ".aws", ".gnupg", ".kube", ".npmrc", ".pypirc", ".netrc", "id_rsa", "id_ed25519"]

def sensitiveComponent (name : List Char) : Bool :=
  let lower := name.map Text.asciiLower
  if ".atmux-edit-".toList.isPrefixOf lower then true
  else if sensitiveNames.any fun sensitive => sensitive.toList = lower then true
  else if lower = ".env".toList || ".env.".toList.isPrefixOf lower then
    ! [".example", ".sample", ".template"].any fun suffix => suffix.toList.isSuffixOf lower
  else (extension lower).any fun extension => ["pem", "key", "p12", "pfx"].any fun secret => secret.toList = extension

def Component.isVisible : Component → Bool
  | .normal name => safeComponent name && !sensitiveComponent name
  | _ => false

def Component.name : Component → Option (List Char)
  | .normal name => some name
  | _ => none

/-- `validate_relative_path` where the path may not be empty. -/
def validateRelativePath (value : String) : Option (List Component) :=
  if maxRelativePathBytes < value.utf8ByteSize ∨ value.toList.any Text.isControl then none
  else if value = "" then none
  else if (components value.toList).any fun component => component.name.isNone then none
  else some (components value.toList)

def joinNames : List (List Char) → List Char
  | [] => []
  | [name] => name
  | name :: names => name ++ '/' :: joinNames names

def pathForResponse (path : List Component) : String := String.ofList (joinNames (path.filterMap Component.name))

def relativeGitPath (bytes : Bytes) : Option String := do
  let value ← decodeUtf8 bytes
  let path ← validateRelativePath value
  if path.all Component.isVisible then some (pathForResponse path) else none

/-! ## Records -/

structure GitChange where
  status : String
  path : String
  oldPath : Option String
  submodule : Option String
deriving DecidableEq

def isGraphic (byte : UInt8) : Bool := 0x21 ≤ byte.toNat && byte.toNat ≤ 0x7e

def statusText (status : Bytes) : Option String :=
  if status.length = 2 && status.all isGraphic then decodeUtf8 status else none

def oldGitPath : Option Bytes → Option (Option String)
  | none => some none
  | some old => (relativeGitPath old).map some

/-- The change of a record's fields. -/
def statusChange (status submodule path : Bytes) (old : Option Bytes) : Option GitChange := do
  let status ← statusText status
  let path ← relativeGitPath path
  let oldPath ← oldGitPath old
  if oldPath = some path then none
  else some { status, path, oldPath, submodule := (decodeUtf8 submodule).filter fun value => value.toList.head? = some 'S' }

def space : UInt8 := 0x20

def parseStatusRecord (record : Bytes) (fields : Nat) (old : Option Bytes) : Option GitChange :=
  let fields := Fields.splitn space fields record
  if fields.length < 3 then none else statusChange (fields.getD 1 []) (fields.getD 2 []) (fields.getLastD []) old

def parseUntracked (path : Bytes) : Option GitChange := do
  let path ← relativeGitPath path
  some { status := "??", path, oldPath := none, submodule := none }

/-- A record that takes no other with it. -/
def parseSingle (record : Bytes) : Option GitChange :=
  match record with
  | 0x31 :: _ => parseStatusRecord record 9 none
  | 0x75 :: _ => parseStatusRecord record 11 none
  | 0x3f :: 0x20 :: path => parseUntracked path
  | _ => none

/-! ## The loop -/

def maxGitChanges : Nat := 512

def maxGitPathBytes : Nat := 256 * 1024

structure ParsedStatus where
  changes : List GitChange
  sawChange : Bool
  truncated : Bool

/-- What the loop has so far, `truncated` where something was hidden. -/
def ParsedStatus.add (parsed : ParsedStatus) (change : Option GitChange) : ParsedStatus :=
  match change with
  | none => { parsed with sawChange := true, truncated := true }
  | some change =>
    if maxGitChanges ≤ parsed.changes.length then { parsed with sawChange := true, truncated := true }
    else { parsed with sawChange := true, changes := parsed.changes ++ [change] }

/-- A rename takes the next record with it, which is empty when there is none. -/
def parseRecords (parsed : ParsedStatus) : List Bytes → ParsedStatus
  | [] => parsed
  | record :: records =>
    if record = [] then parseRecords parsed records
    else if record.head? = some 0x32 then
      match records with
      | [] => parsed.add (parseStatusRecord record 10 (some []))
      | old :: records => parseRecords (parsed.add (parseStatusRecord record 10 (some old))) records
    else parseRecords (parsed.add (parseSingle record)) records

def GitChange.pathBytes (change : GitChange) : Nat :=
  change.path.utf8ByteSize + change.oldPath.elim 0 String.utf8ByteSize

/-- What is kept of the changes for the bytes of their paths, and whether one
was not. -/
def retain (pathBytes : Nat) : List GitChange → List GitChange × Bool
  | [] => ([], false)
  | change :: changes =>
    if maxGitPathBytes < pathBytes + change.pathBytes then ((retain pathBytes changes).1, true)
    else
      (change :: (retain (pathBytes + change.pathBytes) changes).1, (retain (pathBytes + change.pathBytes) changes).2)

/-- Unicode's small letters of a path, and then the path. -/
def before (toLowercase : String → String) (a b : GitChange) : Prop :=
  toLowercase a.path < toLowercase b.path ∨ toLowercase a.path = toLowercase b.path ∧ a.path ≤ b.path

instance (toLowercase : String → String) : DecidableRel (before toLowercase) := fun a b =>
  inferInstanceAs (Decidable (toLowercase a.path < toLowercase b.path ∨
    toLowercase a.path = toLowercase b.path ∧ a.path ≤ b.path))

def parsePorcelain (toLowercase : String → String) (bytes : Bytes) (outputTruncated : Bool) : ParsedStatus :=
  let parsed := parseRecords ⟨[], false, false⟩ (Fields.split 0 bytes)
  let (changes, dropped) := retain 0 (parsed.changes.insertionSort (before toLowercase))
  { changes, sawChange := parsed.sawChange, truncated := outputTruncated || (parsed.truncated || dropped) }

/-! ## The output of git -/

structure Drained where
  output : Bytes
  truncated : Bool

/-- One read of the loop. -/
def Drained.read (limit : Nat) (drained : Drained) (chunk : Bytes) : Drained :=
  let kept := min (limit - drained.output.length) chunk.length
  { output := drained.output ++ chunk.take kept, truncated := drained.truncated || decide (kept < chunk.length) }

def drainBounded (limit : Nat) (chunks : List Bytes) : Drained := chunks.foldl (Drained.read limit) ⟨[], false⟩

/-- The status that is read from git's output as it arrives. -/
def readStatus (toLowercase : String → String) (limit : Nat) (chunks : List Bytes) : ParsedStatus :=
  let drained := drainBounded limit chunks
  parsePorcelain toLowercase drained.output drained.truncated

/-! ## Records as git writes them -/

/-- A record, its fields between the submodule state and the path in order. -/
inductive Record
  | ordinary (status submodule : Bytes) (fields : List Bytes) (path : Bytes)
  | renamed (status submodule : Bytes) (fields : List Bytes) (path original : Bytes)
  | unmerged (status submodule : Bytes) (fields : List Bytes) (path : Bytes)
  | untracked (path : Bytes)

namespace Record

/-- Fields have neither spaces nor zeros, and paths no zeros. -/
def Formed : Record → Prop
  | ordinary status submodule fields path =>
    fields.length = 5 ∧ (∀ field ∈ status :: submodule :: fields, space ∉ field ∧ 0 ∉ field) ∧ 0 ∉ path
  | renamed status submodule fields path original =>
    fields.length = 6 ∧ (∀ field ∈ status :: submodule :: fields, space ∉ field ∧ 0 ∉ field) ∧ 0 ∉ path ∧ 0 ∉ original
  | unmerged status submodule fields path =>
    fields.length = 7 ∧ (∀ field ∈ status :: submodule :: fields, space ∉ field ∧ 0 ∉ field) ∧ 0 ∉ path
  | untracked path => 0 ∉ path

/-- A kind's letter and its fields, with spaces between. -/
def line (letter : UInt8) (status submodule : Bytes) (fields : List Bytes) (path : Bytes) : Bytes :=
  Fields.terminated space ([letter] :: status :: submodule :: fields) ++ path

/-- A record's texts, each of which a zero ends. -/
def parts : Record → List Bytes
  | ordinary status submodule fields path => [line 0x31 status submodule fields path]
  | renamed status submodule fields path original => [line 0x32 status submodule fields path, original]
  | unmerged status submodule fields path => [line 0x75 status submodule fields path]
  | untracked path => [0x3f :: 0x20 :: path]

def encode (record : Record) : Bytes := Fields.terminated 0 record.parts

/-- What the record says, where its paths are visible. -/
def change : Record → Option GitChange
  | ordinary status submodule _ path => statusChange status submodule path none
  | renamed status submodule _ path original => statusChange status submodule path (some original)
  | unmerged status submodule _ path => statusChange status submodule path none
  | untracked path => parseUntracked path

end Record

def encodeAll (records : List Record) : Bytes := records.flatMap Record.encode

/-! ## What the loop reads -/

/-- The records that the loop parses, each as it reads it. -/
def entries : List Bytes → List (Option GitChange)
  | [] => []
  | record :: records =>
    if record = [] then entries records
    else if record.head? = some 0x32 then
      match records with
      | [] => [parseStatusRecord record 10 (some [])]
      | old :: records => parseStatusRecord record 10 (some old) :: entries records
    else parseSingle record :: entries records

theorem parseRecords_eq (parsed : ParsedStatus) (records : List Bytes) :
    parseRecords parsed records = (entries records).foldl ParsedStatus.add parsed := by
  fun_induction entries records generalizing parsed with
  | case1 => rfl
  | case2 records ih =>
    rw [← ih]
    cases records <;> simp [parseRecords]
  | case3 record hne hletter => simp [parseRecords, hne, hletter]
  | case4 record hne hletter old records ih => simp [parseRecords, hne, hletter, ih]
  | case5 record records hne hletter ih =>
    rw [List.foldl_cons, ← ih]
    cases records <;> simp [parseRecords, hne, hletter]

theorem parseStatusRecord_line (letter : UInt8) {status submodule : Bytes} {fields : List Bytes} {count : Nat}
    (hletter : letter ≠ space) (hlength : fields.length + 4 = count)
    (hfields : ∀ field ∈ status :: submodule :: fields, space ∉ field ∧ 0 ∉ field) (path : Bytes) (old : Option Bytes) :
    parseStatusRecord (Record.line letter status submodule fields path) count old =
      statusChange status submodule path old := by
  have hspaces : ∀ field ∈ [letter] :: status :: submodule :: fields, space ∉ field := by
    intro field hfield
    rcases List.mem_cons.mp hfield with rfl | hfield
    · simp [hletter.symm]
    · exact (hfields field hfield).1
  have hsplit := Fields.splitn_joined hspaces path
  have hcount : ([letter] :: status :: submodule :: fields).length + 1 = count := by
    simp only [List.length_cons]
    omega
  rw [hcount] at hsplit
  have hlast : ([letter] :: status :: submodule :: fields ++ [path]).getLastD [] = path := by
    rw [List.getLastD_eq_getLast?, List.getLast?_concat]
    rfl
  rw [parseStatusRecord, Record.line, hsplit, hlast, if_neg]
  · rfl
  · simp

theorem entries_single {record : Bytes} {letter : UInt8} (hrecord : record.head? = some letter)
    (hletter : letter ≠ 0x32) (records : List Bytes) : entries (record :: records) = parseSingle record :: entries records := by
  have hne : record ≠ [] := by
    rintro rfl
    cases hrecord
  cases records <;> simp [entries, hne, hrecord, hletter]

theorem head?_line (letter : UInt8) (status submodule : Bytes) (fields : List Bytes) (path : Bytes) :
    (Record.line letter status submodule fields path).head? = some letter := rfl

/-- A record is read as what it says. -/
theorem entries_parts {record : Record} (h : record.Formed) (records : List Bytes) :
    entries (record.parts ++ records) = record.change :: entries records := by
  cases record with
  | ordinary status submodule fields path =>
    have hparse := parseStatusRecord_line 0x31 (by decide) (by rw [h.1]) h.2.1 path none
    rw [Record.parts, List.singleton_append, entries_single (head?_line ..) (by decide)]
    exact congrArg (· :: entries records) hparse
  | renamed status submodule fields path original =>
    have hparse := parseStatusRecord_line 0x32 (by decide) (by rw [h.1]) h.2.1 path (some original)
    rw [Record.parts, List.cons_append, List.singleton_append, Record.change, ← hparse]
    simp [entries, Record.line, Fields.terminated]
  | unmerged status submodule fields path =>
    have hparse := parseStatusRecord_line 0x75 (by decide) (by rw [h.1]) h.2.1 path none
    rw [Record.parts, List.singleton_append, entries_single (head?_line ..) (by decide)]
    exact congrArg (· :: entries records) hparse
  | untracked path =>
    rw [Record.parts, List.singleton_append, entries_single rfl (by decide)]
    rfl

theorem not_mem_line {letter : UInt8} {status submodule : Bytes} {fields : List Bytes} {path : Bytes} (hletter : letter ≠ 0)
    (hfields : ∀ field ∈ status :: submodule :: fields, space ∉ field ∧ 0 ∉ field) (hpath : 0 ∉ path) :
    0 ∉ Record.line letter status submodule fields path := by
  intro hmem
  rcases List.mem_append.mp hmem with hmem | hmem
  · obtain ⟨field, hfield, hmem⟩ := List.mem_flatMap.mp hmem
    rcases List.mem_append.mp hmem with hmem | hmem
    · rcases List.mem_cons.mp hfield with rfl | hfield
      · exact hletter (List.mem_singleton.mp hmem).symm
      · exact (hfields field hfield).2 hmem
    · exact absurd (List.mem_singleton.mp hmem) (by decide)
  · exact hpath hmem

theorem Record.Formed.not_mem {record : Record} (h : record.Formed) : ∀ part ∈ record.parts, 0 ∉ part := by
  cases record with
  | ordinary status submodule fields path =>
    intro part hpart
    obtain rfl := List.mem_singleton.mp hpart
    exact not_mem_line (by decide) h.2.1 h.2.2
  | renamed status submodule fields path original =>
    intro part hpart
    simp only [Record.parts, List.mem_cons, List.not_mem_nil, or_false] at hpart
    rcases hpart with rfl | rfl
    · exact not_mem_line (by decide) h.2.1 h.2.2.1
    · exact h.2.2.2
  | unmerged status submodule fields path =>
    intro part hpart
    obtain rfl := List.mem_singleton.mp hpart
    exact not_mem_line (by decide) h.2.1 h.2.2
  | untracked path =>
    intro part hpart
    obtain rfl := List.mem_singleton.mp hpart
    have hpath : 0 ∉ path := h
    simp [hpath]

/-! ## A cut -/

/-- The records whose text is within so many bytes, and what is left of the
next one. -/
def cut : Nat → List Record → List Record × Bytes
  | _, [] => ([], [])
  | limit, record :: records =>
    if record.encode.length ≤ limit + 1 then
      (record :: (cut (limit - record.encode.length) records).1, (cut (limit - record.encode.length) records).2)
    else ([], record.encode.take limit)

/-- A record's text and its last zero. -/
theorem Record.encode_eq (record : Record) :
    ∃ body, record.encode = body ++ [0] ∧ body ≠ [] ∧ ((∀ part ∈ record.parts, 0 ∉ part) → Fields.split 0 body = record.parts) := by
  have hline : ∀ (letter : UInt8) (status submodule : Bytes) (fields : List Bytes) (path : Bytes),
      Record.line letter status submodule fields path ≠ [] := by
    intro letter status submodule fields path
    simp [Record.line, Fields.terminated]
  cases record with
  | ordinary status submodule fields path =>
    exact ⟨_, List.append_nil _, hline _ _ _ _ _, fun h => Fields.split_eq_singleton (h _ List.mem_cons_self)⟩
  | unmerged status submodule fields path =>
    exact ⟨_, List.append_nil _, hline _ _ _ _ _, fun h => Fields.split_eq_singleton (h _ List.mem_cons_self)⟩
  | untracked path =>
    exact ⟨_, List.append_nil _, List.cons_ne_nil _ _, fun h => Fields.split_eq_singleton (h _ List.mem_cons_self)⟩
  | renamed status submodule fields path original =>
    refine ⟨line 0x32 status submodule fields path ++ 0 :: original, ?_, by simp, fun h => ?_⟩
    · simp [encode, parts, Fields.terminated]
    · rw [Fields.split_append, Fields.split_eq_singleton (h _ List.mem_cons_self),
        Fields.split_eq_singleton (h _ (List.mem_cons_of_mem _ List.mem_cons_self))]
      rfl

theorem cut_zero (records : List Record) : cut 0 records = ([], []) := by
  cases records with
  | nil => rfl
  | cons record records =>
    obtain ⟨body, heq, hne, -⟩ := record.encode_eq
    have hpos := List.length_pos_iff.mpr hne
    rw [cut, if_neg]
    · rfl
    · rw [heq, List.length_append, List.length_singleton]
      omega

/-- The loop reads the records within the cut, and what is left of the next
one as a record of its own. -/
theorem entries_cut {records : List Record} (h : ∀ record ∈ records, record.Formed) (limit : Nat) :
    entries (Fields.split 0 ((encodeAll records).take limit)) =
      (cut limit records).1.map Record.change ++ entries (Fields.split 0 (cut limit records).2) := by
  induction records generalizing limit with
  | nil => simp [encodeAll, cut]
  | cons record records ih =>
    have hformed := h record List.mem_cons_self
    have hrest := ih fun r hr => h r (List.mem_cons_of_mem _ hr)
    have hall : encodeAll (record :: records) = record.encode ++ encodeAll records := rfl
    rw [hall, cut]
    split
    next hwithin =>
      rcases Nat.lt_or_ge limit record.encode.length with hlt | hle
      · obtain ⟨body, heq, -, hparts⟩ := record.encode_eq
        have hlength : body.length = limit := by
          rw [heq, List.length_append, List.length_singleton] at hwithin hlt
          omega
        have hzero : limit - record.encode.length = 0 := by omega
        have htake : (record.encode ++ encodeAll records).take limit = body := by
          rw [heq, List.append_assoc, ← hlength, List.take_left]
        rw [htake, hparts hformed.not_mem, hzero, cut_zero, ← List.append_nil record.parts, entries_parts hformed]
        rfl
      · have htake : (record.encode ++ encodeAll records).take limit =
            record.encode ++ (encodeAll records).take (limit - record.encode.length) := by
          rw [List.take_append, List.take_of_length_le hle]
        rw [htake, Record.encode, Fields.split_terminated hformed.not_mem, entries_parts hformed]
        exact congrArg (record.change :: ·) (hrest _)
    next hbeyond =>
      rw [List.take_append_of_le_length (by omega)]
      rfl

/-! ## Limits -/

/-- The changes that the limits leave of those read, and whether they left one
out. -/
def withinLimits (toLowercase : String → String) (changes : List GitChange) : List GitChange × Bool :=
  let (kept, dropped) := retain 0 ((changes.take maxGitChanges).insertionSort (before toLowercase))
  (kept, decide (maxGitChanges < changes.length) || dropped)

theorem foldl_add (parsed : ParsedStatus) (read : List (Option GitChange)) (h : parsed.changes.length ≤ maxGitChanges) :
    (read.foldl ParsedStatus.add parsed).changes = (parsed.changes ++ read.filterMap id).take maxGitChanges ∧
      (read.foldl ParsedStatus.add parsed).truncated = (parsed.truncated || read.any Option.isNone ||
        decide (maxGitChanges < (parsed.changes ++ read.filterMap id).length)) := by
  induction read generalizing parsed with
  | nil =>
    simp only [List.foldl_nil, List.filterMap_nil, List.append_nil, List.any_nil, Bool.or_false]
    refine ⟨(List.take_of_length_le h).symm, ?_⟩
    simp [Nat.not_lt.mpr h]
  | cons change read ih =>
    rw [List.foldl_cons]
    cases change with
    | none =>
      obtain ⟨hchanges, htruncated⟩ := ih (parsed.add none) h
      refine ⟨by rw [hchanges]; rfl, ?_⟩
      rw [htruncated]
      simp [ParsedStatus.add]
    | some change =>
      by_cases hfull : maxGitChanges ≤ parsed.changes.length
      · have hadd : parsed.add (some change) = { parsed with sawChange := true, truncated := true } := if_pos hfull
        obtain ⟨hchanges, htruncated⟩ := ih (parsed.add (some change)) (by rw [hadd]; exact h)
        rw [hchanges, htruncated, hadd]
        have hlength : parsed.changes.length = maxGitChanges := by omega
        refine ⟨by simp [← hlength], ?_⟩
        simp only [List.length_append, hlength, List.filterMap_cons, id_eq, List.length_cons]
        simp
      · have hadd : parsed.add (some change) = { parsed with sawChange := true, changes := parsed.changes ++ [change] } :=
          if_neg hfull
        obtain ⟨hchanges, htruncated⟩ := ih (parsed.add (some change)) (by
          rw [hadd, List.length_append, List.length_singleton]
          omega)
        rw [hchanges, htruncated, hadd]
        simp

theorem parsePorcelain_eq (toLowercase : String → String) (bytes : Bytes) (outputTruncated : Bool) :
    let read := entries (Fields.split 0 bytes)
    (parsePorcelain toLowercase bytes outputTruncated).changes = (withinLimits toLowercase (read.filterMap id)).1 ∧
      (parsePorcelain toLowercase bytes outputTruncated).truncated =
        (outputTruncated || read.any Option.isNone || (withinLimits toLowercase (read.filterMap id)).2) := by
  intro read
  obtain ⟨hchanges, htruncated⟩ := foldl_add ⟨[], false, false⟩ read (Nat.zero_le _)
  rw [← parseRecords_eq] at hchanges htruncated
  simp only [List.nil_append, Bool.false_or] at hchanges htruncated
  simp only [parsePorcelain, withinLimits, hchanges, htruncated, Bool.or_assoc, and_self]

theorem retain_sublist (pathBytes : Nat) (changes : List GitChange) : (retain pathBytes changes).1.Sublist changes := by
  induction changes generalizing pathBytes with
  | nil => exact List.Sublist.slnil
  | cons change changes ih =>
    rw [retain]
    split
    · exact (ih pathBytes).cons change
    · exact (ih _).cons_cons change

theorem retain_all {pathBytes : Nat} {changes : List GitChange} (h : (retain pathBytes changes).2 = false) :
    (retain pathBytes changes).1 = changes := by
  induction changes generalizing pathBytes with
  | nil => rfl
  | cons change changes ih =>
    rw [retain] at h ⊢
    split at h
    · cases h
    next hroom =>
      rw [if_neg hroom]
      exact congrArg (change :: ·) (ih h)

/-- The bytes of all the paths. -/
def totalPathBytes (changes : List GitChange) : Nat := changes.foldr (fun change bytes => change.pathBytes + bytes) 0

theorem retain_room {pathBytes : Nat} {changes : List GitChange} (h : pathBytes + totalPathBytes changes ≤ maxGitPathBytes) :
    (retain pathBytes changes).2 = false := by
  induction changes generalizing pathBytes with
  | nil => rfl
  | cons change changes ih =>
    have htotal : totalPathBytes (change :: changes) = change.pathBytes + totalPathBytes changes := rfl
    rw [retain, if_neg (by omega)]
    exact ih (by omega)

theorem totalPathBytes_perm {changes changes' : List GitChange} (h : changes.Perm changes') :
    totalPathBytes changes = totalPathBytes changes' := by
  induction h with
  | nil => rfl
  | cons change _ ih => simp only [totalPathBytes, List.foldr_cons] at ih ⊢; omega
  | swap a b changes => simp only [totalPathBytes, List.foldr_cons]; omega
  | trans _ _ ih ih' => rw [ih, ih']

section
variable {toLowercase : String → String} {changes : List GitChange}

theorem mem_of_mem_withinLimits {change : GitChange} (h : change ∈ (withinLimits toLowercase changes).1) :
    change ∈ changes := by
  have hsorted := (retain_sublist 0 _).subset h
  exact List.mem_of_mem_take ((List.mem_insertionSort _).mp hsorted)

/-- Where nothing is left out, the changes are those read, in order. -/
theorem withinLimits_perm (h : (withinLimits toLowercase changes).2 = false) :
    (withinLimits toLowercase changes).1.Perm changes := by
  simp only [withinLimits, Bool.or_eq_false_iff, decide_eq_false_iff_not, Nat.not_lt] at h
  have hkept := retain_all h.2
  rw [List.take_of_length_le h.1] at hkept
  show (retain 0 ((changes.take maxGitChanges).insertionSort (before toLowercase))).1.Perm changes
  rw [List.take_of_length_le h.1, hkept]
  exact List.perm_insertionSort _ _

theorem withinLimits_room (toLowercase : String → String) (hcount : changes.length ≤ maxGitChanges) (hbytes : totalPathBytes changes ≤ maxGitPathBytes) :
    (withinLimits toLowercase changes).2 = false := by
  have hperm := List.perm_insertionSort (before toLowercase) changes
  have hroom : (retain 0 (changes.insertionSort (before toLowercase))).2 = false :=
    retain_room (by rw [totalPathBytes_perm hperm]; omega)
  simp only [withinLimits, List.take_of_length_le hcount, hroom, Bool.or_false, decide_eq_false_iff_not]
  omega

end

/-! ## The output kept -/

theorem read_take {limit : Nat} (seen chunk : Bytes) :
    Drained.read limit ⟨seen.take limit, decide (limit < seen.length)⟩ chunk =
      ⟨(seen ++ chunk).take limit, decide (limit < (seen ++ chunk).length)⟩ := by
  have hkept : min (limit - (seen.take limit).length) chunk.length = min (limit - seen.length) chunk.length := by
    rw [List.length_take]
    omega
  simp only [Drained.read, hkept, List.take_append, List.length_append]
  congr 1
  · rw [Nat.min_comm, ← List.take_take, List.take_of_length_le (List.length_take_le' _ _)]
  · rw [Bool.eq_iff_iff]
    simp only [Bool.or_eq_true, decide_eq_true_eq]
    omega

theorem drainBounded_eq (limit : Nat) (chunks : List Bytes) :
    drainBounded limit chunks = ⟨chunks.flatten.take limit, decide (limit < chunks.flatten.length)⟩ := by
  have hfold : ∀ (chunks : List Bytes) (seen : Bytes),
      chunks.foldl (Drained.read limit) ⟨seen.take limit, decide (limit < seen.length)⟩ =
        ⟨(seen ++ chunks.flatten).take limit, decide (limit < (seen ++ chunks.flatten).length)⟩ := by
    intro chunks
    induction chunks with
    | nil => intro seen; simp
    | cons chunk chunks ih =>
      intro seen
      rw [List.foldl_cons, read_take, ih, List.flatten_cons, List.append_assoc]
  have hstart := hfold chunks []
  simpa [drainBounded] using hstart

/-! ## Visible paths -/

/-- Every component of the path may be shown. -/
def IsVisible (path : String) : Prop := ∀ component ∈ components path.toList, component.isVisible = true

theorem slash_not_mem {path piece : List Char} (h : piece ∈ Text.split '/' path) : '/' ∉ piece := by
  induction path generalizing piece with
  | nil =>
    obtain rfl := List.mem_singleton.mp h
    exact List.not_mem_nil
  | cons c path ih =>
    rw [Text.split] at h
    split at h
    · rcases List.mem_cons.mp h with rfl | h
      · exact List.not_mem_nil
      · exact ih h
    next hne =>
      cases hpieces : Text.split '/' path with
      | nil => exact absurd hpieces Text.split_ne_nil
      | cons first pieces =>
        rw [hpieces] at h ih
        rcases List.mem_cons.mp h with rfl | h
        · simp only [List.mem_cons, not_or]
          exact ⟨Ne.symm hne, ih List.mem_cons_self⟩
        · exact ih (List.mem_cons_of_mem _ h)

theorem component_normal {first : Bool} {piece name : List Char} (h : component first piece = some (.normal name)) :
    name = piece := by
  unfold component at h
  split at h
  · cases h
  split at h
  · split at h <;> cases h
  split at h
  · cases h
  · exact (Component.normal.inj (Option.some.inj h)).symm

theorem slash_not_mem_name {path name : List Char} (h : Component.normal name ∈ components path) : '/' ∉ name := by
  rw [components] at h
  rcases List.mem_append.mp h with h | h
  · split at h
    · cases List.mem_singleton.mp h
    · cases h
  · split at h
    · cases h
    next first rest hsplit =>
      rcases List.mem_append.mp h with h | h
      · obtain rfl := component_normal (Option.mem_toList.mp h)
        exact slash_not_mem (hsplit ▸ List.mem_cons_self)
      · obtain ⟨piece, hpiece, hcomponent⟩ := List.mem_filterMap.mp h
        obtain rfl := component_normal hcomponent
        exact slash_not_mem (hsplit ▸ List.mem_cons_of_mem _ hpiece)

theorem split_joinNames {names : List (List Char)} (hne : names ≠ []) (h : ∀ name ∈ names, '/' ∉ name) :
    Text.split '/' (joinNames names) = names := by
  fun_induction joinNames names with
  | case1 => exact absurd rfl hne
  | case2 name => exact Text.split_eq_singleton (h name List.mem_cons_self)
  | case3 name names hmore ih =>
    have hrest : names ≠ [] := fun heq => hmore heq
    rw [Text.split_append, Text.split_eq_singleton (h name List.mem_cons_self),
      ih hrest fun n hn => h n (List.mem_cons_of_mem _ hn)]
    rfl

theorem component_safe {name : List Char} (h : safeComponent name = true) (first : Bool) :
    component first name = some (.normal name) := by
  simp only [safeComponent, Bool.and_eq_true, Bool.not_eq_true', List.isEmpty_eq_false_iff, decide_eq_true_eq] at h
  rw [component, if_neg h.1.1.1, if_neg h.1.1.2, if_neg h.1.2]

/-- Joined names are the components again. -/
theorem components_joinNames {names : List (List Char)} (hslash : ∀ name ∈ names, '/' ∉ name)
    (hsafe : ∀ name ∈ names, safeComponent name = true) : components (joinNames names) = names.map .normal := by
  cases hnames : names with
  | nil => decide
  | cons first rest =>
    have hsplit := split_joinNames (by rw [hnames]; exact List.cons_ne_nil _ _) hslash
    rw [hnames] at hsplit hslash hsafe
    have hrelative : (joinNames (first :: rest)).head? ≠ some '/' := by
      intro hhead
      obtain ⟨path, hpath⟩ : ∃ path, joinNames (first :: rest) = '/' :: path := by
        cases hjoin : joinNames (first :: rest) with
        | nil => simp [hjoin] at hhead
        | cons c path =>
          rw [hjoin] at hhead
          obtain rfl := Option.some.inj hhead
          exact ⟨path, rfl⟩
      have hempty : first = [] := by
        rw [hpath] at hsplit
        have hcons : Text.split '/' ('/' :: path) = [] :: Text.split '/' path := by rw [Text.split, if_pos rfl]
        rw [hcons] at hsplit
        exact (List.cons.inj hsplit).1.symm
      have hfirst := hsafe first List.mem_cons_self
      rw [hempty] at hfirst
      exact absurd hfirst (by decide)
    have hrest : rest.filterMap (component false) = rest.map .normal := by
      rw [← List.filterMap_eq_map]
      exact List.filterMap_congr fun name hname => component_safe (hsafe name (List.mem_cons_of_mem _ hname)) false
    rw [components, if_neg hrelative, hsplit]
    simp only [component_safe (hsafe first List.mem_cons_self), hrest]
    rfl

theorem relativeGitPath_visible {bytes : Bytes} {path : String} (h : relativeGitPath bytes = some path) :
    IsVisible path := by
  simp only [relativeGitPath, Option.bind_eq_bind, Option.bind_eq_some_iff] at h
  obtain ⟨value, -, found, hfound, h⟩ := h
  split at h
  next hvisible =>
    obtain rfl := Option.some.inj h
    have hcomponents : found = components value.toList := by
      unfold validateRelativePath at hfound
      repeat' split at hfound
      · cases hfound
      · cases hfound
      · cases hfound
      · exact (Option.some.inj hfound).symm
    rw [List.all_eq_true] at hvisible
    have hname : ∀ name ∈ found.filterMap Component.name, Component.normal name ∈ found := by
      intro name hname
      obtain ⟨component, hmem, heq⟩ := List.mem_filterMap.mp hname
      cases component with
      | normal name' =>
        obtain rfl := Option.some.inj heq
        exact hmem
      | _ => cases heq
    have hsafe : ∀ name ∈ found.filterMap Component.name, safeComponent name = true := by
      intro name hmem
      have hshown := hvisible _ (hname name hmem)
      simp only [Component.isVisible, Bool.and_eq_true] at hshown
      exact hshown.1
    have hslash : ∀ name ∈ found.filterMap Component.name, '/' ∉ name := fun name hmem =>
      slash_not_mem_name (hcomponents ▸ hname name hmem)
    intro component hcomponent
    rw [pathForResponse, String.toList_ofList, components_joinNames hslash hsafe] at hcomponent
    obtain ⟨name, hmem, rfl⟩ := List.mem_map.mp hcomponent
    exact hvisible _ (hname name hmem)
  · cases h

def GitChange.Visible (change : GitChange) : Prop :=
  IsVisible change.path ∧ ∀ old, change.oldPath = some old → IsVisible old

theorem statusChange_visible {status submodule path : Bytes} {old : Option Bytes} {change : GitChange}
    (h : statusChange status submodule path old = some change) : change.Visible := by
  simp only [statusChange, Option.bind_eq_bind, Option.bind_eq_some_iff] at h
  obtain ⟨status, -, path, hpath, oldPath, hold, h⟩ := h
  split at h
  · cases h
  obtain rfl := Option.some.inj h
  refine ⟨relativeGitPath_visible hpath, fun oldText hshown => ?_⟩
  cases old with
  | none =>
    obtain rfl := Option.some.inj hold
    cases hshown
  | some old =>
    obtain ⟨text, htext, rfl⟩ := Option.map_eq_some_iff.mp hold
    obtain rfl := Option.some.inj hshown
    exact relativeGitPath_visible htext

theorem parseUntracked_visible {path : Bytes} {change : GitChange} (h : parseUntracked path = some change) :
    change.Visible := by
  simp only [parseUntracked, Option.bind_eq_bind, Option.bind_eq_some_iff] at h
  obtain ⟨path, hpath, h⟩ := h
  obtain rfl := Option.some.inj h
  exact ⟨relativeGitPath_visible hpath, fun old hold => by cases hold⟩

theorem parseStatusRecord_visible {record : Bytes} {fields : Nat} {old : Option Bytes} {change : GitChange}
    (h : parseStatusRecord record fields old = some change) : change.Visible := by
  simp only [parseStatusRecord] at h
  split at h
  · cases h
  · exact statusChange_visible h

theorem parseSingle_visible {record : Bytes} {change : GitChange} (h : parseSingle record = some change) :
    change.Visible := by
  unfold parseSingle at h
  split at h
  · exact parseStatusRecord_visible h
  · exact parseStatusRecord_visible h
  · exact parseUntracked_visible h
  · cases h

theorem entries_visible {records : List Bytes} {change : GitChange} (h : some change ∈ entries records) :
    change.Visible := by
  fun_induction entries records with
  | case1 => cases h
  | case2 records ih => exact ih h
  | case3 record hne hletter => exact parseStatusRecord_visible (List.mem_singleton.mp h).symm
  | case4 record hne hletter old records ih =>
    rcases List.mem_cons.mp h with h | h
    · exact parseStatusRecord_visible h.symm
    · exact ih h
  | case5 record records hne hletter ih =>
    rcases List.mem_cons.mp h with h | h
    · exact parseSingle_visible h.symm
    · exact ih h

/-! ## What is reported -/

theorem cut_all {limit : Nat} {records : List Record} (h : (encodeAll records).length ≤ limit) :
    cut limit records = (records, []) := by
  induction records generalizing limit with
  | nil => rfl
  | cons record records ih =>
    have hlength : (encodeAll (record :: records)).length = record.encode.length + (encodeAll records).length :=
      List.length_append
    have hrest := @ih (limit - record.encode.length) (by omega)
    rw [cut, if_pos (by omega), hrest]

/-- A record of the list says this. -/
def Listed (change : GitChange) (records : List Record) : Prop :=
  ∃ record ∈ records, ∃ said, record.change = some said ∧ said.status = change.status ∧ said.path = change.path ∧
    said.oldPath = change.oldPath

/-- The records that a cut leaves whole. -/
def complete (limit : Nat) (records : List Record) : List Record := (cut limit records).1

/-- What is left of the record that the cut is in. -/
def fragment (limit : Nat) (records : List Record) : Bytes := (cut limit records).2

/-- What the fragment says when it is read as a record. -/
def misread (limit : Nat) (records : List Record) : List GitChange :=
  (entries (Fields.split 0 (fragment limit records))).filterMap id

section
variable {toLowercase : String → String} {records : List Record} {chunks : List Bytes} {limit : Nat}

theorem readStatus_eq (toLowercase : String → String) (limit : Nat) (hformed : ∀ record ∈ records, record.Formed) (htext : chunks.flatten = encodeAll records) :
    let read := (complete limit records).filterMap Record.change ++ misread limit records
    (readStatus toLowercase limit chunks).changes = (withinLimits toLowercase read).1 ∧
      (readStatus toLowercase limit chunks).truncated = (decide (limit < (encodeAll records).length) ||
        ((complete limit records).map Record.change ++
          entries (Fields.split 0 (fragment limit records))).any Option.isNone || (withinLimits toLowercase read).2) := by
  intro read
  have hentries := entries_cut hformed limit
  have hread : (entries (Fields.split 0 ((encodeAll records).take limit))).filterMap id = read := by
    rw [hentries, List.filterMap_append, List.filterMap_map]
    rfl
  obtain ⟨hchanges, htruncated⟩ := parsePorcelain_eq toLowercase ((encodeAll records).take limit)
    (decide (limit < (encodeAll records).length))
  rw [hread] at hchanges htruncated
  rw [readStatus, drainBounded_eq, htext]
  refine ⟨hchanges, ?_⟩
  rw [htruncated, hentries]
  rfl

theorem Listed.of_mem {change : GitChange} (h : change ∈ (complete limit records).filterMap Record.change) :
    Listed change (complete limit records) := by
  obtain ⟨record, hrecord, hchange⟩ := List.mem_filterMap.mp h
  exact ⟨record, hrecord, change, hchange, rfl, rfl, rfl⟩

theorem readStatus_visible {change : GitChange} (h : change ∈ (readStatus toLowercase limit chunks).changes) :
    change.Visible := by
  rw [readStatus, (parsePorcelain_eq _ _ _).1] at h
  have hmem := mem_of_mem_withinLimits h
  obtain ⟨read, hread, heq⟩ := List.mem_filterMap.mp hmem
  have hsome : read = some change := heq
  rw [hsome] at hread
  exact entries_visible hread

/-- **What is reported of git's records**, and when nothing but whole records
is: where what a cut leaves of a record does not read as another. -/
theorem git_status_right (toLowercase : String → String) (hformed : ∀ record ∈ records, record.Formed)
    (htext : chunks.flatten = encodeAll records) (limit : Nat) :
    let status := readStatus toLowercase limit chunks
    (∀ change ∈ status.changes, change.Visible) ∧
      ((encodeAll records).length ≤ limit → (∀ record ∈ records, record.change.isSome) →
        records.length ≤ maxGitChanges → totalPathBytes (records.filterMap Record.change) ≤ maxGitPathBytes →
        status.changes.Perm (records.filterMap Record.change) ∧ status.truncated = false) ∧
      (status.truncated = false → (encodeAll records).length ≤ limit ∧ (∀ record ∈ records, record.change.isSome) ∧
        status.changes.Perm (records.filterMap Record.change)) ∧
      ((∀ change ∈ status.changes, Listed change (complete limit records)) ↔
        ∀ change ∈ misread limit records, Listed change (complete limit records) ∨
          change ∉ (withinLimits toLowercase
            ((complete limit records).filterMap Record.change ++ misread limit records)).1) := by
  intro status
  obtain ⟨hchanges, htruncated⟩ := readStatus_eq toLowercase limit hformed htext
  have hwhole : (encodeAll records).length ≤ limit → complete limit records = records ∧ fragment limit records = [] := by
    intro hle
    rw [complete, fragment, cut_all hle]
    exact ⟨rfl, rfl⟩
  refine ⟨fun change hchange => readStatus_visible hchange, ?_, ?_, ?_⟩
  · intro hle hall hcount hbytes
    obtain ⟨hcomplete, hfragment⟩ := hwhole hle
    have hmisread : misread limit records = [] := by
      rw [misread, hfragment]
      rfl
    rw [hcomplete, hmisread, List.append_nil] at hchanges htruncated
    have hlength : (records.filterMap Record.change).length ≤ maxGitChanges :=
      Nat.le_trans (List.length_filterMap_le _ _) hcount
    have hroom := withinLimits_room toLowercase hlength hbytes
    refine ⟨hchanges ▸ withinLimits_perm hroom, ?_⟩
    have hsome : (records.map Record.change).any Option.isNone = false := by
      rw [List.any_eq_false]
      intro change hchange
      obtain ⟨record, hrecord, rfl⟩ := List.mem_map.mp hchange
      simp [Option.isSome_iff_ne_none.mp (hall record hrecord)]
    have hempty : entries (Fields.split 0 []) = [] := rfl
    rw [htruncated, hfragment, hempty, List.append_nil, hsome, hroom]
    simp [hle]
  · intro hnot
    rw [htruncated, Bool.or_eq_false_iff, Bool.or_eq_false_iff, decide_eq_false_iff_not, List.any_append,
      Bool.or_eq_false_iff] at hnot
    obtain ⟨⟨hle, hsome, -⟩, hroom⟩ := hnot
    obtain ⟨hcomplete, hfragment⟩ := hwhole (by omega)
    have hmisread : misread limit records = [] := by
      rw [misread, hfragment]
      rfl
    rw [hcomplete] at hsome hchanges hroom
    rw [hmisread, List.append_nil] at hchanges hroom
    refine ⟨by omega, fun record hrecord => ?_, hchanges ▸ withinLimits_perm hroom⟩
    have hsaid := List.any_eq_false.mp hsome _ (List.mem_map_of_mem hrecord)
    simpa [Option.isSome_iff_ne_none] using hsaid
  · rw [hchanges]
    constructor
    · intro hlisted change hchange
      by_cases hkept : change ∈ (withinLimits toLowercase
          ((complete limit records).filterMap Record.change ++ misread limit records)).1
      · exact .inl (hlisted change hkept)
      · exact .inr hkept
    · intro hmisread change hkept
      rcases List.mem_append.mp (mem_of_mem_withinLimits hkept) with hmem | hmem
      · exact Listed.of_mem hmem
      · exact (hmisread change hmem).resolve_right fun hdropped => hdropped hkept

end

def bytesOf (text : String) : Bytes := text.toUTF8.data.toList

/-- A modified file. -/
def modified : Record :=
  .ordinary (bytesOf ".M") (bytesOf "N...") (["100644", "100644", "100644", "1a", "2b"].map bytesOf) (bytesOf "src/main.rs")

theorem modified_formed : ∀ record ∈ [modified], record.Formed := by
  intro record hrecord
  obtain rfl := List.mem_singleton.mp hrecord
  unfold modified Record.Formed
  decide +kernel

theorem git_status_right_example :
    (∀ change ∈ (readStatus id 100 [encodeAll [modified]]).changes, change.Visible) ∧
      ((readStatus id 100 [encodeAll [modified]]).truncated = false → (encodeAll [modified]).length ≤ 100 ∧
        (∀ record ∈ [modified], record.change.isSome) ∧
        (readStatus id 100 [encodeAll [modified]]).changes.Perm ([modified].filterMap Record.change)) :=
  have hright := git_status_right id modified_formed (List.append_nil _) 100
  ⟨hright.1, hright.2.2.1⟩

/-- A cut inside the path is reported as another file. -/
theorem cut_path_reported :
    (readStatus id 45 [encodeAll [modified]]).changes = [⟨".M", "src/main", none, none⟩] ∧
      ¬ ∀ change ∈ (readStatus id 45 [encodeAll [modified]]).changes, Listed change [modified] := by
  have hchanges : (readStatus id 45 [encodeAll [modified]]).changes = [⟨".M", "src/main", none, none⟩] := by
    decide +kernel
  refine ⟨hchanges, fun hlisted => ?_⟩
  rw [hchanges] at hlisted
  obtain ⟨record, hrecord, said, hsaid, -, hpath, -⟩ := hlisted _ List.mem_cons_self
  obtain rfl := List.mem_singleton.mp hrecord
  have hmodified : modified.change = some ⟨".M", "src/main.rs", none, none⟩ := by decide +kernel
  rw [hmodified] at hsaid
  obtain rfl := Option.some.inj hsaid
  simp at hpath

end Atmux.Workspace.GitStatus
