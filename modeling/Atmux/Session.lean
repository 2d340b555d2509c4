/-
The local tmux inventory: one `Session` per pane, and when two readings of a
pane are observably the same.

Spinner frames and the elapsed time of a working agent are redrawn several
times a second, so content is compared line by line after
`normalizeObservableLine`, and the hash published for a pane is the hash of
those normalized lines.
-/
import Atmux.Lib.Index
import Atmux.Lib.Text

namespace Atmux

open Lib

inductive AgentKind
  | codex
  | claude
  | other
deriving DecidableEq, Repr

/-- `Display` of an agent kind. -/
def AgentKind.display : AgentKind → String
  | .codex => "Codex"
  | .claude => "Claude"
  | .other => "Shell"

inductive AgentStatus
  | working
  | waiting
  | other
deriving DecidableEq, Repr

def AgentStatus.label : AgentStatus → String
  | .working => "working"
  | .waiting => "waiting"
  | .other => "other"

/-- One pane as `sessions_with_capture` reads it. -/
structure Session where
  name : String
  attached : Bool
  windows : Nat
  activity : Nat
  windowIndex : Nat
  paneIndex : Nat
  paneId : String
  panePid : Nat
  /-- Set-once owner-tmux pane generation. -/
  paneIdentity : String
  agentPid : Option Nat
  agentStartedMs : Option Nat
  path : String
  command : String
  launchCommand : String
  title : String
  content : String
  /-- Hash of the capture `content` was cut from. -/
  contentHash : Nat
  agent : AgentKind
  profile : String
  resumeLease : Option String
  systemdScope : Option String
  memoryMaxBytes : Option Nat
  status : AgentStatus
deriving DecidableEq, Repr

/-- `parse_pane` drops a line whose pane id is not `%` and digits. -/
def validTmuxPaneId (value : String) : Bool :=
  match value.toList with
  | '%' :: id => !id.isEmpty && id.all Char.isDigit
  | _ => false

/-! ## Captures -/

def maxCaptureBytes : Nat := 256 * 1024

/-- Drops characters until what is left is at most `maxBytes` long; also the
last character dropped. -/
def dropToSize (maxBytes : Nat) : Option Char → List Char → Option Char × List Char
  | last, [] => (last, [])
  | last, c :: text =>
    if ((c :: text).map Char.utf8Size).sum ≤ maxBytes then (last, c :: text) else dropToSize maxBytes (some c) text

/-- The end of a text, from the start of a line where it can be. -/
def boundedTail (content : String) (maxBytes : Nat) : String :=
  match dropToSize maxBytes none content.toList with
  | (none, _) => content
  | (some last, tail) =>
    if last == '\n' then String.ofList tail
    else
      match Text.cut '\n' tail with
      | some (_, rest) => String.ofList rest
      | none => String.ofList tail

/-- The content `refresh_blocking` keeps of a capture. -/
def truncateFront (content : String) : String := boundedTail content maxCaptureBytes

/-- The content and the hash of a session, as one capture gives them. -/
def CapturedBy (hash : String → Nat) (session : Session) (capture : String) : Prop :=
  session.contentHash = hash capture ∧ session.content = truncateFront capture

/-! ## Observable content -/

def isSpinnerFrame (character : Char) : Bool :=
  (0x2801 ≤ character.toNat && character.toNat ≤ 0x28ff) ||
    ['✢', '✳', '✶', '✻', '✽', '✷'].contains character

/-- The elapsed time of a `• Working (… • esc to interrupt` line, replaced by
the word `elapsed`. -/
def normalizeElapsed (line : List Char) : List Char :=
  if "• Working (".toList.isPrefixOf (line.dropWhile Text.isWhitespace) then
    match Text.cutText "Working (".toList line with
    | none => line
    | some (before, after) =>
      match Text.cutText " • esc to interrupt".toList after with
      | none => line
      | some (_, rest) => before ++ "Working (elapsed • esc to interrupt".toList ++ rest
  else line

/-- The first character that is not whitespace, when it is a spinner frame,
replaced by the blank frame. -/
def normalizeSpinner (line : List Char) : List Char :=
  match line.dropWhile Text.isWhitespace with
  | [] => line
  | spinner :: rest =>
    if isSpinnerFrame spinner then line.takeWhile Text.isWhitespace ++ Char.ofNat 0x2800 :: rest else line

def normalizeObservableLine (line : List Char) : List Char :=
  normalizeSpinner (normalizeElapsed line)

def contentLines (content : String) : List (List Char) :=
  Text.splitInclusive '\n' content.toList

def observableLineEqual (left right : List Char) : Bool :=
  left == right || normalizeObservableLine left == normalizeObservableLine right

/-- The loop of `observable_content_equal` over the lines of both contents. -/
def observableLinesEqual : List (List Char) → List (List Char) → Bool
  | left :: lefts, right :: rights => observableLineEqual left right && observableLinesEqual lefts rights
  | [], [] => true
  | _, _ => false

def observableContentEqual (left right : String) : Bool :=
  observableLinesEqual (contentLines left) (contentLines right)

/-- What the standard hasher returns for the normalized lines fed to it in
order. -/
def observableContentHash (hasher : List (List Char) → Nat) (content : String) : Nat :=
  hasher ((contentLines content).map normalizeObservableLine)

theorem observableLinesEqual_map {lefts rights : List (List Char)} (h : observableLinesEqual lefts rights = true) :
    lefts.map normalizeObservableLine = rights.map normalizeObservableLine := by
  induction lefts generalizing rights with
  | nil =>
    cases rights with
    | nil => rfl
    | cons => simp [observableLinesEqual] at h
  | cons left lefts ih =>
    cases rights with
    | nil => simp [observableLinesEqual] at h
    | cons right rights =>
      simp only [observableLinesEqual, Bool.and_eq_true] at h
      have hline : normalizeObservableLine left = normalizeObservableLine right := by
        have hl := h.1
        simp only [observableLineEqual, Bool.or_eq_true, beq_iff_eq] at hl
        rcases hl with rfl | hl
        · rfl
        · exact hl
      simp [hline, ih h.2]

/-- Contents that compare equal are published under one hash. -/
theorem observableContentHash_eq {left right : String} (h : observableContentEqual left right = true)
    (hasher : List (List Char) → Nat) :
    observableContentHash hasher left = observableContentHash hasher right := by
  simp only [observableContentHash, observableLinesEqual_map h]

/-! ## Observable sessions -/

def observableSessionEqual (left right : Session) : Bool :=
  left.name == right.name
    && left.paneId == right.paneId
    && left.paneIdentity == right.paneIdentity
    && left.status == right.status
    && left.agent == right.agent
    && left.attached == right.attached
    && left.path == right.path
    && left.command == right.command
    && left.launchCommand == right.launchCommand
    && left.systemdScope == right.systemdScope
    && left.memoryMaxBytes == right.memoryMaxBytes
    && left.windows == right.windows
    && left.windowIndex == right.windowIndex
    && left.paneIndex == right.paneIndex
    && (left.contentHash == right.contentHash || observableContentEqual left.content right.content)

/-- The map `previous.iter().map(|s| (s.pane_id, s)).collect()` decides what a
session is compared with. -/
def observableSessionsEqual (previous current : List Session) : Bool :=
  previous.length == current.length &&
    current.all fun session =>
      (Index.indexBy Session.paneId previous)[session.paneId]?.any fun prior => observableSessionEqual prior session

end Atmux
