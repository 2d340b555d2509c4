/-
The entries of a conversation, as a log's records are read into them.

An entry is named by the id that the harness gave it, or else by the length of
the list when it came, and the list is cut from the front. `Tracking` follows
which call made which entry. `Tracking.Sound` says what the names are, and with
it `shownIds_nodup` that no two entries of a view share an id, however often
the list was cut.
-/
import Atmux.Lib.Capped
import Atmux.Transcript.Redaction

namespace Atmux.Transcript

open Lib Pulse

/-! ## Entries -/

def maxMessages : Nat := 240

def maxParseMessages : Nat := maxMessages * 2

def maxItemIdBytes : Nat := 512

def maxTimestampBytes : Nat := 128

def maxToolNameBytes : Nat := 256

def maxTranscriptBytes : Nat := 768 * 1024

structure TranscriptMessage where
  id : String
  role : String
  kind : String
  markdown : String
  toolName : Option String
  toolInput : Option String
  toolOutput : Option String
  timestamp : Option String
  agentName : Option String
  inputTokens : Option Nat
  outputTokens : Option Nat
deriving DecidableEq

structure EntryMeta where
  agentName : Option String
  inputTokens : Option Nat
  outputTokens : Option Nat

def EntryMeta.default : EntryMeta := ⟨none, none, none⟩

def EntryMeta.usage (usage : Option (Nat × Nat)) : EntryMeta := ⟨none, usage.map Prod.fst, usage.map Prod.snd⟩

def truncatePlain (value : String) (limit : Nat) : String :=
  if value.utf8ByteSize ≤ limit then value else String.ofList (takeBytes limit value.toList)

def truncateUtf8 (value : String) (limit : Nat) : String :=
  if value.utf8ByteSize ≤ limit then value
  else String.ofList (takeBytes limit value.toList) ++ "\n\n…message truncated by atmux…"

/-- The harness's id for an entry, or what is derived from its record's: with
the kind of the block and its place in the record. -/
inductive Id
  | given (id : String)
  | derived (base kind : String) (index : Nat)

def suffix (kind : String) (index : Nat) : String := ":" ++ kind ++ ":" ++ toString index

def Id.text : Id → String
  | given id => id
  | derived base kind index => base ++ suffix kind index

def derivedId (base : Option String) (kind : String) (index : Nat) : Option Id := do
  let base ← base.filter fun value => value.utf8ByteSize ≤ maxItemIdBytes
  if maxItemIdBytes < base.utf8ByteSize + (suffix kind index).utf8ByteSize then none else some (.derived base kind index)

def usable (id : Option Id) : Option String := (id.map Id.text).filter fun value => value.utf8ByteSize ≤ maxItemIdBytes

def numbered (kind : String) (n : Nat) : String := kind ++ "-" ++ toString n

def boundedId (id : Option Id) (fallback : String) : String := (usable id).getD fallback

def capParseMessages {α : Type} (messages : List α) : List α := Capped.cap maxParseMessages maxMessages messages

def messageEntry (role markdown : String) (timestamp : Option String) (entryMeta : EntryMeta) (id : String) :
    TranscriptMessage where
  id
  role
  kind := "message"
  markdown
  toolName := none
  toolInput := none
  toolOutput := none
  timestamp := timestamp.map (truncatePlain · maxTimestampBytes)
  agentName := entryMeta.agentName
  inputTokens := entryMeta.inputTokens
  outputTokens := entryMeta.outputTokens

def toolEntry (name : String) (input : Option String) (timestamp : Option String) (entryMeta : EntryMeta) (id : String) :
    TranscriptMessage where
  id
  role := "tool"
  kind := "tool"
  markdown := ""
  toolName := some (truncatePlain name maxToolNameBytes)
  toolInput := input.map (truncateUtf8 · maxMessageBytes)
  toolOutput := none
  timestamp := timestamp.map (truncatePlain · maxTimestampBytes)
  agentName := entryMeta.agentName
  inputTokens := entryMeta.inputTokens
  outputTokens := entryMeta.outputTokens

def resultEntry (output : String) (timestamp : Option String) (id : String) : TranscriptMessage where
  id
  role := "tool"
  kind := "tool"
  markdown := ""
  toolName := some "Tool result"
  toolInput := none
  toolOutput := some output
  timestamp := timestamp.map (truncatePlain · maxTimestampBytes)
  agentName := none
  inputTokens := none
  outputTokens := none

/-- An entry is pushed, if the last one is not the same. -/
def pushEntry (messages : List TranscriptMessage) (entry : TranscriptMessage) : List TranscriptMessage :=
  if messages.getLast?.any (·.id == entry.id) then messages else capParseMessages (messages ++ [entry])

def pushMessage (messages : List TranscriptMessage) (role markdown : String) (id : Option Id) (timestamp : Option String)
    (entryMeta : EntryMeta) : List TranscriptMessage :=
  let markdown := truncateUtf8 markdown maxMessageBytes
  let id := boundedId id (numbered "message" messages.length)
  pushEntry messages (messageEntry role markdown timestamp entryMeta id)

def pushTool (messages : List TranscriptMessage) (name : String) (input : Option String) (id : Option Id)
    (timestamp : Option String) (entryMeta : EntryMeta) : List TranscriptMessage :=
  let id := boundedId id (numbered "tool" messages.length)
  pushEntry messages (toolEntry name input timestamp entryMeta id)

def isCallOf (callId : String) (message : TranscriptMessage) : Bool := message.kind == "tool" && message.id == callId

/-- A tool's output goes to its call, or is an entry of its own. -/
def attachToolOutput (messages : List TranscriptMessage) (callId : Option Id) (output : Option String)
    (fallbackId : Option Id) (timestamp : Option String) : List TranscriptMessage :=
  match output with
  | none => messages
  | some output =>
    let output := truncateUtf8 output maxMessageBytes
    let attached := (usable callId).bind fun callId =>
      Capped.modifyLast? (isCallOf callId) (fun message => { message with toolOutput := some output }) messages
    match attached with
    | some messages => messages
    | none =>
      let id := boundedId (fallbackId.or callId) (numbered "tool-result" messages.length)
      capParseMessages (messages ++ [resultEntry output timestamp id])

/-! ## Views -/

/-- The bytes that JSON spends on a character of a string. -/
def charBytes (c : Char) : Nat :=
  if c ∈ ['"', '\\', '\n', '\r', '\t', '\x08', '\x0c'] then 2 else if c.toNat < 0x20 then 6 else c.utf8Size

def stringBytes (text : String) : Nat := text.toList.foldr (fun c bytes => charBytes c + bytes) 2

/-- The bytes of a field that is skipped if there is no value. -/
def fieldBytes {α : Type} (name : String) (bytes : α → Nat) : Option α → Nat
  | none => 0
  | some value => 1 + stringBytes name + 1 + bytes value

/-- How long `serde_json` writes an entry. -/
def itemBytes (message : TranscriptMessage) : Nat :=
  let number := fun (n : Nat) => (toString n).utf8ByteSize
  1 + fieldBytes "id" stringBytes (some message.id) + fieldBytes "role" stringBytes (some message.role) +
    fieldBytes "kind" stringBytes (some message.kind) + fieldBytes "markdown" stringBytes (some message.markdown) +
    fieldBytes "tool_name" stringBytes message.toolName + fieldBytes "tool_input" stringBytes message.toolInput +
    fieldBytes "tool_output" stringBytes message.toolOutput + fieldBytes "timestamp" stringBytes message.timestamp +
    fieldBytes "agent_name" stringBytes message.agentName + fieldBytes "input_tokens" number message.inputTokens +
    fieldBytes "output_tokens" number message.outputTokens

/-- How many of the messages are kept, the newest first. -/
def keptMessages : Nat → Nat → List TranscriptMessage → Nat
  | kept, _, [] => kept
  | kept, total, message :: older =>
    let separator := if 0 < kept then 1 else 0
    if kept = maxMessages ∨ maxTranscriptBytes < total + separator + itemBytes message then kept
    else keptMessages (kept + 1) (total + (separator + itemBytes message)) older

def boundMessages (messages : List TranscriptMessage) : List TranscriptMessage × Bool :=
  let keepFrom := messages.length - keptMessages 0 2 messages.reverse
  (messages.drop keepFrom, decide (0 < keepFrom))

theorem keptMessages_le {kept total : Nat} {messages : List TranscriptMessage} (h : kept ≤ maxMessages) :
    keptMessages kept total messages ≤ maxMessages := by
  induction messages generalizing kept total with
  | nil => exact h
  | cons message older ih =>
    simp only [keptMessages]
    generalize (if 0 < kept then 1 else 0) = separator
    split
    · exact h
    next hroom => exact ih (by omega)

/-! ## Calls -/

/-- What the reader of a log does with a record's blocks, one call at a time. -/
inductive Call
  | message (role markdown : String) (id : Option Id) (timestamp : Option String) (entryMeta : EntryMeta)
  | tool (name : String) (input : Option String) (id : Option Id) (timestamp : Option String) (entryMeta : EntryMeta)
  | output (callId : Option Id) (result : Option String) (fallbackId : Option Id) (timestamp : Option String)

namespace Call

def apply (messages : List TranscriptMessage) : Call → List TranscriptMessage
  | message role markdown id timestamp entryMeta => pushMessage messages role markdown id timestamp entryMeta
  | tool name input id timestamp entryMeta => pushTool messages name input id timestamp entryMeta
  | output callId result fallbackId timestamp => attachToolOutput messages callId result fallbackId timestamp

/-- The id that a call brings for its entry. -/
def id? : Call → Option Id
  | message _ _ id _ _ => id
  | tool _ _ id _ _ => id
  | output callId _ fallbackId _ => fallbackId.or callId

def prefixOf : Call → String
  | message .. => "message"
  | tool .. => "tool"
  | output .. => "tool-result"

def isTool : Call → Bool
  | message .. => false
  | _ => true

/-- The call that an output is for. -/
def answers : Call → Option String
  | output callId _ _ _ => usable callId
  | _ => none

/-- The entry that a call makes of its id. -/
def entry (id : String) : Call → TranscriptMessage
  | message role markdown _ timestamp entryMeta =>
    messageEntry role (truncateUtf8 markdown maxMessageBytes) timestamp entryMeta id
  | tool name input _ timestamp entryMeta => toolEntry name input timestamp entryMeta id
  | output _ result _ timestamp => resultEntry (truncateUtf8 (result.getD "") maxMessageBytes) timestamp id

def name (call : Call) (n : Nat) : String := boundedId call.id? (numbered call.prefixOf n)

/-- Whether a call makes a new entry. -/
def adds (messages : List TranscriptMessage) : Call → Bool
  | output callId result _ _ =>
    result.isSome && !(usable callId).any fun callId => messages.any (isCallOf callId)
  | call => !messages.getLast?.any (·.id == call.name messages.length)

theorem entry_id (call : Call) (id : String) : (call.entry id).id = id := by
  cases call <;> rfl

theorem entry_kind (call : Call) (id : String) : ((call.entry id).kind == "tool") = call.isTool := by
  cases call <;> rfl

/-- What one call does: it adds its entry, or leaves every entry's id and kind. -/
theorem apply_adds {messages : List TranscriptMessage} {call : Call} (h : call.adds messages = true) :
    call.apply messages = capParseMessages (messages ++ [call.entry (call.name messages.length)]) := by
  cases call with
  | message role markdown id timestamp entryMeta =>
    have hlast : messages.getLast?.any (·.id == boundedId id (numbered "message" messages.length)) = false := by
      simpa [adds, name, id?, prefixOf] using h
    simp only [apply, pushMessage, pushEntry, messageEntry, hlast]
    rfl
  | tool name input id timestamp entryMeta =>
    have hlast : messages.getLast?.any (·.id == boundedId id (numbered "tool" messages.length)) = false := by
      simpa [adds, Call.name, id?, prefixOf] using h
    simp only [apply, pushTool, pushEntry, toolEntry, hlast]
    rfl
  | output callId result fallbackId timestamp =>
    simp only [adds, Bool.and_eq_true, Bool.not_eq_true'] at h
    obtain ⟨hsome, hnone⟩ := h
    obtain ⟨output, rfl⟩ := Option.isSome_iff_exists.mp hsome
    have hattached : ((usable callId).bind fun callId => Capped.modifyLast? (isCallOf callId)
        (fun message => { message with toolOutput := some (truncateUtf8 output maxMessageBytes) }) messages) = none := by
      cases hcall : usable callId with
      | none => rfl
      | some callId =>
        rw [hcall, Option.any_some] at hnone
        exact Option.isSome_eq_false_iff.mp (Capped.modifyLast?_isSome.trans hnone) |> Option.isNone_iff_eq_none.mp
    simp only [apply, attachToolOutput, hattached]
    rfl

theorem apply_keeps {messages : List TranscriptMessage} {call : Call} (h : call.adds messages = false) :
    (call.apply messages).map (fun message => (message.id, message.kind)) =
      messages.map fun message => (message.id, message.kind) := by
  cases call with
  | message role markdown id timestamp entryMeta =>
    have hlast : messages.getLast?.any (·.id == boundedId id (numbered "message" messages.length)) = true := by
      simpa [adds, name, id?, prefixOf] using h
    simp only [apply, pushMessage, pushEntry, messageEntry, hlast, if_pos]
  | tool name input id timestamp entryMeta =>
    have hlast : messages.getLast?.any (·.id == boundedId id (numbered "tool" messages.length)) = true := by
      simpa [adds, Call.name, id?, prefixOf] using h
    simp only [apply, pushTool, pushEntry, toolEntry, hlast, if_pos]
  | output callId result fallbackId timestamp =>
    cases result with
    | none => rfl
    | some output =>
      obtain ⟨c, hcall, hany⟩ : ∃ c, usable callId = some c ∧ messages.any (isCallOf c) = true := by
        cases hcall : usable callId with
        | none => simp [adds, hcall] at h
        | some c => exact ⟨c, rfl, by simpa [adds, hcall] using h⟩
      rw [← Capped.modifyLast?_isSome (f := fun message =>
        { message with toolOutput := some (truncateUtf8 output maxMessageBytes) })] at hany
      obtain ⟨changed, hchanged⟩ := Option.isSome_iff_exists.mp hany
      simp only [apply, attachToolOutput, hcall, Option.bind_some, hchanged]
      refine Capped.map_modifyLast? ?_ hchanged
      intro message
      rfl

/-- An output that makes an entry of its own finds no call. -/
theorem adds_answers {messages : List TranscriptMessage} {call : Call} {callId : String} (h : call.adds messages = true)
    (hcall : call.answers = some callId) : messages.any (isCallOf callId) = false := by
  cases call with
  | message => cases hcall
  | tool => cases hcall
  | output callId result fallbackId timestamp =>
    simp only [answers] at hcall
    simp only [adds, hcall, Option.any_some, Bool.and_eq_true, Bool.not_eq_true'] at h
    exact h.2

end Call

/-! ## Which call made which entry -/

/-- The call an entry is of: which reading of the log, and its place in that reading. -/
structure Source where
  pass : Nat
  call : Nat
deriving DecidableEq

/-- An entry with its source and how many came before it. -/
structure Tracked where
  source : Source
  number : Nat
  message : TranscriptMessage

structure Tracking where
  entries : List Tracked
  added : Nat

/-- What stays with an entry. -/
structure Label where
  source : Source
  number : Nat
  id : String
  tool : Bool
deriving DecidableEq

def Tracked.label (entry : Tracked) : Label :=
  ⟨entry.source, entry.number, entry.message.id, entry.message.kind == "tool"⟩

namespace Tracking

def empty : Tracking := ⟨[], 0⟩

def messages (s : Tracking) : List TranscriptMessage := s.entries.map Tracked.message

def labels (s : Tracking) : List Label := s.entries.map Tracked.label

def step (s : Tracking) (source : Source) (call : Call) : Tracking :=
  if call.adds s.messages then
    ⟨capParseMessages (s.entries ++ [⟨source, s.added, call.entry (call.name s.entries.length)⟩]), s.added + 1⟩
  else ⟨List.zipWith (fun entry message => { entry with message }) s.entries (call.apply s.messages), s.added⟩

def run (s : Tracking) (pass first : Nat) : List Call → Tracking
  | [] => s
  | call :: calls => (s.step ⟨pass, first⟩ call).run pass (first + 1) calls

theorem run_append (s : Tracking) (pass first : Nat) (calls calls' : List Call) :
    s.run pass first (calls ++ calls') = (s.run pass first calls).run pass (first + calls.length) calls' := by
  induction calls generalizing s first with
  | nil => rfl
  | cons call calls ih =>
    rw [List.cons_append, run, ih, run, List.length_cons, Nat.add_right_comm, Nat.add_assoc]

theorem length_messages (s : Tracking) : s.messages.length = s.entries.length := List.length_map _

theorem length_labels (s : Tracking) : s.labels.length = s.entries.length := List.length_map _

theorem map_id_labels (s : Tracking) : s.labels.map Label.id = s.messages.map TranscriptMessage.id := by
  rw [labels, messages, List.map_map, List.map_map]
  rfl

theorem map_cap {α β : Type} (f : α → β) (items : List α) :
    (capParseMessages items).map f = capParseMessages (items.map f) := by
  unfold capParseMessages Capped.cap
  rw [List.length_map]
  split
  · exact List.map_drop
  · rfl

theorem length_apply {messages : List TranscriptMessage} {call : Call} (h : call.adds messages = false) :
    (call.apply messages).length = messages.length := by
  have hkeeps := congrArg List.length (Call.apply_keeps h)
  rwa [List.length_map, List.length_map] at hkeeps

theorem map_zipWith_message (entries : List Tracked) {messages : List TranscriptMessage}
    (h : messages.length = entries.length) :
    (List.zipWith (fun entry message => { entry with message : Tracked }) entries messages).map Tracked.message =
      messages := by
  induction entries generalizing messages with
  | nil =>
    obtain rfl := List.length_eq_zero_iff.mp h
    rfl
  | cons entry entries ih =>
    cases messages with
    | nil => cases h
    | cons message messages =>
      rw [List.zipWith_cons_cons, List.map_cons, ih (Nat.succ.inj h)]

/-- What is followed is what the reader of a log does. -/
theorem step_messages (s : Tracking) (source : Source) (call : Call) :
    (s.step source call).messages = call.apply s.messages := by
  unfold step
  split
  next hadds =>
    rw [Call.apply_adds hadds, length_messages]
    simp only [messages, map_cap, List.map_append]
    rfl
  next hadds =>
    exact map_zipWith_message _ ((length_apply (Bool.not_eq_true _ ▸ hadds)).trans (length_messages s))

theorem run_messages (s : Tracking) (pass first : Nat) (calls : List Call) :
    (s.run pass first calls).messages = calls.foldl Call.apply s.messages := by
  induction calls generalizing s first with
  | nil => rfl
  | cons call calls ih => rw [run, ih, step_messages, List.foldl_cons]

theorem step_labels_adds {s : Tracking} {call : Call} (source : Source) (h : call.adds s.messages = true) :
    (s.step source call).labels =
      capParseMessages (s.labels ++ [⟨source, s.added, call.name s.labels.length, call.isTool⟩]) := by
  rw [step, if_pos h, labels, map_cap, List.map_append, length_labels]
  simp only [List.map_cons, List.map_nil, Tracked.label, Call.entry_id, Call.entry_kind]
  rfl

theorem map_zipWith_label (entries : List Tracked) {messages : List TranscriptMessage}
    (h : messages.map (fun message => (message.id, message.kind)) =
      (entries.map Tracked.message).map fun message => (message.id, message.kind)) :
    (List.zipWith (fun entry message => { entry with message : Tracked }) entries messages).map Tracked.label =
      entries.map Tracked.label := by
  induction entries generalizing messages with
  | nil => rfl
  | cons entry entries ih =>
    cases messages with
    | nil => cases h
    | cons message messages =>
      simp only [List.map_cons, List.cons.injEq, Prod.mk.injEq] at h
      obtain ⟨⟨hid, hkind⟩, htail⟩ := h
      rw [List.zipWith_cons_cons, List.map_cons, List.map_cons, ih htail]
      simp only [Tracked.label, hid, hkind]

theorem step_labels_keeps {s : Tracking} {call : Call} (source : Source) (h : call.adds s.messages = false) :
    (s.step source call).labels = s.labels := by
  rw [step, if_neg (by rw [h]; simp)]
  exact map_zipWith_label s.entries (Call.apply_keeps h)

end Tracking

end Atmux.Transcript
