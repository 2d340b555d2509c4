/-
How the logs of Claude and Codex are read into a conversation.

A record is read into calls (`claudeCalls`, `responseCalls`); a Codex log
without any message is read a second time, for its events. Where the harness's
ids are its own, the ids of a view are distinct, and an entry that stays in
view while the log grows keeps its id exactly where no event is renumbered by
response records that came after it (`transcript_ids_right`).
-/
import Atmux.Session
import Atmux.Transcript.Names

namespace Atmux.Transcript

open Lib Pulse

/-! ## What a record says -/

def stringAt (key : String) (value : Json) : Option String := (value.get? key).bind Json.asStr

def boolAt (key : String) (value : Json) : Option Bool := (value.get? key).bind Json.asBool

def within (outer inner : String) (value : Json) : Option Json := (value.get? outer).bind (Json.get? inner)

def isInjectedUserContext (text : String) : Bool :=
  let value := text.toList.dropWhile Text.isWhitespace
  ["<environment_context>", "<permissions instructions>", "<collaboration_mode>", "<plugins_instructions>",
    "<skills_instructions>", "<system-reminder>", "# AGENTS.md instructions\n\n<INSTRUCTIONS>"].any
      fun mark => mark.toList.isPrefixOf value

def contentText (content : Option Json) (blockType : String) : Option String := do
  match ← content with
  | .array blocks =>
    let texts := (blocks.filter fun block => stringAt "type" block == some blockType).filterMap (stringAt "text")
    let text := "\n\n".intercalate texts
    if text.isEmpty then none else some text
  | _ => none

/-- A text that is more than blanks. -/
def nonBlank (text : Option String) : Option String := text.filter fun text => !isBlank text

/-! ## Claude -/

def claudeToolAuthoredUser (value : Json) : Bool :=
  boolAt "turnCompanion" value == some true || boolAt "isSidechain" value == some true ||
    stringAt "userType" value == some "agent" || (within "origin" "kind" value).bind Json.asStr == some "task-notification" ||
    stringAt "promptSource" value == some "system" ||
    ["sourceToolAssistantUUID", "sourceToolUseID", "taskId"].any fun key =>
      match value.get? key with
      | none => false
      | some .null => false
      | some _ => true

/-- The text of the first element with a tag. -/
def xmlElementText (source : List Char) (tag : String) : Option (List Char) := do
  let (_, rest) ← Text.cutText ("<" ++ tag ++ ">").toList source
  let (text, _) ← Text.cutText ("</" ++ tag ++ ">").toList rest
  return Text.trim text

def quotedSegment (value : List Char) : Option (List Char) := do
  let (_, rest) ← Text.cut '"' value
  let (quoted, _) ← Text.cut '"' rest
  let quoted := Text.trim quoted
  if quoted.isEmpty then none else some quoted

/-- The name and the body of a task notification. -/
def claudeTaskNotification (text : String) : Option (String × String) :=
  let envelope := Text.trim text.toList
  if "<task-notification>".toList.isPrefixOf envelope then
    let summary := (xmlElementText envelope "summary").getD []
    let named := (quotedSegment summary).or (if summary.isEmpty then none else some summary)
    let name := (named.map fun value => truncatePlain (String.ofList value) maxToolNameBytes).getD "Task"
    let sections := (["summary", "result"].filterMap (xmlElementText envelope)).filter fun text => !text.isEmpty
    let body := "\n\n".intercalate (sections.map String.ofList)
    some (name, if body.isEmpty then "Task notification" else body)
  else none

def claudeSubagentName (value : Json) : Option String :=
  ["agentName", "subagentName", "subagentType", "attributionAgent"].findSome? fun key =>
    ((stringAt key value).map fun name => String.ofList (Text.trim name.toList)).filter (fun name => !name.isEmpty)
      |>.map (truncatePlain · maxToolNameBytes)

def saturatingAdd (a b : Nat) : Nat := min (a + b) (2 ^ 64 - 1)

def claudeUsage (value : Json) : Option (Nat × Nat) := do
  let usage ← within "message" "usage" value
  let field := fun key => ((usage.get? key).bind Json.asU64).getD 0
  let input := saturatingAdd (saturatingAdd (field "input_tokens") (field "cache_creation_input_tokens"))
    (field "cache_read_input_tokens")
  let output := field "output_tokens"
  if 0 < input ∨ 0 < output then some (input, output) else none

def claudeUserText (value : Json) : Option String := do
  match ← within "message" "content" value with
  | .string text => some text
  | content => contentText (some content) "text"

section Claude

variable (serde : Serde)

/-- The results among a user record's blocks, from a place on. -/
def resultCalls (id timestamp : Option String) : Nat → List Json → List Call
  | _, [] => []
  | index, block :: blocks =>
    if stringAt "type" block = some "tool_result" then
      .output ((stringAt "tool_use_id" block).map .given) (toolOutputText serde (block.get? "content"))
        (derivedId id "tool-result" index) timestamp :: resultCalls id timestamp (index + 1) blocks
    else resultCalls id timestamp (index + 1) blocks

/-- The text of a user record, if it is not the harness's own. -/
def userMessage (value : Json) (id timestamp : Option String) (usage : Option (Nat × Nat)) : List Call :=
  match (nonBlank (claudeUserText value)).filter fun markdown => !isInjectedUserContext markdown with
  | none => []
  | some markdown =>
    let subagent := claudeToolAuthoredUser value
    let agentName := if subagent then claudeSubagentName value else none
    let (subagent, agentName, markdown) :=
      match claudeTaskNotification markdown with
      | some (name, body) => (true, agentName.or (some name), body)
      | none => (subagent, agentName, markdown)
    [.message (if subagent then "subagent" else "user") markdown (id.map .given) timestamp
      { EntryMeta.usage usage with agentName }]

def pushClaudeUser (value content : Json) (id timestamp : Option String) (usage : Option (Nat × Nat)) : List Call :=
  userMessage value id timestamp usage ++
    match content with
    | .array blocks => resultCalls serde id timestamp 0 blocks
    | _ => []

/-- An assistant's blocks from a place on; the usage goes to the first entry. -/
def assistantCalls (id timestamp : Option String) : Nat → Option (Nat × Nat) → List Json → List Call
  | _, _, [] => []
  | index, usage, block :: blocks =>
    match stringAt "type" block with
    | some "text" =>
      match nonBlank (stringAt "text" block) with
      | some markdown =>
        .message "assistant" markdown (derivedId id "text" index) timestamp (.usage usage) ::
          assistantCalls id timestamp (index + 1) none blocks
      | none => assistantCalls id timestamp (index + 1) usage blocks
    | some "tool_use" =>
      .tool ((stringAt "name" block).getD "Tool") (toolInputText serde (block.get? "input"))
        (((stringAt "id" block).map .given).or (derivedId id "tool" index)) timestamp (.usage usage) ::
          assistantCalls id timestamp (index + 1) none blocks
    | _ => assistantCalls id timestamp (index + 1) usage blocks

def claudeCalls (value : Json) : List Call :=
  if boolAt "isSidechain" value = some true then []
  else
    let id := stringAt "uuid" value
    let timestamp := stringAt "timestamp" value
    match within "message" "content" value with
    | none => []
    | some content =>
      match (within "message" "role" value).bind Json.asStr with
      | some "user" => pushClaudeUser serde value content id timestamp (claudeUsage value)
      | some "assistant" =>
        match content with
        | .string markdown => [.message "assistant" markdown (id.map .given) timestamp (.usage (claudeUsage value))]
        | .array blocks => assistantCalls serde id timestamp 0 (claudeUsage value) blocks
        | _ => []
      | _ => []

end Claude

/-! ## Codex -/

/-- A message of a response item, in the role that it has. -/
def responseMessage (value payload : Json) (role blockType : String) : List Call :=
  match nonBlank (contentText (payload.get? "content") blockType) with
  | none => []
  | some markdown =>
    if role = "user" ∧ isInjectedUserContext markdown then []
    else [.message role markdown ((stringAt "id" payload).map .given) (stringAt "timestamp" value) .default]

def responseCalls (serde : Serde) (value : Json) : List Call :=
  match stringAt "type" value, value.get? "payload" with
  | some "response_item", some payload =>
    let timestamp := stringAt "timestamp" value
    let call := fun input => [Call.tool ((stringAt "name" payload).getD "Tool") input
      ((((payload.get? "call_id").or (payload.get? "id")).bind Json.asStr).map .given) timestamp .default]
    let output := [Call.output ((stringAt "call_id" payload).map .given) (toolOutputText serde (payload.get? "output"))
      ((stringAt "id" payload).map .given) timestamp]
    match stringAt "type" payload with
    | some "message" =>
      match stringAt "role" payload with
      | some "user" => responseMessage value payload "user" "input_text"
      | some "assistant" => responseMessage value payload "assistant" "output_text"
      | _ => []
    | some "function_call" => call (toolInputText serde (payload.get? "arguments"))
    | some "custom_tool_call" => call (toolInputText serde (payload.get? "input"))
    | some "function_call_output" => output
    | some "custom_tool_call_output" => output
    | _ => []
  | _, _ => []

def eventMessage (value payload : Json) (role : String) : List Call :=
  match nonBlank (stringAt "message" payload) with
  | none => []
  | some markdown =>
    if role = "user" ∧ isInjectedUserContext markdown then []
    else [.message role markdown none (stringAt "timestamp" value) .default]

def eventCalls (value : Json) : List Call :=
  match stringAt "type" value, value.get? "payload" with
  | some "event_msg", some payload =>
    match stringAt "type" payload with
    | some "user_message" => eventMessage value payload "user"
    | some "agent_message" => eventMessage value payload "assistant"
    | _ => []
  | _, _ => []

/-! ## Parsers -/

section Parsers

variable (serde : Serde)

def parseClaude (records : List Json) : List TranscriptMessage := (records.flatMap (claudeCalls serde)).foldl Call.apply []

def hasMessage (messages : List TranscriptMessage) : Bool := messages.any (·.kind == "message")

def parseCodex (records : List Json) : List TranscriptMessage :=
  let messages := (records.flatMap (responseCalls serde)).foldl Call.apply []
  if hasMessage messages then messages else (records.flatMap eventCalls).foldl Call.apply messages

def parse (agent : AgentKind) (records : List Json) : List TranscriptMessage :=
  match agent with
  | .claude => parseClaude serde records
  | .codex => parseCodex serde records
  | .other => []

/-- The calls that a log is read into first. -/
def readCalls (agent : AgentKind) (value : Json) : List Call :=
  match agent with
  | .claude => claudeCalls serde value
  | .codex => responseCalls serde value
  | .other => []

def firstReading (agent : AgentKind) (records : List Json) : Tracking :=
  Tracking.empty.run 0 0 (records.flatMap (readCalls serde agent))

/-- The entries of a log, with the records they are made from. -/
def reading (agent : AgentKind) (records : List Json) : Tracking :=
  let first := firstReading serde agent records
  if agent = .codex ∧ hasMessage first.messages = false then first.run 1 0 (records.flatMap eventCalls) else first

theorem reading_messages (agent : AgentKind) (records : List Json) :
    (reading serde agent records).messages = parse serde agent records := by
  have hfirst : (firstReading serde agent records).messages =
      (records.flatMap (readCalls serde agent)).foldl Call.apply [] := Tracking.run_messages _ 0 0 _
  cases agent with
  | claude =>
    rw [reading, if_neg (by simp), hfirst]
    rfl
  | codex =>
    rw [reading, parse, parseCodex]
    have hcodex : (records.flatMap (readCalls serde .codex)) = records.flatMap (responseCalls serde) := rfl
    rw [hcodex] at hfirst
    cases hmessage : hasMessage (firstReading serde .codex records).messages with
    | true =>
      rw [if_neg (by simp), hfirst]
      rw [hfirst] at hmessage
      rw [if_pos hmessage]
    | false =>
      rw [if_pos ⟨rfl, rfl⟩, Tracking.run_messages, hfirst]
      rw [hfirst] at hmessage
      rw [if_neg (by rw [hmessage]; simp)]
  | other =>
    rw [reading, if_neg (by simp), hfirst]
    have hnone : records.flatMap (readCalls serde .other) = [] := List.flatMap_eq_nil_iff.mpr fun _ _ => rfl
    rw [hnone]
    rfl

end Parsers

end Atmux.Transcript
