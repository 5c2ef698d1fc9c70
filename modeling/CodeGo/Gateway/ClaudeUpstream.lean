import CodeGo.Gateway.ChatChunks
import Mathlib.Algebra.Ring.Nat

/-!
# Claude messages as chat messages

The provider `claude` of `internal/gateway/execution`: `StreamResponseClaude2OpenAI` turns each event
of a stream into a chunk, `ResponseClaude2OpenAI` a whole message into a chat message. Events are
taken as they were parsed, usages and errors are left out. The inputs of tools are values of `J`.
-/

namespace CodeGo.Gateway.ClaudeUpstream

open ClaudeStream ChatChunks

variable {J : Type}

structure ClaudeMediaMessage (J : Type) where
  type : String := ""
  text : Option String := none
  model : String := ""
  stopReason : Option String := none
  partialJson : Option String := none
  thinking : Option String := none
  signature : String := ""
  id : String := ""
  name : String := ""
  input : Option J := none
  deriving DecidableEq, Repr

structure ClaudeResponse (J : Type) where
  id : String := ""
  type : String
  content : List (ClaudeMediaMessage J) := []
  stopReason : String := ""
  model : String := ""
  index : Option Int := none
  contentBlock : Option (ClaudeMediaMessage J) := none
  delta : Option (ClaudeMediaMessage J) := none
  message : Option (ClaudeMediaMessage J) := none
  deriving DecidableEq, Repr

def ClaudeMediaMessage.getText (c : ClaudeMediaMessage J) : String := c.text.getD ""

def stopReasonClaude2OpenAI (reason : String) : String :=
  let lower := String.ofList (reason.toList.map lowerChar)
  if lower = "stop_sequence" ∨ lower = "end_turn" then "stop"
  else if lower = "max_tokens" then "length"
  else if lower = "tool_use" then "tool_calls"
  else if lower = "refusal" then "content_filter"
  else reason

/-- A chunk, of one choice. -/
abbrev Chunk := StreamResponse Unit

/-- Chunks with tool calls have no content. -/
def respond (id model : String) (choice : Choice) (tools : List ToolCallResponse) : Chunk :=
  let delta := if tools ≠ [] then { choice.delta with content := none, toolCalls := tools }
    else choice.delta
  { id, model, choices := [{ choice with delta }] }

def fcIdx (claudeResponse : ClaudeResponse J) : Int :=
  match claudeResponse.index with
  | some index => if index - 1 < 0 then 0 else index - 1
  | none => 0

def startTools (fcIdx : Int) (block : ClaudeMediaMessage J) : List ToolCallResponse :=
  if block.type = "tool_use" then
    [{ index := some fcIdx, id := block.id, function := { name := block.name } }]
  else []

def deltaTools (fcIdx : Int) (delta : ClaudeMediaMessage J) : List ToolCallResponse :=
  if delta.type = "input_json_delta" then
    [argumentsDelta (some fcIdx) (delta.partialJson.getD "")]
  else []

def deltaReasoning (delta : ClaudeMediaMessage J) : Option String :=
  if delta.type = "signature_delta" then some "\n"
  else if delta.type = "thinking_delta" then delta.thinking
  else none

def deltaFinishReason (delta : ClaudeMediaMessage J) : Option String :=
  match delta.stopReason with
  | some reason =>
    let finishReason := stopReasonClaude2OpenAI reason
    if finishReason ≠ "null" then some finishReason else none
  | none => none

def streamResponseClaude2OpenAI (claudeResponse : ClaudeResponse J) : Option Chunk :=
  let model := claudeResponse.model
  match claudeResponse.type with
  | "message_start" =>
    let choice : Choice := { delta := { content := some "" } }
    match claudeResponse.message with
    | some message => some (respond message.id message.model choice [])
    | none => some (respond "" model choice [])
  | "content_block_start" =>
    match claudeResponse.contentBlock with
    | none => none
    | some block =>
      let content := if block.type = "text" then block.text else none
      some (respond "" model { delta := { content } } (startTools (fcIdx claudeResponse) block))
  | "content_block_delta" =>
    match claudeResponse.delta with
    | none => none
    | some delta =>
      let choice : Choice :=
        { delta := { content := delta.text, reasoningContent := deltaReasoning delta } }
      some (respond "" model choice (deltaTools (fcIdx claudeResponse) delta))
  | "message_delta" =>
    let finishReason := claudeResponse.delta.bind deltaFinishReason
    some (respond "" model { delta := {}, finishReason } [])
  | "message_stop" => none
  | _ => none

structure ClaudeResponseInfo where
  responseID : String := ""
  model : String := ""
  responseText : String := ""
  done : Bool := false
  deriving DecidableEq, Repr

/-- The state that is kept of a stream, and whether the event has a chunk that is sent. -/
def formatClaudeResponseInfo (claudeResponse : ClaudeResponse J) (claudeInfo : ClaudeResponseInfo) :
    ClaudeResponseInfo × Bool :=
  match claudeResponse.type with
  | "message_start" =>
    match claudeResponse.message with
    | some message => ({ claudeInfo with responseID := message.id, model := message.model }, true)
    | none => (claudeInfo, true)
  | "content_block_delta" =>
    match claudeResponse.delta with
    | some delta =>
      let responseText := claudeInfo.responseText ++ delta.text.getD "" ++ delta.thinking.getD ""
      ({ claudeInfo with responseText }, true)
    | none => (claudeInfo, true)
  | "message_delta" => ({ claudeInfo with done := true }, true)
  | "content_block_start" => (claudeInfo, true)
  | _ => (claudeInfo, false)

/-- A chunk that is missing is sent as `null`. -/
def handleStreamResponseData (claudeInfo : ClaudeResponseInfo) (claudeResponse : ClaudeResponse J) :
    ClaudeResponseInfo × List (Option Chunk) :=
  let response := streamResponseClaude2OpenAI claudeResponse
  let (claudeInfo, sent) := formatClaudeResponseInfo claudeResponse claudeInfo
  if sent then
    (claudeInfo, [response.map fun r =>
      { r with id := claudeInfo.responseID, model := claudeInfo.model }])
  else (claudeInfo, [])

/-- The chunks of a stream of events. -/
def claudeStreamHandler : ClaudeResponseInfo → List (ClaudeResponse J) → List (Option Chunk)
  | _, [] => []
  | claudeInfo, event :: events =>
    let (claudeInfo, chunks) := handleStreamResponseData claudeInfo event
    chunks ++ claudeStreamHandler claudeInfo events

section Whole

variable (marshal : J → String)

def messageTools : List (ClaudeMediaMessage J) → List ToolCallResponse
  | [] => []
  | message :: content =>
    if message.type = "tool_use" then
      let args := (message.input.map marshal).getD "null"
      { id := message.id, function := { name := message.name, arguments := args } } ::
        messageTools content
    else messageTools content

/-- Each text replaces the one before it. -/
def messageText (responseText : String) : List (ClaudeMediaMessage J) → String
  | [] => responseText
  | message :: content =>
    if message.type = "text" then messageText message.getText content
    else messageText responseText content

def messageThinking (thinkingContent : String) : List (ClaudeMediaMessage J) → String
  | [] => thinkingContent
  | message :: content =>
    if message.type = "thinking" then messageThinking (message.thinking.getD thinkingContent) content
    else messageThinking thinkingContent content

def responseClaude2OpenAI (claudeResponse : ClaudeResponse J) : Message :=
  let content := claudeResponse.content
  let responseText := messageText ((content.head?.map (·.getText)).getD "") content
  let responseThinking := (content.head?.bind (·.thinking)).getD ""
  let thinkingContent := messageThinking "" content
  { content := responseText
    reasoning := if thinkingContent ≠ "" then thinkingContent else responseThinking
    toolCalls := messageTools marshal content
    finishReason := some (stopReasonClaude2OpenAI claudeResponse.stopReason) }

end Whole

end CodeGo.Gateway.ClaudeUpstream

/-!
# A message and its stream

A message reaches the gateway whole or block by block. The chunks of the stream and the chat message
are the same in all but a few cases: texts replace each other in one and follow each other in the
other, and the indices of the tool calls in the stream are those of the blocks less one.
-/

namespace CodeGo.Gateway.ClaudeUpstream

open ClaudeStream ChatChunks

variable {J : Type}

inductive ThinkingDelta where
  | thinking (text : String)
  | signature (signature : String)
  deriving DecidableEq, Repr

/-- A block as it is sent: how it starts, and the parts it comes in. -/
inductive Sent (J : Type) where
  | text (start : Option String) (deltas : List String)
  | thinking (deltas : List ThinkingDelta)
  | toolUse (id name : String) (start : J) (deltas : List String)
  deriving DecidableEq, Repr

def ThinkingDelta.message : ThinkingDelta → ClaudeMediaMessage J
  | .thinking text => { type := "thinking_delta", thinking := some text }
  | .signature s => { type := "signature_delta", signature := s }

def Sent.start : Sent J → ClaudeMediaMessage J
  | .text start _ => { type := "text", text := start }
  | .thinking _ => { type := "thinking", thinking := some "" }
  | .toolUse id name start _ => { type := "tool_use", id, name, input := some start }

def Sent.deltas : Sent J → List (ClaudeMediaMessage J)
  | .text _ deltas => deltas.map fun text => { type := "text_delta", text := some text }
  | .thinking deltas => deltas.map ThinkingDelta.message
  | .toolUse _ _ _ deltas =>
    deltas.map fun json => { type := "input_json_delta", partialJson := some json }

def blockStart (index : Int) (block : ClaudeMediaMessage J) : ClaudeResponse J :=
  { type := "content_block_start", index := some index, contentBlock := some block }

def blockDelta (index : Int) (delta : ClaudeMediaMessage J) : ClaudeResponse J :=
  { type := "content_block_delta", index := some index, delta := some delta }

def blockStop (index : Int) : ClaudeResponse J :=
  { type := "content_block_stop", index := some index }

def Sent.events (index : Int) (b : Sent J) : List (ClaudeResponse J) :=
  blockStart index b.start :: (b.deltas.map (blockDelta index) ++ [blockStop index])

/-- Blocks with consecutive indices. -/
def blockEvents : Int → List (Sent J) → List (ClaudeResponse J)
  | _, [] => []
  | index, b :: sent => b.events index ++ blockEvents (index + 1) sent

/-- The stream of a message of which the blocks are sent so. -/
def events (message : ClaudeResponse J) (sent : List (Sent J)) : List (ClaudeResponse J) :=
  { type := "message_start"
    message := some { type := "message", id := message.id, model := message.model } } ::
    (blockEvents 0 sent ++
      [{ type := "message_delta", delta := some { stopReason := some message.stopReason } },
        { type := "message_stop" }])

def ThinkingDelta.text : ThinkingDelta → String
  | .thinking text => text
  | .signature _ => ""

def ThinkingDelta.sign (signed : String) : ThinkingDelta → String
  | .thinking _ => signed
  | .signature s => s

/-- The block that is received; an input without parts is the one that the block starts with. -/
def Sent.block (unmarshal : String → Option J) : Sent J → Option (ClaudeMediaMessage J)
  | .text start deltas =>
    some { type := "text", text := some (start.getD "" ++ String.join deltas) }
  | .thinking deltas =>
    some { type := "thinking"
           thinking := some (String.join (deltas.map ThinkingDelta.text))
           signature := deltas.foldl ThinkingDelta.sign "" }
  | .toolUse id name start deltas =>
    if String.join deltas = "" then some { type := "tool_use", id, name, input := some start }
    else
      match unmarshal (String.join deltas) with
      | some input => some { type := "tool_use", id, name, input := some input }
      | none => none

def Transmits (unmarshal : String → Option J) (sent : List (Sent J)) (message : ClaudeResponse J) :
    Prop :=
  List.Forall₂ (fun b m => b.block unmarshal = some m) sent message.content

/-- The choices of the chunk of an event that is sent. -/
def eventChoices (event : ClaudeResponse J) : List Choice :=
  if (formatClaudeResponseInfo event {}).2 then
    ((streamResponseClaude2OpenAI event).map (·.choices)).getD []
  else []

def choicesOf (chunks : List (Option Chunk)) : List Choice :=
  chunks.flatMap fun chunk => (chunk.map (·.choices)).getD []

theorem formatClaudeResponseInfo_sent (event : ClaudeResponse J) (claudeInfo : ClaudeResponseInfo) :
    (formatClaudeResponseInfo event claudeInfo).2 = (formatClaudeResponseInfo event {}).2 := by
  unfold formatClaudeResponseInfo
  split
  · cases event.message <;> rfl
  · cases event.delta <;> rfl
  all_goals rfl

theorem choicesOf_handleStreamResponseData (claudeInfo : ClaudeResponseInfo)
    (event : ClaudeResponse J) :
    choicesOf (handleStreamResponseData claudeInfo event).2 = eventChoices event := by
  have hsent := formatClaudeResponseInfo_sent event claudeInfo
  unfold handleStreamResponseData eventChoices
  rw [← hsent]
  cases hs : (formatClaudeResponseInfo event claudeInfo).2
  · simp [hs, choicesOf]
  · cases streamResponseClaude2OpenAI event <;> simp [hs, choicesOf]

theorem choicesOf_claudeStreamHandler (events : List (ClaudeResponse J))
    (claudeInfo : ClaudeResponseInfo) :
    choicesOf (claudeStreamHandler claudeInfo events) = events.flatMap eventChoices := by
  induction events generalizing claudeInfo with
  | nil => rfl
  | cons event events ih =>
    have happend : ∀ xs ys, choicesOf (xs ++ ys) = choicesOf xs ++ choicesOf ys :=
      fun _ _ => List.flatMap_append
    rw [List.flatMap_cons, ← ih (handleStreamResponseData claudeInfo event).1,
      ← choicesOf_handleStreamResponseData claudeInfo event, ← happend]
    rfl

def startChoice (index : Int) (block : ClaudeMediaMessage J) : Choice :=
  let tools := startTools index block
  { delta := if tools ≠ [] then { toolCalls := tools }
      else { content := if block.type = "text" then block.text else none } }

def deltaChoice (index : Int) (delta : ClaudeMediaMessage J) : Choice :=
  let tools := deltaTools index delta
  { delta :=
      if tools ≠ [] then { reasoningContent := deltaReasoning delta, toolCalls := tools }
      else { content := delta.text, reasoningContent := deltaReasoning delta } }

/-- The index of a tool call. -/
def toolIndex (index : Int) : Int := if index - 1 < 0 then 0 else index - 1

theorem eventChoices_blockStart (index : Int) (block : ClaudeMediaMessage J) :
    eventChoices (blockStart index block) = [startChoice (toolIndex index) block] := by
  simp only [eventChoices, blockStart, formatClaudeResponseInfo, streamResponseClaude2OpenAI, fcIdx,
    respond, startChoice, toolIndex, startTools]
  by_cases h : block.type = "tool_use" <;> simp [h]

theorem eventChoices_blockDelta (index : Int) (delta : ClaudeMediaMessage J) :
    eventChoices (blockDelta index delta) = [deltaChoice (toolIndex index) delta] := by
  simp only [eventChoices, blockDelta, formatClaudeResponseInfo, streamResponseClaude2OpenAI, fcIdx,
    respond, deltaChoice, toolIndex, deltaTools]
  by_cases h : delta.type = "input_json_delta" <;> simp [h]

theorem eventChoices_blockStop (index : Int) :
    eventChoices (blockStop index : ClaudeResponse J) = [] := by
  simp [eventChoices, blockStop, formatClaudeResponseInfo]

/-- The choices of the chunks of a block. -/
def Sent.choices (index : Int) (b : Sent J) : List Choice :=
  startChoice (toolIndex index) b.start :: b.deltas.map (deltaChoice (toolIndex index))

theorem flatMap_events (index : Int) (b : Sent J) :
    (b.events index).flatMap eventChoices = b.choices index := by
  simp only [Sent.events, Sent.choices, List.flatMap_cons, eventChoices_blockStart,
    List.flatMap_append, List.flatMap_map, eventChoices_blockDelta, eventChoices_blockStop,
    List.flatMap_nil, List.append_nil, List.singleton_append]
  rw [← List.map_eq_flatMap]

def blockChoices : Int → List (Sent J) → List Choice
  | _, [] => []
  | index, b :: sent => b.choices index ++ blockChoices (index + 1) sent

theorem flatMap_blockEvents (index : Int) (sent : List (Sent J)) :
    (blockEvents index sent).flatMap eventChoices = blockChoices index sent := by
  induction sent generalizing index with
  | nil => rfl
  | cons b sent ih =>
    rw [blockEvents, List.flatMap_append, flatMap_events, ih, blockChoices]

def chunkFinishReason (reason : String) : Option String :=
  if stopReasonClaude2OpenAI reason ≠ "null" then some (stopReasonClaude2OpenAI reason) else none

/-- The choices of a stream: an empty one, those of the blocks, and the one with the reason. -/
theorem flatMap_stream (message : ClaudeResponse J) (sent : List (Sent J)) :
    (events message sent).flatMap eventChoices =
      { delta := { content := some "" } } :: (blockChoices 0 sent ++
        [{ delta := {}, finishReason := chunkFinishReason message.stopReason }]) := by
  rw [events, List.flatMap_cons, List.flatMap_append, flatMap_blockEvents]
  simp [eventChoices, formatClaudeResponseInfo, streamResponseClaude2OpenAI, respond,
    deltaFinishReason, chunkFinishReason]

end CodeGo.Gateway.ClaudeUpstream
