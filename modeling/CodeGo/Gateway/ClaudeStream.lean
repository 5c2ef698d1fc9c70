import Mathlib.Tactic.Common

/-!
# Chat chunks as Claude events

`StreamResponseOpenAI2Claude` of `internal/gateway/translation`, and the two functions of the
provider `openai` that feed it: one for each chunk of a stream, one for its last. A chunk is taken
as it was parsed, and usages are passed through.
-/

namespace CodeGo.Gateway.ClaudeStream

structure FunctionResponse where
  name : String := ""
  arguments : String := ""
  deriving DecidableEq, Repr

structure ToolCallResponse where
  index : Option Int := none
  id : String := ""
  function : FunctionResponse := {}
  deriving DecidableEq, Repr

structure ChoiceDelta where
  content : Option String := none
  reasoningContent : Option String := none
  reasoning : Option String := none
  toolCalls : List ToolCallResponse := []
  deriving DecidableEq, Repr

structure Choice where
  delta : ChoiceDelta
  finishReason : Option String := none
  deriving DecidableEq, Repr

structure StreamResponse (U : Type) where
  id : String := ""
  model : String := ""
  choices : List Choice
  usage : Option U := none
  deriving DecidableEq, Repr

def ChoiceDelta.getContentString (d : ChoiceDelta) : String := d.content.getD ""

def ChoiceDelta.getReasoningContent (d : ChoiceDelta) : String :=
  (d.reasoningContent.or d.reasoning).getD ""

/-- A choice with a finish reason ends the stream. -/
def Choice.finishes (c : Choice) : Bool := c.finishReason.getD "" ≠ ""

inductive ContentBlock where
  | thinking
  | text
  | toolUse (id name : String)
  deriving DecidableEq, Repr

inductive Delta where
  | thinkingDelta (thinking : String)
  | textDelta (text : String)
  | inputJsonDelta (partialJson : String)
  deriving DecidableEq, Repr

/-- The events of a Claude stream. -/
inductive Event (U : Type) where
  | messageStart (id model : String) (inputTokens : Int)
  | contentBlockStart (index : Int) (block : ContentBlock)
  | contentBlockDelta (index : Int) (delta : Delta)
  | contentBlockStop (index : Int)
  | messageDelta (usage : U) (stopReason : String)
  | messageStop
  deriving DecidableEq, Repr

inductive LastMessageType where
  | none | text | tools | thinking
  deriving DecidableEq, Repr

/-- `ClaudeConvertInfo`, and what else of the relay info the conversion reads. -/
structure Info (U : Type) where
  lastMessagesType : LastMessageType := .none
  index : Int := 0
  usage : Option U := none
  finishReason : String := ""
  done : Bool := false
  toolCallBaseIndex : Int := 0
  toolCallMaxIndexOffset : Int := 0
  sendResponseCount : Nat := 0
  estimatePromptTokens : Int := 0
  deriving DecidableEq, Repr

/-- `unicode.ToLower`, as far as it leads to ASCII letters. -/
def lowerChar (c : Char) : Char :=
  if c = '\u212a' then 'k' else if c = '\u0130' then 'i' else c.toLower

def openAIFinishReasonToClaudeStopReason (finishReason : String) : String :=
  let lower := String.ofList (finishReason.toList.map lowerChar)
  if lower = "stop" then "end_turn"
  else if lower = "stop_sequence" then "stop_sequence"
  else if lower = "length" ∨ lower = "max_tokens" then "max_tokens"
  else if lower = "content_filter" then "refusal"
  else if lower = "tool_calls" then "tool_use"
  else finishReason

section Convert

variable {U : Type}

/-- Events, and the state behind them. -/
abbrev Step (U : Type) := List (Event U) × Info U

def Step.andThen (x : Step U) (f : Info U → Step U) : Step U := (x.1 ++ (f x.2).1, (f x.2).2)

def stopOpenBlocks (info : Info U) : List (Event U) :=
  match info.lastMessagesType with
  | .text => [.contentBlockStop info.index]
  | .thinking => [.contentBlockStop info.index]
  | .tools =>
    (List.range (info.toolCallMaxIndexOffset + 1).toNat).map fun (offset : Nat) =>
      .contentBlockStop (info.toolCallBaseIndex + offset)
  | .none => []

def stopOpenBlocksAndAdvance (info : Info U) : Step U :=
  match info.lastMessagesType with
  | .none => ([], info)
  | .tools =>
    (stopOpenBlocks info, { info with
      index := info.toolCallBaseIndex + info.toolCallMaxIndexOffset + 1
      toolCallBaseIndex := 0
      toolCallMaxIndexOffset := 0
      lastMessagesType := .none })
  | .text =>
    (stopOpenBlocks info, { info with index := info.index + 1, lastMessagesType := .none })
  | .thinking =>
    (stopOpenBlocks info, { info with index := info.index + 1, lastMessagesType := .none })

/-- The end of the message; without a usage there is no `message_delta`. -/
def finishMessage (usage : Option U) (stopReason : String) (info : Info U) : Step U :=
  (stopOpenBlocks info ++ (usage.toList.map fun u => .messageDelta u stopReason) ++ [.messageStop],
    { info with done := true })

/-- The usage of the chunk, or the last one that was seen. -/
def usageOf (response : StreamResponse U) (info : Info U) : Option U := response.usage.or info.usage

/-- The deltas of a tool call at a block. -/
def argumentsDelta (index : Int) (toolCall : ToolCallResponse) : List (Event U) :=
  if toolCall.function.arguments ≠ "" then
    [.contentBlockDelta index (.inputJsonDelta toolCall.function.arguments)]
  else []

def startMessage (response : StreamResponse U) (info : Info U) : Step U :=
  ([.messageStart response.id response.model info.estimatePromptTokens], info)

/-- Of the tool calls in the first chunk, the first one. -/
def firstToolCall (delta : ChoiceDelta) (info : Info U) : Step U :=
  match delta.toolCalls with
  | [] => ([], info)
  | toolCall :: _ =>
    (.contentBlockStart 0 (.toolUse toolCall.id toolCall.function.name) ::
        argumentsDelta 0 toolCall,
      { info with
        lastMessagesType := .tools
        toolCallBaseIndex := 0
        toolCallMaxIndexOffset := 0 })

/-- A block with its first delta. -/
def startBlock (type : LastMessageType) (block : ContentBlock) (delta : Delta) (info : Info U) :
    Step U :=
  let x := if info.lastMessagesType ≠ type then stopOpenBlocksAndAdvance info else ([], info)
  x.andThen fun info =>
    ([.contentBlockStart info.index block, .contentBlockDelta info.index delta],
      { info with lastMessagesType := type })

def firstContent (delta : ChoiceDelta) (info : Info U) : Step U :=
  if delta.getReasoningContent ≠ "" then
    startBlock .thinking .thinking (.thinkingDelta delta.getReasoningContent) info
  else if delta.getContentString ≠ "" then
    startBlock .text .text (.textDelta delta.getContentString) info
  else ([], info)

def firstFinish (response : StreamResponse U) (choice : Choice) (info : Info U) : Step U :=
  if choice.finishes then
    let info := { info with finishReason := choice.finishReason.getD "" }
    finishMessage (usageOf response info) (openAIFinishReasonToClaudeStopReason info.finishReason)
      info
  else ([], info)

def firstResponse (response : StreamResponse U) (info : Info U) : Step U :=
  match response.choices with
  | [] => startMessage response info
  | choice :: _ =>
    (startMessage response info).andThen fun info =>
      (firstToolCall choice.delta info).andThen fun info =>
        (firstContent choice.delta info).andThen fun info => firstFinish response choice info

def emptyChoices (response : StreamResponse U) (info : Info U) : Step U :=
  match usageOf response info with
  | none => ([], info)
  | some usage =>
    let stopReason := openAIFinishReasonToClaudeStopReason info.finishReason
    finishMessage (some usage) (if stopReason = "" then "end_turn" else stopReason) info

/-- The tool call at position `i` of its chunk. -/
def toolOffset (i : Nat) (toolCall : ToolCallResponse) : Int := toolCall.index.getD i

def toolCallEvents (base : Int) (i : Nat) (toolCall : ToolCallResponse) : List (Event U) :=
  let blockIndex := base + toolOffset i toolCall
  (if toolCall.function.name ≠ "" then
      [.contentBlockStart blockIndex (.toolUse toolCall.id toolCall.function.name)]
    else []) ++ argumentsDelta blockIndex toolCall

/-- The loop over the tool calls from position `i` on: the events, and the largest offset. -/
def toolCallLoop (base : Int) : Nat → List ToolCallResponse → Int → List (Event U) × Int
  | _, [], maxOffset => ([], maxOffset)
  | i, toolCall :: toolCalls, maxOffset =>
    let offset := toolOffset i toolCall
    let rest := toolCallLoop base (i + 1) toolCalls (if offset > maxOffset then offset else maxOffset)
    (toolCallEvents base i toolCall ++ rest.1, rest.2)

def startTools (info : Info U) : Step U :=
  if info.lastMessagesType ≠ .tools then
    let x := stopOpenBlocksAndAdvance info
    (x.1, { x.2 with toolCallBaseIndex := x.2.index, toolCallMaxIndexOffset := 0 })
  else ([], info)

def laterToolCalls (toolCalls : List ToolCallResponse) (info : Info U) : Step U :=
  (startTools info).andThen fun info =>
    let loop := toolCallLoop info.toolCallBaseIndex 0 toolCalls info.toolCallMaxIndexOffset
    (loop.1, { info with
      lastMessagesType := .tools
      toolCallMaxIndexOffset := loop.2
      index := info.toolCallBaseIndex + loop.2 })

/-- A delta in its block, which is started where another one is open. -/
def continueBlock (type : LastMessageType) (block : ContentBlock) (delta : Delta) (info : Info U) :
    Step U :=
  if info.lastMessagesType ≠ type then
    (stopOpenBlocksAndAdvance info).andThen fun info =>
      ([.contentBlockStart info.index block, .contentBlockDelta info.index delta],
        { info with lastMessagesType := type })
  else ([.contentBlockDelta info.index delta], { info with lastMessagesType := type })

def laterDelta (delta : ChoiceDelta) (info : Info U) : Step U :=
  if delta.toolCalls ≠ [] then laterToolCalls delta.toolCalls info
  else if delta.getReasoningContent ≠ "" then
    continueBlock .thinking .thinking (.thinkingDelta delta.getReasoningContent) info
  else if delta.getContentString ≠ "" then
    continueBlock .text .text (.textDelta delta.getContentString) info
  else ([], info)

/-- A choice that finishes without a usage in its chunk is left out. -/
def laterChoice (response : StreamResponse U) (choice : Choice) (info : Info U) : Step U :=
  if choice.finishes then
    let info := { info with finishReason := choice.finishReason.getD "" }
    if response.usage.isNone then ([], info)
    else
      (laterDelta choice.delta info).andThen fun info =>
        finishMessage (usageOf response info)
          (openAIFinishReasonToClaudeStopReason info.finishReason) info
  else laterDelta choice.delta info

def streamResponseOpenAI2Claude (response : StreamResponse U) (info : Info U) : Step U :=
  if info.done then ([], info)
  else if info.sendResponseCount = 1 then firstResponse response info
  else match response.choices with
    | [] => emptyChoices response info
    | choice :: _ => laterChoice response choice info

end Convert

section Handlers

variable {U : Type}

/-- `HandleStreamFormat` in the Claude format. -/
def handleStreamFormat (response : StreamResponse U) (info : Info U) : Step U :=
  streamResponseOpenAI2Claude response { info with
    sendResponseCount := info.sendResponseCount + 1
    usage := response.usage.or info.usage }

/-- `HandleFinalResponse` in the Claude format. -/
def handleFinalResponse (response : StreamResponse U) (usage : Option U) (info : Info U) : Step U :=
  let x := streamResponseOpenAI2Claude response { info with usage }
  (x.1, { x.2 with done := true })

/-- A stream that is fed chunk by chunk. -/
def handleStream : List (StreamResponse U) → Info U → Step U
  | [], info => ([], info)
  | response :: responses, info =>
    (handleStreamFormat response info).andThen (handleStream responses)

/-- A whole stream, whose last chunk goes to the final handler. -/
def claudeEvents (responses : List (StreamResponse U)) (last : StreamResponse U) (usage : Option U)
    (info : Info U) : List (Event U) :=
  ((handleStream responses info).andThen (handleFinalResponse last usage)).1

end Handlers

end CodeGo.Gateway.ClaudeStream
