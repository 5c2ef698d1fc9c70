import CodeGo.Gateway.OpenAIMessages

/-!
# Claude requests as chat requests

`ClaudeToOpenAIRequest`: the blocks of a message are collected by kind. Results become messages of
their own, and the message itself keeps its tool calls or, when it has none, its texts and images.
-/

namespace CodeGo.Gateway.ClaudeConversion

open Lib (Json)
open OpenAIMessages

structure ClaudeMessageSource where
  type : String := ""
  mediaType : String := ""
  data : Json := .null
  url : String := ""

structure ClaudeMediaMessage where
  type : String := ""
  text : Option String := none
  model : String := ""
  source : Option ClaudeMessageSource := none
  stopReason : Option String := none
  partialJson : Option String := none
  role : String := ""
  thinking : Option String := none
  signature : String := ""
  delta : String := ""
  cacheControl : Option Json := none
  id : String := ""
  name : String := ""
  input : Json := .null
  content : Json := .null
  toolUseId : String := ""

def decodeSource : Json → Option (Option ClaudeMessageSource)
  | .null => some none
  | .obj members => do
    let type ← Json.textField? "type" members
    let mediaType ← Json.textField? "media_type" members
    let url ← Json.textField? "url" members
    some (some ⟨type, mediaType, Json.field "data" members, url⟩)
  | _ => none

def decodeBlock : Json → Option ClaudeMediaMessage
  | .null => some {}
  | .obj members => do
    let type ← Json.textField? "type" members
    let text ← Json.pointerField? "text" members
    let model ← Json.textField? "model" members
    let source ← decodeSource (Json.field "source" members)
    let stopReason ← Json.pointerField? "stop_reason" members
    let partialJson ← Json.pointerField? "partial_json" members
    let role ← Json.textField? "role" members
    let thinking ← Json.pointerField? "thinking" members
    let signature ← Json.textField? "signature" members
    let delta ← Json.textField? "delta" members
    let id ← Json.textField? "id" members
    let name ← Json.textField? "name" members
    let toolUseId ← Json.textField? "tool_use_id" members
    some
      { type, text, model, source, stopReason, partialJson, role, thinking, signature, delta
        cacheControl := Json.rawField "cache_control" members
        id, name
        input := Json.field "input" members
        content := Json.field "content" members
        toolUseId }
  | _ => none

/-- `Any2Type[[]ClaudeMediaMessage]`. -/
def decodeBlocks : Json → Option (List ClaudeMediaMessage)
  | .null => some []
  | .arr items => items.mapM decodeBlock
  | _ => none

def textMember (name value : String) : List (String × Json) :=
  if value = "" then [] else [(name, .str value)]

def pointerMember (name : String) (value : Option String) : List (String × Json) :=
  value.toList.map fun s => (name, .str s)

def anyMember (name : String) : Json → List (String × Json)
  | .null => []
  | value => [(name, value)]

def encodeSource (s : ClaudeMessageSource) : Json :=
  .obj ((("type", .str s.type) :: textMember "media_type" s.mediaType) ++
    anyMember "data" s.data ++ textMember "url" s.url)

/-- A block as it is encoded again: empty fields are left out. -/
def encodeBlock (b : ClaudeMediaMessage) : Json :=
  .obj (textMember "type" b.type ++ pointerMember "text" b.text ++ textMember "model" b.model ++
    b.source.toList.map (fun s => ("source", encodeSource s)) ++
    pointerMember "stop_reason" b.stopReason ++ pointerMember "partial_json" b.partialJson ++
    textMember "role" b.role ++ pointerMember "thinking" b.thinking ++
    textMember "signature" b.signature ++ textMember "delta" b.delta ++
    b.cacheControl.toList.map (fun v => ("cache_control", v)) ++
    textMember "id" b.id ++ textMember "name" b.name ++ anyMember "input" b.input ++
    anyMember "content" b.content ++ textMember "tool_use_id" b.toolUseId)

/-- The blocks of the content of a result, encoded. The error of the decoder is dropped. -/
def parseMediaContent (content : Json) : Json :=
  match content with
  | .null => .null
  | _ =>
    match decodeBlocks content with
    | some blocks => .arr (blocks.map encodeBlock)
    | none => .null

structure Thinking where
  type : String := ""
  budgetTokens : Option Int := none

structure ClaudeMessage where
  role : String
  content : Json

structure ClaudeRequest where
  model : String
  system : Json := .null
  messages : List ClaudeMessage := []
  maxTokens : Option Nat := none
  temperature : Option Rat := none
  topP : Option Rat := none
  topK : Option Int := none
  stream : Option Bool := none
  stopSequences : List String := []
  tools : Json := .null
  outputConfig : Option Json := none
  thinking : Option Thinking := none

structure RelayInfo where
  channelType : Nat
  originModelName : String
  upstreamModelName : String

structure OpenRouterRequestReasoning where
  enabled : Bool := false
  maxTokens : Int := 0

inductive Stop where
  | none
  | one (sequence : String)
  | many (sequences : List String)

structure GeneralOpenAIRequest where
  model : String
  temperature : Option Rat
  maxTokens : Option Nat
  topP : Option Rat
  topK : Option Int
  stream : Option Bool
  verbosity : Option String
  reasoning : Option OpenRouterRequestReasoning
  stop : Stop
  tools : List ToolCallRequest
  messages : List Message

inductive Failure where
  | error
  | panic
  deriving DecidableEq, Repr

def channelTypeOpenRouter : Nat := 20

/-- The name of the first block with the id. -/
def ClaudeRequest.searchToolNameByToolCallId (request : ClaudeRequest) (id : String) : String :=
  match (request.messages.flatMap fun m => (decodeBlocks m.content).getD []).find?
    fun b => b.id = id with
  | some block => block.name
  | none => ""

def ClaudeRequest.getEfforts (request : ClaudeRequest) : String :=
  match request.outputConfig with
  | some (.obj members) => (Json.textField? "effort" members).getD ""
  | _ => ""

def decodeTool : Json → Option ToolCallRequest
  | .null => some { function := {} }
  | .obj members => do
    let name ← Json.textField? "name" members
    let description ← Json.textField? "description" members
    match Json.field "input_schema" members with
    | .null => some { function := { name, description } }
    | .obj schema => some { function := { name, description, parameters := .obj schema } }
    | _ => none
  | _ => none

/-- Tools that cannot be decoded are all left out. -/
def openAITools : Json → List ToolCallRequest
  | .arr items => (items.mapM decodeTool).getD []
  | _ => []

section Messages

/-- What the blocks of one message have given so far. -/
structure Progress where
  mediaMessages : List MediaContent := []
  toolCalls : List ToolCallRequest := []
  messages : List Message := []

variable (formatOther : Json → String)

/-- `%s` of the data, which formats what is no text in its own way. -/
def dataText : Json → String
  | .str s => s
  | other => formatOther other

def imageUrl (source : ClaudeMessageSource) : String :=
  "data:" ++ source.mediaType ++ ";base64," ++ dataText formatOther source.data

def textPart (b : ClaudeMediaMessage) : MediaContent :=
  { type := "text", text := b.text.getD "", cacheControl := b.cacheControl }

def imagePart (source : ClaudeMessageSource) : MediaContent :=
  { type := "image_url", imageUrl := some { url := imageUrl formatOther source } }

def toolUseCall (b : ClaudeMediaMessage) : ToolCallRequest :=
  { id := b.id, function := { name := b.name, arguments := b.input.encode } }

def resultContent : Json → String
  | .str s => s
  | content => (parseMediaContent content).encode

def toolResultMessage (request : ClaudeRequest) (b : ClaudeMediaMessage) : Message :=
  { role := "tool"
    name := some (if b.name = "" then request.searchToolNameByToolCallId b.toolUseId else b.name)
    toolCallId := b.toolUseId
    content := .text (resultContent b.content) }

def isText (b : ClaudeMediaMessage) : Prop := b.type = "text" ∨ b.type = "input_text"

instance (b : ClaudeMediaMessage) : Decidable (isText b) :=
  inferInstanceAs (Decidable (_ ∨ _))

/-- An image without a source is a nil dereference, `none` here. -/
def addBlock (request : ClaudeRequest) (s : Progress) (b : ClaudeMediaMessage) : Option Progress :=
  if isText b then
    some { s with mediaMessages := s.mediaMessages ++ [textPart b] }
  else if b.type = "image" then
    b.source.map fun source =>
      { s with mediaMessages := s.mediaMessages ++ [imagePart formatOther source] }
  else if b.type = "tool_use" then
    some { s with toolCalls := s.toolCalls ++ [toolUseCall b] }
  else if b.type = "tool_result" then
    some { s with messages := s.messages ++ [toolResultMessage request b] }
  else some s

def ownMessage (role : String) (s : Progress) : Message :=
  if s.toolCalls ≠ [] then { role, toolCalls := s.toolCalls }
  else if s.mediaMessages ≠ [] then { role, content := .media s.mediaMessages }
  else { role }

def sent (m : Message) : List Message := if m.hasContent then [m] else []

def convertMessage (request : ClaudeRequest) (m : ClaudeMessage) : Except Failure (List Message) :=
  match m.content with
  | .str s => .ok (sent { role := m.role, content := .text s })
  | content =>
    match decodeBlocks content with
    | none => .error .error
    | some blocks =>
      match blocks.foldlM (addBlock formatOther request) {} with
      | none => .error .panic
      | some s => .ok (s.messages ++ sent (ownMessage m.role s))

def systemMessages (request : ClaudeRequest) (info : RelayInfo) : List Message :=
  match request.system with
  | .null => []
  | .str s => if s = "" then [] else [{ role := "system", content := .text s }]
  | system =>
    let systems := (decodeBlocks system).getD []
    if systems = [] then []
    else if info.channelType = channelTypeOpenRouter ∧
        info.upstreamModelName.startsWith "anthropic/claude" then
      [{ role := "system", content := .media (systems.map textPart) }]
    else [{ role := "system", content := .text (String.join (systems.map fun b => b.text.getD "")) }]

def openRouterReasoning (thinking : Thinking) : OpenRouterRequestReasoning :=
  if thinking.type = "enabled" then
    { enabled := true, maxTokens := thinking.budgetTokens.getD 0 }
  else if thinking.type = "adaptive" then { enabled := true }
  else {}

def claudeToOpenAIRequest (request : ClaudeRequest) (info : RelayInfo) :
    Except Failure GeneralOpenAIRequest := do
  let isOpenRouter := info.channelType = channelTypeOpenRouter
  let messages ← request.messages.mapM (convertMessage formatOther request)
  return {
    model :=
      if ¬ isOpenRouter ∧ info.originModelName.endsWith "-thinking" ∧
          ¬ request.model.endsWith "-thinking" then request.model ++ "-thinking"
      else request.model
    temperature := request.temperature
    maxTokens := request.maxTokens
    topP := request.topP
    topK := request.topK
    stream := request.stream
    verbosity := if isOpenRouter ∧ request.getEfforts ≠ "" then some request.getEfforts else none
    reasoning := if isOpenRouter then request.thinking.map openRouterReasoning else none
    stop := match request.stopSequences with
      | [] => .none
      | [sequence] => .one sequence
      | sequences => .many sequences
    tools := openAITools request.tools
    messages := systemMessages request info ++ messages.flatten }

end Messages

end CodeGo.Gateway.ClaudeConversion
