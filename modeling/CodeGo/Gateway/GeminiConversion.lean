import CodeGo.Gateway.OpenAIMessages
import Mathlib.Data.List.Nodup
import Mathlib.Data.Rat.Floor

/-!
# Gemini requests as chat requests

`GeminiToOpenAIRequest`: contents become messages. Gemini names no calls, so the conversion makes
ids up: it counts the calls of one content, and a response takes the count that the calls of its
own content have reached.
-/

namespace CodeGo.Gateway.GeminiConversion

open Lib (Json)
open OpenAIMessages

structure GeminiInlineData where
  mimeType : String
  data : String

structure GeminiFileData where
  mimeType : String
  fileUri : String

structure FunctionCall where
  functionName : String
  arguments : Json := .null

structure GeminiFunctionResponse where
  name : String
  response : Json := .null

structure GeminiPart where
  text : String := ""
  inlineData : Option GeminiInlineData := none
  fileData : Option GeminiFileData := none
  functionCall : Option FunctionCall := none
  functionResponse : Option GeminiFunctionResponse := none

structure GeminiChatContent where
  role : String := ""
  parts : List GeminiPart := []

/-- A decoded slice: its elements, and the empty places behind them that were allocated too. -/
structure Slice where
  items : List String := []
  spare : Nat := 0

/-- `s[:n]`, which panics only where the allocation ends. -/
def Slice.upTo (s : Slice) (n : Nat) : Option (List String) :=
  if n ≤ s.items.length + s.spare then
    some ((s.items ++ List.replicate s.spare "").take n)
  else none

structure GeminiChatGenerationConfig where
  temperature : Option Rat := none
  topP : Option Rat := none
  topK : Option Rat := none
  maxOutputTokens : Option Nat := none
  candidateCount : Option Int := none
  stopSequences : Slice := {}

structure GeminiChatRequest where
  contents : List GeminiChatContent
  generationConfig : GeminiChatGenerationConfig := {}
  tools : Option Json := none
  systemInstructions : Option GeminiChatContent := none

structure RelayInfo where
  upstreamModelName : String
  isStream : Bool

structure GeneralOpenAIRequest where
  model : String
  stream : Bool
  messages : List Message
  temperature : Option Rat
  topP : Option Rat
  topK : Option Int
  maxTokens : Option Nat
  stop : Option (List String)
  n : Option Int
  tools : List ToolCallRequest

def convertGeminiRoleToOpenAI (geminiRole : String) : String :=
  if geminiRole = "user" then "user"
  else if geminiRole = "model" then "assistant"
  else if geminiRole = "function" then "function"
  else "user"

def callId (n : Nat) : String := "call_" ++ toString n

/-- What the parts of one content have given so far. -/
structure Progress where
  mediaContents : List MediaContent := []
  toolCalls : List ToolCallRequest := []
  messages : List Message := []

def dataUrl (mimeType data : String) : String := "data:" ++ mimeType ++ ";base64," ++ data

def imageContent (url mimeType : String) : MediaContent :=
  { type := "image_url", imageUrl := some ⟨url, "auto", mimeType⟩ }

def toolCall (n : Nat) (call : FunctionCall) : ToolCallRequest :=
  { id := callId n
    function := { name := call.functionName, arguments := call.arguments.encode } }

def toolMessage (n : Nat) (response : GeminiFunctionResponse) : Message :=
  { role := "tool", toolCallId := callId n, content := .text response.response.encode }

def addPart (s : Progress) (part : GeminiPart) : Progress :=
  if part.text ≠ "" then
    { s with mediaContents := s.mediaContents ++ [{ type := "text", text := part.text }] }
  else match part.inlineData with
  | some d =>
    { s with mediaContents := s.mediaContents ++
        [imageContent (dataUrl d.mimeType d.data) d.mimeType] }
  | none => match part.fileData with
    | some d =>
      { s with mediaContents := s.mediaContents ++ [imageContent d.fileUri d.mimeType] }
    | none => match part.functionCall with
      | some call =>
        { s with toolCalls := s.toolCalls ++ [toolCall (s.toolCalls.length + 1) call] }
      | none => match part.functionResponse with
        | some response =>
          { s with messages := s.messages ++ [toolMessage s.toolCalls.length response] }
        | none => s

def contentMessage (role : String) (s : Progress) : Message :=
  let message : Message := { role := convertGeminiRoleToOpenAI role }
  if s.toolCalls ≠ [] then { message with toolCalls := s.toolCalls }
  else match s.mediaContents with
  | [] => message
  | [m] =>
    if m.type = "text" then { message with content := .text m.text }
    else { message with content := .media [m] }
  | ms => { message with content := .media ms }

/-- The responses of a content stand before the message it becomes. -/
def contentMessages (content : GeminiChatContent) : List Message :=
  let s := content.parts.foldl addPart {}
  let message := contentMessage content.role s
  s.messages ++ if message.hasContent then [message] else []

def extractTextFromGeminiParts (parts : List GeminiPart) : String :=
  String.intercalate "\n" ((parts.map (·.text)).filter (· ≠ ""))

/-- The instructions come first. -/
def withSystem (instructions : Option GeminiChatContent) (messages : List Message) : List Message :=
  match instructions with
  | some content =>
    { role := "system", content := .text (extractTextFromGeminiParts content.parts) } :: messages
  | none => messages

/-- A tool is decoded from an object, or from null, and leaves its declarations. -/
def decodeTool : Json → Option Json
  | .obj members => some (Json.field "functionDeclarations" members)
  | .null => some .null
  | _ => none

/-- Reports an error of the decoder with a nil context, which panics. -/
def getTools (tools : Option Json) : Option (List Json) :=
  match tools with
  | some (.arr items) => items.mapM decodeTool
  | some (.obj members) => some [Json.field "functionDeclarations" members]
  | _ => some []

def decodeFunction : Json → Option FunctionRequest
  | .obj members => do
    let description ← Json.textField? "description" members
    let name ← Json.textField? "name" members
    let arguments ← Json.textField? "arguments" members
    some ⟨description, name, Json.field "parameters" members, arguments⟩
  | .null => some {}
  | _ => none

/-- Declarations that cannot be decoded are logged and left out. -/
def declaredFunctions : Json → List ToolCallRequest
  | .arr items =>
    match items.mapM decodeFunction with
    | some functions => functions.map fun f =>
        { function := { name := f.name, description := f.description, parameters := f.parameters } }
    | none => []
  | _ => []

/-- A panic is `none`. -/
def geminiToOpenAIRequest (geminiRequest : GeminiChatRequest) (info : RelayInfo) :
    Option GeneralOpenAIRequest := do
  let config := geminiRequest.generationConfig
  let messages := geminiRequest.contents.flatMap contentMessages
  let stop ← if config.stopSequences.items ≠ [] then (config.stopSequences.upTo 4).map some
    else some none
  let tools ← getTools geminiRequest.tools
  some
    { model := info.upstreamModelName
      stream := info.isStream
      messages := withSystem geminiRequest.systemInstructions messages
      temperature := config.temperature
      topP := config.topP.filter (0 < ·)
      topK := (config.topK.filter (0 < ·)).map Int.floor
      maxTokens := config.maxOutputTokens.filter (0 < ·)
      stop := stop
      n := config.candidateCount.filter (0 < ·)
      tools := tools.flatMap declaredFunctions }

/-- A call of a function, or a response of one, as it stands in the conversation. -/
inductive Exchange where
  | call (name : String)
  | response (name : String)
  deriving DecidableEq, Repr

/-- A part is read as a text, as data, as a call or as a response, whichever it has first. -/
def exchangeOf (part : GeminiPart) : Option Exchange :=
  if part.text ≠ "" then none
  else match part.inlineData, part.fileData, part.functionCall, part.functionResponse with
  | none, none, some call, _ => some (.call call.functionName)
  | none, none, none, some response => some (.response response.name)
  | _, _, _, _ => none

def exchanges (content : GeminiChatContent) : List Exchange := content.parts.filterMap exchangeOf

def callNames (es : List Exchange) : List String :=
  es.filterMap fun e => match e with
    | .call name => some name
    | .response _ => none

def responseNames (es : List Exchange) : List String :=
  es.filterMap fun e => match e with
    | .call _ => none
    | .response name => some name

/-- The number a call gets, and the number a response refers to. -/
def number (n : Nat) : List Exchange → List (Nat × Exchange)
  | [] => []
  | .call name :: es => (n + 1, .call name) :: number (n + 1) es
  | .response name :: es => (n, .response name) :: number n es

def callsIn (trace : List (Nat × Exchange)) : List (String × Nat) :=
  trace.filterMap fun e => match e with
    | (n, .call name) => some (name, n)
    | (_, .response _) => none

def repliesIn (trace : List (Nat × Exchange)) : List Nat :=
  trace.filterMap fun e => match e with
    | (n, .response _) => some n
    | (_, .call _) => none

@[simp] theorem callNames_call (name : String) (es : List Exchange) :
    callNames (.call name :: es) = name :: callNames es := rfl

@[simp] theorem callNames_response (name : String) (es : List Exchange) :
    callNames (.response name :: es) = callNames es := rfl

@[simp] theorem callsIn_call (n : Nat) (name : String) (t : List (Nat × Exchange)) :
    callsIn ((n, .call name) :: t) = (name, n) :: callsIn t := rfl

@[simp] theorem callsIn_response (n : Nat) (name : String) (t : List (Nat × Exchange)) :
    callsIn ((n, .response name) :: t) = callsIn t := rfl

@[simp] theorem repliesIn_call (n : Nat) (name : String) (t : List (Nat × Exchange)) :
    repliesIn ((n, .call name) :: t) = repliesIn t := rfl

@[simp] theorem repliesIn_response (n : Nat) (name : String) (t : List (Nat × Exchange)) :
    repliesIn ((n, .response name) :: t) = n :: repliesIn t := rfl

/-- The tool calls by name and id. -/
def issued (calls : List ToolCallRequest) : List (String × String) :=
  calls.map fun c => (c.function.name, c.id)

def named (calls : List (String × Nat)) : List (String × String) :=
  calls.map fun c => (c.1, callId c.2)

/-- All a part can do to the calls and the responses. -/
theorem addPart_cases (s : Progress) (part : GeminiPart) :
    (exchangeOf part = none ∧ (addPart s part).toolCalls = s.toolCalls ∧
      (addPart s part).messages = s.messages) ∨
    (∃ call, exchangeOf part = some (.call call.functionName) ∧
      (addPart s part).toolCalls = s.toolCalls ++ [toolCall (s.toolCalls.length + 1) call] ∧
      (addPart s part).messages = s.messages) ∨
    (∃ response, exchangeOf part = some (.response response.name) ∧
      (addPart s part).toolCalls = s.toolCalls ∧
      (addPart s part).messages = s.messages ++ [toolMessage s.toolCalls.length response]) := by
  unfold addPart exchangeOf
  by_cases htext : part.text = ""
  · rw [if_neg (not_not.2 htext), if_neg (not_not.2 htext)]
    cases part.inlineData with
    | some d => exact .inl ⟨rfl, rfl, rfl⟩
    | none =>
      cases part.fileData with
      | some d => exact .inl ⟨rfl, rfl, rfl⟩
      | none =>
        cases part.functionCall with
        | some call => exact .inr (.inl ⟨call, rfl, rfl, rfl⟩)
        | none =>
          cases part.functionResponse with
          | some response => exact .inr (.inr ⟨response, rfl, rfl, rfl⟩)
          | none => exact .inl ⟨rfl, rfl, rfl⟩
  · rw [if_pos htext, if_pos htext]
    exact .inl ⟨rfl, rfl, rfl⟩

/-- What the parts add is what they are numbered. -/
theorem addPart_number (parts : List GeminiPart) (s : Progress)
    (hs : ∀ m ∈ s.messages, m.role = "tool" ∧ m.toolCalls = []) :
    issued (parts.foldl addPart s).toolCalls =
        issued s.toolCalls ++
          named (callsIn (number s.toolCalls.length (parts.filterMap exchangeOf))) ∧
      (parts.foldl addPart s).messages.map (·.toolCallId) =
        s.messages.map (·.toolCallId) ++
          (repliesIn (number s.toolCalls.length (parts.filterMap exchangeOf))).map callId ∧
      ∀ m ∈ (parts.foldl addPart s).messages, m.role = "tool" ∧ m.toolCalls = [] := by
  induction parts generalizing s with
  | nil => exact ⟨by simp [number, callsIn, named], by simp [number, repliesIn], hs⟩
  | cons part parts ih =>
    rw [List.foldl_cons]
    rcases addPart_cases s part with ⟨hpart, hcalls, hmessages⟩ |
      ⟨call, hpart, hcalls, hmessages⟩ | ⟨response, hpart, hcalls, hmessages⟩
    · have hnext := ih (addPart s part) (by rw [hmessages]; exact hs)
      rw [hcalls, hmessages] at hnext
      rw [List.filterMap_cons_none hpart]
      exact hnext
    · have hnext := ih (addPart s part) (by rw [hmessages]; exact hs)
      rw [hcalls, hmessages] at hnext
      rw [List.filterMap_cons_some hpart]
      obtain ⟨h₁, h₂, h₃⟩ := hnext
      refine ⟨?_, ?_, h₃⟩
      · rw [h₁]
        simp [issued, named, number, toolCall]
      · rw [h₂]
        simp [number]
    · have hnext := ih (addPart s part) (by
        rw [hmessages]
        intro m hm
        rcases List.mem_append.1 hm with hm | hm
        · exact hs m hm
        · rw [List.mem_singleton.1 hm]
          exact ⟨rfl, rfl⟩)
      rw [hcalls, hmessages] at hnext
      rw [List.filterMap_cons_some hpart]
      obtain ⟨h₁, h₂, h₃⟩ := hnext
      refine ⟨?_, ?_, h₃⟩
      · rw [h₁]
        simp [number]
      · rw [h₂]
        simp [number, toolMessage]

theorem contentMessage_toolCalls (role : String) (s : Progress) :
    (contentMessage role s).toolCalls = s.toolCalls := by
  unfold contentMessage
  by_cases hcalls : s.toolCalls = []
  · rw [if_neg (not_not.2 hcalls), hcalls]
    simp only
    split
    · rfl
    · split <;> rfl
    · rfl
  · rw [if_pos hcalls]

theorem convertRole_ne_tool (role : String) : convertGeminiRoleToOpenAI role ≠ "tool" := by
  unfold convertGeminiRoleToOpenAI
  split <;> [decide; split <;> [decide; split <;> decide]]

theorem contentMessage_role (role : String) (s : Progress) :
    (contentMessage role s).role = convertGeminiRoleToOpenAI role := by
  unfold contentMessage
  simp only
  split
  · rfl
  · split
    · rfl
    · split <;> rfl
    · rfl

/-- The trace of one content. -/
def contentTrace (content : GeminiChatContent) : List (Nat × Exchange) :=
  number 0 (exchanges content)

theorem contentMessages_trace (content : GeminiChatContent) :
    issued (toolCalls (contentMessages content)) = named (callsIn (contentTrace content)) ∧
      (toolMessages (contentMessages content)).map (·.toolCallId) =
        (repliesIn (contentTrace content)).map callId := by
  obtain ⟨hcalls, hreplies, htool⟩ := addPart_number content.parts {} (by simp)
  have hmessages : ∀ ms : List Message, (∀ m ∈ ms, m.role = "tool" ∧ m.toolCalls = []) →
      ms.flatMap (·.toolCalls) = [] ∧ ms.filter (fun m => m.role = "tool") = ms := by
    intro ms hms
    constructor
    · rw [List.flatMap_eq_nil_iff]
      exact fun m hm => (hms m hm).2
    · rw [List.filter_eq_self]
      exact fun m hm => by simp [(hms m hm).1]
  obtain ⟨hnone, hall⟩ := hmessages _ htool
  unfold contentMessages
  generalize content.parts.foldl addPart {} = s at *
  have hown := contentMessage_toolCalls content.role s
  have hrole : (contentMessage content.role s).role ≠ "tool" := by
    rw [contentMessage_role]
    exact convertRole_ne_tool _
  simp only [toolCalls, toolMessages, List.flatMap_append, List.filter_append, hnone, hall,
    List.nil_append, List.map_append, hreplies]
  constructor
  · have hlast : (if (contentMessage content.role s).hasContent then
        [contentMessage content.role s] else []).flatMap (·.toolCalls) = s.toolCalls := by
      split
      · rw [List.flatMap_singleton, hown]
      next hempty =>
        rw [Message.hasContent, hown] at hempty
        simp only [Bool.or_eq_true, Bool.not_eq_true', not_or, Bool.not_eq_false,
          List.isEmpty_iff] at hempty
        rw [hempty.2, List.flatMap_nil]
    rw [hlast, hcalls]
    rfl
  · have hlast : (if (contentMessage content.role s).hasContent then
        [contentMessage content.role s] else []).filter (fun m => m.role = "tool") = [] := by
      split <;> simp [hrole]
    rw [hlast, List.map_nil, List.append_nil]
    rfl

end CodeGo.Gateway.GeminiConversion
