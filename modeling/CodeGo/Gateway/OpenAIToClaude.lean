import CodeGo.Lib.Json
import CodeGo.Lib.Trim
import Mathlib.Algebra.Ring.Nat

/-!
# Chat requests as Claude requests

`RequestOpenAI2ClaudeMessage`: the tools, the stop sequences and the messages. A first loop joins
texts of one role and fills in empty contents; a second one puts the system texts aside and moves
the results of tools into user messages.
-/

namespace CodeGo.Gateway.OpenAIToClaude

open Lib (Json)
open Lib.Trim (trimList)

structure Function where
  name : String := ""
  description : String := ""
  parameters : Json := .null

/-- A message of the request. Its tool calls are kept as they stand until they are read. -/
structure Message where
  role : String
  content : Json := .null
  toolCalls : Option Json := none
  toolCallId : String := ""

structure GeneralOpenAIRequest where
  tools : List Function := []
  stop : Json := .null
  messages : List Message := []

structure ToolCall where
  id : String := ""
  name : String := ""
  arguments : String := ""
  deriving DecidableEq, Repr

/-- A text field of a decoder that goes on after an error. -/
def lenientText (name : String) (members : List (String × Json)) : String :=
  (members.filter fun m => Json.fieldMatches name m.1).foldl (fun text m =>
    match m.2 with
    | .str s => s
    | _ => text) ""

def decodeCall : Json → ToolCall
  | .obj members =>
    match Json.field "function" members with
    | .obj function =>
      ⟨lenientText "id" members, lenientText "name" function, lenientText "arguments" function⟩
    | _ => ⟨lenientText "id" members, "", ""⟩
  | _ => {}

/-- What was decoded before and after an error is returned with it. -/
def parseToolCalls : Option Json → List ToolCall
  | some (.arr items) => items.map decodeCall
  | _ => []

inductive Failure where
  | error
  | panic
  deriving DecidableEq, Repr

structure Tool where
  name : String
  description : String
  inputSchema : List (String × Json)

def keptParameter (m : String × Json) : Bool :=
  !(m.1 == "type" || m.1 == "properties" || m.1 == "required")

def inputSchema (type : Option String) (parameters : List (String × Json)) : List (String × Json) :=
  (type.toList.map fun t => ("type", .str t)) ++
    [("properties", (Json.get? "properties" parameters).getD .null),
      ("required", (Json.get? "required" parameters).getD .null)] ++
    parameters.filter keptParameter

/-- A function without an object for its parameters is left out; a type that is no text is asserted
to be one. -/
def convertTool (f : Function) : Except Failure (List Tool) :=
  match f.parameters with
  | .obj parameters =>
    match (Json.get? "type" parameters).getD .null with
    | .null => .ok [⟨f.name, f.description, inputSchema none parameters⟩]
    | .str type => .ok [⟨f.name, f.description, inputSchema (some type) parameters⟩]
    | _ => .error .panic
  | _ => .ok []

def stopText : Json → Except Failure String
  | .str s => .ok s
  | _ => .error .panic

def stopSequences : Json → Except Failure (List String)
  | .str s => .ok [s]
  | .arr items => items.mapM stopText
  | _ => .ok []

/-- A message with its texts joined. -/
structure FormatMessage where
  role : String
  content : Json
  toolCalls : Option Json
  toolCallId : String

def isStringContent : Json → Bool
  | .str _ => true
  | _ => false

def stringContent : Json → String
  | .str s => s
  | _ => ""

def fmtMessage (m : Message) : FormatMessage where
  role := m.role
  content := m.content
  toolCalls := if m.role = "assistant" then m.toolCalls else none
  toolCallId := if m.role = "tool" then m.toolCallId else ""

/-- `strings.Trim` of quotes. -/
def trimQuotes (s : String) : String := String.ofList (trimList (· == '"') s.toList)

def fillContent (f : FormatMessage) : FormatMessage :=
  match f.content with
  | .null => { f with content := .str "..." }
  | .str s => if s = "" then { f with content := .str "..." } else f
  | _ => f

/-- The messages so far, and the last one, which begins as a tool message. -/
structure Formatting where
  messages : List FormatMessage := []
  last : FormatMessage := ⟨"tool", .null, none, ""⟩

def joins (last : FormatMessage) (m : Message) : Bool :=
  last.role == m.role && last.role != "tool" && isStringContent last.content &&
    isStringContent m.content

def joined (last : FormatMessage) (m : Message) : FormatMessage :=
  { fmtMessage m with
    content := .str (trimQuotes (stringContent last.content ++ " " ++ stringContent m.content)) }

def formatStep (s : Formatting) (m : Message) : Formatting :=
  if joins s.last m then
    let f := fillContent (joined s.last m)
    ⟨s.messages.dropLast ++ [f], f⟩
  else
    let f := fillContent (fmtMessage m)
    ⟨s.messages ++ [f], f⟩

def formatMessages (messages : List Message) : List FormatMessage :=
  (messages.foldl formatStep {}).messages

section Conversion

/-- A part of a content: a text, or something else. -/
inductive ContentPart where
  | text (s : String)
  | other (item : Json)

def contentPart : Json → Option ContentPart
  | .obj members =>
    match Json.get? "type" members with
    | some (.str type) =>
      if type = "text" then
        match Json.get? "text" members with
        | some (.str s) => some (.text s)
        | _ => none
      else some (.other (.obj members))
    | _ => none
  | _ => none

def parseContent : Json → List ContentPart
  | .str s => [.text s]
  | .arr items => items.filterMap contentPart
  | _ => []

/-- A block of a Claude message; what a file becomes is left open. -/
inductive Block (F : Type) where
  | text (s : String)
  | file (f : F)
  | toolUse (id name : String) (input : Json)
  | toolResult (id : String) (content : Json)

inductive ClaudeContent (F : Type) where
  | text (s : String)
  | blocks (bs : List (Block F))

structure ClaudeMessage (F : Type) where
  role : String
  content : ClaudeContent F

/-- The texts of a content, without the empty ones. -/
def texts (content : Json) : List String :=
  (parseContent content).filterMap fun p => match p with
    | .text s => if s = "" then none else some s
    | .other _ => none

variable {F : Type} (convertFile : Json → Option (Option F)) (unmarshal : String → Option Json)

/-- A file that cannot be converted is an error, and one of a kind that has no block is skipped. -/
def convertPart : ContentPart → Except Failure (List (Block F))
  | .text s => .ok (if s = "" then [] else [.text s])
  | .other item =>
    match convertFile item with
    | some f => .ok (f.toList.map .file)
    | none => .error .error

/-- Arguments that are neither an object nor null are logged and the call is left out. -/
def convertCall (c : ToolCall) : Option (Block F) :=
  match unmarshal c.arguments with
  | some (.obj members) => some (.toolUse c.id c.name (.obj members))
  | some .null => some (.toolUse c.id c.name .null)
  | _ => none

def mediaBlocks (f : FormatMessage) : Except Failure (List (Block F)) := do
  let parts ← (parseContent f.content).mapM (convertPart convertFile)
  return parts.flatten ++ (parseToolCalls f.toolCalls).filterMap (convertCall unmarshal)

structure Progress (F : Type) where
  claudeMessages : List (ClaudeMessage F) := []
  isFirstMessage : Bool := true
  systemMessages : List String := []

def placeholder : ClaudeMessage F := ⟨"user", .blocks [.text "..."]⟩

/-- The first message is to be one of the user. -/
def begun (s : Progress F) (f : FormatMessage) : List (ClaudeMessage F) :=
  if s.isFirstMessage ∧ f.role ≠ "user" then s.claudeMessages ++ [placeholder]
  else s.claudeMessages

def toolResult (f : FormatMessage) : Block F := .toolResult f.toolCallId f.content

def contentBlocks : ClaudeContent F → List (Block F)
  | .text s => [.text s]
  | .blocks bs => bs

/-- A result joins the user message before it. -/
def addToolResult (messages : List (ClaudeMessage F)) (f : FormatMessage) : List (ClaudeMessage F) :=
  match messages.getLast? with
  | some last =>
    if last.role = "user" then
      messages.dropLast ++ [⟨"user", .blocks (contentBlocks last.content ++ [toolResult f])⟩]
    else messages ++ [⟨"user", .blocks [toolResult f]⟩]
  | none => messages ++ [⟨"user", .blocks [toolResult f]⟩]

def ownContent (f : FormatMessage) : Except Failure (ClaudeContent F) :=
  match f.content, f.toolCalls with
  | .str s, none => .ok (.text (if s = "" then "..." else s))
  | _, _ => (mediaBlocks convertFile unmarshal f).map .blocks

def addMessage (s : Progress F) (f : FormatMessage) : Except Failure (Progress F) :=
  if f.role = "system" then
    .ok { s with systemMessages := s.systemMessages ++ texts f.content }
  else if f.role = "tool" then
    .ok { s with claudeMessages := addToolResult (begun s f) f, isFirstMessage := false }
  else do
    let content ← ownContent convertFile unmarshal f
    return { s with claudeMessages := begun s f ++ [⟨f.role, content⟩], isFirstMessage := false }

structure ClaudeRequest (F : Type) where
  tools : List Tool
  stopSequences : List String
  system : List String
  messages : List (ClaudeMessage F)

def requestOpenAI2ClaudeMessage (request : GeneralOpenAIRequest) :
    Except Failure (ClaudeRequest F) := do
  let tools ← request.tools.mapM convertTool
  let stop ← stopSequences request.stop
  let s ← (formatMessages request.messages).foldlM (addMessage convertFile unmarshal) {}
  return ⟨tools.flatten, stop, s.systemMessages, s.claudeMessages⟩

end Conversion

end CodeGo.Gateway.OpenAIToClaude
