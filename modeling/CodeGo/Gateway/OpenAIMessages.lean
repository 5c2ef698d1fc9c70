import CodeGo.Lib.Json

/-!
# Chat messages

`dto/openai_request.go`: the messages the translations produce. The content of a message is
nothing, a text, or a list of parts; tool calls are kept as the list that is encoded.
-/

namespace CodeGo.Gateway.OpenAIMessages

open Lib (Json)

structure MessageImageUrl where
  url : String
  detail : String := ""
  mimeType : String := ""
  deriving Repr

structure MediaContent where
  type : String
  text : String := ""
  imageUrl : Option MessageImageUrl := none
  cacheControl : Option Json := none
  deriving Repr

structure FunctionRequest where
  description : String := ""
  name : String := ""
  parameters : Json := .null
  arguments : String := ""
  deriving Repr

structure ToolCallRequest where
  id : String := ""
  type : String := "function"
  function : FunctionRequest
  deriving Repr

inductive MessageContent where
  | null
  | text (content : String)
  | media (content : List MediaContent)
  deriving Repr

structure Message where
  role : String
  content : MessageContent := .null
  name : Option String := none
  toolCalls : List ToolCallRequest := []
  toolCallId : String := ""
  deriving Repr

/-- The content as parts, a text being one part. -/
def Message.parseContent (m : Message) : List MediaContent :=
  match m.content with
  | .null => []
  | .text content => [⟨"text", content, none, none⟩]
  | .media content => content

/-- A message with neither content nor tool calls is not sent. -/
def Message.hasContent (m : Message) : Bool :=
  !m.parseContent.isEmpty || !m.toolCalls.isEmpty

def toolCalls (messages : List Message) : List ToolCallRequest := messages.flatMap (·.toolCalls)

def toolMessages (messages : List Message) : List Message :=
  messages.filter fun m => m.role = "tool"

end CodeGo.Gateway.OpenAIMessages
