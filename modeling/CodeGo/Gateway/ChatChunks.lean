import CodeGo.Gateway.ClaudeStream

/-!
# What a client puts together

A client of a chat stream appends the texts of the deltas, files the deltas of the tool calls under
their indices, and keeps the last finish reason.
-/

namespace CodeGo.Gateway.ChatChunks

open ClaudeStream

theorem join_eq_empty {texts : List String} : String.join texts = "" ↔ ∀ t ∈ texts, t = "" := by
  induction texts with
  | nil => simp
  | cons t texts ih => simp [String.append_eq_empty_iff, ih]

/-- A delta of a tool call that was begun before; only a first delta has an id and a name. -/
def merge (toolCall delta : ToolCallResponse) : ToolCallResponse :=
  { toolCall with
    id := if delta.id = "" then toolCall.id else delta.id
    function :=
      { name := if delta.function.name = "" then toolCall.function.name else delta.function.name
        arguments := toolCall.function.arguments ++ delta.function.arguments } }

def addToolCall (toolCalls : List ToolCallResponse) (delta : ToolCallResponse) :
    List ToolCallResponse :=
  if toolCalls.any (·.index = delta.index) then
    toolCalls.map fun toolCall =>
      if toolCall.index = delta.index then merge toolCall delta else toolCall
  else toolCalls ++ [delta]

def addToolCalls (toolCalls deltas : List ToolCallResponse) : List ToolCallResponse :=
  deltas.foldl addToolCall toolCalls

@[simp] theorem addToolCalls_nil (toolCalls : List ToolCallResponse) :
    addToolCalls toolCalls [] = toolCalls := rfl

theorem addToolCalls_append (toolCalls xs ys : List ToolCallResponse) :
    addToolCalls toolCalls (xs ++ ys) = addToolCalls (addToolCalls toolCalls xs) ys :=
  List.foldl_append

def Free (index : Option Int) (toolCalls : List ToolCallResponse) : Prop :=
  ∀ toolCall ∈ toolCalls, toolCall.index ≠ index

theorem addToolCall_free {toolCalls : List ToolCallResponse} {delta : ToolCallResponse}
    (h : Free delta.index toolCalls) : addToolCall toolCalls delta = toolCalls ++ [delta] := by
  have hany : toolCalls.any (·.index = delta.index) = false := by
    simpa [Free] using h
  simp [addToolCall, hany]

theorem addToolCall_last (delta : ToolCallResponse) {toolCalls : List ToolCallResponse}
    {toolCall : ToolCallResponse} (h : Free delta.index toolCalls) (hindex : toolCall.index = delta.index) :
    addToolCall (toolCalls ++ [toolCall]) delta = toolCalls ++ [merge toolCall delta] := by
  have hkeep : toolCalls.map (fun t => if t.index = delta.index then merge t delta else t) =
      toolCalls := by
    conv_rhs => rw [← List.map_id toolCalls]
    apply List.map_congr_left
    intro t ht
    simp [h t ht]
  simp [addToolCall, hindex, hkeep]

/-- A delta that only brings arguments. -/
def argumentsDelta (index : Option Int) (arguments : String) : ToolCallResponse :=
  { index, function := { arguments } }

theorem addToolCalls_arguments {toolCalls : List ToolCallResponse} {toolCall : ToolCallResponse}
    {index : Option Int} (h : Free index toolCalls) (hindex : toolCall.index = index)
    (texts : List String) :
    addToolCalls (toolCalls ++ [toolCall]) (texts.map (argumentsDelta index)) =
      toolCalls ++ [{ toolCall with function :=
        { toolCall.function with
          arguments := toolCall.function.arguments ++ String.join texts } }] := by
  induction texts generalizing toolCall with
  | nil => simp
  | cons text texts ih =>
    have hstep := addToolCall_last (argumentsDelta index text) h hindex
    have hmerged : (merge toolCall (argumentsDelta index text)).index = index := hindex
    rw [List.map_cons, addToolCalls, List.foldl_cons, hstep, ← addToolCalls, ih hmerged]
    simp [merge, argumentsDelta, String.append_assoc]

/-- A message has no indices of its tool calls. -/
def unindexed (call : ToolCallResponse) : ToolCallResponse := { call with index := none }

/-- A chat message with the reason why it ended. -/
structure Message where
  content : String := ""
  reasoning : String := ""
  toolCalls : List ToolCallResponse := []
  finishReason : Option String := none
  deriving DecidableEq, Repr

def contentOf (choices : List Choice) : String :=
  String.join (choices.map fun c => c.delta.getContentString)

def reasoningOf (choices : List Choice) : String :=
  String.join (choices.map fun c => c.delta.getReasoningContent)

def toolDeltasOf (choices : List Choice) : List ToolCallResponse :=
  choices.flatMap fun c => c.delta.toolCalls

def finishReasonOf (choices : List Choice) : Option String :=
  (choices.filterMap (·.finishReason)).getLast?

def accumulate (choices : List Choice) : Message :=
  { content := contentOf choices
    reasoning := reasoningOf choices
    toolCalls := addToolCalls [] (toolDeltasOf choices)
    finishReason := finishReasonOf choices }

theorem contentOf_append (xs ys : List Choice) :
    contentOf (xs ++ ys) = contentOf xs ++ contentOf ys := by
  simp [contentOf, String.join_append]

theorem reasoningOf_append (xs ys : List Choice) :
    reasoningOf (xs ++ ys) = reasoningOf xs ++ reasoningOf ys := by
  simp [reasoningOf, String.join_append]

theorem toolDeltasOf_append (xs ys : List Choice) :
    toolDeltasOf (xs ++ ys) = toolDeltasOf xs ++ toolDeltasOf ys :=
  List.flatMap_append

end CodeGo.Gateway.ChatChunks
