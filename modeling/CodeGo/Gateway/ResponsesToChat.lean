import CodeGo.Gateway.ChatChunks
import CodeGo.Lib.Trim
import Mathlib.Data.List.Basic

/-!
# Responses as chat messages

`OaiResponsesToChatStreamHandler` turns the events of a Responses stream into chunks, and
`ResponsesResponseToChatCompletionsResponse` a whole response into a chat message. Events are taken
as they were parsed, for a client of the chat format to which every chunk can be sent. Times and
usages are left out.
-/

namespace CodeGo.Gateway.ResponsesToChat

open ClaudeStream ChatChunks
open CodeGo.Lib.Trim (trimSpace)

structure ResponsesOutputContent where
  type : String
  text : String := ""
  deriving DecidableEq, Repr

/-- An item of the output; `arguments` are those of `ArgumentsString`. -/
structure ResponsesOutput where
  type : String
  id : String := ""
  role : String := ""
  content : List ResponsesOutputContent := []
  callID : String := ""
  name : String := ""
  arguments : String := ""
  deriving DecidableEq, Repr

structure ResponsesResponse where
  model : String := ""
  output : List ResponsesOutput := []
  deriving DecidableEq, Repr

structure ResponsesStreamResponse where
  type : String
  response : Option ResponsesResponse := none
  delta : String := ""
  item : Option ResponsesOutput := none
  itemID : String := ""
  deriving DecidableEq, Repr

section Stream

abbrev Chunk := StreamResponse Unit

structure StreamState where
  model : String := ""
  outputText : String := ""
  sentStart : Bool := false
  sentStop : Bool := false
  sawToolCall : Bool := false
  /-- The type of the event that ended the stream with an error. -/
  streamErr : Option String := none
  toolCallIndexByID : List (String × Nat) := []
  toolCallNameByID : String → String := fun _ => ""
  toolCallArgsByID : String → String := fun _ => ""
  toolCallNameSent : String → Bool := fun _ => false
  toolCallCanonicalIDByItemID : String → String := fun _ => ""
  hasSentReasoningSummary : Bool := false
  needsReasoningSummarySeparator : Bool := false

def put {A : Type} (m : String → A) (key : String) (value : A) : String → A :=
  fun k => if k = key then value else m k

/-- The state after an event, and the chunks that were sent. -/
abbrev Step := StreamState × List Chunk

def Step.andThen (x : Step) (f : StreamState → Step) : Step := ((f x.1).1, x.2 ++ (f x.1).2)

variable (responseID : String)

def generateStartEmptyResponse (model : String) : Chunk :=
  { id := responseID, model, choices := [{ delta := { content := some "" } }] }

def generateStopResponse (model finishReason : String) : Chunk :=
  { id := responseID, model, choices := [{ delta := {}, finishReason := some finishReason }] }

def sendDelta (delta : ChoiceDelta) (st : StreamState) : Step :=
  (st, [{ id := responseID, model := st.model, choices := [{ delta }] }])

def sendStartIfNeeded (st : StreamState) : Step :=
  if st.sentStart then (st, [])
  else ({ st with sentStart := true }, [generateStartEmptyResponse responseID st.model])

def hasPrefix (s p : String) : Bool := p.toList.isPrefixOf s.toList

/-- A summary is set off from the one before it by two line breaks. -/
def separated (delta : String) : String :=
  if hasPrefix delta "\n\n" then delta
  else if hasPrefix delta "\n" then "\n" ++ delta
  else "\n\n" ++ delta

def sendReasoningSummaryDelta (delta : String) (st : StreamState) : Step :=
  if delta = "" then (st, [])
  else
    let delta := if st.needsReasoningSummarySeparator then separated delta else delta
    let st := { st with needsReasoningSummarySeparator := false }
    ((sendStartIfNeeded responseID st).andThen
      (sendDelta responseID { reasoningContent := some delta })).andThen fun st =>
        ({ st with hasSentReasoningSummary := true }, [])

def callIndex (callID : String) (st : StreamState) : StreamState × Nat :=
  match st.toolCallIndexByID.lookup callID with
  | some idx => (st, idx)
  | none =>
    let idx := st.toolCallIndexByID.length
    ({ st with toolCallIndexByID := st.toolCallIndexByID ++ [(callID, idx)] }, idx)

/-- The name of a call is sent once. -/
def callName (callID name : String) (st : StreamState) : StreamState × String :=
  let st := if name ≠ "" then
      { st with toolCallNameByID := put st.toolCallNameByID callID name }
    else st
  let name := if st.toolCallNameByID callID ≠ "" then st.toolCallNameByID callID else name
  if name ≠ "" ∧ st.toolCallNameSent callID = false then
    ({ st with toolCallNameSent := put st.toolCallNameSent callID true }, name)
  else (st, "")

/-- Tool calls are left out behind a text, as they are in a whole response. -/
def sendToolCallDelta (callID name argsDelta : String) (st : StreamState) : Step :=
  if callID = "" then (st, [])
  else if st.outputText ≠ "" then (st, [])
  else
    (sendStartIfNeeded responseID st).andThen fun st =>
      let (st, idx) := callIndex callID st
      let (st, name) := callName callID name st
      let tool : ToolCallResponse :=
        { index := some (idx : Int), id := callID, function := { name, arguments := argsDelta } }
      (sendDelta responseID { toolCalls := [tool] } st).andThen fun st =>
        ({ st with sawToolCall := true }, [])

def sendOutputText (delta : String) (st : StreamState) : Step :=
  (sendStartIfNeeded responseID st).andThen fun st =>
    if delta ≠ "" then
      sendDelta responseID { content := some delta }
        { st with outputText := st.outputText ++ delta }
    else (st, [])

def itemCallID (item : ResponsesOutput) : String :=
  if trimSpace item.callID = "" then trimSpace item.id else trimSpace item.callID

/-- What the arguments have more than those that were sent. -/
def argsSince (newArgs prevArgs : String) : String :=
  if newArgs = "" then ""
  else if hasPrefix newArgs prevArgs then
    String.ofList (newArgs.toList.drop prevArgs.toList.length)
  else newArgs

def functionCallItem (item : ResponsesOutput) (st : StreamState) : Step :=
  let itemID := trimSpace item.id
  let callID := itemCallID item
  let st := if itemID ≠ "" ∧ callID ≠ "" then
      { st with toolCallCanonicalIDByItemID := put st.toolCallCanonicalIDByItemID itemID callID }
    else st
  let name := trimSpace item.name
  let st := if name ≠ "" then
      { st with toolCallNameByID := put st.toolCallNameByID callID name }
    else st
  let newArgs := item.arguments
  let argsDelta := argsSince newArgs (st.toolCallArgsByID callID)
  let st := if newArgs ≠ "" then
      { st with toolCallArgsByID := put st.toolCallArgsByID callID newArgs }
    else st
  sendToolCallDelta responseID callID name argsDelta st

def functionCallArgumentsDelta (itemID delta : String) (st : StreamState) : Step :=
  let itemID := trimSpace itemID
  let canonical := st.toolCallCanonicalIDByItemID itemID
  let callID := if canonical = "" then itemID else canonical
  if callID = "" then (st, [])
  else
    let args := st.toolCallArgsByID callID ++ delta
    sendToolCallDelta responseID callID "" delta
      { st with toolCallArgsByID := put st.toolCallArgsByID callID args }

def takeModel (response : Option ResponsesResponse) (st : StreamState) : StreamState :=
  match response with
  | some response => if response.model ≠ "" then { st with model := response.model } else st
  | none => st

def finishReason (st : StreamState) : String :=
  if st.sawToolCall ∧ st.outputText = "" then "tool_calls" else "stop"

def sendStop (st : StreamState) : Step :=
  if st.sentStop then (st, [])
  else ({ st with sentStop := true },
    [generateStopResponse responseID st.model (finishReason st)])

def handleEvent (st : StreamState) (event : ResponsesStreamResponse) : Step :=
  if st.streamErr.isSome then (st, [])
  else
    match event.type with
    | "response.created" => (takeModel event.response st, [])
    | "response.reasoning_summary_text.delta" => sendReasoningSummaryDelta responseID event.delta st
    | "response.reasoning_summary_text.done" =>
      ({ st with needsReasoningSummarySeparator :=
          st.hasSentReasoningSummary || st.needsReasoningSummarySeparator }, [])
    | "response.output_text.delta" => sendOutputText responseID event.delta st
    | "response.output_item.added" | "response.output_item.done" =>
      match event.item with
      | some item =>
        if item.type = "function_call" then functionCallItem responseID item st else (st, [])
      | none => (st, [])
    | "response.function_call_arguments.delta" =>
      functionCallArgumentsDelta responseID event.itemID event.delta st
    | "response.completed" =>
      (sendStartIfNeeded responseID (takeModel event.response st)).andThen (sendStop responseID)
    | "response.error" | "response.failed" => ({ st with streamErr := some event.type }, [])
    | _ => (st, [])

def handleEvents : StreamState → List ResponsesStreamResponse → Step
  | st, [] => (st, [])
  | st, event :: events => (handleEvent responseID st event).andThen (handleEvents · events)

/-- What is sent when the stream has ended. -/
def closeStream (st : StreamState) : Step :=
  if st.streamErr.isSome then (st, [])
  else
    let start := if st.sentStart then [] else [generateStartEmptyResponse responseID st.model]
    (st, start ++ (sendStop responseID st).2)

/-- The chunks of a stream. -/
def oaiResponsesToChatStreamHandler (upstreamModelName : String)
    (events : List ResponsesStreamResponse) : List Chunk :=
  ((handleEvents responseID { model := upstreamModelName } events).andThen
    (closeStream responseID)).2

end Stream

def isAssistant (out : ResponsesOutput) : Bool :=
  out.type = "message" && (out.role = "" || out.role = "assistant")

def outputTexts (out : ResponsesOutput) : List String :=
  (out.content.filter fun c => c.type = "output_text" && c.text ≠ "").map (·.text)

def extractOutputTextFromResponses (resp : ResponsesResponse) : String :=
  let text := String.join ((resp.output.filter isAssistant).flatMap outputTexts)
  if text ≠ "" then text
  else String.join (resp.output.flatMap fun out => out.content.map (·.text))

def responseToolCalls : List ResponsesOutput → List ToolCallResponse
  | [] => []
  | out :: output =>
    if out.type = "function_call" ∧ trimSpace out.name ≠ "" then
      { id := itemCallID out
        function := { name := trimSpace out.name, arguments := out.arguments } } ::
        responseToolCalls output
    else responseToolCalls output

def responsesResponseToChatCompletionsResponse (resp : ResponsesResponse) : Message :=
  let text := extractOutputTextFromResponses resp
  let toolCalls := if text = "" then responseToolCalls resp.output else []
  { content := if toolCalls ≠ [] then "" else text
    toolCalls
    finishReason := some (if toolCalls ≠ [] then "tool_calls" else "stop") }

end CodeGo.Gateway.ResponsesToChat

/-!
# A response and its stream

The items of a response are announced one after the other. What the chunks of a stream add up to is
told from the items: the texts, and the tool calls that stand before the first of them.
-/

namespace CodeGo.Gateway.ResponsesToChat

open ClaudeStream ChatChunks
open CodeGo.Lib.Trim (trimSpace)

/-- A call that its `id` identifies; the parts of its arguments come with that. -/
structure FunctionCall where
  id : String
  callID : String
  name : String
  deltas : List String
  identified : trimSpace id ≠ ""

inductive Part where
  | outputText (deltas : List String)
  | refusal (deltas : List String)
  deriving DecidableEq, Repr

/-- An item as it is sent. -/
inductive Sent where
  | message (id : String) (parts : List Part)
  | reasoning (id : String) (summary content : List (List String))
  | functionCall (call : FunctionCall)

def FunctionCall.item (c : FunctionCall) (arguments : String) : ResponsesOutput :=
  { type := "function_call", id := c.id, callID := c.callID, name := c.name, arguments }

def Part.content : Part → ResponsesOutputContent
  | .outputText deltas => { type := "output_text", text := String.join deltas }
  | .refusal _ => { type := "refusal" }

def messageItem (id : String) (parts : List Part) : ResponsesOutput :=
  { type := "message", id, role := "assistant", content := parts.map Part.content }

def reasoningItem (id : String) (content : List (List String)) : ResponsesOutput :=
  { type := "reasoning", id
    content := content.map fun deltas => { type := "reasoning_text", text := String.join deltas } }

/-- The item of the whole response. -/
def Sent.item : Sent → ResponsesOutput
  | .message id parts => messageItem id parts
  | .reasoning id _ content => reasoningItem id content
  | .functionCall c => c.item (String.join c.deltas)

def textDelta (itemID delta : String) : ResponsesStreamResponse :=
  { type := "response.output_text.delta", delta, itemID }

def refusalDelta (itemID delta : String) : ResponsesStreamResponse :=
  { type := "response.refusal.delta", delta, itemID }

def summaryDelta (itemID delta : String) : ResponsesStreamResponse :=
  { type := "response.reasoning_summary_text.delta", delta, itemID }

def reasoningDelta (itemID delta : String) : ResponsesStreamResponse :=
  { type := "response.reasoning_text.delta", delta, itemID }

def argumentsEvent (itemID delta : String) : ResponsesStreamResponse :=
  { type := "response.function_call_arguments.delta", delta, itemID }

def added (item : ResponsesOutput) : ResponsesStreamResponse :=
  { type := "response.output_item.added", item := some item }

def done (item : ResponsesOutput) : ResponsesStreamResponse :=
  { type := "response.output_item.done", item := some item }

def Part.events (itemID : String) : Part → List ResponsesStreamResponse
  | .outputText deltas =>
    { type := "response.content_part.added", itemID } ::
      (deltas.map (textDelta itemID) ++
        [{ type := "response.output_text.done", itemID },
          { type := "response.content_part.done", itemID }])
  | .refusal deltas =>
    { type := "response.content_part.added", itemID } ::
      (deltas.map (refusalDelta itemID) ++
        [{ type := "response.refusal.done", itemID },
          { type := "response.content_part.done", itemID }])

def summaryEvents (itemID : String) (deltas : List String) : List ResponsesStreamResponse :=
  { type := "response.reasoning_summary_part.added", itemID } ::
    (deltas.map (summaryDelta itemID) ++
      [{ type := "response.reasoning_summary_text.done", itemID },
        { type := "response.reasoning_summary_part.done", itemID }])

def reasoningEvents (itemID : String) (deltas : List String) : List ResponsesStreamResponse :=
  deltas.map (reasoningDelta itemID) ++ [{ type := "response.reasoning_text.done", itemID }]

/-- The events of an item; it is announced empty and done in full. -/
def Sent.events : Sent → List ResponsesStreamResponse
  | .message id parts =>
    added (messageItem id []) :: (parts.flatMap (Part.events id) ++ [done (messageItem id parts)])
  | .reasoning id summary content =>
    added (reasoningItem id []) ::
      (summary.flatMap (summaryEvents id) ++ content.flatMap (reasoningEvents id) ++
        [done (reasoningItem id content)])
  | .functionCall c =>
    added (c.item "") :: (c.deltas.map (argumentsEvent c.id) ++
      [{ type := "response.function_call_arguments.done", itemID := c.id },
        done (c.item (String.join c.deltas))])

def response (model : String) (sent : List Sent) : ResponsesResponse :=
  { model, output := sent.map Sent.item }

def streamEvents (model : String) (sent : List Sent) : List ResponsesStreamResponse :=
  { type := "response.created", response := some { model } } ::
    (sent.flatMap Sent.events ++
      [{ type := "response.completed", response := some (response model sent) }])

@[simp] theorem put_self {A : Type} (m : String → A) (key : String) (value : A) :
    put m key value key = value := by simp [put]

theorem put_of_ne {A : Type} (m : String → A) {key k : String} (value : A) (h : k ≠ key) :
    put m key value k = m k := by simp [put, h]

@[simp] theorem put_put {A : Type} (m : String → A) (key : String) (x y : A) :
    put (put m key x) key y = put m key y := by
  funext k
  by_cases h : k = key <;> simp [put, h]

@[simp] theorem put_same {A : Type} (m : String → A) (key : String) :
    put m key (m key) = m := by
  funext k
  by_cases h : k = key <;> simp [put, h]

/-- The tool calls that a client has: their ids in order, with their names and arguments, and the
arguments that the handler remembers. -/
structure View where
  order : List String := []
  names : String → String := fun _ => ""
  texts : String → String := fun _ => ""
  args : String → String := fun _ => ""

def View.toolCalls (v : View) : List ToolCallResponse :=
  v.order.mapIdx fun i key =>
    { index := some (i : Int), id := key
      function := { name := v.names key, arguments := v.texts key } }

/-- A delta of the call `key`: the first name stays. -/
def View.touch (v : View) (key name text : String) : View :=
  { v with
    order := if key ∈ v.order then v.order else v.order ++ [key]
    names := put v.names key (if v.names key = "" then name else v.names key)
    texts := put v.texts key (v.texts key ++ text) }

theorem touch_touch (v : View) (key name name' text text' : String) :
    (v.touch key name text).touch key name' text' =
      v.touch key (if name = "" then name' else name) (text ++ text') := by
  have hmem : key ∈ (if key ∈ v.order then v.order else v.order ++ [key]) := by
    split
    · assumption
    · simp
  unfold View.touch
  simp only [if_pos hmem, put_self, put_put, String.append_assoc]
  congr 2
  by_cases hname : v.names key = "" <;> by_cases hname' : name = "" <;> simp [hname, hname']

/-- A call that is announced, with all of its arguments. Those of a call with the same id are sent
once more. -/
def View.announce (v : View) (c : FunctionCall) : View :=
  let arguments := String.join c.deltas
  let key := itemCallID (c.item arguments)
  let again := if arguments = "" ∨ v.args key = "" then "" else arguments
  { v.touch key (trimSpace c.name) (arguments ++ again) with
    args := if arguments = "" then v.args else put v.args key arguments }

theorem lookup_zipIdx (order : List String) (key : String) (n : Nat) :
    (order.zipIdx n).lookup key = if key ∈ order then some (n + order.idxOf key) else none := by
  induction order generalizing n with
  | nil => simp
  | cons k order ih =>
    rw [List.zipIdx_cons, List.lookup_cons, ih]
    by_cases h : key = k
    · simp [h]
    · have hne : (key == k) = false := by simpa using h
      have hidx : (k :: order).idxOf key = order.idxOf key + 1 := by
        rw [List.idxOf_cons_ne _ (Ne.symm h)]
      simp only [hne, List.mem_cons, h, false_or, hidx]
      split
      · congr 1
        omega
      · rfl

theorem toolCalls_free (v : View) : Free (some (v.order.length : Int)) v.toolCalls := by
  intro call hcall hindex
  obtain ⟨i, hi, rfl⟩ := List.mem_mapIdx.1 hcall
  have := Int.ofNat.inj (Option.some.inj hindex)
  omega

/-- What a client does with a delta of a call, as it is sent with its index. -/
theorem addToolCall_view {v : View} (hnodup : v.order.Nodup)
    (hfresh : ∀ k, k ∉ v.order → v.names k = "" ∧ v.texts k = "") (key name text : String)
    (idx : Nat)
    (hidx : idx = if key ∈ v.order then v.order.idxOf key else v.order.length) :
    addToolCall v.toolCalls
        { index := some (idx : Int), id := key
          function := { name := if v.names key = "" then name else "", arguments := text } } =
      (v.touch key name text).toolCalls := by
  by_cases hmem : key ∈ v.order
  · rw [if_pos hmem] at hidx
    have hany : v.toolCalls.any (fun call => decide (call.index = some (idx : Int))) = true := by
      rw [List.any_eq_true]
      have hlt : idx < v.order.length := hidx ▸ List.idxOf_lt_length_iff.2 hmem
      exact ⟨_, List.mem_mapIdx.2 ⟨idx, hlt, rfl⟩, by simp⟩
    rw [addToolCall, if_pos hany]
    apply List.ext_getElem?
    intro i
    simp only [View.toolCalls, View.touch, if_pos hmem, List.getElem?_map, List.getElem?_mapIdx]
    cases hi : v.order[i]? with
    | none => rfl
    | some k =>
      have hsame : i = idx ↔ k = key := by
        have hat : v.order[idx]? = some key := by
          rw [hidx]
          exact List.getElem?_idxOf hmem
        constructor
        · intro h
          rw [h, hat] at hi
          exact (Option.some.inj hi).symm
        · intro h
          have hlt : i < v.order.length := (List.getElem?_eq_some_iff.1 hi).1
          exact (List.getElem?_inj hlt hnodup).1 (hi.trans (by rw [hat, h]))
      by_cases h : i = idx
      · have hk := hsame.1 h
        subst hk h
        by_cases hname : v.names k = "" <;> by_cases hname' : name = "" <;>
          simp [merge, hname, hname']
      · have hk : k ≠ key := fun hk => h (hsame.2 hk)
        have hne : ¬ ((i : Int) = (idx : Int)) := by omega
        simp [hne, put_of_ne _ _ hk]
  · rw [if_neg hmem] at hidx
    subst hidx
    obtain ⟨hname, htext⟩ := hfresh key hmem
    rw [addToolCall_free (toolCalls_free v)]
    simp only [View.toolCalls, View.touch, if_neg hmem, List.mapIdx_append, List.mapIdx_cons,
      List.mapIdx_nil, hname, htext, if_true, put_self, String.empty_append]
    congr 1
    · apply List.ext_getElem?
      intro i
      simp only [List.getElem?_mapIdx]
      cases hi : v.order[i]? with
      | none => rfl
      | some k =>
        have hk : k ≠ key := by
          rintro rfl
          exact hmem (List.mem_of_getElem? hi)
        simp [put_of_ne _ _ hk]
    · simp

end CodeGo.Gateway.ResponsesToChat
