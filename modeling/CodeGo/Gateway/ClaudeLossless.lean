import CodeGo.Gateway.ClaudeStream

/-!
# What the converter keeps

Of each chunk the converter takes some deltas and leaves out the others. What it takes is told from
the chunk and the state before it.
-/

namespace CodeGo.Gateway.ClaudeStream

variable {U : Type}

def concat : List String → String
  | [] => ""
  | s :: strings => s ++ concat strings

theorem concat_append (xs ys : List String) : concat (xs ++ ys) = concat xs ++ concat ys := by
  induction xs with
  | nil => simp [concat]
  | cons s xs ih => rw [List.cons_append, concat, concat, ih, String.append_assoc]

theorem concat_length_le {A : Type} (f g : A → String) (xs : List A)
    (h : ∀ x ∈ xs, f x = g x ∨ f x = "") :
    (concat (xs.map f)).length ≤ (concat (xs.map g)).length := by
  induction xs with
  | nil => exact Nat.le_refl _
  | cons x xs ih =>
    have hrest := ih fun y hy => h y (List.mem_cons_of_mem _ hy)
    simp only [List.map_cons, concat, String.length_append]
    rcases h x (by simp) with hx | hx
    · rw [hx]
      omega
    · rw [hx]
      simp only [String.length_empty]
      omega

/-- Texts of which some were left out are the same together only if those were empty. -/
theorem concat_eq_iff {A : Type} (f g : A → String) (xs : List A)
    (h : ∀ x ∈ xs, f x = g x ∨ f x = "") :
    concat (xs.map f) = concat (xs.map g) ↔ ∀ x ∈ xs, f x = g x := by
  constructor
  · induction xs with
    | nil => simp
    | cons x xs ih =>
      intro heq
      have hrest := fun y hy => h y (List.mem_cons_of_mem _ hy)
      have hle := concat_length_le f g xs hrest
      simp only [List.map_cons, concat] at heq
      have hlength := congrArg String.length heq
      simp only [String.length_append] at hlength
      have hx : f x = g x := by
        rcases h x (by simp) with hx | hx
        · exact hx
        · rw [hx, String.length_empty] at hlength
          have hzero : (g x).length = 0 := by omega
          rw [hx, String.length_eq_zero_iff.1 hzero]
      rw [hx] at heq
      have htail := ih hrest (String.append_right_inj (g x) |>.1 heq)
      intro y hy
      rcases List.mem_cons.1 hy with rfl | hy
      · exact hx
      · exact htail y hy
  · intro heq
    rw [List.map_congr_left heq]

/-- The calls of the converter, each with the state it is given. -/
def calls : List (StreamResponse U) → StreamResponse U → Option U → Info U →
    List (Info U × StreamResponse U)
  | [], last, usage, info => [({ info with usage }, last)]
  | response :: responses, last, usage, info =>
    let fed : Info U := { info with
      sendResponseCount := info.sendResponseCount + 1
      usage := response.usage.or info.usage }
    (fed, response) :: calls responses last usage (streamResponseOpenAI2Claude response fed).2

theorem claudeEvents_eq (responses : List (StreamResponse U)) (last : StreamResponse U)
    (usage : Option U) (info : Info U) :
    claudeEvents responses last usage info =
      (calls responses last usage info).flatMap fun c => (streamResponseOpenAI2Claude c.2 c.1).1 := by
  induction responses generalizing info with
  | nil => simp [claudeEvents, handleStream, calls, Step.andThen, handleFinalResponse]
  | cons response responses ih =>
    rw [calls, List.flatMap_cons, ← ih]
    simp only [claudeEvents, handleStream, Step.andThen, handleStreamFormat, List.append_assoc]

/-- The delta of a chunk, which has one choice or none. -/
def StreamResponse.delta (response : StreamResponse U) : ChoiceDelta :=
  (response.choices.head?.map (·.delta)).getD {}

/-- A chunk that finishes brings its usage. -/
def StreamResponse.usable (response : StreamResponse U) : Bool :=
  !(response.choices.head?.any (·.finishes)) || response.usage.isSome

def contentDeltas (delta : ChoiceDelta) : List Delta :=
  if delta.getReasoningContent ≠ "" then [.thinkingDelta delta.getReasoningContent]
  else if delta.getContentString ≠ "" then [.textDelta delta.getContentString]
  else []

def argumentDeltas (toolCall : ToolCallResponse) : List Delta :=
  if toolCall.function.arguments ≠ "" then [.inputJsonDelta toolCall.function.arguments] else []

/-- The deltas that the converter takes of a chunk. -/
def taken (info : Info U) (response : StreamResponse U) : List Delta :=
  if info.done then []
  else if info.sendResponseCount = 1 then
    response.delta.toolCalls.head?.toList.flatMap argumentDeltas ++ contentDeltas response.delta
  else if !response.usable then []
  else if response.delta.toolCalls ≠ [] then response.delta.toolCalls.flatMap argumentDeltas
  else contentDeltas response.delta

def Event.delta? : Event U → Option Delta
  | .contentBlockDelta _ delta => some delta
  | _ => none

def deltasOf (events : List (Event U)) : List Delta := events.filterMap Event.delta?

theorem deltasOf_append (xs ys : List (Event U)) :
    deltasOf (xs ++ ys) = deltasOf xs ++ deltasOf ys := List.filterMap_append ..

theorem deltasOf_stopOpenBlocks (info : Info U) : deltasOf (stopOpenBlocks info) = [] := by
  cases htype : info.lastMessagesType <;>
    simp [stopOpenBlocks, htype, deltasOf, Event.delta?]

theorem deltasOf_advance (info : Info U) : deltasOf (stopOpenBlocksAndAdvance info).1 = [] := by
  cases htype : info.lastMessagesType <;>
    simp [stopOpenBlocksAndAdvance, stopOpenBlocks, htype, deltasOf, Event.delta?]

theorem deltasOf_finishMessage (usage : Option U) (stopReason : String) (info : Info U) :
    deltasOf (finishMessage usage stopReason info).1 = [] := by
  rw [finishMessage, deltasOf_append, deltasOf_append, deltasOf_stopOpenBlocks]
  cases usage <;> rfl

theorem deltasOf_argumentsDelta (index : Int) (toolCall : ToolCallResponse) :
    deltasOf (argumentsDelta (U := U) index toolCall) = argumentDeltas toolCall := by
  rw [argumentsDelta, argumentDeltas]
  split <;> rfl

theorem deltasOf_toolCallLoop (base : Int) (i : Nat) (toolCalls : List ToolCallResponse)
    (max : Int) :
    deltasOf (toolCallLoop (U := U) base i toolCalls max).1 = toolCalls.flatMap argumentDeltas := by
  induction toolCalls generalizing i max with
  | nil => rfl
  | cons toolCall toolCalls ih =>
    rw [toolCallLoop, List.flatMap_cons, deltasOf_append, ih, toolCallEvents, deltasOf_append,
      deltasOf_argumentsDelta]
    split <;> rfl

theorem deltasOf_continueBlock (type : LastMessageType) (block : ContentBlock) (delta : Delta)
    (info : Info U) : deltasOf (continueBlock type block delta info).1 = [delta] := by
  rw [continueBlock]
  split
  · simp only [Step.andThen, deltasOf_append, deltasOf_advance]
    rfl
  · rfl

theorem deltasOf_startBlock (type : LastMessageType) (block : ContentBlock) (delta : Delta)
    (info : Info U) : deltasOf (startBlock type block delta info).1 = [delta] := by
  rw [startBlock]
  split
  · simp only [Step.andThen, deltasOf_append, deltasOf_advance]
    rfl
  · rfl

theorem deltasOf_laterDelta (delta : ChoiceDelta) (info : Info U) :
    deltasOf (laterDelta delta info).1 =
      if delta.toolCalls ≠ [] then delta.toolCalls.flatMap argumentDeltas
      else contentDeltas delta := by
  rw [laterDelta]
  split
  · have hstart : deltasOf (startTools info).1 = [] := by
      rw [startTools]
      split
      · exact deltasOf_advance info
      · rfl
    simp only [laterToolCalls, Step.andThen, deltasOf_append, hstart, deltasOf_toolCallLoop,
      List.nil_append]
  · rw [contentDeltas]
    split
    · exact deltasOf_continueBlock ..
    split
    · exact deltasOf_continueBlock ..
    · rfl

theorem deltasOf_firstContent (delta : ChoiceDelta) (info : Info U) :
    deltasOf (firstContent delta info).1 = contentDeltas delta := by
  rw [firstContent, contentDeltas]
  split
  · exact deltasOf_startBlock ..
  split
  · exact deltasOf_startBlock ..
  · rfl

theorem deltasOf_firstResponse (response : StreamResponse U) (info : Info U) :
    deltasOf (firstResponse response info).1 =
      response.delta.toolCalls.head?.toList.flatMap argumentDeltas ++
        contentDeltas response.delta := by
  rw [firstResponse, StreamResponse.delta]
  cases response.choices with
  | nil => rfl
  | cons choice _ =>
    have htool : deltasOf (firstToolCall choice.delta info).1 =
        choice.delta.toolCalls.head?.toList.flatMap argumentDeltas := by
      rw [firstToolCall]
      cases choice.delta.toolCalls with
      | nil => rfl
      | cons toolCall _ =>
        show deltasOf ([.contentBlockStart 0 _] ++ argumentsDelta 0 toolCall) = _
        rw [deltasOf_append, deltasOf_argumentsDelta]
        simp [deltasOf, Event.delta?]
    have hfinish : ∀ info : Info U, deltasOf (firstFinish response choice info).1 = [] := by
      intro info
      rw [firstFinish]
      split
      · exact deltasOf_finishMessage ..
      · rfl
    simp only [Step.andThen, deltasOf_append, startMessage, htool, deltasOf_firstContent, hfinish]
    simp [deltasOf, Event.delta?]

/-- What is read of the events of a call when nothing is read of the end of a message. -/
theorem read_streamResponse {β : Type} {read? : Event U → Option β} {later : ChoiceDelta → List β}
    (hfinish : ∀ usage reason (info : Info U),
      (finishMessage usage reason info).1.filterMap read? = [])
    (hlater : ∀ delta (info : Info U), (laterDelta delta info).1.filterMap read? = later delta)
    (response : StreamResponse U) (info : Info U) :
    (streamResponseOpenAI2Claude response info).1.filterMap read? =
      if info.done then []
      else if info.sendResponseCount = 1 then (firstResponse response info).1.filterMap read?
      else if !response.usable then []
      else later response.delta := by
  rw [streamResponseOpenAI2Claude]
  split
  · rfl
  split
  · rfl
  cases hchoices : response.choices with
  | nil =>
    have hdelta : response.delta = {} := by simp [StreamResponse.delta, hchoices]
    have husable : response.usable = true := by simp [StreamResponse.usable, hchoices]
    simp only [emptyChoices, hdelta, husable, ← hlater {} info]
    cases usageOf response info with
    | none => rfl
    | some usage => exact hfinish ..
  | cons choice _ =>
    have hdelta : response.delta = choice.delta := by simp [StreamResponse.delta, hchoices]
    have husable : response.usable = (!choice.finishes || response.usage.isSome) := by
      simp [StreamResponse.usable, hchoices]
    simp only [laterChoice, hdelta, husable]
    cases choice.finishes with
    | true =>
      cases response.usage with
      | none => rfl
      | some usage =>
        simp only [Option.isNone_some, Step.andThen, List.filterMap_append, hlater, hfinish,
          List.append_nil, Bool.false_eq_true, ↓reduceIte]
        rfl
    | false => exact hlater ..

theorem deltasOf_streamResponse (response : StreamResponse U) (info : Info U) :
    deltasOf (streamResponseOpenAI2Claude response info).1 = taken info response := by
  rw [taken, ← deltasOf_firstResponse response info]
  exact read_streamResponse deltasOf_finishMessage deltasOf_laterDelta response info

def Delta.text : Delta → String
  | .textDelta text => text
  | _ => ""

def Delta.thinking : Delta → String
  | .thinkingDelta thinking => thinking
  | _ => ""

/-- The content of the chunk is taken, or there is none. -/
def ContentTaken (info : Info U) (response : StreamResponse U) : Prop :=
  response.delta.getContentString = "" ∨
    info.done = false ∧ response.delta.getReasoningContent = "" ∧
      (info.sendResponseCount = 1 ∨ response.usable ∧ response.delta.toolCalls = [])

/-- The reasoning of the chunk is taken, or there is none. -/
def ReasoningTaken (info : Info U) (response : StreamResponse U) : Prop :=
  response.delta.getReasoningContent = "" ∨
    info.done = false ∧
      (info.sendResponseCount = 1 ∨ response.usable ∧ response.delta.toolCalls = [])

instance (info : Info U) (response : StreamResponse U) : Decidable (ContentTaken info response) :=
  inferInstanceAs (Decidable (_ ∨ _))

instance (info : Info U) (response : StreamResponse U) : Decidable (ReasoningTaken info response) :=
  inferInstanceAs (Decidable (_ ∨ _))

theorem concat_argumentDeltas (f : Delta → String) (hf : ∀ s, f (.inputJsonDelta s) = "")
    (toolCalls : List ToolCallResponse) :
    concat ((toolCalls.flatMap argumentDeltas).map f) = "" := by
  induction toolCalls with
  | nil => rfl
  | cons toolCall toolCalls ih =>
    rw [List.flatMap_cons, List.map_append, concat_append, ih, argumentDeltas]
    split <;> simp [concat, hf]

/-- A text of the taken deltas that the arguments of tool calls have no part in. -/
theorem concat_taken (f : Delta → String) (hf : ∀ s, f (.inputJsonDelta s) = "") (info : Info U)
    (response : StreamResponse U) : concat ((taken info response).map f) =
      if info.done = false ∧
          (info.sendResponseCount = 1 ∨ response.usable ∧ response.delta.toolCalls = []) then
        concat ((contentDeltas response.delta).map f)
      else "" := by
  rw [taken]
  by_cases hdone : info.done <;> by_cases hcount : info.sendResponseCount = 1 <;>
    by_cases husable : response.usable <;> by_cases htools : response.delta.toolCalls = [] <;>
      simp [hdone, hcount, husable, htools, concat, concat_append, concat_argumentDeltas f hf]

theorem text_taken (info : Info U) (response : StreamResponse U) :
    concat ((taken info response).map Delta.text) = response.delta.getContentString ∨
      concat ((taken info response).map Delta.text) = "" := by
  rw [concat_taken Delta.text fun _ => rfl, contentDeltas]
  split_ifs <;> simp [concat, Delta.text]

theorem text_taken_iff (info : Info U) (response : StreamResponse U) :
    concat ((taken info response).map Delta.text) = response.delta.getContentString ↔
      ContentTaken info response := by
  rw [concat_taken Delta.text fun _ => rfl, contentDeltas, ContentTaken]
  split_ifs <;> simp_all [concat, Delta.text]

theorem thinking_taken (info : Info U) (response : StreamResponse U) :
    concat ((taken info response).map Delta.thinking) = response.delta.getReasoningContent ∨
      concat ((taken info response).map Delta.thinking) = "" := by
  rw [concat_taken Delta.thinking fun _ => rfl, contentDeltas]
  split_ifs <;> simp [concat, Delta.thinking]

theorem thinking_taken_iff (info : Info U) (response : StreamResponse U) :
    concat ((taken info response).map Delta.thinking) = response.delta.getReasoningContent ↔
      ReasoningTaken info response := by
  rw [concat_taken Delta.thinking fun _ => rfl, contentDeltas, ReasoningTaken]
  split_ifs <;> simp_all [concat, Delta.thinking]

theorem concat_deltasOf (f : Delta → String) (cs : List (Info U × StreamResponse U)) :
    concat ((deltasOf (cs.flatMap fun c => (streamResponseOpenAI2Claude c.2 c.1).1)).map f) =
      concat (cs.map fun c => concat ((taken c.1 c.2).map f)) := by
  induction cs with
  | nil => rfl
  | cons c cs ih =>
    rw [List.flatMap_cons, deltasOf_append, List.map_append, concat_append, ih,
      deltasOf_streamResponse, List.map_cons, concat]

theorem calls_responses (responses : List (StreamResponse U)) (last : StreamResponse U)
    (usage : Option U) (info : Info U) :
    (calls responses last usage info).map Prod.snd = responses ++ [last] := by
  induction responses generalizing info with
  | nil => rfl
  | cons response responses ih => rw [calls, List.map_cons, ih, List.cons_append]

/-- What is said of the texts of a stream: the deltas that carry them, and the texts of the chunks. -/
theorem texts_eq_iff (f : Delta → String) (g : StreamResponse U → String)
    (Taken : Info U → StreamResponse U → Prop)
    (htaken : ∀ info response, concat ((taken info response).map f) = g response ∨
      concat ((taken info response).map f) = "")
    (hiff : ∀ info response,
      concat ((taken info response).map f) = g response ↔ Taken info response)
    (responses : List (StreamResponse U)) (last : StreamResponse U) (usage : Option U)
    (info : Info U) :
    concat ((deltasOf (claudeEvents responses last usage info)).map f) =
        concat ((responses ++ [last]).map g) ↔
      ∀ c ∈ calls responses last usage info, Taken c.1 c.2 := by
  rw [claudeEvents_eq, concat_deltasOf, ← calls_responses responses last usage info, List.map_map]
  rw [concat_eq_iff _ _ _ fun c _ => htaken c.1 c.2]
  simp only [Function.comp, hiff]

end CodeGo.Gateway.ClaudeStream
