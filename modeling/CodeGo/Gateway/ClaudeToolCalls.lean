import CodeGo.Gateway.ClaudeLossless

/-!
# Tool calls in the converter

A client of the chunks knows a tool call by its index, a client of the events by its block. The
converter keeps the two together while a run of tool calls goes on in which each call is named
first.
-/

namespace CodeGo.Gateway.ClaudeStream

variable {U : Type}

/-- A tool call of a chunk: the converter leaves it out, or takes it at an offset of the current run
and starts a block for it or not. A run of tool calls is left for a block of another kind. -/
inductive Item where
  | skipped (index : Int) (toolCall : ToolCallResponse)
  | taken (index place : Int) (toolCall : ToolCallResponse) (starts : Bool)
  | left

def skippedItems (i : Nat) : List ToolCallResponse → List Item
  | [] => []
  | toolCall :: toolCalls => .skipped (toolOffset i toolCall) toolCall :: skippedItems (i + 1) toolCalls

def laterItems (i : Nat) : List ToolCallResponse → List Item
  | [] => []
  | toolCall :: toolCalls =>
    .taken (toolOffset i toolCall) (toolOffset i toolCall) toolCall (toolCall.function.name ≠ "") ::
      laterItems (i + 1) toolCalls

/-- The first chunk has room for one tool call, at offset 0. -/
def firstItems : List ToolCallResponse → List Item
  | [] => []
  | toolCall :: toolCalls =>
    .left :: .taken (toolOffset 0 toolCall) 0 toolCall true :: skippedItems 1 toolCalls

def leftItems (delta : ChoiceDelta) : List Item :=
  if contentDeltas delta = [] then [] else [.left]

def items (info : Info U) (response : StreamResponse U) : List Item :=
  let delta := response.delta
  if info.done then skippedItems 0 delta.toolCalls
  else if info.sendResponseCount = 1 then firstItems delta.toolCalls ++ leftItems delta
  else if !response.usable then skippedItems 0 delta.toolCalls
  else if delta.toolCalls ≠ [] then laterItems 0 delta.toolCalls
  else leftItems delta

/-- The ids that are known at the indices, or blocks. -/
abbrev Ids := Int → Option String

def Ids.set (ids : Ids) (i : Int) (id : Option String) : Ids := fun j => if j = i then id else ids j

/-- Whose tool call this is: its own, or the one that is known at its index. -/
def owner (opened : Ids) (index : Int) (toolCall : ToolCallResponse) : Option String :=
  if toolCall.function.name ≠ "" ∨ toolCall.id ≠ "" then some toolCall.id else opened index

def Item.toolCall? : Item → Option (Int × ToolCallResponse)
  | .skipped index toolCall => some (index, toolCall)
  | .taken index _ toolCall _ => some (index, toolCall)
  | .left => none

/-- Reads the tool calls of the chunks. -/
def Item.opens (opened : Ids) (item : Item) : Ids :=
  match item.toolCall? with
  | some (index, toolCall) => opened.set index (owner opened index toolCall)
  | none => opened

/-- Of a text of the tool call, what belongs to the call of that id. -/
def Item.owned (f : ToolCallResponse → String) (id : String) (opened : Ids) (item : Item) : String :=
  match item.toolCall? with
  | some (index, toolCall) => if owner opened index toolCall = some id then f toolCall else ""
  | none => ""

def ownedText (f : ToolCallResponse → String) (id : String) : Ids → List Item → String
  | _, [] => ""
  | opened, item :: items => item.owned f id opened ++ ownedText f id (item.opens opened) items

def Event.reads (blocks : Ids) : Event U → Ids
  | .contentBlockStart index (.toolUse id _) => blocks.set index (some id)
  | .contentBlockStart index _ => blocks.set index none
  | .contentBlockStop index => blocks.set index none
  | _ => blocks

def Event.argumentsOf (id : String) (blocks : Ids) : Event U → String
  | .contentBlockDelta index (.inputJsonDelta arguments) =>
    if blocks index = some id then arguments else ""
  | _ => ""

/-- The input deltas of the blocks of that id. -/
def blockArguments (id : String) : Ids → List (Event U) → String
  | _, [] => ""
  | blocks, e :: events => e.argumentsOf id blocks ++ blockArguments id (e.reads blocks) events

def Event.start? : Event U → Option (String × String)
  | .contentBlockStart _ (.toolUse id name) => some (id, name)
  | _ => none

/-- The tool calls that are started, each by its id and name. -/
def startsOf (events : List (Event U)) : List (String × String) := events.filterMap Event.start?

/-- The ids of the blocks at the offsets of the current run. -/
def Item.names (named : Ids) : Item → Ids
  | .skipped _ _ => named
  | .taken _ place toolCall starts => if starts then named.set place (some toolCall.id) else named
  | .left => fun _ => none

/-- The arguments of a tool call are taken to the block of the call that owns them. -/
def Item.Routed (opened named : Ids) (item : Item) : Prop :=
  match item with
  | .skipped _ toolCall => toolCall.function.arguments = ""
  | .taken index place toolCall _ => toolCall.function.arguments = "" ∨
    (owner opened index toolCall).isSome ∧ item.names named place = owner opened index toolCall
  | .left => True

def Routed : Ids → Ids → List Item → Prop
  | _, _, [] => True
  | opened, named, item :: items =>
    item.Routed opened named ∧ Routed (item.opens opened) (item.names named) items

instance Item.decRouted (opened named : Ids) : ∀ item : Item, Decidable (item.Routed opened named)
  | .skipped _ toolCall => inferInstanceAs (Decidable (toolCall.function.arguments = ""))
  | .taken index place toolCall starts =>
    inferInstanceAs (Decidable (toolCall.function.arguments = "" ∨
      (owner opened index toolCall).isSome ∧
        (Item.taken index place toolCall starts).names named place = owner opened index toolCall))
  | .left => .isTrue trivial

instance Routed.dec : ∀ (opened named : Ids) (items : List Item), Decidable (Routed opened named items)
  | _, _, [] => .isTrue trivial
  | opened, named, item :: items =>
    have := Routed.dec (item.opens opened) (item.names named) items
    inferInstanceAs (Decidable (item.Routed opened named ∧
      Routed (item.opens opened) (item.names named) items))

theorem Routed.append {opened named : Ids} {xs ys : List Item} :
    Routed opened named (xs ++ ys) ↔ Routed opened named xs ∧
      Routed (xs.foldl Item.opens opened) (xs.foldl Item.names named) ys := by
  induction xs generalizing opened named with
  | nil => simp [Routed]
  | cons item xs ih => simp [Routed, ih, and_assoc]

theorem ownedText_append (f : ToolCallResponse → String) (id : String) (opened : Ids)
    (xs ys : List Item) : ownedText f id opened (xs ++ ys) =
      ownedText f id opened xs ++ ownedText f id (xs.foldl Item.opens opened) ys := by
  induction xs generalizing opened with
  | nil => simp [ownedText]
  | cons item xs ih => simp [ownedText, ih, String.append_assoc]

theorem blockArguments_append (id : String) (blocks : Ids) (xs ys : List (Event U)) :
    blockArguments id blocks (xs ++ ys) =
      blockArguments id blocks xs ++ blockArguments id (xs.foldl Event.reads blocks) ys := by
  induction xs generalizing blocks with
  | nil => simp [blockArguments]
  | cons e xs ih => simp [blockArguments, ih, String.append_assoc]

/-- The blocks of the run at `base` have the ids that are named at its offsets. -/
def NamedAt (named blocks : Ids) (base : Int) : Prop :=
  ∀ offset id, named offset = some id → blocks (base + offset) = some id

theorem NamedAt.set {named blocks : Ids} {base : Int} (h : NamedAt named blocks base) (place : Int)
    (id : String) : NamedAt (named.set place (some id)) (blocks.set (base + place) (some id)) base := by
  intro offset id' hid'
  rw [Ids.set] at hid' ⊢
  split at hid'
  next hoffset =>
    rw [if_pos (by omega)]
    exact hid'
  next hoffset =>
    rw [if_neg (by omega)]
    exact h offset id' hid'

theorem NamedAt.none (blocks : Ids) (base : Int) : NamedAt (fun _ => Option.none) blocks base :=
  fun _ _ h => nomatch h

theorem blockArguments_argumentsDelta (id : String) (blocks : Ids) (index : Int)
    (toolCall : ToolCallResponse) :
    blockArguments id blocks (argumentsDelta (U := U) index toolCall) =
      if blocks index = some id then toolCall.function.arguments else "" := by
  rw [argumentsDelta]
  by_cases harguments : toolCall.function.arguments = ""
  · simp [harguments, blockArguments]
  · simp [harguments, blockArguments, Event.argumentsOf]

theorem reads_argumentsDelta (blocks : Ids) (index : Int) (toolCall : ToolCallResponse) :
    (argumentsDelta (U := U) index toolCall).foldl Event.reads blocks = blocks := by
  rw [argumentsDelta]
  split <;> rfl

def takenEvents (base place : Int) (toolCall : ToolCallResponse) (starts : Bool) : List (Event U) :=
  (if starts then
      [.contentBlockStart (base + place) (.toolUse toolCall.id toolCall.function.name)]
    else []) ++ argumentsDelta (base + place) toolCall

/-- A tool call that is taken. -/
theorem takenEvents_routed {opened named blocks : Ids} {base : Int} (h : NamedAt named blocks base)
    {index place : Int} {toolCall : ToolCallResponse} {starts : Bool}
    (hrouted : (Item.taken index place toolCall starts).Routed opened named) (id : String) :
    blockArguments id blocks (takenEvents (U := U) base place toolCall starts) =
        (Item.taken index place toolCall starts).owned (·.function.arguments) id opened ∧
      NamedAt ((Item.taken index place toolCall starts).names named)
        ((takenEvents (U := U) base place toolCall starts).foldl Event.reads blocks) base := by
  have hstart : ∃ blocks', NamedAt ((Item.taken index place toolCall starts).names named) blocks' base ∧
      (takenEvents (U := U) base place toolCall starts).foldl Event.reads blocks = blocks' ∧
      blockArguments id blocks (takenEvents (U := U) base place toolCall starts) =
        blockArguments id blocks' (argumentsDelta (U := U) (base + place) toolCall) := by
    cases starts with
    | true =>
      refine ⟨_, h.set place toolCall.id, ?_, ?_⟩
      · rw [takenEvents, List.foldl_append, reads_argumentsDelta]
        rfl
      · rw [takenEvents, blockArguments_append]
        simp [blockArguments, Event.argumentsOf, Event.reads]
    | false => exact ⟨blocks, h, by rw [takenEvents]; exact reads_argumentsDelta .., rfl⟩
  obtain ⟨blocks', hnamed, hblocks, harguments⟩ := hstart
  rw [hblocks, harguments, blockArguments_argumentsDelta]
  refine ⟨?_, hnamed⟩
  rw [Item.owned]
  simp only [Item.toolCall?]
  rcases hrouted with hempty | ⟨howner, hplace⟩
  · simp [hempty]
  · obtain ⟨y, hy⟩ := Option.isSome_iff_exists.1 howner
    rw [hy, hnamed place y (hplace.trans hy)]

theorem toolCallLoop_routed (base : Int) (i : Nat) (toolCalls : List ToolCallResponse) (max : Int)
    {opened named blocks : Ids} (h : NamedAt named blocks base)
    (hrouted : Routed opened named (laterItems i toolCalls)) (id : String) :
    blockArguments id blocks (toolCallLoop (U := U) base i toolCalls max).1 =
        ownedText (·.function.arguments) id opened (laterItems i toolCalls) ∧
      NamedAt ((laterItems i toolCalls).foldl Item.names named)
        ((toolCallLoop (U := U) base i toolCalls max).1.foldl Event.reads blocks) base := by
  induction toolCalls generalizing i max opened named blocks with
  | nil => exact ⟨rfl, h⟩
  | cons toolCall toolCalls ih =>
    have hevents : toolCallEvents (U := U) base i toolCall =
        takenEvents base (toolOffset i toolCall) toolCall (toolCall.function.name ≠ "") := by
      simp [toolCallEvents, takenEvents]
    obtain ⟨hitem, hrest⟩ := hrouted
    have htaken := takenEvents_routed (U := U) h hitem id
    have hloop := ih (i + 1) (if toolOffset i toolCall > max then toolOffset i toolCall else max)
      htaken.2 hrest
    rw [toolCallLoop, hevents, laterItems, ownedText, blockArguments_append, htaken.1, hloop.1,
      List.foldl_append, List.foldl_cons]
    exact ⟨rfl, hloop.2⟩

/-- What the run of tool calls is after a call of the converter. -/
def Agrees (named : Ids) (info : Info U) (blocks : Ids) : Prop :=
  info.done = true ∨ ((info.lastMessagesType = .tools ∨ named = fun _ => none) ∧
    NamedAt named blocks info.toolCallBaseIndex)

theorem Agrees.left (info : Info U) (blocks : Ids) : Agrees (fun _ => none) info blocks :=
  .inr ⟨.inr rfl, .none _ _⟩

theorem skippedItems_routed (i : Nat) (toolCalls : List ToolCallResponse) {opened named : Ids}
    (h : Routed opened named (skippedItems i toolCalls)) (id : String) :
    ownedText (·.function.arguments) id opened (skippedItems i toolCalls) = "" ∧
      (skippedItems i toolCalls).foldl Item.names named = named := by
  induction toolCalls generalizing i opened named with
  | nil => exact ⟨rfl, rfl⟩
  | cons toolCall toolCalls ih =>
    obtain ⟨hempty, hrest⟩ := h
    have hempty : toolCall.function.arguments = "" := hempty
    have hrest := ih (i + 1) hrest
    refine ⟨?_, hrest.2⟩
    rw [skippedItems, ownedText, hrest.1, Item.owned]
    simp [Item.toolCall?, hempty]

theorem blockArguments_of_deltas (id : String) (blocks : Ids) (events : List (Event U))
    (h : ∀ arguments, .inputJsonDelta arguments ∉ deltasOf events) :
    blockArguments id blocks events = "" := by
  induction events generalizing blocks with
  | nil => rfl
  | cons e events ih =>
    have hrest : ∀ arguments, .inputJsonDelta arguments ∉ deltasOf events := by
      intro arguments hmem
      apply h arguments
      rw [deltasOf, List.filterMap_cons]
      split
      · exact hmem
      · exact List.mem_cons_of_mem _ hmem
    rw [blockArguments, ih _ hrest]
    cases e with
    | contentBlockDelta index delta =>
      cases delta with
      | inputJsonDelta arguments =>
        exact absurd (by simp [deltasOf, Event.delta?]) (h arguments)
      | _ => rfl
    | _ => rfl

theorem contentDeltas_quiet (delta : ChoiceDelta) (arguments : String) :
    .inputJsonDelta arguments ∉ contentDeltas delta := by
  rw [contentDeltas]
  split_ifs <;> simp

/-- The chunk is read by both sides, and the run of tool calls goes on or was left. -/
def Carried (opened named blocks : Ids) (id : String) (items : List Item) (x : Step U) : Prop :=
  blockArguments id blocks x.1 = ownedText (·.function.arguments) id opened items ∧
    Agrees (items.foldl Item.names named) x.2 (x.1.foldl Event.reads blocks)

theorem leftItems_owned (delta : ChoiceDelta) (opened : Ids) (id : String) :
    ownedText (·.function.arguments) id opened (leftItems delta) = "" := by
  rw [leftItems]
  split <;> rfl

/-- Events without tool calls, after which no run of tool calls goes on. -/
theorem carried_left {opened named blocks : Ids} {id : String} {delta : ChoiceDelta} {x : Step U}
    (h : deltasOf x.1 = contentDeltas delta) (hleft : contentDeltas delta ≠ []) :
    Carried opened named blocks id (leftItems delta) x := by
  constructor
  · rw [leftItems_owned]
    apply blockArguments_of_deltas
    rw [h]
    exact contentDeltas_quiet delta
  · rw [leftItems, if_neg hleft]
    exact .left ..

theorem laterDelta_carried {opened named blocks : Ids} {info : Info U} {delta : ChoiceDelta}
    (h : Agrees named info blocks) (hdone : info.done = false)
    (hrouted : Routed opened named
      (if delta.toolCalls ≠ [] then laterItems 0 delta.toolCalls else leftItems delta))
    (id : String) :
    Carried opened named blocks id
      (if delta.toolCalls ≠ [] then laterItems 0 delta.toolCalls else leftItems delta)
      (laterDelta delta info) := by
  have hdeltas := deltasOf_laterDelta delta info
  by_cases htools : delta.toolCalls ≠ []
  · rw [if_pos htools] at hrouted ⊢
    have hagrees := h.resolve_left (by simp [hdone])
    have hstart : deltasOf (startTools info).1 = [] ∧ NamedAt named
        ((startTools info).1.foldl Event.reads blocks) (startTools info).2.toolCallBaseIndex := by
      rw [startTools]
      split
      next htype =>
        refine ⟨deltasOf_advance info, ?_⟩
        rw [hagrees.1.resolve_left htype]
        exact .none _ _
      next => exact ⟨rfl, hagrees.2⟩
    have hquiet : blockArguments id blocks (startTools info).1 = "" :=
      blockArguments_of_deltas id blocks _ (by simp [hstart.1])
    have hloop := toolCallLoop_routed (U := U) (startTools info).2.toolCallBaseIndex 0
      delta.toolCalls (startTools info).2.toolCallMaxIndexOffset hstart.2 hrouted id
    rw [laterDelta, if_pos htools, laterToolCalls]
    constructor
    · simp only [Step.andThen, blockArguments_append, hquiet, hloop.1, String.empty_append]
    · simp only [Step.andThen, List.foldl_append]
      exact .inr ⟨.inl rfl, hloop.2⟩
  · rw [if_neg htools] at hrouted hdeltas ⊢
    by_cases hleft : contentDeltas delta = []
    · have hevents : laterDelta delta info = ([], info) := by
        rw [contentDeltas] at hleft
        rw [laterDelta, if_neg htools]
        split at hleft
        · cases hleft
        next hreasoning =>
          split at hleft
          · cases hleft
          next hcontent => rw [if_neg hreasoning, if_neg hcontent]
      rw [leftItems, if_pos hleft, hevents]
      exact ⟨rfl, h⟩
    · exact carried_left hdeltas hleft

theorem Carried.andThen {opened named blocks : Ids} {id : String} {xs ys : List Item} {x : Step U}
    {f : Info U → Step U} (h : Carried opened named blocks id xs x)
    (hf : Carried (xs.foldl Item.opens opened) (xs.foldl Item.names named)
      (x.1.foldl Event.reads blocks) id ys (f x.2)) :
    Carried opened named blocks id (xs ++ ys) (x.andThen f) := by
  constructor
  · rw [Step.andThen, blockArguments_append, h.1, hf.1, ownedText_append]
  · rw [Step.andThen, List.foldl_append, List.foldl_append]
    exact hf.2

/-- The end of the message carries no tool call. -/
theorem finishMessage_carried (opened named blocks : Ids) (id : String) (usage : Option U)
    (stopReason : String) (info : Info U) :
    Carried opened named blocks id [] (finishMessage usage stopReason info) := by
  constructor
  · apply blockArguments_of_deltas
    simp [deltasOf_finishMessage]
  · exact .inl rfl

theorem firstToolCall_carried (opened named blocks : Ids) (delta : ChoiceDelta) {info : Info U}
    (h : Agrees named info blocks) (hrouted : Routed opened named (firstItems delta.toolCalls))
    (id : String) :
    Carried opened named blocks id (firstItems delta.toolCalls) (firstToolCall delta info) := by
  rw [firstToolCall]
  cases hcalls : delta.toolCalls with
  | nil => exact ⟨rfl, h⟩
  | cons toolCall toolCalls =>
    rw [hcalls] at hrouted
    obtain ⟨-, hitem, hrest⟩ := hrouted
    have htaken := takenEvents_routed (U := U) (NamedAt.none blocks 0) hitem id
    have hskipped := skippedItems_routed 1 toolCalls hrest id
    have hevents : .contentBlockStart 0 (.toolUse toolCall.id toolCall.function.name) ::
        argumentsDelta 0 toolCall = takenEvents (U := U) 0 0 toolCall true := rfl
    simp only [hevents]
    constructor
    · rw [htaken.1, firstItems, ownedText, ownedText, hskipped.1]
      simp [Item.owned, Item.toolCall?, Item.opens]
    · rw [firstItems, List.foldl_cons, List.foldl_cons, hskipped.2]
      exact .inr ⟨.inl rfl, htaken.2⟩

theorem firstContent_carried (opened : Ids) {named blocks : Ids} {info : Info U}
    (delta : ChoiceDelta) (h : Agrees named info blocks) (id : String) :
    Carried opened named blocks id (leftItems delta) (firstContent delta info) := by
  have hdeltas : deltasOf (firstContent delta info).1 = contentDeltas delta :=
    deltasOf_firstContent delta info
  by_cases hleft : contentDeltas delta = []
  · have hevents : firstContent delta info = ([], info) := by
      rw [contentDeltas] at hleft
      rw [firstContent]
      split at hleft
      · cases hleft
      next hreasoning =>
        split at hleft
        · cases hleft
        next hcontent => rw [if_neg hreasoning, if_neg hcontent]
    rw [leftItems, if_pos hleft, hevents]
    exact ⟨rfl, h⟩
  · exact carried_left hdeltas hleft

theorem skipped_carried {opened named blocks : Ids} {info : Info U} (i : Nat)
    (toolCalls : List ToolCallResponse) (h : Agrees named info blocks)
    (hrouted : Routed opened named (skippedItems i toolCalls)) (id : String) :
    Carried opened named blocks id (skippedItems i toolCalls) ([], info) := by
  have hskipped := skippedItems_routed i toolCalls hrouted id
  refine ⟨hskipped.1.symm, ?_⟩
  rw [hskipped.2]
  exact h

theorem firstResponse_carried {opened named blocks : Ids} {info : Info U}
    (response : StreamResponse U) (h : Agrees named info blocks)
    (hrouted : Routed opened named
      (firstItems response.delta.toolCalls ++ leftItems response.delta)) (id : String) :
    Carried opened named blocks id
      (firstItems response.delta.toolCalls ++ leftItems response.delta)
      (firstResponse response info) := by
  rw [firstResponse]
  cases hchoices : response.choices with
  | nil =>
    have hdelta : response.delta = {} := by simp [StreamResponse.delta, hchoices]
    rw [hdelta]
    exact ⟨rfl, h⟩
  | cons choice _ =>
    have hdelta : response.delta = choice.delta := by simp [StreamResponse.delta, hchoices]
    rw [hdelta] at hrouted ⊢
    rw [Routed.append] at hrouted
    have hstart : Carried opened named blocks id [] (startMessage response info) := ⟨rfl, h⟩
    have htool := firstToolCall_carried opened named blocks choice.delta h hrouted.1 id
    have hcontent := firstContent_carried ((firstItems choice.delta.toolCalls).foldl Item.opens opened)
      choice.delta htool.2 id
    refine hstart.andThen (f := fun info => (firstToolCall choice.delta info).andThen fun info =>
      (firstContent choice.delta info).andThen fun info => firstFinish response choice info)
      (htool.andThen (f := fun info => (firstContent choice.delta info).andThen fun info =>
        firstFinish response choice info) ?_)
    rw [← List.append_nil (leftItems choice.delta)]
    refine hcontent.andThen ?_
    rw [firstFinish]
    split
    · exact finishMessage_carried ..
    · exact ⟨rfl, hcontent.2⟩

theorem Agrees.reason {named blocks : Ids} {info : Info U} (h : Agrees named info blocks)
    (reason : String) : Agrees named { info with finishReason := reason } blocks := h

/-- One call of the converter. -/
theorem streamResponse_carried {opened named blocks : Ids} {info : Info U}
    (response : StreamResponse U) (h : Agrees named info blocks)
    (hrouted : Routed opened named (items info response)) (id : String) :
    Carried opened named blocks id (items info response)
      (streamResponseOpenAI2Claude response info) := by
  rw [items] at hrouted ⊢
  rw [streamResponseOpenAI2Claude]
  by_cases hdone : info.done = true
  · simp only [hdone, ↓reduceIte] at hrouted ⊢
    exact skipped_carried _ _ h hrouted id
  by_cases hcount : info.sendResponseCount = 1
  · simp only [hdone, hcount, ↓reduceIte] at hrouted ⊢
    exact firstResponse_carried response h hrouted id
  simp only [hdone, hcount, ↓reduceIte] at hrouted ⊢
  have hdone : info.done = false := by simpa using hdone
  cases hchoices : response.choices with
  | nil =>
    have hdelta : response.delta = {} := by simp [StreamResponse.delta, hchoices]
    have husable : response.usable = true := by simp [StreamResponse.usable, hchoices]
    simp only [hdelta, husable, emptyChoices]
    cases usageOf response info with
    | none => exact ⟨rfl, h⟩
    | some usage => exact finishMessage_carried ..
  | cons choice _ =>
    have hdelta : response.delta = choice.delta := by simp [StreamResponse.delta, hchoices]
    have husable : response.usable = (!choice.finishes || response.usage.isSome) := by
      simp [StreamResponse.usable, hchoices]
    simp only [hdelta, husable, laterChoice] at hrouted ⊢
    cases hfinishes : choice.finishes with
    | true =>
      cases husage : response.usage with
      | none =>
        simp only [hfinishes, husage] at hrouted
        exact skipped_carried _ _ h hrouted id
      | some usage =>
        simp only [hfinishes, husage] at hrouted
        have hlater := laterDelta_carried
          (h.reason (choice.finishReason.getD "")) hdone hrouted id
        have hfinish := hlater.andThen (f := fun info => finishMessage (usageOf response info)
          (openAIFinishReasonToClaudeStopReason info.finishReason) info)
          (finishMessage_carried _ _ _ _ _ _ _)
        rw [List.append_nil] at hfinish
        exact hfinish
    | false =>
      simp only [hfinishes] at hrouted
      exact laterDelta_carried h hdone hrouted id

def Item.start? : Item → Option (String × String)
  | .taken _ _ toolCall starts =>
    if starts then some (toolCall.id, toolCall.function.name) else none
  | .skipped _ _ => none
  | .left => none

theorem startsOf_append (xs ys : List (Event U)) :
    startsOf (xs ++ ys) = startsOf xs ++ startsOf ys := List.filterMap_append ..

theorem skippedItems_starts (i : Nat) (toolCalls : List ToolCallResponse) :
    (skippedItems i toolCalls).filterMap Item.start? = [] := by
  induction toolCalls generalizing i with
  | nil => rfl
  | cons toolCall toolCalls ih => exact ih (i + 1)

theorem leftItems_starts (delta : ChoiceDelta) : (leftItems delta).filterMap Item.start? = [] := by
  rw [leftItems]
  split <;> rfl

theorem startsOf_stopOpenBlocks (info : Info U) : startsOf (stopOpenBlocks info) = [] := by
  cases htype : info.lastMessagesType <;>
    simp [stopOpenBlocks, htype, startsOf, Event.start?]

theorem startsOf_advance (info : Info U) : startsOf (stopOpenBlocksAndAdvance info).1 = [] := by
  cases htype : info.lastMessagesType <;>
    simp [stopOpenBlocksAndAdvance, stopOpenBlocks, htype, startsOf, Event.start?]

theorem startsOf_finishMessage (usage : Option U) (stopReason : String) (info : Info U) :
    startsOf (finishMessage usage stopReason info).1 = [] := by
  rw [finishMessage, startsOf_append, startsOf_append, startsOf_stopOpenBlocks]
  cases usage <;> rfl

theorem startsOf_argumentsDelta (index : Int) (toolCall : ToolCallResponse) :
    startsOf (argumentsDelta (U := U) index toolCall) = [] := by
  rw [argumentsDelta]
  split <;> rfl

theorem startsOf_toolCallLoop (base : Int) (i : Nat) (toolCalls : List ToolCallResponse)
    (max : Int) : startsOf (toolCallLoop (U := U) base i toolCalls max).1 =
      (laterItems i toolCalls).filterMap Item.start? := by
  induction toolCalls generalizing i max with
  | nil => rfl
  | cons toolCall toolCalls ih =>
    rw [toolCallLoop, laterItems, startsOf_append, ih, toolCallEvents, startsOf_append,
      startsOf_argumentsDelta]
    by_cases hname : toolCall.function.name = "" <;>
      simp [hname, startsOf, Event.start?, Item.start?]

theorem startsOf_contentBlock (block : ContentBlock) (delta : Delta) (index : Int)
    (hblock : block = .text ∨ block = .thinking) :
    startsOf ([.contentBlockStart index block, .contentBlockDelta index delta] : List (Event U)) =
      [] := by
  rcases hblock with rfl | rfl <;> rfl

theorem startsOf_continueBlock (type : LastMessageType) {block : ContentBlock} (delta : Delta)
    (info : Info U) (hblock : block = .text ∨ block = .thinking) :
    startsOf (continueBlock type block delta info).1 = [] := by
  rw [continueBlock]
  split
  · simp only [Step.andThen, startsOf_append, startsOf_advance, startsOf_contentBlock _ _ _ hblock,
      List.append_nil]
  · rfl

theorem startsOf_startBlock (type : LastMessageType) {block : ContentBlock} (delta : Delta)
    (info : Info U) (hblock : block = .text ∨ block = .thinking) :
    startsOf (startBlock type block delta info).1 = [] := by
  rw [startBlock]
  split
  · simp only [Step.andThen, startsOf_append, startsOf_advance, startsOf_contentBlock _ _ _ hblock,
      List.append_nil]
  · exact startsOf_contentBlock _ _ _ hblock

theorem startsOf_laterDelta (delta : ChoiceDelta) (info : Info U) :
    startsOf (laterDelta delta info).1 =
      (if delta.toolCalls ≠ [] then laterItems 0 delta.toolCalls
        else leftItems delta).filterMap Item.start? := by
  rw [laterDelta]
  split
  · have hstart : startsOf (startTools info).1 = [] := by
      rw [startTools]
      split
      · exact startsOf_advance info
      · rfl
    simp only [laterToolCalls, Step.andThen, startsOf_append, hstart, startsOf_toolCallLoop,
      List.nil_append]
  · rw [leftItems_starts]
    split
    · exact startsOf_continueBlock _ _ _ (.inr rfl)
    split
    · exact startsOf_continueBlock _ _ _ (.inl rfl)
    · rfl

theorem startsOf_firstResponse (response : StreamResponse U) (info : Info U) :
    startsOf (firstResponse response info).1 =
      (firstItems response.delta.toolCalls ++ leftItems response.delta).filterMap Item.start? := by
  rw [firstResponse, StreamResponse.delta, List.filterMap_append, leftItems_starts]
  cases response.choices with
  | nil => rfl
  | cons choice _ =>
    have htool : startsOf (firstToolCall choice.delta info).1 =
        (firstItems choice.delta.toolCalls).filterMap Item.start? := by
      rw [firstToolCall]
      cases choice.delta.toolCalls with
      | nil => rfl
      | cons toolCall toolCalls =>
        show startsOf ([.contentBlockStart 0 _] ++ argumentsDelta 0 toolCall) = _
        have hitems : (firstItems (toolCall :: toolCalls)).filterMap Item.start? =
            (toolCall.id, toolCall.function.name) ::
              (skippedItems 1 toolCalls).filterMap Item.start? := rfl
        rw [startsOf_append, startsOf_argumentsDelta, hitems, skippedItems_starts]
        rfl
    have hcontent : ∀ info : Info U, startsOf (firstContent choice.delta info).1 = [] := by
      intro info
      rw [firstContent]
      split
      · exact startsOf_startBlock _ _ _ (.inr rfl)
      split
      · exact startsOf_startBlock _ _ _ (.inl rfl)
      · rfl
    have hfinish : ∀ info : Info U, startsOf (firstFinish response choice info).1 = [] := by
      intro info
      rw [firstFinish]
      split
      · exact startsOf_finishMessage ..
      · rfl
    simp only [Step.andThen, startsOf_append, startMessage, htool, hcontent, hfinish]
    simp [startsOf, Event.start?]

theorem startsOf_streamResponse (response : StreamResponse U) (info : Info U) :
    startsOf (streamResponseOpenAI2Claude response info).1 =
      (items info response).filterMap Item.start? := by
  rw [items, apply_ite (List.filterMap Item.start?), apply_ite (List.filterMap Item.start?),
    apply_ite (List.filterMap Item.start?), skippedItems_starts, ← startsOf_firstResponse response info]
  exact read_streamResponse startsOf_finishMessage startsOf_laterDelta response info

/-- The tool calls of a chunk with their indices, as its client reads them. -/
def indexed (i : Nat) : List ToolCallResponse → List (Int × ToolCallResponse)
  | [] => []
  | toolCall :: toolCalls => (toolOffset i toolCall, toolCall) :: indexed (i + 1) toolCalls

def toolCallsOf (chunks : List (StreamResponse U)) : List (Int × ToolCallResponse) :=
  chunks.flatMap fun response => indexed 0 response.delta.toolCalls

/-- The ids that own a tool call of the chunks. -/
def clientIds : Ids → List (Int × ToolCallResponse) → List String
  | _, [] => []
  | opened, (index, toolCall) :: toolCalls =>
    (owner opened index toolCall).toList ++
      clientIds (opened.set index (owner opened index toolCall)) toolCalls

/-- A text of the tool calls that the id owns. -/
def clientText (f : ToolCallResponse → String) (id : String) : Ids →
    List (Int × ToolCallResponse) → String
  | _, [] => ""
  | opened, (index, toolCall) :: toolCalls =>
    (if owner opened index toolCall = some id then f toolCall else "") ++
      clientText f id (opened.set index (owner opened index toolCall)) toolCalls

theorem ownedText_eq (f : ToolCallResponse → String) (id : String) (opened : Ids)
    (items : List Item) :
    ownedText f id opened items = clientText f id opened (items.filterMap Item.toolCall?) := by
  induction items generalizing opened with
  | nil => rfl
  | cons item items ih =>
    rw [ownedText, ih]
    cases item with
    | left => exact String.empty_append
    | skipped index toolCall => rfl
    | taken index place toolCall starts => rfl

theorem skippedItems_toolCalls (i : Nat) (toolCalls : List ToolCallResponse) :
    (skippedItems i toolCalls).filterMap Item.toolCall? = indexed i toolCalls := by
  induction toolCalls generalizing i with
  | nil => rfl
  | cons toolCall toolCalls ih =>
    have hrest := ih (i + 1)
    exact congrArg _ hrest

theorem laterItems_toolCalls (i : Nat) (toolCalls : List ToolCallResponse) :
    (laterItems i toolCalls).filterMap Item.toolCall? = indexed i toolCalls := by
  induction toolCalls generalizing i with
  | nil => rfl
  | cons toolCall toolCalls ih =>
    have hrest := ih (i + 1)
    exact congrArg _ hrest

theorem items_toolCalls (info : Info U) (response : StreamResponse U) :
    (items info response).filterMap Item.toolCall? = indexed 0 response.delta.toolCalls := by
  have hleft : (leftItems response.delta).filterMap Item.toolCall? = [] := by
    rw [leftItems]
    split <;> rfl
  have hfirst : (firstItems response.delta.toolCalls).filterMap Item.toolCall? =
      indexed 0 response.delta.toolCalls := by
    cases response.delta.toolCalls with
    | nil => rfl
    | cons toolCall toolCalls =>
      have hrest := skippedItems_toolCalls 1 toolCalls
      exact congrArg _ hrest
  rw [items]
  split
  · exact skippedItems_toolCalls ..
  split
  · rw [List.filterMap_append, hfirst, hleft, List.append_nil]
  split
  · exact skippedItems_toolCalls ..
  split
  · exact laterItems_toolCalls ..
  next htools =>
    rw [hleft, not_not.1 htools]
    rfl

/-- The tool calls of a stream, as the converter takes them. -/
def streamItems (responses : List (StreamResponse U)) (last : StreamResponse U) (usage : Option U)
    (info : Info U) : List Item :=
  (calls responses last usage info).flatMap fun c => items c.1 c.2

theorem streamItems_toolCalls (responses : List (StreamResponse U)) (last : StreamResponse U)
    (usage : Option U) (info : Info U) :
    (streamItems responses last usage info).filterMap Item.toolCall? =
      toolCallsOf (responses ++ [last]) := by
  rw [streamItems, toolCallsOf, ← calls_responses responses last usage info, List.flatMap_map,
    List.filterMap_flatMap]
  simp only [items_toolCalls]

theorem startsOf_claudeEvents (responses : List (StreamResponse U)) (last : StreamResponse U)
    (usage : Option U) (info : Info U) :
    startsOf (claudeEvents responses last usage info) =
      (streamItems responses last usage info).filterMap Item.start? := by
  rw [claudeEvents_eq, streamItems, startsOf, List.filterMap_flatMap, List.filterMap_flatMap]
  simp only [← startsOf_streamResponse]
  rfl

/-- The arguments of every call of a stream that is routed are those of its block. -/
theorem blockArguments_stream (responses : List (StreamResponse U)) (last : StreamResponse U)
    (usage : Option U) {info : Info U} {opened named blocks : Ids} (h : Agrees named info blocks)
    (hrouted : Routed opened named (streamItems responses last usage info)) (id : String) :
    blockArguments id blocks (claudeEvents responses last usage info) =
      ownedText (·.function.arguments) id opened (streamItems responses last usage info) := by
  rw [claudeEvents_eq]
  induction responses generalizing info opened named blocks with
  | nil =>
    simp only [streamItems, calls, List.flatMap_cons, List.flatMap_nil, List.append_nil] at hrouted ⊢
    have h : Agrees named { info with usage } blocks := h
    exact (streamResponse_carried last h hrouted id).1
  | cons response responses ih =>
    simp only [streamItems, calls, List.flatMap_cons] at hrouted ⊢
    rw [Routed.append] at hrouted
    have h : Agrees named { info with
      sendResponseCount := info.sendResponseCount + 1
      usage := response.usage.or info.usage } blocks := h
    have hstep := streamResponse_carried response h hrouted.1 id
    rw [blockArguments_append, ownedText_append, hstep.1]
    have hrest := ih hstep.2 hrouted.2
    simp only [streamItems] at hrest
    rw [hrest]

def Item.name (item : Item) : String := (item.toolCall?.map (·.2.function.name)).getD ""

/-- The name of a tool call: where every named one starts a block, the names of its blocks. -/
theorem ownedText_name (id : String) (opened : Ids) (items : List Item)
    (hnamed : ∀ item ∈ items, item.start? = none → item.name = "") :
    ownedText (·.function.name) id opened items =
      concat (((items.filterMap Item.start?).filter (·.1 = id)).map Prod.snd) := by
  induction items generalizing opened with
  | nil => rfl
  | cons item items ih =>
    have hrest := ih (item.opens opened) fun i hi => hnamed i (List.mem_cons_of_mem _ hi)
    have hitem := hnamed item (by simp)
    rw [ownedText, hrest]
    cases hstart : item.start? with
    | none =>
      have hempty : item.owned (·.function.name) id opened = "" := by
        have hname := hitem hstart
        rw [Item.name] at hname
        rw [Item.owned]
        cases htool : item.toolCall? with
        | none => rfl
        | some toolCall =>
          rw [htool] at hname
          have hname : toolCall.2.function.name = "" := hname
          simp [hname]
      rw [hempty, List.filterMap_cons_none hstart, String.empty_append]
    | some start =>
      rw [List.filterMap_cons_some hstart]
      cases item with
      | left => cases hstart
      | skipped index toolCall => cases hstart
      | taken index place toolCall starts =>
        cases starts with
        | false => cases hstart
        | true =>
          cases hstart
          rw [List.filter_cons, Item.owned]
          by_cases hname : toolCall.function.name = ""
          · by_cases hid : toolCall.id = id <;> simp [Item.toolCall?, hname, hid, concat]
          · by_cases hid : toolCall.id = id <;> simp [Item.toolCall?, owner, hname, hid, concat]

theorem filter_of_nodup {l : List (String × String)} (h : (l.map Prod.fst).Nodup) {id : String}
    (hid : id ∈ l.map Prod.fst) : ∃ name, l.filter (·.1 = id) = [(id, name)] := by
  induction l with
  | nil => cases hid
  | cons x l ih =>
    obtain ⟨y, name⟩ := x
    rw [List.map_cons, List.nodup_cons] at h
    by_cases hy : y = id
    · subst hy
      have hnone : l.filter (fun z => z.1 = y) = [] := by
        rw [List.filter_eq_nil_iff]
        intro z hz
        have hne : z.1 ≠ y := by
          intro hz1
          have hmem : z.1 ∈ l.map Prod.fst := List.mem_map_of_mem hz
          rw [hz1] at hmem
          exact h.1 hmem
        simpa using hne
      exact ⟨name, by simp [hnone]⟩
    · have hmem : id ∈ l.map Prod.fst := by
        rw [List.map_cons, List.mem_cons] at hid
        exact hid.resolve_left (Ne.symm hy)
      obtain ⟨name', hname⟩ := ih h.2 hmem
      exact ⟨name', by simp [hy, hname]⟩

def noIds : Ids := fun _ => none

/-- The tool calls of a stream are taken: every one that has a name starts a block, no id starts
two, every id starts one, and the arguments come to the block of their call. -/
structure ToolCallsTaken (items : List Item) : Prop where
  named : ∀ item ∈ items, item.start? = none → item.name = ""
  once : ((items.filterMap Item.start?).map Prod.fst).Nodup
  complete : ∀ id ∈ clientIds noIds (items.filterMap Item.toolCall?),
    id ∈ (items.filterMap Item.start?).map Prod.fst
  routed : Routed noIds noIds items

/-- The events carry the texts, the reasoning and the tool calls of the chunks. -/
structure Lossless (chunks : List (StreamResponse U)) (events : List (Event U)) : Prop where
  text : concat ((deltasOf events).map Delta.text) = concat (chunks.map (·.delta.getContentString))
  thinking : concat ((deltasOf events).map Delta.thinking) =
    concat (chunks.map (·.delta.getReasoningContent))
  toolCalls : ∀ id ∈ clientIds noIds (toolCallsOf chunks),
    (startsOf events).filter (·.1 = id) =
        [(id, clientText (·.function.name) id noIds (toolCallsOf chunks))] ∧
      blockArguments id noIds events =
        clientText (·.function.arguments) id noIds (toolCallsOf chunks)

theorem toolCalls_lossless (responses : List (StreamResponse U)) (last : StreamResponse U)
    (usage : Option U) (info : Info U)
    (h : ToolCallsTaken (streamItems responses last usage info)) (id : String)
    (hid : id ∈ clientIds noIds (toolCallsOf (responses ++ [last]))) :
    (startsOf (claudeEvents responses last usage info)).filter (·.1 = id) =
        [(id, clientText (·.function.name) id noIds (toolCallsOf (responses ++ [last])))] ∧
      blockArguments id noIds (claudeEvents responses last usage info) =
        clientText (·.function.arguments) id noIds (toolCallsOf (responses ++ [last])) := by
  have hcalls := streamItems_toolCalls responses last usage info
  constructor
  · rw [← hcalls] at hid
    obtain ⟨name, hname⟩ := filter_of_nodup h.once (h.complete id hid)
    have howned := ownedText_name id noIds _ h.named
    rw [ownedText_eq, hcalls, hname] at howned
    rw [startsOf_claudeEvents, hname, howned]
    simp [concat]
  · rw [blockArguments_stream responses last usage (Agrees.left info noIds) h.routed id,
      ownedText_eq, hcalls]

/-- A stream loses no text and no reasoning exactly when both are taken of every chunk, and loses
nothing when its tool calls are taken too. -/
theorem claude_stream_lossless (responses : List (StreamResponse U)) (last : StreamResponse U)
    (usage : Option U) (info : Info U) :
    (Lossless (responses ++ [last]) (claudeEvents responses last usage info) →
      ∀ c ∈ calls responses last usage info, ContentTaken c.1 c.2 ∧ ReasoningTaken c.1 c.2) ∧
    ((∀ c ∈ calls responses last usage info, ContentTaken c.1 c.2 ∧ ReasoningTaken c.1 c.2) →
      ToolCallsTaken (streamItems responses last usage info) →
      Lossless (responses ++ [last]) (claudeEvents responses last usage info)) := by
  have htext := texts_eq_iff Delta.text (·.delta.getContentString) ContentTaken text_taken
    text_taken_iff responses last usage info
  have hthinking := texts_eq_iff Delta.thinking (·.delta.getReasoningContent) ReasoningTaken
    thinking_taken thinking_taken_iff responses last usage info
  constructor
  · intro h c hc
    exact ⟨htext.1 h.text c hc, hthinking.1 h.thinking c hc⟩
  · intro htaken htools
    exact {
      text := htext.2 fun c hc => (htaken c hc).1
      thinking := hthinking.2 fun c hc => (htaken c hc).2
      toolCalls := toolCalls_lossless responses last usage info htools }

def sampleChunk (delta : ChoiceDelta) (finishReason : Option String) : StreamResponse Nat where
  id := "chatcmpl-1"
  model := "gpt-4o"
  choices := [{ delta, finishReason }]

def sampleChunks : List (StreamResponse Nat) := [
  sampleChunk { reasoningContent := some "Look it up." } none,
  sampleChunk { content := some "One " } none,
  sampleChunk { content := some "moment." } none,
  sampleChunk { toolCalls := [
    { index := some 0, id := "call_a", function := { name := "search", arguments := "\x7b\"q\":" } },
    { index := some 1, id := "call_b", function := { name := "clock" } }] } none,
  sampleChunk { toolCalls := [{ index := some 0, function := { arguments := "1\x7d" } }] } none,
  sampleChunk { toolCalls := [{ index := some 1, function := { arguments := "{}" } }] } none,
  sampleChunk {} (some "tool_calls")]

/-- Reasoning, text and two tool calls, one after the other. -/
theorem claude_stream_lossless_sample :
    Lossless (sampleChunks ++ [{ choices := [], usage := some 40 }])
      (claudeEvents sampleChunks { choices := [], usage := some 40 } (some 40)
        { estimatePromptTokens := 5 }) :=
  (claude_stream_lossless sampleChunks { choices := [], usage := some 40 } (some 40)
    { estimatePromptTokens := 5 }).2 (by decide) ⟨by decide, by decide, by decide, by decide⟩

/-- The end of a text that comes with the finish reason is lost. -/
theorem last_text_lost :
    ¬ Lossless [sampleChunk { content := some "Hel" } none, sampleChunk { content := some "lo" } none,
        sampleChunk { content := some "!" } (some "stop")]
      (claudeEvents [sampleChunk { content := some "Hel" } none,
          sampleChunk { content := some "lo" } none]
        (sampleChunk { content := some "!" } (some "stop")) (some 40)
        { estimatePromptTokens := 5 }) := by
  intro h
  exact absurd h.text (by decide)

end CodeGo.Gateway.ClaudeStream
