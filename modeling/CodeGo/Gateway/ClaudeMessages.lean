import CodeGo.Gateway.ClaudeGrammar

/-!
# Which chunks become a message

The converter leaves the grammar where a finish reason comes without a usage, where a stream has
fewer than three chunks, and where tool calls need more than one block at a time. `Convertible`
reads the chunks alone and says when none of this happens.
-/

namespace CodeGo.Gateway.ClaudeStream

variable {U : Type}

/-- The block that the chunks have opened. A tool is `named` when its block was started, and `wide`
when a tool call stood at an offset behind it. -/
inductive Shape where
  | none | text | thinking
  | tool (named wide : Bool)
  deriving DecidableEq, Repr

/-- The stops that are sent for it are those of the blocks that were started. -/
def Shape.closes : Shape → Bool
  | .tool named wide => named && !wide
  | _ => true

def Shape.becomes (shape next : Shape) : Option Shape :=
  if shape = next ∨ shape.closes then some next else Option.none

/-- Whether the tool is named and wide when tool calls go on or begin. -/
def Shape.tools : Shape → Bool × Bool
  | .tool named wide => (named, wide)
  | _ => (false, false)

/-- A tool call has the block at offset 0, is named once, and is named before its arguments. -/
def ToolCallResponse.fits (toolCall : ToolCallResponse) (i : Nat) (named : Bool) : Bool :=
  (toolCall.function.name = "" || (!named && toolOffset i toolCall = 0)) &&
    (toolCall.function.arguments = "" ||
      ((named || toolCall.function.name ≠ "") && toolOffset i toolCall = 0))

def readToolCalls : Nat → List ToolCallResponse → Bool → Bool → Option Shape
  | _, [], named, wide => some (.tool named wide)
  | i, toolCall :: toolCalls, named, wide =>
    if toolCall.fits i named then
      readToolCalls (i + 1) toolCalls (named || toolCall.function.name ≠ "")
        (wide || 0 < toolOffset i toolCall)
    else none

def readDelta (delta : ChoiceDelta) (shape : Shape) : Option Shape :=
  if delta.toolCalls ≠ [] then readToolCalls 0 delta.toolCalls shape.tools.1 shape.tools.2
  else if delta.getReasoningContent ≠ "" then shape.becomes .thinking
  else if delta.getContentString ≠ "" then shape.becomes .text
  else some shape

/-- Where a stream of chunks is after its first one. -/
inductive Reading where
  | body (shape : Shape)
  | finished
  deriving DecidableEq, Repr

def Shape.finish (shape : Shape) : Option Reading :=
  if shape.closes then some .finished else Option.none

/-- Of the deltas of the first chunk one has the block that stays open. -/
def readFirstDelta (delta : ChoiceDelta) : Shape :=
  if delta.getReasoningContent ≠ "" then .thinking
  else if delta.getContentString ≠ "" then .text
  else if delta.toolCalls ≠ [] then .tool true false
  else .none

def readFirst (response : StreamResponse U) : Option Reading :=
  match response.choices with
  | [] => some (.body .none)
  | choice :: _ =>
    if choice.finishes then if response.usage.isSome then some .finished else none
    else some (.body (readFirstDelta choice.delta))

/-- A later chunk; `known` says that a usage was seen. -/
def readLater (known : Bool) (response : StreamResponse U) : Reading → Option Reading
  | .finished => some .finished
  | .body shape =>
    match response.choices with
    | [] => if known then shape.finish else some (.body shape)
    | choice :: _ =>
      if choice.finishes then
        if response.usage.isSome then (readDelta choice.delta shape).bind Shape.finish
        else some (.body shape)
      else (readDelta choice.delta shape).map .body

def readStream (known : Bool) : List (StreamResponse U) → Reading → Option Reading
  | [], reading => some reading
  | response :: responses, reading =>
    let known := response.usage.isSome || known
    (readLater known response reading).bind (readStream known responses)

/-- The last chunk goes to the final handler with a usage of its own. -/
def readLast (last : StreamResponse U) (usage : Option U) (reading : Reading) : Option Reading :=
  readLater (last.usage.isSome || usage.isSome) last reading

/-- What follows the first chunk ends the message. The last chunk would start it again if it were
the second. -/
def completes (known : Bool) (rest : List (StreamResponse U)) (last : StreamResponse U)
    (usage : Option U) : Reading → Bool
  | .finished => true
  | .body shape =>
    rest ≠ [] &&
      (readStream known rest (.body shape)).bind (readLast last usage) = some .finished

/-- The streams that become a message. -/
def Convertible (responses : List (StreamResponse U)) (last : StreamResponse U)
    (usage : Option U) : Bool :=
  match responses with
  | [] => false
  | first :: rest => (readFirst first).any (completes first.usage.isSome rest last usage)

/-- The state that the blocks do not change. -/
structure Kept (info info' : Info U) : Prop where
  usage : info'.usage = info.usage
  finishReason : info'.finishReason = info.finishReason
  done : info'.done = info.done
  sendResponseCount : info'.sendResponseCount = info.sendResponseCount

theorem Kept.refl (info : Info U) : Kept info info := ⟨rfl, rfl, rfl, rfl⟩

theorem Kept.trans {a b c : Info U} (h : Kept a b) (h' : Kept b c) : Kept a c where
  usage := h'.usage.trans h.usage
  finishReason := h'.finishReason.trans h.finishReason
  done := h'.done.trans h.done
  sendResponseCount := h'.sendResponseCount.trans h.sendResponseCount

theorem Kept.andThen {info : Info U} {x : Step U} {f : Info U → Step U} (h : Kept info x.2)
    (hf : Kept x.2 (f x.2).2) : Kept info (x.andThen f).2 := h.trans hf

theorem stopOpenBlocksAndAdvance_kept (info : Info U) :
    Kept info (stopOpenBlocksAndAdvance info).2 := by
  rw [stopOpenBlocksAndAdvance]
  split <;> exact ⟨rfl, rfl, rfl, rfl⟩

theorem startTools_kept (info : Info U) : Kept info (startTools info).2 := by
  rw [startTools]
  split
  · have h := stopOpenBlocksAndAdvance_kept info
    exact ⟨h.usage, h.finishReason, h.done, h.sendResponseCount⟩
  · exact .refl info

theorem continueBlock_kept (type : LastMessageType) (block : ContentBlock) (delta : Delta)
    (info : Info U) : Kept info (continueBlock type block delta info).2 := by
  rw [continueBlock]
  split
  · exact (stopOpenBlocksAndAdvance_kept info).andThen ⟨rfl, rfl, rfl, rfl⟩
  · exact ⟨rfl, rfl, rfl, rfl⟩

theorem laterDelta_kept (delta : ChoiceDelta) (info : Info U) :
    Kept info (laterDelta delta info).2 := by
  rw [laterDelta]
  split
  · exact (startTools_kept info).andThen ⟨rfl, rfl, rfl, rfl⟩
  split
  · exact continueBlock_kept ..
  split
  · exact continueBlock_kept ..
  · exact .refl info

theorem firstToolCall_kept (delta : ChoiceDelta) (info : Info U) :
    Kept info (firstToolCall delta info).2 := by
  rw [firstToolCall]
  split <;> exact ⟨rfl, rfl, rfl, rfl⟩

theorem startBlock_kept (type : LastMessageType) (block : ContentBlock) (delta : Delta)
    (info : Info U) : Kept info (startBlock type block delta info).2 := by
  rw [startBlock]
  split
  · exact (stopOpenBlocksAndAdvance_kept info).andThen ⟨rfl, rfl, rfl, rfl⟩
  · exact (Kept.refl info).andThen ⟨rfl, rfl, rfl, rfl⟩

theorem firstContent_kept (delta : ChoiceDelta) (info : Info U) :
    Kept info (firstContent delta info).2 := by
  rw [firstContent]
  split
  · exact startBlock_kept ..
  split
  · exact startBlock_kept ..
  · exact .refl info

/-- Where the message is when the tool calls begin at `base`. -/
def toolPhase (base : Int) (named : Bool) : Phase :=
  if named then .body (base + 1) (some .tool) else .body base none

def Shape.At (info : Info U) (p : Phase) : Shape → Prop
  | .none => info.lastMessagesType = .none ∧ p = .body info.index Option.none
  | .text => info.lastMessagesType = .text ∧ p = .body (info.index + 1) (some .text)
  | .thinking => info.lastMessagesType = .thinking ∧ p = .body (info.index + 1) (some .thinking)
  | .tool named wide =>
    info.lastMessagesType = .tools ∧ 0 ≤ info.toolCallMaxIndexOffset ∧
      wide = decide (0 < info.toolCallMaxIndexOffset) ∧ p = toolPhase info.toolCallBaseIndex named

/-- The events and the chunks are read to the same place, or both refused. -/
def Follows {A : Type} (At : Info U → Phase → A → Prop) (p : Phase) (x : Step U) : Option A → Prop
  | none => run p x.1 = none
  | some a => ∃ q, run p x.1 = some q ∧ At x.2 q a

theorem run_andThen (p : Phase) (x : Step U) (f : Info U → Step U) :
    run p (x.andThen f).1 = (run p x.1).bind (run · (f x.2).1) := run_append ..

theorem Follows.next {A B : Type} {At : Info U → Phase → A → Prop} {At' : Info U → Phase → B → Prop}
    {p : Phase} {x : Step U} {f : Info U → Step U} {a : A} {b : Option B}
    (h : Follows At p x (some a)) (hf : ∀ q, At x.2 q a → Follows At' q (f x.2) b) :
    Follows At' p (x.andThen f) b := by
  obtain ⟨q, hrun, hat⟩ := h
  have hf := hf q hat
  cases b with
  | none =>
    rw [Follows, run_andThen, hrun]
    exact hf
  | some b =>
    obtain ⟨q', hrun', hat'⟩ := hf
    exact ⟨q', by rw [run_andThen, hrun]; exact hrun', hat'⟩

theorem Follows.andThen {A B : Type} {At : Info U → Phase → A → Prop}
    {At' : Info U → Phase → B → Prop} {p : Phase} {x : Step U} {f : Info U → Step U} {a : Option A}
    {b : A → Option B} (h : Follows At p x a)
    (hf : ∀ q a, At x.2 q a → Follows At' q (f x.2) (b a)) :
    Follows At' p (x.andThen f) (a.bind b) := by
  cases a with
  | none =>
    have h : run p x.1 = none := h
    rw [Option.bind_none, Follows, run_andThen, h, Option.bind_none]
  | some a => exact h.next fun q hat => hf q a hat

/-- The next index once all blocks are stopped. -/
def Info.nextIndex (info : Info U) : Int :=
  match info.lastMessagesType with
  | .none => info.index
  | .tools => info.toolCallBaseIndex + info.toolCallMaxIndexOffset + 1
  | _ => info.index + 1

theorem run_stop_range (base : Int) (max : Int) (named : Bool) (h : 0 ≤ max) :
    run (toolPhase base named) ((List.range (max + 1).toNat).map fun (offset : Nat) =>
      (.contentBlockStop (base + offset) : Event U)) =
      if named && !decide (0 < max) then some (.body (base + 1) none) else none := by
  obtain ⟨n, rfl⟩ := Int.eq_ofNat_of_zero_le h
  have hlength : ((n : Int) + 1).toNat = n + 1 := by omega
  rw [hlength, List.range_succ_eq_map]
  cases named with
  | false => simp [run, accept, toolPhase]
  | true =>
    cases n with
    | zero => simp [run, accept, toolPhase]
    | succ n =>
      rw [List.range_succ_eq_map]
      simp [run, accept, toolPhase]

theorem run_stopOpenBlocks {info : Info U} {p : Phase} {shape : Shape} (h : shape.At info p) :
    run p (stopOpenBlocks info) =
      if shape.closes then some (.body info.nextIndex none) else none := by
  cases shape with
  | none =>
    obtain ⟨htype, rfl⟩ := h
    simp [stopOpenBlocks, Info.nextIndex, htype, run, Shape.closes]
  | text =>
    obtain ⟨htype, rfl⟩ := h
    simp [stopOpenBlocks, Info.nextIndex, htype, run, accept, Shape.closes]
  | thinking =>
    obtain ⟨htype, rfl⟩ := h
    simp [stopOpenBlocks, Info.nextIndex, htype, run, accept, Shape.closes]
  | tool named wide =>
    obtain ⟨htype, hmax, rfl, rfl⟩ := h
    simp only [stopOpenBlocks, Info.nextIndex, htype, Shape.closes, run_stop_range _ _ named hmax]
    split
    next hcloses =>
      have hzero : info.toolCallMaxIndexOffset = 0 := by
        simp at hcloses
        omega
      simp [hzero]
    next => rfl

theorem stopOpenBlocksAndAdvance_events (info : Info U) :
    (stopOpenBlocksAndAdvance info).1 = stopOpenBlocks info := by
  cases htype : info.lastMessagesType <;> simp [stopOpenBlocksAndAdvance, stopOpenBlocks, htype]

theorem stopOpenBlocksAndAdvance_type (info : Info U) :
    (stopOpenBlocksAndAdvance info).2.lastMessagesType = .none := by
  cases htype : info.lastMessagesType <;> simp [stopOpenBlocksAndAdvance, htype]

theorem stopOpenBlocksAndAdvance_index (info : Info U) :
    (stopOpenBlocksAndAdvance info).2.index = info.nextIndex := by
  cases htype : info.lastMessagesType <;> simp [stopOpenBlocksAndAdvance, Info.nextIndex, htype]

/-- No block is open. -/
def Closed (info : Info U) (p : Phase) (_ : Unit) : Prop := Shape.none.At info p

theorem follows_advance {info : Info U} {p : Phase} {shape : Shape} (h : shape.At info p) :
    Follows Closed p (stopOpenBlocksAndAdvance info) (if shape.closes then some () else none) := by
  have hrun := run_stopOpenBlocks h
  split at hrun
  next hcloses =>
    rw [if_pos hcloses]
    refine ⟨.body info.nextIndex none, ?_, stopOpenBlocksAndAdvance_type info, ?_⟩
    · rw [stopOpenBlocksAndAdvance_events, hrun]
    · rw [stopOpenBlocksAndAdvance_index]
  next hcloses =>
    rw [if_neg hcloses, Follows, stopOpenBlocksAndAdvance_events, hrun]

section Deltas

theorem run_toolCallEvents (base : Int) (i : Nat) (toolCall : ToolCallResponse) (named : Bool) :
    run (toolPhase base named) (toolCallEvents base i toolCall : List (Event U)) =
      if toolCall.fits i named then
        some (toolPhase base (named || toolCall.function.name ≠ ""))
      else none := by
  rw [toolCallEvents, argumentsDelta, ToolCallResponse.fits]
  generalize toolOffset i toolCall = offset
  have hindex : base + offset = base ↔ offset = 0 := by omega
  by_cases hname : toolCall.function.name = "" <;>
    by_cases hargs : toolCall.function.arguments = "" <;>
      by_cases hoffset : offset = 0 <;> cases named <;>
        simp [run, accept, toolPhase, hname, hargs, hoffset, hindex, ContentBlock.kind, Delta.kind]

theorem toolCallLoop_max (base : Int) (i : Nat) (toolCalls : List ToolCallResponse) (max : Int) :
    max ≤ (toolCallLoop (U := U) base i toolCalls max).2 := by
  induction toolCalls generalizing i max with
  | nil => exact Int.le_refl max
  | cons toolCall toolCalls ih =>
    rw [toolCallLoop]
    split
    next h => exact Int.le_trans (Int.le_of_lt h) (ih ..)
    next => exact ih ..

/-- The loop over the tool calls, from `max` on. -/
theorem run_toolCallLoop (base : Int) (i : Nat) (toolCalls : List ToolCallResponse) (max : Int)
    (named : Bool) (hmax : 0 ≤ max) :
    match readToolCalls i toolCalls named (decide (0 < max)) with
    | some shape =>
      ∃ named', shape = .tool named' (decide (0 < (toolCallLoop (U := U) base i toolCalls max).2)) ∧
        run (toolPhase base named) (toolCallLoop (U := U) base i toolCalls max).1 =
          some (toolPhase base named')
    | none => run (toolPhase base named) (toolCallLoop (U := U) base i toolCalls max).1 = none := by
  induction toolCalls generalizing i max named with
  | nil => exact ⟨named, rfl, rfl⟩
  | cons toolCall toolCalls ih =>
    rw [readToolCalls, toolCallLoop]
    simp only [run_append, run_toolCallEvents]
    by_cases hfits : toolCall.fits i named
    · rw [if_pos hfits, if_pos hfits, Option.bind_some]
      generalize hnext : (if toolOffset i toolCall > max then toolOffset i toolCall else max) = next
      have hpos : 0 ≤ next := by
        rw [← hnext]
        split <;> omega
      have hwide : (decide (0 < max) || decide (0 < toolOffset i toolCall)) = decide (0 < next) := by
        rw [← hnext, ← Bool.decide_or, decide_eq_decide]
        split <;> omega
      rw [hwide]
      exact ih (i + 1) next _ hpos
    · rw [if_neg hfits, if_neg hfits, Option.bind_none]

/-- Where the tool calls of a chunk begin. -/
def ToolsAt (info : Info U) (q : Phase) (tools : Bool × Bool) : Prop :=
  0 ≤ info.toolCallMaxIndexOffset ∧ tools.2 = decide (0 < info.toolCallMaxIndexOffset) ∧
    q = toolPhase info.toolCallBaseIndex tools.1

theorem follows_startTools {info : Info U} {p : Phase} {shape : Shape} (h : shape.At info p) :
    Follows ToolsAt p (startTools info) (some shape.tools) := by
  rw [startTools]
  split
  next htype =>
    have hadvance := follows_advance h
    have hcloses : shape.closes = true := by
      cases shape with
      | tool named wide => exact absurd h.1 htype
      | _ => rfl
    rw [if_pos hcloses] at hadvance
    obtain ⟨q, hrun, hat⟩ := hadvance
    have htools : shape.tools = (false, false) := by
      cases shape with
      | tool named wide => exact absurd h.1 htype
      | _ => rfl
    rw [htools]
    exact ⟨q, hrun, by simp, by simp, hat.2⟩
  next htype =>
    cases shape with
    | tool named wide => exact ⟨p, rfl, h.2⟩
    | _ => simp [h.1] at htype

theorem follows_laterToolCalls (toolCalls : List ToolCallResponse) {info : Info U} {p : Phase}
    {shape : Shape} (h : shape.At info p) :
    Follows Shape.At p (laterToolCalls toolCalls info)
      (readToolCalls 0 toolCalls shape.tools.1 shape.tools.2) := by
  apply (follows_startTools h).next
  generalize shape.tools = tools
  obtain ⟨named, wide⟩ := tools
  intro q ⟨hmax, hwide, hq⟩
  simp only at hwide hq ⊢
  have hloop := run_toolCallLoop (U := U) (startTools info).2.toolCallBaseIndex 0 toolCalls _ named
    hmax
  have hle := toolCallLoop_max (U := U) (startTools info).2.toolCallBaseIndex 0 toolCalls
    (startTools info).2.toolCallMaxIndexOffset
  rw [← hwide, ← hq] at hloop
  cases hread : readToolCalls 0 toolCalls named wide with
  | some shape' =>
    rw [hread] at hloop
    obtain ⟨named', rfl, hrun⟩ := hloop
    exact ⟨_, hrun, rfl, Int.le_trans hmax hle, rfl, rfl⟩
  | none =>
    rw [hread] at hloop
    exact hloop

/-- The kinds that keep one block open. -/
inductive Plain : LastMessageType → ContentBlock → Shape → Prop where
  | text : Plain .text .text .text
  | thinking : Plain .thinking .thinking .thinking

variable {type : LastMessageType} {block : ContentBlock} {next : Shape}

theorem Plain.at_iff (h : Plain type block next) (info : Info U) (p : Phase) : next.At info p ↔
    info.lastMessagesType = type ∧ p = .body (info.index + 1) (some block.kind) := by
  cases h <;> rfl

theorem Plain.type_iff (h : Plain type block next) {info : Info U} {p : Phase} {shape : Shape}
    (hat : shape.At info p) : info.lastMessagesType = type ↔ shape = next := by
  cases h <;> cases shape <;> simp [hat.1]

theorem follows_start (h : Plain type block next) {delta : Delta} (hkind : delta.kind = block.kind)
    {info : Info U} {p : Phase} (hclosed : Closed info p ()) :
    Follows Shape.At p
      ([.contentBlockStart info.index block, .contentBlockDelta info.index delta],
        { info with lastMessagesType := type }) (some next) := by
  obtain ⟨_, rfl⟩ := hclosed
  refine ⟨.body (info.index + 1) (some block.kind), ?_, (h.at_iff _ _).2 ⟨rfl, rfl⟩⟩
  simp [run, accept, hkind]

theorem bind_const {A : Type} (closes : Bool) (a : A) :
    ((if closes then some () else none).bind fun _ => some a) =
      if closes then some a else none := by
  cases closes <;> rfl

theorem follows_continueBlock (h : Plain type block next) {delta : Delta}
    (hkind : delta.kind = block.kind) {info : Info U} {p : Phase} {shape : Shape}
    (hat : shape.At info p) :
    Follows Shape.At p (continueBlock type block delta info) (shape.becomes next) := by
  rw [continueBlock, Shape.becomes]
  by_cases hshape : shape = next
  · rw [if_neg (not_not_intro ((h.type_iff hat).2 hshape)), if_pos (Or.inl hshape)]
    subst hshape
    obtain ⟨_, rfl⟩ := (h.at_iff info p).1 hat
    refine ⟨.body (info.index + 1) (some block.kind), ?_, (h.at_iff _ _).2 ⟨rfl, rfl⟩⟩
    simp [run, accept, hkind]
  · rw [if_pos (mt (h.type_iff hat).1 hshape)]
    simp only [hshape, false_or]
    rw [← bind_const]
    exact (follows_advance hat).andThen fun q _ hclosed => follows_start h hkind hclosed

theorem follows_laterDelta (delta : ChoiceDelta) {info : Info U} {p : Phase} {shape : Shape}
    (hat : shape.At info p) : Follows Shape.At p (laterDelta delta info) (readDelta delta shape) := by
  rw [laterDelta, readDelta]
  split
  · exact follows_laterToolCalls _ hat
  split
  · exact follows_continueBlock .thinking rfl hat
  split
  · exact follows_continueBlock .text rfl hat
  · exact ⟨p, rfl, hat⟩

end Deltas

theorem stopReason_ne_empty {reason : String} (h : reason ≠ "") :
    openAIFinishReasonToClaudeStopReason reason ≠ "" := by
  rw [openAIFinishReasonToClaudeStopReason]
  generalize String.ofList (reason.toList.map lowerChar) = lower
  split_ifs <;> first | exact h | decide

def Reading.At (info : Info U) (p : Phase) : Reading → Prop
  | .body shape => shape.At info p ∧ info.done = false
  | .finished => info.done = true ∧ p = .stopped

theorem follows_finishMessage {usage : Option U} {stopReason : String} (husage : usage.isSome)
    (hreason : stopReason ≠ "") {info : Info U} {p : Phase} {shape : Shape} (hat : shape.At info p) :
    Follows Reading.At p (finishMessage usage stopReason info) shape.finish := by
  obtain ⟨u, rfl⟩ := Option.isSome_iff_exists.1 husage
  have hrun := run_stopOpenBlocks hat
  rw [finishMessage, Shape.finish]
  split at hrun
  next hcloses =>
    rw [if_pos hcloses]
    refine ⟨.stopped, ?_, rfl, rfl⟩
    simp [run_append, hrun, run, accept, hreason]
  next hcloses =>
    rw [if_neg hcloses, Follows]
    simp [run_append, hrun]

theorem Shape.At.finish {shape : Shape} {info : Info U} {p : Phase} (h : shape.At info p)
    (reason : String) : shape.At { info with finishReason := reason } p := by
  cases shape <;> exact h

theorem Reading.body_of_shape {p : Phase} {x : Step U} {shape : Option Shape}
    (h : Follows Shape.At p x shape) (hdone : x.2.done = false) :
    Follows Reading.At p x (shape.map .body) := by
  cases shape with
  | none => exact h
  | some shape =>
    obtain ⟨q, hrun, hat⟩ := h
    exact ⟨q, hrun, hat, hdone⟩

/-- A chunk behind the first one. -/
theorem follows_later (response : StreamResponse U) {info : Info U} {p : Phase} {reading : Reading}
    (hat : reading.At info p) (hcount : info.sendResponseCount ≠ 1) :
    Follows Reading.At p (streamResponseOpenAI2Claude response info)
      (readLater (usageOf response info).isSome response reading) := by
  rw [streamResponseOpenAI2Claude]
  cases reading with
  | finished =>
    rw [if_pos hat.1]
    exact ⟨p, rfl, hat⟩
  | body shape =>
    obtain ⟨hat, hdone⟩ := hat
    rw [if_neg (by simp [hdone]), if_neg hcount, readLater]
    cases hchoices : response.choices with
    | nil =>
      simp only [emptyChoices]
      cases husage : usageOf response info with
      | none => exact ⟨p, rfl, hat, hdone⟩
      | some u =>
        refine follows_finishMessage rfl ?_ hat
        split
        · decide
        · assumption
    | cons choice _ =>
      simp only [laterChoice]
      split
      next hfinishes =>
        have hreason : choice.finishReason.getD "" ≠ "" := by simpa [Choice.finishes] using hfinishes
        have hat : shape.At { info with finishReason := choice.finishReason.getD "" } p := hat.finish _
        cases husage : response.usage with
        | none => exact ⟨p, rfl, hat, hdone⟩
        | some u =>
          apply (follows_laterDelta choice.delta hat).andThen
          intro q shape' hat'
          apply follows_finishMessage _ _ hat'
          · simp [usageOf, husage]
          · rw [(laterDelta_kept choice.delta _).finishReason]
            exact stopReason_ne_empty hreason
      next =>
        exact Reading.body_of_shape (follows_laterDelta _ hat)
          ((laterDelta_kept _ _).done.trans hdone)

theorem follows_firstToolCall (delta : ChoiceDelta) {info : Info U}
    (htype : info.lastMessagesType = .none) (hindex : info.index = 0) :
    Follows Shape.At (.body 0 none) (firstToolCall delta info)
      (some (if delta.toolCalls ≠ [] then .tool true false else .none)) := by
  rw [firstToolCall]
  cases delta.toolCalls with
  | nil => exact ⟨.body 0 none, rfl, htype, by rw [hindex]⟩
  | cons toolCall _ =>
    refine ⟨.body 1 (some .tool), ?_, rfl, Int.le_refl 0, rfl, rfl⟩
    simp only [argumentsDelta]
    split <;> simp [run, accept, ContentBlock.kind, Delta.kind]

theorem follows_startBlock {type : LastMessageType} {block : ContentBlock} {next : Shape}
    (h : Plain type block next) {delta : Delta} (hkind : delta.kind = block.kind) {info : Info U}
    {p : Phase} {shape : Shape} (hat : shape.At info p) (hshape : shape ≠ next)
    (hcloses : shape.closes) :
    Follows Shape.At p (startBlock type block delta info) (some next) := by
  have hadvance := follows_advance hat
  rw [if_pos hcloses] at hadvance
  rw [startBlock, if_pos (mt (h.type_iff hat).1 hshape)]
  exact hadvance.next fun q hclosed => follows_start h hkind hclosed

theorem follows_firstContent (delta : ChoiceDelta) {info : Info U} {p : Phase}
    (hat : Shape.At info p (if delta.toolCalls ≠ [] then .tool true false else .none)) :
    Follows Shape.At p (firstContent delta info) (some (readFirstDelta delta)) := by
  rw [firstContent, readFirstDelta]
  split
  · apply follows_startBlock .thinking rfl hat <;> split <;> simp [Shape.closes]
  split
  · apply follows_startBlock .text rfl hat <;> split <;> simp [Shape.closes]
  · exact ⟨p, rfl, hat⟩

theorem readFirstDelta_closes (delta : ChoiceDelta) : (readFirstDelta delta).closes := by
  rw [readFirstDelta]
  split_ifs <;> rfl

theorem follows_firstFinish {response : StreamResponse U} {choice : Choice} {info : Info U}
    {p : Phase} {shape : Shape} (hat : shape.At info p) (hcloses : shape.closes)
    (hdone : info.done = false) (husage : info.usage = response.usage) :
    Follows Reading.At p (firstFinish response choice info)
      (if choice.finishes then if response.usage.isSome then some .finished else none
      else some (.body shape)) := by
  rw [firstFinish]
  split
  next hfinishes =>
    have hreason : choice.finishReason.getD "" ≠ "" := by simpa [Choice.finishes] using hfinishes
    have hat : shape.At { info with finishReason := choice.finishReason.getD "" } p := hat.finish _
    cases hchunk : response.usage with
    | none =>
      have hrun := run_stopOpenBlocks hat
      rw [if_pos hcloses] at hrun
      show run p (stopOpenBlocks _ ++ _ ++ _) = none
      rw [List.append_assoc, run_append, hrun]
      simp [usageOf, hchunk, husage, run, accept]
    | some u =>
      have hfinish : shape.finish = some .finished := if_pos hcloses
      rw [← hfinish]
      exact follows_finishMessage (by simp [usageOf, hchunk]) (stopReason_ne_empty hreason) hat
  next => exact ⟨p, rfl, hat, hdone⟩

/-- The first chunk. -/
theorem follows_first (response : StreamResponse U) {info : Info U}
    (htype : info.lastMessagesType = .none) (hindex : info.index = 0) (hdone : info.done = false)
    (husage : info.usage = response.usage) :
    Follows Reading.At .initial (firstResponse response info) (readFirst response) := by
  rw [firstResponse, readFirst]
  cases response.choices with
  | nil => exact ⟨.body 0 none, rfl, ⟨htype, by simp only [startMessage, hindex]⟩, hdone⟩
  | cons choice _ =>
    have hkept := (firstToolCall_kept choice.delta info).trans
      (firstContent_kept choice.delta (firstToolCall choice.delta info).2)
    have hstart : Follows (fun info' p (_ : Unit) => info' = info ∧ p = .body 0 none) .initial
        (startMessage response info) (some ()) := ⟨.body 0 none, rfl, rfl, rfl⟩
    apply hstart.next
    rintro _ ⟨-, rfl⟩
    apply (follows_firstToolCall choice.delta htype hindex).next
    intro p hat
    apply (follows_firstContent choice.delta hat).next
    intro p hat
    exact follows_firstFinish hat (readFirstDelta_closes choice.delta) (hkept.done.trans hdone)
      (hkept.usage.trans husage)

/-- What is carried from chunk to chunk beside the message. -/
theorem streamResponse_kept (response : StreamResponse U) (info : Info U) :
    (streamResponseOpenAI2Claude response info).2.usage = info.usage ∧
      (streamResponseOpenAI2Claude response info).2.sendResponseCount =
        info.sendResponseCount := by
  rw [streamResponseOpenAI2Claude]
  split
  · exact ⟨rfl, rfl⟩
  split
  · rw [firstResponse]
    split
    · exact ⟨rfl, rfl⟩
    next choice _ _ =>
      have hkept := (firstToolCall_kept choice.delta info).trans
        (firstContent_kept choice.delta (firstToolCall choice.delta info).2)
      simp only [Step.andThen, startMessage, firstFinish]
      split <;> exact ⟨hkept.usage, hkept.sendResponseCount⟩
  split
  · rw [emptyChoices]
    split <;> exact ⟨rfl, rfl⟩
  next choice _ _ =>
    rw [laterChoice]
    split
    · simp only
      split
      · exact ⟨rfl, rfl⟩
      · have hkept := laterDelta_kept choice.delta
          { info with finishReason := choice.finishReason.getD "" }
        exact ⟨hkept.usage, hkept.sendResponseCount⟩
    · have hkept := laterDelta_kept choice.delta info
      exact ⟨hkept.usage, hkept.sendResponseCount⟩

end CodeGo.Gateway.ClaudeStream
