import CodeGo.Gateway.ClaudeMessages

/-!
# The streams that are well formed

From the first chunk over the chunks between to the final handler.
-/

namespace CodeGo.Gateway.ClaudeStream

variable {U : Type}

theorem Reading.At.fed {reading : Reading} {info : Info U} {p : Phase} (h : reading.At info p)
    (count : Nat) (usage : Option U) :
    reading.At { info with sendResponseCount := count, usage := usage } p := by
  cases reading with
  | body shape => cases shape <;> exact h
  | finished => exact h

/-- The chunks between the first and the last. -/
theorem follows_handleStream (responses : List (StreamResponse U)) {info : Info U} {p : Phase}
    {reading : Reading} (hat : reading.At info p) (hcount : 1 ≤ info.sendResponseCount) :
    Follows Reading.At p (handleStream responses info)
      (readStream info.usage.isSome responses reading) := by
  induction responses generalizing info p reading with
  | nil => exact ⟨p, rfl, hat⟩
  | cons response responses ih =>
    rw [handleStream, readStream]
    have hkept := streamResponse_kept response { info with
      sendResponseCount := info.sendResponseCount + 1
      usage := response.usage.or info.usage }
    have hlater := follows_later response (hat.fed (info.sendResponseCount + 1)
      (response.usage.or info.usage)) (by simp only; omega)
    have husage : (usageOf response { info with
        sendResponseCount := info.sendResponseCount + 1
        usage := response.usage.or info.usage }).isSome =
        (response.usage.isSome || info.usage.isSome) := by
      cases h : response.usage <;> simp [usageOf, h]
    rw [husage] at hlater
    apply hlater.andThen
    intro q reading' hat'
    have hrest := ih hat' (by rw [hkept.2]; simp)
    rw [hkept.1] at hrest
    have hor : (response.usage.or info.usage).isSome =
        (response.usage.isSome || info.usage.isSome) := by
      cases response.usage <;> rfl
    rw [hor] at hrest
    exact hrest

theorem handleStream_count (responses : List (StreamResponse U)) (info : Info U) :
    (handleStream responses info).2.sendResponseCount =
      info.sendResponseCount + responses.length := by
  induction responses generalizing info with
  | nil => rfl
  | cons response responses ih =>
    have hcount : (handleStreamFormat response info).2.sendResponseCount =
        info.sendResponseCount + 1 := (streamResponse_kept response _).2
    rw [handleStream, Step.andThen, ih, hcount, List.length_cons]
    omega

theorem Follows.stopped_iff {p : Phase} {x : Step U} {r : Option Reading}
    (h : Follows Reading.At p x r) : run p x.1 = some .stopped ↔ r = some .finished := by
  cases r with
  | none =>
    have h : run p x.1 = none := h
    simp [h]
  | some reading =>
    obtain ⟨q, hrun, hat⟩ := h
    rw [hrun]
    cases reading with
    | finished => simp [hat.2]
    | body shape =>
      have hq : q ≠ .stopped := by
        rintro rfl
        obtain ⟨hat, -⟩ := hat
        cases shape with
        | tool named wide =>
          have hphase := hat.2.2.2
          rw [toolPhase] at hphase
          split at hphase <;> cases hphase
        | _ => cases hat.2
      simp [hq]

/-- The last chunk, when it is not also the first or the second. -/
theorem handleFinalResponse_stopped_iff (last : StreamResponse U) (usage : Option U) {info : Info U}
    {p : Phase} {reading : Reading} (hat : reading.At info p) (hcount : info.sendResponseCount ≠ 1) :
    run p (handleFinalResponse last usage info).1 = some .stopped ↔
      readLast last usage reading = some .finished := by
  have hlater := follows_later last (hat.fed info.sendResponseCount usage) hcount
  have husage : (usageOf last { info with usage }).isSome =
      (last.usage.isSome || usage.isSome) := by
    cases h : last.usage <;> simp [usageOf, h]
  rw [husage] at hlater
  exact hlater.stopped_iff

theorem firstResponse_events (response : StreamResponse U) (info : Info U) :
    ∃ events, (firstResponse response info).1 =
      .messageStart response.id response.model info.estimatePromptTokens :: events := by
  rw [firstResponse]
  split
  · exact ⟨[], rfl⟩
  · exact ⟨_, rfl⟩

/-- A message is not started again. -/
theorem handleFinalResponse_restarts (last : StreamResponse U) (usage : Option U) {info : Info U}
    {p : Phase} {shape : Shape} (hat : (Reading.body shape).At info p)
    (hcount : info.sendResponseCount = 1) : run p (handleFinalResponse last usage info).1 = none := by
  obtain ⟨hat, hdone⟩ := hat
  have hfirst : (handleFinalResponse last usage info).1 =
      (firstResponse last { info with usage }).1 := by
    simp [handleFinalResponse, streamResponseOpenAI2Claude, hdone, hcount]
  obtain ⟨events, hevents⟩ := firstResponse_events last { info with usage }
  rw [hfirst, hevents, run]
  cases shape with
  | tool named wide =>
    have hphase := hat.2.2.2
    rw [toolPhase] at hphase
    split at hphase <;> rw [hphase] <;> rfl
  | _ => rw [hat.2]; rfl

def Event.starts : Event U → Bool
  | .messageStart .. => true
  | _ => false

def NoStart (events : List (Event U)) : Prop := ∀ e ∈ events, e.starts = false

theorem NoStart.append {xs ys : List (Event U)} (hx : NoStart xs) (hy : NoStart ys) :
    NoStart (xs ++ ys) := by
  intro e he
  rcases List.mem_append.1 he with he | he
  · exact hx e he
  · exact hy e he

theorem noStart_stopOpenBlocks (info : Info U) : NoStart (stopOpenBlocks info) := by
  cases htype : info.lastMessagesType <;> simp [stopOpenBlocks, htype, NoStart, Event.starts]

theorem noStart_advance (info : Info U) : NoStart (stopOpenBlocksAndAdvance info).1 := by
  rw [stopOpenBlocksAndAdvance_events]
  exact noStart_stopOpenBlocks info

theorem noStart_finishMessage (usage : Option U) (stopReason : String) (info : Info U) :
    NoStart (finishMessage usage stopReason info).1 := by
  apply ((noStart_stopOpenBlocks info).append _).append
  · simp [NoStart, Event.starts]
  · cases usage <;> simp [NoStart, Event.starts]

theorem noStart_toolCallLoop (base : Int) (i : Nat) (toolCalls : List ToolCallResponse)
    (max : Int) : NoStart (toolCallLoop (U := U) base i toolCalls max).1 := by
  induction toolCalls generalizing i max with
  | nil => simp [toolCallLoop, NoStart]
  | cons toolCall toolCalls ih =>
    refine NoStart.append ?_ (ih _ _)
    rw [toolCallEvents, argumentsDelta]
    apply NoStart.append <;> split <;> simp [NoStart, Event.starts]

theorem noStart_continueBlock (type : LastMessageType) (block : ContentBlock) (delta : Delta)
    (info : Info U) : NoStart (continueBlock type block delta info).1 := by
  rw [continueBlock]
  split
  · apply (noStart_advance info).append
    simp [NoStart, Event.starts]
  · simp [NoStart, Event.starts]

theorem noStart_laterDelta (delta : ChoiceDelta) (info : Info U) :
    NoStart (laterDelta delta info).1 := by
  rw [laterDelta]
  split
  · apply NoStart.append _ (noStart_toolCallLoop _ _ _ _)
    rw [startTools]
    split
    · exact noStart_advance info
    · simp [NoStart]
  split
  · exact noStart_continueBlock _ _ _ _
  split
  · exact noStart_continueBlock _ _ _ _
  · simp [NoStart]

theorem noStart_later (response : StreamResponse U) (info : Info U)
    (hcount : info.sendResponseCount ≠ 1) :
    NoStart (streamResponseOpenAI2Claude response info).1 := by
  rw [streamResponseOpenAI2Claude, if_neg hcount]
  split
  · simp [NoStart]
  split
  · rw [emptyChoices]
    split
    · simp [NoStart]
    · exact noStart_finishMessage _ _ _
  · rw [laterChoice]
    split
    · simp only
      split
      · simp [NoStart]
      · exact (noStart_laterDelta _ _).append (noStart_finishMessage _ _ _)
    · exact noStart_laterDelta _ _

theorem run_noStart {events : List (Event U)} (h : NoStart events) :
    run .initial events ≠ some .stopped := by
  cases events with
  | nil => simp [run]
  | cons e events =>
    have he := h e (by simp)
    cases e with
    | messageStart => cases he
    | _ => simp [run, accept]

theorem follows_handleStreamFormat (first : StreamResponse U) (estimatePromptTokens : Int) :
    Follows Reading.At .initial (handleStreamFormat first { estimatePromptTokens })
      (readFirst first) := by
  apply follows_first <;> simp

theorem readStream_finished (known : Bool) (responses : List (StreamResponse U)) :
    readStream known responses .finished = some .finished := by
  induction responses generalizing known with
  | nil => rfl
  | cons response responses ih => exact ih _

theorem handleFinalResponse_done (last : StreamResponse U) (usage : Option U) {info : Info U}
    (h : info.done = true) : (handleFinalResponse last usage info).1 = [] := by
  simp [handleFinalResponse, streamResponseOpenAI2Claude, h]

/-- What is left of a stream behind its first chunk, from where that one led. -/
theorem rest_stopped_iff (rest : List (StreamResponse U)) (last : StreamResponse U)
    (usage : Option U) {info : Info U} {p : Phase} {reading : Reading} (hat : reading.At info p)
    (hcount : info.sendResponseCount = 1) :
    run p ((handleStream rest info).andThen (handleFinalResponse last usage)).1 = some .stopped ↔
      completes info.usage.isSome rest last usage reading := by
  have hstream := follows_handleStream rest hat (by omega)
  have hlength := handleStream_count rest info
  rw [run_andThen]
  cases reading with
  | finished =>
    rw [readStream_finished] at hstream
    obtain ⟨q, hrun, hdone, rfl⟩ := hstream
    simp [hrun, handleFinalResponse_done last usage hdone, run, completes]
  | body shape =>
    cases hread : readStream info.usage.isSome rest (.body shape) with
    | none =>
      rw [hread] at hstream
      have hstream : run p _ = none := hstream
      simp [hstream, completes, hread]
    | some reading' =>
      rw [hread] at hstream
      obtain ⟨q, hrun, hat'⟩ := hstream
      rw [hrun, Option.bind_some]
      cases rest with
      | nil =>
        cases hread
        simp [handleFinalResponse_restarts last usage hat' hcount, completes]
      | cons response rest =>
        rw [List.length_cons] at hlength
        rw [handleFinalResponse_stopped_iff last usage hat' (by omega)]
        simp [completes, hread]

/-- A stream is a message exactly when its chunks can be converted: a first chunk that does not
finish is followed by another one before the last, no finish reason comes without the usage it
needs, and the tool calls have one block at a time, which is named first. -/
theorem claude_stream_wellFormed_iff (responses : List (StreamResponse U)) (last : StreamResponse U)
    (usage : Option U) (estimatePromptTokens : Int) :
    WellFormed (claudeEvents responses last usage { estimatePromptTokens }) ↔
      Convertible responses last usage := by
  rw [wellFormed_iff_run, claudeEvents]
  cases responses with
  | nil =>
    have hlater := noStart_later last { estimatePromptTokens, usage } (by simp)
    simp only [Convertible, Bool.false_eq_true, iff_false]
    exact run_noStart hlater
  | cons first rest =>
    have hfirst := follows_handleStreamFormat first estimatePromptTokens
    have hkept := streamResponse_kept first
      ({ estimatePromptTokens, sendResponseCount := 1, usage := first.usage.or none } : Info U)
    have hassoc : ((handleStream (first :: rest) { estimatePromptTokens }).andThen
        (handleFinalResponse last usage)).1 =
        (handleStreamFormat first { estimatePromptTokens }).1 ++
          ((handleStream rest (handleStreamFormat first { estimatePromptTokens }).2).andThen
            (handleFinalResponse last usage)).1 := List.append_assoc ..
    rw [hassoc, run_append, Convertible]
    cases hread : readFirst first with
    | none =>
      rw [hread] at hfirst
      have hfirst : run .initial _ = none := hfirst
      simp [hfirst]
    | some reading =>
      rw [hread] at hfirst
      obtain ⟨q, hrun, hat⟩ := hfirst
      rw [hrun, Option.bind_some, rest_stopped_iff rest last usage hat hkept.2]
      have husage : (handleStreamFormat first { estimatePromptTokens }).2.usage = first.usage := by
        rw [handleStreamFormat, hkept.1, Option.or_none]
      rw [husage, Option.any_some]

def textChunk (content : String) (finishReason : Option String) : StreamResponse Nat where
  id := "chatcmpl-1"
  model := "gpt-4o"
  choices := [{ delta := { content := some content }, finishReason }]

/-- A text whose last chunk has the finish reason and no usage: its block is never stopped, and the
message does not end. -/
theorem unfinished_without_usage :
    claudeEvents [textChunk "Hello" none, textChunk " world" none] (textChunk "" (some "stop"))
      (some 12) { estimatePromptTokens := 5 } =
      [.messageStart "chatcmpl-1" "gpt-4o" 5, .contentBlockStart 0 .text,
        .contentBlockDelta 0 (.textDelta "Hello"), .contentBlockDelta 0 (.textDelta " world")] ∧
    ¬ WellFormed (claudeEvents [textChunk "Hello" none, textChunk " world" none]
      (textChunk "" (some "stop")) (some 12) { estimatePromptTokens := 5 }) := by
  rw [wellFormed_iff_run]
  decide

end CodeGo.Gateway.ClaudeStream
