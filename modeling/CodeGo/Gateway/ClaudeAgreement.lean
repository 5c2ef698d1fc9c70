import CodeGo.Gateway.ClaudeUpstream

/-!
# When the stream and the message agree

One component of the chat message after the other: its texts, its reasoning, its tool calls and its
finish reason.
-/

namespace CodeGo.Gateway.ClaudeUpstream

open ClaudeStream ChatChunks

variable {J : Type}

theorem join_filterMap_cons {A : Type} (f : A → Option String) (x : A) (xs : List A) :
    String.join ((x :: xs).filterMap f) = (f x).getD "" ++ String.join (xs.filterMap f) := by
  cases h : f x <;> simp [h]

/-- Texts that follow each other are the last of them if the ones before are empty. -/
theorem join_eq_getLastD (texts : List String) :
    String.join texts = texts.getLastD "" ↔ ∀ t ∈ texts.dropLast, t = "" := by
  rcases List.eq_nil_or_concat texts with rfl | ⟨init, last, rfl⟩
  · simp
  · have hlast : (init.concat last).getLastD "" = last := by simp
    have hdrop : (init.concat last).dropLast = init := by simp
    rw [hlast, hdrop, ← join_eq_empty]
    have hjoin : String.join (init.concat last) = String.join init ++ last := by
      simp [List.concat_eq_append, String.join_append]
    rw [hjoin]
    constructor
    · intro h
      have hlength := congrArg String.length h
      rw [String.length_append] at hlength
      exact String.length_eq_zero_iff.1 (by omega)
    · intro h
      rw [h, String.empty_append]

theorem getLastD_length_le (texts : List String) :
    (texts.getLastD "").length ≤ (String.join texts).length := by
  rcases List.eq_nil_or_concat texts with rfl | ⟨init, last, rfl⟩
  · simp
  · simp [List.concat_eq_append, String.join_append]

theorem block_toolUse {unmarshal : String → Option J} {id name : String} {start : J}
    {deltas : List String} {m : ClaudeMediaMessage J}
    (h : Sent.block unmarshal (.toolUse id name start deltas) = some m) :
    ∃ input : J, m = { type := "tool_use", id, name, input := some input } := by
  simp only [Sent.block] at h
  split at h
  · exact ⟨start, (Option.some.inj h).symm⟩
  · split at h
    · exact ⟨_, (Option.some.inj h).symm⟩
    · cases h

def Sent.text? : Sent J → Option String
  | .text start deltas => some (start.getD "" ++ String.join deltas)
  | _ => none

/-- The texts of a message. -/
def texts (sent : List (Sent J)) : List String := sent.filterMap Sent.text?

theorem contentOf_choices (index : Int) (b : Sent J) :
    contentOf (b.choices index) = b.text?.getD "" := by
  cases b with
  | text start deltas =>
    have hdelta : ∀ d : String, (deltaChoice (toolIndex index) ({ type := "text_delta", text := some d } :
        ClaudeMediaMessage J)).delta.getContentString = d := fun d => rfl
    simp only [Sent.choices, Sent.deltas, contentOf, List.map_cons, List.map_map, String.join_cons,
      Sent.text?, Option.getD_some]
    congr 1
    rw [show ((fun c : Choice => c.delta.getContentString) ∘ deltaChoice (toolIndex index) ∘
      fun text : String => ({ type := "text_delta", text := some text } : ClaudeMediaMessage J)) = id
      from funext hdelta, List.map_id]
  | thinking deltas =>
    have hdelta : ∀ d : ThinkingDelta, (deltaChoice (toolIndex index)
        (d.message : ClaudeMediaMessage J)).delta.getContentString = "" := by
      intro d
      cases d <;> rfl
    simp only [Sent.choices, Sent.deltas, contentOf, List.map_cons, List.map_map, Sent.text?]
    apply join_eq_empty.2
    intro t ht
    rcases List.mem_cons.1 ht with rfl | ht
    · rfl
    · obtain ⟨d, -, rfl⟩ := List.mem_map.1 ht
      exact hdelta d
  | toolUse id name start deltas =>
    simp only [Sent.choices, Sent.deltas, contentOf, List.map_cons, List.map_map, Sent.text?]
    apply join_eq_empty.2
    intro t ht
    rcases List.mem_cons.1 ht with rfl | ht
    · rfl
    · obtain ⟨d, -, rfl⟩ := List.mem_map.1 ht
      rfl

theorem contentOf_blockChoices (index : Int) (sent : List (Sent J)) :
    contentOf (blockChoices index sent) = String.join (texts sent) := by
  induction sent generalizing index with
  | nil => rfl
  | cons b sent ih =>
    rw [blockChoices, contentOf_append, contentOf_choices, ih, texts, texts, join_filterMap_cons]

/-- The last text is kept. -/
theorem messageText_eq {unmarshal : String → Option J} {sent : List (Sent J)}
    {content : List (ClaudeMediaMessage J)}
    (h : List.Forall₂ (fun b m => Sent.block unmarshal b = some m) sent content) (first : String) :
    messageText first content = (texts sent).getLastD first := by
  induction h generalizing first with
  | nil => rfl
  | @cons b m sent content hb _ ih =>
    cases b with
    | text start deltas =>
      obtain rfl := Option.some.inj hb
      have hcons : texts (.text start deltas :: sent) =
          (start.getD "" ++ String.join deltas) :: texts sent := rfl
      simp only [messageText, ih, if_true]
      rw [hcons, List.getLastD_cons]
      rfl
    | thinking deltas =>
      obtain rfl := Option.some.inj hb
      simp only [messageText]
      simpa [texts, Sent.text?] using ih first
    | toolUse id name start deltas =>
      obtain ⟨input, rfl⟩ := block_toolUse hb
      simp only [messageText]
      simpa [texts, Sent.text?] using ih first

def ThinkingDelta.signs : ThinkingDelta → Nat
  | .thinking _ => 0
  | .signature _ => 1

def signatures (deltas : List ThinkingDelta) : Nat := (deltas.map ThinkingDelta.signs).sum

def Sent.thinking? : Sent J → Option String
  | .thinking deltas => some (String.join (deltas.map ThinkingDelta.text))
  | _ => none

def Sent.signatures : Sent J → Nat
  | .thinking deltas => ClaudeUpstream.signatures deltas
  | _ => 0

/-- The thoughts of a message. -/
def thoughts (sent : List (Sent J)) : List String := sent.filterMap Sent.thinking?

/-- What a delta adds to the reasoning of the stream: a signature ends the line. -/
def ThinkingDelta.streamed : ThinkingDelta → String
  | .thinking text => text
  | .signature _ => "\n"

def Sent.streamed : Sent J → String
  | .thinking deltas => String.join (deltas.map ThinkingDelta.streamed)
  | _ => ""

theorem reasoningOf_choices (index : Int) (b : Sent J) :
    reasoningOf (b.choices index) = b.streamed := by
  cases b with
  | text start deltas =>
    simp only [Sent.choices, Sent.deltas, reasoningOf, List.map_cons, List.map_map, Sent.streamed]
    apply join_eq_empty.2
    intro t ht
    rcases List.mem_cons.1 ht with rfl | ht
    · rfl
    · obtain ⟨d, -, rfl⟩ := List.mem_map.1 ht
      rfl
  | thinking deltas =>
    have hdelta : ∀ d : ThinkingDelta, (deltaChoice (toolIndex index)
        (d.message : ClaudeMediaMessage J)).delta.getReasoningContent = d.streamed := by
      intro d
      cases d <;> rfl
    have hstart : (startChoice (toolIndex index)
        (Sent.thinking deltas : Sent J).start).delta.getReasoningContent = "" := rfl
    simp only [Sent.choices, reasoningOf, List.map_cons, hstart, String.join_cons,
      String.empty_append]
    simp only [Sent.deltas, List.map_map, Sent.streamed]
    congr 1
    apply List.map_congr_left
    intro d _
    exact hdelta d
  | toolUse id name start deltas =>
    simp only [Sent.choices, Sent.deltas, reasoningOf, List.map_cons, List.map_map, Sent.streamed]
    apply join_eq_empty.2
    intro t ht
    rcases List.mem_cons.1 ht with rfl | ht
    · rfl
    · obtain ⟨d, -, rfl⟩ := List.mem_map.1 ht
      rfl

theorem reasoningOf_blockChoices (index : Int) (sent : List (Sent J)) :
    reasoningOf (blockChoices index sent) = String.join (sent.map Sent.streamed) := by
  induction sent generalizing index with
  | nil => rfl
  | cons b sent ih =>
    rw [blockChoices, reasoningOf_append, reasoningOf_choices, ih, List.map_cons, String.join_cons]

theorem streamed_length (deltas : List ThinkingDelta) :
    (String.join (deltas.map ThinkingDelta.streamed)).length =
      (String.join (deltas.map ThinkingDelta.text)).length + signatures deltas := by
  induction deltas with
  | nil => rfl
  | cons d deltas ih =>
    simp only [List.map_cons, String.join_cons, String.length_append, ih, signatures,
      List.sum_cons]
    cases d with
    | thinking text =>
      simp only [ThinkingDelta.streamed, ThinkingDelta.text, ThinkingDelta.signs]
      omega
    | signature s =>
      have hline : "\n".length = 1 := rfl
      simp only [ThinkingDelta.streamed, ThinkingDelta.text, ThinkingDelta.signs, hline,
        String.length_empty]
      omega

theorem streamed_eq {deltas : List ThinkingDelta} (h : signatures deltas = 0) :
    String.join (deltas.map ThinkingDelta.streamed) =
      String.join (deltas.map ThinkingDelta.text) := by
  congr 1
  apply List.map_congr_left
  intro d hd
  cases d with
  | thinking text => rfl
  | signature s =>
    have hzero := List.sum_eq_zero_iff_forall_eq_nat.1 h _ (List.mem_map_of_mem hd)
    cases hzero

/-- Signatures make the reasoning of the stream longer than the thoughts. -/
theorem join_streamed_length (sent : List (Sent J)) :
    (String.join (sent.map Sent.streamed)).length =
      (String.join (thoughts sent)).length + (sent.map Sent.signatures).sum := by
  induction sent with
  | nil => rfl
  | cons b sent ih =>
    simp only [List.map_cons, String.join_cons, String.length_append, ih, thoughts,
      join_filterMap_cons, List.sum_cons]
    cases b with
    | thinking deltas =>
      simp only [Sent.streamed, Sent.thinking?, Sent.signatures, streamed_length, Option.getD_some]
      omega
    | text start deltas =>
      simp [Sent.streamed, Sent.thinking?, Sent.signatures]
    | toolUse id name start deltas =>
      simp [Sent.streamed, Sent.thinking?, Sent.signatures]

theorem join_streamed_eq {sent : List (Sent J)} (h : ∀ b ∈ sent, b.signatures = 0) :
    String.join (sent.map Sent.streamed) = String.join (thoughts sent) := by
  induction sent with
  | nil => rfl
  | cons b sent ih =>
    have hrest := ih fun c hc => h c (List.mem_cons_of_mem _ hc)
    rw [List.map_cons, String.join_cons, hrest, thoughts, thoughts, join_filterMap_cons]
    congr 1
    cases b with
    | thinking deltas => exact streamed_eq (h _ List.mem_cons_self)
    | text start deltas => rfl
    | toolUse id name start deltas => rfl

/-- The thought that the message begins with. -/
def firstThought : List (Sent J) → String
  | .thinking deltas :: _ => String.join (deltas.map ThinkingDelta.text)
  | _ => ""

/-- The last thought is kept, or if that is empty the one at the beginning. -/
def keptThought (sent : List (Sent J)) : String :=
  if (thoughts sent).getLastD "" ≠ "" then (thoughts sent).getLastD "" else firstThought sent

theorem messageThinking_eq {unmarshal : String → Option J} {sent : List (Sent J)}
    {content : List (ClaudeMediaMessage J)}
    (h : List.Forall₂ (fun b m => Sent.block unmarshal b = some m) sent content) (first : String) :
    messageThinking first content = (thoughts sent).getLastD first := by
  induction h generalizing first with
  | nil => rfl
  | @cons b m sent content hb _ ih =>
    cases b with
    | text start deltas =>
      obtain rfl := Option.some.inj hb
      simp only [messageThinking]
      simpa [thoughts, Sent.thinking?] using ih first
    | thinking deltas =>
      obtain rfl := Option.some.inj hb
      have hcons : thoughts (.thinking deltas :: sent) =
          String.join (deltas.map ThinkingDelta.text) :: thoughts sent := rfl
      simp only [messageThinking, ih, if_true]
      rw [hcons, List.getLastD_cons]
      rfl
    | toolUse id name start deltas =>
      obtain ⟨input, rfl⟩ := block_toolUse hb
      simp only [messageThinking]
      simpa [thoughts, Sent.thinking?] using ih first

theorem firstThought_eq {unmarshal : String → Option J} {sent : List (Sent J)}
    {content : List (ClaudeMediaMessage J)}
    (h : List.Forall₂ (fun b m => Sent.block unmarshal b = some m) sent content) :
    (content.head?.bind (·.thinking)).getD "" = firstThought sent := by
  cases h with
  | nil => rfl
  | @cons b m sent content hb _ =>
    cases b with
    | text start deltas =>
      obtain rfl := Option.some.inj hb
      rfl
    | thinking deltas =>
      obtain rfl := Option.some.inj hb
      rfl
    | toolUse id name start deltas =>
      obtain ⟨input, rfl⟩ := block_toolUse hb
      rfl

/-- At most one thought has a text, and it is the last one or the beginning of the message. -/
def OneThought (sent : List (Sent J)) : Prop :=
  (∀ t ∈ (thoughts sent).dropLast, t = "") ∨
    ∃ deltas rest, sent = .thinking deltas :: rest ∧ ∀ t ∈ thoughts rest, t = ""

theorem join_thoughts_eq_iff (sent : List (Sent J)) :
    String.join (thoughts sent) = keptThought sent ↔ OneThought sent := by
  unfold keptThought OneThought
  by_cases hlast : (thoughts sent).getLastD "" = ""
  · rw [if_neg (not_not.2 hlast)]
    constructor
    · intro h
      cases sent with
      | nil => exact .inl (by simp [thoughts])
      | cons b rest =>
        cases b with
        | thinking deltas =>
          refine .inr ⟨deltas, rest, rfl, ?_⟩
          have hcons : thoughts (.thinking deltas :: rest) =
              String.join (deltas.map ThinkingDelta.text) :: thoughts rest := rfl
          rw [hcons, String.join_cons, firstThought] at h
          have hlength := congrArg String.length h
          rw [String.length_append] at hlength
          exact join_eq_empty.1 (String.length_eq_zero_iff.1 (by omega))
        | text start deltas =>
          exact .inl fun t ht => join_eq_empty.1 h t (List.dropLast_subset _ ht)
        | toolUse id name start deltas =>
          exact .inl fun t ht => join_eq_empty.1 h t (List.dropLast_subset _ ht)
    · rintro (h | ⟨deltas, rest, rfl, h⟩)
      · have hjoin := (join_eq_getLastD _).2 h
        rw [hjoin, hlast]
        have hall := join_eq_empty.1 (hjoin.trans hlast)
        cases sent with
        | nil => rfl
        | cons b rest =>
          cases b with
          | thinking deltas => exact (hall _ List.mem_cons_self).symm
          | text start deltas => rfl
          | toolUse id name start deltas => rfl
      · have hcons : thoughts (.thinking deltas :: rest) =
            String.join (deltas.map ThinkingDelta.text) :: thoughts rest := rfl
        rw [hcons, String.join_cons, join_eq_empty.2 h, firstThought, String.append_empty]
  · rw [if_pos hlast, join_eq_getLastD]
    constructor
    · exact .inl
    · rintro (h | ⟨deltas, rest, rfl, h⟩)
      · exact h
      · -- the last thought has a text, so it is the first one too
        have hcons : thoughts (.thinking deltas :: rest) =
            String.join (deltas.map ThinkingDelta.text) :: thoughts rest := rfl
        rw [hcons] at hlast ⊢
        rcases List.eq_nil_or_concat (thoughts rest) with hnil | ⟨init, last, hinit⟩
        · simp [hnil]
        · have hempty : last = "" := h last (by simp [hinit])
          exact absurd (by rw [List.getLastD_cons, hinit]; simp [hempty]) hlast

theorem keptThought_length_le (sent : List (Sent J)) :
    (keptThought sent).length ≤ (String.join (thoughts sent)).length := by
  unfold keptThought
  split
  · exact getLastD_length_le _
  · cases sent with
    | nil => simp [firstThought]
    | cons b rest =>
      cases b with
      | thinking deltas =>
        have hcons : thoughts (.thinking deltas :: rest) =
            String.join (deltas.map ThinkingDelta.text) :: thoughts rest := rfl
        rw [hcons, String.join_cons, String.length_append, firstThought]
        omega
      | text start deltas => simp [firstThought]
      | toolUse id name start deltas => simp [firstThought]

/-- The reasoning of the stream is that of the message where no signature is sent and there is one
thought. -/
theorem reasoning_eq_iff (sent : List (Sent J)) :
    String.join (sent.map Sent.streamed) = keptThought sent ↔
      (∀ b ∈ sent, b.signatures = 0) ∧ OneThought sent := by
  constructor
  · intro h
    have hlength := join_streamed_length sent
    have hle := keptThought_length_le sent
    rw [← h] at hle
    have hzero : (sent.map Sent.signatures).sum = 0 := by omega
    have hnone : ∀ b ∈ sent, b.signatures = 0 := by
      intro b hb
      exact List.sum_eq_zero_iff_forall_eq_nat.1 hzero _ (List.mem_map_of_mem hb)
    exact ⟨hnone, (join_thoughts_eq_iff sent).1 ((join_streamed_eq hnone).symm.trans h)⟩
  · rintro ⟨hnone, hone⟩
    rw [join_streamed_eq hnone]
    exact (join_thoughts_eq_iff sent).2 hone

section ToolCalls

def Sent.isTool : Sent J → Bool
  | .toolUse _ _ _ _ => true
  | _ => false

/-- The tool call that a block becomes. -/
def Sent.toolCall? (index : Int) : Sent J → Option ToolCallResponse
  | .toolUse id name _ deltas =>
    some { index := some (toolIndex index), id, function := { name, arguments := String.join deltas } }
  | _ => none

def toolCalls : Int → List (Sent J) → List ToolCallResponse
  | _, [] => []
  | index, b :: sent => (b.toolCall? index).toList ++ toolCalls (index + 1) sent

def Sent.toolDeltas (index : Int) : Sent J → List ToolCallResponse
  | .toolUse id name _ deltas =>
    { index := some (toolIndex index), id, function := { name } } ::
      deltas.map (argumentsDelta (some (toolIndex index)))
  | _ => []

theorem toolDeltasOf_choices (index : Int) (b : Sent J) :
    toolDeltasOf (b.choices index) = b.toolDeltas index := by
  cases b with
  | text start deltas =>
    simp [toolDeltasOf, Sent.choices, Sent.start, Sent.deltas, Sent.toolDeltas, startChoice,
      deltaChoice, startTools, deltaTools]
  | thinking deltas =>
    have hdelta : ∀ d : ThinkingDelta, (deltaChoice (toolIndex index)
        (d.message : ClaudeMediaMessage J)).delta.toolCalls = [] := by
      intro d
      cases d <;> rfl
    simp [toolDeltasOf, Sent.choices, Sent.start, Sent.deltas, Sent.toolDeltas, startChoice,
      startTools, hdelta]
  | toolUse id name start deltas =>
    have hdelta : ∀ json : String, (deltaChoice (toolIndex index)
        ({ type := "input_json_delta", partialJson := some json } :
          ClaudeMediaMessage J)).delta.toolCalls =
        [argumentsDelta (some (toolIndex index)) json] := fun _ => rfl
    simp only [toolDeltasOf, Sent.choices, Sent.deltas, List.flatMap_cons, List.flatMap_map, hdelta]
    rw [← List.map_eq_flatMap]
    rfl

theorem toolDeltas_index (index : Int) (b : Sent J) :
    ∀ d ∈ b.toolDeltas index, d.index = some (toolIndex index) := by
  intro d hd
  cases b with
  | text start deltas => cases hd
  | thinking deltas => cases hd
  | toolUse id name start deltas =>
    rcases List.mem_cons.1 hd with rfl | hd
    · rfl
    · obtain ⟨text, -, rfl⟩ := List.mem_map.1 hd
      rfl

/-- A block of which the index is free adds its tool call. -/
theorem addToolCalls_toolDeltas (calls : List ToolCallResponse) (index : Int)
    (h : Free (some (toolIndex index)) calls) (b : Sent J) :
    addToolCalls calls (b.toolDeltas index) = calls ++ (b.toolCall? index).toList := by
  cases b with
  | text start deltas => simp [Sent.toolDeltas, Sent.toolCall?]
  | thinking deltas => simp [Sent.toolDeltas, Sent.toolCall?]
  | toolUse id name start deltas =>
    rw [Sent.toolDeltas, addToolCalls, List.foldl_cons, addToolCall_free h, ← addToolCalls,
      addToolCalls_arguments h rfl]
    simp [Sent.toolCall?]

theorem addToolCalls_blockChoices {index : Int} (hindex : 1 ≤ index) (calls : List ToolCallResponse)
    (hbelow : ∀ c ∈ calls, ∃ k, c.index = some k ∧ k < index - 1) (sent : List (Sent J)) :
    addToolCalls calls (toolDeltasOf (blockChoices index sent)) =
      calls ++ toolCalls index sent := by
  induction sent generalizing index calls with
  | nil => simp [blockChoices, toolDeltasOf, toolCalls]
  | cons b sent ih =>
    have htool : toolIndex index = index - 1 := by
      unfold toolIndex
      rw [if_neg (by omega)]
    have hfree : Free (some (toolIndex index)) calls := by
      intro c hc he
      obtain ⟨k, hk, hlt⟩ := hbelow c hc
      rw [hk, htool] at he
      have := Option.some.inj he
      omega
    rw [blockChoices, toolDeltasOf_append, addToolCalls_append, toolDeltasOf_choices,
      addToolCalls_toolDeltas calls index hfree, ih (by omega) _ ?_, toolCalls, List.append_assoc]
    intro c hc
    rcases List.mem_append.1 hc with hc | hc
    · obtain ⟨k, hk, hlt⟩ := hbelow c hc
      exact ⟨k, hk, by omega⟩
    · refine ⟨toolIndex index, ?_, by omega⟩
      cases b with
      | text start deltas => simp [Sent.toolCall?] at hc
      | thinking deltas => simp [Sent.toolCall?] at hc
      | toolUse id name start deltas =>
        simp only [Sent.toolCall?, Option.toList_some, List.mem_singleton] at hc
        rw [hc]

/-- Whether the first two blocks are tool calls; both have the index 0. -/
def toolsFirst : List (Sent J) → Bool
  | b :: c :: _ => b.isTool && c.isTool
  | _ => false

theorem toolCall?_of_isTool_false {b : Sent J} (h : b.isTool = false) (index : Int) :
    b.toolCall? index = none ∧ b.toolDeltas index = [] := by
  cases b with
  | text start deltas => exact ⟨rfl, rfl⟩
  | thinking deltas => exact ⟨rfl, rfl⟩
  | toolUse id name start deltas => cases h

theorem accumulated_toolCalls {sent : List (Sent J)} (h : toolsFirst sent = false) :
    addToolCalls [] (toolDeltasOf (blockChoices 0 sent)) = toolCalls 0 sent := by
  cases sent with
  | nil => rfl
  | cons b rest =>
    have hfirst := addToolCalls_toolDeltas [] 0 (by intro c hc; cases hc) b
    rw [blockChoices, toolDeltasOf_append, addToolCalls_append, toolDeltasOf_choices, hfirst,
      List.nil_append, toolCalls]
    cases hb : b.isTool with
    | false =>
      rw [(toolCall?_of_isTool_false hb 0).1]
      exact addToolCalls_blockChoices (by omega) [] (by intro c hc; cases hc) rest
    | true =>
      cases rest with
      | nil => simp [blockChoices, toolDeltasOf, toolCalls]
      | cons c rest =>
        have hc : c.isTool = false := by simpa [toolsFirst, hb] using h
        obtain ⟨hnone, hnil⟩ := toolCall?_of_isTool_false hc 1
        rw [blockChoices, toolDeltasOf_append, addToolCalls_append, toolDeltasOf_choices]
        rw [show (0 : Int) + 1 = 1 from rfl, hnil, addToolCalls_nil, toolCalls, hnone]
        apply addToolCalls_blockChoices (by omega) _
        intro t ht
        cases b with
        | text start deltas => cases hb
        | thinking deltas => cases hb
        | toolUse id name start deltas =>
          simp only [Sent.toolCall?, Option.toList_some, List.mem_singleton] at ht
          exact ⟨0, by rw [ht]; rfl, by omega⟩

/-- A block of which the index is taken adds nothing. -/
theorem addToolCalls_taken (call : ToolCallResponse) {index : Option Int}
    (h : call.index = index) {deltas : List ToolCallResponse} (hd : ∀ d ∈ deltas, d.index = index) :
    ∃ call', addToolCalls [call] deltas = [call'] ∧ call'.index = index := by
  induction deltas generalizing call with
  | nil => exact ⟨call, rfl, h⟩
  | cons d deltas ih =>
    have hindex : call.index = d.index := h.trans (hd d List.mem_cons_self).symm
    have hfree : Free d.index [] := by
      intro c hc
      cases hc
    have hstep : addToolCall [call] d = [merge call d] := addToolCall_last d hfree hindex
    obtain ⟨call', hcall, hindex'⟩ := ih (merge call d) h
      fun d hmem => hd d (List.mem_cons_of_mem _ hmem)
    refine ⟨call', ?_, hindex'⟩
    rw [addToolCalls, List.foldl_cons, hstep]
    exact hcall

/-- Two tool calls with the index 0 become one. -/
theorem accumulated_toolCalls_length {sent : List (Sent J)} (h : toolsFirst sent = true) :
    (addToolCalls [] (toolDeltasOf (blockChoices 0 sent))).length + 1 =
      (toolCalls 0 sent).length := by
  match sent with
  | [] => cases h
  | [b] => cases h
  | b :: c :: rest =>
    obtain ⟨hb, hc⟩ : b.isTool = true ∧ c.isTool = true := by simpa [toolsFirst] using h
    cases b with
    | text start deltas => cases hb
    | thinking deltas => cases hb
    | toolUse id name start deltas =>
      cases c with
      | text start' deltas' => cases hc
      | thinking deltas' => cases hc
      | toolUse id' name' start' deltas' =>
        have hfirst := addToolCalls_toolDeltas [] 0
          (by intro c hc; cases hc) (.toolUse id name start deltas : Sent J)
        obtain ⟨call, hcall, hindex⟩ := addToolCalls_taken
          { index := some 0, id, function := { name, arguments := String.join deltas } } rfl
          (toolDeltas_index 1 (.toolUse id' name' start' deltas' : Sent J))
        have hrest := addToolCalls_blockChoices (show (1 : Int) ≤ 2 by omega) [call]
          (by intro t ht; rw [List.mem_singleton.1 ht]; exact ⟨0, hindex, by omega⟩) rest
        have hsecond : addToolCalls [] (toolDeltasOf (blockChoices 0
            (.toolUse id name start deltas :: .toolUse id' name' start' deltas' :: rest))) =
            [call] ++ toolCalls 2 rest := by
          rw [blockChoices, toolDeltasOf_append, addToolCalls_append, toolDeltasOf_choices, hfirst,
            blockChoices, toolDeltasOf_append, addToolCalls_append, toolDeltasOf_choices]
          rw [← hrest]
          congr 1
        rw [hsecond]
        simp only [toolCalls, Sent.toolCall?, Option.toList_some, List.length_append,
          List.length_singleton]
        rw [show (0 : Int) + 1 + 1 = 2 from rfl]
        omega

/-- The parts of an input are what `json.Marshal` prints for it. -/
def Printed (marshal : J → String) (b : Sent J) (m : ClaudeMediaMessage J) : Prop :=
  ∀ id name start deltas, b = .toolUse id name start deltas →
    m.input.map marshal = some (String.join deltas)

variable {marshal : J → String} {unmarshal : String → Option J} {sent : List (Sent J)}
  {content : List (ClaudeMediaMessage J)}

theorem toolCalls_length (h : List.Forall₂ (fun b m => Sent.block unmarshal b = some m) sent content)
    (index : Int) : (toolCalls index sent).length = (messageTools marshal content).length := by
  induction h generalizing index with
  | nil => rfl
  | @cons b m sent content hb _ ih =>
    cases b with
    | text start deltas =>
      obtain rfl := Option.some.inj hb
      simpa [toolCalls, Sent.toolCall?, messageTools] using ih (index + 1)
    | thinking deltas =>
      obtain rfl := Option.some.inj hb
      simpa [toolCalls, Sent.toolCall?, messageTools] using ih (index + 1)
    | toolUse id name start deltas =>
      obtain ⟨input, rfl⟩ := block_toolUse hb
      simpa [toolCalls, Sent.toolCall?, messageTools] using ih (index + 1)

theorem toolCalls_eq_iff
    (h : List.Forall₂ (fun b m => Sent.block unmarshal b = some m) sent content) (index : Int) :
    (toolCalls index sent).map unindexed = messageTools marshal content ↔
      List.Forall₂ (Printed marshal) sent content := by
  induction h generalizing index with
  | nil => simp [toolCalls, messageTools]
  | @cons b m sent content hb _ ih =>
    rw [List.forall₂_cons, ← ih (index + 1)]
    cases b with
    | text start deltas =>
      obtain rfl := Option.some.inj hb
      simp [toolCalls, Sent.toolCall?, messageTools, Printed]
    | thinking deltas =>
      obtain rfl := Option.some.inj hb
      simp [toolCalls, Sent.toolCall?, messageTools, Printed]
    | toolUse id name start deltas =>
      obtain ⟨input, rfl⟩ := block_toolUse hb
      have hprinted : Printed marshal (.toolUse id name start deltas)
          { type := "tool_use", id, name, input := some input } ↔
          String.join deltas = marshal input := by
        constructor
        · intro hp
          exact (Option.some.inj (hp id name start deltas rfl)).symm
        · intro heq id' name' start' deltas' hsame
          cases hsame
          rw [heq]
          rfl
      rw [hprinted]
      simp [toolCalls, Sent.toolCall?, messageTools, unindexed]

end ToolCalls

theorem finishReasonOf_choices (index : Int) (b : Sent J) :
    (b.choices index).filterMap (·.finishReason) = [] := by
  apply List.filterMap_eq_nil_iff.2
  intro c hc
  rcases List.mem_cons.1 hc with rfl | hc
  · rfl
  · obtain ⟨d, -, rfl⟩ := List.mem_map.1 hc
    rfl

theorem finishReasonOf_blockChoices (index : Int) (sent : List (Sent J)) :
    (blockChoices index sent).filterMap (·.finishReason) = [] := by
  induction sent generalizing index with
  | nil => rfl
  | cons b sent ih => rw [blockChoices, List.filterMap_append, finishReasonOf_choices, ih]; rfl

theorem stopReason_null (reason : String) :
    stopReasonClaude2OpenAI reason = "null" ↔ reason = "null" := by
  constructor
  · intro h
    simp only [stopReasonClaude2OpenAI] at h
    split_ifs at h
    · exact absurd h (by decide)
    · exact absurd h (by decide)
    · exact absurd h (by decide)
    · exact absurd h (by decide)
    · exact h
  · rintro rfl
    decide

/-- The chat message that the chunks of a stream add up to. -/
def streamed (claudeInfo : ClaudeResponseInfo) (message : ClaudeResponse J) (sent : List (Sent J)) :
    Message :=
  accumulate (choicesOf (claudeStreamHandler claudeInfo (events message sent)))

theorem streamed_eq_blocks (claudeInfo : ClaudeResponseInfo) (message : ClaudeResponse J)
    (sent : List (Sent J)) :
    streamed claudeInfo message sent =
      { content := String.join (texts sent)
        reasoning := String.join (sent.map Sent.streamed)
        toolCalls := addToolCalls [] (toolDeltasOf (blockChoices 0 sent))
        finishReason := chunkFinishReason message.stopReason } := by
  rw [streamed, choicesOf_claudeStreamHandler, flatMap_stream, accumulate]
  congr 1
  · rw [← contentOf_blockChoices 0]
    simp [contentOf, String.join_append, ChoiceDelta.getContentString]
  · rw [← reasoningOf_blockChoices 0]
    simp [reasoningOf, String.join_append, ChoiceDelta.getReasoningContent]
  · simp [toolDeltasOf]
  · rw [finishReasonOf, List.filterMap_cons, List.filterMap_append, finishReasonOf_blockChoices]
    cases chunkFinishReason message.stopReason <;> simp

/-- The chat message of the stream is the one of the whole message, and each tool call has an index
of its own, which its deltas carry. -/
structure Agrees (marshal : J → String) (claudeInfo : ClaudeResponseInfo)
    (message : ClaudeResponse J) (sent : List (Sent J)) : Prop where
  content : (streamed claudeInfo message sent).content =
    (responseClaude2OpenAI marshal message).content
  reasoning : (streamed claudeInfo message sent).reasoning =
    (responseClaude2OpenAI marshal message).reasoning
  toolCalls : (streamed claudeInfo message sent).toolCalls.map unindexed =
    (responseClaude2OpenAI marshal message).toolCalls
  finishReason : (streamed claudeInfo message sent).finishReason =
    (responseClaude2OpenAI marshal message).finishReason
  own : ∀ (i : Nat) (b : Sent J), sent[i]? = some b → ∀ x ∈ toolDeltasOf (b.choices i),
    ∀ y ∈ toolDeltasOf (b.choices i), x.index = y.index
  distinct : ∀ (i j : Nat) (b c : Sent J), sent[i]? = some b → sent[j]? = some c → i ≠ j →
    ∀ x ∈ toolDeltasOf (b.choices i), ∀ y ∈ toolDeltasOf (c.choices j), x.index ≠ y.index

/-- What a message and its stream must be like. -/
structure Plain (marshal : J → String) (message : ClaudeResponse J) (sent : List (Sent J)) :
    Prop where
  texts : ∀ t ∈ (texts sent).dropLast, t = ""
  unsigned : ∀ b ∈ sent, b.signatures = 0
  thoughts : OneThought sent
  tools : toolsFirst sent = false
  printed : List.Forall₂ (Printed marshal) sent message.content
  stopReason : message.stopReason ≠ "null"

theorem firstText_eq {unmarshal : String → Option J} {sent : List (Sent J)}
    {content : List (ClaudeMediaMessage J)}
    (h : List.Forall₂ (fun b m => Sent.block unmarshal b = some m) sent content)
    (hnone : texts sent = []) : (content.head?.map (·.getText)).getD "" = "" := by
  cases h with
  | nil => rfl
  | @cons b m sent content hb _ =>
    cases b with
    | text start deltas => cases hnone
    | thinking deltas =>
      obtain rfl := Option.some.inj hb
      rfl
    | toolUse id name start deltas =>
      obtain ⟨input, rfl⟩ := block_toolUse hb
      rfl

theorem responseClaude2OpenAI_eq (marshal : J → String) {unmarshal : String → Option J}
    {message : ClaudeResponse J} {sent : List (Sent J)} (h : Transmits unmarshal sent message) :
    responseClaude2OpenAI marshal message =
      { content := (texts sent).getLastD ""
        reasoning := keptThought sent
        toolCalls := messageTools marshal message.content
        finishReason := some (stopReasonClaude2OpenAI message.stopReason) } := by
  have htext := messageText_eq h ((message.content.head?.map (·.getText)).getD "")
  have hlast : (texts sent).getLastD ((message.content.head?.map (·.getText)).getD "") =
      (texts sent).getLastD "" := by
    rcases List.eq_nil_or_concat (texts sent) with hnil | ⟨init, last, hconcat⟩
    · rw [hnil]
      exact firstText_eq h hnil
    · simp [hconcat]
  have hthought := messageThinking_eq h ""
  simp only [responseClaude2OpenAI, htext, hlast, hthought, firstThought_eq h, keptThought]

theorem toolIndex_eq_iff {i j : Nat} (hij : i < j) :
    toolIndex i = toolIndex j ↔ i = 0 ∧ j = 1 := by
  unfold toolIndex
  split_ifs <;> omega

theorem isTool_of_mem {index : Int} {b : Sent J} {d : ToolCallResponse}
    (h : d ∈ b.toolDeltas index) : b.isTool = true := by
  cases b with
  | text start deltas => cases h
  | thinking deltas => cases h
  | toolUse id name start deltas => rfl

theorem toolDeltas_apart {sent : List (Sent J)} (h : toolsFirst sent = false) {i j : Nat}
    (hij : i < j) {b c : Sent J} (hb : sent[i]? = some b) (hc : sent[j]? = some c)
    {x y : ToolCallResponse} (hx : x ∈ b.toolDeltas i) (hy : y ∈ c.toolDeltas j) :
    x.index ≠ y.index := by
  rw [toolDeltas_index i b x hx, toolDeltas_index j c y hy]
  intro hsame
  obtain ⟨rfl, rfl⟩ := (toolIndex_eq_iff hij).1 (Option.some.inj hsame)
  match sent with
  | [] => cases hb
  | [_] => cases hc
  | b' :: c' :: _ =>
    obtain rfl := Option.some.inj hb
    obtain rfl := Option.some.inj hc
    simp [toolsFirst, isTool_of_mem hx, isTool_of_mem hy] at h

/-- The stream of a message adds up to the chat message of the whole one, with indices that tell the
tool calls apart, exactly if it is plain: no text but the last one and no other thought than one has
characters, no signature is sent, the first two blocks are not both tool calls, the inputs come as
they are printed, and the stop reason is not the word `null`. -/
theorem claude_stream_agrees (marshal : J → String) (unmarshal : String → Option J)
    (claudeInfo : ClaudeResponseInfo) (message : ClaudeResponse J) (sent : List (Sent J))
    (h : Transmits unmarshal sent message) :
    Agrees marshal claudeInfo message sent ↔ Plain marshal message sent := by
  have hstream := streamed_eq_blocks claudeInfo message sent
  have hwhole := responseClaude2OpenAI_eq marshal h
  constructor
  · intro hagrees
    have hcontent := hagrees.content
    have hreasoning := hagrees.reasoning
    have htools := hagrees.toolCalls
    have hfinish := hagrees.finishReason
    rw [hstream, hwhole] at hcontent hreasoning htools hfinish
    obtain ⟨hunsigned, hone⟩ := (reasoning_eq_iff sent).1 hreasoning
    have hfirst : toolsFirst sent = false := by
      cases hf : toolsFirst sent with
      | false => rfl
      | true =>
        have hlength := accumulated_toolCalls_length hf
        have hsame := congrArg List.length htools
        rw [List.length_map, ← toolCalls_length h 0] at hsame
        dsimp only at hsame
        omega
    dsimp only at htools
    rw [accumulated_toolCalls hfirst] at htools
    exact {
      texts := (join_eq_getLastD _).1 hcontent
      unsigned := hunsigned
      thoughts := hone
      tools := hfirst
      printed := (toolCalls_eq_iff h 0).1 htools
      stopReason := by
        intro hnull
        have := (stopReason_null message.stopReason).2 hnull
        simp [chunkFinishReason, this] at hfinish }
  · intro hplain
    have hreason : stopReasonClaude2OpenAI message.stopReason ≠ "null" :=
      fun hnull => hplain.stopReason ((stopReason_null _).1 hnull)
    exact {
      content := by
        rw [hstream, hwhole]
        exact (join_eq_getLastD _).2 hplain.texts
      reasoning := by
        rw [hstream, hwhole]
        exact (reasoning_eq_iff sent).2 ⟨hplain.unsigned, hplain.thoughts⟩
      toolCalls := by
        rw [hstream, hwhole]
        dsimp only
        rw [accumulated_toolCalls hplain.tools]
        exact (toolCalls_eq_iff h 0).2 hplain.printed
      finishReason := by
        rw [hstream, hwhole]
        simp [chunkFinishReason, hreason]
      own := by
        intro i b _ x hx y hy
        rw [toolDeltasOf_choices] at hx hy
        rw [toolDeltas_index i b x hx, toolDeltas_index i b y hy]
      distinct := by
        intro i j b c hb hc hij x hx y hy
        rw [toolDeltasOf_choices] at hx hy
        rcases Nat.lt_or_gt_of_ne hij with hlt | hgt
        · exact toolDeltas_apart hplain.tools hlt hb hc hx hy
        · exact (toolDeltas_apart hplain.tools hgt hc hb hy hx).symm }

theorem claude_stream_agrees_sample :
    Agrees (fun json : String => json) {} (⟨"msg", "message",
        [{ type := "text", text := some "Hi" },
          { type := "tool_use", id := "a", name := "f", input := some "{}" }],
        "tool_use", "claude", none, none, none, none⟩ : ClaudeResponse String)
      [.text none ["H", "i"], .toolUse "a" "f" "" ["\x7b", "\x7d"]] ↔
    Plain (fun json : String => json) (⟨"msg", "message",
        [{ type := "text", text := some "Hi" },
          { type := "tool_use", id := "a", name := "f", input := some "{}" }],
        "tool_use", "claude", none, none, none, none⟩ : ClaudeResponse String)
      [.text none ["H", "i"], .toolUse "a" "f" "" ["\x7b", "\x7d"]] :=
  claude_stream_agrees _ some _ _ _ (.cons (by decide) (.cons (by decide) .nil))

/-- Two tool calls at the beginning of a message: the client puts them together to one. -/
theorem tool_calls_collide :
    ¬ ∀ (sent : List (Sent String)) (message : ClaudeResponse String),
      Transmits some sent message → Agrees (fun json => json) {} message sent := by
  intro hall
  have hagrees := hall
    [.toolUse "a" "f" "" ["{}"], .toolUse "b" "g" "" ["{}"]]
    ⟨"msg", "message", [{ type := "tool_use", id := "a", name := "f", input := some "{}" },
      { type := "tool_use", id := "b", name := "g", input := some "{}" }],
      "tool_use", "claude", none, none, none, none⟩
    (.cons (by decide) (.cons (by decide) .nil))
  have htools := hagrees.toolCalls
  revert htools
  decide

end CodeGo.Gateway.ClaudeUpstream
