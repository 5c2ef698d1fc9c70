import CodeGo.Gateway.ClaudeStream

/-!
# Thinking as content

`sendStreamData` rewrites the chunks of a stream for a client that reads content only. The
reasoning of a model is sent as content between two tags. Three flags remember from chunk to chunk
whether the first tag was sent, and the second.
-/

namespace CodeGo.Gateway.ThinkToContent

open ClaudeStream (Choice ChoiceDelta StreamResponse)

section Model

variable {ε U : Type}

structure ThinkingContentInfo where
  isFirstThinkingContent : Bool := true
  sendLastThinkingContent : Bool := false
  hasSentThinkingContent : Bool := false
  deriving DecidableEq, Repr

/-- `helper.StringData` sends a text as it is, `helper.ObjectData` a response as JSON. -/
inductive Sent (U : Type) where
  | stringData (data : String)
  | objectData (response : StreamResponse U)
  deriving DecidableEq, Repr

def setContentString (d : ChoiceDelta) (s : String) : ChoiceDelta := { d with content := some s }

def clearReasoning (d : ChoiceDelta) : ChoiceDelta :=
  { d with reasoningContent := none, reasoning := none }

/-- A choice with its delta replaced by one that has this content and no reasoning. -/
def asContent (s : String) (c : Choice) : Choice :=
  { c with delta := clearReasoning (setContentString c.delta s) }

/-- The loop over the choices. `done` are those it is past. -/
def processChoices (response : StreamResponse U) (hasThinkingContent hasContent : Bool)
    (done : List Choice) :
    List Choice → ThinkingContentInfo → ThinkingContentInfo × List (Sent U) × List Choice
  | [], info => (info, [], done)
  | choice :: rest, info =>
    let closing := hasContent && !info.sendLastThinkingContent && info.hasSentThinkingContent
    let closed := { info with sendLastThinkingContent := closing || info.sendLastThinkingContent }
    let tag : List (Sent U) := if closing then
      [.objectData { response with
        choices := (done ++ choice :: rest).map (asContent "\n</think>\n") }] else []
    let choice := if choice.delta.getReasoningContent.length > 0 then
        asContent choice.delta.getReasoningContent choice
      else if !hasThinkingContent && !hasContent then
        { choice with delta := clearReasoning choice.delta }
      else choice
    let after := processChoices response hasThinkingContent hasContent (done ++ [choice]) rest closed
    (after.1, tag ++ after.2.1, after.2.2)

def thinkToContentData (response : StreamResponse U) (info : ThinkingContentInfo) :
    ThinkingContentInfo × List (Sent U) :=
  let hasThinkingContent := response.choices.any fun c => decide (c.delta.getReasoningContent.length > 0)
  let hasContent := response.choices.any fun c => decide (c.delta.getContentString.length > 0)
  let thinkingContent := String.join (response.choices.map fun c => c.delta.getReasoningContent)
  if info.isFirstThinkingContent && hasThinkingContent then
    ({ info with isFirstThinkingContent := false, hasSentThinkingContent := true },
      [.objectData { response with
        choices := response.choices.map (asContent ("<think>\n" ++ thinkingContent)) }])
  else if response.choices = [] then (info, [.objectData response])
  else
    let processed := processChoices response hasThinkingContent hasContent [] response.choices info
    (processed.1, processed.2.1 ++ [.objectData { response with choices := processed.2.2 }])

def sendStreamData (unmarshal : String → Except ε (StreamResponse U)) (data : String)
    (forceFormat thinkToContent : Bool) (info : ThinkingContentInfo) :
    Except ε (ThinkingContentInfo × List (Sent U)) :=
  if data = "" then .ok (info, [])
  else if !forceFormat && !thinkToContent then .ok (info, [.stringData data])
  else do
    let response ← unmarshal data
    if !thinkToContent then .ok (info, [.objectData response])
    else .ok (thinkToContentData response info)

/-- The chunks of a stream, sent one after the other. -/
def sendAll (unmarshal : String → Except ε (StreamResponse U)) (forceFormat thinkToContent : Bool) :
    List String → ThinkingContentInfo → Except ε (ThinkingContentInfo × List (Sent U))
  | [], info => .ok (info, [])
  | data :: rest, info => do
    let first ← sendStreamData unmarshal data forceFormat thinkToContent info
    let others ← sendAll unmarshal forceFormat thinkToContent rest first.1
    .ok (others.1, first.2 ++ others.2)

end Model

section Specification

variable {ε U : Type}

/-- A chunk of a stream as it came, with its one choice. -/
structure Chunk (unmarshal : String → Except ε (StreamResponse U)) where
  data : String
  response : StreamResponse U
  choice : Choice
  data_ne : data ≠ ""
  decoded : unmarshal data = .ok response
  single : response.choices = [choice]

variable {unmarshal : String → Except ε (StreamResponse U)}

def Chunk.reasoning (c : Chunk unmarshal) : String := c.choice.delta.getReasoningContent

def Chunk.content (c : Chunk unmarshal) : String := c.choice.delta.getContentString

def reasoning (chunks : List (Chunk unmarshal)) : String := String.join (chunks.map Chunk.reasoning)

def content (chunks : List (Chunk unmarshal)) : String := String.join (chunks.map Chunk.content)

/-- All that a stream says, in its order. -/
def text (chunks : List (Chunk unmarshal)) : String :=
  String.join (chunks.map fun c => c.reasoning ++ c.content)

/-- No reasoning comes after a chunk with content. -/
def ReasoningFirst (chunks : List (Chunk unmarshal)) : Prop :=
  chunks.Pairwise fun earlier later => earlier.content ≠ "" → later.reasoning = ""

/-- The content a client reads out of what it is sent. -/
def received (unmarshal : String → Except ε (StreamResponse U)) : Sent U → String
  | .stringData data => match unmarshal data with
    | .ok response => String.join (response.choices.map fun c => c.delta.getContentString)
    | .error _ => ""
  | .objectData response => String.join (response.choices.map fun c => c.delta.getContentString)

/-- The client has read all of the stream, its reasoning between two tags. -/
structure Conveyed (chunks : List (Chunk unmarshal)) (out : String) : Prop where
  plain : reasoning chunks = "" → out = content chunks
  tagged : reasoning chunks ≠ "" → ReasoningFirst chunks →
    out = "<think>\n" ++ reasoning chunks ++ "\n</think>\n" ++ content chunks
  kept : reasoning chunks ≠ "" → ∃ before inside after, before ++ inside ++ after = text chunks ∧
    out = before ++ "<think>\n" ++ inside ++ "\n</think>\n" ++ after

/-- A chunk has reasoning or content, not both. -/
def OneKind (chunks : List (Chunk unmarshal)) : Prop :=
  ∀ c ∈ chunks, c.reasoning = "" ∨ c.content = ""

/-- Content follows the first reasoning. -/
def Answered : List (Chunk unmarshal) → Prop
  | [] => True
  | c :: rest => if c.reasoning = "" then Answered rest else ∃ later ∈ rest, later.content ≠ ""

end Specification

section Step

variable {ε U : Type} {unmarshal : String → Except ε (StreamResponse U)}

/-- What a chunk says as far as the rewriting keeps it. -/
def Chunk.carried (c : Chunk unmarshal) : String := if c.reasoning = "" then c.content else c.reasoning

/-- What is sent of the chunk, and the flags afterwards. -/
def Chunk.delivered (c : Chunk unmarshal) (info : ThinkingContentInfo) : ThinkingContentInfo × String :=
  if info.isFirstThinkingContent ∧ c.reasoning ≠ "" then
    ({ info with isFirstThinkingContent := false, hasSentThinkingContent := true },
      "<think>\n" ++ c.reasoning)
  else if c.content ≠ "" ∧ info.sendLastThinkingContent = false ∧ info.hasSentThinkingContent then
    ({ info with sendLastThinkingContent := true }, "\n</think>\n" ++ c.carried)
  else (info, c.carried)

/-- The content a client reads out of an object with one choice. -/
theorem received_object (r : StreamResponse U) (c : Choice) :
    received unmarshal (.objectData { r with choices := [c] }) = c.delta.getContentString := by
  simp [received]

theorem decide_length_pos (s : String) : decide (s.length > 0) = decide (s ≠ "") := by
  rw [decide_eq_decide, gt_iff_lt, Nat.pos_iff_ne_zero, ne_eq, String.length_eq_zero_iff]

/-- The one choice of a chunk once the loop has passed it. -/
theorem processChoices_single (c : Chunk unmarshal) (info : ThinkingContentInfo) :
    let closing := decide (c.content ≠ "") && !info.sendLastThinkingContent &&
      info.hasSentThinkingContent
    let processed := processChoices c.response (decide (c.reasoning ≠ "")) (decide (c.content ≠ "")) []
      [c.choice] info
    processed.1 = { info with
      sendLastThinkingContent := closing || info.sendLastThinkingContent } ∧
    String.join (processed.2.1.map (received unmarshal)) = (if closing then "\n</think>\n" else "") ∧
    ∃ choice, processed.2.2 = [choice] ∧ choice.delta.getContentString = c.carried := by
  intro closing processed
  refine ⟨rfl, ?_, _, rfl, ?_⟩
  · show String.join (List.map _ ((if closing then _ else []) ++ [])) = _
    rw [List.append_nil]
    cases closing
    · rfl
    · simp only [if_true, List.map_cons, List.map_nil, String.join_cons, String.join_nil,
        String.append_empty]
      exact received_object c.response _
  · show ChoiceDelta.getContentString (Choice.delta (if c.reasoning.length > 0 then _ else _)) = _
    by_cases hr : c.reasoning = ""
    · rw [if_neg (by simp [hr]), Chunk.carried, if_pos hr]
      by_cases hc : (!decide (c.reasoning ≠ "") && !decide (c.content ≠ "")) = true
      · rw [if_pos hc]
        rfl
      · rw [if_neg hc]
        rfl
    · have hpos : c.reasoning.length > 0 := by
        rw [gt_iff_lt, Nat.pos_iff_ne_zero, ne_eq, String.length_eq_zero_iff]
        exact hr
      rw [if_pos hpos, Chunk.carried, if_neg hr]
      rfl

/-- What the rewriting does with one chunk. -/
theorem thinkToContentData_single (c : Chunk unmarshal) (info : ThinkingContentInfo) :
    (thinkToContentData c.response info).1 = (c.delivered info).1 ∧
      String.join ((thinkToContentData c.response info).2.map (received unmarshal)) =
        (c.delivered info).2 := by
  have hthinking : (c.response.choices.any fun d => decide (d.delta.getReasoningContent.length > 0)) =
      decide (c.reasoning ≠ "") := by
    rw [c.single, List.any_cons, List.any_nil, Bool.or_false, decide_length_pos]
    rfl
  have hcontent : (c.response.choices.any fun d => decide (d.delta.getContentString.length > 0)) =
      decide (c.content ≠ "") := by
    rw [c.single, List.any_cons, List.any_nil, Bool.or_false, decide_length_pos]
    rfl
  have hjoin : String.join (c.response.choices.map fun d => d.delta.getReasoningContent) =
      c.reasoning := by
    rw [c.single, List.map_cons, List.map_nil, String.join_cons, String.join_nil,
      String.append_empty]
    rfl
  rw [thinkToContentData, hthinking, hcontent, hjoin, Chunk.delivered]
  by_cases hopen : info.isFirstThinkingContent = true ∧ c.reasoning ≠ ""
  · rw [if_pos (by simpa using hopen), if_pos hopen]
    refine ⟨rfl, ?_⟩
    rw [c.single, List.map_cons, List.map_nil, String.join_cons, String.join_nil,
      String.append_empty]
    exact received_object c.response _
  · obtain ⟨hinfo, htag, choice, hchoice, hcarried⟩ := processChoices_single c info
    rw [if_neg (by simpa using hopen), if_neg (by simp [c.single]), if_neg hopen, c.single]
    dsimp only
    rw [hinfo, hchoice, List.map_append, String.join_append, htag, List.map_cons, List.map_nil,
      String.join_cons, String.join_nil, String.append_empty, received_object, hcarried]
    by_cases hclose : c.content ≠ "" ∧ info.sendLastThinkingContent = false ∧
        info.hasSentThinkingContent = true
    · obtain ⟨hc, hlast, hsent⟩ := hclose
      simp [hc, hlast, hsent]
    · have hb : (decide (c.content ≠ "") && !info.sendLastThinkingContent &&
          info.hasSentThinkingContent) = false := by
        rw [Bool.eq_false_iff]
        intro h
        simp only [Bool.and_eq_true, decide_eq_true_eq, Bool.not_eq_true', and_assoc] at h
        exact hclose h
      rw [if_neg hclose, hb]
      simp

end Step

section Runs

variable {ε U : Type} {unmarshal : String → Except ε (StreamResponse U)}

/-- What is sent of the chunks, one after the other. -/
def delivery : List (Chunk unmarshal) → ThinkingContentInfo → String
  | [], _ => ""
  | c :: rest, info => (c.delivered info).2 ++ delivery rest (c.delivered info).1

/-- The run of the code over the chunks of a stream. -/
theorem sendAll_chunks (forceFormat : Bool) (chunks : List (Chunk unmarshal))
    (info : ThinkingContentInfo) :
    ∃ after sent, sendAll unmarshal forceFormat true (chunks.map Chunk.data) info = .ok (after, sent) ∧
      String.join (sent.map (received unmarshal)) = delivery chunks info := by
  induction chunks generalizing info with
  | nil => exact ⟨info, [], rfl, rfl⟩
  | cons c rest ih =>
    obtain ⟨hinfo, hsent⟩ := thinkToContentData_single c info
    obtain ⟨after, sent, hrun, hjoin⟩ := ih (c.delivered info).1
    have hfirst : sendStreamData unmarshal c.data forceFormat true info =
        .ok (thinkToContentData c.response info) := by
      rw [sendStreamData, if_neg c.data_ne, c.decoded]
      simp only [Bool.not_true, Bool.and_false, Bool.false_eq_true, if_false]
      rfl
    refine ⟨after, (thinkToContentData c.response info).2 ++ sent, ?_, ?_⟩
    · rw [List.map_cons, sendAll, hfirst]
      show (do
        let others ← sendAll unmarshal forceFormat true (rest.map Chunk.data)
          (thinkToContentData c.response info).1
        .ok (others.1, (thinkToContentData c.response info).2 ++ others.2)) = _
      rw [hinfo, hrun]
      rfl
    · rw [List.map_append, String.join_append, hsent, hjoin, delivery]

/-- What the rewriting keeps of the chunks. -/
def carried (chunks : List (Chunk unmarshal)) : String := String.join (chunks.map Chunk.carried)

@[simp] theorem carried_cons (c : Chunk unmarshal) (rest : List (Chunk unmarshal)) :
    carried (c :: rest) = c.carried ++ carried rest := by
  rw [carried, List.map_cons, String.join_cons]
  rfl

@[simp] theorem reasoning_cons (c : Chunk unmarshal) (rest : List (Chunk unmarshal)) :
    reasoning (c :: rest) = c.reasoning ++ reasoning rest := by
  rw [reasoning, List.map_cons, String.join_cons]
  rfl

@[simp] theorem content_cons (c : Chunk unmarshal) (rest : List (Chunk unmarshal)) :
    content (c :: rest) = c.content ++ content rest := by
  rw [content, List.map_cons, String.join_cons]
  rfl

@[simp] theorem text_cons (c : Chunk unmarshal) (rest : List (Chunk unmarshal)) :
    text (c :: rest) = c.reasoning ++ c.content ++ text rest := by
  rw [text, List.map_cons, String.join_cons]
  rfl

/-- The flags before any reasoning, between the tags, and after them. -/
def fresh : ThinkingContentInfo := {}

def thinking : ThinkingContentInfo := ⟨false, false, true⟩

def answering : ThinkingContentInfo := ⟨false, true, true⟩

theorem delivered_fresh (c : Chunk unmarshal) :
    c.delivered fresh = if c.reasoning = "" then (fresh, c.carried)
      else (thinking, "<think>\n" ++ c.carried) := by
  by_cases hr : c.reasoning = "" <;> simp [Chunk.delivered, Chunk.carried, fresh, thinking, hr]

theorem delivered_thinking (c : Chunk unmarshal) :
    c.delivered thinking = if c.content = "" then (thinking, c.carried)
      else (answering, "\n</think>\n" ++ c.carried) := by
  by_cases hc : c.content = "" <;> simp [Chunk.delivered, thinking, answering, hc]

theorem delivered_answering (c : Chunk unmarshal) :
    c.delivered answering = (answering, c.carried) := by
  simp [Chunk.delivered, answering]

theorem delivery_answering (chunks : List (Chunk unmarshal)) :
    delivery chunks answering = carried chunks := by
  induction chunks with
  | nil => rfl
  | cons c rest ih => rw [delivery, delivered_answering, carried_cons, ih]

theorem delivery_thinking (chunks : List (Chunk unmarshal)) :
    (∀ c ∈ chunks, c.content = "") ∧ delivery chunks thinking = carried chunks ∨
      (∃ c ∈ chunks, c.content ≠ "") ∧ ∃ inside after, inside ++ after = carried chunks ∧
        delivery chunks thinking = inside ++ "\n</think>\n" ++ after := by
  induction chunks with
  | nil => exact .inl ⟨by simp, rfl⟩
  | cons c rest ih =>
    rw [delivery, delivered_thinking, carried_cons]
    by_cases hc : c.content = ""
    · rw [if_pos hc]
      rcases ih with ⟨hnone, hout⟩ | ⟨⟨d, hd, hcontent⟩, inside, after, hsplit, hout⟩
      · refine .inl ⟨?_, by rw [hout]⟩
        intro d hd
        rcases List.mem_cons.1 hd with rfl | hd
        · exact hc
        · exact hnone d hd
      · refine .inr ⟨⟨d, List.mem_cons_of_mem _ hd, hcontent⟩, c.carried ++ inside, after, ?_, ?_⟩
        · rw [String.append_assoc, hsplit]
        · rw [hout]
          simp only [String.append_assoc]
    · rw [if_neg hc, delivery_answering]
      refine .inr ⟨⟨c, List.mem_cons_self, hc⟩, "", c.carried ++ carried rest, ?_, ?_⟩
      · rw [String.empty_append]
      · simp only [String.append_assoc, String.empty_append]

/-- The output on a stream without reasoning, on one whose reasoning is answered, and on one whose
reasoning is left without an end. -/
theorem delivery_fresh (chunks : List (Chunk unmarshal)) :
    reasoning chunks = "" ∧ delivery chunks fresh = carried chunks ∨
      reasoning chunks ≠ "" ∧ Answered chunks ∧ (∃ before inside after,
        before ++ inside ++ after = carried chunks ∧
        delivery chunks fresh = before ++ "<think>\n" ++ inside ++ "\n</think>\n" ++ after) ∨
      reasoning chunks ≠ "" ∧ ¬ Answered chunks ∧ ∃ before inside, before ++ inside = carried chunks ∧
        delivery chunks fresh = before ++ "<think>\n" ++ inside := by
  induction chunks with
  | nil => exact .inl ⟨rfl, rfl⟩
  | cons c rest ih =>
    rw [delivery, delivered_fresh, carried_cons, reasoning_cons, Answered]
    by_cases hr : c.reasoning = ""
    · rw [if_pos hr, if_pos hr, hr, String.empty_append]
      rcases ih with ⟨hnone, hout⟩ | ⟨hsome, hanswer, before, inside, after, hsplit, hout⟩ |
          ⟨hsome, hanswer, before, inside, hsplit, hout⟩
      · exact .inl ⟨hnone, by rw [hout]⟩
      · refine .inr (.inl ⟨hsome, hanswer, c.carried ++ before, inside, after, ?_, ?_⟩)
        · rw [← hsplit]
          simp only [String.append_assoc]
        · rw [hout]
          simp only [String.append_assoc]
      · refine .inr (.inr ⟨hsome, hanswer, c.carried ++ before, inside, ?_, ?_⟩)
        · rw [← hsplit, String.append_assoc]
        · rw [hout]
          simp only [String.append_assoc]
    · have hsome : c.reasoning ++ reasoning rest ≠ "" := by
        intro h
        exact hr (String.append_eq_empty_iff.1 h).1
      rw [if_neg hr, if_neg hr]
      rcases delivery_thinking rest with ⟨hnone, hout⟩ | ⟨hcontent, inside, after, hsplit, hout⟩
      · refine .inr (.inr ⟨hsome, ?_, "", c.carried ++ carried rest, String.empty_append .., ?_⟩)
        · rintro ⟨d, hd, hcontent⟩
          exact hcontent (hnone d hd)
        · rw [hout, String.empty_append, String.append_assoc]
      · refine .inr (.inl ⟨hsome, hcontent, "", c.carried ++ inside, after, ?_, ?_⟩)
        · rw [String.empty_append, String.append_assoc, hsplit]
        · rw [hout]
          simp only [String.append_assoc, String.empty_append]

/-- The rewriting keeps all of a stream exactly when no chunk has both kinds. -/
theorem carried_length (chunks : List (Chunk unmarshal)) :
    (carried chunks).length ≤ (text chunks).length ∧
      ((carried chunks).length = (text chunks).length ↔ OneKind chunks) := by
  induction chunks with
  | nil => exact ⟨Nat.le_refl _, by simp [OneKind, carried, text]⟩
  | cons c rest ih =>
    obtain ⟨hle, hiff⟩ := ih
    have hkind : OneKind (c :: rest) ↔ (c.reasoning = "" ∨ c.content = "") ∧ OneKind rest :=
      List.forall_mem_cons
    rw [carried_cons, text_cons, hkind, ← hiff]
    simp only [String.length_append, Chunk.carried, ← String.length_eq_zero_iff]
    split <;> omega

theorem carried_eq_text {chunks : List (Chunk unmarshal)} (h : OneKind chunks) :
    carried chunks = text chunks := by
  induction chunks with
  | nil => rfl
  | cons c rest ih =>
    obtain ⟨hc, hrest⟩ := List.forall_mem_cons.1 h
    rw [carried_cons, text_cons, ih hrest, Chunk.carried]
    by_cases hr : c.reasoning = ""
    · rw [if_pos hr, hr, String.empty_append]
    · rw [if_neg hr, hc.resolve_left hr, String.append_empty]

theorem text_eq_content {chunks : List (Chunk unmarshal)} (h : reasoning chunks = "") :
    text chunks = content chunks := by
  induction chunks with
  | nil => rfl
  | cons c rest ih =>
    rw [reasoning_cons, String.append_eq_empty_iff] at h
    rw [text_cons, content_cons, h.1, String.empty_append, ih h.2]

theorem oneKind_of_no_reasoning {chunks : List (Chunk unmarshal)} (h : reasoning chunks = "") :
    OneKind chunks := by
  induction chunks with
  | nil => simp [OneKind]
  | cons c rest ih =>
    rw [reasoning_cons, String.append_eq_empty_iff] at h
    exact List.forall_mem_cons.2 ⟨.inl h.1, ih h.2⟩

theorem answered_of_no_reasoning {chunks : List (Chunk unmarshal)} (h : reasoning chunks = "") :
    Answered chunks := by
  induction chunks with
  | nil => trivial
  | cons c rest ih =>
    rw [reasoning_cons, String.append_eq_empty_iff] at h
    rw [Answered, if_pos h.1]
    exact ih h.2

/-- After content that ends the reasoning there is content only. -/
theorem carried_of_no_reasoning {chunks : List (Chunk unmarshal)} (h : ∀ c ∈ chunks, c.reasoning = "") :
    reasoning chunks = "" ∧ carried chunks = content chunks := by
  induction chunks with
  | nil => exact ⟨rfl, rfl⟩
  | cons c rest ih =>
    obtain ⟨hc, hrest⟩ := List.forall_mem_cons.1 h
    rw [reasoning_cons, carried_cons, content_cons, (ih hrest).1, (ih hrest).2, hc, Chunk.carried,
      if_pos hc]
    exact ⟨rfl, rfl⟩

theorem delivery_thinking_tagged {chunks : List (Chunk unmarshal)} (hkind : OneKind chunks)
    (hfirst : ReasoningFirst chunks) (hcontent : ∃ c ∈ chunks, c.content ≠ "") :
    delivery chunks thinking = reasoning chunks ++ "\n</think>\n" ++ content chunks := by
  induction chunks with
  | nil => simp at hcontent
  | cons c rest ih =>
    obtain ⟨hc, hrest⟩ := List.forall_mem_cons.1 hkind
    obtain ⟨hlater, hpair⟩ := List.pairwise_cons.1 hfirst
    rw [delivery, delivered_thinking, reasoning_cons, content_cons]
    by_cases hempty : c.content = ""
    · have hcarried : c.carried = c.reasoning := by
        rw [Chunk.carried]
        split
        · next hr => rw [hempty, hr]
        · rfl
      obtain ⟨d, hd, hne⟩ := hcontent
      rcases List.mem_cons.1 hd with rfl | hd
      · exact absurd hempty hne
      · rw [if_pos hempty, ih hrest hpair ⟨d, hd, hne⟩, hempty, hcarried, String.empty_append]
        simp only [String.append_assoc]
    · have hr : c.reasoning = "" := hc.resolve_right hempty
      obtain ⟨hnone, hcarried⟩ := carried_of_no_reasoning fun d hd => hlater d hd hempty
      rw [if_neg hempty, delivery_answering, hnone, hcarried, hr, Chunk.carried, if_pos hr]
      simp only [String.append_assoc, String.empty_append]

theorem delivery_fresh_tagged {chunks : List (Chunk unmarshal)} (hkind : OneKind chunks)
    (hfirst : ReasoningFirst chunks) (hanswer : Answered chunks) (hsome : reasoning chunks ≠ "") :
    delivery chunks fresh =
      "<think>\n" ++ reasoning chunks ++ "\n</think>\n" ++ content chunks := by
  induction chunks with
  | nil => exact absurd rfl hsome
  | cons c rest ih =>
    obtain ⟨hc, hrest⟩ := List.forall_mem_cons.1 hkind
    obtain ⟨hlater, hpair⟩ := List.pairwise_cons.1 hfirst
    rw [Answered] at hanswer
    rw [delivery, delivered_fresh, reasoning_cons, content_cons]
    by_cases hr : c.reasoning = ""
    · rw [if_pos hr] at hanswer
      rw [reasoning_cons, hr, String.empty_append] at hsome
      have hempty : c.content = "" := by
        by_contra hne
        exact hsome (carried_of_no_reasoning fun d hd => hlater d hd hne).1
      rw [if_pos hr, ih hrest hpair hanswer hsome, Chunk.carried, if_pos hr, hempty, hr]
      simp only [String.empty_append]
    · rw [if_neg hr] at hanswer
      rw [if_neg hr, delivery_thinking_tagged hrest hpair hanswer, Chunk.carried, if_neg hr,
        hc.resolve_left hr]
      simp only [String.append_assoc, String.empty_append]

end Runs

section Main

variable {ε U : Type} (unmarshal : String → Except ε (StreamResponse U))

/-- A stream reaches the client whole, and with its tags, exactly when no chunk carries reasoning and
content together and content follows the first reasoning. -/
theorem conveyed_iff (forceFormat : Bool) (chunks : List (Chunk unmarshal)) :
    (∃ info sent, sendAll unmarshal forceFormat true (chunks.map Chunk.data) {} = .ok (info, sent) ∧
        Conveyed chunks (String.join (sent.map (received unmarshal)))) ↔
      OneKind chunks ∧ Answered chunks := by
  obtain ⟨info, sent, hrun, hout⟩ := sendAll_chunks forceFormat chunks fresh
  have hsame : (∃ info sent,
      sendAll unmarshal forceFormat true (chunks.map Chunk.data) {} = .ok (info, sent) ∧
        Conveyed chunks (String.join (sent.map (received unmarshal)))) ↔
      Conveyed chunks (delivery chunks fresh) := by
    rw [← hout]
    constructor
    · rintro ⟨info', sent', hrun', hconveyed⟩
      have heq := Except.ok.inj (hrun'.symm.trans hrun)
      rwa [(Prod.mk.inj heq).2] at hconveyed
    · intro hconveyed
      exact ⟨info, sent, hrun, hconveyed⟩
  rw [hsame]
  constructor
  · intro hconveyed
    by_cases hsome : reasoning chunks = ""
    · exact ⟨oneKind_of_no_reasoning hsome, answered_of_no_reasoning hsome⟩
    · -- what the client should have read is longer than what it was sent unless nothing was lost
      obtain ⟨before, inside, after, htext, heq⟩ := hconveyed.kept hsome
      obtain ⟨hle, hiff⟩ := carried_length chunks
      have hlength := congrArg String.length heq
      have htext := congrArg String.length htext
      simp only [String.length_append] at hlength htext
      rcases delivery_fresh chunks with ⟨hnone, -⟩ | ⟨-, hanswer, b, i, a, hsplit, hdelivery⟩ |
          ⟨-, -, b, i, hsplit, hdelivery⟩
      · exact absurd hnone hsome
      · refine ⟨hiff.1 ?_, hanswer⟩
        rw [hdelivery] at hlength
        have hsplit := congrArg String.length hsplit
        simp only [String.length_append] at hlength hsplit
        omega
      · rw [hdelivery] at hlength
        have hsplit := congrArg String.length hsplit
        have htag : "\n</think>\n".length = 10 := rfl
        simp only [String.length_append] at hlength hsplit
        omega
  · rintro ⟨hkind, hanswer⟩
    refine ⟨?_, fun hsome hfirst => delivery_fresh_tagged hkind hfirst hanswer hsome, ?_⟩
    · intro hnone
      rcases delivery_fresh chunks with ⟨-, hout⟩ | ⟨hsome, -⟩ | ⟨hsome, -⟩
      · rw [hout, carried_eq_text hkind, text_eq_content hnone]
      · exact absurd hnone hsome
      · exact absurd hnone hsome
    · intro hsome
      rcases delivery_fresh chunks with ⟨hnone, -⟩ | ⟨-, -, hsplit⟩ | ⟨-, hopen, -⟩
      · exact absurd hnone hsome
      · rw [← carried_eq_text hkind]
        exact hsplit
      · exact absurd hanswer hopen

end Main

/-- A response whose one delta has the reasoning `hm` and the content `hi`. -/
def sharedResponse : StreamResponse Unit :=
  { choices := [{ delta := { content := some "hi", reasoningContent := some "hm" } }] }

def readShared (_ : String) : Except String (StreamResponse Unit) := .ok sharedResponse

def sharedChunk : Chunk readShared := ⟨"{}", _, _, by decide, rfl, rfl⟩

/-- Content that comes in one chunk with the first reasoning is lost, and the tag stays open. -/
theorem shared_chunk_loses_content :
    ¬ ∃ info sent, sendAll readShared false true ([sharedChunk].map Chunk.data) {} = .ok (info, sent) ∧
      Conveyed [sharedChunk] (String.join (sent.map (received readShared))) := by
  rintro ⟨info, sent, hrun, hconveyed⟩
  have hread : String.join (sent.map (received readShared)) = "<think>\nhm" := by
    have hsent := (Prod.mk.inj (Except.ok.inj hrun)).2
    rw [← hsent]
    rfl
  have htagged := hconveyed.tagged (by decide) (List.pairwise_singleton _ _)
  rw [hread] at htagged
  exact absurd htagged (by decide)

end CodeGo.Gateway.ThinkToContent
