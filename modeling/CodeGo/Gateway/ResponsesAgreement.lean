import CodeGo.Gateway.ResponsesRun

/-!
# When the chunks and the response agree

The chunks have the tool calls that stand before the first text, and the response has none if there
is a text. Where there is none, the calls are filed by their ids in one and listed in the other.
-/

namespace CodeGo.Gateway.ResponsesToChat

open ClaudeStream ChatChunks
open CodeGo.Lib.Trim (trimSpace)

def Sent.reasoningText : Sent → String
  | .reasoning _ _ content => String.join (content.map String.join)
  | _ => ""

/-- The texts of the reasoning, which a stream leaves out. -/
def reasoningText (sent : List Sent) : String := String.join (sent.map Sent.reasoningText)

theorem outputText_cons (s : Sent) (sent : List Sent) :
    outputText (s :: sent) = s.text ++ outputText sent := String.join_cons

theorem reasoningText_cons (s : Sent) (sent : List Sent) :
    reasoningText (s :: sent) = s.reasoningText ++ reasoningText sent := String.join_cons

def calls : List Sent → List FunctionCall
  | [] => []
  | .functionCall c :: sent => c :: calls sent
  | _ :: sent => calls sent

def FunctionCall.named (c : FunctionCall) : Bool := trimSpace c.name ≠ ""

def FunctionCall.toolCall (c : FunctionCall) : ToolCallResponse :=
  { id := c.key, function := { name := trimSpace c.name, arguments := String.join c.deltas } }

theorem join_outputTexts (parts : List Part) (id : String) :
    String.join (outputTexts (messageItem id parts)) = String.join (parts.map Part.text) := by
  induction parts with
  | nil => rfl
  | cons p parts ih =>
    simp only [outputTexts, messageItem] at ih
    simp only [outputTexts, messageItem, List.map_cons, String.join_cons, ← ih]
    cases p with
    | outputText deltas =>
      by_cases h : String.join deltas = "" <;> simp [Part.content, Part.text, h]
    | refusal deltas => simp [Part.content, Part.text]

theorem extract_assistant (sent : List Sent) :
    String.join (((sent.map Sent.item).filter isAssistant).flatMap outputTexts) =
      outputText sent := by
  induction sent with
  | nil => rfl
  | cons s sent ih =>
    rw [outputText_cons, ← ih, List.map_cons]
    cases s with
    | message id parts =>
      have h : isAssistant (Sent.message id parts).item = true := by
        simp [isAssistant, Sent.item, messageItem]
      rw [List.filter_cons_of_pos h, List.flatMap_cons, String.join_append]
      congr 1
      exact join_outputTexts parts id
    | reasoning id summary content =>
      have h : ¬ isAssistant (Sent.reasoning id summary content).item = true := by
        simp [isAssistant, Sent.item, reasoningItem]
      rw [List.filter_cons_of_neg h]
      exact String.empty_append.symm
    | functionCall c =>
      have h : ¬ isAssistant (Sent.functionCall c).item = true := by
        simp [isAssistant, Sent.item, FunctionCall.item]
      rw [List.filter_cons_of_neg h]
      exact String.empty_append.symm

/-- The texts of all items are empty if those of the messages and of the reasoning are. -/
theorem fallback_eq_empty (sent : List Sent) :
    String.join ((sent.map Sent.item).flatMap fun out => out.content.map (·.text)) = "" ↔
      outputText sent = "" ∧ reasoningText sent = "" := by
  induction sent with
  | nil => simp [outputText, reasoningText]
  | cons s sent ih =>
    rw [List.map_cons, List.flatMap_cons, String.join_append, String.append_eq_empty_iff, ih,
      outputText_cons, reasoningText_cons, String.append_eq_empty_iff, String.append_eq_empty_iff]
    have hitem : String.join (s.item.content.map (·.text)) = "" ↔
        s.text = "" ∧ s.reasoningText = "" := by
      cases s with
      | message id parts =>
        have hparts : (parts.map Part.content).map (·.text) = parts.map Part.text := by
          rw [List.map_map]
          apply List.map_congr_left
          intro p _
          cases p <;> rfl
        simp only [Sent.item, messageItem, hparts, Sent.text, Sent.reasoningText, and_true]
      | reasoning id summary content =>
        simp only [Sent.item, reasoningItem, List.map_map, Sent.text, Sent.reasoningText, true_and]
        rfl
      | functionCall c => simp [Sent.item, FunctionCall.item, Sent.text, Sent.reasoningText]
    rw [hitem]
    tauto

theorem responseToolCalls_eq (sent : List Sent) :
    responseToolCalls (sent.map Sent.item) =
      ((calls sent).filter FunctionCall.named).map FunctionCall.toolCall := by
  induction sent with
  | nil => rfl
  | cons s sent ih =>
    cases s with
    | message id parts =>
      simpa [responseToolCalls, Sent.item, messageItem, calls] using ih
    | reasoning id summary content =>
      simpa [responseToolCalls, Sent.item, reasoningItem, calls] using ih
    | functionCall c =>
      rw [calls, List.map_cons, responseToolCalls, ih]
      by_cases h : trimSpace c.name = ""
      · simp [Sent.item, FunctionCall.item, FunctionCall.named, h]
      · simp [Sent.item, FunctionCall.item, FunctionCall.named, h, FunctionCall.toolCall]
        rfl

theorem callsBefore_eq {sent : List Sent} (h : outputText sent = "") :
    callsBefore sent = calls sent := by
  induction sent with
  | nil => rfl
  | cons s sent ih =>
    rw [outputText_cons, String.append_eq_empty_iff] at h
    have hrest := ih h.2
    cases s with
    | message id parts => rw [callsBefore, if_pos h.1, hrest]; rfl
    | reasoning id summary content => exact hrest
    | functionCall c => rw [callsBefore, calls, hrest]

section Streamed

/-- The tool calls that the stream announces. -/
def announced (sent : List Sent) : View := (callsBefore sent).foldl View.announce {}

variable (responseID upstreamModelName : String)

/-- The chat message that the chunks of a stream add up to. -/
def streamed (model : String) (sent : List Sent) : Message :=
  accumulate (choicesOf
    (oaiResponsesToChatStreamHandler responseID upstreamModelName (streamEvents model sent)))

theorem appends_takeModel (response : Option ResponsesResponse) (st : StreamState) :
    Appends st (takeModel response st, []) "" := by
  refine ⟨?_, rfl, rfl, rfl⟩
  unfold takeModel
  split
  · split <;> simp [StreamState.core]
  · simp [StreamState.core]

/-- The last event sends the finish reason, and nothing is left to send behind it. -/
theorem completed {st : StreamState} {choices : List Choice} {v : View} (hs : Shown st choices v)
    (response : Option ResponsesResponse) :
    ∃ start : List Choice, contentOf start = "" ∧ toolDeltasOf start = [] ∧
      start.filterMap (·.finishReason) = [] ∧
      choicesOf ((handleEvents responseID st
          [{ type := "response.completed", response }]).andThen (closeStream responseID)).2 =
        start ++ [{ delta := {}, finishReason := some (finishReason st) }] := by
  have ha : Appends st (sendStartIfNeeded responseID (takeModel response st)) "" :=
    (appends_takeModel response st).andThen (appends_start responseID _)
  have hevent : handleEvent responseID st { type := "response.completed", response } =
      (sendStartIfNeeded responseID (takeModel response st)).andThen (sendStop responseID) := by
    simp [handleEvent, hs.streamErr]
  have hstarted : (sendStartIfNeeded responseID (takeModel response st)).1.sentStart = true := by
    unfold sendStartIfNeeded
    split
    · assumption
    · rfl
  have hstop : (sendStartIfNeeded responseID (takeModel response st)).1.sentStop = false :=
    (congrArg StreamState.sentStop ha.state :).trans hs.sentStop
  have herr : (sendStartIfNeeded responseID (takeModel response st)).1.streamErr = none :=
    ha.streamErr.trans hs.streamErr
  have hsaw : (sendStartIfNeeded responseID (takeModel response st)).1.sawToolCall =
      st.sawToolCall := (congrArg StreamState.sawToolCall ha.state :)
  have hout := ha.outputText.trans String.append_empty
  have hreason : finishReason (sendStartIfNeeded responseID (takeModel response st)).1 =
      finishReason st := by
    unfold finishReason
    rw [hsaw, hout]
  refine ⟨choicesOf (sendStartIfNeeded responseID (takeModel response st)).2, ha.content, ha.tools,
    ha.finish, ?_⟩
  simp only [handleEvents, hevent, Step.andThen, sendStop, hstop, closeStream, herr,
    hstarted, hreason, choicesOf_append, if_true, Option.isSome_none, Bool.false_eq_true, if_false,
    List.append_nil, generateStopResponse]
  rfl

theorem streamed_eq (model : String) (sent : List Sent) :
    streamed responseID upstreamModelName model sent =
      { content := outputText sent
        toolCalls := (announced sent).toolCalls
        reasoning := (streamed responseID upstreamModelName model sent).reasoning
        finishReason := some (if (announced sent).order ≠ [] ∧ outputText sent = "" then
          "tool_calls" else "stop") } := by
  have hstart : Shown { model := upstreamModelName } [] {} :=
    ⟨rfl, rfl, rfl, rfl, rfl, by simp⟩
  have hmaps : Maps { model := upstreamModelName } {} :=
    ⟨List.nodup_nil, fun _ _ => ⟨rfl, rfl⟩, rfl, fun _ _ => rfl, fun _ => by simp, rfl⟩
  set st₁ := takeModel (some { model }) { model := upstreamModelName } with hst₁
  have ha : Appends { model := upstreamModelName } (st₁, []) "" :=
    appends_takeModel (some { model }) { model := upstreamModelName }
  have hs₁ : Shown st₁ [] {} := hstart.appends ha
  have hm₁ : Maps st₁ {} := hmaps.appends ha
  obtain ⟨hshown, hout⟩ := run_items responseID sent hs₁ hm₁ ha.outputText
  set x := handleEvents responseID st₁ (sent.flatMap Sent.events) with hx
  obtain ⟨start, hcontent, htools, hfinish, hchoices⟩ :=
    completed responseID hshown (some (response model sent))
  have hcreated : handleEvent responseID { model := upstreamModelName }
      { type := "response.created", response := some { model } } = (st₁, []) := by
    simp [handleEvent, hst₁]
  have hall : choicesOf (oaiResponsesToChatStreamHandler responseID upstreamModelName
      (streamEvents model sent)) =
      choicesOf x.2 ++ (start ++ [{ delta := {}, finishReason := some (finishReason x.1) }]) := by
    rw [← hchoices, ← choicesOf_append]
    simp only [oaiResponsesToChatStreamHandler, streamEvents, handleEvents, hcreated,
      handleEvents_append, Step.andThen, List.nil_append, List.append_assoc, ← hx]
  have hreason : finishReason x.1 = if (announced sent).order ≠ [] ∧ outputText sent = "" then
      "tool_calls" else "stop" := by
    have hiff : (x.1.sawToolCall ∧ x.1.outputText = "") ↔
        ((announced sent).order ≠ [] ∧ outputText sent = "") := by
      rw [hshown.saw, hout]
      simp [announced]
    unfold finishReason
    by_cases h : x.1.sawToolCall ∧ x.1.outputText = ""
    · rw [if_pos h, if_pos (hiff.1 h)]
    · rw [if_neg h, if_neg fun h' => h (hiff.2 h')]
  rw [List.nil_append] at hshown
  rw [streamed, hall, ← hreason, accumulate]
  congr 1
  · rw [contentOf_append, contentOf_append, hshown.content, hout, hcontent, String.empty_append]
    exact String.append_empty
  · rw [toolDeltasOf_append, toolDeltasOf_append, htools, addToolCalls_append, hshown.tools]
    rfl
  · rw [finishReasonOf, List.filterMap_append, List.filterMap_append, hshown.finish, hfinish]
    rfl

end Streamed

/-- The values of a list, each where it comes first. -/
def firsts (keys : List String) : List String :=
  keys.foldl (fun order key => if key ∈ order then order else order ++ [key]) []

theorem announce_order (cs : List FunctionCall) (v : View) :
    (cs.foldl View.announce v).order =
      (cs.map FunctionCall.key).foldl
        (fun order key => if key ∈ order then order else order ++ [key]) v.order := by
  induction cs generalizing v with
  | nil => rfl
  | cons c cs ih =>
    rw [List.foldl_cons, ih, List.map_cons, List.foldl_cons]
    rfl

theorem nodup_foldl_firsts (keys order : List String) (h : order.Nodup) :
    (keys.foldl (fun order key => if key ∈ order then order else order ++ [key]) order).Nodup := by
  induction keys generalizing order with
  | nil => exact h
  | cons key keys ih =>
    exact ih _ (nodup_add h key)

theorem mem_foldl_firsts (keys order : List String) (k : String) :
    k ∈ keys.foldl (fun order key => if key ∈ order then order else order ++ [key]) order ↔
      k ∈ order ∨ k ∈ keys := by
  induction keys generalizing order with
  | nil => simp
  | cons key keys ih =>
    rw [List.foldl_cons, ih, List.mem_cons]
    split
    · rename_i hmem
      constructor
      · rintro (h | h)
        · exact .inl h
        · exact .inr (.inr h)
      · rintro (h | rfl | h)
        · exact .inl h
        · exact .inl hmem
        · exact .inr h
    · rw [List.mem_append, List.mem_singleton, or_assoc]

theorem nodup_firsts (keys : List String) : (firsts keys).Nodup :=
  nodup_foldl_firsts keys [] List.nodup_nil

/-- What a call adds to the texts of its key. -/
theorem announce_texts (v : View) (c : FunctionCall) :
    (v.announce c).texts = put v.texts c.key (v.texts c.key ++ (String.join c.deltas ++
      if String.join c.deltas = "" ∨ v.args c.key = "" then "" else String.join c.deltas)) := rfl

theorem announce_names (v : View) (c : FunctionCall) :
    (v.announce c).names =
      put v.names c.key (if v.names c.key = "" then trimSpace c.name else v.names c.key) := rfl

theorem announce_args (v : View) (c : FunctionCall) :
    (v.announce c).args =
      if String.join c.deltas = "" then v.args else put v.args c.key (String.join c.deltas) := rfl

/-- Calls without names and arguments do nothing to a key. -/
theorem announce_quiet (cs : List FunctionCall) (v : View) (key : String)
    (h : ∀ c ∈ cs, c.key = key → trimSpace c.name = "" ∧ String.join c.deltas = "") :
    (cs.foldl View.announce v).names key = v.names key ∧
      (cs.foldl View.announce v).texts key = v.texts key ∧
      (cs.foldl View.announce v).args key = v.args key := by
  induction cs generalizing v with
  | nil => exact ⟨rfl, rfl, rfl⟩
  | cons c cs ih =>
    obtain ⟨hnames, htexts, hargs⟩ := ih (v.announce c) fun d hd => h d (List.mem_cons_of_mem _ hd)
    rw [List.foldl_cons, hnames, htexts, hargs, announce_names, announce_texts, announce_args]
    by_cases hkey : c.key = key
    · obtain ⟨hname, hempty⟩ := h c List.mem_cons_self hkey
      subst hkey
      rw [put_self, put_self, hname, hempty, if_pos rfl]
      refine ⟨?_, by simp, rfl⟩
      split
      · rename_i hnone
        exact hnone.symm
      · rfl
    · have hne : key ≠ c.key := fun he => hkey he.symm
      rw [put_of_ne _ _ hne, put_of_ne _ _ hne]
      refine ⟨rfl, rfl, ?_⟩
      split
      · rfl
      · rw [put_of_ne _ _ hne]

theorem announce_texts_length (cs : List FunctionCall) (v : View) (key : String) :
    (v.texts key).length ≤ ((cs.foldl View.announce v).texts key).length := by
  induction cs generalizing v with
  | nil => exact Nat.le_refl _
  | cons c cs ih =>
    apply Nat.le_trans _ (ih (v.announce c))
    rw [announce_texts]
    by_cases hkey : key = c.key
    · rw [hkey, put_self, String.length_append]
      omega
    · rw [put_of_ne _ _ hkey]

/-- The arguments of every call are shown under its key. -/
theorem announce_texts_mem (cs : List FunctionCall) (v : View) {c : FunctionCall} (h : c ∈ cs) :
    (v.texts c.key).length + (String.join c.deltas).length ≤
      ((cs.foldl View.announce v).texts c.key).length := by
  induction cs generalizing v with
  | nil => cases h
  | cons d cs ih =>
    rcases List.mem_cons.1 h with rfl | hmem
    · have hle := announce_texts_length cs (v.announce c) c.key
      rw [announce_texts, put_self, String.length_append, String.length_append] at hle
      rw [List.foldl_cons]
      omega
    · have hstep := announce_texts_length [d] v c.key
      have hle := ih (v.announce d) hmem
      rw [List.foldl_cons, List.foldl_nil] at hstep
      rw [List.foldl_cons]
      omega

/-- The arguments of two calls with one key are both shown. -/
theorem announce_two {cs : List FunctionCall} {c d : FunctionCall} (hc : c ∈ cs) (hd : d ∈ cs)
    (hne : d ≠ c) (hkey : d.key = c.key) :
    (String.join c.deltas).length + (String.join d.deltas).length ≤
      ((cs.foldl View.announce {}).texts c.key).length := by
  obtain ⟨before, after, rfl⟩ := List.append_of_mem hc
  rw [List.foldl_append, List.foldl_cons]
  have hstep : ((before.foldl View.announce {}).texts c.key).length +
      (String.join c.deltas).length ≤
        (((before.foldl View.announce {}).announce c).texts c.key).length := by
    rw [announce_texts, put_self, String.length_append, String.length_append]
    omega
  rcases List.mem_append.1 hd with hd | hd
  · have hbefore := announce_texts_mem before {} hd
    have hafter := announce_texts_length after ((before.foldl View.announce {}).announce c) c.key
    rw [hkey] at hbefore
    omega
  · rcases List.mem_cons.1 hd with rfl | hd
    · exact absurd rfl hne
    · have hafter := announce_texts_mem after ((before.foldl View.announce {}).announce c) hd
      rw [hkey] at hafter
      omega

/-- The calls are told apart by their ids: those in the order in which they first come are those of
the calls that have a name. Calls without a name have no arguments. -/
def Apart (cs : List FunctionCall) : Prop :=
  firsts (cs.map FunctionCall.key) = (cs.filter FunctionCall.named).map FunctionCall.key ∧
    ∀ c ∈ cs, trimSpace c.name = "" → String.join c.deltas = ""

theorem named_iff (c : FunctionCall) : c.named = true ↔ trimSpace c.name ≠ "" := by
  simp [FunctionCall.named]

/-- A call that is told apart is shown as it is. -/
theorem announced_call {cs : List FunctionCall} (h : Apart cs) {c : FunctionCall} (hc : c ∈ cs)
    (hnamed : c.named = true) :
    (cs.foldl View.announce {}).names c.key = trimSpace c.name ∧
      (cs.foldl View.announce {}).texts c.key = String.join c.deltas := by
  obtain ⟨before, after, rfl⟩ := List.append_of_mem hc
  have hnodup : (((before ++ c :: after).filter FunctionCall.named).map FunctionCall.key).Nodup := by
    rw [← h.1]
    exact nodup_firsts _
  rw [List.filter_append, List.filter_cons_of_pos hnamed, List.map_append, List.map_cons,
    List.nodup_append] at hnodup
  obtain ⟨-, hafter, hbefore⟩ := hnodup
  have hquiet : ∀ d ∈ before ++ after, d.key = c.key →
      trimSpace d.name = "" ∧ String.join d.deltas = "" := by
    intro d hd hkey
    have hunnamed : trimSpace d.name = "" := by
      by_contra hname
      have hdnamed := (named_iff d).2 hname
      rcases List.mem_append.1 hd with hd | hd
      · exact hbefore _ (List.mem_map_of_mem (List.mem_filter.2 ⟨hd, hdnamed⟩)) _
          List.mem_cons_self hkey
      · apply (List.nodup_cons.1 hafter).1
        rw [← hkey]
        exact List.mem_map_of_mem (List.mem_filter.2 ⟨hd, hdnamed⟩)
    refine ⟨hunnamed, h.2 d ?_ hunnamed⟩
    rcases List.mem_append.1 hd with hd | hd
    · exact List.mem_append_left _ hd
    · exact List.mem_append_right _ (List.mem_cons_of_mem _ hd)
  rw [List.foldl_append, List.foldl_cons]
  obtain ⟨hnames, htexts, hargs⟩ := announce_quiet before {} c.key
    fun d hd => hquiet d (List.mem_append_left _ hd)
  obtain ⟨hnames', htexts', -⟩ := announce_quiet after
    ((before.foldl View.announce {}).announce c) c.key
    fun d hd => hquiet d (List.mem_append_right _ hd)
  rw [hnames', htexts', announce_names, announce_texts, put_self, put_self, hnames, htexts, hargs]
  simp

theorem toolCalls_unindexed (v : View) :
    v.toolCalls.map unindexed = v.order.map fun key =>
      { id := key, function := { name := v.names key, arguments := v.texts key } } := by
  apply List.ext_getElem?
  intro i
  simp only [View.toolCalls, List.getElem?_map, List.getElem?_mapIdx]
  cases v.order[i]? <;> rfl

/-- The calls that the client has filed are those of the response if they are told apart. -/
theorem announced_eq_iff (cs : List FunctionCall) :
    (cs.foldl View.announce {}).toolCalls.map unindexed =
        (cs.filter FunctionCall.named).map FunctionCall.toolCall ↔ Apart cs := by
  have horder : (cs.foldl View.announce {}).order = firsts (cs.map FunctionCall.key) :=
    announce_order cs {}
  rw [toolCalls_unindexed]
  constructor
  · intro h
    have hids := congrArg (List.map ToolCallResponse.id) h
    simp only [List.map_map] at hids
    have hkeys : firsts (cs.map FunctionCall.key) =
        (cs.filter FunctionCall.named).map FunctionCall.key := by
      rw [← horder, ← List.map_id (cs.foldl View.announce {}).order]
      exact hids
    refine ⟨hkeys, ?_⟩
    intro u hu hunnamed
    -- a named call has the key of `u`, and the arguments of both are shown under it
    have hmem : u.key ∈ (cs.filter FunctionCall.named).map FunctionCall.key := by
      rw [← hkeys]
      exact (mem_foldl_firsts _ _ _).2 (.inr (List.mem_map_of_mem hu))
    obtain ⟨n, hn, hkey⟩ := List.mem_map.1 hmem
    have htext : (cs.foldl View.announce {}).texts n.key = String.join n.deltas := by
      have hcall := List.mem_map_of_mem (f := FunctionCall.toolCall) hn
      rw [← h] at hcall
      obtain ⟨key, -, hsame⟩ := List.mem_map.1 hcall
      simp only [FunctionCall.toolCall, ToolCallResponse.mk.injEq, FunctionResponse.mk.injEq] at hsame
      rw [← hsame.2.1]
      exact hsame.2.2.2
    have hne : u ≠ n := by
      rintro rfl
      exact (named_iff u).1 (List.mem_filter.1 hn).2 hunnamed
    have hlength := announce_two (List.mem_filter.1 hn).1 hu hne hkey.symm
    rw [htext] at hlength
    exact String.length_eq_zero_iff.1 (by omega)
  · intro h
    rw [horder, h.1, List.map_map]
    apply List.map_congr_left
    intro c hc
    obtain ⟨hmem, hnamed⟩ := List.mem_filter.1 hc
    obtain ⟨hname, htext⟩ := announced_call h hmem hnamed
    simp only [Function.comp_apply, hname, htext, FunctionCall.toolCall]

structure Agrees (responseID upstreamModelName model : String) (sent : List Sent) : Prop where
  content : (streamed responseID upstreamModelName model sent).content =
    (responsesResponseToChatCompletionsResponse (response model sent)).content
  toolCalls : (streamed responseID upstreamModelName model sent).toolCalls.map unindexed =
    (responsesResponseToChatCompletionsResponse (response model sent)).toolCalls
  finishReason : (streamed responseID upstreamModelName model sent).finishReason =
    (responsesResponseToChatCompletionsResponse (response model sent)).finishReason

/-- No call stands before a text; without a text there is none in the reasoning either, and the calls
are told apart by their ids. -/
def Plain (sent : List Sent) : Prop :=
  if outputText sent ≠ "" then callsBefore sent = []
  else reasoningText sent = "" ∧ Apart (calls sent)

theorem extract_eq (model : String) (sent : List Sent) :
    (outputText sent ≠ "" →
        extractOutputTextFromResponses (response model sent) = outputText sent) ∧
      (outputText sent = "" → (extractOutputTextFromResponses (response model sent) = "" ↔
        reasoningText sent = "")) := by
  have hassistant := extract_assistant sent
  unfold extractOutputTextFromResponses response
  dsimp only
  rw [hassistant]
  constructor
  · intro h
    rw [if_pos h]
  · intro h
    rw [if_neg (not_not.2 h), fallback_eq_empty]
    simp [h]

/-- The whole response where it has a text. -/
theorem whole_of_text {model : String} {sent : List Sent} {text : String}
    (h : extractOutputTextFromResponses (response model sent) = text) (htext : text ≠ "") :
    responsesResponseToChatCompletionsResponse (response model sent) =
      { content := text, finishReason := some "stop" } := by
  simp [responsesResponseToChatCompletionsResponse, h, htext]

/-- The whole response where it has none. -/
theorem whole_of_no_text {model : String} {sent : List Sent}
    (h : extractOutputTextFromResponses (response model sent) = "") :
    responsesResponseToChatCompletionsResponse (response model sent) =
      { toolCalls := ((calls sent).filter FunctionCall.named).map FunctionCall.toolCall
        finishReason := some (if ((calls sent).filter FunctionCall.named).map
          FunctionCall.toolCall ≠ [] then "tool_calls" else "stop") } := by
  have hcalls : responseToolCalls (response model sent).output =
      ((calls sent).filter FunctionCall.named).map FunctionCall.toolCall := responseToolCalls_eq sent
  simp only [responsesResponseToChatCompletionsResponse, h, if_true, hcalls, ite_self]

theorem toolCalls_eq_nil (v : View) : v.toolCalls.map unindexed = [] ↔ v.order = [] := by
  rw [toolCalls_unindexed, List.map_eq_nil_iff]

theorem announced_order_eq_nil (sent : List Sent) :
    (announced sent).order = [] ↔ callsBefore sent = [] := by
  unfold announced
  rw [announce_order]
  constructor
  · intro h
    cases hcalls : callsBefore sent with
    | nil => rfl
    | cons c cs =>
      have hmem : c.key ∈ ([] : List String) := by
        rw [← h, hcalls]
        exact (mem_foldl_firsts _ _ _).2 (.inr (List.mem_map_of_mem List.mem_cons_self))
      cases hmem
  · intro h
    rw [h]
    rfl

/-- The chunks of a stream add up to the chat message of the whole response exactly if no call stands
before a text, or, where there is no text, the reasoning has none either and the calls are told apart
by their ids. -/
theorem responses_stream_agrees (responseID upstreamModelName model : String) (sent : List Sent) :
    Agrees responseID upstreamModelName model sent ↔ Plain sent := by
  have hstream := streamed_eq responseID upstreamModelName model sent
  obtain ⟨htext, hnone⟩ := extract_eq model sent
  unfold Plain
  by_cases hout : outputText sent = ""
  · rw [if_neg (not_not.2 hout)]
    constructor
    · intro h
      have hcontent := h.content
      have htools := h.toolCalls
      rw [hstream] at hcontent htools
      have hempty : extractOutputTextFromResponses (response model sent) = "" := by
        by_contra hne
        rw [whole_of_text rfl hne] at hcontent
        exact hne (hcontent.symm.trans hout)
      rw [whole_of_no_text hempty] at htools
      dsimp only at htools
      rw [announced, callsBefore_eq hout] at htools
      exact ⟨(hnone hout).1 hempty, (announced_eq_iff _).1 htools⟩
    · rintro ⟨hreasoning, hapart⟩
      have hwhole := whole_of_no_text ((hnone hout).2 hreasoning)
      have htools : (announced sent).toolCalls.map unindexed =
          ((calls sent).filter FunctionCall.named).map FunctionCall.toolCall := by
        rw [announced, callsBefore_eq hout]
        exact (announced_eq_iff _).2 hapart
      have hsome : (announced sent).order ≠ [] ↔
          ((calls sent).filter FunctionCall.named).map FunctionCall.toolCall ≠ [] := by
        rw [← htools, Ne, Ne, toolCalls_eq_nil]
      exact {
        content := by
          rw [hstream, hwhole]
          exact hout
        toolCalls := by
          rw [hstream, hwhole]
          exact htools
        finishReason := by
          rw [hstream, hwhole]
          by_cases horder : (announced sent).order = []
          · have hcalls := not_not.1 fun hne => hsome.2 hne horder
            simp [horder, hcalls]
          · have hcalls := hsome.1 horder
            simp only [if_pos hcalls, if_pos (And.intro horder hout)] }
  · rw [if_pos hout]
    have hwhole := whole_of_text (htext hout) hout
    have hbefore := announced_order_eq_nil sent
    constructor
    · intro h
      have htools := h.toolCalls
      rw [hstream, hwhole] at htools
      exact hbefore.1 ((toolCalls_eq_nil _).1 htools)
    · intro h
      exact {
        content := by rw [hstream, hwhole]
        toolCalls := by
          rw [hstream, hwhole]
          exact (toolCalls_eq_nil _).2 (hbefore.2 h)
        finishReason := by
          rw [hstream, hwhole]
          simp [hout] }

/-- A call before a text is sent to the client of the stream, and is no part of the response. -/
theorem call_before_text :
    ¬ ∀ (responseID upstreamModelName model : String) (sent : List Sent),
      Agrees responseID upstreamModelName model sent := by
  intro hall
  have hagrees := hall "chatcmpl" "gpt" "gpt"
    [.functionCall ⟨"fc_1", "call_1", "f", ["{}"], by decide +kernel⟩,
      .message "msg_1" [.outputText ["Hi"]]]
  have htools := hagrees.toolCalls
  revert htools
  decide +kernel

end CodeGo.Gateway.ResponsesToChat
