import CodeGo.Gateway.ResponsesToChat

/-!
# The run of a stream

What each event does to the state and to the message of the client, and from that what the items do.
-/

namespace CodeGo.Gateway.ResponsesToChat

open ClaudeStream ChatChunks
open CodeGo.Lib.Trim (trimSpace)

variable {responseID : String}

section Quiet

def choicesOf (chunks : List Chunk) : List Choice := chunks.flatMap (·.choices)

theorem choicesOf_append (xs ys : List Chunk) :
    choicesOf (xs ++ ys) = choicesOf xs ++ choicesOf ys := List.flatMap_append

/-- What of the state decides about content, tool calls and the finish reason. -/
def StreamState.core (st : StreamState) : StreamState :=
  { st with
    model := ""
    sentStart := false
    hasSentReasoningSummary := false
    needsReasoningSummarySeparator := false }

/-- A step that appends a text, and does nothing to the tool calls. -/
structure Appends (st : StreamState) (x : Step) (text : String) : Prop where
  state : x.1.core = { st.core with outputText := st.outputText ++ text }
  content : contentOf (choicesOf x.2) = text
  tools : toolDeltasOf (choicesOf x.2) = []
  finish : (choicesOf x.2).filterMap (·.finishReason) = []

theorem Appends.refl (st : StreamState) : Appends st (st, []) "" where
  state := by simp [StreamState.core]
  content := rfl
  tools := rfl
  finish := rfl

theorem Appends.outputText {st : StreamState} {x : Step} {text : String} (h : Appends st x text) :
    x.1.outputText = st.outputText ++ text := congrArg StreamState.outputText h.state

theorem Appends.streamErr {st : StreamState} {x : Step} {text : String} (h : Appends st x text) :
    x.1.streamErr = st.streamErr := (congrArg StreamState.streamErr h.state :)

theorem Appends.andThen {st : StreamState} {x : Step} {text text' : String}
    {f : StreamState → Step} (hx : Appends st x text) (hf : Appends x.1 (f x.1) text') :
    Appends st (x.andThen f) (text ++ text') where
  state := by
    rw [Step.andThen, hf.state, hx.state, hx.outputText, String.append_assoc]
  content := by
    rw [Step.andThen, choicesOf_append, contentOf_append, hx.content, hf.content]
  tools := by
    rw [Step.andThen, choicesOf_append, toolDeltasOf_append, hx.tools, hf.tools]
    rfl
  finish := by
    rw [Step.andThen, choicesOf_append, List.filterMap_append, hx.finish, hf.finish]
    rfl

variable (responseID) in
theorem appends_start (st : StreamState) : Appends st (sendStartIfNeeded responseID st) "" := by
  unfold sendStartIfNeeded
  split
  · exact .refl st
  · exact ⟨by simp [StreamState.core], rfl, rfl, rfl⟩

variable (responseID) in
theorem appends_summary (delta : String) (st : StreamState) :
    Appends st (sendReasoningSummaryDelta responseID delta st) "" := by
  unfold sendReasoningSummaryDelta
  split
  · exact .refl st
  · dsimp only
    generalize (if st.needsReasoningSummarySeparator then separated delta else delta) = shown
    have hstate : Appends st ({ st with needsReasoningSummarySeparator := false }, []) "" :=
      ⟨by simp [StreamState.core], rfl, rfl, rfl⟩
    have hstart : Appends st (sendStartIfNeeded responseID
        { st with needsReasoningSummarySeparator := false }) "" :=
      hstate.andThen (appends_start responseID _)
    have hsend : ∀ s, Appends s (sendDelta responseID { reasoningContent := some shown } s) "" :=
      fun s => ⟨by simp [sendDelta, StreamState.core], rfl, rfl, rfl⟩
    have hsaw : ∀ s : StreamState, Appends s ({ s with hasSentReasoningSummary := true }, []) "" :=
      fun s => ⟨by simp [StreamState.core], rfl, rfl, rfl⟩
    have hsent := hstart.andThen (hsend _)
    exact hsent.andThen (f := fun s => ({ s with hasSentReasoningSummary := true }, [])) (hsaw _)

variable (responseID) in
theorem appends_outputText (delta : String) (st : StreamState) :
    Appends st (sendOutputText responseID delta st) delta := by
  have hsend : ∀ s : StreamState, Appends s (if delta ≠ "" then
      sendDelta responseID { content := some delta } { s with outputText := s.outputText ++ delta }
      else (s, [])) delta := by
    intro s
    split
    · exact ⟨by simp [sendDelta, StreamState.core], by
        simp [sendDelta, choicesOf, contentOf, ChoiceDelta.getContentString], rfl, rfl⟩
    · rename_i hempty
      rw [not_not.1 hempty]
      exact .refl _
  have h := (appends_start responseID st).andThen (f := fun s => if delta ≠ "" then
      sendDelta responseID { content := some delta } { s with outputText := s.outputText ++ delta }
      else (s, [])) (hsend _)
  rwa [String.empty_append] at h

end Quiet

section Events

theorem handleEvents_append (st : StreamState) (xs ys : List ResponsesStreamResponse) :
    handleEvents responseID st (xs ++ ys) =
      (handleEvents responseID st xs).andThen (handleEvents responseID · ys) := by
  induction xs generalizing st with
  | nil => rfl
  | cons x xs ih =>
    simp only [List.cons_append, handleEvents, Step.andThen, ih, List.append_assoc]

/-- Events that append a text, wherever they come. -/
def Append (responseID : String) (events : List ResponsesStreamResponse) (text : String) : Prop :=
  ∀ st, st.streamErr = none → Appends st (handleEvents responseID st events) text

theorem Append.nil : Append responseID [] "" := fun st _ => .refl st

theorem Append.append {xs ys : List ResponsesStreamResponse} {text text' : String}
    (hx : Append responseID xs text) (hy : Append responseID ys text') :
    Append responseID (xs ++ ys) (text ++ text') := by
  intro st hst
  rw [handleEvents_append]
  exact (hx st hst).andThen (hy _ ((hx st hst).streamErr.trans hst))

theorem Append.single {event : ResponsesStreamResponse} {text : String}
    (h : ∀ st, st.streamErr = none → Appends st (handleEvent responseID st event) text) :
    Append responseID [event] text := by
  intro st hst
  simpa [handleEvents, Step.andThen] using h st hst

theorem Append.flatMap {A : Type} {f : A → List ResponsesStreamResponse} {text : A → String}
    (xs : List A) (h : ∀ x ∈ xs, Append responseID (f x) (text x)) :
    Append responseID (xs.flatMap f) (String.join (xs.map text)) := by
  induction xs with
  | nil => exact Append.nil
  | cons x xs ih =>
    rw [List.flatMap_cons, List.map_cons, String.join_cons]
    exact (h x List.mem_cons_self).append (ih fun y hy => h y (List.mem_cons_of_mem _ hy))

theorem Append.map {f : String → ResponsesStreamResponse} {text : String → String}
    (xs : List String) (h : ∀ x, Append responseID [f x] (text x)) :
    Append responseID (xs.map f) (String.join (xs.map text)) := by
  rw [List.map_eq_flatMap]
  exact Append.flatMap xs fun x _ => h x

/-- Events of which the handler knows nothing. -/
theorem append_ignored {event : ResponsesStreamResponse}
    (h : ∀ st, st.streamErr = none → handleEvent responseID st event = (st, [])) :
    Append responseID [event] "" :=
  Append.single fun st hst => by rw [h st hst]; exact .refl st

variable (responseID) in
theorem append_item {item : ResponsesOutput} (h : item.type ≠ "function_call") :
    Append responseID [added item] "" ∧ Append responseID [done item] "" := by
  constructor
  · apply append_ignored
    intro st hst
    simp [handleEvent, hst, added, h]
  · apply append_ignored
    intro st hst
    simp [handleEvent, hst, done, h]

variable (responseID) in
theorem append_texts (itemID : String) (deltas : List String) :
    Append responseID (deltas.map (textDelta itemID)) (String.join deltas) := by
  have h : Append responseID (deltas.map (textDelta itemID))
      (String.join (deltas.map fun d => d)) :=
    Append.map deltas fun delta => Append.single fun st hst => by
      have heq : handleEvent responseID st (textDelta itemID delta) =
          sendOutputText responseID delta st := by
        simp [handleEvent, hst, textDelta]
      rw [heq]
      exact appends_outputText responseID delta st
  rwa [List.map_id'] at h

theorem join_empties {A : Type} (xs : List A) : String.join (xs.map fun _ => "") = "" := by
  induction xs with
  | nil => rfl
  | cons x xs ih => rw [List.map_cons, String.join_cons, ih, String.empty_append]

def Part.text : Part → String
  | .outputText deltas => String.join deltas
  | .refusal _ => ""

variable (responseID) in
theorem append_part (itemID : String) (p : Part) :
    Append responseID (p.events itemID) p.text := by
  cases p with
  | outputText deltas =>
    have hadded : Append responseID [{ type := "response.content_part.added", itemID }] "" :=
      append_ignored fun st hst => by simp [handleEvent, hst]
    have htextDone : Append responseID [{ type := "response.output_text.done", itemID }] "" :=
      append_ignored fun st hst => by simp [handleEvent, hst]
    have hdone : Append responseID [{ type := "response.content_part.done", itemID }] "" :=
      append_ignored fun st hst => by simp [handleEvent, hst]
    have h := hadded.append ((append_texts responseID itemID deltas).append (htextDone.append hdone))
    simpa [Part.events, Part.text] using h
  | refusal deltas =>
    have hadded : Append responseID [{ type := "response.content_part.added", itemID }] "" :=
      append_ignored fun st hst => by simp [handleEvent, hst]
    have hdeltas : Append responseID (deltas.map (refusalDelta itemID))
        (String.join (deltas.map fun _ => "")) :=
      Append.map deltas fun delta => append_ignored fun st hst => by
        simp [handleEvent, hst, refusalDelta]
    have hrefusalDone : Append responseID [{ type := "response.refusal.done", itemID }] "" :=
      append_ignored fun st hst => by simp [handleEvent, hst]
    have hdone : Append responseID [{ type := "response.content_part.done", itemID }] "" :=
      append_ignored fun st hst => by simp [handleEvent, hst]
    have h := hadded.append (hdeltas.append (hrefusalDone.append hdone))
    rw [join_empties] at h
    simpa [Part.events, Part.text] using h

variable (responseID) in
theorem append_summary (itemID : String) (deltas : List String) :
    Append responseID (summaryEvents itemID deltas) "" := by
  have hadded : Append responseID [{ type := "response.reasoning_summary_part.added", itemID }] "" :=
    append_ignored fun st hst => by simp [handleEvent, hst]
  have hdeltas : Append responseID (deltas.map (summaryDelta itemID))
      (String.join (deltas.map fun _ => "")) :=
    Append.map deltas fun delta => Append.single fun st hst => by
      have heq : handleEvent responseID st (summaryDelta itemID delta) =
          sendReasoningSummaryDelta responseID delta st := by
        simp [handleEvent, hst, summaryDelta]
      rw [heq]
      exact appends_summary responseID delta st
  have htextDone :
      Append responseID [{ type := "response.reasoning_summary_text.done", itemID }] "" :=
    Append.single fun st hst => by
      have heq : handleEvent responseID st
          { type := "response.reasoning_summary_text.done", itemID } =
          ({ st with needsReasoningSummarySeparator :=
              st.hasSentReasoningSummary || st.needsReasoningSummarySeparator }, []) := by
        simp [handleEvent, hst]
      rw [heq]
      exact ⟨by simp [StreamState.core], rfl, rfl, rfl⟩
  have hdone : Append responseID [{ type := "response.reasoning_summary_part.done", itemID }] "" :=
    append_ignored fun st hst => by simp [handleEvent, hst]
  have h := hadded.append (hdeltas.append (htextDone.append hdone))
  rw [join_empties] at h
  simpa [summaryEvents] using h

variable (responseID) in
theorem append_reasoning (itemID : String) (deltas : List String) :
    Append responseID (reasoningEvents itemID deltas) "" := by
  have hdeltas : Append responseID (deltas.map (reasoningDelta itemID))
      (String.join (deltas.map fun _ => "")) :=
    Append.map deltas fun delta => append_ignored fun st hst => by
      simp [handleEvent, hst, reasoningDelta]
  have hdone : Append responseID [{ type := "response.reasoning_text.done", itemID }] "" :=
    append_ignored fun st hst => by simp [handleEvent, hst]
  have h := hdeltas.append hdone
  rw [join_empties] at h
  simpa [reasoningEvents] using h

variable (responseID) in
theorem append_message (id : String) (parts : List Part) :
    Append responseID (Sent.message id parts).events (String.join (parts.map Part.text)) := by
  obtain ⟨hadded, -⟩ := append_item responseID
    (show (messageItem id []).type ≠ "function_call" by simp [messageItem])
  obtain ⟨-, hdone⟩ := append_item responseID
    (show (messageItem id parts).type ≠ "function_call" by simp [messageItem])
  have hparts := Append.flatMap parts fun p _ => append_part responseID id p
  have h := hadded.append (hparts.append hdone)
  simpa [Sent.events] using h

variable (responseID) in
theorem append_reasoningItem (id : String) (summary content : List (List String)) :
    Append responseID (Sent.reasoning id summary content).events "" := by
  obtain ⟨hadded, -⟩ := append_item responseID
    (show (reasoningItem id []).type ≠ "function_call" by simp [reasoningItem])
  obtain ⟨-, hdone⟩ := append_item responseID
    (show (reasoningItem id content).type ≠ "function_call" by simp [reasoningItem])
  have hsummary := Append.flatMap summary fun d _ => append_summary responseID id d
  have hcontent := Append.flatMap content fun d _ => append_reasoning responseID id d
  have h := hadded.append ((hsummary.append hcontent).append hdone)
  rw [join_empties, join_empties] at h
  simpa [Sent.events] using h

end Events

/-- The client has the texts of the state and the tool calls of the view. -/
structure Shown (st : StreamState) (choices : List Choice) (v : View) : Prop where
  streamErr : st.streamErr = none
  sentStop : st.sentStop = false
  content : contentOf choices = st.outputText
  tools : addToolCalls [] (toolDeltasOf choices) = v.toolCalls
  finish : choices.filterMap (·.finishReason) = []
  saw : st.sawToolCall = decide (v.order ≠ [])

/-- The maps of the handler are those of the view. -/
structure Maps (st : StreamState) (v : View) : Prop where
  nodup : v.order.Nodup
  fresh : ∀ k, k ∉ v.order → v.names k = "" ∧ v.texts k = ""
  index : st.toolCallIndexByID = v.order.zipIdx
  named : ∀ k, v.names k = "" → st.toolCallNameByID k = ""
  nameSent : ∀ k, st.toolCallNameSent k = decide (v.names k ≠ "")
  args : st.toolCallArgsByID = v.args

theorem Shown.appends {st : StreamState} {choices : List Choice} {v : View} {x : Step}
    {text : String} (h : Shown st choices v) (ha : Appends st x text) :
    Shown x.1 (choices ++ choicesOf x.2) v where
  streamErr := ha.streamErr.trans h.streamErr
  sentStop := (congrArg StreamState.sentStop ha.state :).trans h.sentStop
  content := by rw [contentOf_append, ha.content, h.content, ha.outputText]
  tools := by rw [toolDeltasOf_append, ha.tools, List.append_nil, h.tools]
  finish := by rw [List.filterMap_append, h.finish, ha.finish, List.nil_append]
  saw := (congrArg StreamState.sawToolCall ha.state :).trans h.saw

theorem Maps.appends {st : StreamState} {v : View} {x : Step} {text : String} (h : Maps st v)
    (ha : Appends st x text) : Maps x.1 v where
  nodup := h.nodup
  fresh := h.fresh
  index := (congrArg StreamState.toolCallIndexByID ha.state :).trans h.index
  named := fun k hk => (congrFun (congrArg StreamState.toolCallNameByID ha.state :) k).trans
    (h.named k hk)
  nameSent := fun k => (congrFun (congrArg StreamState.toolCallNameSent ha.state :) k).trans
    (h.nameSent k)
  args := (congrArg StreamState.toolCallArgsByID ha.state :).trans h.args

theorem callIndex_eq {st : StreamState} {v : View} (h : Maps st v) (key : String) :
    callIndex key st =
      ({ st with toolCallIndexByID :=
          (if key ∈ v.order then v.order else v.order ++ [key]).zipIdx },
        if key ∈ v.order then v.order.idxOf key else v.order.length) := by
  unfold callIndex
  rw [h.index, lookup_zipIdx]
  by_cases hmem : key ∈ v.order
  · simp only [if_pos hmem, Nat.zero_add, ← h.index]
  · simp only [if_neg hmem, List.length_zipIdx, List.zipIdx_append, List.zipIdx_singleton,
      Nat.zero_add]

/-- The name that is sent is the first one, and it is noted. -/
theorem callName_eq (st : StreamState) {v : View}
    (hnamed : ∀ k, v.names k = "" → st.toolCallNameByID k = "")
    (hsent : ∀ k, st.toolCallNameSent k = decide (v.names k ≠ "")) (key name : String) :
    ∃ byID, callName key name st =
        ({ st with
            toolCallNameByID := byID
            toolCallNameSent := fun k => decide ((v.touch key name "").names k ≠ "") },
          if v.names key = "" then name else "") ∧
      ∀ k, (v.touch key name "").names k = "" → byID k = "" := by
  have hsentEq : st.toolCallNameSent = fun k => decide (v.names k ≠ "") := funext hsent
  by_cases hname : name = ""
  · refine ⟨st.toolCallNameByID, ?_, ?_⟩
    · have htouch : (v.touch key name "").names = v.names := by
        funext k
        by_cases hk : k = key
        · subst hk
          by_cases hv : v.names k = "" <;> simp [View.touch, hname, hv]
        · simp [View.touch, put_of_ne _ _ hk]
      rw [htouch, ← hsentEq]
      unfold callName
      by_cases hv : v.names key = ""
      · simp [hname, hnamed key hv, hv]
      · simp [hname, hsent key, hv]
    · intro k hk
      apply hnamed k
      by_cases hkk : k = key
      · subst hkk
        by_cases hv : v.names k = ""
        · exact hv
        · simp [View.touch, hv] at hk
      · simpa [View.touch, put_of_ne _ _ hkk] using hk
  · refine ⟨put st.toolCallNameByID key name, ?_, ?_⟩
    · unfold callName
      by_cases hv : v.names key = ""
      · have htouch : (fun k => decide ((v.touch key name "").names k ≠ "")) =
            put st.toolCallNameSent key true := by
          funext k
          by_cases hk : k = key
          · subst hk
            simp [View.touch, hv, hname]
          · simp [View.touch, put_of_ne _ _ hk, hsent k]
        rw [htouch]
        simp [hname, hsent key, hv]
      · have htouch : (fun k => decide ((v.touch key name "").names k ≠ "")) =
            st.toolCallNameSent := by
          funext k
          by_cases hk : k = key
          · subst hk
            simp [View.touch, hv, hsent k]
          · simp [View.touch, put_of_ne _ _ hk, hsent k]
        rw [htouch]
        simp [hname, hsent key, hv]
    · intro k hk
      by_cases hkk : k = key
      · subst hkk
        by_cases hv : v.names k = "" <;> simp [View.touch, hv, hname] at hk
      · rw [put_of_ne _ _ hkk]
        apply hnamed k
        simpa [View.touch, put_of_ne _ _ hkk] using hk

/-- What a delta of a call leaves of the state. -/
structure Touched (st st' : StreamState) : Prop where
  outputText : st'.outputText = st.outputText
  canonical : st'.toolCallCanonicalIDByItemID = st.toolCallCanonicalIDByItemID

theorem nodup_add {order : List String} (h : order.Nodup) (key : String) :
    (if key ∈ order then order else order ++ [key]).Nodup := by
  split
  · exact h
  · rename_i hmem
    apply List.nodup_append.2
    refine ⟨h, by simp, ?_⟩
    intro a ha b hb
    rw [List.mem_singleton.1 hb]
    rintro rfl
    exact hmem ha

theorem touch_fresh {v : View} (h : ∀ k, k ∉ v.order → v.names k = "" ∧ v.texts k = "")
    (key name text : String) :
    ∀ k, k ∉ (v.touch key name text).order →
      (v.touch key name text).names k = "" ∧ (v.touch key name text).texts k = "" := by
  intro k hk
  have hmem : k ∉ v.order ∧ k ≠ key := by
    simp only [View.touch] at hk
    split at hk
    · rename_i hin
      exact ⟨hk, fun he => hk (he ▸ hin)⟩
    · simpa using hk
  simpa [View.touch, put_of_ne _ _ hmem.2] using h k hmem.1

theorem touch_order_ne_nil (v : View) (key name text : String) :
    (v.touch key name text).order ≠ [] := by
  simp only [View.touch]
  split
  · rename_i hmem
    intro hnil
    rw [hnil] at hmem
    cases hmem
  · simp

/-- The chunk of a delta of a call. -/
def callChoice (v : View) (key name text : String) : Choice :=
  { delta := { toolCalls :=
      [{ index := some
          (((if key ∈ v.order then v.order.idxOf key else v.order.length) : Nat) : Int)
         id := key
         function :=
          { name := if v.names key = "" then name else "", arguments := text } }] } }

theorem sendToolCallDelta_eq (responseID : String) {st : StreamState} {v : View} (hm : Maps st v)
    (htext : st.outputText = "") {key : String} (hkey : key ≠ "") (name text : String) :
    ∃ byID, (∀ k, (v.touch key name "").names k = "" → byID k = "") ∧
      sendToolCallDelta responseID key name text st =
        ({ (sendStartIfNeeded responseID st).1 with
            toolCallIndexByID := (v.touch key name text).order.zipIdx
            toolCallNameByID := byID
            toolCallNameSent := fun k => decide ((v.touch key name text).names k ≠ "")
            sawToolCall := true },
          (sendStartIfNeeded responseID st).2 ++
            [{ id := responseID, model := (sendStartIfNeeded responseID st).1.model
               choices := [callChoice v key name text] }]) := by
  have hm₁ := hm.appends (appends_start responseID st)
  have hindex := callIndex_eq hm₁ key
  obtain ⟨byID, hname, hbyID⟩ := callName_eq
    { (sendStartIfNeeded responseID st).1 with
      toolCallIndexByID := (if key ∈ v.order then v.order else v.order ++ [key]).zipIdx }
    hm₁.named hm₁.nameSent key name
  refine ⟨byID, hbyID, ?_⟩
  unfold sendToolCallDelta
  rw [if_neg hkey, if_neg (by simp [htext])]
  simp only [Step.andThen, hindex, hname, sendDelta, List.append_nil]
  rfl

theorem sendToolCallDelta_shown (responseID : String) {st : StreamState} {choices : List Choice} {v : View}
    (hs : Shown st choices v) (hm : Maps st v) (htext : st.outputText = "") {key : String}
    (hkey : key ≠ "") (name text : String) :
    let x := sendToolCallDelta responseID key name text st
    Shown x.1 (choices ++ choicesOf x.2) (v.touch key name text) ∧
      Maps x.1 (v.touch key name text) ∧ Touched st x.1 := by
  have hstart := appends_start responseID st
  have hs₁ := hs.appends hstart
  have hm₁ := hm.appends hstart
  obtain ⟨byID, hbyID, heq⟩ :=
    sendToolCallDelta_eq responseID hm htext hkey name text
  intro x
  have hx : choicesOf x.2 =
      choicesOf (sendStartIfNeeded responseID st).2 ++ [callChoice v key name text] := by
    simp only [x, heq, choicesOf_append]
    rfl
  have hstate := congrArg Prod.fst heq
  refine ⟨?_, ?_, ?_⟩
  · rw [hx, ← List.append_assoc]
    exact {
      streamErr := by rw [hstate]; exact hs₁.streamErr
      sentStop := by rw [hstate]; exact hs₁.sentStop
      content := by
        rw [hstate, contentOf_append, hs₁.content]
        exact String.append_empty
      tools := by
        rw [toolDeltasOf_append, addToolCalls_append, hs₁.tools]
        exact addToolCall_view hm.nodup hm.fresh key name text _ rfl
      finish := by
        rw [List.filterMap_append, hs₁.finish]
        rfl
      saw := by
        rw [hstate]
        simp [touch_order_ne_nil] }
  · exact {
      nodup := nodup_add hm.nodup key
      fresh := touch_fresh hm.fresh key name text
      index := by rw [hstate]
      named := by
        intro k hk
        rw [hstate]
        exact hbyID k hk
      nameSent := by
        intro k
        rw [hstate]
      args := by rw [hstate]; exact hm₁.args }
  · exact {
      outputText := by
        rw [hstate]
        exact hstart.outputText.trans String.append_empty
      canonical := by
        rw [hstate]
        exact (congrArg StreamState.toolCallCanonicalIDByItemID hstart.state :) }

/-- A step after which the client has the view `v`, and deltas of `id` are those of the call `key`;
no text was sent so far. -/
structure Reaches (choices : List Choice) (id key : String) (x : Step) (v : View) : Prop where
  shown : Shown x.1 (choices ++ choicesOf x.2) v
  maps : Maps x.1 v
  silent : x.1.outputText = ""
  canonical : x.1.toolCallCanonicalIDByItemID id = key

theorem Reaches.of_andThen {choices : List Choice} {id key : String} {x : Step} {v' : View}
    {f : StreamState → Step} (hf : Reaches (choices ++ choicesOf x.2) id key (f x.1) v') :
    Reaches choices id key (x.andThen f) v' where
  shown := by
    rw [Step.andThen, choicesOf_append, ← List.append_assoc]
    exact hf.shown
  maps := hf.maps
  silent := hf.silent
  canonical := hf.canonical

theorem reaches_send (responseID : String) {st : StreamState} {choices : List Choice} {v : View}
    (hs : Shown st choices v) (hm : Maps st v) (htext : st.outputText = "") {id key : String}
    (hkey : key ≠ "") (name text : String) (args canonical : String → String)
    (hcanonical : canonical id = key) :
    Reaches choices id key
      (sendToolCallDelta responseID key name text
        { st with toolCallArgsByID := args, toolCallCanonicalIDByItemID := canonical })
      { v.touch key name text with args } := by
  have hs' : Shown { st with toolCallArgsByID := args, toolCallCanonicalIDByItemID := canonical }
      choices { v with args } := ⟨hs.1, hs.2, hs.3, hs.4, hs.5, hs.6⟩
  have hm' : Maps { st with toolCallArgsByID := args, toolCallCanonicalIDByItemID := canonical }
      { v with args } := ⟨hm.1, hm.2, hm.3, hm.4, hm.5, rfl⟩
  obtain ⟨hshown, hmaps, htouched⟩ :=
    sendToolCallDelta_shown responseID hs' hm' htext hkey name text
  exact ⟨hshown, hmaps, htouched.outputText.trans htext, by
    rw [htouched.canonical]
    exact hcanonical⟩

/-- The state in which a name is noted. -/
def noted (key name : String) (st : StreamState) : StreamState :=
  { st with toolCallNameByID := put st.toolCallNameByID key name }

theorem sendStartIfNeeded_noted (st : StreamState) (key name : String) :
    sendStartIfNeeded responseID (noted key name st) =
      (noted key name (sendStartIfNeeded responseID st).1, (sendStartIfNeeded responseID st).2) := by
  unfold sendStartIfNeeded
  cases h : st.sentStart <;> simp [noted, h]

theorem callIndex_noted (st : StreamState) (key name : String) :
    callIndex key (noted key name st) =
      (noted key name (callIndex key st).1, (callIndex key st).2) := by
  unfold callIndex
  cases h : st.toolCallIndexByID.lookup key <;> simp [noted, h]

theorem callName_noted (st : StreamState) (key name : String) (hname : name ≠ "") :
    callName key name (noted key name st) = callName key name st := by
  simp [callName, noted, hname]

/-- The name is noted once more when it is sent. -/
theorem sendToolCallDelta_noted (st : StreamState) (key name text : String) (hname : name ≠ "")
    (htext : st.outputText = "") (hkey : key ≠ "") :
    sendToolCallDelta responseID key name text (noted key name st) =
      sendToolCallDelta responseID key name text st := by
  have htext' : (noted key name st).outputText = "" := htext
  unfold sendToolCallDelta
  rw [if_neg hkey, if_neg hkey, if_neg (not_not.2 htext), if_neg (not_not.2 htext')]
  simp only [Step.andThen, sendStartIfNeeded_noted, callIndex_noted, callName_noted _ _ _ hname]

theorem itemCallID_ne {item : ResponsesOutput} (h : trimSpace item.id ≠ "") :
    itemCallID item ≠ "" := by
  unfold itemCallID
  split
  · exact h
  · assumption

theorem functionCallItem_eq (st : StreamState) (item : ResponsesOutput)
    (h : trimSpace item.id ≠ "") (htext : st.outputText = "") :
    functionCallItem responseID item st =
      sendToolCallDelta responseID (itemCallID item) (trimSpace item.name)
        (argsSince item.arguments (st.toolCallArgsByID (itemCallID item)))
        { st with
          toolCallArgsByID := if item.arguments = "" then st.toolCallArgsByID
            else put st.toolCallArgsByID (itemCallID item) item.arguments
          toolCallCanonicalIDByItemID :=
            put st.toolCallCanonicalIDByItemID (trimSpace item.id) (itemCallID item) } := by
  have hkey := itemCallID_ne h
  by_cases hname : trimSpace item.name = ""
  · by_cases hargs : item.arguments = "" <;> simp [functionCallItem, h, hkey, hname, hargs]
  · rw [← sendToolCallDelta_noted { st with
          toolCallArgsByID := if item.arguments = "" then st.toolCallArgsByID
            else put st.toolCallArgsByID (itemCallID item) item.arguments
          toolCallCanonicalIDByItemID :=
            put st.toolCallCanonicalIDByItemID (trimSpace item.id) (itemCallID item) }
        (itemCallID item) (trimSpace item.name) _ hname htext hkey]
    by_cases hargs : item.arguments = "" <;>
      simp [functionCallItem, h, hkey, hname, hargs, noted]

theorem argsSince_append (arguments sent : String) :
    argsSince arguments (sent ++ arguments) =
      if arguments = "" ∨ sent = "" then "" else arguments := by
  unfold argsSince
  by_cases harguments : arguments = ""
  · simp [harguments]
  · by_cases hsent : sent = ""
    · simp [harguments, hsent, hasPrefix]
    · have hlonger : hasPrefix arguments (sent ++ arguments) = false := by
        cases hp : hasPrefix arguments (sent ++ arguments) with
        | false => rfl
        | true =>
          have hle := (List.isPrefixOf_iff_prefix.1 hp).length_le
          have hpos : sent.length ≠ 0 := fun h0 => hsent (String.length_eq_zero_iff.1 h0)
          rw [String.toList_append, List.length_append] at hle
          have : sent.toList.length = sent.length := String.length_toList
          omega
      simp [harguments, hsent, hlonger]

theorem touch_known {v : View} {key : String} (h : key ∈ v.order) : v.touch key "" "" = v := by
  unfold View.touch
  rw [if_pos h, String.append_empty, put_same]
  by_cases hname : v.names key = ""
  · rw [if_pos hname, ← hname, put_same]
  · rw [if_neg hname, put_same]

theorem mem_touch (v : View) (key name text : String) : key ∈ (v.touch key name text).order := by
  simp only [View.touch]
  split
  · assumption
  · simp

theorem reaches_deltas (responseID : String) {c : FunctionCall} {key : String} (hkey : key ≠ "") (deltas : List String)
    {st : StreamState} {choices : List Choice} {v : View} (hs : Shown st choices v)
    (hm : Maps st v) (htext : st.outputText = "")
    (hcanonical : st.toolCallCanonicalIDByItemID (trimSpace c.id) = key) (hmem : key ∈ v.order) :
    Reaches choices (trimSpace c.id) key
      (handleEvents responseID st (deltas.map (argumentsEvent c.id)))
      { v.touch key "" (String.join deltas) with
        args := put v.args key (v.args key ++ String.join deltas) } := by
  induction deltas generalizing st choices v with
  | nil =>
    rw [String.join_nil, touch_known hmem, String.append_empty, put_same]
    exact ⟨by simpa [handleEvents, choicesOf] using hs, hm, htext, hcanonical⟩
  | cons delta deltas ih =>
    have hevent : handleEvent responseID st (argumentsEvent c.id delta) =
        sendToolCallDelta responseID key "" delta
          { st with
            toolCallArgsByID := put st.toolCallArgsByID key
              (st.toolCallArgsByID key ++ delta) } := by
      simp [handleEvent, hs.streamErr, argumentsEvent, functionCallArgumentsDelta, hcanonical, hkey]
    have hfirst := reaches_send responseID hs hm htext hkey "" delta
      (put st.toolCallArgsByID key (st.toolCallArgsByID key ++ delta))
      st.toolCallCanonicalIDByItemID hcanonical
    rw [List.map_cons, handleEvents, hevent]
    apply Reaches.of_andThen
    have hrest := ih hfirst.shown hfirst.maps hfirst.silent hfirst.canonical
      (mem_touch v key "" delta)
    have hview : ({ (({ v.touch key "" delta with
          args := put st.toolCallArgsByID key (st.toolCallArgsByID key ++ delta) } : View).touch
            key "" (String.join deltas)) with
          args := put (put st.toolCallArgsByID key (st.toolCallArgsByID key ++ delta)) key
            (put st.toolCallArgsByID key (st.toolCallArgsByID key ++ delta) key ++
              String.join deltas) } : View) =
        { v.touch key "" (String.join (delta :: deltas)) with
          args := put v.args key (v.args key ++ String.join (delta :: deltas)) } := by
      have htouch := touch_touch v key "" "" delta (String.join deltas)
      simp only [if_true] at htouch
      rw [String.join_cons, ← htouch, put_put, put_self, hm.args, String.append_assoc]
      rfl
    rw [← hview]
    exact hrest

theorem handleEvent_added {st : StreamState} (hst : st.streamErr = none) (c : FunctionCall)
    (arguments : String) :
    handleEvent responseID st (added (c.item arguments)) =
      functionCallItem responseID (c.item arguments) st := by
  simp [handleEvent, hst, added, FunctionCall.item]

theorem handleEvent_done {st : StreamState} (hst : st.streamErr = none) (c : FunctionCall)
    (arguments : String) :
    handleEvent responseID st (done (c.item arguments)) =
      functionCallItem responseID (c.item arguments) st := by
  simp [handleEvent, hst, done, FunctionCall.item]

theorem handleEvent_argumentsDone {st : StreamState} (hst : st.streamErr = none) (itemID : String) :
    handleEvent responseID st { type := "response.function_call_arguments.done", itemID } =
      (st, []) := by
  simp [handleEvent, hst]

/-- The key of a call does not depend on its arguments. -/
def FunctionCall.key (c : FunctionCall) : String :=
  if trimSpace c.callID = "" then trimSpace c.id else trimSpace c.callID

theorem itemCallID_item (c : FunctionCall) (arguments : String) :
    itemCallID (c.item arguments) = c.key := rfl

theorem key_ne (c : FunctionCall) : c.key ≠ "" := by
  have h : itemCallID (c.item "") ≠ "" := itemCallID_ne c.identified
  exact h

theorem andThen_nil (x : Step) : x.andThen (handleEvents responseID · []) = x := by
  simp [Step.andThen, handleEvents]

/-- The last event of a call shows what was not yet sent of the arguments. -/
theorem reaches_done (responseID arguments sent : String) (c : FunctionCall) {st : StreamState}
    {choices : List Choice} {v : View} (hs : Shown st choices v) (hm : Maps st v)
    (htext : st.outputText = "") (hargs : v.args c.key = sent ++ arguments) :
    Reaches choices (trimSpace c.id) c.key (functionCallItem responseID (c.item arguments) st)
      { v.touch c.key (trimSpace c.name) (if arguments = "" ∨ sent = "" then "" else arguments) with
        args := if arguments = "" then v.args else put v.args c.key arguments } := by
  rw [functionCallItem_eq st _ c.identified htext]
  have h := reaches_send responseID hs hm htext (key_ne c) (trimSpace c.name)
    (if arguments = "" ∨ sent = "" then "" else arguments)
    (if arguments = "" then v.args else put v.args c.key arguments)
    (put st.toolCallCanonicalIDByItemID (trimSpace c.id) c.key) (put_self _ _ _)
  have hsince : argsSince (c.item arguments).arguments (st.toolCallArgsByID c.key) =
      if arguments = "" ∨ sent = "" then "" else arguments := by
    rw [hm.args, hargs]
    exact argsSince_append arguments sent
  rw [itemCallID_item, hsince, hm.args]
  exact h

/-- A call that comes before any text is announced. -/
theorem reaches_call (responseID : String) (c : FunctionCall) {st : StreamState} {choices : List Choice} {v : View}
    (hs : Shown st choices v) (hm : Maps st v) (htext : st.outputText = "") :
    Reaches choices (trimSpace c.id) c.key
      (handleEvents responseID st (Sent.functionCall c).events) (v.announce c) := by
  have hkey := key_ne c
  have hadded : Reaches choices (trimSpace c.id) c.key
      (handleEvent responseID st (added (c.item ""))) (v.touch c.key (trimSpace c.name) "") := by
    rw [handleEvent_added hs.streamErr, functionCallItem_eq st _ c.identified htext]
    have h := reaches_send responseID hs hm htext hkey (trimSpace c.name) ""
      st.toolCallArgsByID (put st.toolCallCanonicalIDByItemID (trimSpace c.id) c.key) (put_self _ _ _)
    have hview : ({ v.touch c.key (trimSpace c.name) "" with
        args := st.toolCallArgsByID } : View) = v.touch c.key (trimSpace c.name) "" := by
      rw [hm.args]
      rfl
    have hnone : (c.item "").arguments = "" := rfl
    have hsince : argsSince "" (st.toolCallArgsByID c.key) = "" := by simp [argsSince]
    rw [itemCallID_item, hnone, if_pos rfl, hsince, ← hview]
    exact h
  rw [Sent.events, handleEvents]
  apply Reaches.of_andThen
  rw [handleEvents_append]
  apply Reaches.of_andThen
  have hdeltas := reaches_deltas responseID hkey c.deltas hadded.shown hadded.maps
    hadded.silent hadded.canonical (mem_touch v c.key (trimSpace c.name) "")
  set arguments := String.join c.deltas with harguments
  rw [handleEvents, handleEvent_argumentsDone hdeltas.shown.streamErr]
  apply Reaches.of_andThen
  rw [handleEvents, handleEvent_done hdeltas.shown.streamErr, andThen_nil]
  have hdone := reaches_done responseID arguments
    (v.args c.key) c hdeltas.shown hdeltas.maps hdeltas.silent (by simp [View.touch])
  have hview : ({ (((v.touch c.key (trimSpace c.name) "").touch c.key "" arguments).touch c.key
        (trimSpace c.name) (if arguments = "" ∨ v.args c.key = "" then "" else arguments)) with
        args := if arguments = "" then put v.args c.key (v.args c.key ++ arguments)
          else put (put v.args c.key (v.args c.key ++ arguments)) c.key arguments } : View) =
      v.announce c := by
    have hname : (if trimSpace c.name = "" then trimSpace c.name else trimSpace c.name) =
        trimSpace c.name := ite_self _
    have hargs : (if arguments = "" then put v.args c.key (v.args c.key ++ arguments)
        else put (put v.args c.key (v.args c.key ++ arguments)) c.key arguments) =
        if arguments = "" then v.args else put v.args c.key arguments := by
      split
      · rename_i hempty
        rw [hempty, String.append_empty, put_same]
      · rw [put_put]
    rw [touch_touch, touch_touch, if_pos rfl, hname, hargs, String.empty_append]
    rfl
  have hnil : choicesOf [] = [] := rfl
  rw [← hview, hnil, List.append_nil]
  exact hdone

/-- A step behind a text, of which the client sees nothing. -/
structure Hidden (st : StreamState) (x : Step) : Prop where
  chunks : x.2 = []
  outputText : x.1.outputText = st.outputText
  streamErr : x.1.streamErr = st.streamErr
  sentStop : x.1.sentStop = st.sentStop
  saw : x.1.sawToolCall = st.sawToolCall

theorem Hidden.andThen {st : StreamState} {x : Step} {f : StreamState → Step} (hx : Hidden st x)
    (hf : Hidden x.1 (f x.1)) : Hidden st (x.andThen f) where
  chunks := by rw [Step.andThen, hx.chunks, hf.chunks]; rfl
  outputText := hf.outputText.trans hx.outputText
  streamErr := hf.streamErr.trans hx.streamErr
  sentStop := hf.sentStop.trans hx.sentStop
  saw := hf.saw.trans hx.saw

theorem sendToolCallDelta_hidden {st : StreamState} (h : st.outputText ≠ "")
    (key name text : String) : sendToolCallDelta responseID key name text st = (st, []) := by
  unfold sendToolCallDelta
  rw [if_pos h, ite_self]

theorem hidden_item {st : StreamState} (h : st.outputText ≠ "") (item : ResponsesOutput) :
    Hidden st (functionCallItem responseID item st) := by
  unfold functionCallItem
  dsimp only
  rw [sendToolCallDelta_hidden]
  · constructor <;> (split_ifs <;> rfl)
  · split_ifs <;> exact h

theorem hidden_arguments {st : StreamState} (h : st.outputText ≠ "") (itemID delta : String) :
    Hidden st (functionCallArgumentsDelta responseID itemID delta st) := by
  unfold functionCallArgumentsDelta
  dsimp only
  generalize (if st.toolCallCanonicalIDByItemID (trimSpace itemID) = "" then trimSpace itemID
    else st.toolCallCanonicalIDByItemID (trimSpace itemID)) = key
  by_cases hkey : key = ""
  · rw [if_pos hkey]
    exact ⟨rfl, rfl, rfl, rfl, rfl⟩
  · rw [if_neg hkey, sendToolCallDelta_hidden]
    · exact ⟨rfl, rfl, rfl, rfl, rfl⟩
    · exact h

theorem hidden_events {st : StreamState} (htext : st.outputText ≠ "") (herr : st.streamErr = none)
    (events : List ResponsesStreamResponse)
    (h : ∀ event ∈ events, ∀ s : StreamState, s.outputText ≠ "" → s.streamErr = none →
      Hidden s (handleEvent responseID s event)) :
    Hidden st (handleEvents responseID st events) := by
  induction events generalizing st with
  | nil => exact ⟨rfl, rfl, rfl, rfl, rfl⟩
  | cons event events ih =>
    have hfirst := h event List.mem_cons_self st htext herr
    apply hfirst.andThen
    exact ih (hfirst.outputText ▸ htext) (hfirst.streamErr.trans herr)
      fun e he => h e (List.mem_cons_of_mem _ he)

theorem hidden_call (responseID : String) (c : FunctionCall) {st : StreamState} (htext : st.outputText ≠ "")
    (herr : st.streamErr = none) :
    Hidden st (handleEvents responseID st (Sent.functionCall c).events) := by
  apply hidden_events htext herr
  intro event hevent s hs hserr
  simp only [Sent.events, List.mem_cons, List.mem_append, List.mem_map, List.not_mem_nil,
    or_false] at hevent
  rcases hevent with rfl | ⟨delta, -, rfl⟩ | rfl | rfl
  · rw [handleEvent_added hserr]
    exact hidden_item hs _
  · have heq : handleEvent responseID s (argumentsEvent c.id delta) =
        functionCallArgumentsDelta responseID c.id delta s := by
      simp [handleEvent, hserr, argumentsEvent]
    rw [heq]
    exact hidden_arguments hs _ _
  · rw [handleEvent_argumentsDone hserr]
    exact ⟨rfl, rfl, rfl, rfl, rfl⟩
  · rw [handleEvent_done hserr]
    exact hidden_item hs _

/-- The text of an item. -/
def Sent.text : Sent → String
  | .message _ parts => String.join (parts.map Part.text)
  | _ => ""

def outputText (sent : List Sent) : String := String.join (sent.map Sent.text)

/-- The calls that stand before the first text. -/
def callsBefore : List Sent → List FunctionCall
  | [] => []
  | .functionCall c :: sent => c :: callsBefore sent
  | .message id parts :: sent =>
    if (Sent.message id parts).text = "" then callsBefore sent else []
  | .reasoning _ _ _ :: sent => callsBefore sent

/-- Behind a text the client gets texts only. -/
theorem run_behind (responseID : String) (sent : List Sent) {st : StreamState} {choices : List Choice} {v : View}
    (hs : Shown st choices v) (htext : st.outputText ≠ "") :
    let x := handleEvents responseID st (sent.flatMap Sent.events)
    Shown x.1 (choices ++ choicesOf x.2) v ∧
      x.1.outputText = st.outputText ++ outputText sent := by
  induction sent generalizing st choices with
  | nil =>
    simp only [List.flatMap_nil, handleEvents, outputText, List.map_nil, String.join_nil,
      String.append_empty, and_true]
    simpa [choicesOf] using hs
  | cons s sent ih =>
    rw [List.flatMap_cons, handleEvents_append]
    have hfirst : Shown (handleEvents responseID st s.events).1
        (choices ++ choicesOf (handleEvents responseID st s.events).2) v ∧
        (handleEvents responseID st s.events).1.outputText = st.outputText ++ s.text := by
      cases s with
      | functionCall c =>
        have hhidden := hidden_call responseID c htext hs.streamErr
        have hchoices : choicesOf (handleEvents responseID st (Sent.functionCall c).events).2 = [] := by
          rw [hhidden.chunks]
          rfl
        rw [hchoices, List.append_nil]
        refine ⟨⟨?_, ?_, ?_, hs.tools, hs.finish, ?_⟩, ?_⟩
        · exact hhidden.streamErr.trans hs.streamErr
        · exact hhidden.sentStop.trans hs.sentStop
        · exact hs.content.trans hhidden.outputText.symm
        · exact hhidden.saw.trans hs.saw
        · exact hhidden.outputText.trans String.append_empty.symm
      | message id parts =>
        have ha := append_message responseID id parts st hs.streamErr
        exact ⟨hs.appends ha, ha.outputText⟩
      | reasoning id summary content =>
        have ha := append_reasoningItem responseID id summary content st hs.streamErr
        exact ⟨hs.appends ha, ha.outputText⟩
    obtain ⟨hshown, houtput⟩ := hfirst
    have hne : (handleEvents responseID st s.events).1.outputText ≠ "" := by
      rw [houtput]
      intro hempty
      exact htext (String.append_eq_empty_iff.1 hempty).1
    obtain ⟨hrest, hresttext⟩ := ih hshown hne
    refine ⟨?_, ?_⟩
    · rw [Step.andThen, choicesOf_append, ← List.append_assoc]
      exact hrest
    · rw [Step.andThen, hresttext, houtput, outputText, outputText, List.map_cons,
        String.join_cons, String.append_assoc]

/-- The client gets the texts, and the calls before the first of them. -/
theorem run_items (responseID : String) (sent : List Sent) {st : StreamState} {choices : List Choice} {v : View}
    (hs : Shown st choices v) (hm : Maps st v) (htext : st.outputText = "") :
    let x := handleEvents responseID st (sent.flatMap Sent.events)
    Shown x.1 (choices ++ choicesOf x.2) ((callsBefore sent).foldl View.announce v) ∧
      x.1.outputText = outputText sent := by
  induction sent generalizing st choices v with
  | nil =>
    simp only [List.flatMap_nil, handleEvents, callsBefore, List.foldl_nil, htext]
    exact ⟨by simpa [choicesOf] using hs, rfl⟩
  | cons s sent ih =>
    rw [List.flatMap_cons, handleEvents_append]
    dsimp only
    rw [Step.andThen, choicesOf_append, ← List.append_assoc]
    have hjoin : outputText (s :: sent) = s.text ++ outputText sent := by
      rw [outputText, outputText, List.map_cons, String.join_cons]
    cases s with
    | functionCall c =>
      have hcall := reaches_call responseID c hs hm htext
      obtain ⟨hshown, houtput⟩ := ih hcall.shown hcall.maps hcall.silent
      refine ⟨hshown, houtput.trans ?_⟩
      rw [hjoin]
      exact String.empty_append.symm
    | message id parts =>
      have ha := append_message responseID id parts st hs.streamErr
      have hout := ha.outputText
      rw [htext, String.empty_append] at hout
      by_cases hempty : (Sent.message id parts).text = ""
      · obtain ⟨hshown, houtput⟩ := ih (hs.appends ha) (hm.appends ha) (hout.trans hempty)
        rw [callsBefore, if_pos hempty]
        refine ⟨hshown, houtput.trans ?_⟩
        rw [hjoin, hempty, String.empty_append]
      · have hne : (handleEvents responseID st (Sent.message id parts).events).1.outputText ≠ "" := by
          rw [hout]
          exact hempty
        obtain ⟨hshown, houtput⟩ := run_behind responseID sent (hs.appends ha) hne
        rw [callsBefore, if_neg hempty]
        refine ⟨hshown, houtput.trans ?_⟩
        rw [hjoin, hout]
        rfl
    | reasoning id summary content =>
      have ha := append_reasoningItem responseID id summary content st hs.streamErr
      have hout := ha.outputText
      rw [htext, String.empty_append] at hout
      obtain ⟨hshown, houtput⟩ := ih (hs.appends ha) (hm.appends ha) hout
      refine ⟨hshown, houtput.trans ?_⟩
      rw [hjoin]
      exact String.empty_append.symm

end CodeGo.Gateway.ResponsesToChat
