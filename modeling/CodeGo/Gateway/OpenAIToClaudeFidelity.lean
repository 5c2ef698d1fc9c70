import CodeGo.Gateway.OpenAIToClaudeRuns
import CodeGo.Lib.Lists
import Mathlib.Data.List.Chain

/-!
# What a converted chat request keeps

What each message adds to the converted ones, and what that comes to over all messages: their
roles, the calls they make, the results they give, and their texts.
-/

namespace CodeGo.Gateway.OpenAIToClaude

open Lib (Json)
open Lib.Lists

section Observations

variable {F : Type}

def blockText : Block F → Option String
  | .text s => some s
  | _ => none

def blockUse : Block F → Option (String × String × Json)
  | .toolUse id name input => some (id, name, input)
  | _ => none

def blockResult : Block F → Option String
  | .toolResult id _ => some id
  | _ => none

def blocks (messages : List (ClaudeMessage F)) : List (Block F) :=
  messages.flatMap fun m => contentBlocks m.content

def writtenTexts (messages : List (ClaudeMessage F)) : List String :=
  (blocks messages).filterMap blockText

def uses (messages : List (ClaudeMessage F)) : List (String × String × Json) :=
  (blocks messages).filterMap blockUse

def useIds (messages : List (ClaudeMessage F)) : List String := (uses messages).map (·.1)

def resultIds (m : ClaudeMessage F) : List String :=
  (contentBlocks m.content).filterMap blockResult

def roles (messages : List (ClaudeMessage F)) : List String := messages.map (·.role)

/-- The roles are those of the user and the assistant in turn. -/
def Alternates (roles : List String) : Prop :=
  (∀ r ∈ roles, r = "user" ∨ r = "assistant") ∧ roles.IsChain (· ≠ ·)

/-- A result refers to a use in an earlier message. -/
def ResultsLinked (messages : List (ClaudeMessage F)) : Prop :=
  ∀ before m after, messages = before ++ m :: after → ∀ id ∈ resultIds m, id ∈ useIds before

variable {l : List String} {r : String} {messages messages' : List (ClaudeMessage F)}
  {m : ClaudeMessage F}

theorem alternates_concat :
    Alternates (l ++ [r]) ↔
      Alternates l ∧ (r = "user" ∨ r = "assistant") ∧ l.getLast? ≠ some r := by
  unfold Alternates
  rw [List.isChain_append]
  simp only [List.mem_append, List.mem_singleton, List.head?_cons, Option.mem_some_iff]
  constructor
  · rintro ⟨hroles, hchain, -, hlast⟩
    refine ⟨⟨fun x hx => hroles x (.inl hx), hchain⟩, hroles r (.inr rfl), fun hl => ?_⟩
    exact hlast r hl r rfl rfl
  · rintro ⟨⟨hroles, hchain⟩, hr, hlast⟩
    refine ⟨?_, hchain, .singleton r, ?_⟩
    · rintro x (hx | rfl)
      · exact hroles x hx
      · exact hr
    · rintro x hx y rfl rfl
      exact hlast hx

@[simp] theorem uses_append : uses (messages ++ messages') = uses messages ++ uses messages' := by
  simp [uses, blocks]

@[simp] theorem writtenTexts_append :
    writtenTexts (messages ++ messages') = writtenTexts messages ++ writtenTexts messages' := by
  simp [writtenTexts, blocks]

theorem uses_singleton : uses [m] = (contentBlocks m.content).filterMap blockUse := by
  simp [uses, blocks]

theorem writtenTexts_singleton :
    writtenTexts [m] = (contentBlocks m.content).filterMap blockText := by
  simp [writtenTexts, blocks]

@[simp] theorem useIds_append :
    useIds (messages ++ messages') = useIds messages ++ useIds messages' := by
  simp [useIds]

@[simp] theorem roles_append : roles (messages ++ messages') = roles messages ++ roles messages' :=
  List.map_append

theorem resultsLinked_nil : ResultsLinked ([] : List (ClaudeMessage F)) := by
  intro before m after hsplit
  simp at hsplit

theorem resultsLinked_concat :
    ResultsLinked (messages ++ [m]) ↔
      ResultsLinked messages ∧ ∀ id ∈ resultIds m, id ∈ useIds messages :=
  @forall_split_concat _ (fun before m => ∀ id ∈ resultIds m, id ∈ useIds before) messages m

end Observations

section Steps

variable {F : Type} (convertFile : Json → Option (Option F)) (unmarshal : String → Option Json)

/-- What a call is used with, when its arguments can be read. -/
def callUse (c : ToolCall) : Option (String × String × Json) :=
  (convertCall unmarshal c : Option (Block Unit)).bind blockUse

def callUses (f : FormatMessage) : List (String × String × Json) :=
  (parseToolCalls f.toolCalls).filterMap (callUse unmarshal)

/-- The texts of a message whose role is one of those. -/
def textsOf (p : String → Bool) (role : String) (content : Json) : List String :=
  if p role then texts content else []

/-- The texts for the system. -/
def instructed : String → Json → List String := textsOf fun role => role == "system"

/-- The texts that go into a message of their own. -/
def said : String → Json → List String :=
  textsOf fun role => !(role == "system" || role == "tool")

/-- A role that may follow the last one. A result joins a message of the user or makes one. -/
def Turn (last : Option String) (r : String) : Prop :=
  r = "system" ∨ r = "tool" ∨ (r = "user" ∨ r = "assistant") ∧ last ≠ some r

def nextRole (last : Option String) (r : String) : Option String :=
  if r = "system" then last else if r = "tool" then some "user" else some r

/-- The user messages make no calls. -/
def UsersQuiet (messages : List (ClaudeMessage F)) : Prop :=
  ∀ m ∈ messages, m.role = "user" → uses [m] = []

/-- The first message is the one that is still missing. -/
structure Started (s : Progress F) : Prop where
  first : s.isFirstMessage = true ↔ s.claudeMessages = []
  users : UsersQuiet s.claudeMessages

/-- All that a message adds. -/
structure Step (s : Progress F) (f : FormatMessage) (s' : Progress F) : Prop where
  started : Started s'
  uses : uses s'.claudeMessages = uses s.claudeMessages ++ callUses unmarshal f
  system : s'.systemMessages = s.systemMessages ++ instructed f.role f.content
  texts : ∃ us, writtenTexts s'.claudeMessages = writtenTexts s.claudeMessages ++ us ∧
    Carried (said f.role f.content) us ∧ quotes us = quotes (said f.role f.content)
  alternates : Alternates (roles s'.claudeMessages) ↔
    Alternates (roles s.claudeMessages) ∧ Turn (roles s.claudeMessages).getLast? f.role
  last : (roles s'.claudeMessages).getLast? = nextRole (roles s.claudeMessages).getLast? f.role
  linked : ResultsLinked s'.claudeMessages ↔
    ResultsLinked s.claudeMessages ∧ (f.role = "tool" → f.toolCallId ∈ useIds s.claudeMessages)

variable {convertFile} {unmarshal} {s s' : Progress F} {f : FormatMessage}
  {content : ClaudeContent F}

theorem blockUse_convertCall (c : ToolCall) :
    (convertCall unmarshal c : Option (Block F)).bind blockUse = callUse unmarshal c := by
  unfold callUse convertCall
  split <;> rfl

theorem convertCall_quiet (c : ToolCall) :
    (convertCall unmarshal c : Option (Block F)).bind blockText = none ∧
      (convertCall unmarshal c : Option (Block F)).bind blockResult = none := by
  unfold convertCall
  split <;> exact ⟨rfl, rfl⟩

def partText : ContentPart → Option String
  | .text s => if s = "" then none else some s
  | .other _ => none

theorem texts_eq (content : Json) : texts content = (parseContent content).filterMap partText := by
  rw [texts]
  congr 1

theorem convertPart_ok {p : ContentPart} {bs : List (Block F)}
    (h : convertPart convertFile p = .ok bs) :
    bs.filterMap blockText = (partText p).toList ∧ bs.filterMap blockUse = [] ∧
      bs.filterMap blockResult = [] := by
  cases p with
  | text s =>
    obtain rfl := Except.ok.inj h
    show _ = (if s = "" then none else some s).toList ∧ _
    by_cases hs : s = ""
    · rw [if_pos hs, if_pos hs]
      exact ⟨rfl, rfl, rfl⟩
    · rw [if_neg hs, if_neg hs]
      exact ⟨rfl, rfl, rfl⟩
  | other item =>
    rw [convertPart] at h
    cases hfile : convertFile item with
    | none =>
      rw [hfile] at h
      cases h
    | some file =>
      rw [hfile] at h
      obtain rfl := Except.ok.inj h
      cases file <;> exact ⟨rfl, rfl, rfl⟩

/-- The blocks of the parts hold their texts. -/
theorem parts_ok {parts : List ContentPart} {bss : List (List (Block F))}
    (h : parts.mapM (convertPart convertFile) = .ok bss) :
    bss.flatten.filterMap blockText = parts.filterMap partText ∧
      bss.flatten.filterMap blockUse = [] ∧ bss.flatten.filterMap blockResult = [] := by
  rw [mapM_ok_iff] at h
  induction h with
  | nil => exact ⟨rfl, rfl, rfl⟩
  | @cons p bs parts bss hp _ ih =>
    obtain ⟨htext, huse, hresult⟩ := convertPart_ok hp
    simp only [List.flatten_cons, List.filterMap_append, htext, huse, hresult, ih,
      filterMap_cons_toList partText, List.nil_append, and_self]

theorem mediaBlocks_ok {bs : List (Block F)} (h : mediaBlocks convertFile unmarshal f = .ok bs) :
    bs.filterMap blockText = texts f.content ∧ bs.filterMap blockUse = callUses unmarshal f ∧
      bs.filterMap blockResult = [] := by
  unfold mediaBlocks at h
  cases hparts : (parseContent f.content).mapM (convertPart convertFile) with
  | error e =>
    rw [hparts] at h
    cases h
  | ok bss =>
    rw [hparts] at h
    obtain rfl := Except.ok.inj h
    obtain ⟨htext, huse, hresult⟩ := parts_ok hparts
    have hquiet : ∀ read : Block F → Option String,
        (∀ c, (convertCall unmarshal c : Option (Block F)).bind read = none) →
        ((parseToolCalls f.toolCalls).filterMap (convertCall unmarshal)).filterMap read = [] := by
      intro read hread
      rw [List.filterMap_filterMap, List.filterMap_eq_nil_iff]
      exact fun c _ => hread c
    simp only [List.filterMap_append, htext, huse, hresult,
      hquiet blockText fun c => (convertCall_quiet c).1,
      hquiet blockResult fun c => (convertCall_quiet c).2, List.append_nil, List.nil_append,
      texts_eq, List.filterMap_filterMap, blockUse_convertCall, callUses, and_self]

/-- A content of its own holds the texts and the calls, and no result. -/
theorem ownContent_ok (h : ownContent convertFile unmarshal f = .ok content) :
    (contentBlocks content).filterMap blockUse = callUses unmarshal f ∧
      (contentBlocks content).filterMap blockResult = [] ∧
      Carried (texts f.content) ((contentBlocks content).filterMap blockText) ∧
      quotes ((contentBlocks content).filterMap blockText) = quotes (texts f.content) := by
  have hmedia : (mediaBlocks convertFile unmarshal f).map .blocks = .ok content →
      (contentBlocks content).filterMap blockUse = callUses unmarshal f ∧
        (contentBlocks content).filterMap blockResult = [] ∧
        Carried (texts f.content) ((contentBlocks content).filterMap blockText) ∧
        quotes ((contentBlocks content).filterMap blockText) = quotes (texts f.content) := by
    intro h
    cases hblocks : mediaBlocks convertFile unmarshal f with
    | error e =>
      rw [hblocks] at h
      cases h
    | ok bs =>
      rw [hblocks] at h
      obtain rfl := Except.ok.inj h
      obtain ⟨htext, huse, hresult⟩ := mediaBlocks_ok hblocks
      refine ⟨huse, hresult, ?_⟩
      show Carried _ (bs.filterMap blockText) ∧ quotes (bs.filterMap blockText) = _
      rw [htext]
      exact ⟨carried_self _, rfl⟩
  unfold ownContent at h
  split at h
  next s hcontent hcalls =>
    -- an empty text is filled in
    obtain rfl := Except.ok.inj h
    rw [callUses, hcalls, hcontent, texts_str]
    refine ⟨rfl, rfl, ?_⟩
    show Carried _ [if s = "" then "..." else s] ∧ quotes [if s = "" then "..." else s] = _
    by_cases hs : s = ""
    · rw [if_pos hs, if_pos hs]
      exact ⟨carried_nil _, by decide⟩
    · rw [if_neg hs, if_neg hs]
      exact ⟨carried_self _, rfl⟩
  next => exact hmedia h

variable {messages : List (ClaudeMessage F)} {m : ClaudeMessage F}

theorem usersQuiet_concat :
    UsersQuiet (messages ++ [m]) ↔ UsersQuiet messages ∧ (m.role = "user" → uses [m] = []) := by
  simp only [UsersQuiet, List.forall_mem_append, List.forall_mem_singleton]

/-- A result adds no use and no text, and the last message is then one of the user. -/
structure ResultAdded (messages : List (ClaudeMessage F)) (f : FormatMessage)
    (messages' : List (ClaudeMessage F)) : Prop where
  users : UsersQuiet messages'
  ne_nil : messages' ≠ []
  uses : uses messages' = uses messages
  texts : writtenTexts messages' = writtenTexts messages
  alternates : Alternates (roles messages') ↔ Alternates (roles messages)
  last : (roles messages').getLast? = some "user"
  linked : ResultsLinked messages' ↔
    ResultsLinked messages ∧ f.toolCallId ∈ useIds messages

theorem resultAdded_concat (h : UsersQuiet messages)
    (hlast : (roles messages).getLast? ≠ some "user") :
    ResultAdded messages f (messages ++ [⟨"user", .blocks [toolResult f]⟩]) where
  users := usersQuiet_concat.2 ⟨h, fun _ => rfl⟩
  ne_nil := by simp
  uses := by rw [uses_append]; exact List.append_nil _
  texts := by rw [writtenTexts_append]; exact List.append_nil _
  alternates := by
    rw [roles_append]
    show Alternates (_ ++ ["user"]) ↔ _
    simp [alternates_concat, hlast]
  last := by rw [roles_append]; exact List.getLast?_concat
  linked := by
    rw [resultsLinked_concat]
    simp [resultIds, contentBlocks, toolResult, blockResult]

theorem resultAdded_join (h : UsersQuiet (messages ++ [m])) (hm : m.role = "user") :
    ResultAdded (messages ++ [m]) f
      (messages ++ [⟨"user", .blocks (contentBlocks m.content ++ [toolResult f])⟩]) := by
  obtain ⟨hmessages, huser⟩ := usersQuiet_concat.1 h
  have huse : (contentBlocks m.content).filterMap blockUse = [] := by
    rw [← uses_singleton]
    exact huser hm
  have hblocks : ∀ {β : Type} (read : Block F → Option β), read (toolResult f) = none →
      (contentBlocks m.content ++ [toolResult f]).filterMap read =
        (contentBlocks m.content).filterMap read := by
    intro β read hread
    rw [List.filterMap_append, List.filterMap_cons_none hread]
    exact List.append_nil _
  constructor
  · refine usersQuiet_concat.2 ⟨hmessages, fun _ => ?_⟩
    rw [uses_singleton]
    exact (hblocks blockUse rfl).trans huse
  · simp
  · rw [uses_append, uses_append, uses_singleton, uses_singleton]
    congr 1
    exact hblocks blockUse rfl
  · rw [writtenTexts_append, writtenTexts_append, writtenTexts_singleton, writtenTexts_singleton]
    congr 1
    exact hblocks blockText rfl
  · rw [roles_append, roles_append, roles, roles, roles, List.map_singleton, List.map_singleton, hm]
  · rw [roles_append]
    exact List.getLast?_concat
  · rw [resultsLinked_concat, resultsLinked_concat, useIds_append]
    have hids : useIds [m] = [] := by rw [useIds, huser hm]; rfl
    have hresults : resultIds (⟨"user", .blocks (contentBlocks m.content ++ [toolResult f])⟩ :
        ClaudeMessage F) = resultIds m ++ [f.toolCallId] := by
      simp [resultIds, contentBlocks, toolResult, blockResult]
    rw [hids, hresults, List.append_nil, List.forall_mem_append, List.forall_mem_singleton,
      and_assoc]

theorem addToolResult_spec (h : UsersQuiet messages) :
    ResultAdded messages f (addToolResult messages f) := by
  rcases List.eq_nil_or_concat messages with rfl | ⟨init, last, rfl⟩
  · exact resultAdded_concat h (by simp [roles])
  · rw [List.concat_eq_append] at h ⊢
    unfold addToolResult
    rw [List.getLast?_concat]
    by_cases hlast : last.role = "user"
    · simp only [if_pos hlast, List.dropLast_concat]
      exact resultAdded_join h hlast
    · simp only [if_neg hlast]
      refine resultAdded_concat h ?_
      rw [roles_append]
      exact fun heq => hlast (Option.some.inj (List.getLast?_concat.symm.trans heq))

/-- What stands before a message that does not belong to the system. -/
theorem begun_cases (h : Started s) (f : FormatMessage) :
    (begun s f = s.claudeMessages ∧ (f.role = "user" ∨ s.claudeMessages ≠ [])) ∨
      (begun s f = [placeholder] ∧ s.claudeMessages = [] ∧ f.role ≠ "user") := by
  unfold begun
  by_cases hbegin : s.isFirstMessage = true ∧ f.role ≠ "user"
  · right
    rw [if_pos hbegin, h.first.1 hbegin.1]
    exact ⟨rfl, rfl, hbegin.2⟩
  · left
    rw [if_neg hbegin]
    refine ⟨rfl, ?_⟩
    by_cases huser : f.role = "user"
    · exact .inl huser
    · exact .inr fun hnil => hbegin ⟨h.first.2 hnil, huser⟩

/-- The placeholder adds nothing that is counted. -/
structure Begun (s : Progress F) (messages : List (ClaudeMessage F)) : Prop where
  users : UsersQuiet messages
  uses : uses messages = uses s.claudeMessages
  texts : ∃ us, writtenTexts messages = writtenTexts s.claudeMessages ++ us ∧ quotes us = 0
  alternates : Alternates (roles messages) ↔ Alternates (roles s.claudeMessages)
  linked : ResultsLinked messages ↔ ResultsLinked s.claudeMessages

theorem begun_spec (h : Started s) : Begun s (begun s f) := by
  rcases begun_cases h f with ⟨hbegun, -⟩ | ⟨hbegun, hnil, -⟩
  · rw [hbegun]
    exact ⟨h.users, rfl, ⟨[], (List.append_nil _).symm, rfl⟩, Iff.rfl, Iff.rfl⟩
  · rw [hbegun]
    constructor
    · exact fun m hm _ => by rw [List.mem_singleton.1 hm]; rfl
    · rw [hnil]
      rfl
    · rw [hnil]
      exact ⟨["..."], rfl, by decide⟩
    · rw [hnil]
      exact iff_of_true ⟨by simp [roles, placeholder], .singleton _⟩ ⟨by simp [roles], .nil⟩
    · rw [hnil]
      have hplaceholder : ResultsLinked ([] ++ [placeholder] : List (ClaudeMessage F)) :=
        resultsLinked_concat.2 ⟨resultsLinked_nil, fun id hid => by cases hid⟩
      exact iff_of_true hplaceholder resultsLinked_nil

/-- A message of its own follows in turn. -/
theorem alternates_begun (h : Started s) (hsystem : f.role ≠ "system") (htool : f.role ≠ "tool") :
    Alternates (roles (begun s f) ++ [f.role]) ↔
      Alternates (roles s.claudeMessages) ∧ Turn (roles s.claudeMessages).getLast? f.role := by
  have hturn : ∀ last, Turn last f.role ↔
      (f.role = "user" ∨ f.role = "assistant") ∧ last ≠ some f.role := by
    intro last
    simp [Turn, hsystem, htool]
  rw [alternates_concat, hturn, (begun_spec h).alternates]
  rcases begun_cases h f with ⟨hbegun, -⟩ | ⟨hbegun, hnil, huser⟩
  · rw [hbegun]
  · rw [hbegun, hnil]
    simp [roles, placeholder, Ne.symm huser]

theorem callUses_of_none (h : f.toolCalls = none) : callUses unmarshal f = [] := by
  rw [callUses, h]
  rfl

theorem addMessage_spec (h : Started s) (hcalls : f.role ≠ "assistant" → f.toolCalls = none)
    (hok : addMessage convertFile unmarshal s f = .ok s') : Step unmarshal s f s' := by
  unfold addMessage at hok
  by_cases hsystem : f.role = "system"
  · rw [if_pos hsystem] at hok
    obtain rfl := Except.ok.inj hok
    have hnone : f.toolCalls = none := hcalls (by rw [hsystem]; decide)
    have hsaid : said f.role f.content = [] := by simp [said, textsOf, hsystem]
    exact {
      started := ⟨h.first, h.users⟩
      uses := by rw [callUses_of_none hnone, List.append_nil]
      system := by simp [instructed, textsOf, hsystem]
      texts := ⟨[], (List.append_nil _).symm, by rw [hsaid]; exact carried_nil _, by rw [hsaid]⟩
      alternates := (and_iff_left (.inl hsystem)).symm
      last := (if_pos hsystem).symm
      linked := (and_iff_left fun heq => absurd (hsystem.symm.trans heq) (by decide)).symm }
  rw [if_neg hsystem] at hok
  have hbegun := begun_spec (f := f) h
  obtain ⟨us, htexts, hquotes⟩ := hbegun.texts
  by_cases htool : f.role = "tool"
  · rw [if_pos htool] at hok
    obtain rfl := Except.ok.inj hok
    have hadded := addToolResult_spec (f := f) hbegun.users
    have hnone : f.toolCalls = none := hcalls (by rw [htool]; decide)
    have hsaid : said f.role f.content = [] := by simp [said, textsOf, htool]
    exact {
      started := ⟨by simpa using hadded.ne_nil, hadded.users⟩
      uses := by rw [callUses_of_none hnone, List.append_nil, hadded.uses, hbegun.uses]
      system := by simp [instructed, textsOf, hsystem]
      texts := by
        refine ⟨us, hadded.texts.trans htexts, ?_⟩
        rw [hsaid]
        exact ⟨carried_nil _, hquotes⟩
      alternates := by
        rw [hadded.alternates, hbegun.alternates]
        exact (and_iff_left (.inr (.inl htool))).symm
      last := by rw [hadded.last, nextRole, if_neg hsystem, if_pos htool]
      linked := by
        rw [hadded.linked, hbegun.linked, useIds, hbegun.uses]
        exact and_congr_right fun _ => ⟨fun hid _ => hid, fun hid => hid htool⟩ }
  · rw [if_neg htool] at hok
    cases hown : ownContent convertFile unmarshal f with
    | error e =>
      rw [hown] at hok
      cases hok
    | ok content =>
      rw [hown] at hok
      obtain rfl := Except.ok.inj hok
      obtain ⟨huses, hresults, hcarried, hcount⟩ := ownContent_ok hown
      have hsaid : said f.role f.content = texts f.content := by
        simp [said, textsOf, hsystem, htool]
      exact {
        started := by
          refine ⟨by simp, usersQuiet_concat.2 ⟨hbegun.users, fun huser => ?_⟩⟩
          have hnone : f.toolCalls = none := by
            refine hcalls ?_
            rw [show f.role = "user" from huser]
            decide
          rw [uses_singleton, huses, callUses_of_none hnone]
        uses := by rw [uses_append, uses_singleton, huses, hbegun.uses]
        system := by simp [instructed, textsOf, hsystem]
        texts := by
          refine ⟨us ++ (contentBlocks content).filterMap blockText, ?_, ?_, ?_⟩
          · rw [writtenTexts_append, writtenTexts_singleton, htexts, List.append_assoc]
          · rw [hsaid]
            exact (carried_nil us).append hcarried
          · rw [hsaid, quotes_append, hquotes, hcount, Nat.zero_add]
        alternates := by
          rw [roles_append]
          exact alternates_begun h hsystem htool
        last := by
          rw [roles_append, nextRole, if_neg hsystem, if_neg htool]
          exact List.getLast?_concat
        linked := by
          rw [resultsLinked_concat, hbegun.linked, resultIds, hresults]
          exact and_congr_right fun _ => iff_of_true nofun fun heq => absurd heq htool }

end Steps

end CodeGo.Gateway.OpenAIToClaude
