import CodeGo.Gateway.OpenAIToClaude

/-!
# Chat requests as Responses requests

`ChatCompletionsRequestToResponsesRequest` makes the instructions of a Responses request out of the
system messages of a chat, and its input out of the others. The calls of an assistant and the
outputs of its tools become items of their own. Other fields of the request are left out.
-/

namespace CodeGo.Gateway.ChatToResponses

open Lib (Json)
open Lib.Trim (isSpace trimList trimSpace)
open OpenAIToClaude (ContentPart Message lenientText parseContent)

structure GeneralOpenAIRequest where
  model : String
  n : Option Int := none
  messages : List Message := []

structure ToolCallRequest where
  id : String := ""
  type : String := ""
  name : String := ""
  arguments : String := ""
  deriving DecidableEq, Repr

def decodeCall : Json → ToolCallRequest
  | .obj members =>
    let function := match Json.field "function" members with
      | .obj function => function
      | _ => []
    ⟨lenientText "id" members, lenientText "type" members, lenientText "name" function,
      lenientText "arguments" function⟩
  | _ => {}

def parseToolCalls : Option Json → List ToolCallRequest
  | some (.arr items) => items.map decodeCall
  | _ => []

/-- A part of the content of an item. -/
inductive InputPart where
  | text (type text : String)
  | image (url detail : String)
  | audio (data format : String)
  | fileId (id : String)
  | file (filename fileData : String)
  | video (url : String)
  deriving DecidableEq, Repr

inductive ItemContent where
  | text (s : String)
  | parts (ps : List InputPart)
  deriving DecidableEq, Repr

inductive InputItem where
  | message (role : String) (content : ItemContent)
  | functionCall (callId name arguments : String)
  | functionCallOutput (callId output : String)
  deriving DecidableEq, Repr

/-- A member of an object that is a text. -/
def textMember (key : String) (members : List (String × Json)) : Option String :=
  match Json.get? key members with
  | some (.str s) => some s
  | _ => none

/-- The members of a member that is an object. -/
def objectMember (key : String) (members : List (String × Json)) : Option (List (String × Json)) :=
  match Json.get? key members with
  | some (.obj inner) => some inner
  | _ => none

def imagePart (members : List (String × Json)) : InputPart :=
  match Json.get? "image_url" members with
  | some (.str url) => .image url "high"
  | some (.obj image) =>
    .image ((textMember "url" image).getD "") ((textMember "detail" image).getD "high")
  | _ => .image "" "high"

def filePart (file : List (String × Json)) : Option InputPart :=
  match textMember "file_id" file with
  | some id => some (.fileId id)
  | none => do
    let filename ← textMember "filename" file
    let fileData ← textMember "file_data" file
    some (.file filename fileData)

/-- What becomes of a part that is no text. Parts of unknown types and parts that lack something
are left out. -/
def mediaPart : Json → Option InputPart
  | .obj members =>
    match textMember "type" members with
    | some "image_url" => some (imagePart members)
    | some "input_audio" => do
      let audio ← objectMember "input_audio" members
      let data ← textMember "data" audio
      let format ← textMember "format" audio
      some (.audio data format)
    | some "file" => (objectMember "file" members).bind filePart
    | some "video_url" => (textMember "video_url" members).map .video
    | _ => none
  | _ => none

def inputPart (role : String) : ContentPart → Option InputPart
  | .text s => some (.text (if role = "assistant" then "output_text" else "input_text") s)
  | .other item => mediaPart item

def appendAssistantToolCalls (inputItems : List InputItem) (role : String)
    (toolCalls : List ToolCallRequest) : List InputItem :=
  if role ≠ "assistant" then inputItems
  else toolCalls.foldl (fun items tc =>
    if trimSpace tc.id = "" then items
    else if tc.type ≠ "" ∧ tc.type ≠ "function" then items
    else
      let name := trimSpace tc.name
      if name = "" then items
      else items ++ [.functionCall tc.id name tc.arguments]) inputItems

def outputText : Json → String
  | .null => ""
  | .str s => s
  | content => Json.encode content

/-- The texts of a system message, each on a line of its own. -/
def joinTexts (parts : List ContentPart) : String :=
  parts.foldl (fun sb part => match part with
    | .text s =>
      if trimSpace s ≠ "" then (if sb ≠ "" then sb ++ "\n" else sb) ++ s else sb
    | .other _ => sb) ""

def appendNonEmpty (parts : List String) (s : String) : List String :=
  if s ≠ "" then parts ++ [s] else parts

structure Translation where
  instructionsParts : List String := []
  inputItems : List InputItem := []

def translateMessage (t : Translation) (msg : Message) : Translation :=
  let role := trimSpace msg.role
  if role = "" then t
  else if role = "tool" ∨ role = "function" then
    let callId := trimSpace msg.toolCallId
    let output := outputText msg.content
    if callId = "" then
      let note := "[tool_output_missing_call_id] " ++ output
      { t with inputItems := t.inputItems ++ [.message "user" (.text note)] }
    else { t with inputItems := t.inputItems ++ [.functionCallOutput callId output] }
  else if role = "system" ∨ role = "developer" then
    match msg.content with
    | .null => t
    | .str s => { t with instructionsParts := appendNonEmpty t.instructionsParts (trimSpace s) }
    | content =>
      let s := trimSpace (joinTexts (parseContent content))
      { t with instructionsParts := appendNonEmpty t.instructionsParts s }
  else
    let content := match msg.content with
      | .null => .text ""
      | .str s => .text s
      | content => .parts ((parseContent content).filterMap (inputPart role))
    let inputItems := t.inputItems ++ [.message role content]
    { t with inputItems := appendAssistantToolCalls inputItems role (parseToolCalls msg.toolCalls) }

structure OpenAIResponsesRequest where
  model : String
  input : List InputItem
  instructions : Option String

def chatCompletionsRequestToResponsesRequest (req : GeneralOpenAIRequest) :
    Except String OpenAIResponsesRequest :=
  if req.model = "" then .error "model is required"
  else if req.n.getD 1 > 1 then .error "n>1 is not supported in responses translation mode"
  else
    let t := req.messages.foldl translateMessage {}
    .ok ⟨req.model, t.inputItems,
      if t.instructionsParts.length > 0 then some ("\n\n".intercalate t.instructionsParts) else none⟩

/-- The texts of a content. -/
def texts (content : Json) : List String :=
  (parseContent content).filterMap fun p => match p with
    | .text s => if s = "" then none else some s
    | .other _ => none

/-- What an item says. -/
inductive Said where
  | message (role : String) (texts : List String)
  | call (id name arguments : String)
  | output (id text : String)
  deriving DecidableEq, Repr

def ItemContent.texts : ItemContent → List String
  | .text s => if s = "" then [] else [s]
  | .parts ps => ps.filterMap fun p => match p with
    | .text _ s => if s = "" then none else some s
    | _ => none

def InputItem.said : InputItem → Said
  | .message role content => .message role content.texts
  | .functionCall callId name arguments => .call callId name arguments
  | .functionCallOutput callId output => .output callId output

def isSystem (msg : Message) : Bool :=
  trimSpace msg.role = "system" || trimSpace msg.role = "developer"

/-- What a message of the chat comes to, under names for the calls and for the answers to them.
`carried` tells what a call is carried over as. -/
def rendered (carried : ToolCallRequest → Option Said) (answer : String → String) (msg : Message) :
    List Said :=
  let role := trimSpace msg.role
  if role = "" then []
  else if role = "tool" ∨ role = "function" then
    if trimSpace msg.toolCallId = "" then
      [.message "user" ["[tool_output_missing_call_id] " ++ outputText msg.content]]
    else [.output (answer msg.toolCallId) (outputText msg.content)]
  else if isSystem msg then []
  else .message role (texts msg.content) ::
    if role = "assistant" then (parseToolCalls msg.toolCalls).filterMap carried else []

/-- Every call, as it stands. -/
def everyCall (name : String → String) (tc : ToolCallRequest) : Option Said :=
  some (.call (name tc.id) tc.name tc.arguments)

/-- A call of a function that has an id and a name. -/
def functionCallOf (name : String → String) (tc : ToolCallRequest) : Option Said :=
  if trimSpace tc.id ≠ "" ∧ (tc.type = "" ∨ tc.type = "function") ∧ trimSpace tc.name ≠ "" then
    some (.call (name tc.id) (trimSpace tc.name) tc.arguments)
  else none

/-- The texts of the system messages. -/
def systemTexts (messages : List Message) : List String :=
  (messages.filter isSystem).flatMap fun msg => texts msg.content

/-- The text without its white space. -/
def squash (s : String) : List Char := s.toList.filter fun c => !isSpace c

/-- The instructions hold the system texts, each once. -/
structure Instructed (messages : List Message) (instructions : String) : Prop where
  appears : ∀ s ∈ systemTexts messages, (trimSpace s).toList <:+: instructions.toList
  once : squash instructions = (systemTexts messages).flatMap squash

section Items

variable {msg : Message} {role : String}

theorem appendAssistantToolCalls_eq (items : List InputItem) (role : String)
    (calls : List ToolCallRequest) :
    (appendAssistantToolCalls items role calls).map InputItem.said = items.map InputItem.said ++
      if role = "assistant" then calls.filterMap (functionCallOf id) else [] := by
  rw [appendAssistantToolCalls]
  by_cases hrole : role = "assistant"
  · rw [if_neg (not_not.2 hrole), if_pos hrole]
    induction calls using List.reverseRecOn with
    | nil => simp
    | append_singleton calls tc ih =>
      rw [List.foldl_append, List.foldl_cons, List.foldl_nil, List.filterMap_append,
        ← List.append_assoc, ← ih, List.filterMap_cons, List.filterMap_nil, functionCallOf]
      by_cases hid : trimSpace tc.id = ""
      · rw [if_pos hid, if_neg (fun h => h.1 hid)]
        exact (List.append_nil _).symm
      · rw [if_neg hid]
        by_cases htype : tc.type ≠ "" ∧ tc.type ≠ "function"
        · rw [if_pos htype, if_neg]
          · exact (List.append_nil _).symm
          · rintro ⟨-, hor, -⟩
            exact hor.elim htype.1 htype.2
        · rw [if_neg htype]
          by_cases hname : trimSpace tc.name = ""
          · dsimp only
            rw [if_pos hname, if_neg (fun h => h.2.2 hname)]
            exact (List.append_nil _).symm
          · have hor : tc.type = "" ∨ tc.type = "function" := by
              rw [not_and_or, not_not, not_not] at htype
              exact htype
            dsimp only
            rw [if_neg hname, if_pos ⟨hid, hor, hname⟩, List.map_append]
            rfl
  · rw [if_pos hrole, if_neg hrole, List.append_nil]

theorem mediaPart_not_text {item : Json} {type s : String} : mediaPart item ≠ some (.text type s) := by
  intro h
  unfold mediaPart at h
  split at h
  · split at h
    · next members _ _ =>
      rw [imagePart] at h
      split at h <;> cases h
    · next members _ _ =>
      rw [Option.bind_eq_bind, Option.bind_eq_some_iff] at h
      obtain ⟨_, _, h⟩ := h
      rw [Option.bind_eq_bind, Option.bind_eq_some_iff] at h
      obtain ⟨_, _, h⟩ := h
      rw [Option.bind_eq_some_iff] at h
      obtain ⟨_, _, h⟩ := h
      cases h
    · rw [Option.bind_eq_some_iff] at h
      obtain ⟨file, -, h⟩ := h
      rw [filePart] at h
      split at h
      · cases h
      · rw [Option.bind_eq_bind, Option.bind_eq_some_iff] at h
        obtain ⟨_, _, h⟩ := h
        rw [Option.bind_eq_some_iff] at h
        obtain ⟨_, _, h⟩ := h
        cases h
    · rw [Option.map_eq_some_iff] at h
      obtain ⟨_, _, h⟩ := h
      cases h
    · cases h
  · cases h

/-- The parts of an item have the texts of the content. -/
theorem texts_parts (role : String) (parts : List ContentPart) :
    (ItemContent.parts (parts.filterMap (inputPart role))).texts =
      parts.filterMap fun p => match p with
        | .text s => if s = "" then none else some s
        | .other _ => none := by
  rw [ItemContent.texts, List.filterMap_filterMap]
  apply List.filterMap_congr
  intro part _
  cases part with
  | text s => rfl
  | other item =>
    show (mediaPart item).bind _ = none
    cases hmedia : mediaPart item with
    | none => rfl
    | some p =>
      cases p with
      | text type s => exact absurd hmedia mediaPart_not_text
      | image url detail => rfl
      | audio data format => rfl
      | fileId id => rfl
      | file filename fileData => rfl
      | video url => rfl

/-- What a message adds to the input and to the instructions. -/
theorem translateMessage_eq (t : Translation) (msg : Message) :
    (translateMessage t msg).inputItems.map InputItem.said =
      t.inputItems.map InputItem.said ++ rendered (functionCallOf id) trimSpace msg ∧
    (translateMessage t msg).instructionsParts =
      t.instructionsParts ++ (translateMessage {} msg).instructionsParts := by
  have hparts (parts : List String) (s : String) :
      appendNonEmpty parts s = parts ++ appendNonEmpty [] s := by
    rw [appendNonEmpty, appendNonEmpty]
    split <;> simp
  rw [translateMessage, translateMessage, rendered]
  dsimp only
  by_cases hrole : trimSpace msg.role = ""
  · rw [if_pos hrole, if_pos hrole, if_pos hrole]
    simp
  · rw [if_neg hrole, if_neg hrole, if_neg hrole]
    by_cases htool : trimSpace msg.role = "tool" ∨ trimSpace msg.role = "function"
    · rw [if_pos htool, if_pos htool, if_pos htool]
      by_cases hid : trimSpace msg.toolCallId = ""
      · rw [if_pos hid, if_pos hid, if_pos hid]
        refine ⟨?_, by simp⟩
        rw [List.map_append]
        have hnote : "[tool_output_missing_call_id] " ++ outputText msg.content ≠ "" := by
          intro h
          exact absurd (String.append_eq_empty_iff.1 h).1 (by decide)
        show _ ++ [Said.message "user" (ItemContent.texts (.text _))] = _
        rw [ItemContent.texts, if_neg hnote]
      · rw [if_neg hid, if_neg hid, if_neg hid]
        refine ⟨?_, by simp⟩
        rw [List.map_append]
        rfl
    · rw [if_neg htool, if_neg htool, if_neg htool]
      by_cases hsystem : trimSpace msg.role = "system" ∨ trimSpace msg.role = "developer"
      · rw [if_pos hsystem, if_pos hsystem, if_pos (by simpa [isSystem] using hsystem)]
        cases msg.content <;> simp [hparts t.instructionsParts]
      · rw [if_neg hsystem, if_neg hsystem, if_neg (by simpa [isSystem] using hsystem)]
        refine ⟨?_, by simp⟩
        rw [appendAssistantToolCalls_eq, List.map_append, List.append_assoc]
        congr 1
        show Said.message _ _ :: _ = _
        congr 2
        cases msg.content with
        | null => rfl
        | str s =>
          show (if s = "" then [] else [s]) = [ContentPart.text s].filterMap _
          rw [List.filterMap_cons, List.filterMap_nil]
          dsimp only
          by_cases hs : s = ""
          · rw [if_pos hs, if_pos hs]
          · rw [if_neg hs, if_neg hs]
        | arr items => exact texts_parts _ _
        | bool b => rfl
        | num n => rfl
        | obj members => rfl

end Items

section Instructions

variable {s t : String}

theorem toList_trimSpace (s : String) : (trimSpace s).toList = trimList isSpace s.toList := by
  rw [trimSpace, String.toList_ofList]

theorem squash_trimSpace (s : String) : squash (trimSpace s) = squash s := by
  rw [squash, toList_trimSpace, Lib.Trim.filter_trimList, squash]

theorem squash_append (s t : String) : squash (s ++ t) = squash s ++ squash t := by
  rw [squash, String.toList_append, List.filter_append, squash, squash]

theorem squash_of_blank (h : trimSpace s = "") : squash s = [] := by
  rw [← squash_trimSpace, h]
  rfl

theorem trimSpace_infix (h : s.toList <:+: t.toList) :
    (trimSpace s).toList <:+: (trimSpace t).toList := by
  rw [toList_trimSpace, toList_trimSpace]
  exact Lib.Trim.infix_trimList h

/-- Texts joined by white space, apart from the white space. -/
theorem squash_intercalate {sep : String} (hsep : squash sep = []) (parts : List String) :
    squash (sep.intercalate parts) = parts.flatMap squash := by
  induction parts with
  | nil => rfl
  | cons first parts ih =>
    cases parts with
    | nil => simp
    | cons second parts =>
      show _ = squash first ++ (second :: parts).flatMap squash
      rw [String.intercalate_cons_cons, squash_append, squash_append, hsep, ih, List.append_nil]

theorem infix_intercalate {sep : String} {parts : List String} (h : s ∈ parts) :
    s.toList <:+: (sep.intercalate parts).toList := by
  induction parts with
  | nil => cases h
  | cons first parts ih =>
    cases parts with
    | nil =>
      obtain rfl := List.mem_singleton.1 h
      have hsingle : sep.intercalate [s] = s := String.intercalate_singleton
      exact hsingle.symm ▸ List.infix_refl s.toList
    | cons second parts =>
      rw [String.intercalate_cons_cons, String.toList_append, String.toList_append]
      rcases List.mem_cons.1 h with rfl | h
      · rw [List.append_assoc]
        exact (List.prefix_append _ _).isInfix
      · exact (ih h).trans (List.suffix_append _ _).isInfix

/-- The texts of the parts that are none of them empty. -/
def partTexts (parts : List ContentPart) : List String :=
  parts.filterMap fun p => match p with
    | .text s => if s = "" then none else some s
    | .other _ => none

/-- The joined texts hold each text that is not blank, once. -/
theorem joinTexts_spec (parts : List ContentPart) :
    squash (joinTexts parts) = (partTexts parts).flatMap squash ∧
      ∀ s ∈ partTexts parts, trimSpace s ≠ "" → s.toList <:+: (joinTexts parts).toList := by
  induction parts using List.reverseRecOn with
  | nil => exact ⟨rfl, by simp [partTexts]⟩
  | append_singleton parts part ih =>
    obtain ⟨honce, happears⟩ := ih
    rw [partTexts, List.filterMap_append, ← partTexts, joinTexts, List.foldl_append, List.foldl_cons,
      List.foldl_nil, ← joinTexts, List.flatMap_append, List.filterMap_cons, List.filterMap_nil,
      ← honce]
    cases part with
    | other item => exact ⟨by simp, fun s hs => happears s (by simpa using hs)⟩
    | text s =>
      dsimp only
      by_cases hblank : trimSpace s = ""
      · have hsquash := squash_of_blank hblank
        rw [if_neg (not_not.2 hblank)]
        refine ⟨?_, ?_⟩
        · split <;> simp_all
        · intro s' hs' hne
          apply happears s' _ hne
          rcases List.mem_append.1 hs' with hs' | hs'
          · exact hs'
          · exfalso
            split at hs'
            · cases hs'
            · next heq =>
              split at heq
              · cases heq
              · rw [List.mem_singleton] at hs'
                rw [hs', ← Option.some.inj heq] at hne
                exact hne hblank
      · have hne : s ≠ "" := by
          rintro rfl
          exact hblank (by decide +kernel)
        rw [if_pos hblank, if_neg hne]
        have hfront : squash (if joinTexts parts ≠ "" then joinTexts parts ++ "\n" else joinTexts parts) =
            squash (joinTexts parts) ∧ (joinTexts parts).toList <:+:
              (if joinTexts parts ≠ "" then joinTexts parts ++ "\n" else joinTexts parts).toList := by
          split
          · rw [squash_append, String.toList_append]
            exact ⟨List.append_nil _, (List.prefix_append _ _).isInfix⟩
          · exact ⟨rfl, List.infix_refl _⟩
        refine ⟨?_, ?_⟩
        · rw [squash_append, hfront.1]
          simp
        · intro s' hs' hne'
          rw [String.toList_append]
          rcases List.mem_append.1 hs' with hs' | hs'
          · exact ((happears s' hs' hne').trans hfront.2).trans (List.prefix_append _ _).isInfix
          · rw [List.mem_singleton] at hs'
            rw [hs']
            exact (List.suffix_append _ _).isInfix

end Instructions

/-- What a message adds to the instructions. -/
def instructionsOf (msg : Message) : List String := (translateMessage {} msg).instructionsParts

/-- A system message adds its texts, another message none. -/
theorem instructionsOf_spec (msg : Message) :
    (instructionsOf msg).flatMap squash =
        (if isSystem msg then texts msg.content else []).flatMap squash ∧
      ∀ s ∈ (if isSystem msg then texts msg.content else []), trimSpace s ≠ "" →
        ∃ part ∈ instructionsOf msg, (trimSpace s).toList <:+: part.toList := by
  have hsystem : isSystem msg = true ↔
      trimSpace msg.role = "system" ∨ trimSpace msg.role = "developer" := by
    simp [isSystem]
  rw [instructionsOf, translateMessage]
  dsimp only
  by_cases hsys : isSystem msg = true
  · have hrole := hsystem.1 hsys
    have hne : trimSpace msg.role ≠ "" := by
      rintro h
      rw [h] at hrole
      exact absurd hrole (by decide)
    have htool : ¬ (trimSpace msg.role = "tool" ∨ trimSpace msg.role = "function") := by
      rintro (h | h)
      · rw [h] at hrole
        exact absurd hrole (by decide)
      · rw [h] at hrole
        exact absurd hrole (by decide)
    rw [if_neg hne, if_neg htool, if_pos hrole, if_pos hsys]
    -- a part is added where something is left of the joined texts
    have hadd (joined : String) (ts : List String) (honce : squash joined = ts.flatMap squash)
        (happears : ∀ s ∈ ts, trimSpace s ≠ "" → s.toList <:+: joined.toList) :
        (appendNonEmpty [] (trimSpace joined)).flatMap squash = ts.flatMap squash ∧
          ∀ s ∈ ts, trimSpace s ≠ "" →
            ∃ part ∈ appendNonEmpty [] (trimSpace joined), (trimSpace s).toList <:+: part.toList := by
      rw [appendNonEmpty]
      by_cases hblank : trimSpace joined = ""
      · rw [if_neg (not_not.2 hblank), ← honce, squash_of_blank hblank]
        refine ⟨rfl, ?_⟩
        intro s hs hsne
        have hinfix := trimSpace_infix (happears s hs hsne)
        rw [hblank] at hinfix
        exact absurd (String.toList_eq_nil_iff.1 (List.infix_nil.1 hinfix)) hsne
      · rw [if_pos hblank, ← honce]
        refine ⟨?_, ?_⟩
        · simp [squash_trimSpace]
        · intro s hs hsne
          exact ⟨trimSpace joined, by simp, trimSpace_infix (happears s hs hsne)⟩
    have hparts : ∀ content, squash (joinTexts (parseContent content)) =
        (texts content).flatMap squash ∧ ∀ s ∈ texts content, trimSpace s ≠ "" →
          s.toList <:+: (joinTexts (parseContent content)).toList :=
      fun content => joinTexts_spec (parseContent content)
    cases hcontent : msg.content with
    | null => exact ⟨rfl, fun s hs => by cases hs⟩
    | str s =>
      have htexts : texts (.str s) = if s = "" then [] else [s] := by
        show [ContentPart.text s].filterMap _ = _
        rw [List.filterMap_cons, List.filterMap_nil]
        dsimp only
        by_cases hs : s = ""
        · rw [if_pos hs, if_pos hs]
        · rw [if_neg hs, if_neg hs]
      apply hadd s
      · rw [htexts]
        by_cases hs : s = ""
        · rw [if_pos hs, hs]
          rfl
        · rw [if_neg hs]
          simp
      · intro s' hs' _
        rw [htexts] at hs'
        split at hs'
        · cases hs'
        · obtain rfl := List.mem_singleton.1 hs'
          exact List.infix_refl _
    | arr items => exact hadd _ _ (hparts _).1 (hparts _).2
    | bool b => exact hadd _ _ (hparts _).1 (hparts _).2
    | num n => exact hadd _ _ (hparts _).1 (hparts _).2
    | obj members => exact hadd _ _ (hparts _).1 (hparts _).2
  · have hrole : ¬ (trimSpace msg.role = "system" ∨ trimSpace msg.role = "developer") :=
      fun h => hsys (hsystem.2 h)
    rw [if_neg hrole, if_neg hsys]
    refine ⟨?_, fun s hs => by cases hs⟩
    split
    · rfl
    · split
      · split <;> rfl
      · rfl

/-- The run of the loop over the messages. -/
theorem translate_eq (messages : List Message) :
    (messages.foldl translateMessage {}).inputItems.map InputItem.said =
        messages.flatMap (rendered (functionCallOf id) trimSpace) ∧
      (messages.foldl translateMessage {}).instructionsParts = messages.flatMap instructionsOf := by
  induction messages using List.reverseRecOn with
  | nil => exact ⟨rfl, rfl⟩
  | append_singleton messages msg ih =>
    obtain ⟨hitems, hparts⟩ := translateMessage_eq (messages.foldl translateMessage {}) msg
    rw [List.foldl_append, List.foldl_cons, List.foldl_nil, hitems, hparts, ih.1, ih.2,
      List.flatMap_append, List.flatMap_append]
    simp [instructionsOf]

theorem instructed (messages : List Message) :
    Instructed messages ("\n\n".intercalate (messages.flatMap instructionsOf)) := by
  have htexts : systemTexts messages =
      messages.flatMap fun msg => if isSystem msg then texts msg.content else [] := by
    rw [systemTexts]
    induction messages with
    | nil => rfl
    | cons msg messages ih =>
      rw [List.filter_cons, List.flatMap_cons, ← ih]
      split <;> rfl
  constructor
  · intro s hs
    by_cases hblank : trimSpace s = ""
    · rw [hblank]
      exact List.nil_infix
    · rw [htexts] at hs
      obtain ⟨msg, hmsg, hs⟩ := List.mem_flatMap.1 hs
      obtain ⟨part, hpart, hinfix⟩ := (instructionsOf_spec msg).2 s hs hblank
      exact hinfix.trans (infix_intercalate (List.mem_flatMap.2 ⟨msg, hmsg, hpart⟩))
  · rw [squash_intercalate (by decide), htexts, List.flatMap_assoc, List.flatMap_assoc]
    apply List.flatMap_congr
    intro msg _
    exact (instructionsOf_spec msg).1

/-- An assistant that makes a call without an id. -/
def anonymousCall : GeneralOpenAIRequest :=
  { model := "m", messages := [{ role := "assistant", toolCalls := some (.arr
      [.obj [("function", .obj [("name", .str "f"), ("arguments", .str "\x7b\x7d")])]]) }] }

end CodeGo.Gateway.ChatToResponses
