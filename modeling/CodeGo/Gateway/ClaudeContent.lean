import CodeGo.Gateway.ClaudeConversion
import CodeGo.Lib.Lists

/-!
# What a converted conversation still holds

The texts, images, calls and results of the messages, in the order in which a conversion that
loses nothing writes them, against those of the messages it writes.
-/

namespace CodeGo.Gateway.ClaudeConversion

open Lib (Json)
open Lib.Lists OpenAIMessages

section Items

/-- What a message of the request holds. An image may lack what it would be shown by. -/
inductive Item where
  | text (s : String)
  | image (url : Option String)
  | call (id name : String) (input : Json)
  | result (id : String) (content : Json)

/-- What a message of the chat holds. -/
inductive Part where
  | text (s : String)
  | image (url : String)
  | call (id name arguments : String)
  | result (id content : String)
  deriving DecidableEq

/-- The text encodes the value. -/
def Encodes (v : Json) (text : String) : Prop := ∃ j : Json, text = j.encode ∧ j.Same v

/-- A text is shown as it is, and anything else encoded. -/
def Shows : Json → String → Prop
  | .str s, text => text = s
  | content, text => Encodes content text

def Represents : Item → Part → Prop
  | .text s, .text t => s = t
  | .image url, .image url' => url = some url'
  | .call id name input, .call id' name' arguments =>
    id = id' ∧ name = name' ∧ Encodes input arguments
  | .result id content, .result id' text => id = id' ∧ Shows content text
  | _, _ => False

def sourceImage : Option ClaudeMessageSource → Option String
  | none => none
  | some source =>
    if source.url ≠ "" then some source.url
    else match source.data with
    | .str s => some ("data:" ++ source.mediaType ++ ";base64," ++ s)
    | _ => none

def mediaItem (b : ClaudeMediaMessage) : Option Item :=
  if isText b then some (.text (b.text.getD ""))
  else if b.type = "image" then some (.image (sourceImage b.source))
  else none

def callItem (b : ClaudeMediaMessage) : Option Item :=
  if b.type = "tool_use" then some (.call b.id b.name b.input) else none

def resultItem (b : ClaudeMediaMessage) : Option Item :=
  if b.type = "tool_result" then some (.result b.toolUseId b.content) else none

def blockItems (blocks : List ClaudeMediaMessage) : List Item :=
  blocks.filterMap resultItem ++ (blocks.filterMap mediaItem ++ blocks.filterMap callItem)

def items (m : ClaudeMessage) : List Item :=
  match m.content with
  | .str s => [.text s]
  | content => blockItems ((decodeBlocks content).getD [])

def mediaPart (m : MediaContent) : Option Part :=
  if m.type = "text" then some (.text m.text)
  else m.imageUrl.map fun image => .image image.url

def callPart (c : ToolCallRequest) : Part := .call c.id c.function.name c.function.arguments

def contentText : MessageContent → String
  | .text s => s
  | _ => ""

def parts (m : Message) : List Part :=
  if m.role = "tool" then [.result m.toolCallId (contentText m.content)]
  else m.parseContent.filterMap mediaPart ++ m.toolCalls.map callPart

variable (formatOther : Json → String)

/-- An image with a source, which has text for its data and no URL, or whose URL is the data. -/
def ImageKept (b : ClaudeMediaMessage) : Prop :=
  ∃ source, b.source = some source ∧
    (source.url = "" ∧ (∃ s, source.data = .str s) ∨
      source.url ≠ "" ∧ source.url = imageUrl formatOther source)

/-- The messages whose content comes through. -/
structure BlocksKept (role : String) (blocks : List ClaudeMediaMessage) : Prop where
  unmixed : blocks.filterMap mediaItem = [] ∨ blocks.filterMap callItem = []
  images : ∀ b ∈ blocks, b.type = "image" → ImageKept formatOther b
  results : ∀ b ∈ blocks, b.type = "tool_result" → Shows b.content (resultContent b.content)
  role : role = "tool" → blocks.filterMap mediaItem = [] ∧ blocks.filterMap callItem = []

def Kept (m : ClaudeMessage) : Prop :=
  match m.content with
  | .str _ => m.role ≠ "tool"
  | content => ∃ blocks, decodeBlocks content = some blocks ∧ BlocksKept formatOther m.role blocks

/-- Every text, image, call and result of the messages is there once, in their order. -/
def Faithful (request : ClaudeRequest) (info : RelayInfo)
    (result : Except Failure GeneralOpenAIRequest) : Prop :=
  ∃ r rest, result = .ok r ∧ r.messages = systemMessages request info ++ rest ∧
    List.Forall₂ Represents (request.messages.flatMap items) (rest.flatMap parts)

end Items

section Blocks

variable (formatOther : Json → String)

def mediaOf (b : ClaudeMediaMessage) : Option MediaContent :=
  if isText b then some (textPart b)
  else if b.type = "image" then b.source.map (imagePart formatOther)
  else none

def callOf (b : ClaudeMediaMessage) : Option ToolCallRequest :=
  if b.type = "tool_use" then some (toolUseCall b) else none

def resultOf (request : ClaudeRequest) (b : ClaudeMediaMessage) : Option Message :=
  if b.type = "tool_result" then some (toolResultMessage request b) else none

/-- The sources the code does not check. -/
def HasSource (b : ClaudeMediaMessage) : Prop := b.type = "image" → b.source.isSome

variable {request : ClaudeRequest} {blocks : List ClaudeMediaMessage} {s : Progress}
  {b : ClaudeMediaMessage}

theorem addBlock_of_hasSource (h : HasSource b) :
    addBlock formatOther request s b =
      some ⟨s.mediaMessages ++ (mediaOf formatOther b).toList, s.toolCalls ++ (callOf b).toList,
        s.messages ++ (resultOf request b).toList⟩ := by
  unfold addBlock mediaOf callOf resultOf
  by_cases htext : isText b
  · rw [if_pos htext, if_pos htext]
    rcases htext with htype | htype <;> simp [htype]
  · rw [if_neg htext, if_neg htext]
    by_cases himage : b.type = "image"
    · obtain ⟨source, hsource⟩ := Option.isSome_iff_exists.1 (h himage)
      simp [himage, hsource]
    · by_cases huse : b.type = "tool_use"
      · simp [huse]
      · by_cases hresult : b.type = "tool_result"
        · simp [hresult]
        · simp [himage, huse, hresult]

theorem addBlock_of_not_hasSource (h : ¬ HasSource b) : addBlock formatOther request s b = none := by
  unfold HasSource at h
  push Not at h
  obtain ⟨himage, hsource⟩ := h
  have hnone : b.source = none := by simpa using hsource
  simp [addBlock, isText, himage, hnone]

/-- The blocks of a message, collected by kind. -/
theorem foldlM_addBlock (h : ∀ b ∈ blocks, HasSource b) :
    blocks.foldlM (addBlock formatOther request) s =
      some ⟨s.mediaMessages ++ blocks.filterMap (mediaOf formatOther),
        s.toolCalls ++ blocks.filterMap callOf, s.messages ++ blocks.filterMap (resultOf request)⟩ := by
  induction blocks generalizing s with
  | nil => simp
  | cons b blocks ih =>
    obtain ⟨hb, hblocks⟩ := List.forall_mem_cons.1 h
    rw [List.foldlM_cons, addBlock_of_hasSource formatOther hb]
    show blocks.foldlM (addBlock formatOther request) _ = _
    rw [ih hblocks, filterMap_cons_toList, filterMap_cons_toList, filterMap_cons_toList]
    simp only [List.append_assoc]

theorem foldlM_addBlock_none (h : ¬ ∀ b ∈ blocks, HasSource b) :
    blocks.foldlM (addBlock formatOther request) s = none := by
  induction blocks generalizing s with
  | nil => exact absurd (List.forall_mem_nil _) h
  | cons b blocks ih =>
    rw [List.foldlM_cons]
    by_cases hb : HasSource b
    · rw [addBlock_of_hasSource formatOther hb]
      exact ih fun hblocks => h (List.forall_mem_cons.2 ⟨hb, hblocks⟩)
    · rw [addBlock_of_not_hasSource formatOther hb]
      rfl

end Blocks

section Groups

variable (formatOther : Json → String)

variable {request : ClaudeRequest} {blocks : List ClaudeMediaMessage} {s : Progress}
  {role : String} {b : ClaudeMediaMessage}

/-- What a message of its own holds. -/
theorem parts_own :
    (sent (ownMessage role s)).flatMap parts =
      if s.toolCalls = [] ∧ s.mediaMessages = [] then []
      else if role = "tool" then [.result "" ""]
      else if s.toolCalls ≠ [] then s.toolCalls.map callPart
      else s.mediaMessages.filterMap mediaPart := by
  unfold sent ownMessage
  by_cases hcalls : s.toolCalls = []
  · by_cases hmedia : s.mediaMessages = []
    · simp [hcalls, hmedia, Message.hasContent, Message.parseContent]
    · simp [hcalls, hmedia, Message.hasContent, Message.parseContent, parts, contentText]
  · simp [hcalls, Message.hasContent, Message.parseContent, parts, contentText]

def resultPart (b : ClaudeMediaMessage) : Option Part :=
  if b.type = "tool_result" then some (.result b.toolUseId (resultContent b.content)) else none

theorem parts_results :
    (blocks.filterMap (resultOf request)).flatMap parts = blocks.filterMap resultPart := by
  induction blocks with
  | nil => rfl
  | cons b blocks ih =>
    rw [filterMap_cons_toList, filterMap_cons_toList, List.flatMap_append, ih]
    congr 1
    unfold resultOf resultPart
    split <;> simp [parts, toolResultMessage, contentText]

theorem results_iff :
    (blocks.filterMap resultPart).length = (blocks.filterMap resultItem).length ∧
      (List.Forall₂ Represents (blocks.filterMap resultItem) (blocks.filterMap resultPart) ↔
        ∀ b ∈ blocks, b.type = "tool_result" → Shows b.content (resultContent b.content)) := by
  have hsome : ∀ b ∈ blocks, (resultItem b).isSome = (resultPart b).isSome := by
    intro b _
    unfold resultItem resultPart
    split <;> rfl
  obtain ⟨hlength, hiff⟩ := @forall₂_filterMap _ _ _ Represents _ _ _ hsome
  refine ⟨hlength, hiff.trans (forall₂_congr fun b _ => ?_)⟩
  unfold resultItem resultPart
  by_cases hresult : b.type = "tool_result"
  · simp [hresult, Represents]
  · simp [hresult]

theorem calls_represented :
    List.Forall₂ Represents (blocks.filterMap callItem) ((blocks.filterMap callOf).map callPart) := by
  rw [List.map_filterMap]
  have hsome : ∀ b ∈ blocks, (callItem b).isSome = ((callOf b).map callPart).isSome := by
    intro b _
    unfold callItem callOf
    split <;> rfl
  rw [(forall₂_filterMap hsome).2]
  intro b _ x hx y hy
  unfold callItem at hx
  unfold callOf at hy
  split at hx
  next huse =>
    rw [if_pos huse] at hy
    cases hx
    cases hy
    exact ⟨rfl, rfl, _, rfl, rfl⟩
  next => cases hx

theorem sourceImage_eq_iff (source : ClaudeMessageSource) :
    sourceImage (some source) = some (imageUrl formatOther source) ↔
      source.url = "" ∧ (∃ s, source.data = .str s) ∨
        source.url ≠ "" ∧ source.url = imageUrl formatOther source := by
  rw [sourceImage]
  by_cases hurl : source.url = ""
  · rw [if_neg (not_not.2 hurl), imageUrl]
    cases source.data <;> simp [hurl, dataText]
  · rw [if_pos hurl]
    simp [hurl]

theorem mediaPart_mediaOf :
    (mediaOf formatOther b).bind mediaPart =
      if isText b then some (.text (b.text.getD ""))
      else if b.type = "image" then
        b.source.map fun source => .image (imageUrl formatOther source)
      else none := by
  unfold mediaOf
  split
  · rfl
  · split
    · cases b.source <;> rfl
    · rfl

theorem media_iff (h : ∀ b ∈ blocks, HasSource b) :
    ((blocks.filterMap (mediaOf formatOther)).filterMap mediaPart).length =
        (blocks.filterMap mediaItem).length ∧
      (List.Forall₂ Represents (blocks.filterMap mediaItem)
          ((blocks.filterMap (mediaOf formatOther)).filterMap mediaPart) ↔
        ∀ b ∈ blocks, b.type = "image" → ImageKept formatOther b) := by
  rw [List.filterMap_filterMap]
  have hsome : ∀ b ∈ blocks,
      (mediaItem b).isSome = ((mediaOf formatOther b).bind mediaPart).isSome := by
    intro b hb
    rw [mediaPart_mediaOf]
    unfold mediaItem
    split
    · rfl
    · split
      next himage =>
        rw [Option.isSome_map, h b hb himage]
        rfl
      next => rfl
  obtain ⟨hlength, hiff⟩ := @forall₂_filterMap _ _ _ Represents _ _ _ hsome
  refine ⟨hlength, hiff.trans (forall₂_congr fun b hb => ?_)⟩
  rw [mediaPart_mediaOf]
  unfold mediaItem
  by_cases himage : b.type = "image"
  · obtain ⟨source, hsource⟩ := Option.isSome_iff_exists.1 (h b hb himage)
    have htext : ¬ isText b := by simp [isText, himage]
    simp [htext, himage, hsource, Represents, ImageKept, sourceImage_eq_iff]
  · by_cases htext : isText b
    · simp [htext, himage, Represents]
    · simp [htext, himage]

/-- A call or a text is no result. -/
theorem not_result_of_mem {x : Item}
    (hx : x ∈ blocks.filterMap mediaItem ++ blocks.filterMap callItem) (id content : String) :
    ¬ Represents x (.result id content) := by
  rcases List.mem_append.1 hx with hx | hx
  · obtain ⟨b, -, hb⟩ := List.mem_filterMap.1 hx
    unfold mediaItem at hb
    split at hb
    · cases hb
      exact not_false
    · split at hb
      · cases hb
        exact not_false
      · cases hb
  · obtain ⟨b, -, hb⟩ := List.mem_filterMap.1 hx
    unfold callItem at hb
    split at hb
    · cases hb
      exact not_false
    · cases hb

theorem length_mediaOf (h : ∀ b ∈ blocks, HasSource b) :
    (blocks.filterMap (mediaOf formatOther)).length = (blocks.filterMap mediaItem).length := by
  apply (@forall₂_filterMap _ _ _ (fun _ _ => True) _ _ _ _).1
  intro b hb
  unfold mediaItem mediaOf
  split
  · rfl
  · split
    next himage =>
      rw [Option.isSome_map, h b hb himage]
      rfl
    next => rfl

/-- Nothing that is to hold a text or a call is represented by one result. -/
theorem not_forall₂_result {xs : List Item} (hne : xs ≠ [])
    (hxs : ∀ x ∈ xs, x ∈ blocks.filterMap mediaItem ++ blocks.filterMap callItem)
    {id content : String} : ¬ List.Forall₂ Represents xs [.result id content] := by
  intro hall
  cases xs with
  | nil => exact hne rfl
  | cons x xs =>
    rw [List.forall₂_cons] at hall
    exact not_result_of_mem (hxs x List.mem_cons_self) _ _ hall.1

/-- What the message of its own holds of the texts, images and calls. -/
theorem own_iff (h : ∀ b ∈ blocks, HasSource b)
    (hmedia : s.mediaMessages = blocks.filterMap (mediaOf formatOther))
    (hcalls : s.toolCalls = blocks.filterMap callOf) :
    ((sent (ownMessage role s)).flatMap parts).length ≤
        (blocks.filterMap mediaItem ++ blocks.filterMap callItem).length ∧
      (List.Forall₂ Represents (blocks.filterMap mediaItem ++ blocks.filterMap callItem)
          ((sent (ownMessage role s)).flatMap parts) ↔
        (blocks.filterMap mediaItem = [] ∨ blocks.filterMap callItem = []) ∧
          (∀ b ∈ blocks, b.type = "image" → ImageKept formatOther b) ∧
          (role = "tool" → blocks.filterMap mediaItem = [] ∧ blocks.filterMap callItem = [])) := by
  obtain ⟨hshown, himages⟩ := media_iff formatOther h
  have hlength := length_mediaOf formatOther h
  have hrepresented := @calls_represented blocks
  have hcallLength := hrepresented.length_eq
  have hresult := @not_forall₂_result blocks
  rw [parts_own, hmedia, hcalls, ← himages]
  rw [List.length_map] at hcallLength
  generalize blocks.filterMap mediaItem = media at *
  generalize blocks.filterMap callItem = calls at *
  generalize blocks.filterMap (mediaOf formatOther) = media' at *
  generalize blocks.filterMap callOf = calls' at *
  by_cases hnone : calls' = [] ∧ media' = []
  · obtain ⟨rfl, rfl⟩ := hnone
    have hmedia : media = [] := List.length_eq_zero_iff.1 hlength.symm
    have hcalls : calls = [] := List.length_eq_zero_iff.1 hcallLength
    simp [hmedia, hcalls]
  rw [if_neg hnone]
  have hsome : media ++ calls ≠ [] := by
    intro hnil
    obtain ⟨rfl, rfl⟩ := List.append_eq_nil_iff.1 hnil
    exact hnone ⟨List.length_eq_zero_iff.1 hcallLength.symm, List.length_eq_zero_iff.1 hlength⟩
  by_cases hrole : role = "tool"
  · rw [if_pos hrole]
    refine ⟨List.length_pos_iff.2 hsome, iff_of_false (hresult hsome fun x hx => hx) ?_⟩
    rintro ⟨-, -, htool⟩
    obtain ⟨rfl, rfl⟩ := htool hrole
    exact hsome rfl
  rw [if_neg hrole]
  by_cases hcalls : calls' = []
  · rw [if_neg (not_not.2 hcalls)]
    have hnil : calls = [] := List.length_eq_zero_iff.1 (by rw [hcallLength, hcalls]; rfl)
    rw [hnil, List.append_nil]
    exact ⟨hshown.le, by simp [hrole]⟩
  · rw [if_pos hcalls]
    have hne : calls ≠ [] := by
      rintro rfl
      exact hcalls (List.length_eq_zero_iff.1 hcallLength.symm)
    constructor
    · rw [List.length_append, List.length_map]
      omega
    · constructor
      · intro hall
        have htotal := hall.length_eq
        rw [List.length_append, List.length_map] at htotal
        have hmedia : media = [] := List.length_eq_zero_iff.1 (by omega)
        have hmedia' : media'.filterMap mediaPart = [] :=
          List.length_eq_zero_iff.1 (by rw [hshown, hmedia]; rfl)
        rw [hmedia, hmedia']
        exact ⟨.inl rfl, .nil, fun htool => absurd htool hrole⟩
      · rintro ⟨hmedia | hnil, -, -⟩
        · rw [hmedia]
          exact hrepresented
        · exact absurd hnil hne

end Groups

section Conversion

variable (formatOther : Json → String)

variable {request : ClaudeRequest} {m : ClaudeMessage} {group : List Message}

theorem parts_text (role text : String) :
    (sent { role, content := .text text }).flatMap parts =
      if role = "tool" then [.result "" text] else [.text text] := by
  simp [sent, Message.hasContent, Message.parseContent, parts, contentText, mediaPart]

theorem items_of_not_text (h : ∀ s, m.content ≠ .str s) :
    items m = blockItems ((decodeBlocks m.content).getD []) := by
  unfold items
  split
  next s hs => exact absurd hs (h s)
  next => rfl

theorem kept_of_not_text (h : ∀ s, m.content ≠ .str s) :
    Kept formatOther m ↔
      ∃ blocks, decodeBlocks m.content = some blocks ∧ BlocksKept formatOther m.role blocks := by
  unfold Kept
  split
  next s hs => exact absurd hs (h s)
  next => rfl

theorem hasSource_of_kept {role : String} {blocks : List ClaudeMediaMessage}
    (h : BlocksKept formatOther role blocks) : ∀ b ∈ blocks, HasSource b := by
  intro b hb himage
  obtain ⟨source, hsource, -⟩ := h.images b hb himage
  rw [hsource]
  rfl

/-- A message that can be converted holds no more than it is to hold, and all of it exactly when it
is one that is kept. -/
theorem convertMessage_ok (h : convertMessage formatOther request m = .ok group) :
    (group.flatMap parts).length ≤ (items m).length ∧
      (List.Forall₂ Represents (items m) (group.flatMap parts) ↔ Kept formatOther m) := by
  unfold convertMessage at h
  split at h
  next s hs =>
    cases h
    have hitems : items m = [.text s] := by rw [items, hs]
    have hkept : Kept formatOther m ↔ m.role ≠ "tool" := by rw [Kept, hs]
    rw [parts_text, hitems, hkept]
    by_cases hrole : m.role = "tool"
    · simp [hrole, Represents]
    · simp [hrole, Represents]
  next hno =>
    split at h
    · cases h
    next blocks hblocks =>
      split at h
      · cases h
      next s hs =>
        cases h
        have hsource : ∀ b ∈ blocks, HasSource b := by
          by_contra hnot
          rw [foldlM_addBlock_none formatOther hnot] at hs
          cases hs
        rw [foldlM_addBlock formatOther hsource] at hs
        cases hs
        rw [items_of_not_text hno, kept_of_not_text formatOther hno, hblocks]
        simp only [List.nil_append, Option.getD_some, Option.some.injEq, exists_eq_left']
        obtain ⟨hresultLength, hresults⟩ := @results_iff blocks
        obtain ⟨hownLength, hown⟩ := @own_iff formatOther blocks
          ⟨blocks.filterMap (mediaOf formatOther), blocks.filterMap callOf,
            blocks.filterMap (resultOf request)⟩ m.role hsource rfl rfl
        rw [List.flatMap_append, parts_results, blockItems]
        constructor
        · rw [List.length_append, List.length_append]
          omega
        · rw [forall₂_append_iff hresultLength, hresults, hown]
          constructor
          · rintro ⟨hr, hu, hi, ht⟩
            exact ⟨hu, hi, hr, ht⟩
          · rintro ⟨hu, hi, hr, ht⟩
            exact ⟨hr, hu, hi, ht⟩

theorem convertMessage_error {e : Failure} (h : convertMessage formatOther request m = .error e) :
    ¬ Kept formatOther m := by
  unfold convertMessage at h
  split at h
  · cases h
  next hno =>
    rw [kept_of_not_text formatOther hno]
    rintro ⟨blocks, hblocks, hkept⟩
    rw [hblocks] at h
    simp only [foldlM_addBlock formatOther (hasSource_of_kept formatOther hkept)] at h
    cases h

/-- The messages are converted one by one. -/
theorem mapM_convertMessage (messages : List ClaudeMessage) :
    (∃ groups, messages.mapM (convertMessage formatOther request) = .ok groups ∧
        List.Forall₂ Represents (messages.flatMap items) (groups.flatten.flatMap parts)) ↔
      ∀ m ∈ messages, Kept formatOther m := by
  have hgroups : ∀ groups, List.Forall₂ (fun m g => convertMessage formatOther request m = .ok g)
      messages groups →
        (List.Forall₂ Represents (messages.flatMap items) (groups.flatten.flatMap parts) ↔
          ∀ m ∈ messages, Kept formatOther m) := by
    intro groups h
    have hlength : List.Forall₂ (fun m g => (g.flatMap parts).length ≤ (items m).length)
        messages groups := h.imp fun m g hm => (convertMessage_ok formatOther hm).1
    have hflat : groups.flatten.flatMap parts = groups.flatMap fun g => g.flatMap parts := by
      rw [List.flatMap_def, List.flatMap_def, List.map_flatten, List.flatten_flatten, List.map_map]
      rfl
    rw [hflat, forall₂_flatMap hlength]
    clear hlength hflat
    induction h with
    | nil => simp
    | cons hm _ ih =>
      rw [List.forall₂_cons, List.forall_mem_cons]
      exact and_congr (convertMessage_ok formatOther hm).2 ih
  constructor
  · rintro ⟨groups, hok, hall⟩
    exact (hgroups groups (mapM_ok_iff.1 hok)).1 hall
  · intro hkept
    have hok : ∃ groups, List.Forall₂
        (fun m g => convertMessage formatOther request m = .ok g) messages groups := by
      clear hgroups
      induction messages with
      | nil => exact ⟨[], .nil⟩
      | cons m messages ih =>
        obtain ⟨hm, hrest⟩ := List.forall_mem_cons.1 hkept
        obtain ⟨groups, hgroups⟩ := ih hrest
        cases hconvert : convertMessage formatOther request m with
        | error e => exact absurd hm (convertMessage_error formatOther hconvert)
        | ok g => exact ⟨g :: groups, .cons hconvert hgroups⟩
    obtain ⟨groups, h⟩ := hok
    exact ⟨groups, mapM_ok_iff.2 h, (hgroups groups h).2 hkept⟩

/-- The conversion loses nothing exactly when every message is one that is kept. -/
theorem claude_faithful_iff (request : ClaudeRequest) (info : RelayInfo) :
    Faithful request info (claudeToOpenAIRequest formatOther request info) ↔
      ∀ m ∈ request.messages, Kept formatOther m := by
  rw [← @mapM_convertMessage formatOther request]
  unfold Faithful claudeToOpenAIRequest
  cases request.messages.mapM (convertMessage formatOther request) with
  | error e =>
    constructor
    · rintro ⟨r, rest, hr, -⟩
      cases hr
    · rintro ⟨groups, hgroups, -⟩
      cases hgroups
  | ok groups =>
    constructor
    · rintro ⟨r, rest, hr, hmessages, hall⟩
      cases hr
      rw [← List.append_cancel_left hmessages] at hall
      exact ⟨groups, rfl, hall⟩
    · rintro ⟨groups', hgroups, hall⟩
      cases hgroups
      exact ⟨_, groups.flatten, rfl, rfl, hall⟩

end Conversion

/-- An image that is given by its URL. -/
def imageRequest : ClaudeRequest :=
  { model := "claude"
    messages :=
      [⟨"user", .arr
        [.obj [("source", .obj [("type", .str "url"), ("url", .str "https://example.com/cat.png")]),
          ("type", .str "image")]]⟩] }

/-- The URL is not read, and what is formatted is the data that is not there. -/
theorem url_image_lost :
    ¬ Faithful imageRequest ⟨1, "gpt", "gpt"⟩
      (claudeToOpenAIRequest (fun _ => "%!s(<nil>)") imageRequest ⟨1, "gpt", "gpt"⟩) := by
  rintro ⟨r, rest, hr, hmessages, hall⟩
  have hparts : r.messages.flatMap parts = [.image "data:;base64,%!s(<nil>)"] := by
    rw [← Except.ok.inj hr]
    decide
  have hitems : imageRequest.messages.flatMap items =
      [.image (some "https://example.com/cat.png")] := by
    rfl
  have hsystem : systemMessages imageRequest ⟨1, "gpt", "gpt"⟩ = [] := rfl
  rw [hsystem, List.nil_append] at hmessages
  rw [← hmessages, hparts, hitems, List.forall₂_cons] at hall
  have himage := Option.some.inj hall.1
  exact absurd himage (by decide)

end CodeGo.Gateway.ClaudeConversion
