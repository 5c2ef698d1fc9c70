import CodeGo.Lib.Trim
import Mathlib.Data.List.Infix
import Mathlib.Data.List.Basic
import Mathlib.Algebra.Ring.Int.Defs
import Mathlib.Algebra.Ring.Nat

/-!
# Requests that the gateway accepts

`getAndValidateRequest` of `internal/gateway/transport/http`. What the parser of the body makes of a
request is given for each type of request; the numbers of a request, and the fields that are checked,
are kept of it.
-/

namespace CodeGo.Gateway.Validation

open CodeGo.Lib.Trim (trimSpace)

/-- What the path of a request asks for. -/
inductive RelayMode where
  | chatCompletions | completions | embeddings | moderations | edits
  | imagesGenerations | imagesEdits | audioSpeech | other
  deriving DecidableEq, Repr

inductive RelayFormat where
  | openAI | gemini | claude | openAIResponses | openAIResponsesCompaction | openAIImage
  | embedding | rerank | openAIAudio | openAIRealtime
  | unknown (name : String)
  deriving DecidableEq, Repr

structure GeneralOpenAIRequest where
  model : String := ""
  /-- Of the fields without a type, whether they are missing or an empty text. -/
  prompt : Option String := none
  input : Option String := none
  instruction : String := ""
  messages : Nat := 0
  prefixed : Bool := false
  suffixed : Bool := false
  maxTokens : Option UInt64 := none
  maxCompletionTokens : Option UInt64 := none
  n : Option Int := none
  topK : Option Int := none
  searchContextSize : Option String := none
  deriving DecidableEq, Repr

structure ClaudeRequest where
  model : String := ""
  messages : Nat := 0
  maxTokens : Option UInt64 := none
  maxTokensToSample : Option UInt64 := none
  topK : Option Int := none
  deriving DecidableEq, Repr

structure GeminiChatRequest where
  contents : Nat := 0
  requests : Nat := 0
  maxOutputTokens : Option UInt64 := none
  candidateCount : Option Int := none
  deriving DecidableEq, Repr

structure OpenAIResponsesRequest where
  model : String := ""
  hasInput : Bool := false
  maxOutputTokens : Option UInt64 := none
  maxToolCalls : Option UInt64 := none
  stream : Option Bool := none
  deriving DecidableEq, Repr

structure ImageRequest where
  model : String := ""
  prompt : String := ""
  n : Option UInt64 := none
  quality : String := ""
  size : String := ""
  stream : Bool := false
  image : Option String := none
  watermark : Option Bool := none
  deriving DecidableEq, Repr

structure EmbeddingRequest where
  model : String := ""
  hasInput : Bool := false
  deriving DecidableEq, Repr

structure RerankRequest where
  query : String := ""
  documents : Nat := 0
  deriving DecidableEq, Repr

structure AudioRequest where
  model : String := ""
  responseFormat : String := ""
  deriving DecidableEq, Repr

inductive Request where
  | general (r : GeneralOpenAIRequest)
  | claude (r : ClaudeRequest)
  | gemini (r : GeminiChatRequest)
  | geminiEmbedding
  | geminiBatchEmbedding
  | responses (r : OpenAIResponsesRequest)
  | compaction (model : String)
  | image (r : ImageRequest)
  | embedding (r : EmbeddingRequest)
  | rerank (r : RerankRequest)
  | audio (r : AudioRequest)
  | base
  deriving DecidableEq, Repr

/-- The request as it came in, with what `UnmarshalBodyReusable` gives for each type. -/
structure Context where
  path : String
  relayMode : RelayMode
  contentType : String := ""
  paramModel : String := ""
  multipartForm : Except String (List (String × String)) := .ok []
  generalBody : Except String GeneralOpenAIRequest := .ok {}
  claudeBody : Except String ClaudeRequest := .ok {}
  geminiBody : Except String GeminiChatRequest := .ok {}
  geminiEmbeddingBody : Except String Unit := .ok ()
  responsesBody : Except String OpenAIResponsesRequest := .ok {}
  compactionBody : Except String String := .ok ""
  imageBody : Except String ImageRequest := .ok {}
  embeddingBody : Except String EmbeddingRequest := .ok {}
  rerankBody : Except String RerankRequest := .ok {}
  audioBody : Except String AudioRequest := .ok {}

def safeMaxRequestTokens : Nat := 2 ^ 20

def safeMaxCandidateCount : Int := 128

def safeMaxToolCallCount : Nat := 1024

def maxImageRequestCount : Nat := 16

def validateOptionalUintWithinRange (value : Option UInt64) (max : Nat) : Bool :=
  match value with
  | none => true
  | some v => v.toNat ≤ max

def require (ok : Bool) (message : String) : Except String Unit :=
  if ok then .ok () else .error message

def validateMaxTokenField (name : String) (value : Option UInt64) : Except String Unit :=
  require (value = none || value = some 0 ||
    validateOptionalUintWithinRange value safeMaxRequestTokens) (name ++ " is invalid")

def validatePositiveCountField (name : String) (value : Option Int) (max : Int) :
    Except String Unit :=
  match value with
  | none => .ok ()
  | some v => require (0 ≤ v && v ≤ max) (name ++ " is invalid")

def contains (s text : String) : Bool := decide (text.toList <:+: s.toList)

def digit? (c : Char) : Option Nat := if c.isDigit then some (c.toNat - '0'.toNat) else none

def digits (cs : List Char) : Option Nat :=
  if cs = [] then none
  else cs.foldl (fun n c => n.bind fun n => (digit? c).map (n * 10 + ·)) (some 0)

/-- The sign in front of a number. -/
def splitSign : List Char → Bool × List Char
  | '-' :: cs => (true, cs)
  | '+' :: cs => (false, cs)
  | cs => (false, cs)

/-- `strconv.Atoi`, of 64 bits. -/
def atoi (s : String) : Option Int :=
  match digits (splitSign s.toList).2 with
  | none => none
  | some n =>
    let value : Int := if (splitSign s.toList).1 then -n else n
    if -2 ^ 63 ≤ value ∧ value < 2 ^ 63 then some value else none

def string2Int (str : String) : Int := (atoi str).getD 0

/-- `strconv.ParseBool`. -/
def parseBool (s : String) : Option Bool :=
  if s ∈ ["1", "t", "T", "TRUE", "true", "True"] then some true
  else if s ∈ ["0", "f", "F", "FALSE", "false", "False"] then some false
  else none

/-- A missing number of images is one. -/
def imageCount (n : Option UInt64) : Option UInt64 :=
  match n with
  | none => some 1
  | some v => if v = 0 then some 1 else some v

def formGet (form : List (String × String)) (key : String) : String := (form.lookup key).getD ""

/-- An edit that comes as a form; its number of images is not checked. -/
def imageEditForm (form : List (String × String)) : Except String ImageRequest :=
  let get := formGet form
  let model := get "model"
  let quality := get "quality"
  let request : ImageRequest :=
    { prompt := get "prompt"
      model
      n := imageCount (some (UInt64.ofInt (string2Int (get "n"))))
      quality := if model = "gpt-image-1" ∧ quality = "" then "standard" else quality
      size := get "size"
      image := if get "image" ≠ "" then some (get "image") else none
      watermark := (form.lookup "watermark").map (· = "true") }
  let streamValue := trimSpace (get "stream")
  if streamValue ≠ "" then
    match parseBool streamValue with
    | some stream => .ok { request with stream }
    | none => .error "invalid stream value"
  else .ok request

def sizes (model : String) : List String :=
  if model = "dall-e-2" ∨ model = "dall-e" then ["256x256", "512x512", "1024x1024"]
  else if model = "dall-e-3" then ["1024x1024", "1024x1792", "1792x1024"]
  else []

def sizeError (model : String) : String :=
  if model = "dall-e-3" then "size must be one of 1024x1024, 1024x1792 or 1792x1024 for dall-e-3"
  else "size must be one of 256x256, 512x512, or 1024x1024 for dall-e-2 or dall-e"

def imageDefaults (r : ImageRequest) : ImageRequest :=
  { r with
    size := if sizes r.model ≠ [] ∧ r.size = "" then "1024x1024" else r.size
    quality :=
      if r.model = "dall-e-3" ∧ r.quality = "" then "standard"
      else if r.model = "gpt-image-1" ∧ r.quality = "" then "auto"
      else r.quality
    n := imageCount r.n }

def countInRange (n : Option UInt64) : Bool :=
  match n with
  | none => true
  | some v => v ≠ 0 && v.toNat ≤ maxImageRequestCount

def imageBodyRequest (body : Except String ImageRequest) : Except String ImageRequest := do
  let r ← body
  require (r.model ≠ "") "model is required"
  require (!contains r.size "脳")
    ("size an unexpected error occurred in the parameter, " ++
      "please use 'x' instead of the multiplication sign '脳'")
  require (sizes r.model = [] || r.size = "" || (sizes r.model).contains r.size) (sizeError r.model)
  let r := imageDefaults r
  require (countInRange r.n) "n must be between 1 and 16"
  .ok r

def getAndValidOpenAIImageRequest (c : Context) : Except String ImageRequest :=
  if c.relayMode = .imagesEdits ∧ contains c.contentType "multipart/form-data" then
    match c.multipartForm with
    | .ok form => imageEditForm form
    | .error e => .error ("failed to parse image edit form request: " ++ e)
  else imageBodyRequest c.imageBody

def getAndValidateClaudeRequest (c : Context) : Except String ClaudeRequest := do
  let r ← c.claudeBody
  require (r.messages ≠ 0) "field messages is required"
  require (r.model ≠ "") "field model is required"
  validateMaxTokenField "max_tokens" r.maxTokens
  validateMaxTokenField "max_tokens_to_sample" r.maxTokensToSample
  validatePositiveCountField "top_k" r.topK safeMaxCandidateCount
  .ok r

def textModel (c : Context) (r : GeneralOpenAIRequest) : GeneralOpenAIRequest :=
  if c.relayMode = .moderations ∧ r.model = "" then { r with model := "text-moderation-latest" }
  else if c.relayMode = .embeddings ∧ r.model = "" then { r with model := c.paramModel }
  else r

/-- What a mode needs. -/
def textRequired (mode : RelayMode) (r : GeneralOpenAIRequest) : Except String Unit :=
  match mode with
  | .completions => require (r.prompt ≠ some "") "field prompt is required"
  | .chatCompletions =>
    require (r.messages ≠ 0 || r.prefixed || r.suffixed) "field messages is required"
  | .moderations => require (r.input ≠ none && r.input ≠ some "") "field input is required"
  | .edits => require (r.instruction ≠ "") "field instruction is required"
  | _ => .ok ()

def getAndValidateTextRequest (c : Context) : Except String GeneralOpenAIRequest := do
  let body ← c.generalBody
  let r := textModel c body
  require ((r.maxTokens.getD 0).toNat ≤ (2 ^ 31 - 1) / 2) "max_tokens is invalid"
  validateMaxTokenField "max_tokens" r.maxTokens
  validateMaxTokenField "max_completion_tokens" r.maxCompletionTokens
  validatePositiveCountField "n" r.n safeMaxCandidateCount
  validatePositiveCountField "top_k" r.topK safeMaxCandidateCount
  require (r.model ≠ "") "model is required"
  let size := r.searchContextSize.map fun s => if s = "" then "medium" else s
  require (size.all (["high", "medium", "low"].contains ·))
    "invalid search_context_size, must be one of: high, medium, low"
  let r := { r with searchContextSize := size }
  textRequired c.relayMode r
  .ok r

def getAndValidateGeminiRequest (c : Context) : Except String GeminiChatRequest := do
  let r ← c.geminiBody
  require (r.contents ≠ 0 || r.requests ≠ 0) "contents is required"
  require (validateOptionalUintWithinRange r.maxOutputTokens safeMaxRequestTokens)
    "max_output_tokens is invalid"
  validatePositiveCountField "candidate_count" r.candidateCount safeMaxCandidateCount
  .ok r

def getAndValidateResponsesRequest (c : Context) : Except String OpenAIResponsesRequest := do
  let r ← c.responsesBody
  require (r.model ≠ "") "model is required"
  require r.hasInput "input is required"
  validateMaxTokenField "max_output_tokens" r.maxOutputTokens
  require (validateOptionalUintWithinRange r.maxToolCalls safeMaxToolCallCount)
    "max_tool_calls is invalid"
  .ok { r with stream := some true }

def getAndValidateResponsesCompactionRequest (c : Context) : Except String String := do
  let model ← c.compactionBody
  require (model ≠ "") "model is required"
  .ok model

def getAndValidateEmbeddingRequest (c : Context) : Except String EmbeddingRequest := do
  let r ← c.embeddingBody
  require r.hasInput "input is empty"
  if c.relayMode = .moderations ∧ r.model = "" then
    .ok { r with model := "omni-moderation-latest" }
  else if c.relayMode = .embeddings ∧ r.model = "" then .ok { r with model := c.paramModel }
  else .ok r

def getAndValidateRerankRequest (c : Context) : Except String RerankRequest := do
  let r ← c.rerankBody
  require (r.query ≠ "") "query is empty"
  require (r.documents ≠ 0) "documents is empty"
  .ok r

def getAndValidAudioRequest (c : Context) : Except String AudioRequest := do
  let r ← c.audioBody
  require (r.model ≠ "") "model is required"
  if c.relayMode ≠ .audioSpeech ∧ r.responseFormat = "" then .ok { r with responseFormat := "json" }
  else .ok r

def getAndValidateRequest (c : Context) (format : RelayFormat) : Except String Request :=
  match format with
  | .openAI => (getAndValidateTextRequest c).map .general
  | .gemini =>
    if contains c.path ":embedContent" then c.geminiEmbeddingBody.map fun _ => .geminiEmbedding
    else if contains c.path ":batchEmbedContents" then
      c.geminiEmbeddingBody.map fun _ => .geminiBatchEmbedding
    else (getAndValidateGeminiRequest c).map .gemini
  | .claude => (getAndValidateClaudeRequest c).map .claude
  | .openAIResponses => (getAndValidateResponsesRequest c).map .responses
  | .openAIResponsesCompaction => (getAndValidateResponsesCompactionRequest c).map .compaction
  | .openAIImage => (getAndValidOpenAIImageRequest c).map .image
  | .embedding => (getAndValidateEmbeddingRequest c).map .embedding
  | .rerank => (getAndValidateRerankRequest c).map .rerank
  | .openAIAudio => (getAndValidAudioRequest c).map .audio
  | .openAIRealtime => .ok .base
  | .unknown name => .error ("unsupported relay format: " ++ name)

theorem require_ok {ok : Bool} {message : String} {u : Unit} (h : require ok message = .ok u) :
    ok = true := by
  cases ok
  · cases h
  · rfl

theorem bind_ok {A B : Type} {x : Except String A} {f : A → Except String B} {b : B}
    (h : (x >>= f) = .ok b) : ∃ a, x = .ok a ∧ f a = .ok b := by
  cases x with
  | error e => cases h
  | ok a => exact ⟨a, rfl, h⟩

theorem map_ok {A B : Type} {x : Except String A} {f : A → B} {b : B} (h : x.map f = .ok b) :
    ∃ a, x = .ok a ∧ b = f a := by
  cases x with
  | error e => cases h
  | ok a => exact ⟨a, rfl, (Except.ok.inj h).symm⟩

/-- The number of images of an accepted body. -/
theorem imageBodyRequest_count {body : Except String ImageRequest} {r : ImageRequest}
    (h : imageBodyRequest body = .ok r) : ∃ v, r.n = some v ∧ 1 ≤ v.toNat ∧
      v.toNat ≤ maxImageRequestCount := by
  unfold imageBodyRequest at h
  obtain ⟨b, -, h⟩ := bind_ok h
  obtain ⟨-, -, h⟩ := bind_ok h
  obtain ⟨-, -, h⟩ := bind_ok h
  obtain ⟨-, -, h⟩ := bind_ok h
  obtain ⟨u, hcount, h⟩ := bind_ok h
  obtain rfl := Except.ok.inj h
  have hrange := require_ok hcount
  have hn : (imageDefaults b).n = imageCount b.n := rfl
  rw [hn] at hrange ⊢
  have hsome : ∃ v, imageCount b.n = some v := by
    unfold imageCount
    split
    · exact ⟨1, rfl⟩
    · split
      · exact ⟨1, rfl⟩
      · exact ⟨_, rfl⟩
  obtain ⟨v, hv⟩ := hsome
  rw [hv] at hrange ⊢
  simp only [countInRange, Bool.and_eq_true, decide_eq_true_eq] at hrange
  refine ⟨v, rfl, ?_, hrange.2⟩
  have hne : v.toNat ≠ 0 := fun h0 => hrange.1 (UInt64.toNat_inj.1 h0)
  omega

/-- The number of images that a form asks for. -/
def formCount (form : List (String × String)) : Int := string2Int (formGet form "n")

theorem imageEditForm_count {form : List (String × String)} {r : ImageRequest}
    (h : imageEditForm form = .ok r) :
    r.n = imageCount (some (UInt64.ofInt (formCount form))) := by
  unfold imageEditForm at h
  dsimp only at h
  split at h
  · split at h
    · exact (Except.ok.inj h) ▸ rfl
    · cases h
  · exact (Except.ok.inj h) ▸ rfl

end CodeGo.Gateway.Validation
