import CodeGo.Gateway.ModelPrice

/-!
# The quota of a text request

`text_quota.go`: the tokens of a usage, what they cost in decimals, and the quota that this
is rounded to. `realtime_quota.go`: the cache writes that are estimated from a cost.
-/

namespace CodeGo.Billing.TextQuota

open Lib.Binary64
open Gateway.Pricing (roundHalfAway quotaRound intPart saturatingInt64ToInt)

/-- `Usage.Cost`, which may hold anything. -/
inductive Cost where
  | float64 (cost : Value)
  | int (cost : Int)
  | other
  deriving DecidableEq, Repr

structure InputTokenDetails where
  cachedTokens : Int := 0
  cachedCreationTokens : Int := 0
  audioTokens : Int := 0
  imageTokens : Int := 0
  deriving DecidableEq, Repr

structure OutputTokenDetails where
  audioTokens : Int := 0
  imageTokens : Int := 0
  deriving DecidableEq, Repr

structure Usage where
  promptTokens : Int := 0
  completionTokens : Int := 0
  totalTokens : Int := 0
  usageSemantic : String := ""
  usageSource : String := ""
  promptTokensDetails : InputTokenDetails := {}
  completionTokenDetails : OutputTokenDetails := {}
  claudeCacheCreation5mTokens : Int := 0
  claudeCacheCreation1hTokens : Int := 0
  cost : Cost := .other
  deriving DecidableEq, Repr

/-- The ratios and prices are values of `float64`. -/
structure PriceData where
  usePrice : Bool := false
  modelPrice : ℚ := 0
  modelRatio : ℚ := 0
  completionRatio : ℚ := 0
  cacheRatio : ℚ := 0
  imageRatio : ℚ := 0
  cacheCreationRatio : ℚ := 0
  cacheCreation5mRatio : ℚ := 0
  cacheCreation1hRatio : ℚ := 0
  groupRatio : ℚ := 0
  otherRatios : List (String × ℚ) := []

structure RelayInfo where
  originModelName : String := ""
  finalRequestRelayFormat : String := ""
  requestConversionChain : List String := []
  relayFormat : String := ""
  /-- the channel type of `ChannelMeta`, unless that is nil -/
  channelType : Option Int := none
  estimatePromptTokens : Int := 0
  /-- the calls of the built-in tools by their names, unless there is no `ResponsesUsageInfo` -/
  responsesUsageInfo : Option (String → Option Int) := none
  priceData : PriceData := {}

/-- What the handlers have left in the context of the request. -/
structure Context where
  claudeWebSearchRequests : Int := 0
  imageGenerationCall : Bool := false
  imageGenerationCallQuality : String := ""
  imageGenerationCallSize : String := ""

/-- The settings that prices are made from. -/
structure Settings where
  /-- `decimal.NewFromFloat` -/
  newFromFloat : ℚ → ℚ
  quotaPerUnit : ℚ
  defaultModelRatio : String → Option ℚ
  /-- the loaded price of a tool for a model -/
  priceForModel : String → String → ℚ

def RelayInfo.getFinalRequestRelayFormat (info : RelayInfo) : String :=
  if info.finalRequestRelayFormat ≠ "" then info.finalRequestRelayFormat
  else info.requestConversionChain.getLast?.getD info.relayFormat

def usageSemanticFromUsage (info : RelayInfo) (usage : Option Usage) : String :=
  match usage.filter (·.usageSemantic ≠ "") with
  | some usage => usage.usageSemantic
  | none => if info.getFinalRequestRelayFormat = "claude" then "anthropic" else "openai"

/-- Whether the upstream has counted anything. -/
def Usage.reported (usage : Usage) : Bool :=
  usage.promptTokens ≠ 0 || usage.completionTokens ≠ 0 || usage.totalTokens ≠ 0

/-- Instead of a usage without tokens the estimate of the prompt is charged. -/
def fallbackPromptOnlyUsage (info : RelayInfo) (usage : Option Usage) : Option Usage :=
  if usage.any (·.reported) then none
  else if info.estimatePromptTokens ≤ 0 then none
  else some {
    promptTokens := info.estimatePromptTokens
    totalTokens := info.estimatePromptTokens
    usageSource := "fallback_prompt_tokens"
    usageSemantic := if info.getFinalRequestRelayFormat = "claude" then "anthropic" else "" }

def isLegacyClaudeDerivedOpenAIUsage (info : RelayInfo) (usage : Usage) : Bool :=
  info.getFinalRequestRelayFormat ≠ "claude" && usage.usageSource = "" &&
    usage.usageSemantic = "" &&
    (usage.claudeCacheCreation5mTokens > 0 || usage.claudeCacheCreation1hTokens > 0)

section Tools

variable (s : Settings)

def hasPrefix (name : String) (start : String) : Bool := start.toList.isPrefixOf name.toList

def hasSuffix (name : String) (ending : String) : Bool := ending.toList.isSuffixOf name.toList

def getGeminiInputAudioPricePerMillionTokens (modelName : String) : ℚ :=
  if hasPrefix modelName "gemini-2.5-flash-preview-native-audio" then 3
  else if hasPrefix modelName "gemini-2.5-flash-preview-lite" then 1 / 2
  else if hasPrefix modelName "gemini-2.5-flash-preview" then 1
  else if hasPrefix modelName "gemini-2.5-flash" then 1
  else if hasPrefix modelName "gemini-2.0-flash" then 7 / 10
  else if hasPrefix modelName "gemini-robotics-er-1.5" then 1
  else 0

def getGPTImage1PricePerCall (quality size : String) : ℚ :=
  if quality = "low" ∧ size = "1024x1024" then 11 / 1000
  else if quality = "low" ∧ (size = "1024x1536" ∨ size = "1536x1024") then 16 / 1000
  else if quality = "medium" ∧ size = "1024x1024" then 42 / 1000
  else if quality = "medium" ∧ (size = "1024x1536" ∨ size = "1536x1024") then 63 / 1000
  else if quality = "high" ∧ (size = "1024x1536" ∨ size = "1536x1024") then 250 / 1000
  else 167 / 1000

/-- The quota of calls of a tool; `price` is for a thousand of them. -/
def callsQuota (groupRatio price : ℚ) (calls : Int) : ℚ :=
  s.newFromFloat price * calls / 1000 * s.newFromFloat groupRatio * s.newFromFloat s.quotaPerUnit

/-- The calls of a built-in tool, if there are any. -/
def toolCalls (tools : String → Option Int) (tool : String) : Int :=
  ((tools tool).filter (· > 0)).getD 0

def calculateTextToolCallSurcharge (ctx : Context) (info : RelayInfo) : ℚ :=
  let groupRatio := info.priceData.groupRatio
  let model := info.originModelName
  let webSearch := s.priceForModel "web_search_preview" model
  let preview :=
    match info.responsesUsageInfo with
    | some tools => callsQuota s groupRatio webSearch (toolCalls tools "web_search_preview")
    | none => if hasSuffix model "search-preview" then callsQuota s groupRatio webSearch 1 else 0
  let claude := if ctx.claudeWebSearchRequests > 0 then
    callsQuota s groupRatio (s.priceForModel "web_search" "") ctx.claudeWebSearchRequests else 0
  let file :=
    match info.responsesUsageInfo with
    | some tools => callsQuota s groupRatio (s.priceForModel "file_search" "")
        (toolCalls tools "file_search")
    | none => 0
  let image := if ctx.imageGenerationCall then
    s.newFromFloat
      (getGPTImage1PricePerCall ctx.imageGenerationCallQuality ctx.imageGenerationCallSize) *
        s.newFromFloat groupRatio * s.newFromFloat s.quotaPerUnit else 0
  preview + claude + file + image

end Tools

/-- The counts of `textQuotaSummary`. -/
structure Counts where
  promptTokens : Int
  completionTokens : Int
  totalTokens : Int
  cacheTokens : Int
  cacheCreationTokens : Int
  cacheCreationTokens5m : Int
  cacheCreationTokens1h : Int
  imageTokens : Int
  audioTokens : Int
  deriving DecidableEq, Repr

def countsOf (usage : Usage) : Counts where
  promptTokens := usage.promptTokens
  completionTokens := usage.completionTokens
  totalTokens := usage.promptTokens + usage.completionTokens
  cacheTokens := usage.promptTokensDetails.cachedTokens
  cacheCreationTokens := usage.promptTokensDetails.cachedCreationTokens
  cacheCreationTokens5m := usage.claudeCacheCreation5mTokens
  cacheCreationTokens1h := usage.claudeCacheCreation1hTokens
  imageTokens := usage.promptTokensDetails.imageTokens
  audioTokens := usage.promptTokensDetails.audioTokens

def costOf : Cost → Value
  | .float64 cost => cost
  | _ => .finite 0

/-- The number of cache writes that explains the cost. -/
def calcOpenRouterCacheCreateTokens (s : Settings) (usage : Usage) (p : PriceData) : Int :=
  if p.cacheCreationRatio = 1 then 0
  else
    let quotaPrice := div (.finite p.modelRatio) (.finite s.quotaPerUnit)
    let promptCacheCreatePrice := mul quotaPrice (.finite p.cacheCreationRatio)
    let promptCacheReadPrice := mul quotaPrice (.finite p.cacheRatio)
    let completionPrice := mul quotaPrice (.finite p.completionRatio)
    let totalPromptTokens := ofRat usage.promptTokens
    let completionTokens := ofRat usage.completionTokens
    let promptCacheReadTokens := ofRat usage.promptTokensDetails.cachedTokens
    let known := sub (add (sub (costOf usage.cost) (mul totalPromptTokens quotaPrice))
      (mul promptCacheReadTokens (sub quotaPrice promptCacheReadPrice)))
      (mul completionTokens completionPrice)
    quotaRound (div known (sub promptCacheCreatePrice quotaPrice))

def hasCustomModelRatio (s : Settings) (modelName : String) (currentRatio : ℚ) : Bool :=
  match s.defaultModelRatio modelName with
  | none => true
  | some defaultRatio => currentRatio ≠ defaultRatio

def channelTypeOpenRouter : Int := 20

/-- The writes are estimated where the upstream gives a cost and no count of them. -/
def estimates (s : Settings) (info : RelayInfo) (usage : Usage) : Bool :=
  let isUsingCustomSettings := info.priceData.usePrice ||
    hasCustomModelRatio s info.originModelName info.priceData.modelRatio
  usage.promptTokensDetails.cachedCreationTokens = 0 && info.priceData.cacheCreationRatio ≠ 1 &&
    usage.cost ≠ .int 0 && !isUsingCustomSettings

/-- OpenRouter counts what was read from and written to the cache as a part of the prompt. -/
def openRouterCounts (s : Settings) (info : RelayInfo) (usage : Usage) : Counts :=
  let c := countsOf usage
  let promptTokens := c.promptTokens - c.cacheTokens
  let maybeCacheCreationTokens := calcOpenRouterCacheCreateTokens s usage info.priceData
  let cacheCreationTokens :=
    if estimates s info usage ∧ maybeCacheCreationTokens ≥ 0 ∧
        promptTokens ≥ maybeCacheCreationTokens then maybeCacheCreationTokens
    else c.cacheCreationTokens
  { c with promptTokens := promptTokens - cacheCreationTokens, cacheCreationTokens }

def isOpenRouterClaudeBilling (info : RelayInfo) (isClaude : Bool) : Bool :=
  info.channelType = some channelTypeOpenRouter && isClaude

def summaryCounts (s : Settings) (info : RelayInfo) (isClaude : Bool) (usage : Usage) : Counts :=
  if isOpenRouterClaudeBilling info isClaude then openRouterCounts s info usage
  else countsOf usage

section Quota

variable (s : Settings) (p : PriceData)

/-- A category of tokens: how many of them leave the prompt, and the tokens times their ratio. -/
structure Part where
  excluded : Int := 0
  tokensWithRatio : ℚ := 0

/-- `apart`: the usage counts the cache besides the prompt. -/
def cachePart (apart : Bool) (c : Counts) : Part :=
  if c.cacheTokens ≠ 0 then
    { excluded := if !apart then c.cacheTokens else 0
      tokensWithRatio := c.cacheTokens * s.newFromFloat p.cacheRatio }
  else {}

/-- The cache writes that neither of the two lifetimes accounts for. -/
def remainingCreation (c : Counts) : Int :=
  let remaining := c.cacheCreationTokens - c.cacheCreationTokens5m - c.cacheCreationTokens1h
  if remaining < 0 then 0 else remaining

def creationPart (apart : Bool) (c : Counts) : Part :=
  let hasSplitCacheCreationTokens := c.cacheCreationTokens5m > 0 ∨ c.cacheCreationTokens1h > 0
  if c.cacheCreationTokens ≠ 0 ∨ hasSplitCacheCreationTokens then
    if !apart then
      { excluded := c.cacheCreationTokens
        tokensWithRatio := c.cacheCreationTokens * s.newFromFloat p.cacheCreationRatio }
    else
      { tokensWithRatio := remainingCreation c * s.newFromFloat p.cacheCreationRatio +
          c.cacheCreationTokens5m * s.newFromFloat p.cacheCreation5mRatio +
          c.cacheCreationTokens1h * s.newFromFloat p.cacheCreation1hRatio }
  else {}

def imagePart (c : Counts) : Part :=
  if c.imageTokens ≠ 0 then
    { excluded := c.imageTokens, tokensWithRatio := c.imageTokens * s.newFromFloat p.imageRatio }
  else {}

/-- Audio with a price of its own is not multiplied by the model ratio: what is left of it besides
the excluded tokens is a quota. -/
def audioPart (modelName : String) (c : Counts) : Part :=
  let audioInputPrice := getGeminiInputAudioPricePerMillionTokens modelName
  if c.audioTokens ≠ 0 ∧ audioInputPrice > 0 then
    { excluded := c.audioTokens
      tokensWithRatio := s.newFromFloat audioInputPrice / 1000000 * c.audioTokens *
        s.newFromFloat p.groupRatio * s.newFromFloat s.quotaPerUnit }
  else {}

/-- `dModelRatio.Mul(dGroupRatio)` -/
def ratio : ℚ := s.newFromFloat p.modelRatio * s.newFromFloat p.groupRatio

def mulOtherRatios (quota : ℚ) : ℚ :=
  p.otherRatios.foldl (fun quota r => quota * s.newFromFloat r.2) quota

/-- The charge for the tokens, in decimals. -/
def tokenCharge (modelName : String) (apart : Bool) (c : Counts) (surcharge : ℚ) : ℚ :=
  let cached := cachePart s p apart c
  let created := creationPart s p apart c
  let image := imagePart s p c
  let audio := audioPart s p modelName c
  let baseTokens : Int :=
    c.promptTokens - cached.excluded - created.excluded - image.excluded - audio.excluded
  let promptQuota := baseTokens + cached.tokensWithRatio + image.tokensWithRatio +
    created.tokensWithRatio
  let completionQuota := c.completionTokens * s.newFromFloat p.completionRatio
  mulOtherRatios s p
    ((promptQuota + completionQuota) * ratio s p + surcharge + audio.tokensWithRatio)

/-- The charge for the call, in decimals. -/
def callCharge (surcharge : ℚ) : ℚ :=
  mulOtherRatios s p (s.newFromFloat p.modelPrice * s.newFromFloat s.quotaPerUnit *
    s.newFromFloat p.groupRatio + surcharge)

/-- `quotaCalculateDecimal` as it is rounded. -/
def quotaCalculateDecimal (modelName : String) (apart : Bool) (c : Counts) (surcharge : ℚ) : ℚ :=
  if !p.usePrice then
    let charge := tokenCharge s p modelName apart c surcharge
    if ratio s p ≠ 0 ∧ charge ≤ 0 then 1 else charge
  else callCharge s p surcharge

/-- The quota of a charge. -/
def quotaOf (totalTokens : Int) (charge : ℚ) : Int :=
  let quota := saturatingInt64ToInt (intPart (roundHalfAway charge))
  if totalTokens = 0 then 0
  else if ratio s p ≠ 0 ∧ quota = 0 then 1
  else quota

/-- `textQuotaSummary`, with what later functions read of it. -/
structure Summary where
  counts : Counts
  isClaudeUsageSemantic : Bool
  toolCallSurchargeQuota : ℚ
  quota : Int

def calculateTextQuotaSummary (ctx : Context) (info : RelayInfo) (usage : Option Usage) : Summary :=
  let isClaudeUsageSemantic := usageSemanticFromUsage info usage = "anthropic"
  let usage := ((fallbackPromptOnlyUsage info usage).or usage).getD {}
  let counts := summaryCounts s info isClaudeUsageSemantic usage
  let legacyClaudeDerived := isLegacyClaudeDerivedOpenAIUsage info usage
  let surcharge := calculateTextToolCallSurcharge s ctx info
  let charge := quotaCalculateDecimal s info.priceData info.originModelName
    (isClaudeUsageSemantic || legacyClaudeDerived) counts surcharge
  { counts
    isClaudeUsageSemantic
    toolCallSurchargeQuota := surcharge
    quota := quotaOf s info.priceData counts.totalTokens charge }

end Quota

end CodeGo.Billing.TextQuota
