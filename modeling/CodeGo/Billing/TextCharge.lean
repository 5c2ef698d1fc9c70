import CodeGo.Billing.TextQuota

/-!
# Charges for text and their quotas

A quota is the charge rounded to a whole number, where that has 64 bits; a request with
tokens and a ratio costs at least one. More tokens cost no less, unless other numbers take
the place of what the usage says: the estimate of the prompt or of the cache writes.
-/

namespace CodeGo.Billing.TextQuota

open Lib
open Gateway.Pricing (roundHalfAway intPart saturatingInt64ToInt)

section Charge

variable (s : Settings) (ctx : Context) (info : RelayInfo) (usage : Usage)

/-- The usage that is charged. -/
def chargedUsage : Usage := (fallbackPromptOnlyUsage info (some usage)).getD usage

def isClaude : Bool := usageSemanticFromUsage info (some usage) = "anthropic"

def chargedCounts : Counts := summaryCounts s info (isClaude info usage) (chargedUsage info usage)

/-- The exact charge of a request. -/
def exactCharge : ℚ :=
  quotaCalculateDecimal s info.priceData info.originModelName
    (isClaude info usage || isLegacyClaudeDerivedOpenAIUsage info (chargedUsage info usage))
    (chargedCounts s info usage) (calculateTextToolCallSurcharge s ctx info)

/-- The charge is rounded to a number of 64 bits. -/
def Fits : Prop := Wrap.InRange (roundHalfAway (exactCharge s ctx info usage))

/-- The cache writes of the request are estimated from its cost. -/
def Estimated : Prop :=
  isOpenRouterClaudeBilling info (isClaude info usage) = true ∧ estimates s info usage = true

end Charge

/-- The ratios and the price of a model are not negative, and stay so as decimals. -/
structure NonNegative (s : Settings) (p : PriceData) : Prop where
  decimal : ∀ x, 0 ≤ x → 0 ≤ s.newFromFloat x
  modelRatio : 0 ≤ p.modelRatio
  groupRatio : 0 ≤ p.groupRatio
  completionRatio : 0 ≤ p.completionRatio
  otherRatios : ∀ r ∈ p.otherRatios, 0 ≤ r.2

variable {s : Settings} {p : PriceData} {ctx : Context} {info : RelayInfo} {usage : Usage}

theorem calculateTextQuotaSummary_counts :
    (calculateTextQuotaSummary s ctx info (some usage)).counts = chargedCounts s info usage := by
  unfold calculateTextQuotaSummary chargedCounts chargedUsage isClaude
  cases fallbackPromptOnlyUsage info (some usage) <;> rfl

theorem calculateTextQuotaSummary_quota :
    (calculateTextQuotaSummary s ctx info (some usage)).quota =
      quotaOf s info.priceData (chargedCounts s info usage).totalTokens
        (exactCharge s ctx info usage) := by
  unfold calculateTextQuotaSummary exactCharge chargedCounts chargedUsage isClaude
  cases fallbackPromptOnlyUsage info (some usage) <;> rfl

theorem usageSemanticFromUsage_some :
    usageSemanticFromUsage info (some usage) =
      if usage.usageSemantic ≠ "" then usage.usageSemantic
      else if info.getFinalRequestRelayFormat = "claude" then "anthropic" else "openai" := by
  unfold usageSemanticFromUsage
  by_cases h : usage.usageSemantic = "" <;> simp [Option.filter, h]

theorem roundHalfAway_mono {x y : ℚ} (h : x ≤ y) : roundHalfAway x ≤ roundHalfAway y := by
  unfold roundHalfAway
  split <;> split
  · exact Int.floor_le_floor (by linarith)
  · linarith
  · have hx : 0 ≤ ⌊-x + 1 / 2⌋ := Int.floor_nonneg.2 (by linarith)
    have hy : 0 ≤ ⌊y + 1 / 2⌋ := Int.floor_nonneg.2 (by linarith)
    omega
  · have := Int.floor_le_floor (show -y + 1 / 2 ≤ -x + 1 / 2 by linarith)
    omega

/-- What is rounded to one or less does not differ after the rounding. -/
theorem roundHalfAway_raised (x : ℚ) (c : Prop) [Decidable c] :
    max 1 (roundHalfAway (if c ∧ x ≤ 0 then 1 else x)) = max 1 (roundHalfAway x) := by
  split
  next h =>
    have hx : roundHalfAway x ≤ roundHalfAway 0 := roundHalfAway_mono h.2
    have hzero : roundHalfAway 0 = 0 := by decide +kernel
    have hone : roundHalfAway 1 = 1 := by decide +kernel
    omega
  next => rfl

theorem saturating_nonneg (x : Int) : 0 ≤ saturatingInt64ToInt x := by
  unfold saturatingInt64ToInt
  split <;> omega

theorem saturating_eq_max (x : Int) : saturatingInt64ToInt x = max 0 x := by
  unfold saturatingInt64ToInt
  split <;> omega

theorem one_le_quotaOf {totalTokens : Int} (charge : ℚ) (htotal : totalTokens ≠ 0)
    (hratio : ratio s p ≠ 0) : 1 ≤ quotaOf s p totalTokens charge := by
  have h := saturating_nonneg (intPart (roundHalfAway charge))
  unfold quotaOf
  dsimp only
  rw [if_neg htotal]
  split
  next => omega
  next hne =>
    have : saturatingInt64ToInt (intPart (roundHalfAway charge)) ≠ 0 := fun e => hne ⟨hratio, e⟩
    omega

/-- The least quota of a request with tokens. -/
def leastQuota (s : Settings) (p : PriceData) : Int := if ratio s p ≠ 0 then 1 else 0

/-- A charge that fits is rounded, and raised to the least quota. -/
theorem quotaOf_eq {charge : ℚ} (totalTokens : Int)
    (hfits : Wrap.InRange (roundHalfAway charge)) :
    quotaOf s p totalTokens charge =
      if totalTokens = 0 then 0 else max (leastQuota s p) (roundHalfAway charge) := by
  have hint : intPart (roundHalfAway charge) = roundHalfAway charge :=
    Wrap.wrap64_of_inRange hfits
  unfold quotaOf leastQuota
  dsimp only
  rw [hint, saturating_eq_max]
  split
  · rfl
  · by_cases hratio : ratio s p ≠ 0
    · simp only [hratio, ne_eq, not_false_eq_true, true_and, if_true]
      split <;> omega
    · simp only [hratio, false_and, if_false]

section Monotone

/-- The same counts, but for a longer prompt or a longer completion. -/
structure Grows (c c' : Counts) : Prop where
  promptTokens : c.promptTokens ≤ c'.promptTokens
  completionTokens : c.completionTokens ≤ c'.completionTokens
  rest : c' = { c with
    promptTokens := c'.promptTokens
    completionTokens := c'.completionTokens
    totalTokens := c'.totalTokens }

theorem ratio_nonneg (h : NonNegative s p) : 0 ≤ ratio s p :=
  mul_nonneg (h.decimal _ h.modelRatio) (h.decimal _ h.groupRatio)

theorem mulOtherRatios_mono (h : NonNegative s p) {x y : ℚ} (hle : x ≤ y) :
    mulOtherRatios s p x ≤ mulOtherRatios s p y := by
  have hrest : ∀ (l : List (String × ℚ)) (x y : ℚ), (∀ r ∈ l, 0 ≤ r.2) → x ≤ y →
      l.foldl (fun quota r => quota * s.newFromFloat r.2) x ≤
        l.foldl (fun quota r => quota * s.newFromFloat r.2) y := by
    intro l
    induction l with
    | nil => exact fun _ _ _ hle => hle
    | cons r l ih =>
      intro x y hl hle
      apply ih _ _ (fun r hr => hl r (.tail _ hr))
      exact mul_le_mul_of_nonneg_right hle (h.decimal _ (hl r (.head _)))
  exact hrest p.otherRatios x y h.otherRatios hle

/-- A longer prompt and a longer completion do not lower the charge for the tokens. -/
theorem tokenCharge_mono (h : NonNegative s p) (modelName : String) (apart : Bool)
    (surcharge : ℚ) {c c' : Counts} (hgrows : Grows c c') :
    tokenCharge s p modelName apart c surcharge ≤ tokenCharge s p modelName apart c' surcharge := by
  obtain ⟨hprompt, hcompletion, hrest⟩ := hgrows
  have hcached : cachePart s p apart c' = cachePart s p apart c := by rw [hrest]; rfl
  have hcreated : creationPart s p apart c' = creationPart s p apart c := by rw [hrest]; rfl
  have himage : imagePart s p c' = imagePart s p c := by rw [hrest]; rfl
  have haudio : audioPart s p modelName c' = audioPart s p modelName c := by rw [hrest]; rfl
  unfold tokenCharge
  dsimp only
  rw [hcached, hcreated, himage, haudio]
  apply mulOtherRatios_mono h
  have hcompletionRatio := h.decimal _ h.completionRatio
  have hp : (c.promptTokens : ℚ) ≤ c'.promptTokens := by exact_mod_cast hprompt
  have hc : (c.completionTokens : ℚ) * s.newFromFloat p.completionRatio ≤
      c'.completionTokens * s.newFromFloat p.completionRatio := by
    apply mul_le_mul_of_nonneg_right _ hcompletionRatio
    exact_mod_cast hcompletion
  have hsum := mul_le_mul_of_nonneg_right (add_le_add hp hc) (ratio_nonneg h)
  push_cast
  linarith

theorem quotaCalculateDecimal_mono (h : NonNegative s p) (modelName : String) (apart : Bool)
    (surcharge : ℚ) {c c' : Counts} (hgrows : Grows c c') :
    max (leastQuota s p) (roundHalfAway (quotaCalculateDecimal s p modelName apart c surcharge)) ≤
      max (leastQuota s p)
        (roundHalfAway (quotaCalculateDecimal s p modelName apart c' surcharge)) := by
  unfold quotaCalculateDecimal
  dsimp only
  split
  · have hmono := roundHalfAway_mono (tokenCharge_mono h modelName apart surcharge hgrows)
    by_cases hratio : ratio s p ≠ 0
    · have hleast : leastQuota s p = 1 := if_pos hratio
      rw [hleast, roundHalfAway_raised, roundHalfAway_raised]
      omega
    · simp only [hratio, false_and, if_false]
      omega
  · exact le_refl _

variable (s info)

theorem countsOf_grows {prompt completion : Int} (hprompt : usage.promptTokens ≤ prompt)
    (hcompletion : usage.completionTokens ≤ completion) :
    Grows (countsOf usage)
      (countsOf { usage with promptTokens := prompt, completionTokens := completion }) :=
  ⟨hprompt, hcompletion, rfl⟩

theorem summaryCounts_grows {prompt completion : Int} {isClaude : Bool}
    (hprompt : usage.promptTokens ≤ prompt) (hcompletion : usage.completionTokens ≤ completion)
    (hestimate : ¬ (isOpenRouterClaudeBilling info isClaude = true ∧
      estimates s info usage = true)) :
    Grows (summaryCounts s info isClaude usage)
      (summaryCounts s info isClaude
        { usage with promptTokens := prompt, completionTokens := completion }) := by
  have hsame : estimates s info
      { usage with promptTokens := prompt, completionTokens := completion } =
        estimates s info usage := rfl
  unfold summaryCounts
  split
  next hopen =>
    have hno : estimates s info usage = false := by
      rw [← Bool.not_eq_true]
      exact fun h => hestimate ⟨hopen, h⟩
    unfold openRouterCounts
    dsimp only
    rw [hsame, hno]
    simp only [Bool.false_eq_true, false_and, if_false]
    refine ⟨?_, hcompletion, rfl⟩
    show usage.promptTokens - _ - _ ≤ prompt - _ - _
    apply Int.sub_le_sub_right
    apply Int.sub_le_sub_right hprompt
  next => exact countsOf_grows hprompt hcompletion

theorem summaryCounts_total (isClaude : Bool) :
    (summaryCounts s info isClaude usage).totalTokens =
      usage.promptTokens + usage.completionTokens := by
  unfold summaryCounts openRouterCounts
  split <;> rfl

end Monotone

/-- Tokens are not taken from the estimate when there are more of them. -/
theorem fallback_of_grows {prompt completion : Int} (h0 : 0 ≤ usage.promptTokens)
    (h0' : 0 ≤ usage.completionTokens) (hprompt : usage.promptTokens ≤ prompt)
    (hcompletion : usage.completionTokens ≤ completion)
    (h : fallbackPromptOnlyUsage info (some usage) = none) :
    fallbackPromptOnlyUsage info
      (some { usage with promptTokens := prompt, completionTokens := completion }) = none := by
  unfold fallbackPromptOnlyUsage at h ⊢
  split at h
  next hreported =>
    have hreported' : (some { usage with
        promptTokens := prompt, completionTokens := completion }).any (·.reported) = true := by
      simp only [Option.any_some, Usage.reported, Bool.or_eq_true, decide_eq_true_eq] at hreported ⊢
      omega
    rw [if_pos hreported']
  next =>
    split at h
    next hestimate => rw [if_pos hestimate, ite_self]
    next => cases h

section Samples

open Lib.Binary64 (ofRat)

def plainPrices : Settings where
  newFromFloat := id
  quotaPerUnit := 500000
  defaultModelRatio := fun _ => some 8
  priceForModel := fun _ _ => 0

/-- A model of which prompt and completion cost the same. -/
def perToken (modelRatio : ℚ) (estimatePromptTokens : Int) : RelayInfo where
  estimatePromptTokens
  priceData := { modelRatio, groupRatio := 1, completionRatio := 1 }

/-- A model at an upstream that counts the cache within the prompt. -/
def openRouter : RelayInfo where
  relayFormat := "claude"
  channelType := some channelTypeOpenRouter
  priceData :=
    { modelRatio := 8, groupRatio := 1, completionRatio := 1, cacheCreationRatio := 11 / 8 }

def costly (promptTokens : Int) : Usage where
  promptTokens
  cost := .float64 (ofRat (16 / 10000))

end Samples

end CodeGo.Billing.TextQuota
