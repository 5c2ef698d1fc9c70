import CodeGo.Gateway.RequestValidation
import CodeGo.Lib.Binary64
import CodeGo.Lib.Wrap

/-!
# What a request is charged

`ModelPriceHelper` sets the quota that is held before a request is sent, and
`calculateTextQuotaSummary` the quota of a request that is charged per call. Prices and ratios are
`float64` values; `newFromFloat` is the conversion of the decimal package.
-/

namespace CodeGo.Gateway.Pricing

open CodeGo.Lib CodeGo.Lib.Binary64
open Validation

structure TokenCountMeta where
  maxTokens : Int := 0
  imagePriceRatio : Value := .finite 0
  deriving DecidableEq, Repr

/-- The conversion of an unsigned to a signed integer. -/
def intOfUint (v : UInt64) : Int := Wrap.wrap64 v.toNat

/-- The larger of two limits. -/
def largerLimit (maxTokens maxCompletionTokens : Option UInt64) : Int :=
  if (maxTokens.getD 0).toNat < (maxCompletionTokens.getD 0).toNat then
    intOfUint (maxCompletionTokens.getD 0)
  else intOfUint (maxTokens.getD 0)

def sizeRatio (r : ImageRequest) : ℚ :=
  if !r.model.startsWith "dall-e" then 1
  else if r.size = "256x256" then 2 / 5
  else if r.size = "512x512" then 9 / 20
  else if r.size = "1024x1792" ∨ r.size = "1792x1024" then 2
  else 1

def qualityRatio (r : ImageRequest) : ℚ :=
  if r.model = "dall-e-3" ∧ r.quality = "hd" then
    if r.size = "1024x1792" ∨ r.size = "1792x1024" then 3 / 2 else 2
  else 1

/-- The number of images is no part of the ratio. -/
def imageMeta (r : ImageRequest) : TokenCountMeta :=
  { maxTokens := 1584
    imagePriceRatio := mul (ofRat (sizeRatio r)) (ofRat (qualityRatio r)) }

def getTokenCountMeta : Request → TokenCountMeta
  | .general r => { maxTokens := largerLimit r.maxTokens r.maxCompletionTokens }
  | .claude r => { maxTokens := (r.maxTokens.map intOfUint).getD 0 }
  | .gemini r => { maxTokens := (r.maxOutputTokens.map intOfUint).getD 0 }
  | .responses r => { maxTokens := (r.maxOutputTokens.map intOfUint).getD 0 }
  | .image r => imageMeta r
  | _ => {}

/-- Where tokens are not counted, the limits of Gemini are not read either. -/
def fastTokenCountMetaForPricing : Request → TokenCountMeta
  | .general r => { maxTokens := largerLimit r.maxTokens r.maxCompletionTokens }
  | .claude r => { maxTokens := (r.maxTokens.map intOfUint).getD 0 }
  | .responses r => { maxTokens := (r.maxOutputTokens.map intOfUint).getD 0 }
  | .image r => imageMeta r
  | _ => {}

/-- The settings of the model and the group of a request, all of them values of `float64`. A model is
priced per call, per token, or by an expression of the tokens. -/
inductive Billing where
  | price (modelPrice : ℚ)
  | ratio (modelRatio : ℚ) (configured : Bool)
  | tieredExpr (cost : Int → Int → Option ℚ)

structure Settings where
  billing : Billing
  groupRatio : ℚ
  quotaPerUnit : ℚ
  preConsumedQuota : Int
  acceptUnsetRatioModel : Bool := false
  enableFreeModelPreConsume : Bool := false

structure PriceData where
  freeModel : Bool := false
  modelPrice : Value := .finite 0
  modelRatio : ℚ := 0
  groupRatio : ℚ
  usePrice : Bool := false
  quotaToPreConsume : Int := 0
  otherRatios : List (String × Value) := []

/-- `math.Round`: halves are rounded away from zero. -/
def roundHalfAway (x : ℚ) : Int := if 0 ≤ x then ⌊x + 1 / 2⌋ else -⌊-x + 1 / 2⌋

def quotaRound : Value → Int
  | .finite x => toInt (.finite (roundHalfAway x))
  | v => toInt v

/-- The price of a call; larger images have a larger one. -/
def imagePrice (price : ℚ) (tokenMeta : TokenCountMeta) : Value :=
  if tokenMeta.imagePriceRatio ≠ .finite 0 then mul (.finite price) tokenMeta.imagePriceRatio
  else .finite price

def isFree (s : Settings) (price : Value) : Bool :=
  s.groupRatio = 0 || (!s.enableFreeModelPreConsume && price = .finite 0)

/-- The product that becomes the quota of a call. -/
def priceProduct (s : Settings) (modelPrice : Value) : Value :=
  mul (mul modelPrice (.finite s.quotaPerUnit)) (.finite s.groupRatio)

def preConsumedTokens (s : Settings) (promptTokens maxTokens : Int) : Int :=
  let tokens := max promptTokens s.preConsumedQuota
  if maxTokens ≠ 0 then Wrap.wrap64 (tokens + maxTokens) else tokens

/-- The product that becomes the quota of the tokens. -/
def tokenProduct (s : Settings) (modelRatio : ℚ) (tokens : Int) : Value :=
  mul (ofRat tokens) (ofRat (modelRatio * s.groupRatio))

/-- The product that is rounded to the quota of an expression. -/
def tieredProduct (s : Settings) (rawCost : ℚ) : Value :=
  mul (mul (ofRat (rawCost / 1000000)) (.finite s.quotaPerUnit)) (.finite s.groupRatio)

def modelPriceHelper (s : Settings) (promptTokens : Int) (tokenMeta : TokenCountMeta) :
    Except String PriceData :=
  match s.billing with
  | .tieredExpr cost =>
    match cost promptTokens tokenMeta.maxTokens with
    | none => .error "tiered expr run failed"
    | some rawCost =>
      let freeModel := s.groupRatio = 0
      let quota := quotaRound (tieredProduct s rawCost)
      .ok { freeModel
            groupRatio := s.groupRatio
            quotaToPreConsume := if freeModel then 0 else quota }
  | .ratio modelRatio configured =>
    if !configured ∧ !s.acceptUnsetRatioModel then .error "model price not configured"
    else
      let tokens := preConsumedTokens s promptTokens tokenMeta.maxTokens
      let quota := toInt (tokenProduct s modelRatio tokens)
      let freeModel := isFree s (.finite modelRatio)
      .ok { freeModel
            modelRatio
            groupRatio := s.groupRatio
            quotaToPreConsume := if freeModel then 0 else quota }
  | .price price =>
    let modelPrice := imagePrice price tokenMeta
    let quota := toInt (priceProduct s modelPrice)
    let freeModel := isFree s modelPrice
    .ok { freeModel
          modelPrice
          groupRatio := s.groupRatio
          usePrice := true
          quotaToPreConsume := if freeModel then 0 else quota }

section PerCall

def PriceData.addOtherRatio (p : PriceData) (key : String) (ratio : Value) : PriceData :=
  match ratio with
  | .finite x =>
    if x ≤ 0 then p
    else { p with otherRatios := p.otherRatios.filter (·.1 ≠ key) ++ [(key, ratio)] }
  | .negInf => p
  | _ => { p with otherRatios := p.otherRatios.filter (·.1 ≠ key) ++ [(key, ratio)] }

/-- The factor that `ImageHelper` adds for the images of a request, unless the adaptor has set it. -/
def addImageCount (request : ImageRequest) (p : PriceData) : PriceData :=
  let imageN := (request.n.getD 1).toNat
  if p.usePrice ∧ !(p.otherRatios.any fun r => r.1 = "n") then
    p.addOtherRatio "n" (ofRat imageN)
  else p

/-- A number without fraction, as the 64 bits that are taken of it. -/
def intPart (x : Int) : Int := Wrap.wrap64 x

def saturatingInt64ToInt (value : Int) : Int := if value ≤ 0 then 0 else value

variable (newFromFloat : ℚ → ℚ)

/-- `decimal.NewFromFloat`, which panics for values that are not finite. -/
def decimalOf : Value → Option ℚ
  | .finite x => some (newFromFloat x)
  | _ => none

/-- The price of one call. -/
def pricePerCall (s : Settings) (p : PriceData) (toolCallSurchargeQuota : ℚ) : Option ℚ :=
  (decimalOf newFromFloat p.modelPrice).map fun price =>
    price * newFromFloat s.quotaPerUnit * newFromFloat p.groupRatio + toolCallSurchargeQuota

/-- The quota of a request that is charged per call. -/
def perCallQuota (s : Settings) (p : PriceData) (toolCallSurchargeQuota : ℚ) (totalTokens : Int) :
    Option Int := do
  let price ← pricePerCall newFromFloat s p toolCallSurchargeQuota
  let total ← p.otherRatios.foldlM
    (fun (quota : ℚ) r => (decimalOf newFromFloat r.2).map (quota * ·)) price
  let quota := saturatingInt64ToInt (intPart (roundHalfAway total))
  let ratio := newFromFloat p.modelRatio * newFromFloat p.groupRatio
  if totalTokens = 0 then some 0
  else if ratio ≠ 0 ∧ quota = 0 then some 1
  else some quota

end PerCall

end CodeGo.Gateway.Pricing
