import CodeGo.Billing.SessionLog
import Mathlib.Data.Rat.Floor

/-!
# Quota of realtime sessions

`realtime_quota.go` of `internal/billing/app`, and the realtime handler of the provider `openai`
that reports usage to it. Ratios are exact; the counting of tokens in a message is an input.
-/

namespace CodeGo.Billing.Realtime

open Lib Schema Session

structure TokenDetails where
  textTokens : Int := 0
  audioTokens : Int := 0
  deriving DecidableEq, Repr

structure RealtimeUsage where
  totalTokens : Int := 0
  inputTokens : Int := 0
  outputTokens : Int := 0
  cachedTokens : Int := 0
  inputTokenDetails : TokenDetails := {}
  outputTokenDetails : TokenDetails := {}
  deriving DecidableEq, Repr

def TokenDetails.add (d e : TokenDetails) : TokenDetails where
  textTokens := d.textTokens + e.textTokens
  audioTokens := d.audioTokens + e.audioTokens

def RealtimeUsage.add (u v : RealtimeUsage) : RealtimeUsage where
  totalTokens := u.totalTokens + v.totalTokens
  inputTokens := u.inputTokens + v.inputTokens
  outputTokens := u.outputTokens + v.outputTokens
  cachedTokens := u.cachedTokens + v.cachedTokens
  inputTokenDetails := u.inputTokenDetails.add v.inputTokenDetails
  outputTokenDetails := u.outputTokenDetails.add v.outputTokenDetails

section Quota

/-- `Decimal.IntPart`. -/
def intPart (x : ℚ) : Int := if 0 ≤ x then x.floor else -(-x).floor

/-- `Decimal.Round(0)` and `math.Round`: halves go away from zero. -/
def roundAway (x : ℚ) : Int := if 0 ≤ x then (x + 1 / 2).floor else -(-x + 1 / 2).floor

/-- The settings that realtime billing reads, and the discount rate of the user. -/
structure Ratios where
  completionRatio : String → ℚ
  audioRatio : String → ℚ
  audioCompletionRatio : String → ℚ
  modelRatio : String → ℚ
  groupRatio : String → ℚ
  groupGroupRatio : String → String → Option ℚ
  quotaPerUnit : ℚ
  consumptionDiscountRate : ℚ

structure QuotaInfo where
  inputDetails : TokenDetails
  outputDetails : TokenDetails
  modelName : String
  usePrice : Bool
  modelPrice : ℚ := 0
  modelRatio : ℚ
  groupRatio : ℚ

def calculateAudioQuota (s : Ratios) (info : QuotaInfo) : Int :=
  if info.usePrice then intPart (info.modelPrice * s.quotaPerUnit * info.groupRatio)
  else
    let completionRatio := s.completionRatio info.modelName
    let audioRatio := s.audioRatio info.modelName
    let audioCompletionRatio := s.audioCompletionRatio info.modelName
    let ratio := info.groupRatio * info.modelRatio
    let quota : ℚ := (info.inputDetails.textTokens + info.outputDetails.textTokens * completionRatio +
      info.inputDetails.audioTokens * audioRatio +
      info.outputDetails.audioTokens * audioRatio * audioCompletionRatio) * ratio
    let quota := if ratio ≠ 0 ∧ quota ≤ 0 then 1 else quota
    roundAway quota

def applyUsageConsumptionDiscount (s : Ratios) (quota : Int) : Int :=
  if quota ≤ 0 then quota
  else if s.consumptionDiscountRate ≤ 0 then quota
  else roundAway (quota * (1 - s.consumptionDiscountRate))

/-- The part of `RelayInfo` that realtime billing reads. No function sets `usePrice` of the relay
info; the price helper sets the one of the price data. -/
structure RealtimeInfo where
  usePrice : Bool := false
  originModelName : String
  upstreamModelName : String
  userGroup : String
  usingGroup : String
  /-- the group that the routing selected -/
  autoGroup : Option String := none
  priceUsePrice : Bool
  priceModelRatio : ℚ
  priceGroupRatio : ℚ
  /-- `TryTieredSettle`, nothing where the price is not tiered -/
  tieredQuota : RealtimeUsage → Option Int := fun _ => none

variable (s : Ratios) (ri : RealtimeInfo)

/-- The ratio of the group in use, unless the group of the user has one of its own for it. -/
def actualGroupRatio : ℚ :=
  let usingGroup := ri.autoGroup.getD ri.usingGroup
  (s.groupGroupRatio ri.userGroup usingGroup).getD (s.groupRatio usingGroup)

def preWssQuota (usage : RealtimeUsage) : Int :=
  applyUsageConsumptionDiscount s (calculateAudioQuota s {
    inputDetails := usage.inputTokenDetails
    outputDetails := usage.outputTokenDetails
    modelName := ri.originModelName
    usePrice := ri.usePrice
    modelRatio := s.modelRatio ri.originModelName
    groupRatio := actualGroupRatio s ri })

/-- The quota that the whole session is settled at. -/
def postWssQuota (usage : RealtimeUsage) : Int :=
  let quota := calculateAudioQuota s {
    inputDetails := usage.inputTokenDetails
    outputDetails := usage.outputTokenDetails
    modelName := ri.upstreamModelName
    usePrice := ri.priceUsePrice
    modelRatio := ri.priceModelRatio
    groupRatio := ri.priceGroupRatio }
  let quota := (ri.tieredQuota usage).getD quota
  let quota := applyUsageConsumptionDiscount s quota
  if usage.totalTokens = 0 then 0 else quota

end Quota

section Consume

/-- The accounts of a request, and its token: whether it is unlimited, and what it has left. -/
structure TokenAccounts (σ ℓ : Type) extends Accounts σ ℓ where
  getToken : Prog σ ℓ Err (Bool × Int)

/-- A reported usage, with what the accounts accepted of its charge. -/
structure Increment where
  usage : RealtimeUsage
  quota : Int := 0
  funding : Bool := false
  token : Bool := false
  deriving DecidableEq, Repr

def Increment.fundingDebit (i : Increment) : Int := if i.funding then i.quota else 0
def Increment.tokenDebit (i : Increment) : Int := if i.token then i.quota else 0

variable {σ ℓ : Type} (a : TokenAccounts σ ℓ) (info : RelayInfo)

/-- The funding side of `PostConsumeQuota`. -/
def consumeFunding (source : Option BillingSource) (quota : Int) : Prog σ ℓ Err Unit :=
  if source = some .subscription then
    if quota ≠ 0 then a.postSubscriptionUsageDelta quota else pure ()
  else a.adjustWalletQuota quota

/-- `PostConsumeQuota` for a usage, with a record of its two sides. -/
def consumeIncrement (usage : RealtimeUsage) (quota : Int) (b : RelayBilling σ) :
    Except Err Unit × RelayBilling σ × Increment :=
  match (consumeFunding a (b.billing.map BillingSession.funding) quota).run b.accounts with
  | (.error e, accounts) => (.error e, { b with accounts }, { usage, quota })
  | (.ok (), accounts) =>
    if info.isPlayground then (.ok (), { b with accounts }, { usage, quota, funding := true })
    else
      let r := (a.adjustTokenQuota quota).run accounts
      (r.1, { b with accounts := r.2 }, { usage, quota, funding := true, token := r.1.isOk })

variable (s : Ratios) (ri : RealtimeInfo)

def preWssConsumeQuota (usage : RealtimeUsage) (b : RelayBilling σ) :
    Except Err Unit × RelayBilling σ × Increment :=
  if ri.usePrice then (.ok (), b, { usage })
  else match (a.getUserQuota .wallet).run b.accounts with
  | (.error e, accounts) => (.error e, { b with accounts }, { usage })
  | (.ok userQuota, accounts) =>
    match a.getToken.run accounts with
    | (.error e, accounts) => (.error e, { b with accounts }, { usage })
    | (.ok (unlimitedQuota, remainQuota), accounts) =>
      let quota := preWssQuota s ri usage
      if userQuota < quota then
        (.error (.message "user quota is not enough"), { b with accounts }, { usage, quota })
      else if ¬ unlimitedQuota ∧ remainQuota < quota then
        (.error (.message "token quota is not enough"), { b with accounts }, { usage, quota })
      else consumeIncrement a info usage quota { b with accounts }

def postWssConsumeQuota (usage : RealtimeUsage) (b : RelayBilling σ) :
    Except Err Unit × RelayBilling σ :=
  settleRelayBilling a.toAccounts info (postWssQuota s ri usage) b

end Consume

section Handler

/-- What the two readers of a session take from the connections, with its counted tokens. -/
inductive Event where
  | client (textTokens audioTokens : Int)
  /-- `response.done` with the usage of the upstream -/
  | done (usage : RealtimeUsage)
  /-- `response.done` without a usage -/
  | doneCounted (textTokens audioTokens : Int)
  | other (textTokens audioTokens : Int)
  deriving DecidableEq, Repr

def inputUsage (textTokens audioTokens : Int) : RealtimeUsage where
  totalTokens := textTokens + audioTokens
  inputTokens := textTokens + audioTokens
  inputTokenDetails := { textTokens, audioTokens }

def outputUsage (textTokens audioTokens : Int) : RealtimeUsage where
  totalTokens := textTokens + audioTokens
  outputTokens := textTokens + audioTokens
  outputTokenDetails := { textTokens, audioTokens }

/-- The state of a realtime session. -/
structure Wss (σ : Type) where
  billing : RelayBilling σ
  usage : RealtimeUsage := {}
  localUsage : RealtimeUsage := {}
  sumUsage : RealtimeUsage := {}
  /-- the usages that were reported -/
  increments : List Increment := []

variable {σ ℓ : Type} (a : TokenAccounts σ ℓ) (info : RelayInfo) (s : Ratios) (ri : RealtimeInfo)

/-- The usage counts for the session before it is charged, whether that succeeds or not. -/
def preConsumeUsage (usage : RealtimeUsage) (w : Wss σ) : Except Err Unit × Wss σ :=
  let r := preWssConsumeQuota a info s ri usage w.billing
  (r.1, { w with
    billing := r.2.1
    sumUsage := w.sumUsage.add usage
    increments := w.increments ++ [r.2.2] })

def onEvent (e : Event) (w : Wss σ) : Except Err Unit × Wss σ :=
  match e with
  | .client textTokens audioTokens =>
    (.ok (), { w with localUsage := w.localUsage.add (inputUsage textTokens audioTokens) })
  | .done usage =>
    let w := { w with usage := w.usage.add usage }
    match preConsumeUsage a info s ri w.usage w with
    | (.error e, w) => (.error e, w)
    | (.ok (), w) => (.ok (), { w with usage := {}, localUsage := {} })
  | .doneCounted textTokens audioTokens =>
    let w := { w with localUsage := w.localUsage.add (inputUsage textTokens audioTokens) }
    match preConsumeUsage a info s ri w.localUsage w with
    | (.error e, w) => (.error e, w)
    | (.ok (), w) => (.ok (), { w with localUsage := {} })
  | .other textTokens audioTokens =>
    (.ok (), { w with localUsage := w.localUsage.add (outputUsage textTokens audioTokens) })

/-- The first error ends the session. -/
def onEvents : List Event → Wss σ → Wss σ
  | [], w => w
  | e :: events, w =>
    match onEvent a info s ri e w with
    | (.error _, w) => w
    | (.ok (), w) => onEvents events w

/-- What is left at the end of the session is reported too; errors are dropped. -/
def reportRest (usage : RealtimeUsage) (w : Wss σ) : Wss σ :=
  if usage.totalTokens ≠ 0 then (preConsumeUsage a info s ri usage w).2 else w

def openaiRealtimeHandler (events : List Event) (w : Wss σ) : Wss σ :=
  let w := onEvents a info s ri events w
  let w := reportRest a info s ri w.usage w
  reportRest a info s ri w.localUsage w

/-- The session and its settlement, whose error is logged. -/
def wssHelper (events : List Event) (b : RelayBilling σ) : Except Err Unit × Wss σ :=
  let w := openaiRealtimeHandler a info s ri events { billing := b }
  let r := postWssConsumeQuota a info s ri w.sumUsage w.billing
  (r.1, { w with billing := r.2 })

/-- The pre-consumption of the relay entry point, which a free model skips. -/
def openBilling (claude freeModel : Bool) (quotaToPreConsume : Int) (accounts : σ) :
    Option Types.ApiError.NewAPIError × RelayBilling σ :=
  if freeModel then (none, { accounts })
  else preConsumeRelayBilling a.toAccounts info claude quotaToPreConsume { accounts }

end Handler

end CodeGo.Billing.Realtime
