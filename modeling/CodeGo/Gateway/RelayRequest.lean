import CodeGo.Gateway.AutoGroups
import CodeGo.Billing.Session

/-!
# The relay entry point

`relayRequest` of `internal/gateway/transport/http/relay_handlers.go` and its helpers in
`relay_runtime.go`: the checks of a request, the retry loop over channels, and the deferred
cleanup. What the steps outside routing and billing answer is part of the input, one `Round`
for each pass of the loop.
-/

namespace CodeGo.Gateway.RelayRequest

open Billing.Session Types.ApiError AutoGroups

/-- The settings that the entry point reads. -/
structure Config where
  routing : Settings
  retryRanges : List StatusCodeRange := automaticRetryStatusCodeRanges
  /-- `calcViolationFeeQuota` of the fee, nothing where it is switched off -/
  violationFee : Int := 0

structure PriceData where
  freeModel : Bool
  quotaToPreConsume : Int
  deriving DecidableEq, Repr

/-- What one pass of the retry loop meets. -/
structure Round where
  /-- what other requests and expiry did to the circuits before the selection -/
  others : Circuits → Circuits
  selectedAt : Int
  health : Availability
  lookupErr : Option String
  /-- `SetupContextForSelectedChannel` -/
  setup : Option NewAPIError
  /-- `ModelPriceHelper` -/
  price : Except String PriceData
  /-- `restoreRelayRequestBody` -/
  body : Option NewAPIError
  /-- whether the channel bills the Claude wallet -/
  claude : Bool
  /-- the error of the handler, or the quota that it settles the request at -/
  answer : Except NewAPIError Int
  skipRetryAfterAffinity : Bool
  specificChannel : Bool
  responseBodyDelivered : Bool
  modelUnavailableWithAlternative : Bool
  failedAt : Int

/-- The state of one request in the retry loop. -/
structure RelayState (σ : Type) where
  circuits : Circuits
  retryParam : RetryParam
  /-- whether `relayInfo.ChannelMeta` is set -/
  channelMeta : Bool := false
  billing : RelayBilling σ
  lastError : Option NewAPIError := none
  /-- the length of `use_channel` -/
  usedChannels : Nat := 0
  /-- the selections so far -/
  turns : List Turn := []

/-- How the retry loop ends. -/
inductive Exit where
  | served
  | noChannel (err : NewAPIError)
  | failed (err : NewAPIError)
  /-- the loop condition does not hold any more -/
  | exhausted
  deriving DecidableEq, Repr

section Attempt

/-- `retryTimes` is what is left of the retries. -/
def shouldRetry (cfg : Config) (r : Round) (err : NewAPIError) (retryTimes : Int) : Bool :=
  if r.skipRetryAfterAffinity then false
  else if retryTimes ≤ 0 then false
  else if r.specificChannel then false
  else if r.responseBodyDelivered then false
  else if isChannelError err then true
  else if isSkipRetryError err then false
  else if isModelScopedUpstreamFailure err then r.modelUnavailableWithAlternative
  else if 200 ≤ err.statusCode ∧ err.statusCode < 300 then false
  else if err.statusCode < 100 ∨ 599 < err.statusCode then true
  else if isAlwaysSkipRetryCode err.errorCode then false
  else shouldRetryByStatusCode cfg.retryRanges err.statusCode

/-- The group whose circuit an attempt counts for. -/
def selectedAutoGroup (p : RetryParam) : String :=
  if p.tokenGroup = autoGroupName then p.ctx.autoGroup else ""

/-- The group that an error of the selection names. -/
def selectGroup (p : RetryParam) : String := p.tokenGroup

def channelLookupFailed (p : RetryParam) (err : String) : NewAPIError :=
  (newError (some ("获取分组 " ++ selectGroup p ++ " 下模型 " ++ p.modelName ++
    " 的可用渠道失败（retry）：" ++ err)) errorCodeGetChannelFailed).withSkipRetry

def noAvailableChannel (p : RetryParam) : NewAPIError :=
  (newError (some ("分组 " ++ selectGroup p ++ " 下模型 " ++ p.modelName ++
    " 的可用渠道不存在（retry）")) errorCodeGetChannelFailed).withSkipRetry

variable {σ ℓ : Type} (cfg : Config) (a : Accounts σ ℓ) (info : RelayInfo)

/-- The first pass has the channel of the context. -/
def getChannel (r : Round) (st : RelayState σ) : RelayState σ × Option Exit :=
  if st.channelMeta = false then (st, none)
  else
    let circuits := r.others st.circuits
    match cacheGetRandomSatisfiedChannel cfg.routing circuits r.selectedAt r.health r.lookupErr
        st.retryParam with
    | .error err => ({ st with circuits }, some (.failed (channelLookupFailed st.retryParam err)))
    | .ok (turn, retryParam) =>
      let st := { st with circuits, retryParam, turns := st.turns ++ [turn] }
      match turn.selected with
      | none => (st, some (.noChannel (noAvailableChannel st.retryParam)))
      | some _ => (st, r.setup.map .failed)

/-- The handler failed: the next pass is for another try, where one is allowed. -/
def handleFailure (r : Round) (err : NewAPIError) (st : RelayState σ) :
    RelayState σ × Option Exit :=
  let err := normalizeViolationFeeError err
  let st := { st with lastError := some err }
  if shouldRetry cfg r err (cfg.routing.retryTimes - st.retryParam.retry) then
    ({ st with
       circuits := recordAutoGroupFailure (selectedAutoGroup st.retryParam)
         st.retryParam.modelName r.failedAt st.circuits
       retryParam := st.retryParam.increaseRetry }, none)
  else (st, some (.failed err))

/-- The handler settles the request when it succeeds; what the settlement reports is logged. -/
def handle (r : Round) (st : RelayState σ) : RelayState σ × Option Exit :=
  match r.answer with
  | .error err => handleFailure cfg r err st
  | .ok actualQuota =>
    ({ st with
       billing := (settleRelayBilling a info actualQuota st.billing).2
       circuits := recordAutoGroupSuccess (selectedAutoGroup st.retryParam)
         st.retryParam.modelName st.circuits
       lastError := none }, some .served)

def preConsumeRound (r : Round) (price : PriceData) (st : RelayState σ) :
    Option NewAPIError × RelayState σ :=
  if price.freeModel then (none, st)
  else
    let result := preConsumeRelayBilling a info r.claude price.quotaToPreConsume st.billing
    (result.1, { st with billing := result.2 })

def attempt (r : Round) (st : RelayState σ) : RelayState σ × Option Exit :=
  let st := { st with channelMeta := true }
  match r.price with
  | .error err =>
    (st, some (.failed (newErrorWithStatusCode (some err) errorCodeModelPriceError 400)))
  | .ok price =>
    let st := { st with usedChannels := st.usedChannels + 1 }
    match r.body with
    | some err => (st, some (.failed err))
    | none =>
      match preConsumeRound a info r price st with
      | (some err, st) => (st, some (.failed err))
      | (none, st) => handle cfg a info r st

def relayRound (r : Round) (st : RelayState σ) : RelayState σ × Option Exit :=
  match getChannel cfg r st with
  | (st, some exit) => (st, some exit)
  | (st, none) => attempt cfg a info r st

/-- The retry loop, as far as the rounds go. -/
def relayLoop : List Round → RelayState σ → RelayState σ × Option Exit
  | [], st => (st, none)
  | r :: rounds, st =>
    if (st.retryParam.retry : Int) ≤ cfg.routing.retryTimes then
      match relayRound cfg a info r st with
      | (st, some exit) => (st, some exit)
      | (st, none) => relayLoop rounds st
    else (st, some .exhausted)

end Attempt

/-- How the middleware finds the channel of the first pass: by a selection, or by the affinity of
the request to a channel, which is enabled in `group`. -/
inductive First where
  | selected (now : Int) (health : Availability)
  | affinity (group : String) (channel : Channel) (health : Availability)

/-- The part of `Distribute` for the automatic groups; `none` where it aborts the request. -/
def distribute {σ : Type} (s : Settings) (modelName : String) (crossGroupRetry : Bool)
    (circuits : Circuits) (billing : RelayBilling σ) : First → Option (RelayState σ)
  | .selected now health =>
    match cacheGetRandomSatisfiedChannel s circuits now health none
        { ctx := { crossGroupRetry }, tokenGroup := autoGroupName, modelName } with
    | .error _ => none
    | .ok (turn, p) =>
      turn.selected.map fun _ =>
        { circuits
          retryParam := { ctx := p.ctx, tokenGroup := autoGroupName, modelName }
          billing
          turns := [turn] }
  | .affinity group channel health =>
    if group ∈ getUserAutoGroup s then
      some
        { circuits
          retryParam :=
            { ctx := { crossGroupRetry, autoGroup := group }
              tokenGroup := autoGroupName
              modelName }
          billing
          turns := [{ ranking := [group], start := 0, retry := 0, health,
                      selected := some { position := 0, group, priorityRetry := 0, channel } }] }
    else none

section Request

/-- What the checks before the loop meet. -/
structure Request where
  /-- whether the connection was upgraded, where the format needs it -/
  upgraded : Bool := true
  /-- the error of the validation, and whether the body was too large -/
  invalid : Option (String × Bool) := none
  relayInfo : Except String RelayInfo
  /-- the refusal of a group with ratio 0 -/
  zeroHour : Option NewAPIError := none
  sensitive : Bool := false
  tokenErr : Option String := none
  priceErr : Option String := none

def invalidRequest (err : String) (tooLarge : Bool) : NewAPIError :=
  if tooLarge then
    (newErrorWithStatusCode (some err) errorCodeReadRequestBodyFailed 413).withSkipRetry
  else newError (some err) errorCodeInvalidRequest

/-- The error of the first check after the relay info that fails. -/
def checkRequest (req : Request) : Option NewAPIError :=
  match req.zeroHour with
  | some err => some err
  | none =>
    if req.sensitive then some (newError none errorCodeSensitiveWordsDetected)
    else match req.tokenErr with
      | some err => some (newError (some err) errorCodeCountTokenFailed)
      | none => req.priceErr.map fun err =>
          newErrorWithStatusCode (some err) errorCodeModelPriceError 400

inductive Response where
  /-- the upgrade failed and was answered already -/
  | notUpgraded
  | served
  | error (err : NewAPIError)
  /-- nothing was sent -/
  | silent
  | panic
  deriving DecidableEq, Repr

variable {σ ℓ : Type} (cfg : Config) (a : Accounts σ ℓ)

def chargeViolationFeeIfNeeded (info : RelayInfo) (err : NewAPIError) (b : RelayBilling σ) :
    RelayBilling σ :=
  if shouldChargeViolationFee err ∧ cfg.violationFee > 0 then
    (chargeQuota a info cfg.violationFee b).2
  else b

/-- The deferred cleanup. It reads `relayInfo.Billing`, which panics without a relay info. -/
def cleanup (relayInfo : Option RelayInfo) (err : Option NewAPIError) (b : RelayBilling σ) :
    RelayBilling σ × Response :=
  match err with
  | none => (b, .silent)
  | some err =>
    let err := normalizeViolationFeeError err
    match relayInfo with
    | none => (b, .panic)
    | some info =>
      (chargeViolationFeeIfNeeded cfg a info err (refundRelayBilling a info b), .error err)

/-- The error that the loop leaves for the cleanup. -/
def exitError (st : RelayState σ) : Exit → Option NewAPIError
  | .served => none
  | .noChannel err => some err
  | .failed err => some err
  | .exhausted => st.lastError

/-- The end of a request whose loop has ended. -/
def finish (info : RelayInfo) (st : RelayState σ) (exit : Exit) : RelayBilling σ × Response :=
  match exit with
  | .served => (st.billing, .served)
  | exit => cleanup cfg a (some info) (exitError st exit) st.billing

/-- The whole request from the state that the middleware leaves; `none` as long as the rounds do
not end its loop. -/
def relayRequest (req : Request) (rounds : List Round) (st : RelayState σ) :
    Option (RelayBilling σ × Response) :=
  if req.upgraded = false then some (st.billing, .notUpgraded)
  else match req.invalid with
    | some (err, tooLarge) => some (cleanup cfg a none (some (invalidRequest err tooLarge)) st.billing)
    | none =>
      match req.relayInfo with
      | .error err =>
        some (cleanup cfg a none (some (newError (some err) errorCodeGenRelayInfoFailed)) st.billing)
      | .ok info =>
        match checkRequest req with
        | some err => some (cleanup cfg a (some info) (some err) st.billing)
        | none =>
          match relayLoop cfg a info rounds st with
          | (_, none) => none
          | (st, some exit) => some (finish cfg a info st exit)

end Request

end CodeGo.Gateway.RelayRequest
