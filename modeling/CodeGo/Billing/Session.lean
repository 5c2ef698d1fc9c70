import CodeGo.Billing.Wallet
import CodeGo.Types.ApiError

/-!
# Billing sessions

`session.go` and `relay_billing.go` of `internal/billing/app`. A session charges one relay
request on a funding source and on the token. What the calls on these do is a parameter; beside
the state they act on, each call is recorded with whether it was accepted.
-/

namespace CodeGo.Billing.Session

open Lib Lib.Trim Schema Types.ApiError

inductive BillingSource where
  | wallet | claudeWallet | subscription
  deriving DecidableEq, Repr

def BillingSource.text : BillingSource → String
  | .wallet => "wallet"
  | .claudeWallet => "claude_wallet"
  | .subscription => "subscription"

/-- A funding source, whose object is part of the state. -/
structure Funding (σ ℓ : Type) where
  preConsume : Int → Prog σ ℓ Err Unit
  settle : Int → Prog σ ℓ Err Unit
  refund : Prog σ ℓ Err Unit

/-- What a relay request is charged on. -/
structure Accounts (σ ℓ : Type) where
  getUserQuota : BillingSource → Prog σ ℓ Err Int
  /-- the object of a source, which for a subscription knows the amount -/
  newFunding : BillingSource → Int → Prog σ ℓ Err Unit
  funding : BillingSource → Funding σ ℓ
  /-- what the subscription of the session holds -/
  preConsumed : σ → Int
  /-- of the subscription, the only source that can reserve more -/
  reserveAdditional : Int → Prog σ ℓ Err Unit
  preConsumeTokenQuota : Int → Prog σ ℓ Err Unit
  adjustTokenQuota : Int → Prog σ ℓ Err Unit
  adjustWalletQuota : Int → Prog σ ℓ Err Unit
  postSubscriptionUsageDelta : Int → Prog σ ℓ Err Unit

/-- The calls of a request on its accounts. -/
inductive Call where
  | fundingPreConsume (source : BillingSource) (amount : Int)
  | fundingReserve (amount : Int)
  | fundingSettle (delta : Int)
  | fundingRefund
  | tokenPreConsume (amount : Int)
  | tokenSettle (delta : Int)
  | tokenGiveBack (amount : Int)
  /-- the reservation of a trusted session at its settlement -/
  | trustedFunding (amount : Int)
  | trustedToken (amount : Int)
  | charge (quota : Int)
  deriving DecidableEq, Repr

structure BillingSession where
  funding : BillingSource
  preConsumedQuota : Int := 0
  tokenConsumed : Int := 0
  extraReserved : Int := 0
  trusted : Bool := false
  fundingSettled : Bool := false
  settled : Bool := false
  refunded : Bool := false
  deriving DecidableEq, Repr

/-- The part of `RelayInfo`, its context and the settings that billing reads. -/
structure RelayInfo where
  tokenUnlimited : Bool
  isPlayground : Bool
  forcePreConsume : Bool
  billingPreference : String
  fundingSourceOrder : List String
  tokenQuota : Int
  trustQuota : Int
  deriving DecidableEq, Repr

/-- The accounts and one session on them. -/
structure Live (σ : Type) where
  accounts : σ
  session : BillingSession
  calls : List (Call × Bool)

abbrev SessionM (σ ℓ α : Type) := Prog (Live σ) (Option ℓ) Err α

section Actions

variable {σ ℓ α : Type}

def onAccounts (p : Prog σ ℓ Err α) : SessionM σ ℓ α :=
  p.zoom Live.accounts (fun s t => { t with accounts := s }) some

def self : SessionM σ ℓ BillingSession := .step none fun t => (t.session, t)

def update (f : BillingSession → BillingSession) : SessionM σ ℓ Unit :=
  .step none fun t => ((), { t with session := f t.session })

def record (c : Call) (accepted : Bool) : SessionM σ ℓ Unit :=
  .step none fun t => ((), { t with calls := t.calls ++ [(c, accepted)] })

/-- A call on the accounts, with a record of whether it was accepted. -/
def call (c : Call) (p : Prog σ ℓ Err Unit) : SessionM σ ℓ Unit := do
  match ← (onAccounts p).attempt with
  | .ok () => record c true
  | .error e =>
    record c false
    .fail e

end Actions

/-- `errors.Is(err, ErrInsufficientBalance)` -/
def isInsufficientBalance : Err → Bool
  | .insufficientBalance => true
  | .wrap _ cause => isInsufficientBalance cause
  | .join first second => isInsufficientBalance first || isInsufficientBalance second
  | _ => false

def errText : Err → String
  | .ledgerConflict => "billing ledger idempotency conflict"
  | .insufficientBalance => "billing account available balance is insufficient"
  | .reservationNotOpen => "billing reservation is not open"
  | .reservationNotFound => "billing reservation not found"
  | .settlementAlreadyExist => "billing settlement already exists for reservation"
  | .recordNotFound => "record not found"
  | .duplicateKey => "duplicated key not allowed"
  | .outOfRange => "value out of range"
  | .message text => text
  | .wrap text cause => text ++ ": " ++ errText cause
  | .join first second => errText first ++ "\n" ++ errText second

def insufficientMessage : BillingSource → String
  | .subscription => "subscription quota insufficient or unavailable"
  | .claudeWallet => "Claude wallet quota insufficient"
  | .wallet => "wallet quota insufficient"

/-- A refusal that no retry helps against. -/
def refusal (text errorCode : String) (statusCode : Int) : NewAPIError :=
  (newErrorWithStatusCode (some text) errorCode statusCode).withSkipRetry

def updateDataError (err : Err) : NewAPIError :=
  (newError (some (errText err)) errorCodeUpdateDataError).withSkipRetry

def tokenRefusal (err : Err) : NewAPIError :=
  refusal (errText err) errorCodePreConsumeTokenQuotaFailed 403

/-- The error of a pre-consumption that the funding source refused. -/
def fundingError (source : BillingSource) (err : Err) : NewAPIError :=
  if isInsufficientBalance err then
    refusal (insufficientMessage source ++ ": " ++ errText err) errorCodeInsufficientUserQuota 403
  else if containsAny (errText err) ["no active subscription", "subscription quota insufficient"] then
    refusal ("subscription quota insufficient or unavailable: " ++ errText err)
      errorCodeInsufficientUserQuota 403
  else updateDataError err

variable {σ ℓ : Type} (a : Accounts σ ℓ) (info : RelayInfo)

/-- A playground request has no token to charge. -/
def preConsumeTokenQuota (c : Int → Call) (quota : Int) : SessionM σ ℓ Unit :=
  if info.isPlayground then pure () else call (c quota) (a.preConsumeTokenQuota quota)

/-- The token gets back what the session took from it; an error is logged. -/
def giveTokenBack (tokenConsumed : Int) : SessionM σ ℓ Unit :=
  if tokenConsumed > 0 ∧ info.isPlayground = false then do
    let _ ← (call (.tokenGiveBack tokenConsumed) (a.adjustTokenQuota (-tokenConsumed))).attempt
    pure ()
  else pure ()

def reserveTrustedSettlement (actualQuota : Int) : SessionM σ ℓ Unit := do
  let s ← self
  call (.trustedFunding actualQuota) ((a.funding s.funding).preConsume actualQuota)
  match ← (preConsumeTokenQuota a info .trustedToken actualQuota).attempt with
  | .ok () =>
    update fun s => { s with preConsumedQuota := actualQuota, tokenConsumed := actualQuota }
  | .error err =>
    match ← (call .fundingRefund (a.funding s.funding).refund).attempt with
    | .ok () => .fail err
    | .error refundErr =>
      .fail (.join err (.wrap "refund trusted funding reservation" refundErr))

def settleFunding (delta : Int) : SessionM σ ℓ Unit := do
  let s ← self
  if s.fundingSettled then pure ()
  else
    call (.fundingSettle delta) ((a.funding s.funding).settle delta)
    update fun s => { s with fundingSettled := true }

def settleToken (delta : Int) : SessionM σ ℓ (Except Err Unit) :=
  if info.isPlayground then pure (.ok ())
  else (call (.tokenSettle delta) (a.adjustTokenQuota delta)).attempt

/-- The settlement of what is reserved at `actualQuota`; the session is settled when the token
could not follow, too. -/
def settleReserved (actualQuota : Int) : SessionM σ ℓ Unit := do
  let s ← self
  settleFunding a (actualQuota - s.preConsumedQuota)
  let tokenErr ← settleToken a info (actualQuota - s.preConsumedQuota)
  update fun s => { s with settled := true }
  match tokenErr with
  | .ok () => pure ()
  | .error err => .fail err

def settle (actualQuota : Int) : SessionM σ ℓ Unit := do
  let actualQuota := max actualQuota 0
  let s ← self
  if s.settled then pure ()
  else if s.trusted ∧ s.preConsumedQuota = 0 ∧ actualQuota > 0 then do
    reserveTrustedSettlement a info actualQuota
    settleReserved a info actualQuota
  else settleReserved a info actualQuota

def needsRefund (s : BillingSession) (preConsumed : Int) : Bool :=
  if s.settled ∨ s.refunded ∨ s.fundingSettled then false
  else decide (s.tokenConsumed > 0) || (s.funding = .subscription && decide (preConsumed > 0))

/-- The part of `Refund` under the lock: the session, where it has something to give back. -/
def startRefund : SessionM σ ℓ (Option BillingSession) :=
  .step none fun t =>
    if t.session.settled ∨ t.session.refunded ∨
        needsRefund t.session (a.preConsumed t.accounts) = false then (none, t)
    else (some t.session, { t with session := { t.session with refunded := true } })

/-- What runs after the lock is released; errors are logged. -/
def compensate (s : BillingSession) : SessionM σ ℓ Unit := do
  let _ ← (call .fundingRefund (a.funding s.funding).refund).attempt
  giveTokenBack a info s.tokenConsumed

def refund : SessionM σ ℓ Unit := do
  match ← startRefund a with
  | none => pure ()
  | some s => compensate a info s

def unsupportedFundingSource (source : BillingSource) : NewAPIError :=
  (newError (some ("unsupported funding source: " ++ source.text))
    errorCodeUpdateDataError).withSkipRetry

/-- A session of a wallet has a `LedgerRelayFunding`, which is none of the types that the source
tells apart here. -/
def reserveFunding (delta : Int) : SessionM σ ℓ (Option NewAPIError) := do
  let s ← self
  if s.funding = .subscription then do
    match ← (call (.fundingReserve delta) (a.reserveAdditional delta)).attempt with
    | .ok () => pure none
    | .error err => pure (some (updateDataError err))
  else pure (some (unsupportedFundingSource s.funding))

/-- No funding source takes back a part of its reservation when the token refuses. -/
def reserveToken (delta : Int) : SessionM σ ℓ (Option NewAPIError) := do
  match ← (preConsumeTokenQuota a info .tokenPreConsume delta).attempt with
  | .ok () =>
    update fun s => { s with
      preConsumedQuota := s.preConsumedQuota + delta
      tokenConsumed := s.tokenConsumed + delta
      extraReserved := s.extraReserved + delta }
    pure none
  | .error err => pure (some (tokenRefusal err))

def reserve (targetQuota : Int) : SessionM σ ℓ (Option NewAPIError) := do
  let targetQuota := max targetQuota 0
  let s ← self
  if s.settled ∨ s.refunded ∨ s.trusted ∨ targetQuota ≤ s.preConsumedQuota then pure none
  else
    match ← reserveFunding a (targetQuota - s.preConsumedQuota) with
    | some apiErr => pure (some apiErr)
    | none => reserveToken a info (targetQuota - s.preConsumedQuota)

def shouldTrust (source : BillingSource) (userQuota : Int) : Bool :=
  if info.forcePreConsume then false
  else if info.trustQuota ≤ 0 then false
  else if ¬ info.tokenUnlimited ∧ info.tokenQuota ≤ info.trustQuota then false
  else match source with
    | .wallet => info.trustQuota < userQuota
    | .claudeWallet => false
    | .subscription => false

/-- The funding side of the pre-consumption; when it is refused, the token gets its part back. -/
def preConsumeFunding (effectiveQuota : Int) : SessionM σ ℓ (Option NewAPIError) := do
  let s ← self
  match ← (call (.fundingPreConsume s.funding effectiveQuota)
      ((a.funding s.funding).preConsume effectiveQuota)).attempt with
  | .ok () =>
    update fun s => { s with preConsumedQuota := effectiveQuota }
    pure none
  | .error err =>
    giveTokenBack a info s.tokenConsumed
    update fun s => { s with tokenConsumed := if info.isPlayground then s.tokenConsumed else 0 }
    pure (some (fundingError s.funding err))

def preConsumeEffective (effectiveQuota : Int) : SessionM σ ℓ (Option NewAPIError) :=
  if effectiveQuota > 0 then do
    match ← (preConsumeTokenQuota a info .tokenPreConsume effectiveQuota).attempt with
    | .ok () =>
      update fun s => { s with tokenConsumed := effectiveQuota }
      preConsumeFunding a info effectiveQuota
    | .error err => pure (some (tokenRefusal err))
  else preConsumeFunding a info effectiveQuota

def preConsume (userQuota quota : Int) : SessionM σ ℓ (Option NewAPIError) := do
  let s ← self
  if shouldTrust info s.funding userQuota then do
    update fun s => { s with trusted := true }
    preConsumeEffective a info 0
  else preConsumeEffective a info quota

def normalizeBillingPreference (pref : String) : String :=
  let pref := trimSpace pref
  if pref ∈ ["subscription_first", "wallet_first", "subscription_only", "wallet_only"] then pref
  else "subscription_first"

def defaultFundingSourceOrderFromBillingPreference (pref : String) : List String :=
  let pref := normalizeBillingPreference pref
  if pref = "wallet_first" then ["wallet", "subscription"]
  else if pref = "subscription_only" then ["subscription"]
  else if pref = "wallet_only" then ["wallet"]
  else ["subscription", "wallet"]

/-- The known sources of the order, each at its first place. -/
def normalizeFundingSourceOrder (order : List String) (pref : String) : List String :=
  let known := (order.map trimSpace).filter fun source => source ∈ ["subscription", "wallet"]
  let result := known.reverse.dedup.reverse
  if result = [] then defaultFundingSourceOrderFromBillingPreference pref else result

/-- A fresh session on the source. -/
def openSession (source : BillingSource) (userQuota preConsumedQuota : Int) :
    SessionM σ ℓ (Option NewAPIError) := do
  match ← (onAccounts (a.newFunding source preConsumedQuota)).attempt with
  | .error err => pure (some (updateDataError err))
  | .ok () =>
    update fun _ => { funding := source }
    preConsume a info userQuota preConsumedQuota

def balanceRefusal (source : BillingSource) : NewAPIError :=
  refusal (if source = .claudeWallet then "Claude额度不足" else "站内余额不足")
    errorCodeInsufficientUserQuota 403

/-- `tryWallet` and `tryClaudeWallet`. -/
def tryLedgerWallet (source : BillingSource) (preConsumedQuota : Int) :
    SessionM σ ℓ (Option NewAPIError) := do
  match ← (onAccounts (a.getUserQuota source)).attempt with
  | .error err => pure (some (newError (some (errText err)) errorCodeQueryDataError).withSkipRetry)
  | .ok userQuota =>
    if userQuota ≤ 0 ∨ userQuota - preConsumedQuota < 0 then pure (some (balanceRefusal source))
    else openSession a info source userQuota preConsumedQuota

def trySubscription (preConsumedQuota : Int) : SessionM σ ℓ (Option NewAPIError) :=
  openSession a info .subscription 0 (if preConsumedQuota ≤ 0 then 1 else preConsumedQuota)

def trySource (source : String) (preConsumedQuota : Int) : SessionM σ ℓ (Option NewAPIError) :=
  if source = "subscription" then trySubscription a info preConsumedQuota
  else tryLedgerWallet a info .wallet preConsumedQuota

def noFundingSource : NewAPIError :=
  refusal "no available funding source" errorCodeInsufficientUserQuota 403

/-- The sources in their order, until one has enough quota or fails for another reason. -/
def trySources (preConsumedQuota : Int) : List String → NewAPIError →
    SessionM σ ℓ (Option NewAPIError)
  | [], lastInsufficientErr => pure (some lastInsufficientErr)
  | source :: sources, _ => do
    match ← trySource a info source preConsumedQuota with
    | none => pure none
    | some apiErr =>
      if apiErr.errorCode = errorCodeInsufficientUserQuota then
        trySources preConsumedQuota sources apiErr
      else pure (some apiErr)

/-- `claude` says that the channel bills the Claude wallet. -/
def newBillingSession (claude : Bool) (preConsumedQuota : Int) :
    SessionM σ ℓ (Option NewAPIError) :=
  if claude then tryLedgerWallet a info .claudeWallet preConsumedQuota
  else trySources a info preConsumedQuota
    (normalizeFundingSourceOrder info.fundingSourceOrder info.billingPreference) noFundingSource

/-- The accounts, and the session that `relayInfo.Billing` points to. -/
structure RelayBilling (σ : Type) where
  accounts : σ
  billing : Option BillingSession := none
  calls : List (Call × Bool) := []
  /-- how often `Refund` was called on the session -/
  refunds : Nat := 0

/-- A run of the session `s`. -/
def RelayBilling.live (b : RelayBilling σ) (s : BillingSession) : Live σ := ⟨b.accounts, s, b.calls⟩

def RelayBilling.keep (b : RelayBilling σ) (t : Live σ) : RelayBilling σ :=
  { b with accounts := t.accounts, billing := some t.session, calls := t.calls }

/-- What a failed start of a session leaves. -/
def RelayBilling.discard (b : RelayBilling σ) (t : Live σ) : RelayBilling σ :=
  { b with accounts := t.accounts, billing := none, calls := t.calls }

/-- The error that a step of a session reports. -/
def reported : Except Err (Option NewAPIError) → Option NewAPIError
  | .ok apiErr => apiErr
  | .error err => some (updateDataError err)

def preConsumeRelayBilling (claude : Bool) (preConsumedQuota : Int) (b : RelayBilling σ) :
    Option NewAPIError × RelayBilling σ :=
  match b.billing with
  | some s =>
    let r := (reserve a info preConsumedQuota).run (b.live s)
    (reported r.1, b.keep r.2)
  | none =>
    let r := (newBillingSession a info claude preConsumedQuota).run (b.live { funding := .wallet })
    match reported r.1 with
    | some apiErr => (some apiErr, b.discard r.2)
    | none => (none, b.keep r.2)

/-- A charge beside the session, on what the request is billed to. -/
def postConsumeQuota (source : Option BillingSource) (quota : Int) : Prog σ ℓ Err Unit := do
  if source = some .subscription then a.postSubscriptionUsageDelta quota
  else a.adjustWalletQuota quota
  if info.isPlayground then pure () else a.adjustTokenQuota quota

/-- One such charge, with its record. -/
def chargeQuota (quota : Int) (b : RelayBilling σ) : Except Err Unit × RelayBilling σ :=
  let r := (postConsumeQuota a info (b.billing.map BillingSession.funding) quota).run b.accounts
  (r.1, { b with accounts := r.2, calls := b.calls ++ [(.charge quota, r.1.isOk)] })

/-- Without a session nothing was consumed before. -/
def settleRelayBilling (actualQuota : Int) (b : RelayBilling σ) : Except Err Unit × RelayBilling σ :=
  match b.billing with
  | some s =>
    let r := (settle a info actualQuota).run (b.live s)
    (r.1, b.keep r.2)
  | none => if actualQuota = 0 then (.ok (), b) else chargeQuota a info actualQuota b

def refundRelayBilling (b : RelayBilling σ) : RelayBilling σ :=
  match b.billing with
  | some s => { b.keep ((refund a info).run (b.live s)).2 with refunds := b.refunds + 1 }
  | none => b

end CodeGo.Billing.Session
