import CodeGo.Billing.LedgerRuntime
import CodeGo.Commerce.SubscriptionRules
import Mathlib.Data.List.Sort

/-!
# Funding requests from a subscription

`subscription_funding_runtime.go` of `internal/commerce/app`, with the reset of a
subscription and the ledger side of both. Each exported function is one
transaction; `u` lists the identifiers that `GetUUID` hands out during the call
and `now` is the time it reads.
-/

namespace CodeGo.Commerce.SubscriptionFunding

open Lib Lib.Prog Lib.Trim Billing.Schema Billing.Statements Billing.LedgerRuntime
  Schema SubscriptionRules

def getSubscriptionPlanRecordTx (planID : Int) : Flow SubscriptionPlan :=
  if planID ≤ 0 then .fail (.message "invalid plan id")
  else readOrFail .recordNotFound fun s => s.plans.get? planID

def ofExcept {α : Type} : Except Err α → Flow α
  | .ok a => .ret a
  | .error e => .fail e

/-- The ledger account of a subscription. -/
def subscriptionAccount (subscriptionID : Int) : EnsureAccountParams where
  accountType := "subscription"
  ownerType := "user_subscription"
  ownerID := subscriptionID
  quotaUnit := "quota"

def restoreSubscriptionLedgerBalanceAfterResetTx (u : Uuids) (sub : UserSubscription)
    (operationKey : String) : Flow Unit :=
  if sub.id ≤ 0 ∨ sub.amountTotal ≤ 0 then pure ()
  else do
    let account ← ledgerTx (ensureBillingAccount u (subscriptionAccount sub.id))
    let snapshot ← ledgerTx (lockSnapshot account.accountID)
    let targetAvailable := sub.amountTotal - sub.amountUsed - snapshot.reservedBalance
    if targetAvailable ≤ snapshot.availableBalance then pure ()
    else do
      let _ ← ledgerTx (creditAccount (u.drop 1) {
        accountID := account.accountID
        amount := targetAvailable - snapshot.availableBalance
        idempotencyKey := "subscription-reset-balance:" ++ toString sub.id ++ ":" ++ operationKey
        reasonCode := "subscription_quota_reset"
        reasonDetail := "subscription quota reset restored available balance"
        referenceType := "user_subscription"
        referenceID := toString sub.id
        operatorType := "subscription_reset"
        operatorID := operationKey })
      return ()

/-- The last reset that the row accounts for. -/
def resetBase (sub : UserSubscription) : Int :=
  if sub.lastResetTime ≤ 0 ∨ (0 < sub.startTime ∧ sub.lastResetTime < sub.startTime) then
    sub.startTime
  else sub.lastResetTime

def nextReset (cal : Calendar) (plan : SubscriptionPlan) (sub : UserSubscription) : Int :=
  calcNextSubscriptionResetTime cal (resetBase sub) plan sub.endTime

/-- A reset of the subscription is due. -/
def resetDue (cal : Calendar) (plan : SubscriptionPlan) (sub : UserSubscription) (now : Int) :
    Bool :=
  normalizeResetPeriod plan.quotaResetPeriod ≠ .never && 0 < nextReset cal plan sub &&
    nextReset cal plan sub ≤ now

theorem zero_nonneg : (0 : Int) ≤ 0 := le_rfl

/-- The row after a reset: legacy plans count the period in `amountUsed`. -/
def resetUsage (plan : SubscriptionPlan) (sub : UserSubscription) (base next : Int) :
    UserSubscription :=
  if usesLegacySubscriptionPeriodicQuota plan sub then
    { sub with
      amountUsed := 0, amountUsed_nonneg := zero_nonneg, modelUsage := []
      lastResetTime := base, nextResetTime := next }
  else
    { sub with
      periodUsed := 0, periodUsed_nonneg := zero_nonneg, modelUsage := []
      lastResetTime := base, nextResetTime := next }

/-- Stores the times of the reset when they changed. -/
def recordResetTimes (sub : UserSubscription) (base next : Int) : Flow UserSubscription :=
  if sub.lastResetTime ≠ base ∨ sub.nextResetTime ≠ next then do
    let sub := { sub with lastResetTime := base, nextResetTime := next }
    saveSubscription sub
    return sub
  else pure sub

def maybeResetUserSubscriptionWithPlanTx (cal : Calendar) (u : Uuids) (sub : UserSubscription)
    (plan : SubscriptionPlan) (now : Int) : Flow UserSubscription :=
  if normalizeResetPeriod plan.quotaResetPeriod = .never then pure sub
  else if nextReset cal plan sub = 0 ∨ nextReset cal plan sub > now then
    recordResetTimes sub (resetBase sub) (nextReset cal plan sub)
  else if nextReset cal plan sub ≤ 0 then pure sub
  else do
    let (base, next) := advanceReset cal plan sub.endTime now (resetBase sub) (nextReset cal plan sub)
    let reset := resetUsage plan sub base next
    if usesLegacySubscriptionPeriodicQuota plan sub then do
      restoreSubscriptionLedgerBalanceAfterResetTx u reset
        ("periodic:" ++ toString sub.id ++ ":" ++ toString base)
      saveSubscription reset
      return reset
    else do
      saveSubscription reset
      return reset

def postConsumeUserSubscriptionUsageDeltaTx (userSubscriptionID : Int) (modelName : String)
    (delta : Int) : Flow Unit := do
  let sub ← readOrFail .recordNotFound fun s => s.subscriptions.get? userSubscriptionID
  let plan ← getSubscriptionPlanRecordTx sub.planID
  let sub ← ofExcept (applySubscriptionUsageDelta plan sub modelName delta)
  saveSubscription sub

def postConsumeUserSubscriptionUsageDelta (userSubscriptionID : Int) (modelName : String)
    (delta : Int) : Flow Unit :=
  if userSubscriptionID ≤ 0 then .fail (.message "invalid userSubscriptionId")
  else if delta = 0 then pure ()
  else postConsumeUserSubscriptionUsageDeltaTx userSubscriptionID modelName delta

structure SubscriptionPreConsumeResult where
  userSubscriptionID : Int
  preConsumed : Int
  amountTotal : Int
  amountUsedBefore : Int
  amountUsedAfter : Int
  deriving DecidableEq, Repr

/-- Whether `left` comes before `right` among the subscriptions of a user. -/
def orderedBefore (explicitOrder : List Int) (plans : Table SubscriptionPlan)
    (left right : UserSubscription) : Bool :=
  let bucket (sub : UserSubscription) : Nat :=
    if ((plans.get? sub.planID).map isSubscriptionDayPassPlan).getD false then 0 else 1
  let byPlan : Bool :=
    if bucket left ≠ bucket right then bucket left < bucket right
    else if left.endTime ≠ right.endTime then left.endTime > right.endTime
    else left.id > right.id
  match explicitOrder.idxOf? left.id, explicitOrder.idxOf? right.id with
  | some l, some r => if l ≠ r then l < r else byPlan
  | some _, none => true
  | none, some _ => false
  | none, none => byPlan

def orderActiveUserSubscriptionsTx (userID : Int) (subs : List UserSubscription) :
    Flow (List UserSubscription) :=
  read fun s => subs.insertionSort fun left right =>
    !orderedBefore (s.subscriptionOrderIDs userID) s.plans right left

def activeSubscriptions (userID now : Int) (s : Store) : List UserSubscription :=
  s.subscriptions.rows.filter fun sub =>
    sub.userID = userID && sub.status = .active && sub.endTime > now

/-- Whether the total, the period and the model limit leave room for the amount. -/
def admits (plan : SubscriptionPlan) (sub : UserSubscription) (model : String) (amount : Int) :
    Bool :=
  !(0 < sub.amountTotal && sub.amountTotal - sub.amountUsed < amount) &&
  !(countsPeriod plan sub && getSubscriptionPeriodAmount plan sub - sub.periodUsed < amount) &&
  !(model ≠ "" && 0 < modelLimit sub model && modelUsage sub model + amount > modelLimit sub model)

def countLedgerEntries (accountID : String) : Tx Nat :=
  select fun l => l.entries.rows.countP fun e => e.accountID = accountID

/-- Grants the quota that the row has left to an account without entries. -/
def bootstrapSubscriptionLedgerTx (u : Uuids) (sub : UserSubscription) (accountID requestID : String) :
    Flow Unit :=
  if sub.amountTotal - sub.amountUsed > 0 then do
    let _ ← ledgerTx (creditAccount u {
      accountID := accountID
      amount := sub.amountTotal - sub.amountUsed
      idempotencyKey := "subscription-bootstrap:" ++ toString sub.id
      reasonCode := "subscription_balance_bootstrap"
      referenceType := "user_subscription"
      referenceID := toString sub.id
      operatorType := "subscription_projection"
      operatorID := requestID })
    return ()
  else pure ()

def bootstrapIfEmptyTx (u : Uuids) (sub : UserSubscription) (accountID requestID : String) :
    Flow Unit := do
  let entryCount ← ledgerTx (countLedgerEntries accountID)
  if entryCount = 0 then bootstrapSubscriptionLedgerTx u sub accountID requestID else pure ()

def reserveSubscriptionLedgerTx (u : Uuids) (sub : UserSubscription)
    (record : SubscriptionPreConsumeRecord) : Flow Unit :=
  if sub.amountTotal ≤ 0 then pure ()
  else do
    let account ← ledgerTx (ensureBillingAccount u (subscriptionAccount sub.id))
    bootstrapIfEmptyTx (u.drop 1) sub account.accountID record.requestID
    let _ ← ledgerTx (createReservation (u.drop 3) {
      accountID := account.accountID
      requestID := record.requestID
      reservedAmount := record.preConsumed
      idempotencyKey := "subscription:" ++ record.requestID ++ ":reserve" })
    return ()

def findPreConsume (requestID : String) (s : Store) : Option SubscriptionPreConsumeRecord :=
  s.preConsumes.get? requestID

def createPreConsume (record : SubscriptionPreConsumeRecord) : Flow Unit :=
  writeTable Store.preConsumes (fun t s => { s with preConsumes := t }) fun t => t.insert? record

def alreadyRefunded : Err := .message "subscription pre-consume already refunded"

/-- The record of the request is there already. -/
def replayedPreConsume (record : SubscriptionPreConsumeRecord) (sub : UserSubscription) :
    Flow SubscriptionPreConsumeResult :=
  if record.status = .refunded then .fail alreadyRefunded
  else pure {
    userSubscriptionID := sub.id
    preConsumed := record.preConsumed
    amountTotal := sub.amountTotal
    amountUsedBefore := sub.amountUsed
    amountUsedAfter := sub.amountUsed }

/-- Charges a candidate that admits the amount. -/
def consumeCandidate (u : Uuids) (plan : SubscriptionPlan) (sub : UserSubscription)
    (record : SubscriptionPreConsumeRecord) : Flow SubscriptionPreConsumeResult := do
  match ← (createPreConsume record).attempt with
  | .error err =>
    match ← read (findPreConsume record.requestID) with
    | some dup => replayedPreConsume dup sub
    | none => .fail err
  | .ok () =>
    reserveSubscriptionLedgerTx u sub record
    let used ← ofExcept (applySubscriptionUsageDelta plan sub record.modelName record.preConsumed)
    saveSubscription used
    return {
      userSubscriptionID := sub.id
      preConsumed := record.preConsumed
      amountTotal := sub.amountTotal
      amountUsedBefore := sub.amountUsed
      amountUsedAfter := used.amountUsed }

/-- One round of the loop over the candidates; `none` goes on to the next. -/
def tryCandidate (cal : Calendar) (u : Uuids) (now : Int) (record : SubscriptionPreConsumeRecord)
    (candidate : UserSubscription) : Flow (Option SubscriptionPreConsumeResult) := do
  let plan ← getSubscriptionPlanRecordTx candidate.planID
  let sub ← maybeResetUserSubscriptionWithPlanTx cal u candidate plan now
  if admits plan sub record.modelName record.preConsumed then
    return some (← consumeCandidate (u.drop 3) plan sub
      { record with userSubscriptionID := sub.id })
  else return none

def tryCandidates (cal : Calendar) (u : Uuids) (now : Int) (record : SubscriptionPreConsumeRecord) :
    List UserSubscription → Flow SubscriptionPreConsumeResult
  | [] => .fail (.message ("subscription quota insufficient, need=" ++ toString record.preConsumed))
  | candidate :: rest => do
    match ← tryCandidate cal u now record candidate with
    | some result => return result
    | none => tryCandidates cal (u.drop 9) now record rest

def preConsumeUserSubscription (cal : Calendar) (u : Uuids) (now : Int) (requestID : String)
    (userID : Int) (modelName : String) (amount : Int) : Flow SubscriptionPreConsumeResult :=
  if userID ≤ 0 then .fail (.message "invalid userId")
  else if blank requestID then .fail (.message "requestId is empty")
  else if amount ≤ 0 then .fail (.message "amount must be > 0")
  else do
    match ← read (findPreConsume requestID) with
    | some record =>
      if record.status = .refunded then .fail alreadyRefunded
      else do
        let sub ← readOrFail .recordNotFound fun s => s.subscriptions.get? record.userSubscriptionID
        replayedPreConsume record sub
    | none =>
      match ← read (activeSubscriptions userID now) with
      | [] => .fail (.message "no active subscription")
      | subs =>
        let ordered ← orderActiveUserSubscriptionsTx userID subs
        tryCandidates cal u now {
          requestID := requestID
          userID := userID
          userSubscriptionID := 0
          modelName := trimSpace modelName
          preConsumed := amount
          status := .consumed } ordered

def reserveAdditionalSubscriptionQuota (u : Uuids) (now : Int) (requestID : String)
    (subscriptionID : Int) (modelName : String) (amount : Int) : Flow Unit :=
  if blank requestID ∨ subscriptionID ≤ 0 ∨ amount ≤ 0 then
    .fail (.message "requestId, subscriptionId and amount are required")
  else do
    let sub ← readOrFail .recordNotFound fun s => s.subscriptions.get? subscriptionID
    if sub.status ≠ .active ∨ sub.endTime ≤ now then
      .fail (.message "subscription is no longer active")
    else do
      let plan ← getSubscriptionPlanRecordTx sub.planID
      let sub ← ofExcept (applySubscriptionUsageDelta plan sub modelName amount)
      saveSubscription sub
      let account ← ledgerTx (ensureBillingAccount u (subscriptionAccount subscriptionID))
      let _ ← ledgerTx (createReservation (u.drop 1) {
        accountID := account.accountID
        requestID := requestID
        reservedAmount := amount
        idempotencyKey := "subscription:" ++ requestID ++ ":reserve-extra:" ++ toString amount })
      return ()

def openReservations (requestID : String) (l : Ledger) : List BillingReservation :=
  l.reservations.rows.filter fun r => r.requestID = requestID && r.status = .open

def findOpenSubscriptionReservationsTx (requestID : String) : Tx (List BillingReservation) :=
  select (openReservations requestID)

def reservationMissing : Err := .message "subscription ledger reservation is missing"

def releaseReservations (u : Uuids) (requestID : String) : List BillingReservation → Flow Int
  | [] => pure 0
  | reservation :: rest => do
    let _ ← ledgerTx (releaseReservation u {
      reservationID := reservation.reservationID
      idempotencyKey := "subscription:" ++ requestID ++ ":release:" ++ reservation.reservationID
      reasonCode := "relay_failed_before_settlement" })
    return reservation.reservedAmount + (← releaseReservations (u.drop 2) requestID rest)

def releaseSubscriptionReservationTx (u : Uuids) (record : SubscriptionPreConsumeRecord) :
    Flow Int := do
  match ← ledgerTx (findOpenSubscriptionReservationsTx record.requestID) with
  | [] => .fail reservationMissing
  | reservations => releaseReservations u record.requestID reservations

def refundSubscriptionPreConsume (u : Uuids) (requestID : String) : Flow Unit :=
  if blank requestID then .fail (.message "requestId is empty")
  else do
    let record ← readOrFail .recordNotFound (findPreConsume requestID)
    if record.status = .refunded then pure ()
    else if record.preConsumed ≤ 0 then savePreConsumeStatus record.requestID .refunded
    else do
      let releasedAmount ← releaseSubscriptionReservationTx u record
      postConsumeUserSubscriptionUsageDeltaTx record.userSubscriptionID record.modelName
        (-releasedAmount)
      savePreConsumeStatus record.requestID .refunded

/-- What the next reservation is settled at; the last one takes all that remains. -/
def settledShare (remaining reserved : Int) (last : Bool) : Int :=
  if last && remaining > reserved then remaining
  else if remaining < reserved then remaining
  else reserved

/-- Spreads an amount over the reservations; the result is what remains. -/
def settleReservations (u : Uuids) (requestID : String) :
    List BillingReservation → Int → Flow Int
  | [], remaining => pure remaining
  | reservation :: rest, remaining => do
    let settledAmount := settledShare remaining reservation.reservedAmount rest.isEmpty
    let _ ← ledgerTx (settleReservation u {
      reservationID := reservation.reservationID
      usageEvidenceID := requestID
      actualAmount := settledAmount
      idempotencyKey := "subscription:" ++ requestID ++ ":settle:" ++ reservation.reservationID })
    settleReservations (u.drop 3) requestID rest (max 0 (remaining - settledAmount))

def countSettledReservations (requestID : String) : Tx Nat :=
  select fun l => l.reservations.rows.countP fun r => r.requestID = requestID && r.status = .settled

/-- The reserved amounts of a list of reservations. -/
def reservedTotal (reservations : List BillingReservation) : Int :=
  (reservations.map BillingReservation.reservedAmount).sum

def settleSubscriptionReservationTx (u : Uuids) (record : SubscriptionPreConsumeRecord)
    (actualAmount : Int) : Flow Unit := do
  match ← ledgerTx (findOpenSubscriptionReservationsTx record.requestID) with
  | [] =>
    let settledCount ← ledgerTx (countSettledReservations record.requestID)
    if settledCount > 0 then pure () else .fail reservationMissing
  | reservations =>
    let remaining ← settleReservations u record.requestID reservations actualAmount
    if remaining > 0 then .fail (.message "subscription ledger reservation is insufficient")
    else if actualAmount ≠ reservedTotal reservations then
      postConsumeUserSubscriptionUsageDeltaTx record.userSubscriptionID record.modelName
        (actualAmount - reservedTotal reservations)
    else pure ()

def settleSubscriptionReservation (u : Uuids) (requestID : String) (subscriptionID : Int)
    (actualAmount : Int) : Flow Unit :=
  if blank requestID then .fail (.message "requestId is empty")
  else if subscriptionID ≤ 0 then .fail (.message "invalid userSubscriptionId")
  else if actualAmount < 0 then .fail (.message "actual amount cannot be negative")
  else do
    let record ← readOrFail .recordNotFound (findPreConsume requestID)
    if record.userSubscriptionID ≠ subscriptionID then
      .fail (.message "subscription reservation ownership mismatch")
    else if record.status = .refunded then .fail alreadyRefunded
    else settleSubscriptionReservationTx u record actualAmount

/-- A plan without resets that grants 1000. -/
def samplePlan : SubscriptionPlan where
  id := 1
  totalAmount := 1000

def sampleSubscription (total : Int) : UserSubscription where
  id := 3
  userID := 7
  planID := 1
  amountTotal := total
  startTime := 1
  endTime := 1000000

/-- A store with one subscription of user 7, and an empty ledger. -/
def sampleStore (plan : SubscriptionPlan) (sub : UserSubscription) : Store where
  base := Platform.Database.DB.empty
  plans := ⟨[plan], List.pairwise_singleton _ _⟩
  subscriptions := ⟨[sub], List.pairwise_singleton _ _⟩
  preConsumes := Table.empty
  subscriptionOrderIDs _ := []

end CodeGo.Commerce.SubscriptionFunding
