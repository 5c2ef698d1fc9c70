import CodeGo.Commerce.BlindBox

/-!
# Subscription orders

The transactions of `subscription_runtime.go` on the orders of subscriptions, with the discounts of
`first_purchase_discount.go` and `blind_box_props_runtime.go`, and the reset opportunities of
`subscription_reset_runtime.go`. Rows are told apart by what their unique index covers: an order by
its trade number, an account by its user. What the other services grant is an argument.
-/

namespace CodeGo.Commerce.Orders

open CodeGo.Lib CodeGo.Lib.Prog CodeGo.Lib.Trim
open CodeGo.Commerce.BlindBox (mathRound)

inductive PlanType where
  | starter | daily | weekly | monthly | other
  deriving DecidableEq, Repr

inductive DurationUnit where
  | year | month | day | hour | custom | other
  deriving DecidableEq, Repr

structure SubscriptionPlan where
  id : Int
  planType : PlanType := .monthly
  durationUnit : DurationUnit := .month
  durationValue : Int := 1
  deriving DecidableEq, Repr

def isSubscriptionDayPassPlan (plan : SubscriptionPlan) : Bool :=
  plan.durationUnit = .day ∧ 0 < plan.durationValue ∧ plan.durationValue ≤ 2

def isFirstPurchaseDiscountPlan (plan : SubscriptionPlan) : Bool :=
  plan.planType = .monthly ∧ plan.durationUnit = .month

inductive OrderStatus where
  | pending | success | failed | expired
  deriving DecidableEq, Repr

inductive FulfillmentStatus where
  | pending | completed
  deriving DecidableEq, Repr

inductive PurchaseType where
  | normal | fuel | groupBuy | joinGroup
  /-- `subscription_booster` -/
  | booster
  | other
  deriving DecidableEq, Repr

structure SubscriptionOrder where
  tradeNo : String
  userID : Int
  planID : Int
  money : ℚ
  originalMoney : ℚ := 0
  firstPurchaseDiscountApplied : Bool := false
  firstPurchaseDiscountMultiplier : ℚ := 0
  firstPurchaseDiscountStartAt : Int := 0
  firstPurchaseDiscountEndAt : Int := 0
  paymentMethod : String := ""
  paymentProvider : String := ""
  purchaseType : PurchaseType := .normal
  groupBuyID : Int := 0
  status : OrderStatus
  fulfillmentStatus : FulfillmentStatus
  completeTime : Int := 0
  providerPayload : String := ""
  /-- not a column: the prop that lowered the price -/
  loweredBy : Option Int := none
  deriving DecidableEq

inductive PropStatus where
  | available | active | reserved | used | expired
  deriving DecidableEq, Repr

inductive PropType where
  | topupDiscount90
  | subscriptionDiscount90
  | other
  deriving DecidableEq, Repr

inductive PropOrderType where
  | topup
  | subscription
  deriving DecidableEq, Repr

structure BlindBoxProp where
  id : Int
  userID : Int
  propType : PropType
  status : PropStatus := .available
  discountRate : ℚ := 0
  /-- the type and the trade number of the order -/
  reservedOrder : Option (PropOrderType × String) := none
  createdAt : Int := 0
  deriving DecidableEq

structure SubscriptionResetOpportunityAccount where
  earnedTotal : Int := 0
  usedTotal : Int := 0
  availableTotal : Int := 0
  lastUsedMonth : String := ""
  deriving DecidableEq, Repr

inductive ChangeType where
  | earn
  | use
  deriving DecidableEq, Repr

structure SubscriptionResetOpportunityLedger where
  userID : Int
  relatedUserID : Int
  changeType : ChangeType
  delta : Int
  balanceAfter : Int
  usedMonth : String := ""
  sourceType : String
  sourceRef : String
  eventKey : String
  deriving DecidableEq, Repr

structure UserSubscription where
  id : Int
  userID : Int
  planID : Int
  active : Bool := true
  endTime : Int
  amountUsed : Int := 0
  periodUsed : Int := 0
  modelUsage : String := ""
  deriving DecidableEq, Repr

instance : Indexed SubscriptionOrder String where
  pk := SubscriptionOrder.tradeNo
  clash o p := o.tradeNo = p.tradeNo
  clash_comm o p := by simp only [eq_comm]
  clash_of_pk o p h := by simp [h]

instance : Indexed BlindBoxProp Int where
  pk := BlindBoxProp.id
  clash o p := o.id = p.id
  clash_comm o p := by simp only [eq_comm]
  clash_of_pk o p h := by simp [h]

instance : Indexed UserSubscription Int where
  pk := UserSubscription.id
  clash o p := o.id = p.id
  clash_comm o p := by simp only [eq_comm]
  clash_of_pk o p h := by simp [h]

@[simp] theorem pk_order (o : SubscriptionOrder) : pk o = o.tradeNo := rfl
@[simp] theorem pk_prop (p : BlindBoxProp) : pk p = p.id := rfl
@[simp] theorem pk_subscription (sub : UserSubscription) : pk sub = sub.id := rfl

/-- The rows of the ledger are in the order of their ids. -/
structure Store where
  plans : Int → Option SubscriptionPlan := fun _ => none
  /-- the inviter of each user, 0 for none -/
  users : Int → Option Int := fun _ => none
  orders : Table SubscriptionOrder := Table.empty
  /-- the blind box orders of a user that were paid -/
  paidBlindBoxOrders : Int → Nat := fun _ => 0
  props : Table BlindBoxProp := Table.empty
  accounts : Int → Option SubscriptionResetOpportunityAccount := fun _ => none
  ledger : List SubscriptionResetOpportunityLedger := []
  subscriptions : Table UserSubscription := Table.empty

inductive Error where
  | invalidOrder
  | tradeNoEmpty
  | orderNotFound
  | paymentMethodMismatch
  | orderStatusInvalid
  | notFulfillable
  | planNotFound
  | userNotFound
  | invalidUserID
  | opportunityUnavailable
  | opportunityMonthlyUsed
  | noActiveSubscription
  | duplicatedKey
  /-- another service refuses -/
  | refused
  deriving DecidableEq, Repr

/-- Rows that stay locked until the end of the transaction. -/
inductive Cell where
  | order (tradeNo : String)
  | user (userID : Int)
  | account (userID : Int)
  | event (eventKey : String)
  | subscription (id : Int)
  deriving DecidableEq, Repr

/-- What was read without a lock. -/
inductive View where
  | order (tradeNo : String)
  /-- the discount props of a user -/
  | props (userID : Int)
  | account (userID : Int)
  /-- the orders that count as a first purchase -/
  | purchases
  deriving DecidableEq, Repr

abbrev Flow (α : Type) := Prog Store (Label Cell View) Error α

def read {α : Type} (f : Store → α) : Flow α := step {} fun s => (f s, s)

def readOrder (tradeNo : String) : Flow (Option SubscriptionOrder) :=
  step { watches := [.order tradeNo] } fun s => (s.orders.get? tradeNo, s)

def fail {α : Type} (e : Error) : Flow α := .fail e

/-- A call into another service in the same transaction. -/
def service (granted : Bool) : Flow PUnit := if granted then .ret () else fail .refused

/-- `Save` writes what a transaction may have changed and, as they were read, the columns that
nothing changes after the creation of an order. -/
def orderColumns (order row : SubscriptionOrder) : SubscriptionOrder :=
  { row with
    status := order.status
    fulfillmentStatus := order.fulfillmentStatus
    completeTime := order.completeTime
    providerPayload := order.providerPayload
    paymentMethod := order.paymentMethod
    groupBuyID := order.groupBuyID }

theorem keepsIndexes_orderColumns (order : SubscriptionOrder) :
    Table.KeepsIndexes (orderColumns order) := fun _ => ⟨rfl, fun _ => rfl⟩

def Store.saveOrder (s : Store) (order : SubscriptionOrder) : Store :=
  { s with orders :=
    s.orders.update order.tradeNo (orderColumns order) (keepsIndexes_orderColumns order) }

def saveOrder (order : SubscriptionOrder) : Flow PUnit :=
  step { locks := [.order order.tradeNo] } fun s => ((), s.saveOrder order)

/-- The user row of an order with the first-purchase discount is locked already. -/
def createOrder (order : SubscriptionOrder) : Flow PUnit :=
  stepE { locks := .order order.tradeNo ::
      if order.firstPurchaseDiscountApplied then [.user order.userID] else [] } fun s =>
    match s.orders.insert? order with
    | some orders => (.ok (), { s with orders := orders })
    | none => (.error .duplicatedKey, s)

/-- `UPDATE` of the props that satisfy a condition. -/
def Store.updateProps (s : Store) (f : BlindBoxProp → BlindBoxProp)
    (hf : ∀ p, (f p).id = p.id) : Store :=
  { s with props := ⟨s.props.rows.map f, List.pairwise_map.2 <| s.props.distinct.imp fun h => by
    simpa [clash, hf] using h⟩ }

def BlindBoxProp.reservedFor (p : BlindBoxProp) (orderType : PropOrderType) (tradeNo : String) :
    Bool :=
  p.reservedOrder = some (orderType, tradeNo) ∧ p.status = .reserved

/-- The reservation of a prop that is reserved for the order ends in this status. -/
def BlindBoxProp.freed (orderType : PropOrderType) (tradeNo : String) (status : PropStatus)
    (p : BlindBoxProp) : BlindBoxProp :=
  if p.reservedFor orderType tradeNo then { p with status := status, reservedOrder := none } else p

theorem freed_id (orderType : PropOrderType) (tradeNo : String) (status : PropStatus)
    (p : BlindBoxProp) : (p.freed orderType tradeNo status).id = p.id := by
  unfold BlindBoxProp.freed
  split <;> rfl

def freeProps (orderType : PropOrderType) (tradeNo : String) (status : PropStatus) : Flow PUnit :=
  if blank tradeNo then pure ()
  else step {} fun s =>
    ((), s.updateProps (·.freed orderType tradeNo status) (freed_id orderType tradeNo status))

def releaseReservedBlindBoxPropByTradeNoTx (tradeNo : String) (orderType : PropOrderType) :
    Flow PUnit :=
  freeProps orderType tradeNo .available

def consumeReservedBlindBoxPropByTradeNoTx (tradeNo : String) (orderType : PropOrderType) :
    Flow PUnit :=
  freeProps orderType tradeNo .used

def BlindBoxProp.availableTo (p : BlindBoxProp) (userID : Int) (propType : PropType) : Bool :=
  p.userID = userID ∧ p.propType = propType ∧ p.status = .available

/-- The oldest available prop of a type. -/
def Store.availableProp (s : Store) (userID : Int) (propType : PropType) : Option BlindBoxProp :=
  ((s.props.rows.filter (·.availableTo userID propType)).mergeSort fun p q =>
    p.createdAt < q.createdAt ∨ p.createdAt = q.createdAt ∧ p.id ≤ q.id).head?

/-- All columns of the row but its key. -/
def propColumns (prop row : BlindBoxProp) : BlindBoxProp := { prop with id := row.id }

theorem keepsIndexes_propColumns (prop : BlindBoxProp) : Table.KeepsIndexes (propColumns prop) :=
  fun _ => ⟨rfl, fun _ => rfl⟩

def saveProp (prop : BlindBoxProp) : Flow PUnit :=
  step {} fun s =>
    ((), { s with props := s.props.update prop.id (propColumns prop) (keepsIndexes_propColumns prop) })

def reserveBlindBoxDiscountPropTx (userID : Int) (tradeNo : String) (propType : PropType)
    (orderType : PropOrderType) : Flow (Option BlindBoxProp) :=
  if userID ≤ 0 ∨ blank tradeNo then pure none
  else do
    match ← step { watches := [.props userID] } fun s => (s.availableProp userID propType, s) with
    | none => pure none
    | some prop =>
      let prop := { prop with status := .reserved, reservedOrder := some (orderType, tradeNo) }
      saveProp prop
      pure (some prop)

structure PaymentSetting where
  firstPurchaseDiscountEnabled : Bool
  firstPurchaseDiscountMultiplier : ℚ
  firstPurchaseDiscountStartAt : Int
  firstPurchaseDiscountEndAt : Int

def isFirstPurchaseCampaignActive (setting : PaymentSetting) (now : Int) : Bool :=
  setting.firstPurchaseDiscountEnabled ∧
    0 < setting.firstPurchaseDiscountMultiplier ∧ setting.firstPurchaseDiscountMultiplier < 1 ∧
    0 < setting.firstPurchaseDiscountStartAt ∧
    setting.firstPurchaseDiscountStartAt < setting.firstPurchaseDiscountEndAt ∧
    setting.firstPurchaseDiscountStartAt ≤ now ∧ now ≤ setting.firstPurchaseDiscountEndAt

def applyDiscountRateToMoney (amount discountRate : ℚ) : ℚ :=
  if amount ≤ 0 then 0
  else if discountRate ≤ 0 then mathRound (amount * 100) / 100
  else
    let discountRate := if 1 ≤ discountRate then 99 / 100 else discountRate
    let discounted := (mathRound (amount * (1 - discountRate) * 100) : ℚ) / 100
    if discounted < 1 / 100 then 1 / 100 else discounted

def applyFirstPurchaseMultiplier (money multiplier : ℚ) : ℚ :=
  applyDiscountRateToMoney money (1 - multiplier)

/-- The order bars its user from the discount. -/
def Store.firstPurchase (s : Store) (o : SubscriptionOrder) : Bool :=
  (s.plans o.planID).any isFirstPurchaseDiscountPlan ∧ o.purchaseType ≠ .fuel ∧
    (o.status = .success ∨ o.status = .pending ∧ o.firstPurchaseDiscountApplied)

def Store.eligible (s : Store) (userID : Int) : Bool :=
  !s.orders.has fun o => o.userID = userID ∧ s.firstPurchase o

def isFirstPurchaseDiscountEligible (userID : Int) : Flow Bool :=
  if userID ≤ 0 then fail .invalidUserID
  else step { watches := [.purchases] } fun s => (s.eligible userID, s)

/-- `SELECT … FOR UPDATE` of the user. -/
def lockUser (userID : Int) : Flow PUnit :=
  stepE { locks := [.user userID] } fun s =>
    ((if (s.users userID).isSome then .ok () else .error .userNotFound), s)

def discounted (setting : PaymentSetting) (order : SubscriptionOrder) (baseMoney : ℚ) :
    SubscriptionOrder :=
  { order with
    money := applyFirstPurchaseMultiplier baseMoney setting.firstPurchaseDiscountMultiplier
    firstPurchaseDiscountApplied := true
    firstPurchaseDiscountMultiplier := setting.firstPurchaseDiscountMultiplier
    firstPurchaseDiscountStartAt := setting.firstPurchaseDiscountStartAt
    firstPurchaseDiscountEndAt := setting.firstPurchaseDiscountEndAt }

def applyFirstPurchaseDiscountTx (setting : PaymentSetting) (now : Int)
    (order : SubscriptionOrder) (baseMoney : ℚ) : Flow SubscriptionOrder :=
  let order := { order with originalMoney := baseMoney, money := baseMoney }
  if !isFirstPurchaseCampaignActive setting now ∨ order.purchaseType = .fuel then pure order
  else do
    match ← read fun s => s.plans order.planID with
    | none => fail .planNotFound
    | some plan =>
      if !isFirstPurchaseDiscountPlan plan then pure order
      else
        lockUser order.userID
        if ← isFirstPurchaseDiscountEligible order.userID then
          pure (discounted setting order baseMoney)
        else pure order

/-- What the callers of `CreatePendingSubscriptionOrderWithDiscounts` fill in. -/
structure Draft where
  tradeNo : String
  userID : Int
  planID : Int
  money : ℚ
  paymentMethod : String := ""
  paymentProvider : String := ""
  purchaseType : PurchaseType := .normal
  groupBuyID : Int := 0

def Draft.order (draft : Draft) : SubscriptionOrder where
  tradeNo := draft.tradeNo
  userID := draft.userID
  planID := draft.planID
  money := draft.money
  paymentMethod := draft.paymentMethod
  paymentProvider := draft.paymentProvider
  purchaseType := draft.purchaseType
  groupBuyID := draft.groupBuyID
  status := .pending
  fulfillmentStatus := .pending

def createPendingSubscriptionOrderWithDiscounts (setting : PaymentSetting) (now : Int)
    (draft : Draft) (baseMoney : ℚ) : Flow ℚ :=
  if draft.userID ≤ 0 ∨ blank draft.tradeNo then fail .invalidOrder
  else do
    let baseMoney := if baseMoney ≤ 0 then draft.money else baseMoney
    let baseMoney := (mathRound (baseMoney * 100) : ℚ) / 100
    let order ← applyFirstPurchaseDiscountTx setting now draft.order baseMoney
    if order.firstPurchaseDiscountApplied then
      createOrder order
      pure 0
    else
      match ← reserveBlindBoxDiscountPropTx order.userID order.tradeNo .subscriptionDiscount90
          .subscription with
      | none =>
        createOrder order
        pure 0
      | some prop =>
        createOrder { order with
          money := applyDiscountRateToMoney baseMoney prop.discountRate
          loweredBy := some prop.id }
        pure prop.discountRate

/-- The transaction of `CompleteSubscriptionOrder`; it returns whether the fulfilment is started. -/
def completeSubscriptionOrder (now : Int)
    (tradeNo providerPayload expectedPaymentProvider actualPaymentMethod : String) : Flow Bool :=
  if blank tradeNo then fail .tradeNoEmpty
  else do
    match ← readOrder tradeNo with
    | none => fail .orderNotFound
    | some order =>
      if expectedPaymentProvider ≠ "" ∧ order.paymentProvider ≠ expectedPaymentProvider then
        fail .paymentMethodMismatch
      else if order.status = .success then pure (order.fulfillmentStatus ≠ .completed)
      else if order.status ≠ .pending then fail .orderStatusInvalid
      else
        saveOrder { order with
          status := .success
          fulfillmentStatus := .pending
          completeTime := now
          providerPayload := if providerPayload ≠ "" then providerPayload else order.providerPayload
          paymentMethod :=
            if actualPaymentMethod ≠ "" then actualPaymentMethod else order.paymentMethod }
        pure true

def expireOrder (now : Int) (order : SubscriptionOrder) : Flow PUnit :=
  if order.status ≠ .pending then pure ()
  else do
    saveOrder { order with status := .expired, completeTime := now }
    releaseReservedBlindBoxPropByTradeNoTx order.tradeNo .subscription

def expireSubscriptionOrder (now : Int) (tradeNo expectedPaymentProvider : String) : Flow PUnit :=
  if blank tradeNo then fail .tradeNoEmpty
  else do
    match ← readOrder tradeNo with
    | none => fail .orderNotFound
    | some order =>
      if expectedPaymentProvider ≠ "" ∧ order.paymentProvider ≠ expectedPaymentProvider then
        fail .paymentMethodMismatch
      else expireOrder now order

def cancelPendingSubscriptionOrder (now userID : Int) (tradeNo : String) : Flow PUnit :=
  if userID ≤ 0 ∨ blank tradeNo then fail .invalidOrder
  else do
    match ← readOrder tradeNo with
    | none => fail .orderNotFound
    | some order => if order.userID ≠ userID then fail .orderNotFound else expireOrder now order

def getOrCreateSubscriptionResetOpportunityAccountTx (userID : Int) :
    Flow SubscriptionResetOpportunityAccount :=
  if userID ≤ 0 then fail .invalidUserID
  else do
    match ← step { watches := [.account userID] } fun s => (s.accounts userID, s) with
    | some account => pure account
    | none =>
      stepE { locks := [.account userID] } fun s =>
        if (s.accounts userID).isSome then (.error .duplicatedKey, s)
        else (.ok (), { s with accounts := Function.update s.accounts userID (some {}) })
      pure {}

def saveAccount (userID : Int) (account : SubscriptionResetOpportunityAccount) : Flow PUnit :=
  step { locks := [.account userID] } fun s =>
    ((), { s with accounts := Function.update s.accounts userID (some account) })

def createLedger (row : SubscriptionResetOpportunityLedger) : Flow PUnit :=
  stepE { locks := [.event row.eventKey] } fun s =>
    if s.ledger.any (·.eventKey = row.eventKey) then (.error .duplicatedKey, s)
    else (.ok (), { s with ledger := s.ledger ++ [row] })

/-- The orders that a user has paid for. -/
def Store.paidPurchases (s : Store) (userID : Int) : Nat :=
  (s.orders.rows.countP fun o => o.userID = userID ∧ o.status = .success ∧ 0 < o.money) +
    s.paidBlindBoxOrders userID

def countSuccessfulPaidPurchasesTx (userID : Int) : Flow Nat :=
  if userID ≤ 0 then pure 0 else read fun s => s.paidPurchases userID

inductive ReferralPurchaseType where
  | blindBox | dayPass | monthCard
  deriving DecidableEq, Repr

def referralEventKey (inviteeID : Int) : String :=
  "referral-reset-opportunity:" ++ toString inviteeID

def awardReferralSubscriptionResetOpportunityTx (inviteeID : Int)
    (purchaseType : ReferralPurchaseType) (orderSourceType orderSourceID : String) : Flow PUnit :=
  if inviteeID ≤ 0 ∨ purchaseType ≠ .monthCard then pure ()
  else do
    match ← read fun s => s.users inviteeID with
    | none => fail .userNotFound
    | some inviterID =>
      if inviterID ≤ 0 then pure ()
      else
        let previousPaidCount ← countSuccessfulPaidPurchasesTx inviteeID
        if 0 < previousPaidCount then pure ()
        else
          let existing ← read fun s => s.ledger.any (·.eventKey = referralEventKey inviteeID)
          if existing then pure ()
          else
            let account ← getOrCreateSubscriptionResetOpportunityAccountTx inviterID
            let account := { account with
              earnedTotal := account.earnedTotal + 1
              availableTotal := account.availableTotal + 1 }
            saveAccount inviterID account
            createLedger
              { userID := inviterID
                relatedUserID := inviteeID
                changeType := .earn
                delta := 1
                balanceAfter := account.availableTotal
                sourceType := trimSpace orderSourceType
                sourceRef := trimSpace orderSourceID
                eventKey := referralEventKey inviteeID }

/-- The order of the subscriptions of a user: those named in the settings first, then day passes,
then by their end. -/
def subscriptionLe (plans : Int → Option SubscriptionPlan) (explicitOrder : List Int)
    (left right : UserSubscription) : Bool :=
  let leftRank := explicitOrder.idxOf? left.id
  let rightRank := explicitOrder.idxOf? right.id
  let bucket (sub : UserSubscription) : Nat :=
    if (plans sub.planID).any isSubscriptionDayPassPlan then 0 else 1
  match leftRank, rightRank with
  | some l, some r => l ≤ r
  | some _, none => true
  | none, some _ => false
  | none, none =>
    bucket left < bucket right ∨ bucket left = bucket right ∧
      (right.endTime < left.endTime ∨ left.endTime = right.endTime ∧ right.id ≤ left.id)

def Store.activeSubscriptions (s : Store) (userID now : Int) (explicitOrder : List Int) :
    List UserSubscription :=
  (s.subscriptions.rows.filter fun sub =>
    sub.userID = userID ∧ sub.active ∧ now < sub.endTime).mergeSort
      (subscriptionLe s.plans explicitOrder)

def subscriptionColumns (sub row : UserSubscription) : UserSubscription := { sub with id := row.id }

theorem keepsIndexes_subscriptionColumns (sub : UserSubscription) :
    Table.KeepsIndexes (subscriptionColumns sub) := fun _ => ⟨rfl, fun _ => rfl⟩

def saveSubscription (sub : UserSubscription) : Flow PUnit :=
  step { locks := [.subscription sub.id] } fun s =>
    ((), { s with
      subscriptions := s.subscriptions.update sub.id (subscriptionColumns sub)
        (keepsIndexes_subscriptionColumns sub) })

def useEventKey (userID : Int) (month : String) : String :=
  "use-reset-opportunity:" ++ toString userID ++ ":" ++ month

/-- The transaction of `UseUserSubscriptionResetOpportunity`; `restored` is the answer of the
billing service. -/
def useUserSubscriptionResetOpportunity (now : Int) (currentMonth : String)
    (explicitOrder : List Int) (restored : Bool) (userID : Int) : Flow PUnit :=
  if userID ≤ 0 then fail .invalidUserID
  else do
    let account ← getOrCreateSubscriptionResetOpportunityAccountTx userID
    if account.availableTotal ≤ 0 then fail .opportunityUnavailable
    else if trimSpace account.lastUsedMonth = currentMonth then fail .opportunityMonthlyUsed
    else
      match ← read fun s => s.activeSubscriptions userID now explicitOrder with
      | [] => fail .noActiveSubscription
      | sub :: _ =>
        service restored
        saveSubscription { sub with amountUsed := 0, periodUsed := 0, modelUsage := "" }
        let account := { account with
          usedTotal := account.usedTotal + 1
          availableTotal := account.availableTotal - 1
          lastUsedMonth := currentMonth }
        saveAccount userID account
        createLedger
          { userID := userID
            relatedUserID := sub.id
            changeType := .use
            delta := -1
            balanceAfter := account.availableTotal
            usedMonth := currentMonth
            sourceType := "user_subscription"
            sourceRef := toString sub.id
            eventKey := useEventKey userID currentMonth }

/-- How the other services answer a fulfilment: the fuel, the subscription with its points and its
top-up record, the bonus of the purchase, and the group buy with its id. -/
structure Services where
  fuel : Bool := true
  subscription : Bool := true
  bonus : Bool := true
  groupBuy : Option Int := some 0

def fulfillPaidSubscriptionOrder (services : Services) (tradeNo : String) : Flow PUnit :=
  if blank tradeNo then fail .tradeNoEmpty
  else do
    match ← readOrder tradeNo with
    | none => fail .orderNotFound
    | some order =>
      if order.status ≠ .success then fail .orderStatusInvalid
      else if order.fulfillmentStatus = .completed then pure ()
      else if order.purchaseType = .booster then fail .notFulfillable
      else if order.purchaseType = .fuel then
        service services.fuel
        saveOrder { order with fulfillmentStatus := .completed }
      else
        match ← read fun s => s.plans order.planID with
        | none => fail .planNotFound
        | some plan =>
          service services.subscription
          awardReferralSubscriptionResetOpportunityTx order.userID
            (if isSubscriptionDayPassPlan plan then .dayPass else .monthCard) "subscription_order"
            order.tradeNo
          consumeReservedBlindBoxPropByTradeNoTx tradeNo .subscription
          service services.bonus
          match services.groupBuy with
          | none => fail .refused
          | some groupBuyID =>
            saveOrder { order with groupBuyID := groupBuyID, fulfillmentStatus := .completed }

end CodeGo.Commerce.Orders
