import CodeGo.Lib.Lock
import CodeGo.Lib.Table
import CodeGo.Lib.Trim
import Mathlib.Algebra.Order.Floor.Ring
import Mathlib.Data.Rat.Floor

/-!
# Blind boxes

The rows of `internal/commerce/schema/blind_box.go` and the transactions of
`blind_box_open_runtime.go` and `blind_box_order_runtime.go` on them. The credits of wallets and
the purchases of subscriptions that an opening asks the other services for are kept as a list of
grants. Amounts in dollars are rational, random draws are arguments.
-/

namespace CodeGo.Commerce.BlindBox

open CodeGo.Lib CodeGo.Lib.Prog CodeGo.Lib.Trim

inductive RewardType where
  | quota
  | claudeQuota
  | prop
  | subscription
  deriving DecidableEq, Repr

inductive RewardWalletType where
  | default
  | claude
  deriving DecidableEq, Repr

/-- The types of a reward are those that `NormalizeRewardType` and
`normalizeBlindBoxRewardWalletType` leave. -/
structure TierSetting where
  name : String
  minUSD : ℚ := 0
  maxUSD : ℚ := 0
  probability : ℚ
  rewardType : RewardType := .quota
  walletType : RewardWalletType := .default
  deriving DecidableEq

/-- What `blindboxsettings.Get` returns, and the `QuotaPerUnit` of the platform. -/
structure Setting where
  enabled : Bool
  dailyOpenLimit : Int
  firstPurchaseGuaranteeUSD : ℚ
  pityThreshold : Int
  pityGuaranteeUSD : ℚ
  lowRewardThresholdUSD : ℚ
  subscriptionPrizeProbability : ℚ
  subscriptionPlanTitle : String
  tiers : List TierSetting
  quotaPerUnit : ℚ
  deriving DecidableEq

/-- `math.Round`: half away from zero. -/
def mathRound (x : ℚ) : Int := if 0 ≤ x then ⌊x + 1 / 2⌋ else -⌊-x + 1 / 2⌋

def quotaUnitsFromBlindBoxUSD (setting : Setting) (amount : ℚ) : Int :=
  if amount ≤ 0 then 0 else mathRound (amount * setting.quotaPerUnit)

/-- The first tier at which the probabilities add up to the roll. -/
def tierAt (roll cumulative : ℚ) : List TierSetting → Option TierSetting
  | [] => none
  | tier :: tiers =>
    if roll ≤ cumulative + tier.probability then some tier
    else tierAt roll (cumulative + tier.probability) tiers

def fallbackTier : TierSetting where
  name := "fallback"
  minUSD := 1
  maxUSD := 1
  probability := 1

def pickBlindBoxTierForRoll (tiers : List TierSetting) (roll : ℚ) : TierSetting :=
  let eligible := tiers.filter fun tier => 0 < tier.probability
  let roll := if roll < 0 then 0 else if 1 ≤ roll then 1 - 1 / 2 ^ 53 else roll
  ((tierAt (roll * (eligible.map (·.probability)).sum) 0 eligible).or eligible.getLast?).getD
    fallbackTier

def randomTierRewardUSD (tier : TierSetting) (roll : ℚ) : ℚ :=
  if tier.maxUSD ≤ tier.minUSD then mathRound (tier.minUSD * 100) / 100
  else mathRound ((tier.minUSD + roll * (tier.maxUSD - tier.minUSD)) * 100) / 100

def isBlindBoxHighValueReward (rewardType : RewardType) (rewardUSD thresholdUSD : ℚ) : Bool :=
  if rewardUSD ≤ 0 ∨ thresholdUSD ≤ 0 then false
  else thresholdUSD ≤ (if rewardType = .claudeQuota then rewardUSD * 10 else rewardUSD)

def zeroHourProgressPerPaidOpen : Int := 5
def zeroHourProgressCap : Int := 1000

def zeroHourProbability (points : Int) : ℚ :=
  let points := if points < 0 then 0 else if zeroHourProgressCap < points then zeroHourProgressCap
    else points
  min (1 / 10000 + points * (49 / 10000000)) (5 / 1000)

def zeroHourPropType : String := "zero_hour_multiplier"
def zeroHourTitle : String := "1 小时 0 倍率卡"
def zeroHourTier : String := "zero_hour_hidden"

/-- The title and the type of each prop. -/
def blindBoxPropSpecs : List (String × String) :=
  [("充值九折卡", "topup_discount_90"), ("套餐九折卡", "subscription_discount_90"),
    ("0.95 倍率卡", "consume_discount_95"), ("0.9 倍率卡", "consume_discount_90"),
    (zeroHourTitle, zeroHourPropType)]

def getBlindBoxPropSpecByTitle (title : String) : Option String :=
  blindBoxPropSpecs.lookup (trimSpace title)

inductive OrderStatus where
  | pending
  | success
  | failed
  | expired
  deriving DecidableEq, Repr

inductive OrderSource where
  | purchase
  | adminGrant
  deriving DecidableEq, Repr

structure BlindBoxOrder where
  id : Int
  userID : Int
  quantity : Int
  openedCount : Int := 0
  money : ℚ := 0
  tradeNo : String
  paymentMethod : String := ""
  paymentProvider : String := ""
  source : OrderSource := .purchase
  status : OrderStatus
  completeTime : Int := 0
  providerPayload : String := ""
  deriving DecidableEq

/-- The column for the wallet is `default` where nothing is credited. -/
structure BlindBoxOpenRecord where
  userID : Int
  orderID : Int
  rewardType : RewardType := .quota
  rewardWalletType : RewardWalletType := .default
  rewardUSD : ℚ := 0
  creditAmount : Int := 0
  rewardTier : String := ""
  userSubscriptionID : Int := 0
  isPity : Bool := false
  createTime : Int
  deriving DecidableEq

inductive PropStatus where
  | available
  | active
  | reserved
  | used
  | expired
  deriving DecidableEq, Repr

structure BlindBoxProp where
  userID : Int
  propType : String
  status : PropStatus := .available
  expiresAt : Int := 0
  deriving DecidableEq, Repr

structure BlindBoxZeroHourState where
  points : Int := 0
  usageQuota : Int := 0
  hitCount : Int := 0
  deriving DecidableEq, Repr

/-- A reward that another service grants: `CreditWalletQuotaTx` or `CreditClaudeWalletQuotaTx`, or
`ApplySubscriptionPurchaseTx`. The key of a credit holds the id of its record, so no two are one. -/
inductive Grant where
  | credit (userID : Int) (wallet : RewardWalletType) (amount : Int)
  | subscription (userID : Int) (userSubscriptionID : Int)
  deriving DecidableEq, Repr

instance : Indexed BlindBoxOrder Int where
  pk := BlindBoxOrder.id
  clash o p := o.id = p.id || o.tradeNo = p.tradeNo
  clash_comm o p := by simp only [eq_comm]
  clash_of_pk o p h := by simp [h]

/-- The records are in the order of their ids. -/
structure Store where
  orders : Table BlindBoxOrder := Table.empty
  records : List BlindBoxOpenRecord := []
  props : List BlindBoxProp := []
  pityStates : Int → Option Int := fun _ => none
  zeroHourStates : Int → Option BlindBoxZeroHourState := fun _ => none
  planTitles : List String := []
  grants : List Grant := []

inductive Error where
  | invalidRequest
  | disabled
  | orderNotFound
  | orderStatusInvalid
  | paymentMethodMismatch
  | siteOpenLimitReached
  | insufficientStock
  | planTitleEmpty
  | planNotFound
  | invalidRewardAmount
  | unsupportedProp
  | duplicatedKey
  /-- another service refuses a grant -/
  | notGranted
  deriving DecidableEq, Repr

/-- Rows that stay locked once they are written. -/
inductive Cell where
  | order (id : Int)
  | pity (userID : Int)
  | zeroHour (userID : Int)
  deriving DecidableEq, Repr

/-- Orders that were read. -/
inductive View where
  | openable (userID : Int)
  | tradeNo (tradeNo : String)
  deriving DecidableEq, Repr

abbrev Flow (α : Type) := Prog Store (Label Cell View) Error α

def BlindBoxOrder.openable (o : BlindBoxOrder) (userID : Int) : Bool :=
  o.userID = userID ∧ o.status = .success ∧ o.openedCount < o.quantity

def Store.orderOf (s : Store) (tradeNo : String) : Option BlindBoxOrder :=
  s.orders.find? (·.tradeNo = tradeNo)

def read {α : Type} (f : Store → α) : Flow α := step {} fun s => (f s, s)

def fail {α : Type} (e : Error) : Flow α := .fail e

def createRecord (record : BlindBoxOpenRecord) : Flow PUnit :=
  step {} fun s => ((), { s with records := s.records ++ [record] })

def createProp (prop : BlindBoxProp) : Flow PUnit :=
  step {} fun s => ((), { s with props := s.props ++ [prop] })

/-- A call into another service. -/
def grant (granted : Bool) (g : Grant) : Flow PUnit :=
  stepE {} fun s =>
    if granted then (.ok (), { s with grants := s.grants ++ [g] }) else (.error .notGranted, s)

/-- All columns of the row that no unique index covers. -/
def orderColumns (order row : BlindBoxOrder) : BlindBoxOrder :=
  { order with id := row.id, tradeNo := row.tradeNo }

theorem keepsIndexes_orderColumns (order : BlindBoxOrder) :
    Table.KeepsIndexes (orderColumns order) := fun _ => ⟨rfl, fun _ => rfl⟩

def Store.saveOrder (s : Store) (order : BlindBoxOrder) : Store :=
  { s with orders :=
    s.orders.update order.id (orderColumns order) (keepsIndexes_orderColumns order) }

def saveOrder (order : BlindBoxOrder) : Flow PUnit :=
  step { locks := [.order order.id] } fun s => ((), s.saveOrder order)

def savePityState (userID consecutiveLowRewards : Int) : Flow PUnit :=
  step { locks := [.pity userID] } fun s =>
    ((), { s with
      pityStates := Function.update s.pityStates userID (some consecutiveLowRewards) })

def saveZeroHourState (userID : Int) (state : BlindBoxZeroHourState) : Flow PUnit :=
  step { locks := [.zeroHour userID] } fun s =>
    ((), { s with zeroHourStates := Function.update s.zeroHourStates userID (some state) })

def getOrCreateBlindBoxPityStateTx (userID : Int) : Flow Int := do
  match ← read fun s => s.pityStates userID with
  | some consecutiveLowRewards => pure consecutiveLowRewards
  | none =>
    stepE { locks := [.pity userID] } fun s =>
      if (s.pityStates userID).isSome then (.error .duplicatedKey, s)
      else (.ok (), { s with pityStates := Function.update s.pityStates userID (some 0) })
    pure 0

def getOrCreateZeroHourStateTx (userID : Int) : Flow BlindBoxZeroHourState := do
  match ← read fun s => s.zeroHourStates userID with
  | some state => pure state
  | none =>
    stepE { locks := [.zeroHour userID] } fun s =>
      if (s.zeroHourStates userID).isSome then (.error .duplicatedKey, s)
      else (.ok (), { s with zeroHourStates := Function.update s.zeroHourStates userID (some {}) })
    pure {}

def addZeroHourProgressTx (userID : Int) (state : BlindBoxZeroHourState) (points : Int) :
    Flow BlindBoxZeroHourState :=
  if points ≤ 0 then pure state
  else do
    let state := { state with points := min (state.points + points) zeroHourProgressCap }
    saveZeroHourState userID state
    pure state

def resetZeroHourProgressTx (userID : Int) (state : BlindBoxZeroHourState) :
    Flow BlindBoxZeroHourState := do
  let state := { state with points := 0, usageQuota := 0, hitCount := state.hitCount + 1 }
  saveZeroHourState userID state
  pure state

def isPaidBlindBoxOrder (order : BlindBoxOrder) : Bool :=
  order.source = .purchase ∧ 0 < order.money

def BlindBoxProp.zeroHour (prop : BlindBoxProp) (userID now : Int) : Bool :=
  prop.userID = userID ∧ prop.propType = zeroHourPropType ∧
    (prop.status = .available ∨ prop.status = .active ∧ now < prop.expiresAt)

def hasAvailableOrActiveZeroHourPropTx (userID now : Int) : Flow Bool :=
  read fun s => s.props.any fun prop => prop.zeroHour userID now

def tryZeroHourRewardTx (userID now : Int) (state : BlindBoxZeroHourState) (roll : ℚ) :
    Flow Bool := do
  if ← hasAvailableOrActiveZeroHourPropTx userID now then pure false
  else pure (roll < zeroHourProbability state.points)

def createBlindBoxPropTx (userID : Int) (title : String) : Flow PUnit :=
  match getBlindBoxPropSpecByTitle title with
  | some propType => createProp { userID := userID, propType := propType }
  | none => fail .unsupportedProp

/-- The clock of a transaction, and the day it is in. -/
structure Moment where
  now : Int
  dayStart : Int
  dayEnd : Int

/-- The random numbers for one box, and how the other services answer. -/
structure Draw where
  zeroHour : ℚ := 1
  subscription : ℚ := 1
  tier : ℚ := 0
  amount : ℚ := 0
  userSubscriptionID : Int := 0
  granted : Bool := true

/-- The loop over the boxes: the orders before the current one, the current one, with what remains
in it, and those after it. -/
structure Opening where
  finished : List BlindBoxOrder
  current : BlindBoxOrder
  rest : List BlindBoxOrder
  consecutiveLowRewards : Int
  zeroHour : BlindBoxZeroHourState
  records : List BlindBoxOpenRecord

def BlindBoxOrder.remaining (o : BlindBoxOrder) : Int := o.quantity - o.openedCount

/-- The next order with a box that is not open. -/
def nextOrder (finished : List BlindBoxOrder) (current : BlindBoxOrder) :
    List BlindBoxOrder → List BlindBoxOrder × BlindBoxOrder × List BlindBoxOrder
  | [] => (finished, current, [])
  | next :: rest =>
    if current.remaining ≤ 0 then nextOrder (finished ++ [current]) next rest
    else (finished, current, next :: rest)

/-- A reward in dollars before it is recorded. -/
structure Reward where
  tierName : String
  rewardUSD : ℚ
  rewardType : RewardType
  walletType : RewardWalletType
  /-- the name of the tier, under which a prop is created -/
  title : String
  deriving DecidableEq

def applyFirstPurchaseMinimumGuarantee (ordinaryMinimumUSD claudeMinimumUSD : ℚ)
    (reward : Reward) : Reward :=
  match reward.rewardType with
  | .prop =>
    if 0 < ordinaryMinimumUSD then
      { reward with rewardUSD := ordinaryMinimumUSD, rewardType := .quota, walletType := .default }
    else reward
  | .quota =>
    if 0 < ordinaryMinimumUSD ∧ reward.rewardUSD < ordinaryMinimumUSD then
      { reward with rewardUSD := ordinaryMinimumUSD, walletType := .default }
    else reward
  | .claudeQuota =>
    if 0 < claudeMinimumUSD ∧ reward.rewardUSD < claudeMinimumUSD then
      { reward with rewardUSD := claudeMinimumUSD, walletType := .claude }
    else reward
  | .subscription => reward

def drawReward (setting : Setting) (pityTriggered isFirstPurchaseOpen : Bool) (draw : Draw) :
    Reward :=
  if pityTriggered then
    { tierName := "pity"
      rewardUSD := setting.pityGuaranteeUSD
      rewardType := .quota
      walletType := .default
      title := "" }
  else
    let tier := pickBlindBoxTierForRoll setting.tiers draw.tier
    let reward : Reward :=
      { tierName := if isFirstPurchaseOpen then "first_purchase" else tier.name
        rewardUSD := randomTierRewardUSD tier draw.amount
        rewardType := tier.rewardType
        walletType := tier.walletType
        title := tier.name }
    if isFirstPurchaseOpen then
      applyFirstPurchaseMinimumGuarantee setting.firstPurchaseGuaranteeUSD
        (setting.firstPurchaseGuaranteeUSD / 4) reward
    else reward

/-- A credit of a wallet, recorded first. -/
def openCredit (setting : Setting) (record : BlindBoxOpenRecord) (draw : Draw)
    (pityTriggered : Bool) (reward : Reward) (rewardType : RewardType)
    (walletType : RewardWalletType) (l : Opening) : Flow Opening := do
  let creditAmount := quotaUnitsFromBlindBoxUSD setting reward.rewardUSD
  if creditAmount ≤ 0 then fail .invalidRewardAmount
  else
    let record := { record with
      rewardType := rewardType
      rewardWalletType := walletType
      rewardUSD := reward.rewardUSD
      creditAmount := creditAmount
      rewardTier := reward.tierName
      isPity := pityTriggered }
    createRecord record
    grant draw.granted (.credit record.userID walletType creditAmount)
    pure { l with
      consecutiveLowRewards :=
        if isBlindBoxHighValueReward rewardType reward.rewardUSD setting.lowRewardThresholdUSD then
          0
        else l.consecutiveLowRewards + 1
      records := l.records ++ [record] }

/-- The title of a prop that has none is not one of a prop. -/
def propTitle (title : String) : String := if title = "" then "实用道具奖励" else title

def openReward (setting : Setting) (record : BlindBoxOpenRecord) (draw : Draw)
    (pityTriggered : Bool) (reward : Reward) (l : Opening) : Flow Opening :=
  match reward.rewardType with
  | .prop => do
    let record := { record with
      rewardType := .prop
      rewardTier := reward.tierName
      rewardUSD := 0
      creditAmount := 0
      isPity := false }
    createRecord record
    createBlindBoxPropTx record.userID (propTitle reward.title)
    pure { l with
      consecutiveLowRewards := l.consecutiveLowRewards + 1
      records := l.records ++ [record] }
  | .claudeQuota => openCredit setting record draw pityTriggered reward .claudeQuota .claude l
  | _ => openCredit setting record draw pityTriggered reward .quota reward.walletType l

def openZeroHour (record : BlindBoxOpenRecord) (l : Opening) : Flow Opening := do
  let record := { record with rewardType := .prop, rewardTier := zeroHourTier }
  createRecord record
  createBlindBoxPropTx record.userID zeroHourTitle
  let zeroHour ← resetZeroHourProgressTx record.userID l.zeroHour
  pure { l with
    consecutiveLowRewards := 0
    zeroHour := zeroHour
    records := l.records ++ [record] }

def getBlindBoxSubscriptionPlanTx (setting : Setting) : Flow PUnit :=
  let title := trimSpace setting.subscriptionPlanTitle
  if title = "" then fail .planTitleEmpty
  else do
    if ← read fun s => s.planTitles.contains title then pure () else fail .planNotFound

def openSubscription (setting : Setting) (record : BlindBoxOpenRecord) (draw : Draw)
    (l : Opening) : Flow Opening := do
  getBlindBoxSubscriptionPlanTx setting
  grant draw.granted (.subscription record.userID draw.userSubscriptionID)
  let record := { record with
    rewardType := .subscription
    rewardTier := "subscription"
    userSubscriptionID := draw.userSubscriptionID
    rewardUSD := 0 }
  createRecord record
  pure { l with consecutiveLowRewards := 0, records := l.records ++ [record] }

/-- The reward of a box that is not the hidden one. -/
def openDrawn (setting : Setting) (isFirstPurchaseOpen pityTriggered : Bool)
    (record : BlindBoxOpenRecord) (draw : Draw) (l : Opening) : Flow Opening := do
  let zeroHour ← (if isPaidBlindBoxOrder l.current then
      addZeroHourProgressTx record.userID l.zeroHour zeroHourProgressPerPaidOpen
    else pure l.zeroHour : Flow BlindBoxZeroHourState)
  let l := { l with zeroHour := zeroHour }
  if draw.subscription < setting.subscriptionPrizeProbability then
    openSubscription setting record draw l
  else
    openReward setting record draw pityTriggered
      (drawReward setting pityTriggered isFirstPurchaseOpen draw) l

/-- One round of the loop. -/
def openBox (setting : Setting) (moment : Moment) (userID firstPurchaseOrderID : Int)
    (draw : Draw) (l : Opening) : Flow Opening := do
  let (finished, current, rest) := nextOrder l.finished l.current l.rest
  if current.remaining ≤ 0 then fail .insufficientStock
  else
    let current := { current with openedCount := current.openedCount + 1 }
    let l := { l with finished := finished, current := current, rest := rest }
    let isFirstPurchaseOpen : Bool := current.id = firstPurchaseOrderID ∧ current.openedCount = 1
    let record : BlindBoxOpenRecord :=
      { userID := userID, orderID := current.id, createTime := moment.now }
    let pityTriggered : Bool := setting.pityThreshold ≤ l.consecutiveLowRewards + 1
    let zeroHourHit ← (if !isFirstPurchaseOpen && !pityTriggered then
        tryZeroHourRewardTx userID moment.now l.zeroHour draw.zeroHour
      else pure false : Flow Bool)
    if zeroHourHit then openZeroHour record l
    else openDrawn setting isFirstPurchaseOpen pityTriggered record draw l

/-- The paid orders of the user before this one. -/
def isFirstSuccessfulBlindBoxOrderTx (userID orderID : Int) : Flow Bool :=
  if userID ≤ 0 ∨ orderID ≤ 0 then pure false
  else read fun s => !s.orders.has fun o =>
    o.userID = userID ∧ o.status = .success ∧ 0 < o.money ∧ o.id < orderID

/-- The id of the first of the orders that is the first paid one of the user, or 0. -/
def findFirstPurchaseOrderID (userID : Int) : List BlindBoxOrder → Flow Int
  | [] => pure 0
  | order :: orders => do
    if order.money ≤ 0 ∨ order.openedCount ≠ 0 then findFirstPurchaseOrderID userID orders
    else if ← isFirstSuccessfulBlindBoxOrderTx userID order.id then pure order.id
    else findFirstPurchaseOrderID userID orders

/-- The orders with boxes left, by id, and how many boxes these are. -/
def getOpenableBlindBoxOrdersTx (userID : Int) (orderID : Option Int) :
    Flow (List BlindBoxOrder × Int) := do
  let orders ← step { watches := [.openable userID] } fun s =>
    ((s.orders.rows.filter fun o => o.openable userID ∧ orderID.all (· = o.id)), s)
  let orders := orders.mergeSort fun o p => o.id ≤ p.id
  pure (orders, ((orders.map (·.remaining)).filter (0 < ·)).sum)

def openBlindBoxesTx (setting : Setting) (moment : Moment) (draws : Nat → Draw) (userID : Int)
    (count : Nat) (orderID : Option Int) : Flow (List BlindBoxOpenRecord) := do
  let openCountToday ← read fun s =>
    s.records.countP fun r => moment.dayStart ≤ r.createTime ∧ r.createTime < moment.dayEnd
  if setting.dailyOpenLimit < openCountToday + count then fail .siteOpenLimitReached
  else
    let (orders, available) ← getOpenableBlindBoxOrdersTx userID orderID
    if available < count then fail .insufficientStock
    else
      let consecutiveLowRewards ← getOrCreateBlindBoxPityStateTx userID
      let zeroHour ← getOrCreateZeroHourStateTx userID
      let firstPurchaseOrderID ← (if 0 < setting.firstPurchaseGuaranteeUSD then
          findFirstPurchaseOrderID userID orders
        else pure 0 : Flow Int)
      match orders with
      | [] => fail .insufficientStock
      | current :: rest =>
        let l ← (List.range count).foldlM
          (fun l i => openBox setting moment userID firstPurchaseOrderID (draws i) l)
          ⟨[], current, rest, consecutiveLowRewards, zeroHour, []⟩
        (l.finished ++ l.current :: l.rest).forM saveOrder
        savePityState userID l.consecutiveLowRewards
        pure l.records

/-- The transaction of `OpenBlindBoxes`. -/
def openBlindBoxes (setting : Setting) (moment : Moment) (draws : Nat → Draw)
    (userID count : Int) : Flow (List BlindBoxOpenRecord) :=
  if userID ≤ 0 ∨ count ≤ 0 then fail .invalidRequest
  else if !setting.enabled then fail .disabled
  else openBlindBoxesTx setting moment draws userID count.toNat none

def openBlindBoxOrderByTradeNoTx (setting : Setting) (moment : Moment) (draws : Nat → Draw)
    (tradeNo : String) : Flow (List BlindBoxOpenRecord) :=
  if blank tradeNo then fail .invalidRequest
  else do
    match ← read fun s => s.orderOf tradeNo with
    | none => fail .orderNotFound
    | some order =>
      if order.status ≠ .success then fail .orderStatusInvalid
      else if order.remaining ≤ 0 then pure []
      else openBlindBoxesTx setting moment draws order.userID order.remaining.toNat (some order.id)

/-- The transaction of `CompleteBlindBoxOrder`; `openBlindBoxOrderByTradeNoTx` follows it. -/
def completeBlindBoxOrder (now : Int)
    (tradeNo providerPayload expectedPaymentProvider actualPaymentMethod : String) : Flow PUnit :=
  if blank tradeNo then fail .invalidRequest
  else do
    match ← step { watches := [.tradeNo tradeNo] } fun s => (s.orderOf tradeNo, s) with
    | none => fail .orderNotFound
    | some order =>
      if expectedPaymentProvider ≠ "" ∧ order.paymentProvider ≠ expectedPaymentProvider then
        fail .paymentMethodMismatch
      else if order.status = .success then pure ()
      else if order.status ≠ .pending then fail .orderStatusInvalid
      else saveOrder { order with
        status := .success
        completeTime := now
        providerPayload := if providerPayload ≠ "" then providerPayload else order.providerPayload
        paymentMethod :=
          if actualPaymentMethod ≠ "" then actualPaymentMethod else order.paymentMethod }

end CodeGo.Commerce.BlindBox
