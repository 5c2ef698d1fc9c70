import CodeGo.Commerce.BlindBox
import CodeGo.Commerce.SubscriptionFunding

/-!
# Group buys

The rows of `internal/commerce/schema/group_buy.go`, the settlement of one order from
`group_buy_purchase_runtime.go` and the batch of due orders from
`group_buy_maintenance_runtime.go`. A settlement is one transaction; `u` lists the identifiers that
`GetUUID` hands out in it. Amounts in dollars are rational.
-/

namespace CodeGo.Commerce.GroupBuy

open Lib Lib.Prog Billing.Schema Billing.LedgerRuntime Schema SubscriptionFunding

inductive GroupBuyStatus where
  | pending | completed | expired
  deriving DecidableEq, Repr

structure GroupBuyOrder where
  id : Int
  planID : Int
  status : GroupBuyStatus := .pending
  targetCount : Int := 5
  currentCount : Int := 1
  expiresAt : Int
  deriving DecidableEq, Repr

structure GroupBuyMember where
  id : Int
  groupBuyID : Int
  userID : Int
  userSubscriptionID : Int := 0
  bonusGranted : Bool := false
  bonusAmountUSD : ℚ := 0
  deriving DecidableEq, Repr

/-- The bonus columns of a plan. -/
structure GroupBuyBonuses where
  bonus2 : ℚ := 0
  bonus3 : ℚ := 0
  bonus5 : ℚ := 0
  deriving DecidableEq, Repr

instance : Indexed GroupBuyOrder Int where
  pk := GroupBuyOrder.id
  clash a b := a.id = b.id
  clash_comm a b := by simp only [eq_comm]
  clash_of_pk a b h := by simp [h]

instance : Indexed GroupBuyMember Int where
  pk := GroupBuyMember.id
  clash a b := a.id = b.id ∨ a.groupBuyID = b.groupBuyID ∧ a.userID = b.userID
  clash_comm a b := by simp only [eq_comm]
  clash_of_pk a b h := by simp [h]

/-- The tables of the group buys beside those of the other services. -/
structure GroupStore where
  services : Store
  orders : Table GroupBuyOrder
  members : Table GroupBuyMember
  bonuses : Int → GroupBuyBonuses
  /-- the `created_at` column of the subscriptions -/
  createdAt : Int → Int

abbrev GroupFlow (α : Type) := Prog GroupStore Unit Err α

/-- Statements on the tables of the other services. -/
def onServices {α : Type} (p : Flow α) : GroupFlow α :=
  p.zoom GroupStore.services (fun s g => { g with services := s }) id

/-- The `status` column set by a settlement. -/
def withStatus (status : GroupBuyStatus) (o : GroupBuyOrder) : GroupBuyOrder :=
  { o with status := status }

theorem keepsIndexes_withStatus (status : GroupBuyStatus) : Table.KeepsIndexes (withStatus status) :=
  fun _ => ⟨rfl, fun _ => rfl⟩

def withBonus (bonusUSD : ℚ) (m : GroupBuyMember) : GroupBuyMember :=
  { m with bonusGranted := true, bonusAmountUSD := bonusUSD }

theorem keepsIndexes_withBonus (bonusUSD : ℚ) : Table.KeepsIndexes (withBonus bonusUSD) :=
  fun _ => ⟨rfl, fun _ => rfl⟩

def bonusForGroupBuyCount (plan : GroupBuyBonuses) (count : Nat) : ℚ :=
  if 5 ≤ count then plan.bonus5
  else if 3 ≤ count then plan.bonus3
  else if 2 ≤ count then plan.bonus2
  else 0

def quotaUnitsFromUSD (quotaPerUnit amount : ℚ) : Int :=
  if amount ≤ 0 then 0 else BlindBox.mathRound (amount * quotaPerUnit)

/-- The newest active subscription of a user to a plan. -/
def newestActive (g : GroupStore) (userID planID : Int) : Option UserSubscription :=
  let rows := g.services.subscriptions.rows.filter fun sub =>
    sub.userID = userID && sub.planID = planID && sub.status = .active
  rows.foldl (fun newest sub =>
    match newest with
    | none => some sub
    | some best =>
      if g.createdAt best.id < g.createdAt sub.id ∨
          g.createdAt best.id = g.createdAt sub.id ∧ best.id < sub.id then some sub
      else some best) none

def getGroupBuyMemberSubscriptionTx (member : GroupBuyMember) (planID : Int) :
    GroupFlow UserSubscription :=
  .stepE () fun g =>
    let linked :=
      if 0 < member.userSubscriptionID then
        (g.services.subscriptions.get? member.userSubscriptionID).filter (·.userID = member.userID)
      else none
    match linked.or (newestActive g member.userID planID) with
    | some sub => (.ok sub, g)
    | none => (.error .recordNotFound, g)

/-- The ledger account of a subscription, when it has one. -/
def materializedAccount (subscriptionID : Int) (s : Store) : Option BillingAccount :=
  s.ledger.accounts.find? fun a =>
    a.accountType = "subscription" && a.ownerType = "user_subscription" && a.ownerID = subscriptionID

def creditMaterializedSubscriptionBonusTx (u : Uuids) (sub : UserSubscription) (bonusQuota : Int) :
    Flow Unit := do
  match ← read (materializedAccount sub.id) with
  | none => pure ()
  | some account => do
    let _ ← ledgerTx (creditAccount u {
      accountID := account.accountID
      amount := bonusQuota
      idempotencyKey := "subscription-bonus:" ++ toString sub.id ++ ":" ++
        toString sub.amountTotal ++ ":" ++ toString bonusQuota
      reasonCode := "subscription_bonus"
      referenceType := "user_subscription"
      referenceID := toString sub.id
      operatorType := "commerce"
      operatorID := "subscription_bonus" })
    return ()

/-- The subscription with the bonus in its total, and in its period when it has one. -/
def addBonus (bonusQuota : Int) (sub : UserSubscription) : UserSubscription :=
  { sub with
    amountTotal := sub.amountTotal + bonusQuota
    periodAmount := if 0 < sub.periodAmount then sub.periodAmount + bonusQuota else sub.periodAmount }

def addSubscriptionBonusTx (u : Uuids) (sub : UserSubscription) (bonusQuota : Int) : Flow Unit :=
  if bonusQuota ≤ 0 then pure ()
  else do
    saveSubscription (addBonus bonusQuota sub)
    creditMaterializedSubscriptionBonusTx u (addBonus bonusQuota sub) bonusQuota

/-- The bonus of one member. -/
def grantBonus (u : Uuids) (planID : Int) (bonusUSD : ℚ) (quota : Int) (member : GroupBuyMember) :
    GroupFlow Unit :=
  if member.bonusGranted then pure ()
  else do
    let sub ← getGroupBuyMemberSubscriptionTx member planID
    onServices (addSubscriptionBonusTx u sub quota)
    .step () fun g => ((), { g with
      members := g.members.update member.id _ (keepsIndexes_withBonus bonusUSD) })

def grantBonuses (u : Uuids) (planID : Int) (bonusUSD : ℚ) (quota : Int) :
    List GroupBuyMember → GroupFlow Unit
  | [] => pure ()
  | member :: members => do
    grantBonus u planID bonusUSD quota member
    grantBonuses (u.drop 2) planID bonusUSD quota members

/-- The transaction of a settlement. -/
def settleGroupBuyOrderTx (u : Uuids) (quotaPerUnit : ℚ) (groupBuyID : Int) : GroupFlow Unit := do
  let order ← .stepE () fun g => match g.orders.get? groupBuyID with
    | some order => (.ok order, g)
    | none => (.error .recordNotFound, g)
  if order.status ≠ .pending then pure ()
  else do
    let members ← .step () fun g => (g.members.rows.filter (·.groupBuyID = order.id), g)
    let plan ← onServices (getSubscriptionPlanRecordTx order.planID)
    let bonusUSD ← .step () fun g => (bonusForGroupBuyCount (g.bonuses plan.id) members.length, g)
    let status : GroupBuyStatus := if 2 ≤ members.length then .completed else .expired
    let _ ← (if 0 < bonusUSD then
        grantBonuses u order.planID bonusUSD (quotaUnitsFromUSD quotaPerUnit bonusUSD) members
      else pure () : GroupFlow Unit)
    .step () fun g => ((), { g with
      orders := g.orders.update order.id _ (keepsIndexes_withStatus status) })

def settleGroupBuyOrder (u : Uuids) (quotaPerUnit : ℚ) (groupBuyID : Int) (g : GroupStore) :
    Except Err Unit × GroupStore :=
  (settleGroupBuyOrderTx u quotaPerUnit groupBuyID).commit g

/-- The order is complete or expired. -/
def GroupBuyOrder.Due (now : Int) (o : GroupBuyOrder) : Prop :=
  o.expiresAt ≤ now ∨ o.targetCount ≤ o.currentCount

instance (now : Int) (o : GroupBuyOrder) : Decidable (o.Due now) := inferInstanceAs (Decidable (_ ∨ _))

/-- `expires_at asc, id asc`. -/
def GroupBuyOrder.Sooner (o o' : GroupBuyOrder) : Prop :=
  o.expiresAt < o'.expiresAt ∨ o.expiresAt = o'.expiresAt ∧ o.id ≤ o'.id

instance : DecidableRel GroupBuyOrder.Sooner := fun _ _ => inferInstanceAs (Decidable (_ ∨ _))

def dueGroupBuys (now limit : Int) (g : GroupStore) : List GroupBuyOrder :=
  ((g.orders.rows.filter fun o => o.status = .pending ∧ o.Due now).insertionSort
    GroupBuyOrder.Sooner).take limit.toNat

/-- One settlement after the other, up to the first that fails. -/
def settleEach (u : Int → Uuids) (quotaPerUnit : ℚ) (settled : Nat) :
    List Int → GroupStore → (Nat × Option Err) × GroupStore
  | [], g => ((settled, none), g)
  | id :: ids, g =>
    match settleGroupBuyOrder (u id) quotaPerUnit id g with
    | (.error e, g') => ((settled, some e), g')
    | (.ok (), g') => settleEach u quotaPerUnit (settled + 1) ids g'

/-- How many orders were settled, the error that stopped the batch and the tables after it. -/
def settleDueGroupBuys (u : Int → Uuids) (quotaPerUnit : ℚ) (now limit : Int) (g : GroupStore) :
    (Nat × Option Err) × GroupStore :=
  let limit := if limit ≤ 0 then 100 else limit
  settleEach u quotaPerUnit 0 ((dueGroupBuys now limit g).map (·.id)) g

end CodeGo.Commerce.GroupBuy
