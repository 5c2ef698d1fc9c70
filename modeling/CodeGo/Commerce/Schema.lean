import CodeGo.Platform.Database

/-!
# Subscriptions

The rows of `internal/commerce/schema/subscription.go` and the quota maps of
`subscription_quota.go`, beside the tables of the other services.
-/

namespace CodeGo.Commerce.Schema

open Lib Lib.Prog Billing.Schema Billing.Statements Platform.Database

/-- The JSON object of a `model_limits` or `model_usage` column. -/
abbrev ModelQuotaMap := List (String × Int)

inductive DurationUnit where
  | year | month | day | hour | custom | other
  deriving DecidableEq, Repr

/-- `priceAmount` counts millionths. -/
structure SubscriptionPlan where
  id : Int
  title : String := ""
  priceAmount : Int := 0
  durationUnit : DurationUnit := .month
  durationValue : Int := 1
  customSeconds : Int := 0
  maxPurchasePerUser : Int := 0
  upgradeGroup : String := ""
  totalAmount : Int := 0
  periodAmount : Int := 0
  modelLimits : ModelQuotaMap := []
  quotaResetPeriod : String := "never"
  quotaResetCustomSeconds : Int := 0
  deriving DecidableEq, Repr

inductive SubscriptionStatus where
  | active | expired | cancelled
  deriving DecidableEq, Repr

/-- Usage is never negative: every writer clamps or checks it. -/
structure UserSubscription where
  id : Int
  userID : Int
  planID : Int
  amountTotal : Int := 0
  amountUsed : Int := 0
  periodAmount : Int := 0
  periodUsed : Int := 0
  modelLimits : ModelQuotaMap := []
  modelUsage : ModelQuotaMap := []
  startTime : Int := 0
  endTime : Int := 0
  status : SubscriptionStatus := .active
  source : String := "order"
  lastResetTime : Int := 0
  nextResetTime : Int := 0
  upgradeGroup : String := ""
  prevUserGroup : String := ""
  amountUsed_nonneg : 0 ≤ amountUsed := by decide
  periodUsed_nonneg : 0 ≤ periodUsed := by decide
  deriving DecidableEq, Repr

inductive PreConsumeStatus where
  | consumed | refunded
  deriving DecidableEq, Repr

structure SubscriptionPreConsumeRecord where
  requestID : String
  userID : Int
  userSubscriptionID : Int
  modelName : String
  preConsumed : Int
  status : PreConsumeStatus
  deriving DecidableEq, Repr

inductive OrderStatus where
  | pending | success | failed | expired
  deriving DecidableEq, Repr

inductive FulfillmentStatus where
  | pending | completed
  deriving DecidableEq, Repr

inductive PurchaseType where
  | normal | fuel | groupBuy | joinGroup | booster
  deriving DecidableEq, Repr

structure SubscriptionOrder where
  id : Int
  userID : Int
  planID : Int
  tradeNo : String
  paymentMethod : String := ""
  paymentProvider : String := ""
  purchaseType : PurchaseType := .normal
  targetSubscriptionID : Int := 0
  fuelQuota : Int := 0
  fuelExpiresAt : Int := 0
  status : OrderStatus := .pending
  fulfillmentStatus : FulfillmentStatus := .pending
  deriving DecidableEq, Repr

instance : Indexed SubscriptionPlan Int where
  pk := SubscriptionPlan.id
  clash p q := p.id = q.id
  clash_comm p q := by simp only [eq_comm]
  clash_of_pk p q h := by simp [h]

instance : Indexed UserSubscription Int where
  pk := UserSubscription.id
  clash a b := a.id = b.id
  clash_comm a b := by simp only [eq_comm]
  clash_of_pk a b h := by simp [h]

/-- The unique index on the request stands for the primary key, which nothing reads. -/
instance : Indexed SubscriptionPreConsumeRecord String where
  pk := SubscriptionPreConsumeRecord.requestID
  clash r s := r.requestID = s.requestID
  clash_comm r s := by simp only [eq_comm]
  clash_of_pk r s h := by simp [h]

/-- The tables of all services. -/
structure Store where
  base : DB
  plans : Table SubscriptionPlan
  subscriptions : Table UserSubscription
  preConsumes : Table SubscriptionPreConsumeRecord
  /-- the order of subscriptions in the settings of a user -/
  subscriptionOrderIDs : Int → List Int

def Store.setBase (b : DB) (s : Store) : Store := { s with base := b }

/-- The billing tables. -/
def Store.ledger (s : Store) : Ledger := s.base.ledger

def Store.setLedger (l : Ledger) (s : Store) : Store := s.setBase (s.base.setLedger l)

/-- Functions of the commerce service, as the statements of one transaction. -/
abbrev Flow (α : Type) := Prog Store Unit Err α

section Statements

variable {α κ : Type}

def read (f : Store → α) : Flow α := .step () fun s => (f s, s)

/-- The first row of a `SELECT`, which is expected to be there. -/
def readOrFail (missing : Err) (f : Store → Option α) : Flow α :=
  .stepE () fun s => match f s with
    | some a => (.ok a, s)
    | none => (.error missing, s)

def modify (f : Store → Store) : Flow Unit := .step () fun s => ((), f s)

/-- A write that a unique index may refuse. -/
def writeTable [Indexed α κ] (get : Store → Table α) (set : Table α → Store → Store)
    (op : Table α → Option (Table α)) : Flow Unit :=
  .stepE () fun s => match op (get s) with
    | some t => (.ok (), set t s)
    | none => (.error .duplicateKey, s)

/-- Ledger statements inside the transaction. -/
def ledgerTx (tx : Tx α) : Flow α :=
  tx.zoom (fun s : Store => s.base.ledger) (fun l s => s.setBase (s.base.setLedger l)) fun _ => ()

theorem run_ledgerTx (tx : Tx α) (s : Store) :
    (ledgerTx tx).run s =
      ((tx.run s.base.ledger).1, s.setBase (s.base.setLedger (tx.run s.base.ledger).2)) := by
  unfold ledgerTx
  apply run_zoom
  · exact fun _ _ => rfl
  · exact fun _ => rfl
  · exact fun _ _ _ => rfl

end Statements

/-- Every column but the key taken from `sub`. -/
def overwriteSubscription (sub old : UserSubscription) : UserSubscription := { sub with id := old.id }

theorem keepsIndexes_overwriteSubscription (sub : UserSubscription) :
    Table.KeepsIndexes (overwriteSubscription sub) := fun _ => ⟨rfl, fun _ => rfl⟩

def Store.setSubscription (sub : UserSubscription) (s : Store) : Store :=
  { s with subscriptions := s.subscriptions.update sub.id _ (keepsIndexes_overwriteSubscription sub) }

/-- `Save` of a subscription that was read in the transaction. -/
def saveSubscription (sub : UserSubscription) : Flow Unit := modify (·.setSubscription sub)

def withPreConsumeStatus (status : PreConsumeStatus) (r : SubscriptionPreConsumeRecord) :
    SubscriptionPreConsumeRecord := { r with status := status }

theorem keepsIndexes_withPreConsumeStatus (status : PreConsumeStatus) :
    Table.KeepsIndexes (withPreConsumeStatus status) := fun _ => ⟨rfl, fun _ => rfl⟩

/-- `Save` of a record of which only the status changed. -/
def savePreConsumeStatus (requestID : String) (status : PreConsumeStatus) : Flow Unit :=
  modify fun s => { s with
    preConsumes := s.preConsumes.update requestID _ (keepsIndexes_withPreConsumeStatus status) }

section Fields

variable (l l' : Ledger) (sub : UserSubscription) (s : Store)

@[simp] theorem setLedger_plans : (s.setLedger l).plans = s.plans := rfl
@[simp] theorem setLedger_subscriptions : (s.setLedger l).subscriptions = s.subscriptions := rfl
@[simp] theorem setLedger_self : s.setLedger s.ledger = s := rfl

variable {s sub}

/-- Saving a row that is there replaces it and no other. -/
theorem get?_setSubscription {old : UserSubscription} (h : s.subscriptions.get? sub.id = some old)
    (id : Int) :
    (s.setSubscription sub).subscriptions.get? id =
      if id = sub.id then some sub else s.subscriptions.get? id := by
  have hid : old.id = sub.id := Table.pk_of_get? h
  rw [Store.setSubscription, Table.get?_update]
  split
  · rw [h, Option.map_some, overwriteSubscription, hid]
  · rfl

end Fields

section Runs

variable {α : Type} {s s' : Store} {a : α}

theorem read_ok {f : Store → α} (h : (read f).run s = (.ok a, s')) : a = f s ∧ s = s' := by
  cases h
  exact ⟨rfl, rfl⟩

theorem readOrFail_ok {missing : Err} {f : Store → Option α}
    (h : (readOrFail missing f).run s = (.ok a, s')) : f s = some a ∧ s = s' :=
  stepE_read_ok h

theorem ledgerTx_ok {tx : Tx α} (h : (ledgerTx tx).run s = (.ok a, s')) :
    ∃ l, tx.run s.ledger = (.ok a, l) ∧ s' = s.setLedger l := by
  rw [run_ledgerTx] at h
  obtain ⟨hr, rfl⟩ := Prod.mk.injEq .. ▸ h
  exact ⟨_, Prod.ext hr rfl, rfl⟩

theorem succeeds_ledgerTx {tx : Tx α} {Q : α → Store → Prop}
    (h : Succeeds tx s.ledger fun a l => Q a (s.setLedger l)) : Succeeds (ledgerTx tx) s Q := by
  obtain ⟨a, l, hr, hQ⟩ := h
  refine ⟨a, s.setLedger l, ?_, hQ⟩
  rw [run_ledgerTx]
  show ((tx.run s.ledger).1, s.setLedger (tx.run s.ledger).2) = (.ok a, s.setLedger l)
  rw [hr]

theorem succeeds_readOrFail {missing : Err} {f : Store → Option α} {a : α} {Q : α → Store → Prop}
    (hf : f s = some a) (h : Q a s) : Succeeds (readOrFail missing f) s Q := by
  apply succeeds_stepE (t := s) _ h
  rw [hf]

end Runs

end CodeGo.Commerce.Schema
