import CodeGo.Billing.Schema

/-!
# Bonus credits and funding lots

The rows of `points.go` and `funding_attribution.go` in `internal/billing/schema`:
where the quota of a wallet came from. Revenue multipliers are left out.
-/

namespace CodeGo.Billing.FundingSchema

open Lib Schema

inductive BonusQuotaStatus where
  | active | exhausted
  deriving DecidableEq, Repr

structure BonusQuotaCredit where
  id : Int
  userID : Int
  originalAmount : Int
  remainingAmount : Int
  sourceType : String
  sourceID : String
  idempotencyKey : String
  status : BonusQuotaStatus
  deriving DecidableEq, Repr

inductive FundingSource where
  | topup | blindBox | subscription | legacyUnattributed | other
  deriving DecidableEq, Repr

structure FundingLot where
  lotID : String := ""
  accountID : String
  source : FundingSource
  referenceType : String
  referenceID : String
  idempotencyKey : String
  originalAmount : Int
  remainingAmount : Int
  deriving DecidableEq, Repr

structure FundingAllocation where
  allocationID : String := ""
  requestID : String
  lotID : String
  accountID : String
  source : FundingSource
  amount : Int
  deriving DecidableEq, Repr

def FundingLot.beforeCreate (lot : FundingLot) (uuid : String) : FundingLot :=
  { lot with lotID := defaultID lot.lotID uuid }

def FundingAllocation.beforeCreate (allocation : FundingAllocation) (uuid : String) :
    FundingAllocation :=
  { allocation with allocationID := defaultID allocation.allocationID uuid }

instance : Indexed BonusQuotaCredit Int where
  pk := BonusQuotaCredit.id
  clash c d := c.id = d.id ∨ c.idempotencyKey = d.idempotencyKey
  clash_comm c d := by simp only [eq_comm]
  clash_of_pk c d h := by simp [h]

instance : Indexed FundingLot String where
  pk := FundingLot.lotID
  clash l m := l.lotID = m.lotID ∨ l.idempotencyKey = m.idempotencyKey
  clash_comm l m := by simp only [eq_comm]
  clash_of_pk l m h := by simp [h]

instance : Indexed FundingAllocation String where
  pk := FundingAllocation.allocationID
  clash a b := a.allocationID = b.allocationID ∨ a.requestID = b.requestID ∧ a.lotID = b.lotID
  clash_comm a b := by simp only [eq_comm]
  clash_of_pk a b h := by simp [h]

/-- What is left of a credit after `use` of it was consumed. -/
def BonusQuotaCredit.consume (use : Int) (credit : BonusQuotaCredit) : BonusQuotaCredit :=
  let left := credit.remainingAmount - use
  if left ≤ 0 then { credit with remainingAmount := 0, status := .exhausted }
  else { credit with remainingAmount := left }

theorem keepsIndexes_consume (use : Int) : Table.KeepsIndexes (BonusQuotaCredit.consume use) := by
  intro credit
  unfold BonusQuotaCredit.consume
  dsimp only
  split <;> exact ⟨rfl, fun _ => rfl⟩

def FundingLot.use (used : Int) (lot : FundingLot) : FundingLot :=
  { lot with remainingAmount := lot.remainingAmount - used }

theorem keepsIndexes_use (used : Int) : Table.KeepsIndexes (FundingLot.use used) :=
  fun _ => ⟨rfl, fun _ => rfl⟩

end CodeGo.Billing.FundingSchema
