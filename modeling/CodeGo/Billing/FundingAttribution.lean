import CodeGo.Identity.Store
import Mathlib.Data.List.Infix

/-!
# Where wallet quota came from

`funding_attribution.go` and the consumption half of `bonus_quota.go` in
`internal/billing/app`. Identifiers of bonus credits grow, so the rows stand in
the order of their identifiers. None of these functions touches the ledger or a
quota column.
-/

namespace CodeGo.Billing.FundingAttribution

open Lib Lib.Trim Schema FundingSchema Platform.Database

def consumeCredits : List BonusQuotaCredit → Int → App Unit
  | [], _ => pure ()
  | credit :: credits, remaining =>
    if remaining ≤ 0 then pure ()
    else do
      let use := if credit.remainingAmount > remaining then remaining else credit.remainingAmount
      modify fun s => { s with
        bonusQuotaCredits := s.bonusQuotaCredits.update credit.id _ (keepsIndexes_consume use) }
      consumeCredits credits (remaining - use)

/-- Consumes bonus provenance inside the caller's transaction. -/
def consumeBonusWalletQuotaCreditsTx (userID amount : Int) : App Unit :=
  if userID ≤ 0 ∨ amount ≤ 0 then pure ()
  else do
    let credits ← read fun s => s.bonusQuotaCredits.rows.filter fun credit =>
      credit.userID = userID ∧ credit.remainingAmount > 0
    consumeCredits credits amount

/-- `strings.ToLower`, on the characters that become ASCII letters. -/
def toLower (s : String) : String := s.map fun c =>
  if c.toNat = 0x130 then 'i' else if c.toNat = 0x212A then 'k' else c.toLower

def containsText (s text : String) : Bool := decide (text.toList <:+: s.toList)

def fundingSourceFromReason (reasonCode : String) : FundingSource :=
  let reasonCode := toLower (trimSpace reasonCode)
  if containsText reasonCode "topup" || containsText reasonCode "top_up" then .topup
  else if containsText reasonCode "blind_box" || containsText reasonCode "blind-box" then .blindBox
  else .other

def createLot (lot : FundingLot) : App Unit :=
  writeTable DB.fundingLots (fun t s => { s with fundingLots := t }) fun t => t.insert? lot

def recordFundingLotTx (uuid accountID : String) (amount : Int)
    (idempotencyKey reasonCode referenceType referenceID : String) : App Unit :=
  if amount ≤ 0 || blank accountID then pure ()
  else do
    match ← read fun s => s.fundingLots.find? fun lot => lot.idempotencyKey = idempotencyKey with
    | some _ => pure ()
    | none =>
      createLot <| FundingLot.beforeCreate {
        accountID := accountID
        source := fundingSourceFromReason reasonCode
        referenceType := referenceType
        referenceID := referenceID
        originalAmount := amount
        remainingAmount := amount
        idempotencyKey := idempotencyKey } uuid

/-- Takes the amount from the lots in order and returns what they do not cover. -/
def useLots (u : Uuids) (requestID accountID : String) : List FundingLot → Int → App Int
  | [], remaining => pure remaining
  | lot :: lots, remaining =>
    if remaining = 0 then pure remaining
    else do
      let used := if lot.remainingAmount > remaining then remaining else lot.remainingAmount
      modify fun s => { s with
        fundingLots := s.fundingLots.update lot.lotID _ (keepsIndexes_use used) }
      let allocation := FundingAllocation.beforeCreate {
        requestID := requestID
        lotID := lot.lotID
        accountID := accountID
        source := lot.source
        amount := used } (u 0)
      writeTable DB.fundingAllocations (fun t s => { s with fundingAllocations := t })
        fun t => t.insert? allocation
      useLots (u.drop 1) requestID accountID lots (remaining - used)

theorem keeps_consumeCredits (credits : List BonusQuotaCredit) (remaining : Int) :
    (consumeCredits credits remaining).Keeps DB.core := by
  induction credits generalizing remaining with
  | nil => trivial
  | cons credit credits ih =>
    apply Prog.Keeps.ite
    · trivial
    · exact .bind (.step fun _ => rfl) fun _ => ih _

theorem keeps_consumeBonusWalletQuotaCreditsTx (userID amount : Int) :
    (consumeBonusWalletQuotaCreditsTx userID amount).Keeps DB.core := by
  apply Prog.Keeps.ite
  · trivial
  · exact .bind (keeps_read _) fun credits => keeps_consumeCredits credits amount

theorem keeps_createLot (lot : FundingLot) : (createLot lot).Keeps DB.core :=
  keeps_writeTable fun _ _ => rfl

theorem keeps_recordFundingLotTx (uuid accountID : String) (amount : Int)
    (key reasonCode referenceType referenceID : String) :
    (recordFundingLotTx uuid accountID amount key reasonCode referenceType referenceID).Keeps
      DB.core := by
  apply Prog.Keeps.ite
  · trivial
  · refine .bind (keeps_read _) fun found => ?_
    cases found with
    | some lot => trivial
    | none => exact keeps_createLot _

end CodeGo.Billing.FundingAttribution
