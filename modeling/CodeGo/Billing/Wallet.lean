import CodeGo.Billing.FundingAttribution
import CodeGo.Billing.LedgerRuntime
import CodeGo.Lib.Sha256

/-!
# Wallets mirrored in the ledger

`wallet_store.go` and `wallet_transfer.go` in `internal/billing/app`: the quota
columns of a user and the ledger accounts behind them. The functions named
`...Tx` run inside a transaction of the caller, the others commit each ledger
transaction on its own. A pair of them that differs in this alone is one
definition over `run`, which is `ledger` for one of its purposes or `ledgerTx`.
-/

namespace CodeGo.Billing.Wallet

open Lib Schema Statements LedgerRuntime FundingAttribution Platform.Database Identity.Schema
  Identity.Store

def ownerTypeUser : String := "user"
def quotaUnitQuota : String := "quota"

def accountType : Wallet → String
  | .wallet => "wallet"
  | .claudeWallet => "claude_wallet"

structure MirroredWalletStore where
  accountType : String
  readBalance : Int → App Int
  applyDelta : Int → Int → App Unit

def loadBalanceSnapshot (accountID : String) : App BillingBalanceSnapshot :=
  readOrFail .recordNotFound fun s => s.ledger.snapshots.get? accountID

def findAccount (ownerType : String) (ownerID : Int) (accountType : String) (l : Ledger) :
    Option BillingAccount :=
  l.accounts.find? fun a => a.owner = (ownerType, ownerID, accountType, quotaUnitQuota)

section Ledger

def hasNonZeroSnapshot (snapshot : BillingBalanceSnapshot) : Bool :=
  snapshot.availableBalance ≠ 0 ∨ snapshot.reservedBalance ≠ 0 ∨ snapshot.consumedTotal ≠ 0 ∨
    snapshot.refundedTotal ≠ 0 ∨ snapshot.grantedTotal ≠ 0

def reservationRequestIDMax : Nat := 64

def ledgerSyncRequestID (operationID : String) : String :=
  let requestID := "ledger-sync:" ++ operationID
  if requestID.utf8ByteSize ≤ reservationRequestIDMax then requestID
  else
    let digest := Sha256.sum256 operationID.toUTF8.data.toList
    "ledger-sync:" ++ Sha256.encodeToString (digest.take 24)

variable (run : {α : Type} → Tx α → App α)

/-- What a change of a ledger balance is recorded under. -/
structure LedgerSync where
  creditKey : String
  requestID : String
  reservationKey : String
  settlementKey : String
  reasonCode : String
  referenceType : String
  referenceID : String
  operatorID : String

/-- A credit, or a reservation that is settled in full. -/
def applyDeltaVia (u : Uuids) (accountID : String) (delta : Int) (sync : LedgerSync) : App Unit :=
  if delta = 0 then pure ()
  else if delta < 0 then do
    let _ ← run (creditAccount u {
      accountID := accountID
      amount := -delta
      idempotencyKey := sync.creditKey
      reasonCode := sync.reasonCode
      referenceType := sync.referenceType
      referenceID := sync.referenceID
      operatorType := "ledger_sync"
      operatorID := sync.operatorID })
    pure ()
  else do
    let reservation ← run (createReservation u {
      accountID := accountID
      requestID := sync.requestID
      reservedAmount := delta
      idempotencyKey := sync.reservationKey })
    let _ ← run (settleReservation (u.drop 3) {
      reservationID := reservation.reservationID
      actualAmount := delta
      idempotencyKey := sync.settlementKey })
    pure ()

def walletSync (userID : Int) (operationID reasonCode : String) : LedgerSync where
  creditKey := "ledger-credit:" ++ operationID
  requestID := ledgerSyncRequestID operationID
  reservationKey := "ledger-reservation:" ++ operationID
  settlementKey := "ledger-settlement:" ++ operationID
  reasonCode := reasonCode
  referenceType := "user"
  referenceID := toString userID
  operatorID := operationID

def applyLedgerDeltaVia (u : Uuids) (accountID : String) (userID delta : Int)
    (operationID reasonCode : String) : App Unit :=
  applyDeltaVia run u accountID delta (walletSync userID operationID reasonCode)

/-- The account, with the quota column credited to it if it never had a balance. -/
def ensureMirroredAccountVia (u : Uuids) (account : EnsureAccountParams) (legacyBalance : Int)
    (bootstrapKey referenceType referenceID : String) : App BillingAccount := do
  let account ← run (ensureBillingAccount u account)
  let snapshot ← loadBalanceSnapshot account.accountID
  if hasNonZeroSnapshot snapshot || legacyBalance ≤ 0 then pure account
  else
    let _ ← run (creditAccount (u.drop 1) {
      accountID := account.accountID
      amount := legacyBalance
      idempotencyKey := bootstrapKey
      reasonCode := "mirror_bootstrap"
      referenceType := referenceType
      referenceID := referenceID
      operatorType := "ledger_sync"
      operatorID := "mirror_bootstrap" })
    pure account

def bootstrapKey (userID : Int) (accountType : String) : String :=
  "mirror-bootstrap:user:" ++ toString userID ++ ":" ++ accountType

def ensureMirroredUserAccountVia (u : Uuids) (userID : Int) (accountType : String)
    (legacyBalance : Int) : App BillingAccount :=
  ensureMirroredAccountVia run u {
    accountType := accountType
    ownerType := ownerTypeUser
    ownerID := userID
    quotaUnit := quotaUnitQuota } legacyBalance (bootstrapKey userID accountType)
    "user" (toString userID)

/-- Moves the ledger balance to the quota that was read. -/
def reconcileAccountBalanceVia (u : Uuids) (accountID : String) (userID legacyBalance : Int) :
    App Unit := do
  let snapshot ← loadBalanceSnapshot accountID
  let diff := legacyBalance - snapshot.availableBalance
  if diff = 0 then pure ()
  else
    applyLedgerDeltaVia run (u.drop 1) accountID userID (-diff) ("reconcile:" ++ u 0)
      "ledger_sync_reconcile"

end Ledger

def applyLedgerDeltaTx := applyLedgerDeltaVia ledgerTx
def ensureMirroredUserAccountTx := ensureMirroredUserAccountVia ledgerTx
def reconcileAccountBalanceTx := reconcileAccountBalanceVia ledgerTx

/-- The quota column read and increased inside a transaction. -/
def mirroredWalletTx (w : Wallet) : MirroredWalletStore where
  accountType := accountType w
  readBalance := loadQuota w
  applyDelta := fun userID amount => modify (addToColumn w userID amount)

def defaultReasonCode (value fallback : String) : String := if value ≠ "" then value else fallback

def creditUserWalletQuotaTx (u : Uuids) (userID amount : Int) (idempotencyKey reasonCode : String)
    (mirrored : MirroredWalletStore) : App Unit :=
  if userID ≤ 0 then .fail (.message "invalid user id")
  else if amount ≤ 0 then .fail (.message "amount must be positive")
  else if idempotencyKey = "" then .fail (.message "idempotency key is required")
  else do
    let legacyBalance ← mirrored.readBalance userID
    let account ← ensureMirroredUserAccountTx u userID mirrored.accountType legacyBalance
    reconcileAccountBalanceTx (u.drop 3) account.accountID userID legacyBalance
    let entry ← ledgerTx (creditAccount (u.drop 10) {
      accountID := account.accountID
      amount := amount
      idempotencyKey := idempotencyKey
      reasonCode := defaultReasonCode reasonCode "ledger_sync_credit"
      referenceType := "user"
      referenceID := toString userID
      operatorType := "ledger_sync"
      operatorID := idempotencyKey })
    recordFundingLotTx (u 12) account.accountID amount idempotencyKey reasonCode
      entry.referenceType entry.referenceID
    mirrored.applyDelta userID amount

def creditWalletQuotaTx (u : Uuids) (userID amount : Int) (idempotencyKey reasonCode : String) :
    App Unit :=
  creditUserWalletQuotaTx u userID amount idempotencyKey reasonCode (mirroredWalletTx .wallet)

def creditClaudeWalletQuotaTx (u : Uuids) (userID amount : Int)
    (idempotencyKey reasonCode : String) : App Unit :=
  creditUserWalletQuotaTx u userID amount idempotencyKey reasonCode (mirroredWalletTx .claudeWallet)

/-- The decrement is refused where the column does not cover it. -/
def decreaseUserQuotaColumnTx (w : Wallet) (userID amount : Int) : App Unit :=
  .stepE .statement fun s =>
    if (s.users.get? userID).any fun user => user.column w ≥ amount then
      (.ok (), addToColumn w userID (-amount) s)
    else (.error .insufficientBalance, s)

def debitMirroredWalletTx (w : Wallet) : MirroredWalletStore :=
  { mirroredWalletTx w with applyDelta := decreaseUserQuotaColumnTx w }

def debitUserWalletQuotaTx (u : Uuids) (userID amount : Int) (operationID : String)
    (mirrored : MirroredWalletStore) (consumeBonus : Bool) : App Unit :=
  if userID ≤ 0 ∨ amount ≤ 0 ∨ operationID = "" then .fail (.message "invalid wallet debit")
  else do
    let legacyBalance ← mirrored.readBalance userID
    if legacyBalance < amount then .fail .insufficientBalance
    else
      let account ← ensureMirroredUserAccountTx u userID mirrored.accountType legacyBalance
      reconcileAccountBalanceTx (u.drop 3) account.accountID userID legacyBalance
      applyLedgerDeltaTx (u.drop 10) account.accountID userID amount operationID
        "wallet_quota_conversion_debit"
      mirrored.applyDelta userID amount
      if consumeBonus then consumeBonusWalletQuotaCreditsTx userID amount else pure ()

def debitWalletQuotaTx (u : Uuids) (userID amount : Int) (operationID : String) : App Unit :=
  debitUserWalletQuotaTx u userID amount operationID (debitMirroredWalletTx .wallet) true

def debitClaudeWalletQuotaTx (u : Uuids) (userID amount : Int) (operationID : String) : App Unit :=
  debitUserWalletQuotaTx u userID amount operationID (debitMirroredWalletTx .claudeWallet) false

end CodeGo.Billing.Wallet
