import CodeGo.Billing.Statements

/-!
# The ledger operations

`internal/billing/domain/ledger_runtime.go` and `outbox.go`. The functions named
`...Tx` are the bodies of the transactions. Those without the suffix add the checks
that the exported variants make first; the exported `Xxx` commits one of them as a
transaction of its own and `XxxTx` runs it in the transaction of the caller.
`u` lists the identifiers that `GetUUID` hands out during the call.
-/

namespace CodeGo.Billing.LedgerRuntime

open Lib.Trim Lib.Wrap Schema Statements

structure OutboxEventInput where
  accountID : String
  aggregateType : String
  aggregateID : String
  eventType : String
  idempotencyKey : String
  payload : Payload

def validateExistingOutboxEvent (existing event : BillingOutboxEvent) : Tx Unit :=
  if existing.eventType ≠ event.eventType ∨ existing.aggregateID ≠ event.aggregateID ∨
      existing.accountID ≠ event.accountID then
    fail .ledgerConflict
  else pure ()

/-- Appends an event to the current ledger transaction. -/
def recordOutboxEvent (uuid : String) (input : OutboxEventInput) : Tx Unit :=
  if blank input.accountID || blank input.aggregateType || blank input.aggregateID ||
      blank input.eventType || blank input.idempotencyKey then
    fail (.message
      "account_id, aggregate_type, aggregate_id, event_type and idempotency_key are required")
  else do
    let event : BillingOutboxEvent := {
      accountID := trimSpace input.accountID
      aggregateType := trimSpace input.aggregateType
      aggregateID := trimSpace input.aggregateID
      eventType := trimSpace input.eventType
      payload := input.payload
      idempotencyKey := trimSpace input.idempotencyKey }
    match ← firstEvent event.idempotencyKey with
    | some existing => validateExistingOutboxEvent existing event
    | none =>
      if ← createEventOnConflictDoNothing (event.beforeCreate uuid) then pure ()
      else match ← firstEvent event.idempotencyKey with
        | some existing => validateExistingOutboxEvent existing event
        | none => fail .recordNotFound

def defaultIfEmpty (value fallback : String) : String := if blank value then fallback else value

def ensureBalanceSnapshot (accountID : String) : Tx Unit := do
  match ← firstSnapshot accountID with
  | some _ => pure ()
  | none =>
    match ← (createSnapshot { accountID := accountID }).attempt with
    | .ok () => pure ()
    | .error err =>
      match ← firstSnapshot accountID with
      | some _ => pure ()
      | none => fail err

def ensureAndLockBalanceSnapshot (accountID : String) : Tx BillingBalanceSnapshot := do
  ensureBalanceSnapshot accountID
  lockSnapshot accountID

structure EnsureAccountParams where
  accountType : String
  ownerType : String
  ownerID : Int
  quotaUnit : String

def ensureBillingAccountTx (u : Uuids) (params : EnsureAccountParams) : Tx BillingAccount := do
  let quotaUnit := if trimSpace params.quotaUnit = "" then "quota" else trimSpace params.quotaUnit
  let accountType := trimSpace params.accountType
  match ← firstAccount (trimSpace params.ownerType, params.ownerID, accountType, quotaUnit) with
  | some account =>
    ensureBalanceSnapshot account.accountID
    pure account
  | none =>
    let account : BillingAccount := BillingAccount.beforeCreate {
      accountType := accountType
      ownerType := trimSpace params.ownerType
      ownerID := params.ownerID
      quotaUnit := quotaUnit } (u 0)
    createAccount account
    ensureBalanceSnapshot account.accountID
    pure account

def ensureBillingAccount (u : Uuids) (params : EnsureAccountParams) : Tx BillingAccount :=
  if params.ownerID ≤ 0 then fail (.message "invalid owner id")
  else if blank params.ownerType || blank params.accountType then
    fail (.message "owner_type and account_type are required")
  else ensureBillingAccountTx u params

structure CreditAccountParams where
  accountID : String
  amount : Int
  idempotencyKey : String
  reasonCode : String := ""
  reasonDetail : String := ""
  referenceType : String := ""
  referenceID : String := ""
  operatorType : String := ""
  operatorID : String := ""

def creditAccountTx (u : Uuids) (params : CreditAccountParams) : Tx BillingLedgerEntry := do
  match ← findLedgerEntryByIdempotency params.idempotencyKey with
  | some existing =>
    if existing.accountID ≠ params.accountID ∨ existing.amount ≠ params.amount ∨
        existing.entryType ≠ .grantCredit then
      fail .ledgerConflict
    else pure existing
  | none =>
    let locked ← ensureAndLockBalanceSnapshot params.accountID
    let snapshot := { locked with
      availableBalance := wrap64 (locked.availableBalance + params.amount)
      grantedTotal := wrap64 (locked.grantedTotal + params.amount) }
    saveSnapshot snapshot
    let entry := BillingLedgerEntry.beforeCreate {
      accountID := params.accountID
      referenceType := defaultIfEmpty (trimSpace params.referenceType) "migration"
      referenceID := defaultIfEmpty (trimSpace params.referenceID) params.accountID
      entryType := .grantCredit
      direction := .credit
      amount := params.amount
      balanceAfter := some snapshot.availableBalance
      idempotencyKey := trimSpace params.idempotencyKey
      reasonCode := defaultIfEmpty (trimSpace params.reasonCode) "grant_credit"
      reasonDetail := trimSpace params.reasonDetail
      operatorType := defaultIfEmpty (trimSpace params.operatorType) "system"
      operatorID := trimSpace params.operatorID } (u 0)
    createEntry entry
    recordOutboxEvent (u 1) {
      accountID := entry.accountID
      aggregateType := "ledger_entry"
      aggregateID := entry.entryID
      eventType := "billing.credit_granted"
      idempotencyKey := "outbox:" ++ entry.idempotencyKey
      payload := .entry entry }
    pure entry

/-- Grants available balance through a ledger entry and updates snapshot totals. -/
def creditAccount (u : Uuids) (params : CreditAccountParams) : Tx BillingLedgerEntry :=
  if blank params.accountID || params.amount ≤ 0 || blank params.idempotencyKey then
    fail (.message "account_id, amount and idempotency_key are required")
  else creditAccountTx u params

structure CreateReservationParams where
  accountID : String
  requestID : String := ""
  workflowID : String := ""
  reservedAmount : Int
  idempotencyKey : String
  expiresAt : Option Int := none

def createReservationTx (u : Uuids) (params : CreateReservationParams) :
    Tx BillingReservation := do
  match ← findReservationByIdempotency params.idempotencyKey with
  | some existing =>
    if existing.accountID ≠ params.accountID ∨ existing.reservedAmount ≠ params.reservedAmount ∨
        existing.requestID ≠ trimSpace params.requestID ∨
        existing.workflowID ≠ trimSpace params.workflowID then
      fail .ledgerConflict
    else pure existing
  | none =>
    let locked ← ensureAndLockBalanceSnapshot params.accountID
    if locked.availableBalance < params.reservedAmount then fail .insufficientBalance
    else
      let snapshot := { locked with
        availableBalance := wrap64 (locked.availableBalance - params.reservedAmount)
        reservedBalance := wrap64 (locked.reservedBalance + params.reservedAmount) }
      saveSnapshot snapshot
      let reservation := BillingReservation.beforeCreate {
        accountID := params.accountID
        requestID := trimSpace params.requestID
        workflowID := trimSpace params.workflowID
        reservedAmount := params.reservedAmount
        status := .open
        idempotencyKey := trimSpace params.idempotencyKey
        expiresAt := params.expiresAt } (u 0)
      createReservationRow reservation
      let entry := BillingLedgerEntry.beforeCreate {
        accountID := params.accountID
        referenceType := "reservation"
        referenceID := reservation.reservationID
        entryType := .reserveHold
        direction := .debit
        amount := params.reservedAmount
        balanceAfter := some snapshot.availableBalance
        idempotencyKey := "entry:" ++ reservation.idempotencyKey
        reasonCode := "reservation_hold"
        operatorType := "system" } (u 1)
      createEntry entry
      recordOutboxEvent (u 2) {
        accountID := reservation.accountID
        aggregateType := "reservation"
        aggregateID := reservation.reservationID
        eventType := "billing.reservation_created"
        idempotencyKey := "outbox:" ++ reservation.idempotencyKey
        payload := .reservation reservation }
      pure reservation

/-- Opens a reservation and holds funds in the balance snapshot. -/
def createReservation (u : Uuids) (params : CreateReservationParams) : Tx BillingReservation :=
  if blank params.accountID || params.reservedAmount ≤ 0 || blank params.idempotencyKey then
    fail (.message "account_id, reserved_amount and idempotency_key are required")
  else createReservationTx u params

structure ReleaseReservationParams where
  reservationID : String
  idempotencyKey : String
  reasonCode : String := ""

def releaseReservationTx (u : Uuids) (params : ReleaseReservationParams) :
    Tx BillingReservation := do
  let current ← lockReservation params.reservationID
  if current.status = .released then pure current
  else if current.status ≠ .open then fail .reservationNotOpen
  else match ← findLedgerEntryByIdempotency params.idempotencyKey with
  | some existing =>
    if existing.referenceID ≠ current.reservationID ∨ existing.entryType ≠ .reserveRelease then
      fail .ledgerConflict
    else
      updateReservationStatus current.reservationID .released
      pure { current with status := .released }
  | none =>
    let locked ← ensureAndLockBalanceSnapshot current.accountID
    if locked.reservedBalance < current.reservedAmount then
      fail (.message "reserved balance underflow")
    else
      let snapshot := { locked with
        availableBalance := wrap64 (locked.availableBalance + current.reservedAmount)
        reservedBalance := wrap64 (locked.reservedBalance - current.reservedAmount) }
      saveSnapshot snapshot
      let current := { current with status := .released }
      saveReservation current
      let entry := BillingLedgerEntry.beforeCreate {
        accountID := current.accountID
        referenceType := "reservation"
        referenceID := current.reservationID
        entryType := .reserveRelease
        direction := .credit
        amount := current.reservedAmount
        balanceAfter := some snapshot.availableBalance
        idempotencyKey := trimSpace params.idempotencyKey
        reasonCode := defaultIfEmpty (trimSpace params.reasonCode) "reservation_release"
        operatorType := "system" } (u 0)
      createEntry entry
      recordOutboxEvent (u 1) {
        accountID := current.accountID
        aggregateType := "reservation"
        aggregateID := current.reservationID
        eventType := "billing.reservation_released"
        idempotencyKey := "outbox:" ++ entry.idempotencyKey
        payload := .reservation current }
      pure current

/-- Releases an open reservation back to available balance. -/
def releaseReservation (u : Uuids) (params : ReleaseReservationParams) : Tx BillingReservation :=
  if blank params.reservationID || blank params.idempotencyKey then
    fail (.message "reservation_id and idempotency_key are required")
  else releaseReservationTx u params

structure SettleReservationParams where
  reservationID : String
  usageEvidenceID : String := ""
  actualAmount : Int
  idempotencyKey : String

/-- The snapshot after a settlement: the hold becomes consumption and the difference moves
between hold and available balance. -/
def settleSnapshot (snapshot : BillingBalanceSnapshot) (reserved actual delta : Int) :
    BillingBalanceSnapshot :=
  let snapshot := { snapshot with
    reservedBalance := wrap64 (snapshot.reservedBalance - reserved)
    consumedTotal := wrap64 (snapshot.consumedTotal + actual) }
  if delta > 0 then
    { snapshot with availableBalance := wrap64 (snapshot.availableBalance - delta) }
  else if delta < 0 then
    { snapshot with
      availableBalance := wrap64 (snapshot.availableBalance + -delta)
      refundedTotal := wrap64 (snapshot.refundedTotal + -delta) }
  else snapshot

/-- The ledger entry of a settlement, for the difference to the hold if there is one. -/
def createSettleEntry (uuid accountID : String) (settlement : BillingSettlement)
    (balanceAfter : Int) : Tx Unit :=
  let delta := settlement.deltaAmount
  if delta ≠ 0 then
    createEntry <| BillingLedgerEntry.beforeCreate {
      accountID := accountID
      referenceType := "settlement"
      referenceID := settlement.settlementID
      entryType := if delta < 0 then .settleCredit else .settleDebit
      direction := if delta < 0 then .credit else .debit
      amount := if delta < 0 then -delta else delta
      balanceAfter := some balanceAfter
      idempotencyKey := "entry:" ++ settlement.idempotencyKey
      reasonCode := "reservation_settlement"
      operatorType := "system" } uuid
  else pure ()

def settleReservationTx (u : Uuids) (params : SettleReservationParams) :
    Tx BillingSettlement := do
  match ← findSettlementByIdempotency params.idempotencyKey with
  | some existing =>
    if existing.reservationID ≠ params.reservationID ∨
        existing.actualAmount ≠ params.actualAmount then
      fail .ledgerConflict
    else pure existing
  | none =>
    let current ← lockReservation params.reservationID
    if current.status ≠ .open then
      if current.status = .settled then fail .settlementAlreadyExist
      else fail .reservationNotOpen
    else
      let locked ← ensureAndLockBalanceSnapshot current.accountID
      if locked.reservedBalance < current.reservedAmount then
        fail (.message "reserved balance underflow")
      else
        -- both amounts are non-negative, so the difference does not overflow
        let delta := params.actualAmount - current.reservedAmount
        if delta > 0 ∧ locked.availableBalance < delta then fail .insufficientBalance
        else
          let snapshot := settleSnapshot locked current.reservedAmount params.actualAmount delta
          saveSnapshot snapshot
          let settlement := BillingSettlement.beforeCreate {
            reservationID := current.reservationID
            usageEvidenceID := trimSpace params.usageEvidenceID
            actualAmount := params.actualAmount
            deltaAmount := delta
            status := .completed
            idempotencyKey := trimSpace params.idempotencyKey } (u 0)
          createSettlement settlement
          saveReservation { current with status := .settled }
          createSettleEntry (u 1) current.accountID settlement snapshot.availableBalance
          recordOutboxEvent (u 2) {
            accountID := current.accountID
            aggregateType := "settlement"
            aggregateID := settlement.settlementID
            eventType := "billing.reservation_settled"
            idempotencyKey := "outbox:" ++ settlement.idempotencyKey
            payload := .settlement settlement }
          pure settlement

/-- Finalizes an open reservation and applies delta debit/credit. -/
def settleReservation (u : Uuids) (params : SettleReservationParams) : Tx BillingSettlement :=
  if blank params.reservationID || blank params.idempotencyKey then
    fail (.message "reservation_id and idempotency_key are required")
  else if params.actualAmount < 0 then fail (.message "actual_amount cannot be negative")
  else settleReservationTx u params

structure RecordAdjustmentParams where
  accountID : String
  idempotencyKey : String
  reasonCode : String := ""
  reasonDetail : String := ""
  referenceType : String := ""
  referenceID : String := ""
  operatorType : String := ""
  operatorID : String := ""
  metadata : String := ""

def recordAdjustmentTx (u : Uuids) (params : RecordAdjustmentParams) :
    Tx BillingLedgerEntry := do
  match ← findLedgerEntryByIdempotency params.idempotencyKey with
  | some existing =>
    if existing.accountID ≠ params.accountID ∨ existing.entryType ≠ .adjustment then
      fail .ledgerConflict
    else pure existing
  | none =>
    let entry := BillingLedgerEntry.beforeCreate {
      accountID := params.accountID
      referenceType := defaultIfEmpty params.referenceType "adjustment"
      referenceID := defaultIfEmpty params.referenceID params.accountID
      entryType := .adjustment
      direction := .credit
      amount := 0
      idempotencyKey := params.idempotencyKey
      reasonCode := defaultIfEmpty params.reasonCode "adjustment"
      reasonDetail := trimSpace params.reasonDetail
      operatorType := defaultIfEmpty params.operatorType "system"
      operatorID := params.operatorID
      metadata := params.metadata } (u 0)
    createEntry entry
    recordOutboxEvent (u 1) {
      accountID := entry.accountID
      aggregateType := "ledger_entry"
      aggregateID := entry.entryID
      eventType := "billing.adjustment_recorded"
      idempotencyKey := "outbox:" ++ entry.idempotencyKey
      payload := .entry entry }
    pure entry

/-- Records a zero-balance audit adjustment. It never changes available or reserved funds. -/
def recordAdjustment (u : Uuids) (params : RecordAdjustmentParams) : Tx BillingLedgerEntry :=
  if blank params.accountID || blank params.idempotencyKey then
    fail (.message "account_id and idempotency_key are required")
  else recordAdjustmentTx u params

end CodeGo.Billing.LedgerRuntime
