import CodeGo.Billing.Statements

/-!
# Recomputing a balance snapshot

`internal/billing/app/ledger_snapshot_aggregation.go` and the rebuild of
`ledger_worker.go`: the five balances of an account as sums over its ledger
entries, settlements and open reservations.
-/

namespace CodeGo.Billing.Aggregation

open Lib Lib.Wrap Schema Statements

/-- What an entry adds to the available balance, by its type. -/
def availableOf (e : BillingLedgerEntry) : Int :=
  match e.entryType with
  | .grantCredit | .reserveRelease | .settleCredit => e.amount
  | .reserveHold | .settleDebit => -e.amount
  | .adjustment => 0

def grantedOf (e : BillingLedgerEntry) : Int :=
  match e.entryType with
  | .grantCredit => e.amount
  | _ => 0

/-- The settlement is completed and its reservation belongs to the account. -/
def settledFor (reservations : Table BillingReservation) (accountID : String)
    (s : BillingSettlement) : Bool :=
  s.status = .completed ∧
    (reservations.get? s.reservationID).any fun r => r.accountID = accountID

def availableSum (l : Ledger) (accountID : String) : Int :=
  l.entries.sum fun e => if e.accountID = accountID then availableOf e else 0

def grantedSum (l : Ledger) (accountID : String) : Int :=
  l.entries.sum fun e => if e.accountID = accountID then grantedOf e else 0

def consumedSum (l : Ledger) (accountID : String) : Int :=
  l.settlements.sum fun s =>
    if settledFor l.reservations accountID s then s.actualAmount else 0

def refundedSum (l : Ledger) (accountID : String) : Int :=
  l.settlements.sum fun s =>
    if settledFor l.reservations accountID s then
      if s.deltaAmount < 0 then -s.deltaAmount else 0
    else 0

def reservedSum (l : Ledger) (accountID : String) : Int :=
  l.reservations.sum fun r =>
    if r.accountID = accountID ∧ r.status = .open then r.reservedAmount else 0

/-- `SELECT SUM(...)` scanned into `int64` columns, under no lock. -/
def selectSums (view : View) (f : Ledger → Int × Int) : Tx (Int × Int) :=
  .stepE { watches := [view] } fun l =>
    if InRange (f l).1 ∧ InRange (f l).2 then (.ok (f l), l) else (.error .outOfRange, l)

def aggregateExpectedBalanceSnapshot (accountID : String) : Tx BillingBalanceSnapshot := do
  let entries ← selectSums (.entries accountID) fun l =>
    (availableSum l accountID, grantedSum l accountID)
  let settlements ← selectSums (.settlements accountID) fun l =>
    (consumedSum l accountID, refundedSum l accountID)
  let reserved ← selectSums (.openReservations accountID) fun l => (reservedSum l accountID, 0)
  pure {
    accountID := accountID
    availableBalance := entries.1
    grantedTotal := entries.2
    consumedTotal := settlements.1
    refundedTotal := settlements.2
    reservedBalance := reserved.1 }

/-- The mismatch with the stored row is only logged. -/
def rebuildBalanceSnapshotTx (accountID : String) : Tx Unit := do
  let _ ← lockAccount accountID
  let _ ← firstSnapshot accountID
  let snapshot ← aggregateExpectedBalanceSnapshot accountID
  saveSnapshot snapshot

def processLedgerOutboxEvent (eventID : String) : Tx Unit := do
  let event ← lockEvent eventID
  if event.status = .published then pure ()
  else
    rebuildBalanceSnapshotTx event.accountID
    publishEvent event.eventID

/-- What the views of the aggregation show. -/
instance : Parts Ledger View where
  agree
    | .entries a, l, l' => availableSum l a = availableSum l' a ∧ grantedSum l a = grantedSum l' a
    | .settlements a, l, l' =>
      consumedSum l a = consumedSum l' a ∧ refundedSum l a = refundedSum l' a
    | .openReservations a, l, l' => reservedSum l a = reservedSum l' a
  agree_refl v l := by cases v <;> simp
  agree_trans v l l' l'' h h' := by
    cases v with
    | entries a => exact ⟨h.1.trans h'.1, h.2.trans h'.2⟩
    | settlements a => exact ⟨h.1.trans h'.1, h.2.trans h'.2⟩
    | openReservations a => exact h.trans h'

end CodeGo.Billing.Aggregation
