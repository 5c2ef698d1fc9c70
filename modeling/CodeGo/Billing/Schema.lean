import CodeGo.Lib.Table
import CodeGo.Lib.Trim
import CodeGo.Lib.Wrap

/-!
# The billing schema

The rows of `internal/billing/schema`, with the primary keys and unique indexes
of their tables. Creation times are the order of the rows in their table.
-/

namespace CodeGo.Billing.Schema

open Lib Lib.Trim

/-- Identifiers that `GetUUID` hands out, in the order of the calls. -/
abbrev Uuids := Nat → String

/-- The identifiers left after `n` calls. -/
def Uuids.drop (u : Uuids) (n : Nat) : Uuids := fun i => u (n + i)

/-- The identifiers `base`, `base0`, `base00` and so on, for samples. -/
def sampleUuids (base : String) : Uuids := fun i => base ++ String.ofList (List.replicate i '0')

inductive ReservationStatus where
  | open | settled | released | expired
  deriving DecidableEq, Repr

inductive SettlementStatus where
  | pending | completed | rejected
  deriving DecidableEq, Repr

inductive Direction where
  | debit | credit
  deriving DecidableEq, Repr

inductive EntryType where
  | reserveHold | reserveRelease | settleDebit | settleCredit | grantCredit | adjustment
  deriving DecidableEq, Repr

inductive OutboxStatus where
  | pending | published
  deriving DecidableEq, Repr

structure BillingAccount where
  accountID : String := ""
  accountType : String
  ownerType : String
  ownerID : Int
  quotaUnit : String
  deriving DecidableEq, Repr

structure BillingBalanceSnapshot where
  accountID : String
  availableBalance : Int := 0
  reservedBalance : Int := 0
  consumedTotal : Int := 0
  refundedTotal : Int := 0
  grantedTotal : Int := 0
  deriving DecidableEq, Repr

structure BillingLedgerEntry where
  entryID : String := ""
  accountID : String
  referenceType : String
  referenceID : String
  entryType : EntryType
  direction : Direction
  amount : Int
  balanceAfter : Option Int := none
  idempotencyKey : String
  reasonCode : String
  reasonDetail : String := ""
  operatorType : String
  operatorID : String := ""
  metadata : String := ""
  deriving DecidableEq, Repr

structure BillingReservation where
  reservationID : String := ""
  requestID : String
  workflowID : String
  accountID : String
  reservedAmount : Int
  status : ReservationStatus
  idempotencyKey : String
  expiresAt : Option Int
  deriving DecidableEq, Repr

structure BillingSettlement where
  settlementID : String := ""
  reservationID : String
  usageEvidenceID : String
  actualAmount : Int
  deltaAmount : Int
  status : SettlementStatus
  idempotencyKey : String
  deriving DecidableEq, Repr

/-- What an outbox event serialises. -/
inductive Payload where
  | entry (e : BillingLedgerEntry)
  | reservation (r : BillingReservation)
  | settlement (s : BillingSettlement)
  deriving DecidableEq, Repr

structure BillingOutboxEvent where
  eventID : String := ""
  accountID : String
  aggregateType : String
  aggregateID : String
  eventType : String
  payload : Payload
  idempotencyKey : String
  status : OutboxStatus := .pending
  attempts : Nat := 0
  lastError : String := ""
  deriving DecidableEq, Repr

/-- A blank identifier is replaced by a generated one. -/
def defaultID (id uuid : String) : String := if blank id then uuid else id

@[simp] theorem defaultID_empty (uuid : String) : defaultID "" uuid = uuid := by
  have : blank "" = true := by decide +kernel
  rw [defaultID, if_pos this]

def BillingAccount.beforeCreate (a : BillingAccount) (uuid : String) : BillingAccount :=
  { a with
    accountID := defaultID a.accountID uuid
    quotaUnit := if blank a.quotaUnit then "quota" else a.quotaUnit }

def BillingLedgerEntry.beforeCreate (e : BillingLedgerEntry) (uuid : String) :
    BillingLedgerEntry :=
  { e with
    entryID := defaultID e.entryID uuid
    metadata := if e.metadata = "" then "\x7b\x7d" else e.metadata }

def BillingReservation.beforeCreate (r : BillingReservation) (uuid : String) :
    BillingReservation :=
  { r with reservationID := defaultID r.reservationID uuid }

def BillingSettlement.beforeCreate (s : BillingSettlement) (uuid : String) : BillingSettlement :=
  { s with settlementID := defaultID s.settlementID uuid }

def BillingOutboxEvent.beforeCreate (ev : BillingOutboxEvent) (uuid : String) :
    BillingOutboxEvent :=
  { ev with eventID := defaultID ev.eventID uuid }

/-- The columns of `idx_billing_accounts_owner_account_unit`. -/
def BillingAccount.owner (a : BillingAccount) : String × Int × String × String :=
  (a.ownerType, a.ownerID, a.accountType, a.quotaUnit)

instance : Indexed BillingAccount String where
  pk := BillingAccount.accountID
  clash a b := a.accountID = b.accountID ∨ a.owner = b.owner
  clash_comm a b := by simp only [eq_comm]
  clash_of_pk a b h := by simp [h]

instance : Indexed BillingBalanceSnapshot String where
  pk := BillingBalanceSnapshot.accountID
  clash s t := s.accountID = t.accountID
  clash_comm s t := by simp only [eq_comm]
  clash_of_pk s t h := by simp [h]

instance : Indexed BillingLedgerEntry String where
  pk := BillingLedgerEntry.entryID
  clash e f := e.entryID = f.entryID ∨ e.idempotencyKey = f.idempotencyKey
  clash_comm e f := by simp only [eq_comm]
  clash_of_pk e f h := by simp [h]

instance : Indexed BillingReservation String where
  pk := BillingReservation.reservationID
  clash r s := r.reservationID = s.reservationID ∨ r.idempotencyKey = s.idempotencyKey
  clash_comm r s := by simp only [eq_comm]
  clash_of_pk r s h := by simp [h]

instance : Indexed BillingSettlement String where
  pk := BillingSettlement.settlementID
  clash s t := s.settlementID = t.settlementID ∨ s.reservationID = t.reservationID ∨
    s.idempotencyKey = t.idempotencyKey
  clash_comm s t := by simp only [eq_comm]
  clash_of_pk s t h := by simp [h]

instance : Indexed BillingOutboxEvent String where
  pk := BillingOutboxEvent.eventID
  clash e f := e.eventID = f.eventID ∨ e.idempotencyKey = f.idempotencyKey
  clash_comm e f := by simp only [eq_comm]
  clash_of_pk e f h := by simp [h]

@[simp] theorem pk_snapshot (s : BillingBalanceSnapshot) : pk s = s.accountID := rfl
@[simp] theorem pk_reservation (r : BillingReservation) : pk r = r.reservationID := rfl

/-- The billing tables. -/
structure Ledger where
  accounts : Table BillingAccount
  snapshots : Table BillingBalanceSnapshot
  entries : Table BillingLedgerEntry
  reservations : Table BillingReservation
  settlements : Table BillingSettlement
  outbox : Table BillingOutboxEvent
  deriving DecidableEq

def Ledger.empty : Ledger :=
  ⟨Table.empty, Table.empty, Table.empty, Table.empty, Table.empty, Table.empty⟩

/-- The snapshot of an account, of zeros where it has no row. -/
def Ledger.stored (l : Ledger) (accountID : String) : BillingBalanceSnapshot :=
  (l.snapshots.get? accountID).getD { accountID := accountID }

/-- What the billing functions fail with. -/
inductive Err where
  | ledgerConflict
  | insufficientBalance
  | reservationNotOpen
  | reservationNotFound
  | settlementAlreadyExist
  | recordNotFound
  | duplicateKey
  | outOfRange
  | message (text : String)
  | wrap (text : String) (cause : Err)
  | join (first second : Err)
  deriving DecidableEq, Repr

end CodeGo.Billing.Schema
