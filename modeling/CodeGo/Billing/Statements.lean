import CodeGo.Billing.Schema
import CodeGo.Lib.Lock

/-!
# SQL statements on the billing tables

Each statement is one atomic action. A write locks the rows and the unique
index entries it touches, `SELECT ... FOR UPDATE` locks the selected row, and
a plain `SELECT` locks nothing.
-/

namespace CodeGo.Billing.Statements

open Lib Schema

/-- Rows and index entries that a transaction can lock. -/
inductive Cell where
  | account (id : String)
  | accountOwner (owner : String × Int × String × String)
  | snapshot (accountID : String)
  | entryID (id : String)
  | entryKey (key : String)
  | reservation (id : String)
  | reservationKey (key : String)
  | settlementID (id : String)
  | settlementReservation (reservationID : String)
  | settlementKey (key : String)
  | event (id : String)
  | eventKey (key : String)
  deriving DecidableEq

/-- What the aggregation of an account reads without a lock. -/
inductive View where
  | entries (accountID : String)
  | settlements (accountID : String)
  | openReservations (accountID : String)
  deriving DecidableEq

/-- Functions that run inside a ledger transaction. -/
abbrev Tx (α : Type) := Prog Ledger (Label Cell View) Err α

abbrev fail {α : Type} (e : Err) : Tx α := Prog.fail e

/-- A plain `SELECT`. -/
def select {α : Type} (f : Ledger → α) : Tx α := .step {} fun l => (f l, l)

/-- `SELECT ... FOR UPDATE` of one row. -/
def selectForUpdate {α : Type} (cell : Cell) (missing : Err) (f : Ledger → Option α) : Tx α :=
  .stepE { locks := [cell] } fun l => match f l with
    | some r => (.ok r, l)
    | none => (.error missing, l)

/-- A write to one table that a unique index may refuse. -/
def write {α κ : Type} [Indexed α κ] (locks : List Cell) (get : Ledger → Table α)
    (set : Table α → Ledger → Ledger) (op : Table α → Option (Table α)) : Tx Unit :=
  .stepE { locks := locks } fun l => match op (get l) with
    | some t => (.ok (), set t l)
    | none => (.error .duplicateKey, l)

def firstAccount (owner : String × Int × String × String) : Tx (Option BillingAccount) :=
  select fun l => l.accounts.find? fun a => a.owner = owner

def createAccount (a : BillingAccount) : Tx Unit :=
  write [.account a.accountID, .accountOwner a.owner] Ledger.accounts
    (fun t l => { l with accounts := t }) fun t => t.insert? a

def lockAccount (accountID : String) : Tx BillingAccount :=
  selectForUpdate (.account accountID) .recordNotFound fun l => l.accounts.get? accountID

def firstSnapshot (accountID : String) : Tx (Option BillingBalanceSnapshot) :=
  select fun l => l.snapshots.get? accountID

def createSnapshot (s : BillingBalanceSnapshot) : Tx Unit :=
  write [.snapshot s.accountID] Ledger.snapshots
    (fun t l => { l with snapshots := t }) fun t => t.insert? s

def lockSnapshot (accountID : String) : Tx BillingBalanceSnapshot :=
  selectForUpdate (.snapshot accountID) .recordNotFound fun l => l.snapshots.get? accountID

def saveSnapshot (s : BillingBalanceSnapshot) : Tx Unit :=
  write [.snapshot s.accountID] Ledger.snapshots
    (fun t l => { l with snapshots := t }) fun t => t.save? s

def findLedgerEntryByIdempotency (key : String) : Tx (Option BillingLedgerEntry) :=
  select fun l => l.entries.find? fun e => e.idempotencyKey = key

def createEntry (e : BillingLedgerEntry) : Tx Unit :=
  write [.entryID e.entryID, .entryKey e.idempotencyKey] Ledger.entries
    (fun t l => { l with entries := t }) fun t => t.insert? e

def findReservationByIdempotency (key : String) : Tx (Option BillingReservation) :=
  select fun l => l.reservations.find? fun r => r.idempotencyKey = key

def createReservationRow (r : BillingReservation) : Tx Unit :=
  write [.reservation r.reservationID, .reservationKey r.idempotencyKey] Ledger.reservations
    (fun t l => { l with reservations := t }) fun t => t.insert? r

def lockReservation (reservationID : String) : Tx BillingReservation :=
  selectForUpdate (.reservation reservationID) .reservationNotFound fun l =>
    l.reservations.get? reservationID

/-- The stored row with every column but its keys taken from `r`. -/
def overwriteReservation (r old : BillingReservation) : BillingReservation :=
  { r with reservationID := old.reservationID, idempotencyKey := old.idempotencyKey }

theorem keepsIndexes_overwrite (r : BillingReservation) :
    Table.KeepsIndexes (overwriteReservation r) := fun _ => ⟨rfl, fun _ => rfl⟩

/-- `Save` of a reservation that was read under its lock, its key as it was read. -/
def saveReservation (r : BillingReservation) : Tx Unit :=
  .step { locks := [.reservation r.reservationID] } fun l => ((), { l with
    reservations := l.reservations.update r.reservationID _ (keepsIndexes_overwrite r) })

def withStatus (status : ReservationStatus) (r : BillingReservation) :
    BillingReservation := { r with status := status }

theorem keepsIndexes_withStatus (status : ReservationStatus) :
    Table.KeepsIndexes (withStatus status) := fun _ => ⟨rfl, fun _ => rfl⟩

/-- `UPDATE` of the status alone. -/
def updateReservationStatus (reservationID : String) (status : ReservationStatus) : Tx Unit :=
  .step { locks := [.reservation reservationID] } fun l => ((), { l with
    reservations := l.reservations.update reservationID _ (keepsIndexes_withStatus status) })

def findSettlementByIdempotency (key : String) : Tx (Option BillingSettlement) :=
  select fun l => l.settlements.find? fun s => s.idempotencyKey = key

def createSettlement (s : BillingSettlement) : Tx Unit :=
  write [.settlementID s.settlementID, .settlementReservation s.reservationID,
      .settlementKey s.idempotencyKey] Ledger.settlements
    (fun t l => { l with settlements := t }) fun t => t.insert? s

def firstEvent (key : String) : Tx (Option BillingOutboxEvent) :=
  select fun l => l.outbox.find? fun ev => ev.idempotencyKey = key

/-- Whether a row was added: a taken idempotency key is no error, a taken primary key is one. -/
def insertEvent (ev : BillingOutboxEvent) (l : Ledger) : Except Err Bool × Ledger :=
  match l.outbox.find? fun old => old.idempotencyKey = ev.idempotencyKey with
  | some _ => (.ok false, l)
  | none => match l.outbox.insert? ev with
    | some t => (.ok true, { l with outbox := t })
    | none => (.error .duplicateKey, l)

/-- `INSERT ... ON CONFLICT (idempotency_key) DO NOTHING`. -/
def createEventOnConflictDoNothing (ev : BillingOutboxEvent) : Tx Bool :=
  .stepE { locks := [.event ev.eventID, .eventKey ev.idempotencyKey] } (insertEvent ev)

def lockEvent (eventID : String) : Tx BillingOutboxEvent :=
  selectForUpdate (.event eventID) .recordNotFound fun l => l.outbox.get? eventID

def publishedEvent (ev : BillingOutboxEvent) : BillingOutboxEvent :=
  { ev with status := .published, lastError := "" }

theorem keepsIndexes_publishedEvent : Table.KeepsIndexes publishedEvent :=
  fun _ => ⟨rfl, fun _ => rfl⟩

/-- `UPDATE` of the columns that publishing an event sets. -/
def publishEvent (eventID : String) : Tx Unit :=
  .step { locks := [.event eventID] } fun l => ((), { l with
    outbox := l.outbox.update eventID _ keepsIndexes_publishedEvent })

end CodeGo.Billing.Statements
