import CodeGo.Billing.FundingSchema
import CodeGo.Billing.Statements
import CodeGo.Identity.Schema

/-!
# The database behind the services

All tables, and programs whose atomic actions are single statements or whole
ledger transactions on them. The caches in front of the tables are left out.
-/

namespace CodeGo.Platform.Database

open Lib Lib.Prog Billing.Schema Billing.Statements Billing.FundingSchema Identity.Schema

structure DB where
  ledger : Ledger
  users : Table User
  tokens : Table Token
  bonusQuotaCredits : Table BonusQuotaCredit
  fundingLots : Table FundingLot
  fundingAllocations : Table FundingAllocation
  deriving DecidableEq

def DB.empty : DB :=
  ⟨Ledger.empty, Table.empty, Table.empty, Table.empty, Table.empty, Table.empty⟩

def DB.setLedger (l : Ledger) (s : DB) : DB := { s with ledger := l }

/-- What a ledger transaction of a service is for: to bring a balance in line with a quota column,
or to change it. -/
inductive Purpose where
  | mirror | apply
  deriving DecidableEq

/-- The kinds of atomic actions that a run of the services is observed by. -/
inductive Action where
  | statement
  | lookup (found : DB → Bool)
  | ledger (purpose : Purpose) (outcome : Ledger → Option Err × Ledger)

/-- Functions of the services. -/
abbrev App (α : Type) := Prog DB Action Err α

section Statements

variable {α κ : Type}

def read (f : DB → α) : App α := .step .statement fun s => (f s, s)

/-- The first row of a `SELECT`, which is expected to be there. -/
def readOrFail (missing : Err) (f : DB → Option α) : App α :=
  .stepE .statement fun s => match f s with
    | some a => (.ok a, s)
    | none => (.error missing, s)

def modify (f : DB → DB) : App Unit := .step .statement fun s => ((), f s)

/-- A write that a unique index may refuse. -/
def writeTable [Indexed α κ] (get : DB → Table α) (set : Table α → DB → DB)
    (op : Table α → Option (Table α)) : App Unit :=
  .stepE .statement fun s => match op (get s) with
    | some t => (.ok (), set t s)
    | none => (.error .duplicateKey, s)

/-- Ledger statements inside the transaction of the caller. -/
def ledgerTx (tx : Tx α) : App α := tx.zoom DB.ledger DB.setLedger fun _ => .statement

end Statements

section Rules

variable {α : Type} {s : DB}

theorem run_ledgerTx (tx : Tx α) (s : DB) :
    (ledgerTx tx).run s = ((tx.run s.ledger).1, s.setLedger (tx.run s.ledger).2) := by
  unfold ledgerTx
  apply run_zoom
  · exact fun _ _ => rfl
  · exact fun _ => rfl
  · exact fun _ _ _ => rfl

theorem readOrFail_ok {missing : Err} {f : DB → Option α} {a : α} {s' : DB}
    (h : (readOrFail missing f).run s = (.ok a, s')) : f s = some a ∧ s = s' :=
  stepE_read_ok h

end Rules

section Keeps

/-- The ledger, the users and the tokens: all but the attribution of wallet quota. -/
def DB.core (s : DB) : Ledger × Table User × Table Token := (s.ledger, s.users, s.tokens)

variable {α κ γ : Type} {f : DB → γ}

theorem keeps_read (g : DB → α) : (read g).Keeps f := .step fun _ => rfl

theorem keeps_readOrFail {missing : Err} (g : DB → Option α) : (readOrFail missing g).Keeps f := by
  refine .stepE fun s => ?_
  cases g s <;> rfl

theorem keeps_ledgerTx (h : ∀ l s, f (s.setLedger l) = f s) (tx : Tx α) : (ledgerTx tx).Keeps f :=
  .zoom h tx

theorem keeps_writeTable [Indexed α κ] {get : DB → Table α} {set : Table α → DB → DB}
    {op : Table α → Option (Table α)} (h : ∀ t s, f (set t s) = f s) :
    (writeTable get set op).Keeps f := by
  refine .stepE fun s => ?_
  cases op (get s) with
  | some t => exact h t s
  | none => rfl

end Keeps

@[simp] theorem setLedger_ledger (l : Ledger) (s : DB) : (s.setLedger l).ledger = l := rfl

end CodeGo.Platform.Database
