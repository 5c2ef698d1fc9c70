import CodeGo.Billing.CreditReplay
import CodeGo.Billing.Recorded

/-!
# What the wallet functions record

The functions of `wallet_store.go` that keep a ledger account in line with a quota
column, run to success: which rows of the ledger each of them wrote, and what
became of the column.
-/

namespace CodeGo.Billing.Mirror

open Lib.Prog Schema Statements LedgerRuntime FundingAttribution Recorded Wallet CreditReplay
  Platform.Database Identity.Schema Identity.Store

/-- The account, with the quota of a user credited to it if it never had a balance. -/
inductive MirrorReady (p : EnsureAccountParams) (legacy : Int) (key : String) (l : Ledger)
    (a : BillingAccount) (l' : Ledger) : Prop where
  | kept (ensured : AccountRecorded l l' p a)
      (used : hasNonZeroSnapshot (l'.stored a.accountID) = true ∨ legacy ≤ 0)
  | bootstrapped (l₁ : Ledger) (q : CreditAccountParams) (e : BillingLedgerEntry)
      (ensured : AccountRecorded l l₁ p a)
      (unused : hasNonZeroSnapshot (l₁.stored a.accountID) = false) (positive : 0 < legacy)
      (account : q.accountID = a.accountID) (amount : q.amount = legacy)
      (key : q.idempotencyKey = key) (credited : CreditRecorded l₁ l' q e)

/-- The available balance of an account went down by `delta`, under the names of `sync`. -/
inductive DeltaApplied (accountID : String) (delta : Int) (sync : LedgerSync) (l l' : Ledger) :
    Prop where
  | same (zero : delta = 0) (ledger : l' = l)
  | credited (q : CreditAccountParams) (e : BillingLedgerEntry) (negative : delta < 0)
      (account : q.accountID = accountID) (amount : q.amount = -delta)
      (key : q.idempotencyKey = sync.creditKey) (recorded : CreditRecorded l l' q e)
  | debited (id : String) (q : CreateReservationParams) (p : SettleReservationParams)
      (r : BillingReservation) (x : BillingSettlement) (l₁ : Ledger) (positive : 0 < delta)
      (account : q.accountID = accountID) (amount : q.reservedAmount = delta)
      (key : q.idempotencyKey = sync.reservationKey) (held : ReservationRecorded id l l₁ q r)
      (reservation : p.reservationID = r.reservationID) (actual : p.actualAmount = delta)
      (settlement : p.idempotencyKey = sync.settlementKey)
      (settled : SettlementRecorded l₁ l' p x)

/-- The available balance of an account became `legacy`. -/
def Reconciled (accountID : String) (userID legacy : Int) (l l' : Ledger) : Prop :=
  ∃ id, DeltaApplied accountID (-(legacy - (l.stored accountID).availableBalance))
    (walletSync userID ("reconcile:" ++ id) "ledger_sync_reconcile") l l'

section Ledger

/-- What `run` does to the database when the ledger transaction succeeds. -/
def OnLedger (run : {α : Type} → Tx α → App α) : Prop :=
  ∀ {α : Type} (tx : Tx α) (s s' : DB) (a : α), (run tx).run s = (.ok a, s') →
    ∃ l, tx.run s.ledger = (.ok a, l) ∧ s' = s.setLedger l

theorem onLedger_ledgerTx : OnLedger ledgerTx := by
  intro α tx s s' a h
  rw [run_ledgerTx] at h
  obtain ⟨hr, rfl⟩ := Prod.mk.injEq .. ▸ h
  exact ⟨_, Prod.ext hr rfl, rfl⟩

variable {run : {α : Type} → Tx α → App α} {u : Uuids} {s s' : DB} {accountID : String}
  {userID legacy delta : Int}

theorem loadBalanceSnapshot_ok {row : BillingBalanceSnapshot}
    (h : (loadBalanceSnapshot accountID).run s = (.ok row, s')) :
    row = s.ledger.stored accountID ∧ s = s' := by
  obtain ⟨hrow, rfl⟩ := readOrFail_ok h
  refine ⟨?_, rfl⟩
  rw [Ledger.stored, hrow, Option.getD_some]

theorem applyDeltaVia_ok (hrun : OnLedger run) {sync : LedgerSync}
    (h : (applyDeltaVia run u accountID delta sync).run s = (.ok (), s')) :
    ∃ l, DeltaApplied accountID delta sync s.ledger l ∧ s' = s.setLedger l := by
  unfold applyDeltaVia at h
  split at h
  next hzero =>
    cases h
    exact ⟨s.ledger, .same hzero rfl, rfl⟩
  split at h
  next hneg =>
    obtain ⟨e, s₁, hcredit, h⟩ := run_bind_eq_ok h
    cases h
    obtain ⟨l, hcredited, rfl⟩ := hrun _ _ _ _ hcredit
    exact ⟨l, .credited _ e hneg rfl rfl rfl (creditAccount_ok hcredited), rfl⟩
  next hzero hneg =>
    obtain ⟨r, s₁, hhold, h⟩ := run_bind_eq_ok h
    obtain ⟨l₁, hheld, rfl⟩ := hrun _ _ _ _ hhold
    obtain ⟨x, s₂, hsettle, h⟩ := run_bind_eq_ok h
    cases h
    obtain ⟨l, hsettled, rfl⟩ := hrun _ _ _ _ hsettle
    exact ⟨l, .debited (u 0) _ _ r x l₁ (by omega) rfl rfl rfl (createReservation_ok hheld) rfl rfl rfl
      (settleReservation_ok hsettled), rfl⟩

theorem ensureMirroredAccountVia_ok (hrun : OnLedger run) {p : EnsureAccountParams}
    {key referenceType referenceID : String} {a : BillingAccount}
    (h : (ensureMirroredAccountVia run u p legacy key referenceType referenceID).run s =
      (.ok a, s')) : ∃ l, MirrorReady p legacy key s.ledger a l ∧ s' = s.setLedger l := by
  obtain ⟨a', s₁, hensure, h⟩ := run_bind_eq_ok h
  obtain ⟨l₁, hensured, rfl⟩ := hrun _ _ _ _ hensure
  obtain ⟨row, s₂, ⟨rfl, rfl⟩, h⟩ := run_bind_of_ok h loadBalanceSnapshot_ok
  have hrecorded := ensureBillingAccount_ok hensured
  split at h
  next hused =>
    cases h
    rw [Bool.or_eq_true, decide_eq_true_eq] at hused
    exact ⟨l₁, .kept hrecorded hused, rfl⟩
  next hunused =>
    rw [Bool.or_eq_true, decide_eq_true_eq, not_or, Bool.not_eq_true, not_le] at hunused
    obtain ⟨e, s₃, hcredit, h⟩ := run_bind_eq_ok h
    cases h
    obtain ⟨l, hcredited, rfl⟩ := hrun _ _ _ _ hcredit
    exact ⟨l, .bootstrapped l₁ _ e hrecorded hunused.1 hunused.2 rfl rfl rfl
      (creditAccount_ok hcredited), rfl⟩

theorem reconcileAccountBalanceVia_ok (hrun : OnLedger run)
    (h : (reconcileAccountBalanceVia run u accountID userID legacy).run s = (.ok (), s')) :
    ∃ l, Reconciled accountID userID legacy s.ledger l ∧ s' = s.setLedger l := by
  obtain ⟨row, s₁, ⟨rfl, rfl⟩, h⟩ := run_bind_of_ok h loadBalanceSnapshot_ok
  dsimp only at h
  split at h
  next hzero =>
    cases h
    exact ⟨s.ledger, ⟨"", .same (by omega) rfl⟩, rfl⟩
  next =>
    obtain ⟨l, happlied, rfl⟩ := applyDeltaVia_ok hrun h
    exact ⟨l, ⟨u 0, happlied⟩, rfl⟩

end Ledger

section Transactions

variable {u : Uuids} {s s' : DB} {w : Wallet} {userID amount : Int} {key reason : String}

/-- The account of a wallet of a user. -/
def walletAccount (userID : Int) (w : Wallet) : EnsureAccountParams where
  accountType := accountType w
  ownerType := ownerTypeUser
  ownerID := userID
  quotaUnit := quotaUnitQuota

/-- The account in line with the quota column, as the transactional functions begin. -/
structure Mirrored (userID : Int) (w : Wallet) (s : DB) (a : BillingAccount) (l : Ledger) :
    Prop where
  reconciled : ∃ l₁, MirrorReady (walletAccount userID w) (quotaColumn w userID s)
    (bootstrapKey userID (accountType w)) s.ledger a l₁ ∧
    Reconciled a.accountID userID (quotaColumn w userID s) l₁ l

/-- A credit inside a transaction: the ledger account in line with the column, then the entry, then
the column. -/
inductive CreditedTx (w : Wallet) (userID amount : Int) (key : String) (s s' : DB) : Prop where
  | intro (a : BillingAccount) (l : Ledger) (q : CreditAccountParams) (e : BillingLedgerEntry)
      (l' : Ledger) (positive : 0 < userID ∧ 0 < amount) (mirrored : Mirrored userID w s a l)
      (users : s'.users = (addToColumn w userID amount s).users) (tokens : s'.tokens = s.tokens)
      (account : q.accountID = a.accountID) (granted : q.amount = amount)
      (named : q.idempotencyKey = key) (credited : CreditRecorded l l' q e) (ledger : s'.ledger = l')

theorem creditQuotaTx_ok
    (h : (creditQuotaTx w u userID amount key reason).run s = (.ok (), s')) :
    CreditedTx w userID amount key s s' := by
  have hprog : creditQuotaTx w u userID amount key reason =
      creditUserWalletQuotaTx u userID amount key reason (mirroredWalletTx w) := by
    cases w <;> rfl
  rw [hprog] at h
  unfold creditUserWalletQuotaTx at h
  split at h
  next => cases h
  next huser =>
  split at h
  next => cases h
  next hamount =>
  split at h
  next => cases h
  obtain ⟨legacy, s₁, hlegacy, h⟩ := run_bind_eq_ok h
  have hcolumn : legacy = quotaColumn w userID s ∧ s = s₁ := by
    cases hlegacy
    exact ⟨rfl, rfl⟩
  obtain ⟨rfl, rfl⟩ := hcolumn
  obtain ⟨a, s₂, hensure, h⟩ := run_bind_eq_ok h
  obtain ⟨l₁, hready, rfl⟩ := ensureMirroredAccountVia_ok onLedger_ledgerTx hensure
  obtain ⟨_, s₃, hreconcile, h⟩ := run_bind_eq_ok h
  obtain ⟨l₂, hreconciled, rfl⟩ := reconcileAccountBalanceVia_ok onLedger_ledgerTx hreconcile
  obtain ⟨e, s₄, hcredit, h⟩ := run_bind_eq_ok h
  obtain ⟨l₃, hcredited, rfl⟩ := onLedger_ledgerTx _ _ _ _ hcredit
  obtain ⟨_, s₅, hlot, h⟩ := run_bind_eq_ok h
  have hcore := (keeps_recordFundingLotTx _ _ _ _ _ _ _).of_run hlot
  have hledger : s₅.ledger = l₃ := congrArg (fun core => core.1) hcore
  have husers : s₅.users = s.users := congrArg (fun core => core.2.1) hcore
  have htokens : s₅.tokens = s.tokens := congrArg (fun core => core.2.2) hcore
  have hlast : s' = addToColumn w userID amount s₅ := congrArg Prod.snd h.symm
  rw [hlast]
  refine .intro a l₂ _ e l₃ ⟨by omega, by omega⟩ ⟨l₁, hready, hreconciled⟩ ?_ htokens rfl rfl rfl
    (creditAccount_ok hcredited) hledger
  unfold addToColumn
  rw [husers]

end Transactions

end CodeGo.Billing.Mirror
