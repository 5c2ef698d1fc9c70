import CodeGo.Billing.Preservation

/-!
# Runs of ledger operations

The exported operations as transactions of their own, one after the other. A
transaction that fails is rolled back, one that repeats a recorded call changes
nothing.
-/

namespace CodeGo.Billing.Operations

open Lib Lib.Lock Lib.Trim Schema Statements LedgerRuntime Effects Invariant Preservation

/-- A call of an exported operation, with the identifiers it is handed. -/
inductive LedgerOp where
  | ensureAccount (u : Uuids) (params : EnsureAccountParams)
  | credit (u : Uuids) (params : CreditAccountParams)
  | reserve (u : Uuids) (params : CreateReservationParams)
  | release (u : Uuids) (params : ReleaseReservationParams)
  | settle (u : Uuids) (params : SettleReservationParams)
  | adjust (u : Uuids) (params : RecordAdjustmentParams)

/-- What a call returns. -/
inductive Receipt where
  | account (a : BillingAccount)
  | entry (e : BillingLedgerEntry)
  | reservation (r : BillingReservation)
  | settlement (s : BillingSettlement)
  deriving DecidableEq

def LedgerOp.prog : LedgerOp → Tx Receipt
  | .ensureAccount u p => do return .account (← ensureBillingAccount u p)
  | .credit u p => do return .entry (← creditAccount u p)
  | .reserve u p => do return .reservation (← createReservation u p)
  | .release u p => do return .reservation (← releaseReservation u p)
  | .settle u p => do return .settlement (← settleReservation u p)
  | .adjust u p => do return .entry (← recordAdjustment u p)

/-- The call as a transaction. -/
def LedgerOp.exec (op : LedgerOp) (l : Ledger) : Except Err Receipt × Ledger := op.prog.commit l

/-- The ledger after a sequence of calls. -/
def run (ops : List LedgerOp) (l : Ledger) : Ledger := ops.foldl (fun l op => (op.exec l).2) l

/-- No space stands at either end. -/
def Trimmed (key : String) : Prop := trimSpace key = key

theorem trimmed_trimSpace (key : String) : Trimmed (trimSpace key) := trimSpace_trimSpace key

/-- The one change of a committed transaction. -/
inductive Change (l l' : Ledger) : Prop where
  | same (h : l' = l)
  | account (a : BillingAccount) (h : AccountEnsured l l' a)
  | credit (e : BillingLedgerEntry) (hpos : 0 < e.amount) (hkey : Trimmed e.idempotencyKey)
      (h : Credited l l' e)
  | hold (r : BillingReservation) (e : BillingLedgerEntry) (hpos : 0 < r.reservedAmount)
      (hkey : Trimmed r.idempotencyKey) (h : Held l l' r e)
  | release (r : BillingReservation) (e : BillingLedgerEntry) (h : Released l l' r e)
  | settle (r : BillingReservation) (s : BillingSettlement) (id : String)
      (hact : 0 ≤ s.actualAmount) (hkey : Trimmed s.idempotencyKey) (h : Settled l l' r s)
      (he : SettleEntries l.entries l'.entries id r.accountID s
        (l'.stored r.accountID).availableBalance)
  | adjust (e : BillingLedgerEntry) (h : Adjusted l l' e)

theorem Change.sound {l l' : Ledger} (h : Sound l) (hc : Change l l') : Sound l' := by
  cases hc with
  | same hc => rw [hc]; exact h
  | account a hc => exact sound_of_accountEnsured h hc
  | credit e hpos hkey hc => exact sound_of_credited h hc hpos
  | hold r e hpos hkey hc => exact sound_of_held h hc hpos
  | release r e hc => exact sound_of_released h hc
  | settle r s id hact hkey hc he => exact sound_of_settled h hc he hact
  | adjust e hc => exact sound_of_adjusted h hc

section Ensures

variable {I : Ledger → Prop}

theorem ensures_mono {α : Type} {p : Tx α} {P P' : α → Ledger → Ledger → Prop}
    (h : Ensures I p P) (hP : ∀ a l l', P a l l' → P' a l l') : Ensures I p P' :=
  wp_mono h fun _ _ _ hq c hI hF => hP _ _ _ (hq c hI hF)

theorem ensures_return {α β : Type} {p : Tx α} {f : α → β} {P : Ledger → Ledger → Prop}
    (h : Ensures I p fun _ => P) : Ensures I (do return f (← p)) fun _ => P :=
  wp_bind h

theorem ensures_ite_fail {α : Type} {P : Prop} [Decidable P] {e : Err} {p : Tx α}
    {R : α → Ledger → Ledger → Prop} (h : ¬ P → Ensures I p R) :
    Ensures I (if P then fail e else p) R := by
  split
  · trivial
  next hn => exact h hn

theorem LedgerOp.ensures (hI : ∀ l, I l → ReleasesClose l) (op : LedgerOp) :
    Ensures I op.prog fun _ => Change := by
  cases op with
  | ensureAccount u p =>
    refine ensures_return (ensures_ite_fail fun _ => ensures_ite_fail fun _ => ?_)
    exact ensures_mono (ensureBillingAccountTx_ensures I u p) fun a _ _ h => .account a h.1
  | credit u p =>
    refine ensures_return (ensures_ite_fail fun hp => ?_)
    refine ensures_mono (creditAccountTx_ensures I u p) fun e l l' ⟨_, ham, _, h⟩ => ?_
    simp only [Bool.or_eq_true, decide_eq_true_eq, not_or, not_le] at hp
    rcases h with ⟨-, h⟩ | ⟨h, -, hkey, -⟩
    · exact .same h
    · exact .credit e (by rw [ham]; exact hp.1.2) (by rw [hkey]; exact trimmed_trimSpace _) h
  | reserve u p =>
    refine ensures_return (ensures_ite_fail fun hp => ?_)
    refine ensures_mono (createReservationTx_ensures I u p) fun r l l' ⟨⟨_, ham, _⟩, h⟩ => ?_
    simp only [Bool.or_eq_true, decide_eq_true_eq, not_or, not_le] at hp
    rcases h with ⟨-, h⟩ | ⟨e, h, -, hkey, -⟩
    · exact .same h
    · exact .hold r e (by rw [ham]; exact hp.1.2) (by rw [hkey]; exact trimmed_trimSpace _) h
  | release u p =>
    refine ensures_return (ensures_ite_fail fun _ => ?_)
    refine ensures_mono (releaseReservationTx_ensures hI u p) fun r l l' ⟨_, _, h⟩ => ?_
    exact h.elim (fun h => .same h.1) fun ⟨r₀, e, _, h, _⟩ => .release r₀ e h
  | settle u p =>
    refine ensures_return (ensures_ite_fail fun _ => ensures_ite_fail fun hp => ?_)
    refine ensures_mono (settleReservationTx_ensures I u p) fun s l l' ⟨_, hact, h⟩ => ?_
    rcases h with ⟨-, h⟩ | ⟨r, h, he, -, hkey, -⟩
    · exact .same h
    · exact .settle r s _ (by rw [hact]; exact not_lt.1 hp)
        (by rw [hkey]; exact trimmed_trimSpace _) h he
  | adjust u p =>
    refine ensures_return (ensures_ite_fail fun _ => ?_)
    refine ensures_mono (recordAdjustmentTx_ensures I u p) fun e l l' ⟨_, _, _, h⟩ => ?_
    exact h.elim (fun h => .same h.2) fun h => .adjust e h.1

end Ensures

/-- A call changes the ledger in one of the known ways, or not at all. -/
theorem LedgerOp.exec_change {l : Ledger} (h : Sound l) (op : LedgerOp) :
    Change l (op.exec l).2 := by
  cases hr : op.exec l with
  | mk r l' =>
    cases r with
    | ok a =>
      exact (op.ensures fun l h => h.records.releasesClose).run h (Prog.commit_eq_ok.1 hr)
    | error e => exact .same (Prog.commit_eq_error hr).1

theorem run_sound {l : Ledger} (h : Sound l) (ops : List LedgerOp) : Sound (run ops l) := by
  induction ops generalizing l with
  | nil => exact h
  | cons op ops ih => exact ih ((op.exec_change h).sound h)

theorem run_append (ops ops' : List LedgerOp) (l : Ledger) :
    run (ops ++ ops') l = run ops' (run ops l) := List.foldl_append

end CodeGo.Billing.Operations
