import CodeGo.Billing.StatementRules

/-!
# Statements run alone

What each statement returns on a given ledger when no other transaction
interferes.
-/

namespace CodeGo.Billing.Exec

open Lib Schema Statements Aggregation LedgerRuntime StatementRules

variable {α : Type} {l : Ledger}

theorem run_firstSnapshot (a : String) (l : Ledger) :
    (firstSnapshot a).run l = (.ok (l.snapshots.get? a), l) := rfl

theorem run_findLedgerEntryByIdempotency (key : String) (l : Ledger) :
    (findLedgerEntryByIdempotency key).run l =
      (.ok (l.entries.find? fun e => e.idempotencyKey = key), l) := rfl

theorem run_findReservationByIdempotency (key : String) (l : Ledger) :
    (findReservationByIdempotency key).run l =
      (.ok (l.reservations.find? fun r => r.idempotencyKey = key), l) := rfl

theorem run_findSettlementByIdempotency (key : String) (l : Ledger) :
    (findSettlementByIdempotency key).run l =
      (.ok (l.settlements.find? fun s => s.idempotencyKey = key), l) := rfl

theorem run_selectForUpdate {cell : Cell} {missing : Err} {f : Ledger → Option α} (l : Ledger) :
    (selectForUpdate cell missing f).run l = ((match f l with
      | some r => .ok r
      | none => .error missing), l) := by
  rw [selectForUpdate, Prog.run_stepE]
  cases f l <;> rfl

theorem run_write_of_some {κ : Type} [Indexed α κ] {locks : List Cell}
    {get : Ledger → Table α} {set : Table α → Ledger → Ledger} {op : Table α → Option (Table α)}
    {t : Table α} (h : op (get l) = some t) :
    (write locks get set op).run l = (.ok (), set t l) := by
  rw [write, Prog.run_stepE, h]

theorem run_ensureBalanceSnapshot (a : String) (l : Ledger) :
    ∃ t, (ensureBalanceSnapshot a).run l = (.ok (), { l with snapshots := t }) ∧
      t.get? a = some (l.stored a) ∧ ∀ b, b ≠ a → t.get? b = l.snapshots.get? b := by
  unfold ensureBalanceSnapshot
  rw [Prog.run_bind_ok (run_firstSnapshot a l)]
  cases hg : l.snapshots.get? a with
  | some s => exact ⟨l.snapshots, rfl, by rw [Ledger.stored, hg, Option.getD_some], fun _ _ => rfl⟩
  | none =>
    have hsome : (l.snapshots.insert? { accountID := a }).isSome := by
      rw [Table.insert?_isSome_iff]
      intro s hs
      exact decide_eq_false (Table.get?_eq_none.1 hg s hs)
    obtain ⟨t, ht⟩ := Option.isSome_iff_exists.1 hsome
    have hcreate : (createSnapshot { accountID := a }).attempt.run l =
        (.ok (.ok ()), { l with snapshots := t }) := by
      rw [Prog.run_attempt, createSnapshot, run_write_of_some ht]
    dsimp only
    rw [Prog.run_bind_ok hcreate]
    refine ⟨t, rfl, ?_, fun b hb => ?_⟩
    · rw [Table.get?_insert? ht, pk_snapshot, if_pos rfl, Ledger.stored, hg, Option.getD_none]
    · rw [Table.get?_insert? ht, pk_snapshot, if_neg hb]

theorem run_ensureAndLockBalanceSnapshot (a : String) (l : Ledger) :
    ∃ t, (ensureAndLockBalanceSnapshot a).run l = (.ok (l.stored a), { l with snapshots := t }) ∧
      SnapshotSet l.snapshots t a (l.stored a) := by
  obtain ⟨t, hrun, hrow, hothers⟩ := run_ensureBalanceSnapshot a l
  refine ⟨t, ?_, hrow, hothers⟩
  rw [ensureAndLockBalanceSnapshot, Prog.run_bind_ok hrun, lockSnapshot,
    run_selectForUpdate, hrow]

theorem run_lockReservation {id : String} {r : BillingReservation}
    (h : l.reservations.get? id = some r) : (lockReservation id).run l = (.ok r, l) := by
  rw [lockReservation, run_selectForUpdate, h]

theorem run_selectSums (v : View) (f : Ledger → Int × Int) (l : Ledger) :
    (selectSums v f).run l =
      (if Wrap.InRange (f l).1 ∧ Wrap.InRange (f l).2 then .ok (f l) else .error .outOfRange, l) := by
  rw [selectSums, Prog.run_stepE]
  split <;> rfl

end CodeGo.Billing.Exec
