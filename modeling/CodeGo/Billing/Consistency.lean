import CodeGo.Billing.Exec
import CodeGo.Billing.History

/-!
# Snapshots, entries and statuses after any run

What holds of every ledger that a sequence of calls leaves: the stored
snapshots are the recomputed ones, the balances of an account are conserved,
and a reservation is closed once.
-/

namespace CodeGo.Billing.Consistency

open Lib Lib.Wrap Schema Statements Aggregation LedgerRuntime Effects Invariant Preservation
  Operations History Exec

theorem inRange_zero : InRange 0 := by decide

/-- The recomputation returns the sums when they fit in the counters. -/
theorem run_aggregateExpectedBalanceSnapshot (l : Ledger) (a : String) :
    (aggregateExpectedBalanceSnapshot a).run l =
      (if SnapshotInRange (expectedSnapshot l a) then .ok (expectedSnapshot l a)
        else .error .outOfRange, l) := by
  unfold aggregateExpectedBalanceSnapshot
  by_cases he : InRange (availableSum l a) ∧ InRange (grantedSum l a)
  · have hrun := run_selectSums (.entries a) (fun l => (availableSum l a, grantedSum l a)) l
    rw [if_pos he] at hrun
    rw [Prog.run_bind_ok hrun]
    by_cases hs : InRange (consumedSum l a) ∧ InRange (refundedSum l a)
    · have hrun := run_selectSums (.settlements a) (fun l => (consumedSum l a, refundedSum l a)) l
      rw [if_pos hs] at hrun
      rw [Prog.run_bind_ok hrun]
      have hrun := run_selectSums (.openReservations a) (fun l => (reservedSum l a, 0)) l
      by_cases hr : InRange (reservedSum l a)
      · rw [if_pos ⟨hr, inRange_zero⟩] at hrun
        rw [Prog.run_bind_ok hrun, if_pos ⟨he.1, hr, hs.1, hs.2, he.2⟩]
        rfl
      · rw [if_neg fun h => hr h.1] at hrun
        rw [Prog.run_bind_error hrun, if_neg fun h => hr h.2.1]
    · rw [if_neg fun h => hs ⟨h.2.2.1, h.2.2.2.1⟩]
      have hrun := run_selectSums (.settlements a) (fun l => (consumedSum l a, refundedSum l a)) l
      rw [if_neg hs] at hrun
      rw [Prog.run_bind_error hrun]
  · rw [if_neg fun h => he ⟨h.1, h.2.2.2.2⟩]
    have hrun := run_selectSums (.entries a) (fun l => (availableSum l a, grantedSum l a)) l
    rw [if_neg he] at hrun
    rw [Prog.run_bind_error hrun]

/-- A rebuild alone leaves every stored balance as it is. -/
theorem stored_of_rebuild {l l' : Ledger} (h : SnapshotsMatch l) {a : String} {r : Except Err Unit}
    (hr : (rebuildBalanceSnapshotTx a).commit l = (r, l')) (b : String) :
    l'.stored b = l.stored b := by
  cases r with
  | ok _ =>
    have := (rebuildBalanceSnapshotTx_ensures (fun _ => True) a).run trivial (Prog.commit_eq_ok.1 hr)
    exact stored_of_rebuilt h this b
  | error e => rw [(Prog.commit_eq_error hr).1]

section Closed

variable {l : Ledger}

/-- The call takes the reservation out of the open status. -/
def LeavesOpen (id : String) (op : LedgerOp) (l : Ledger) : Prop :=
  (∃ r, l.reservations.get? id = some r ∧ r.status = .open) ∧
    ∃ r, (op.exec l).2.reservations.get? id = some r ∧ r.status ≠ .open

/-- No two calls of a run take the same reservation out of the open status. -/
theorem leavesOpen_once (h : Sound l) {id : String} {op op' : LedgerOp} {ops : List LedgerOp}
    (h₁ : LeavesOpen id op l) (h₂ : LeavesOpen id op' (run (op :: ops) l)) : False := by
  obtain ⟨r, hr, hst⟩ := h₁.2
  obtain ⟨r', hr', hopen⟩ := h₂.1
  have hkept : r ∈ (run (op :: ops) l).reservations :=
    run_keeps_closed ((op.exec_change h).sound h) ops (Table.mem_of_get? hr) hst
  have hget := Table.get?_of_mem hkept
  rw [Table.pk_of_get? hr, hr'] at hget
  cases hget
  exact hst hopen

/-- A reservation is settled exactly when it has a settlement. -/
theorem settled_iff (h : RecordsAgree l) {r : BillingReservation} (hr : r ∈ l.reservations) :
    r.status = .settled ↔ ∃ s ∈ l.settlements, s.reservationID = r.reservationID := by
  constructor
  · exact h.settled r hr
  · rintro ⟨s, hs, hid⟩
    obtain ⟨-, -, r', hr', hid', hst⟩ := h.settlements s hs
    have : r' = r := Table.eq_of_clash hr' hr (Indexed.clash_of_pk r' r (hid'.trans hid))
    rw [← this, hst]

end Closed

section Underflow

/-- The failure of a release or a settlement whose hold is not in the snapshot. -/
def underflow : Err := .message "reserved balance underflow"

section Avoids

variable {e : Err}

theorem avoids_select {α : Type} (f : Ledger → α) : (select f).Avoids e := fun _ => trivial

theorem avoids_write {α κ : Type} [Indexed α κ] {locks : List Cell} {get : Ledger → Table α}
    {set : Table α → Ledger → Ledger} {op : Table α → Option (Table α)} :
    (write locks get set op).Avoids underflow := by
  refine .stepE fun l => ?_
  split <;> exact nofun

theorem avoids_update {locks : List Cell} (f : Ledger → Ledger) :
    (.step { locks := locks } fun l => ((), f l) : Tx Unit).Avoids e := fun _ => trivial

theorem avoids_fail {α : Type} {e' : Err} (h : e' ≠ e) : (fail e' : Tx α).Avoids e := h

theorem avoids_ite {α : Type} {P : Prop} [Decidable P] {p q : Tx α} (hp : p.Avoids e)
    (hq : q.Avoids e) : (if P then p else q : Tx α).Avoids e := by
  split
  · exact hp
  · exact hq

theorem avoids_recordOutboxEvent (uuid : String) (input : OutboxEventInput) :
    (recordOutboxEvent uuid input).Avoids underflow := by
  have hvalidate : ∀ existing event,
      (validateExistingOutboxEvent existing event).Avoids underflow :=
    fun _ _ => avoids_ite (avoids_fail nofun) trivial
  refine avoids_ite (avoids_fail (by decide)) (.bind (avoids_select _) fun found => ?_)
  cases found with
  | some existing => exact hvalidate _ _
  | none =>
    refine .bind (.stepE fun l => ?_) fun created => avoids_ite trivial ?_
    · unfold insertEvent
      split
      · exact nofun
      · split <;> exact nofun
    · refine .bind (avoids_select _) fun found => ?_
      cases found with
      | some existing => exact hvalidate _ _
      | none => exact avoids_fail nofun

end Avoids

variable {l : Ledger}

/-- A hold that is open is part of the reserved balance. -/
theorem open_le_reserved (h : Sound l) {r : BillingReservation} (hr : r ∈ l.reservations)
    (hopen : r.status = .open) (hfit : grantedSum l r.accountID < 2 ^ 63) :
    r.reservedAmount ≤ (l.stored r.accountID).reservedBalance := by
  rw [(stored_exact h hfit).2.1]
  have hnonneg : ∀ s ∈ l.reservations, 0 ≤
      (if s.accountID = r.accountID ∧ s.status = .open then s.reservedAmount else 0) := by
    intro s hs
    split
    · exact (h.records.held s hs).le
    · exact le_refl 0
  have := Table.le_sum_of_mem hnonneg hr
  rwa [if_pos ⟨rfl, hopen⟩] at this

/-- The error of a call is the error of its program. -/
theorem exec_ne_error {α : Type} {p : Tx α} {f : α → Receipt} {e : Err}
    (h : (p.run l).1 ≠ .error e) : ((do return f (← p) : Tx Receipt).commit l).1 ≠ .error e := by
  intro hc
  cases hr : p.run l with
  | mk r l' =>
    cases r with
    | ok a =>
      rw [Prog.commit, Prog.run_bind_ok hr] at hc
      cases hc
    | error e' =>
      rw [Prog.commit, Prog.run_bind_error hr] at hc
      exact h (by rw [hr, Except.error.inj hc])

/-- A reservation that is not there is no underflow. -/
theorem locked_no_underflow {α : Type} {id : String} {f : BillingReservation → Tx α}
    (h : ∀ r, l.reservations.get? id = some r → ((f r).run l).1 ≠ .error underflow) :
    ((lockReservation id >>= f).run l).1 ≠ .error underflow := by
  cases hr : l.reservations.get? id with
  | none =>
    have hlock : (lockReservation id).run l = (.error .reservationNotFound, l) := by
      rw [lockReservation, run_selectForUpdate, hr]
    rw [Prog.run_bind_error hlock]
    simp [underflow]
  | some r =>
    rw [Prog.run_bind_ok (run_lockReservation hr)]
    exact h r hr

theorem release_no_underflow (h : Sound l) (u : Uuids) (p : ReleaseReservationParams)
    (hfit : ∀ r, l.reservations.get? p.reservationID = some r →
      grantedSum l r.accountID < 2 ^ 63) :
    ((releaseReservation u p).run l).1 ≠ .error underflow := by
  unfold releaseReservation
  split
  · simp [fail, underflow]
  apply locked_no_underflow
  intro r hr
  split
  · exact nofun
  split
  · exact nofun
  next hopen =>
  rw [not_not] at hopen
  rw [Prog.run_bind_ok (run_findLedgerEntryByIdempotency _ l)]
  split
  · apply Prog.Avoids.run
    refine avoids_ite (avoids_fail nofun) ?_
    refine .bind (avoids_update _) fun _ => ?_
    trivial
  · obtain ⟨t, hrun, -⟩ := run_ensureAndLockBalanceSnapshot r.accountID l
    rw [Prog.run_bind_ok hrun, if_neg (not_lt.2
      (open_le_reserved h (Table.mem_of_get? hr) hopen (hfit r hr)))]
    apply Prog.Avoids.run
    refine .bind avoids_write fun _ => ?_
    refine .bind (avoids_update _) fun _ => ?_
    refine .bind avoids_write fun _ => ?_
    refine .bind (avoids_recordOutboxEvent _ _) fun _ => ?_
    trivial

theorem settle_no_underflow (h : Sound l) (u : Uuids) (p : SettleReservationParams)
    (hfit : ∀ r, l.reservations.get? p.reservationID = some r →
      grantedSum l r.accountID < 2 ^ 63) :
    ((settleReservation u p).run l).1 ≠ .error underflow := by
  unfold settleReservation
  split
  · simp [fail, underflow]
  split
  · simp [fail, underflow]
  rw [settleReservationTx, Prog.run_bind_ok (run_findSettlementByIdempotency _ l)]
  split
  · apply Prog.Avoids.run
    refine avoids_ite (avoids_fail nofun) ?_
    trivial
  apply locked_no_underflow
  intro r hr
  split
  · split
    · exact nofun
    · exact nofun
  next hopen =>
  rw [not_not] at hopen
  obtain ⟨t, hrun, -⟩ := run_ensureAndLockBalanceSnapshot r.accountID l
  rw [Prog.run_bind_ok hrun, if_neg (not_lt.2
    (open_le_reserved h (Table.mem_of_get? hr) hopen (hfit r hr)))]
  apply Prog.Avoids.run
  refine avoids_ite (avoids_fail nofun) ?_
  refine .bind avoids_write fun _ => ?_
  refine .bind avoids_write fun _ => ?_
  refine .bind (avoids_update _) fun _ => ?_
  refine .bind (avoids_ite avoids_write ?_) fun _ => ?_
  · trivial
  refine .bind (avoids_recordOutboxEvent _ _) fun _ => ?_
  trivial

end Underflow

/-- After every sequence of calls that grants an account less than `2^63` in total, its balances
are not negative and add up to what it was granted, its reserved balance is the sum of its open
reservations, and neither a release nor a settlement of one of them underflows. A reservation is
settled exactly when it has a settlement, and no two calls take it out of the open status. -/
theorem account_is_conserved (ops : List LedgerOp) (a : String)
    (hfit : grantedSum (run ops Ledger.empty) a < 2 ^ 63) :
    (0 ≤ ((run ops Ledger.empty).stored a).availableBalance ∧
      0 ≤ ((run ops Ledger.empty).stored a).reservedBalance ∧
      0 ≤ ((run ops Ledger.empty).stored a).consumedTotal ∧
      0 ≤ ((run ops Ledger.empty).stored a).grantedTotal) ∧
    ((run ops Ledger.empty).stored a).availableBalance +
        ((run ops Ledger.empty).stored a).reservedBalance +
        ((run ops Ledger.empty).stored a).consumedTotal =
      ((run ops Ledger.empty).stored a).grantedTotal ∧
    ((run ops Ledger.empty).stored a).reservedBalance = reservedSum (run ops Ledger.empty) a ∧
    (∀ u p, (∀ r, (run ops Ledger.empty).reservations.get? p.reservationID = some r →
        r.accountID = a) →
      ((LedgerOp.release u p).exec (run ops Ledger.empty)).1 ≠ .error underflow) ∧
    (∀ u p, (∀ r, (run ops Ledger.empty).reservations.get? p.reservationID = some r →
        r.accountID = a) →
      ((LedgerOp.settle u p).exec (run ops Ledger.empty)).1 ≠ .error underflow) ∧
    (∀ r ∈ (run ops Ledger.empty).reservations, r.status = .settled ↔
      ∃ s ∈ (run ops Ledger.empty).settlements, s.reservationID = r.reservationID) ∧
    ∀ pre op mid op' post id, ops = pre ++ op :: mid ++ op' :: post →
      LeavesOpen id op (run pre Ledger.empty) →
      ¬ LeavesOpen id op' (run (pre ++ op :: mid) Ledger.empty) := by
  have h := run_sound Sound.empty ops
  obtain ⟨hA, hR, hC, hG⟩ := stored_exact h hfit
  have hcons := h.conserved a
  have hfits : ∀ id, (∀ r, (run ops Ledger.empty).reservations.get? id = some r →
      r.accountID = a) → ∀ r, (run ops Ledger.empty).reservations.get? id = some r →
      grantedSum (run ops Ledger.empty) r.accountID < 2 ^ 63 :=
    fun id hown r hr => by rw [hown r hr]; exact hfit
  refine ⟨⟨?_, ?_, ?_, ?_⟩, ?_, hR, fun u p hown => ?_, fun u p hown => ?_,
    fun r hr => settled_iff h.records hr, ?_⟩
  · rw [hA]
    exact h.solvent a hfit
  · rw [hR]
    exact reservedSum_nonneg h.records a
  · rw [hC]
    exact consumedSum_nonneg h.records a
  · rw [hG]
    exact grantedSum_nonneg h.records a
  · rw [hA, hR, hC, hG]
    exact hcons
  · exact exec_ne_error (release_no_underflow h u p (hfits _ hown))
  · exact exec_ne_error (settle_no_underflow h u p (hfits _ hown))
  · rintro pre op mid op' post id rfl h₁ h₂
    rw [run_append] at h₂
    exact leavesOpen_once (run_sound Sound.empty pre) h₁ h₂

/-- Grants of 100, a hold of 40 settled at 50, and a hold of 20 that is released. -/
def sampleRun : List LedgerOp := [
  .credit (sampleUuids "a") { accountID := "acc", amount := 100, idempotencyKey := "grant" },
  .reserve (sampleUuids "b") { accountID := "acc", reservedAmount := 40, idempotencyKey := "k1" },
  .settle (sampleUuids "c") { reservationID := "b", actualAmount := 50, idempotencyKey := "s1" },
  .reserve (sampleUuids "d") { accountID := "acc", reservedAmount := 20, idempotencyKey := "k2" },
  .release (sampleUuids "f") { reservationID := "d", idempotencyKey := "r2" }]

/-- The sample run grants little enough, and leaves 50 available and 50 consumed. -/
theorem account_is_conserved_sample :
    ((run sampleRun Ledger.empty).stored "acc").availableBalance = 50 ∧
    ((run sampleRun Ledger.empty).stored "acc").consumedTotal = 50 ∧
    ((run sampleRun Ledger.empty).stored "acc").availableBalance +
        ((run sampleRun Ledger.empty).stored "acc").reservedBalance +
        ((run sampleRun Ledger.empty).stored "acc").consumedTotal =
      ((run sampleRun Ledger.empty).stored "acc").grantedTotal := by
  have hfit : grantedSum (run sampleRun Ledger.empty) "acc" < 2 ^ 63 := by decide +kernel
  exact ⟨by decide +kernel, by decide +kernel, (account_is_conserved sampleRun "acc" hfit).2.1⟩

end CodeGo.Billing.Consistency
