import CodeGo.Billing.Effects

/-!
# The ledger invariant

Snapshots agree with the sums over the ledger, entries carry running balances,
statuses agree with settlements and releases, and no balance is created or
destroyed. Each operation preserves it.
-/

namespace CodeGo.Billing.Invariant

open Lib Lib.Wrap Schema Statements Aggregation StatementRules Effects

/-- What an entry adds to the running balance of its account. -/
def signedAmount (e : BillingLedgerEntry) : Int :=
  match e.direction with
  | .credit => e.amount
  | .debit => -e.amount

/-- Credits minus debits of an account. -/
def runningSum (accountID : String) (entries : List BillingLedgerEntry) : Int :=
  (entries.map fun e => if e.accountID = accountID then signedAmount e else 0).sum

/-- The stored snapshot of every account is the recomputed one, in `int64`. -/
structure SnapshotsMatch (l : Ledger) : Prop where
  available : ∀ a, (l.stored a).availableBalance = wrap64 (availableSum l a)
  reserved : ∀ a, (l.stored a).reservedBalance = wrap64 (reservedSum l a)
  consumed : ∀ a, (l.stored a).consumedTotal = wrap64 (consumedSum l a)
  refunded : ∀ a, (l.stored a).refundedTotal = wrap64 (refundedSum l a)
  granted : ∀ a, (l.stored a).grantedTotal = wrap64 (grantedSum l a)

/-- An entry that carries a balance carries the running sum up to and including it. -/
def BalancesRun (entries : List BillingLedgerEntry) : Prop :=
  ∀ pre e post b, entries = pre ++ e :: post → e.balanceAfter = some b →
    b = wrap64 (runningSum e.accountID (pre ++ [e]))

/-- Entry types, settlements and releases agree with the reservations. -/
structure RecordsAgree (l : Ledger) : Prop where
  directions : ∀ e ∈ l.entries, availableOf e = signedAmount e
  granted : ∀ e ∈ l.entries, 0 ≤ grantedOf e
  held : ∀ r ∈ l.reservations, 0 < r.reservedAmount
  settlements : ∀ s ∈ l.settlements, s.status = .completed ∧ 0 ≤ s.actualAmount ∧
    ∃ r ∈ l.reservations, r.reservationID = s.reservationID ∧ r.status = .settled
  settled : ∀ r ∈ l.reservations, r.status = .settled →
    ∃ s ∈ l.settlements, s.reservationID = r.reservationID
  released : ∀ e ∈ l.entries, e.entryType = .reserveRelease →
    ∃ r ∈ l.reservations, r.reservationID = e.referenceID ∧ r.status = .released

/-- The account holds as much as it was granted. -/
def Conserved (l : Ledger) : Prop :=
  ∀ a, availableSum l a + reservedSum l a + consumedSum l a = grantedSum l a

/-- While the grants fit in an `int64`, the available balance is not negative. -/
def Solvent (l : Ledger) : Prop := ∀ a, grantedSum l a < 2 ^ 63 → 0 ≤ availableSum l a

structure Sound (l : Ledger) : Prop where
  snapshots : SnapshotsMatch l
  balances : BalancesRun l.entries.rows
  records : RecordsAgree l
  conserved : Conserved l
  solvent : Solvent l

theorem Sound.empty : Sound Ledger.empty where
  snapshots := ⟨fun _ => rfl, fun _ => rfl, fun _ => rfl, fun _ => rfl, fun _ => rfl⟩
  balances := fun pre e post b h => by simp [Ledger.empty, Table.empty] at h
  records := by
    constructor <;> intro x hx <;> cases hx
  conserved := fun _ => rfl
  solvent := fun _ _ => le_refl 0

theorem RecordsAgree.releasesClose {l : Ledger} (h : RecordsAgree l) : ReleasesClose l := by
  intro e he htype r hr hid
  obtain ⟨r', hr', hid', hst⟩ := h.released e he htype
  have : r = r' := Table.eq_of_clash hr hr' (Indexed.clash_of_pk r r' (hid.trans hid'.symm))
  rw [this, hst]
  exact ReservationStatus.noConfusion

section Sums

variable {l l' : Ledger}

theorem stored_of_set {a : String} {row : BillingBalanceSnapshot}
    (h : SnapshotSet l.snapshots l'.snapshots a row) (b : String) :
    l'.stored b = if b = a then row else l.stored b := by
  unfold Ledger.stored
  split
  next e => rw [e, h.row, Option.getD_some]
  next e => rw [h.others b e]

theorem availableSum_insert {e : BillingLedgerEntry} (h : l.entries.insert? e = some l'.entries)
    (a : String) :
    availableSum l' a = availableSum l a + if e.accountID = a then availableOf e else 0 :=
  Table.sum_insert? h _

theorem grantedSum_insert {e : BillingLedgerEntry} (h : l.entries.insert? e = some l'.entries)
    (a : String) :
    grantedSum l' a = grantedSum l a + if e.accountID = a then grantedOf e else 0 :=
  Table.sum_insert? h _

theorem reservedSum_insert {r : BillingReservation} (hopen : r.status = .open)
    (h : l.reservations.insert? r = some l'.reservations) (a : String) :
    reservedSum l' a = reservedSum l a + if r.accountID = a then r.reservedAmount else 0 := by
  have := Table.sum_insert? h fun r =>
    if r.accountID = a ∧ r.status = .open then r.reservedAmount else 0
  simp only [hopen, and_true] at this
  exact this

theorem reservedSum_close {r : BillingReservation} {st : ReservationStatus}
    (hr : l.reservations.get? r.reservationID = some r) (hopen : r.status = .open)
    (hst : st ≠ .open)
    (h : l'.reservations = l.reservations.update r.reservationID _ (keepsIndexes_withStatus st))
    (a : String) :
    reservedSum l' a = reservedSum l a - if r.accountID = a then r.reservedAmount else 0 := by
  have := Table.sum_update (keepsIndexes_withStatus st) hr fun r =>
    if r.accountID = a ∧ r.status = .open then r.reservedAmount else 0
  rw [← h] at this
  simp only [withStatus, hopen, hst, and_true, and_false, if_false, add_zero] at this
  exact this

/-- Closing a reservation does not move a settlement to another account. -/
theorem settledFor_update {t : Table BillingReservation} {id : String} {st : ReservationStatus}
    (a : String) (s : BillingSettlement) :
    settledFor (t.update id _ (keepsIndexes_withStatus st)) a s = settledFor t a s := by
  unfold settledFor
  rw [Table.get?_update]
  split
  next e => rw [e]; cases t.get? id <;> rfl
  next => rfl

/-- A new reservation does not take over a settlement. -/
theorem settledFor_insert {t t' : Table BillingReservation} {r : BillingReservation}
    (h : t.insert? r = some t') {s : BillingSettlement}
    (hs : ∃ r' ∈ t, r'.reservationID = s.reservationID) (a : String) :
    settledFor t' a s = settledFor t a s := by
  unfold settledFor
  obtain ⟨r', hr', hid⟩ := hs
  have hne : s.reservationID ≠ r.reservationID := fun e => by
    have := (Table.insert?_eq_some h).2 r' hr'
    rw [Indexed.clash_of_pk r' r (hid.trans e)] at this
    cases this
  rw [Table.get?_insert? h, pk_reservation, if_neg hne]

theorem settledFor_current {t : Table BillingReservation} {r : BillingReservation}
    {s : BillingSettlement} (hr : t.get? r.reservationID = some r)
    (hs : s.reservationID = r.reservationID) (hst : s.status = .completed) (a : String) :
    settledFor t a s = decide (r.accountID = a) := by
  unfold settledFor
  rw [hs, hr]
  simp [hst]

end Sums

theorem runningSum_append (a : String) (xs ys : List BillingLedgerEntry) :
    runningSum a (xs ++ ys) = runningSum a xs + runningSum a ys := by
  simp only [runningSum, List.map_append, List.sum_append]

theorem runningSum_eq_availableSum {l : Ledger} (h : RecordsAgree l) (a : String) :
    runningSum a l.entries.rows = availableSum l a := by
  unfold runningSum availableSum
  refine Table.sum_congr fun e he => ?_
  rw [h.directions e he]

theorem BalancesRun.append {xs : List BillingLedgerEntry} {e : BillingLedgerEntry}
    (h : BalancesRun xs)
    (he : ∀ b, e.balanceAfter = some b → b = wrap64 (runningSum e.accountID (xs ++ [e]))) :
    BalancesRun (xs ++ [e]) := by
  intro pre f post b hsplit hb
  rcases List.eq_nil_or_concat post with rfl | ⟨post', g, rfl⟩
  · -- `f` is the new entry
    obtain ⟨rfl, hf⟩ := List.append_inj' hsplit rfl
    cases hf
    exact he b hb
  · rw [List.concat_eq_append, ← List.cons_append, ← List.append_assoc] at hsplit
    obtain ⟨hxs, -⟩ := List.append_inj' hsplit rfl
    exact h pre f post' b hxs hb

/-- A new entry whose balance continues that of its account. -/
theorem BalancesRun.insert {l l' : Ledger} {e : BillingLedgerEntry} (h : BalancesRun l.entries.rows)
    (hr : RecordsAgree l) (hi : l.entries.insert? e = some l'.entries)
    (hdir : availableOf e = signedAmount e)
    (he : ∀ b, e.balanceAfter = some b → b = wrap64 (availableSum l e.accountID + availableOf e)) :
    BalancesRun l'.entries.rows := by
  rw [(Table.insert?_eq_some hi).1]
  refine h.append fun b hb => ?_
  rw [he b hb, runningSum_append, runningSum_eq_availableSum hr, hdir]
  simp [runningSum]

section Moves

/-- The sums of the account `a` moved by `d`, those of every other account stayed. -/
structure Moved (l l' : Ledger) (a : String) (d : BillingBalanceSnapshot) : Prop where
  available : ∀ b, availableSum l' b = availableSum l b + if a = b then d.availableBalance else 0
  reserved : ∀ b, reservedSum l' b = reservedSum l b + if a = b then d.reservedBalance else 0
  consumed : ∀ b, consumedSum l' b = consumedSum l b + if a = b then d.consumedTotal else 0
  refunded : ∀ b, refundedSum l' b = refundedSum l b + if a = b then d.refundedTotal else 0
  granted : ∀ b, grantedSum l' b = grantedSum l b + if a = b then d.grantedTotal else 0

/-- The stored row of the account moved by `d`, in `int64`. -/
structure RowMoved (s s' : BillingBalanceSnapshot) (d : BillingBalanceSnapshot) : Prop where
  available : s'.availableBalance = wrap64 (s.availableBalance + d.availableBalance)
  reserved : s'.reservedBalance = wrap64 (s.reservedBalance + d.reservedBalance)
  consumed : s'.consumedTotal = wrap64 (s.consumedTotal + d.consumedTotal)
  refunded : s'.refundedTotal = wrap64 (s.refundedTotal + d.refundedTotal)
  granted : s'.grantedTotal = wrap64 (s.grantedTotal + d.grantedTotal)

variable {l l' : Ledger} {a : String} {d row : BillingBalanceSnapshot}

theorem SnapshotsMatch.moved (h : SnapshotsMatch l) (hm : Moved l l' a d)
    (hs : SnapshotSet l.snapshots l'.snapshots a row) (hrow : RowMoved (l.stored a) row d) :
    SnapshotsMatch l' := by
  constructor <;> intro b <;> rw [stored_of_set hs] <;> by_cases hb : b = a
  · rw [if_pos hb, hrow.available, h.available, hm.available, hb, if_pos rfl, wrap64_wrap64_add]
  · rw [if_neg hb, h.available, hm.available, if_neg (Ne.symm hb), add_zero]
  · rw [if_pos hb, hrow.reserved, h.reserved, hm.reserved, hb, if_pos rfl, wrap64_wrap64_add]
  · rw [if_neg hb, h.reserved, hm.reserved, if_neg (Ne.symm hb), add_zero]
  · rw [if_pos hb, hrow.consumed, h.consumed, hm.consumed, hb, if_pos rfl, wrap64_wrap64_add]
  · rw [if_neg hb, h.consumed, hm.consumed, if_neg (Ne.symm hb), add_zero]
  · rw [if_pos hb, hrow.refunded, h.refunded, hm.refunded, hb, if_pos rfl, wrap64_wrap64_add]
  · rw [if_neg hb, h.refunded, hm.refunded, if_neg (Ne.symm hb), add_zero]
  · rw [if_pos hb, hrow.granted, h.granted, hm.granted, hb, if_pos rfl, wrap64_wrap64_add]
  · rw [if_neg hb, h.granted, hm.granted, if_neg (Ne.symm hb), add_zero]

theorem Conserved.moved (h : Conserved l) (hm : Moved l l' a d)
    (hd : d.availableBalance + d.reservedBalance + d.consumedTotal = d.grantedTotal) :
    Conserved l' := by
  intro b
  rw [hm.available, hm.reserved, hm.consumed, hm.granted, ← h b]
  split <;> omega

theorem Solvent.moved (h : Solvent l) (hm : Moved l l' a d) (hg : 0 ≤ d.grantedTotal)
    (hd : grantedSum l a < 2 ^ 63 → 0 ≤ availableSum l a + d.availableBalance) : Solvent l' := by
  intro b hb
  rw [hm.granted] at hb
  rw [hm.available]
  split
  next e =>
    subst e
    rw [if_pos rfl] at hb
    exact hd (by omega)
  next e =>
    rw [if_neg e, add_zero] at hb
    rw [add_zero]
    exact h b hb

end Moves

end CodeGo.Billing.Invariant
