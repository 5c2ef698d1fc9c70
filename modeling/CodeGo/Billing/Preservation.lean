import CodeGo.Billing.Invariant

/-!
# The operations preserve the ledger invariant

One lemma for each effect, and from them what every operation ensures among
other transactions.
-/

namespace CodeGo.Billing.Preservation

open Lib Lib.Wrap Schema Statements Aggregation LedgerRuntime StatementRules Effects Invariant

section Exact

variable {l : Ledger} {a : String}

theorem reservedSum_nonneg (h : RecordsAgree l) (a : String) : 0 ≤ reservedSum l a := by
  refine Table.sum_nonneg fun r hr => ?_
  split
  · exact (h.held r hr).le
  · exact le_refl 0

theorem consumedSum_nonneg (h : RecordsAgree l) (a : String) : 0 ≤ consumedSum l a := by
  refine Table.sum_nonneg fun s hs => ?_
  split
  · exact (h.settlements s hs).2.1
  · exact le_refl 0

theorem grantedSum_nonneg (h : RecordsAgree l) (a : String) : 0 ≤ grantedSum l a := by
  refine Table.sum_nonneg fun e he => ?_
  split
  · exact h.granted e he
  · exact le_refl 0

/-- While the grants fit in an `int64`, the stored balances are the sums themselves. -/
theorem stored_exact (h : Sound l) (hg : grantedSum l a < 2 ^ 63) :
    (l.stored a).availableBalance = availableSum l a ∧
      (l.stored a).reservedBalance = reservedSum l a ∧
      (l.stored a).consumedTotal = consumedSum l a ∧
      (l.stored a).grantedTotal = grantedSum l a := by
  have hA := h.solvent a hg
  have hR := reservedSum_nonneg h.records a
  have hC := consumedSum_nonneg h.records a
  have hcons := h.conserved a
  rw [h.snapshots.available, h.snapshots.reserved, h.snapshots.consumed, h.snapshots.granted]
  refine ⟨wrap64_of_nonneg hA ?_, wrap64_of_nonneg hR ?_, wrap64_of_nonneg hC ?_,
    wrap64_of_nonneg ?_ hg⟩ <;> omega

end Exact

section Records

variable {l l' : Ledger}

/-- Records that only grow, but for reservations that leave the open status. -/
theorem records_extend (h : RecordsAgree l)
    (hclosed : ∀ r ∈ l.reservations, r.status ≠ .open → r ∈ l'.reservations)
    (hentries : ∀ e ∈ l'.entries, e ∈ l.entries ∨ availableOf e = signedAmount e ∧ 0 ≤ grantedOf e ∧
      (e.entryType = .reserveRelease →
        ∃ r ∈ l'.reservations, r.reservationID = e.referenceID ∧ r.status = .released))
    (hreservations : ∀ r ∈ l'.reservations, r ∈ l.reservations ∨ 0 < r.reservedAmount ∧
      (r.status = .settled → ∃ s ∈ l'.settlements, s.reservationID = r.reservationID))
    (hsettlements : ∀ s ∈ l'.settlements, s ∈ l.settlements ∨ s.status = .completed ∧
      0 ≤ s.actualAmount ∧
      ∃ r ∈ l'.reservations, r.reservationID = s.reservationID ∧ r.status = .settled)
    (hkept : ∀ s ∈ l.settlements, s ∈ l'.settlements) : RecordsAgree l' where
  directions e he := (hentries e he).elim (h.directions e) (·.1)
  granted e he := (hentries e he).elim (h.granted e) (·.2.1)
  held r hr := (hreservations r hr).elim (h.held r) (·.1)
  settlements s hs := by
    rcases hsettlements s hs with hs | hs
    · obtain ⟨hst, hact, r, hr, hid, hset⟩ := h.settlements s hs
      exact ⟨hst, hact, r, hclosed r hr (by rw [hset]; exact ReservationStatus.noConfusion), hid, hset⟩
    · exact hs
  settled r hr hst := by
    rcases hreservations r hr with hr | hr
    · obtain ⟨s, hs, hid⟩ := h.settled r hr hst
      exact ⟨s, hkept s hs, hid⟩
    · exact hr.2 hst
  released e he hrel := by
    rcases hentries e he with he | he
    · obtain ⟨r, hr, hid, hst⟩ := h.released e he hrel
      exact ⟨r, hclosed r hr (by rw [hst]; exact ReservationStatus.noConfusion), hid, hst⟩
    · exact he.2.2 hrel

variable {t : Table BillingReservation} {r : BillingReservation} {st : ReservationStatus}

theorem mem_close (hr : t.get? r.reservationID = some r) {r' : BillingReservation} :
    r' ∈ t.update r.reservationID _ (keepsIndexes_withStatus st) ↔
      (r' ∈ t ∧ r'.reservationID ≠ r.reservationID) ∨ r' = withStatus st r :=
  Table.mem_update _ hr

/-- A reservation that is closed already is another one. -/
theorem closed_of_close (hr : t.get? r.reservationID = some r) (hopen : r.status = .open)
    {r' : BillingReservation} (hr' : r' ∈ t) (hst : r'.status ≠ .open) :
    r' ∈ t.update r.reservationID _ (keepsIndexes_withStatus st) := by
  refine (mem_close hr).2 (.inl ⟨hr', fun e => hst ?_⟩)
  have : r' = r := by
    have hget := Table.get?_of_mem hr'
    rw [pk_reservation, e, hr] at hget
    exact (Option.some.inj hget).symm
  rw [this, hopen]

end Records

section Effects

variable {l l' : Ledger}

theorem consumedSum_congr (hs : l'.settlements = l.settlements)
    (hr : ∀ s ∈ l.settlements, ∀ a, settledFor l'.reservations a s = settledFor l.reservations a s)
    (a : String) : consumedSum l' a = consumedSum l a := by
  unfold consumedSum
  rw [hs]
  refine Table.sum_congr fun s h => ?_
  rw [hr s h]

theorem refundedSum_congr (hs : l'.settlements = l.settlements)
    (hr : ∀ s ∈ l.settlements, ∀ a, settledFor l'.reservations a s = settledFor l.reservations a s)
    (a : String) : refundedSum l' a = refundedSum l a := by
  unfold refundedSum
  rw [hs]
  refine Table.sum_congr fun s h => ?_
  rw [hr s h]

/-- A row whose counters are not touched moves by nothing. -/
theorem stored_wrap (h : SnapshotsMatch l) (a : String) :
    RowMoved (l.stored a) (l.stored a) { accountID := a } := by
  constructor <;> simp only [add_zero]
  · rw [h.available, wrap64_wrap64]
  · rw [h.reserved, wrap64_wrap64]
  · rw [h.consumed, wrap64_wrap64]
  · rw [h.refunded, wrap64_wrap64]
  · rw [h.granted, wrap64_wrap64]

theorem moved_of_credited {e : BillingLedgerEntry} (hc : Credited l l' e) : Moved l l' e.accountID
    { accountID := "", availableBalance := e.amount, grantedTotal := e.amount } := by
  have hset : ∀ s ∈ l.settlements, ∀ a,
      settledFor l'.reservations a s = settledFor l.reservations a s := by simp [hc.reservations]
  constructor <;> intro b
  · rw [availableSum_insert hc.entries]
    simp only [availableOf, hc.entryType]
  · simp [reservedSum, hc.reservations]
  · simp [consumedSum_congr hc.settlements hset]
  · simp [refundedSum_congr hc.settlements hset]
  · rw [grantedSum_insert hc.entries]
    simp only [grantedOf, hc.entryType]

theorem sound_of_credited {e : BillingLedgerEntry} (h : Sound l) (hc : Credited l l' e)
    (hpos : 0 < e.amount) : Sound l' := by
  have hav : availableOf e = e.amount := by simp only [availableOf, hc.entryType]
  have hgr : grantedOf e = e.amount := by simp only [grantedOf, hc.entryType]
  have hdir : availableOf e = signedAmount e := by rw [hav, signedAmount, hc.direction]
  have hm := moved_of_credited hc
  have hw := stored_wrap h.snapshots e.accountID
  constructor
  case snapshots =>
    exact h.snapshots.moved hm hc.snapshots ⟨rfl, hw.reserved, hw.consumed, hw.refunded, rfl⟩
  case balances =>
    refine h.balances.insert h.records hc.entries hdir fun b hb => ?_
    rw [hc.balanceAfter, Option.some.injEq, h.snapshots.available, wrap64_wrap64_add] at hb
    rw [← hb, hav]
  case records =>
    refine records_extend h.records (fun r hr _ => hc.reservations ▸ hr) (fun f hf => ?_)
      (fun r hr => .inl (hc.reservations ▸ hr)) (fun s hs => .inl (hc.settlements ▸ hs))
      (fun s hs => hc.settlements ▸ hs)
    rcases (Table.mem_insert? hc.entries).1 hf with hf | rfl
    · exact .inl hf
    · exact .inr ⟨hdir, by rw [hgr]; exact hpos.le, fun hrel => by rw [hc.entryType] at hrel; cases hrel⟩
  case conserved => exact h.conserved.moved hm (by simp)
  case solvent =>
    refine h.solvent.moved hm hpos.le fun hg => ?_
    have := h.solvent _ hg
    dsimp only
    omega

theorem moved_of_held {r : BillingReservation} {e : BillingLedgerEntry} (h : RecordsAgree l)
    (hc : Held l l' r e) : Moved l l' r.accountID {
      accountID := ""
      availableBalance := -r.reservedAmount
      reservedBalance := r.reservedAmount } := by
  have hset : ∀ s ∈ l.settlements, ∀ a,
      settledFor l'.reservations a s = settledFor l.reservations a s := by
    intro s hs
    obtain ⟨-, -, r', hr', hid, -⟩ := h.settlements s hs
    exact settledFor_insert hc.reservations ⟨r', hr', hid⟩
  constructor <;> intro b
  · rw [availableSum_insert hc.entries, hc.account]
    simp only [availableOf, hc.entryType, hc.amount]
  · rw [reservedSum_insert hc.status hc.reservations]
  · simp [consumedSum_congr hc.settlements hset]
  · simp [refundedSum_congr hc.settlements hset]
  · simp [grantedSum_insert hc.entries, grantedOf, hc.entryType]

theorem sound_of_held {r : BillingReservation} {e : BillingLedgerEntry} (h : Sound l)
    (hc : Held l l' r e) (hpos : 0 < r.reservedAmount) : Sound l' := by
  have hav : availableOf e = -r.reservedAmount := by simp only [availableOf, hc.entryType, hc.amount]
  have hgr : grantedOf e = 0 := by simp only [grantedOf, hc.entryType]
  have hdir : availableOf e = signedAmount e := by rw [hav, signedAmount, hc.direction, hc.amount]
  have hm := moved_of_held h.records hc
  have hw := stored_wrap h.snapshots r.accountID
  constructor
  case snapshots =>
    exact h.snapshots.moved hm hc.snapshots ⟨rfl, rfl, hw.consumed, hw.refunded, hw.granted⟩
  case balances =>
    refine h.balances.insert h.records hc.entries hdir fun b hb => ?_
    rw [hc.balanceAfter, Option.some.injEq, h.snapshots.available, wrap64_wrap64_sub] at hb
    rw [← hb, hav, hc.account, sub_eq_add_neg]
  case records =>
    refine records_extend h.records
      (fun r' hr' _ => (Table.mem_insert? hc.reservations).2 (.inl hr')) (fun f hf => ?_)
      (fun r' hr' => ?_) (fun s hs => .inl (hc.settlements ▸ hs)) (fun s hs => hc.settlements ▸ hs)
    · rcases (Table.mem_insert? hc.entries).1 hf with hf | rfl
      · exact .inl hf
      · exact .inr ⟨hdir, hgr.ge, fun hrel => by rw [hc.entryType] at hrel; cases hrel⟩
    · rcases (Table.mem_insert? hc.reservations).1 hr' with hr' | rfl
      · exact .inl hr'
      · exact .inr ⟨hpos, fun hst => by rw [hc.status] at hst; cases hst⟩
  case conserved => exact h.conserved.moved hm (by simp)
  case solvent =>
    refine h.solvent.moved hm (le_refl 0) fun hg => ?_
    have := hc.covered
    rw [(stored_exact h hg).1] at this
    dsimp only
    omega

theorem moved_of_released {r : BillingReservation} {e : BillingLedgerEntry} (hc : Released l l' r e) :
    Moved l l' r.accountID {
      accountID := ""
      availableBalance := r.reservedAmount
      reservedBalance := -r.reservedAmount } := by
  have hset : ∀ s ∈ l.settlements, ∀ a,
      settledFor l'.reservations a s = settledFor l.reservations a s := fun s _ a => by
    rw [hc.reservations, settledFor_update]
  constructor <;> intro b
  · rw [availableSum_insert hc.entries, hc.account]
    simp only [availableOf, hc.entryType, hc.amount]
  · rw [reservedSum_close hc.current hc.status (by simp) hc.reservations]
    split
    · exact sub_eq_add_neg _ _
    · simp
  · simp [consumedSum_congr hc.settlements hset]
  · simp [refundedSum_congr hc.settlements hset]
  · simp [grantedSum_insert hc.entries, grantedOf, hc.entryType]

theorem sound_of_released {r : BillingReservation} {e : BillingLedgerEntry} (h : Sound l)
    (hc : Released l l' r e) : Sound l' := by
  have hav : availableOf e = r.reservedAmount := by simp only [availableOf, hc.entryType, hc.amount]
  have hgr : grantedOf e = 0 := by simp only [grantedOf, hc.entryType]
  have hdir : availableOf e = signedAmount e := by rw [hav, signedAmount, hc.direction, hc.amount]
  have hm := moved_of_released hc
  have hw := stored_wrap h.snapshots r.accountID
  have hmem : r ∈ l.reservations := Table.mem_of_get? hc.current
  constructor
  case snapshots =>
    exact h.snapshots.moved hm hc.snapshots ⟨rfl, rfl, hw.consumed, hw.refunded, hw.granted⟩
  case balances =>
    refine h.balances.insert h.records hc.entries hdir fun b hb => ?_
    rw [hc.balanceAfter, Option.some.injEq, h.snapshots.available, wrap64_wrap64_add] at hb
    rw [← hb, hav, hc.account]
  case records =>
    have hclosed : withStatus .released r ∈ l'.reservations := by
      rw [hc.reservations]
      exact (mem_close hc.current).2 (.inr rfl)
    refine records_extend h.records (fun r' hr' hst => ?_) (fun f hf => ?_)
      (fun r' hr' => ?_) (fun s hs => .inl (hc.settlements ▸ hs)) (fun s hs => hc.settlements ▸ hs)
    · rw [hc.reservations]
      exact closed_of_close hc.current hc.status hr' hst
    · rcases (Table.mem_insert? hc.entries).1 hf with hf | rfl
      · exact .inl hf
      · exact .inr ⟨hdir, hgr.ge, fun _ => ⟨_, hclosed, hc.reference.symm, rfl⟩⟩
    · rw [hc.reservations] at hr'
      rcases (mem_close hc.current).1 hr' with hr' | rfl
      · exact .inl hr'.1
      · exact .inr ⟨h.records.held r hmem, nofun⟩
  case conserved => exact h.conserved.moved hm (by simp)
  case solvent =>
    refine h.solvent.moved hm (le_refl 0) fun hg => ?_
    have := h.solvent _ hg
    have := h.records.held r hmem
    dsimp only
    omega

/-- The balances that a settlement moves. -/
def settleMove (r : BillingReservation) (s : BillingSettlement) : BillingBalanceSnapshot where
  accountID := r.accountID
  availableBalance := -s.deltaAmount
  reservedBalance := -r.reservedAmount
  consumedTotal := s.actualAmount
  refundedTotal := if s.deltaAmount < 0 then -s.deltaAmount else 0

theorem settleSnapshot_moved {row : BillingBalanceSnapshot} {r : BillingReservation}
    {s : BillingSettlement} {b : String} (hw : RowMoved row row { accountID := b }) :
    RowMoved row (settleSnapshot row r.reservedAmount s.actualAmount s.deltaAmount)
      (settleMove r s) := by
  have hA := hw.available
  have hF := hw.refunded
  have hG := hw.granted
  simp only [add_zero] at hA hF hG
  unfold settleSnapshot settleMove
  rcases lt_trichotomy s.deltaAmount 0 with hd | hd | hd
  · have hnot : ¬ s.deltaAmount > 0 := by omega
    simp only [hnot, hd, if_true, if_false]
    exact ⟨rfl, rfl, rfl, rfl, by rw [add_zero]; exact hG⟩
  · simp only [hd, gt_iff_lt, lt_irrefl, if_false, neg_zero]
    exact ⟨by rw [add_zero]; exact hA, rfl, rfl, by rw [add_zero]; exact hF,
      by rw [add_zero]; exact hG⟩
  · have hnot : ¬ s.deltaAmount < 0 := by omega
    simp only [hd, hnot, if_true, if_false]
    exact ⟨rfl, rfl, rfl, by rw [add_zero]; exact hF, by rw [add_zero]; exact hG⟩

theorem settleEntry_amounts {t t' : Table BillingLedgerEntry} {a : String}
    {s : BillingSettlement} {after : Int} {e : BillingLedgerEntry} (h : SettleEntry t t' a s after e) :
    availableOf e = -s.deltaAmount ∧ grantedOf e = 0 ∧ signedAmount e = -s.deltaAmount ∧
      e.entryType ≠ .reserveRelease := by
  by_cases hd : s.deltaAmount < 0
  · simp [availableOf, grantedOf, signedAmount, h.entryType, h.direction, h.amount, hd]
  · simp [availableOf, grantedOf, signedAmount, h.entryType, h.direction, h.amount, hd]

theorem moved_of_settled {r : BillingReservation} {s : BillingSettlement} {id : String}
    (hc : Settled l l' r s)
    (he : SettleEntries l.entries l'.entries id r.accountID s
      (l'.stored r.accountID).availableBalance) : Moved l l' r.accountID (settleMove r s) := by
  have hset : ∀ s a, settledFor l'.reservations a s = settledFor l.reservations a s := fun s a => by
    rw [hc.reservations, settledFor_update]
  have hown : ∀ a, settledFor l.reservations a s = decide (r.accountID = a) :=
    settledFor_current hc.current hc.reservation hc.completed
  constructor <;> intro b
  · rcases he with ⟨hzero, hent⟩ | ⟨e, he, -⟩
    · simp [availableSum, hent, settleMove, hzero]
    · rw [availableSum_insert he.entries, he.account, (settleEntry_amounts he).1]
      rfl
  · rw [reservedSum_close hc.current hc.status (by simp) hc.reservations]
    split
    · exact sub_eq_add_neg _ _
    · simp
  · simp only [consumedSum, hset, Table.sum_insert? hc.settlements, hown, decide_eq_true_eq]
    rfl
  · simp only [refundedSum, hset, Table.sum_insert? hc.settlements, hown, decide_eq_true_eq]
    rfl
  · rcases he with ⟨-, hent⟩ | ⟨e, he, -⟩
    · simp [grantedSum, hent, settleMove]
    · simp [grantedSum_insert he.entries, (settleEntry_amounts he).2.1, settleMove]

theorem sound_of_settled {r : BillingReservation} {s : BillingSettlement} {id : String}
    (h : Sound l) (hc : Settled l l' r s)
    (he : SettleEntries l.entries l'.entries id r.accountID s
      (l'.stored r.accountID).availableBalance) (hact : 0 ≤ s.actualAmount) : Sound l' := by
  have hm := moved_of_settled hc he
  have hmem : r ∈ l.reservations := Table.mem_of_get? hc.current
  have hw := settleSnapshot_moved (r := r) (s := s) (stored_wrap h.snapshots r.accountID)
  have hmatch : SnapshotsMatch l' := h.snapshots.moved hm hc.snapshots hw
  constructor
  case snapshots => exact hmatch
  case balances =>
    rcases he with ⟨-, hent⟩ | ⟨e, he, -⟩
    · rw [hent]
      exact h.balances
    · obtain ⟨hav, -, hsg, -⟩ := settleEntry_amounts he
      refine h.balances.insert h.records he.entries (hav.trans hsg.symm) fun b hb => ?_
      rw [he.balanceAfter, Option.some.injEq, hmatch.available, hm.available, if_pos rfl] at hb
      rw [← hb, hav, he.account]
      rfl
  case records =>
    have hclosed : withStatus .settled r ∈ l'.reservations := by
      rw [hc.reservations]
      exact (mem_close hc.current).2 (.inr rfl)
    refine records_extend h.records (fun r' hr' hst => ?_) (fun f hf => ?_) (fun r' hr' => ?_)
      (fun s' hs' => ?_) (fun s' hs' => (Table.mem_insert? hc.settlements).2 (.inl hs'))
    · rw [hc.reservations]
      exact closed_of_close hc.current hc.status hr' hst
    · rcases he with ⟨-, hent⟩ | ⟨e, he, -⟩
      · exact .inl (hent ▸ hf)
      · rcases (Table.mem_insert? he.entries).1 hf with hf | rfl
        · exact .inl hf
        · obtain ⟨hav, hgr, hsg, hrel⟩ := settleEntry_amounts he
          exact .inr ⟨hav.trans hsg.symm, hgr.ge, fun hrel' => absurd hrel' hrel⟩
    · rw [hc.reservations] at hr'
      rcases (mem_close hc.current).1 hr' with hr' | rfl
      · exact .inl hr'.1
      · exact .inr ⟨h.records.held r hmem, fun _ =>
          ⟨s, (Table.mem_insert? hc.settlements).2 (.inr rfl), hc.reservation⟩⟩
    · rcases (Table.mem_insert? hc.settlements).1 hs' with hs' | rfl
      · exact .inl hs'
      · exact .inr ⟨hc.completed, hact, _, hclosed, hc.reservation.symm, rfl⟩
  case conserved =>
    refine h.conserved.moved hm ?_
    have := hc.delta
    simp only [settleMove]
    omega
  case solvent =>
    refine h.solvent.moved hm (le_refl 0) fun hg => ?_
    have hA := h.solvent _ hg
    have hcov := hc.covered
    rw [(stored_exact h hg).1] at hcov
    simp only [settleMove]
    omega

theorem sound_of_adjusted {e : BillingLedgerEntry} (h : Sound l) (hc : Adjusted l l' e) :
    Sound l' := by
  have hav : availableOf e = 0 := by simp only [availableOf, hc.entryType]
  have hgr : grantedOf e = 0 := by simp only [grantedOf, hc.entryType]
  have hdir : availableOf e = signedAmount e := by rw [hav, signedAmount, hc.direction, hc.amount]
  have hA : ∀ b, availableSum l' b = availableSum l b := by simp [availableSum_insert hc.entries, hav]
  have hG : ∀ b, grantedSum l' b = grantedSum l b := by simp [grantedSum_insert hc.entries, hgr]
  have hR : ∀ b, reservedSum l' b = reservedSum l b := by simp [reservedSum, hc.reservations]
  have hC : ∀ b, consumedSum l' b = consumedSum l b := by
    simp [consumedSum, hc.reservations, hc.settlements]
  have hF : ∀ b, refundedSum l' b = refundedSum l b := by
    simp [refundedSum, hc.reservations, hc.settlements]
  have hst : ∀ b, l'.stored b = l.stored b := by simp [Ledger.stored, hc.snapshots]
  constructor
  case snapshots =>
    constructor <;> intro b <;> rw [hst]
    · rw [hA, h.snapshots.available]
    · rw [hR, h.snapshots.reserved]
    · rw [hC, h.snapshots.consumed]
    · rw [hF, h.snapshots.refunded]
    · rw [hG, h.snapshots.granted]
  case balances =>
    refine h.balances.insert h.records hc.entries hdir fun b hb => ?_
    rw [hc.balanceAfter] at hb
    cases hb
  case records =>
    refine records_extend h.records (fun r hr _ => hc.reservations ▸ hr) (fun f hf => ?_)
      (fun r hr => .inl (hc.reservations ▸ hr)) (fun s hs => .inl (hc.settlements ▸ hs))
      (fun s hs => hc.settlements ▸ hs)
    rcases (Table.mem_insert? hc.entries).1 hf with hf | rfl
    · exact .inl hf
    · exact .inr ⟨hdir, hgr.ge, fun hrel => by rw [hc.entryType] at hrel; cases hrel⟩
  case conserved =>
    intro b
    rw [hA, hR, hC, hG]
    exact h.conserved b
  case solvent =>
    intro b hb
    rw [hG] at hb
    rw [hA]
    exact h.solvent b hb

/-- A change of the snapshot rows alone. -/
theorem sound_of_snapshots (h : Sound l) (he : l'.entries = l.entries)
    (hr : l'.reservations = l.reservations) (hs : l'.settlements = l.settlements)
    (hst : ∀ b, l'.stored b = l.stored b) : Sound l' := by
  have hA : ∀ b, availableSum l' b = availableSum l b := by simp [availableSum, he]
  have hG : ∀ b, grantedSum l' b = grantedSum l b := by simp [grantedSum, he]
  have hR : ∀ b, reservedSum l' b = reservedSum l b := by simp [reservedSum, hr]
  have hC : ∀ b, consumedSum l' b = consumedSum l b := by simp [consumedSum, hr, hs]
  have hF : ∀ b, refundedSum l' b = refundedSum l b := by simp [refundedSum, hr, hs]
  constructor
  case snapshots =>
    constructor <;> intro b <;> rw [hst]
    · rw [hA, h.snapshots.available]
    · rw [hR, h.snapshots.reserved]
    · rw [hC, h.snapshots.consumed]
    · rw [hF, h.snapshots.refunded]
    · rw [hG, h.snapshots.granted]
  case balances =>
    rw [he]
    exact h.balances
  case records =>
    exact records_extend h.records (fun r h _ => hr ▸ h) (fun f hf => .inl (he ▸ hf))
      (fun r h => .inl (hr ▸ h)) (fun s h => .inl (hs ▸ h)) (fun s h => hs ▸ h)
  case conserved =>
    intro b
    rw [hA, hR, hC, hG]
    exact h.conserved b
  case solvent =>
    intro b hb
    rw [hG] at hb
    rw [hA]
    exact h.solvent b hb

theorem sound_of_accountEnsured {a : BillingAccount} (h : Sound l) (hc : AccountEnsured l l' a) :
    Sound l' := by
  refine sound_of_snapshots h hc.entries hc.reservations hc.settlements fun b => ?_
  unfold Ledger.stored
  rcases hc.snapshots with hs | hs <;> rw [hs]
  rw [get?_zeroIfAbsent]
  split
  next e => rw [e, Option.getD_some]
  next => rfl

theorem stored_accountID (l : Ledger) (a : String) : (l.stored a).accountID = a := by
  unfold Ledger.stored
  cases hs : l.snapshots.get? a with
  | some s => exact Table.pk_of_get? hs
  | none => rfl

/-- A recomputation that fits in the counters is the stored snapshot. -/
theorem expected_eq_stored (h : SnapshotsMatch l) {a : String}
    (hin : SnapshotInRange (expectedSnapshot l a)) : expectedSnapshot l a = l.stored a := by
  obtain ⟨hA, hR, hC, hF, hG⟩ := hin
  simp only [expectedSnapshot] at hA hR hC hF hG
  have hid := stored_accountID l a
  have hav := h.available a
  have hre := h.reserved a
  have hco := h.consumed a
  have hrf := h.refunded a
  have hgr := h.granted a
  rw [wrap64_of_inRange hA] at hav
  rw [wrap64_of_inRange hR] at hre
  rw [wrap64_of_inRange hC] at hco
  rw [wrap64_of_inRange hF] at hrf
  rw [wrap64_of_inRange hG] at hgr
  rw [expectedSnapshot, ← hav, ← hre, ← hco, ← hrf, ← hgr]
  generalize l.stored a = s at hid
  cases s
  cases hid
  rfl

/-- A rebuild of a ledger that matches changes no balance. -/
theorem stored_of_rebuilt {a : String} (h : SnapshotsMatch l) (hc : Rebuilt l l' a) (b : String) :
    l'.stored b = l.stored b := by
  rw [stored_of_set hc.snapshots]
  split
  next e => rw [e, expected_eq_stored h hc.inRange]
  next => rfl

theorem sound_of_rebuilt {a : String} (h : Sound l) (hc : Rebuilt l l' a) : Sound l' :=
  sound_of_snapshots h hc.entries hc.reservations hc.settlements
    (stored_of_rebuilt h.snapshots hc)

end Effects

end CodeGo.Billing.Preservation
