import CodeGo.Billing.Exec
import CodeGo.Billing.RequestTotals

/-!
# What a successful call recorded

The exported ledger operations run to success in the transaction of a caller: the
row they return, and whether it is new or was recorded under the key before.
-/

namespace CodeGo.Billing.Recorded

open Lib Lib.Trim Schema Statements LedgerRuntime Effects Invariant Preservation

structure AccountRecorded (l l' : Ledger) (p : EnsureAccountParams) (a : BillingAccount) : Prop where
  ensured : AccountEnsured l l' a
  owner : a.owner = ownerOf p
  outcome : a ∈ l.accounts ∧ l'.accounts = l.accounts ∨ l.accounts.insert? a = some l'.accounts

structure CreditRecorded (l l' : Ledger) (p : CreditAccountParams) (e : BillingLedgerEntry) :
    Prop where
  named : blank p.accountID = false
  positive : 0 < p.amount
  account : e.accountID = p.accountID
  amount : e.amount = p.amount
  entryType : e.entryType = .grantCredit
  outcome : (e ∈ l.entries ∧ e.idempotencyKey = p.idempotencyKey) ∧ l' = l ∨
    Credited l l' e ∧ e.idempotencyKey = trimSpace p.idempotencyKey

/-- `id` is the identifier of the reservation if it is new. -/
structure ReservationRecorded (id : String) (l l' : Ledger) (p : CreateReservationParams)
    (r : BillingReservation) : Prop where
  named : blank p.accountID = false
  positive : 0 < p.reservedAmount
  account : r.accountID = p.accountID
  amount : r.reservedAmount = p.reservedAmount
  request : r.requestID = trimSpace p.requestID
  outcome : (r ∈ l.reservations ∧ r.idempotencyKey = p.idempotencyKey) ∧ l' = l ∨
    ∃ e, Held l l' r e ∧ r.reservationID = id ∧ r.idempotencyKey = trimSpace p.idempotencyKey ∧
      e.idempotencyKey = "entry:" ++ trimSpace p.idempotencyKey

/-- `r` is the reservation as it was before; one that was released already stays. -/
structure ReleaseRecorded (l l' : Ledger) (p : ReleaseReservationParams) (r : BillingReservation) :
    Prop where
  current : l.reservations.get? p.reservationID = some r
  outcome : r.status = .released ∧ l' = l ∨ ∃ e, Released l l' r e

structure SettlementRecorded (l l' : Ledger) (p : SettleReservationParams)
    (s : BillingSettlement) : Prop where
  nonneg : 0 ≤ p.actualAmount
  reservation : s.reservationID = p.reservationID
  actual : s.actualAmount = p.actualAmount
  outcome : (s ∈ l.settlements ∧ s.idempotencyKey = p.idempotencyKey) ∧ l' = l ∨
    ∃ r id, Settled l l' r s ∧
      SettleEntries l.entries l'.entries id r.accountID s (l'.stored r.accountID).availableBalance

section Runs

variable {u : Uuids} {l l' : Ledger}

theorem ensureBillingAccount_ok {p : EnsureAccountParams} {a : BillingAccount}
    (h : (ensureBillingAccount u p).run l = (.ok a, l')) : AccountRecorded l l' p a := by
  obtain ⟨-, h⟩ := Prog.checked h
  obtain ⟨-, h⟩ := Prog.checked h
  obtain ⟨hensured, howner, hcase⟩ := (ensureBillingAccountTx_ensures (· = l) u p).run rfl h
  refine ⟨hensured, howner, ?_⟩
  rcases hcase with ⟨⟨c, rfl, ha⟩, hacc⟩ | ⟨hnew, -⟩
  · exact .inl ⟨ha, hacc⟩
  · exact .inr hnew

theorem creditAccount_ok {p : CreditAccountParams} {e : BillingLedgerEntry}
    (h : (creditAccount u p).run l = (.ok e, l')) : CreditRecorded l l' p e := by
  obtain ⟨hp, h⟩ := Prog.checked h
  simp only [Bool.or_eq_true, decide_eq_true_eq, not_or, not_le, Bool.not_eq_true] at hp
  obtain ⟨hacc, ham, htype, hcase⟩ := (creditAccountTx_ensures (· = l) u p).run rfl h
  refine ⟨hp.1.1, hp.1.2, hacc, ham, htype, ?_⟩
  rcases hcase with ⟨⟨c, rfl, he, hkey⟩, hl⟩ | ⟨hc, -, hkey, -⟩
  · exact .inl ⟨⟨he, hkey⟩, hl⟩
  · exact .inr ⟨hc, hkey⟩

theorem createReservation_ok {p : CreateReservationParams} {r : BillingReservation}
    (h : (createReservation u p).run l = (.ok r, l')) : ReservationRecorded (u 0) l l' p r := by
  obtain ⟨hp, h⟩ := Prog.checked h
  simp only [Bool.or_eq_true, decide_eq_true_eq, not_or, not_le, Bool.not_eq_true] at hp
  obtain ⟨⟨hacc, ham, hreq, -⟩, hcase⟩ := (createReservationTx_ensures (· = l) u p).run rfl h
  refine ⟨hp.1.1, hp.1.2, hacc, ham, hreq, ?_⟩
  rcases hcase with ⟨⟨c, rfl, hr, hkey⟩, hl⟩ | ⟨e, hc, hid, hkey, -, hentry, -⟩
  · exact .inl ⟨⟨hr, hkey⟩, hl⟩
  · exact .inr ⟨e, hc, hid, hkey, by rw [hentry, hkey]⟩

theorem releaseReservation_ok (hclose : ReleasesClose l) {p : ReleaseReservationParams}
    {r' : BillingReservation} (h : (releaseReservation u p).run l = (.ok r', l')) :
    ∃ r, r' = withStatus .released r ∧ ReleaseRecorded l l' p r := by
  obtain ⟨-, h⟩ := Prog.checked h
  have hens := releaseReservationTx_ensures (I := ReleasesClose) (fun _ h => h) u p
  obtain ⟨hid, hst, hcase⟩ := hens.run hclose h
  rcases hcase with ⟨hl, hr⟩ | ⟨r, e, rfl, hc, -⟩
  · exact ⟨r', by rw [← hst]; rfl, hr, .inl ⟨hst, hl⟩⟩
  · have hpk : r.reservationID = p.reservationID := hid
    exact ⟨r, rfl, by rw [← hpk]; exact hc.current, .inr ⟨e, hc⟩⟩

theorem settleReservation_ok {p : SettleReservationParams} {s : BillingSettlement}
    (h : (settleReservation u p).run l = (.ok s, l')) : SettlementRecorded l l' p s := by
  obtain ⟨-, h⟩ := Prog.checked h
  obtain ⟨hact, h⟩ := Prog.checked h
  obtain ⟨hres, ham, hcase⟩ := (settleReservationTx_ensures (· = l) u p).run rfl h
  refine ⟨not_lt.1 hact, hres, ham, ?_⟩
  rcases hcase with ⟨⟨c, rfl, hs, hkey⟩, hl⟩ | ⟨r, hc, he, -⟩
  · exact .inl ⟨⟨hs, hkey⟩, hl⟩
  · exact .inr ⟨r, _, hc, he⟩

end Runs

section Consequences

variable {l l' : Ledger}

theorem AccountRecorded.sound {p : EnsureAccountParams} {a : BillingAccount}
    (h : AccountRecorded l l' p a) (hl : Sound l) : Sound l' :=
  sound_of_accountEnsured hl h.ensured

theorem CreditRecorded.sound {p : CreditAccountParams} {e : BillingLedgerEntry}
    (h : CreditRecorded l l' p e) (hl : Sound l) : Sound l' := by
  rcases h.outcome with ⟨-, rfl⟩ | ⟨hc, -⟩
  · exact hl
  · exact sound_of_credited hl hc (by rw [h.amount]; exact h.positive)

theorem ReservationRecorded.sound {id : String} {p : CreateReservationParams}
    {r : BillingReservation} (h : ReservationRecorded id l l' p r) (hl : Sound l) : Sound l' := by
  rcases h.outcome with ⟨-, rfl⟩ | ⟨e, hc, -⟩
  · exact hl
  · exact sound_of_held hl hc (by rw [h.amount]; exact h.positive)

theorem ReleaseRecorded.sound {p : ReleaseReservationParams} {r : BillingReservation}
    (h : ReleaseRecorded l l' p r) (hl : Sound l) : Sound l' := by
  rcases h.outcome with ⟨-, rfl⟩ | ⟨e, hc⟩
  · exact hl
  · exact sound_of_released hl hc

theorem SettlementRecorded.sound {p : SettleReservationParams} {s : BillingSettlement}
    (h : SettlementRecorded l l' p s) (hl : Sound l) : Sound l' := by
  rcases h.outcome with ⟨-, rfl⟩ | ⟨r, id, hc, he⟩
  · exact hl
  · exact sound_of_settled hl hc he (by rw [h.actual]; exact h.nonneg)

/-- Credits leave reservations and settlements alone. -/
theorem CreditRecorded.records_eq {p : CreditAccountParams} {e : BillingLedgerEntry}
    (h : CreditRecorded l l' p e) :
    l'.reservations = l.reservations ∧ l'.settlements = l.settlements := by
  rcases h.outcome with ⟨-, rfl⟩ | ⟨hc, -⟩
  · exact ⟨rfl, rfl⟩
  · exact ⟨hc.reservations, hc.settlements⟩

/-- An account that gets there by `EnsureBillingAccount` is there, under the owner asked for. -/
theorem AccountRecorded.mem {p : EnsureAccountParams} {a : BillingAccount}
    (h : AccountRecorded l l' p a) : a ∈ l'.accounts := by
  rcases h.outcome with ⟨ha, hacc⟩ | hnew
  · rw [hacc]
    exact ha
  · exact (Table.mem_insert? hnew).2 (.inr rfl)

theorem AccountRecorded.keeps {p : EnsureAccountParams} {a b : BillingAccount}
    (h : AccountRecorded l l' p a) (hb : b ∈ l.accounts) : b ∈ l'.accounts := by
  rcases h.outcome with ⟨-, hacc⟩ | hnew
  · rw [hacc]
    exact hb
  · exact (Table.mem_insert? hnew).2 (.inl hb)

theorem CreditRecorded.accounts_eq {p : CreditAccountParams} {e : BillingLedgerEntry}
    (h : CreditRecorded l l' p e) : l'.accounts = l.accounts := by
  rcases h.outcome with ⟨-, rfl⟩ | ⟨hc, -⟩
  · rfl
  · exact hc.accounts

end Consequences

end CodeGo.Billing.Recorded
