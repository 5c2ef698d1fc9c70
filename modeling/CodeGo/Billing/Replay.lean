import CodeGo.Billing.Exec
import CodeGo.Billing.History

/-!
# Calls repeated after they have committed

Records stay in the ledger, so a repeated call finds what the first one
recorded as long as it looks it up under the key it is stored with. Credits,
reservations and settlements are stored under the trimmed key and looked up
under the raw one.
-/

namespace CodeGo.Billing.Replay

open Lib Lib.Trim Schema Statements LedgerRuntime Effects Invariant Preservation Operations History
  Exec

section Calls

/-- The same call, handed other identifiers. -/
def withUuids (u : Uuids) : LedgerOp → LedgerOp
  | .ensureAccount _ p => .ensureAccount u p
  | .credit _ p => .credit u p
  | .reserve _ p => .reserve u p
  | .release _ p => .release u p
  | .settle _ p => .settle u p
  | .adjust _ p => .adjust u p

/-- The call takes an idempotency key. -/
def takesKey : LedgerOp → Bool
  | .ensureAccount _ _ => false
  | _ => true

/-- The call stores what it records under the key that it looks up: an adjustment always, a
release needs no look-up, and the others when the key has no space at either end. -/
def StoredAsLookedUp : LedgerOp → Prop
  | .credit _ p => Trimmed p.idempotencyKey
  | .reserve _ p => Trimmed p.idempotencyKey
  | .settle _ p => Trimmed p.idempotencyKey
  | _ => True

/-- The call returned the record `r`, which the ledger still has. -/
def Recorded (l : Ledger) : LedgerOp → Receipt → Prop
  | .credit _ p, .entry e =>
    ¬ (blank p.accountID || p.amount ≤ 0 || blank p.idempotencyKey) ∧ e ∈ l.entries ∧
      e.accountID = p.accountID ∧ e.amount = p.amount ∧ e.entryType = .grantCredit ∧
      e.idempotencyKey = trimSpace p.idempotencyKey
  | .reserve _ p, .reservation r =>
    ¬ (blank p.accountID || p.reservedAmount ≤ 0 || blank p.idempotencyKey) ∧
      (∃ st, withStatus st r ∈ l.reservations) ∧
      (r.accountID = p.accountID ∧ r.reservedAmount = p.reservedAmount ∧
        r.requestID = trimSpace p.requestID ∧ r.workflowID = trimSpace p.workflowID) ∧
      r.idempotencyKey = trimSpace p.idempotencyKey
  | .release _ p, .reservation r =>
    ¬ (blank p.reservationID || blank p.idempotencyKey) ∧
      r ∈ l.reservations ∧ r.reservationID = p.reservationID ∧ r.status = .released
  | .settle _ p, .settlement s =>
    ¬ (blank p.reservationID || blank p.idempotencyKey) ∧ ¬ p.actualAmount < 0 ∧
      s ∈ l.settlements ∧ s.reservationID = p.reservationID ∧ s.actualAmount = p.actualAmount ∧
      s.idempotencyKey = trimSpace p.idempotencyKey
  | .adjust _ p, .entry e =>
    ¬ (blank p.accountID || blank p.idempotencyKey) ∧ e ∈ l.entries ∧
      e.accountID = p.accountID ∧ e.entryType = .adjustment ∧ e.idempotencyKey = p.idempotencyKey
  | _, _ => False

/-- `r'` is the record `r` as the ledger has it now. -/
def SameRecord (l : Ledger) : Receipt → Receipt → Prop
  | .entry e, .entry e' => e' = e ∧ e ∈ l.entries
  | .reservation r, .reservation r' => r' ∈ l.reservations ∧ ∃ st, r' = withStatus st r
  | .settlement s, .settlement s' => s' = s ∧ s ∈ l.settlements
  | _, _ => False

variable {l l' : Ledger} {op : LedgerOp} {r : Receipt}

theorem recorded_of_extends (h : Extends l l') (hr : Recorded l op r) : Recorded l' op r := by
  cases op with
  | ensureAccount u p => cases hr
  | credit u p =>
    cases r with
    | entry e =>
      obtain ⟨hok, he, hrest⟩ := hr
      exact ⟨hok, h.entries e he, hrest⟩
    | _ => cases hr
  | reserve u p =>
    cases r with
    | reservation r =>
      obtain ⟨hok, ⟨st, hst⟩, hrest⟩ := hr
      obtain ⟨st', hst'⟩ := h.reservations _ hst
      exact ⟨hok, ⟨st', hst'⟩, hrest⟩
    | _ => cases hr
  | release u p =>
    cases r with
    | reservation r =>
      obtain ⟨hok, hmem, hid, hst⟩ := hr
      refine ⟨hok, h.closed r hmem ?_, hid, hst⟩
      rw [hst]
      exact ReservationStatus.noConfusion
    | _ => cases hr
  | settle u p =>
    cases r with
    | settlement s =>
      obtain ⟨hok, hact, hs, hrest⟩ := hr
      exact ⟨hok, hact, h.settlements s hs, hrest⟩
    | _ => cases hr
  | adjust u p =>
    cases r with
    | entry e =>
      obtain ⟨hok, he, hrest⟩ := hr
      exact ⟨hok, h.entries e he, hrest⟩
    | _ => cases hr

/-- A committed call has recorded what it returns. -/
theorem recorded_of_exec (h : Sound l) (hk : KeysTrimmed l) (hop : takesKey op)
    (hx : op.exec l = (.ok r, l')) : Recorded l' op r := by
  cases op with
  | ensureAccount u p => cases hop
  | credit u p =>
    obtain ⟨e, hrun, rfl⟩ := Prog.commit_return_eq_ok.1 hx
    obtain ⟨hok, hrun⟩ := Prog.checked hrun
    obtain ⟨hacc, ham, htype, hcase⟩ := (creditAccountTx_ensures (· = l) u p).run rfl hrun
    rcases hcase with ⟨⟨c, rfl, he, hkey⟩, rfl⟩ | ⟨hc, -, hkey, -⟩
    · refine ⟨hok, he, hacc, ham, htype, ?_⟩
      rw [← hkey]
      exact (hk.entries e he htype).symm
    · exact ⟨hok, (Table.mem_insert? hc.entries).2 (.inr rfl), hacc, ham, htype, hkey⟩
  | reserve u p =>
    obtain ⟨r, hrun, rfl⟩ := Prog.commit_return_eq_ok.1 hx
    obtain ⟨hok, hrun⟩ := Prog.checked hrun
    obtain ⟨hsame, hcase⟩ := (createReservationTx_ensures (· = l) u p).run rfl hrun
    rcases hcase with ⟨⟨c, rfl, hr, hkey⟩, rfl⟩ | ⟨e, hc, -, hkey, -⟩
    · refine ⟨hok, ⟨r.status, hr⟩, hsame, ?_⟩
      rw [← hkey]
      exact (hk.reservations r hr).symm
    · exact ⟨hok, ⟨r.status, (Table.mem_insert? hc.reservations).2 (.inr rfl)⟩, hsame, hkey⟩
  | release u p =>
    obtain ⟨r, hrun, rfl⟩ := Prog.commit_return_eq_ok.1 hx
    obtain ⟨hok, hrun⟩ := Prog.checked hrun
    have hens := releaseReservationTx_ensures (I := Sound) (fun l h => h.records.releasesClose) u p
    obtain ⟨hid, hst, hcase⟩ := hens.run h hrun
    rcases hcase with ⟨rfl, hr⟩ | ⟨r₀, e, rfl, hc, -⟩
    · exact ⟨hok, Table.mem_of_get? hr, hid, hst⟩
    · refine ⟨hok, ?_, hid, hst⟩
      rw [hc.reservations]
      exact (mem_close hc.current).2 (.inr rfl)
  | settle u p =>
    obtain ⟨s, hrun, rfl⟩ := Prog.commit_return_eq_ok.1 hx
    obtain ⟨hok, hrun⟩ := Prog.checked hrun
    obtain ⟨hact, hrun⟩ := Prog.checked hrun
    obtain ⟨hid, ham, hcase⟩ := (settleReservationTx_ensures (· = l) u p).run rfl hrun
    rcases hcase with ⟨⟨c, rfl, hs, hkey⟩, rfl⟩ | ⟨r, hc, -, -, hkey, -⟩
    · refine ⟨hok, hact, hs, hid, ham, ?_⟩
      rw [← hkey]
      exact (hk.settlements s hs).symm
    · exact ⟨hok, hact, (Table.mem_insert? hc.settlements).2 (.inr rfl), hid, ham, hkey⟩
  | adjust u p =>
    obtain ⟨e, hrun, rfl⟩ := Prog.commit_return_eq_ok.1 hx
    obtain ⟨hok, hrun⟩ := Prog.checked hrun
    obtain ⟨hacc, htype, hkey, hcase⟩ := (recordAdjustmentTx_ensures (· = l) u p).run rfl hrun
    rcases hcase with ⟨⟨c, rfl, he⟩, rfl⟩ | ⟨hc, -⟩
    · exact ⟨hok, he, hacc, htype, hkey⟩
    · exact ⟨hok, (Table.mem_insert? hc.entries).2 (.inr rfl), hacc, htype, hkey⟩

/-- A look-up by key finds the one row under it. -/
theorem find_of_mem {α κ : Type} [Indexed α κ] {t : Table α} {a : α} {f : α → String}
    {key : String} (ha : a ∈ t) (hkey : f a = key)
    (hunique : ∀ b, f b = f a → clash b a = true) : (t.find? fun b => f b = key) = some a := by
  refine Table.find?_eq_some_of_mem ha (decide_eq_true hkey) fun b hb => hunique b ?_
  rw [decide_eq_true_eq] at hb
  rw [hb, hkey]

/-- A repeated call that looks up the stored key returns the record and changes nothing. -/
theorem replay_of_recorded (hr : Recorded l op r) (hkey : StoredAsLookedUp op) (u : Uuids) :
    ∃ r', (withUuids u op).exec l = (.ok r', l) ∧ SameRecord l r r' := by
  cases op with
  | ensureAccount u' p => cases hr
  | credit u' p =>
    cases r with
    | entry e =>
      obtain ⟨hok, he, hacc, ham, htype, hk⟩ := hr
      refine ⟨.entry e, Prog.commit_return_eq_ok.2 ⟨e, ?_, rfl⟩, rfl, he⟩
      have hfind := find_of_mem (f := BillingLedgerEntry.idempotencyKey) he (hk.trans hkey)
        fun b hb => by simp [clash, hb]
      rw [creditAccount, if_neg hok, creditAccountTx,
        Prog.run_bind_ok (run_findLedgerEntryByIdempotency _ l), hfind]
      simp [hacc, ham, htype]
    | _ => cases hr
  | reserve u' p =>
    cases r with
    | reservation r =>
      obtain ⟨hok, ⟨st, hst⟩, ⟨hacc, ham, hreq, hwf⟩, hk⟩ := hr
      refine ⟨.reservation (withStatus st r), Prog.commit_return_eq_ok.2 ⟨_, ?_, rfl⟩, hst, st, rfl⟩
      have hfind := find_of_mem (f := BillingReservation.idempotencyKey) hst (hk.trans hkey)
        fun b hb => by simp [clash, hb]
      rw [createReservation, if_neg hok, createReservationTx,
        Prog.run_bind_ok (run_findReservationByIdempotency _ l), hfind]
      simp [withStatus, hacc, ham, hreq, hwf]
    | _ => cases hr
  | release u' p =>
    cases r with
    | reservation r =>
      obtain ⟨hok, hmem, hid, hst⟩ := hr
      refine ⟨.reservation r, Prog.commit_return_eq_ok.2 ⟨r, ?_, rfl⟩, hmem, r.status, rfl⟩
      have hget : l.reservations.get? p.reservationID = some r := by
        rw [← hid]
        exact Table.get?_of_mem hmem
      rw [releaseReservation, if_neg hok, releaseReservationTx,
        Prog.run_bind_ok (run_lockReservation hget), if_pos hst]
      rfl
    | _ => cases hr
  | settle u' p =>
    cases r with
    | settlement s =>
      obtain ⟨hok, hact, hs, hid, ham, hk⟩ := hr
      refine ⟨.settlement s, Prog.commit_return_eq_ok.2 ⟨s, ?_, rfl⟩, rfl, hs⟩
      have hfind := find_of_mem (f := BillingSettlement.idempotencyKey) hs (hk.trans hkey)
        fun b hb => by simp [clash, hb]
      rw [settleReservation, if_neg hok, if_neg hact, settleReservationTx,
        Prog.run_bind_ok (run_findSettlementByIdempotency _ l), hfind]
      simp [hid, ham]
    | _ => cases hr
  | adjust u' p =>
    cases r with
    | entry e =>
      obtain ⟨hok, he, hacc, htype, hk⟩ := hr
      refine ⟨.entry e, Prog.commit_return_eq_ok.2 ⟨e, ?_, rfl⟩, rfl, he⟩
      have hfind := find_of_mem (f := BillingLedgerEntry.idempotencyKey) he hk
        fun b hb => by simp [clash, hb]
      rw [recordAdjustment, if_neg hok, recordAdjustmentTx,
        Prog.run_bind_ok (run_findLedgerEntryByIdempotency _ l), hfind]
      simp [hacc, htype]
    | _ => cases hr

/-- A row under a taken key is refused. -/
theorem refused {α κ : Type} [Indexed α κ] {t t' : Table α} {a b : α} (ha : a ∈ t)
    (hc : clash a b = true) (h : t.insert? b = some t') : False := by
  rw [Table.insert?_eq_none_of_clash ha hc] at h
  cases h

/-- A repeated call that looks up another key than the stored one fails. -/
theorem no_replay (hr : Recorded l op r) (hk : KeysTrimmed l) (hkey : ¬ StoredAsLookedUp op)
    (u : Uuids) (r' : Receipt) (l' : Ledger) : (withUuids u op).exec l ≠ (.ok r', l') := by
  intro hx
  cases op with
  | ensureAccount u' p => cases hr
  | credit u' p =>
    cases r with
    | entry e =>
      obtain ⟨e', hrun, rfl⟩ := Prog.commit_return_eq_ok.1 hx
      obtain ⟨hok, hrun⟩ := Prog.checked hrun
      obtain ⟨-, -, htype, hcase⟩ := (creditAccountTx_ensures (· = l) u p).run rfl hrun
      rcases hcase with ⟨⟨c, rfl, he', hkey'⟩, -⟩ | ⟨hc, -, hkey', -⟩
      · apply hkey
        have htrim := hk.entries e' he' htype
        rwa [hkey'] at htrim
      · obtain ⟨-, he, -, -, -, hkey⟩ := hr
        exact refused he (by simp [clash, hkey, hkey']) hc.entries
    | _ => cases hr
  | reserve u' p =>
    cases r with
    | reservation r =>
      obtain ⟨r', hrun, rfl⟩ := Prog.commit_return_eq_ok.1 hx
      obtain ⟨hok, hrun⟩ := Prog.checked hrun
      obtain ⟨-, hcase⟩ := (createReservationTx_ensures (· = l) u p).run rfl hrun
      rcases hcase with ⟨⟨c, rfl, hr', hkey'⟩, -⟩ | ⟨e, hc, -, hkey', -⟩
      · apply hkey
        have htrim := hk.reservations r' hr'
        rwa [hkey'] at htrim
      · obtain ⟨-, ⟨st, hst⟩, -, hkey⟩ := hr
        exact refused hst (by simp [clash, withStatus, hkey, hkey']) hc.reservations
    | _ => cases hr
  | release u' p => exact hkey trivial
  | settle u' p =>
    cases r with
    | settlement s =>
      obtain ⟨s', hrun, rfl⟩ := Prog.commit_return_eq_ok.1 hx
      obtain ⟨hok, hrun⟩ := Prog.checked hrun
      obtain ⟨hact, hrun⟩ := Prog.checked hrun
      obtain ⟨-, -, hcase⟩ := (settleReservationTx_ensures (· = l) u p).run rfl hrun
      rcases hcase with ⟨⟨c, rfl, hs', hkey'⟩, -⟩ | ⟨r, hc, -, -, hkey', -⟩
      · apply hkey
        have htrim := hk.settlements s' hs'
        rwa [hkey'] at htrim
      · obtain ⟨-, -, hs, -, -, hkey⟩ := hr
        exact refused hs (by simp [clash, hkey, hkey']) hc.settlements
    | _ => cases hr
  | adjust u' p => exact hkey trivial

end Calls

/-- A call with a key that committed in any reachable ledger, repeated after any further calls,
returns the recorded entry, reservation or settlement and changes nothing exactly when it is
stored under the key it looks up. -/
theorem replay_returns_record_iff (pre post : List LedgerOp) (op : LedgerOp) (first : Receipt)
    (l : Ledger) (u : Uuids) (hop : takesKey op)
    (hx : op.exec (run pre Ledger.empty) = (.ok first, l)) :
    (∃ r, (withUuids u op).exec (run post l) = (.ok r, run post l) ∧
      SameRecord (run post l) first r) ↔ StoredAsLookedUp op := by
  have hpre := run_sound Sound.empty pre
  have hchange : Change (run pre Ledger.empty) l := by
    have hc := op.exec_change hpre
    rwa [hx] at hc
  have hkpre := run_keysTrimmed Sound.empty KeysTrimmed.empty pre
  have hl := hchange.sound hpre
  have hrec := recorded_of_extends (run_extends hl post) (recorded_of_exec hpre hkpre hop hx)
  constructor
  · rintro ⟨r, hr, -⟩
    by_contra hkey
    exact no_replay hrec (run_keysTrimmed hl (keysTrimmed_of_change hkpre hchange) post) hkey u r _ hr
  · exact fun hkey => replay_of_recorded hrec hkey u

section Samples

variable {l : Ledger}

def creditUnder (key : String) : LedgerOp :=
  .credit (sampleUuids "e") { accountID := "acc", amount := 100, idempotencyKey := key }

def holdAfter : List LedgerOp :=
  [.reserve (sampleUuids "r") { accountID := "acc", reservedAmount := 30, idempotencyKey := "hold" }]

theorem exec_of_isOk (op : LedgerOp) (h : (op.exec l).1.isOk = true) :
    ∃ r l', op.exec l = (.ok r, l') := by
  match hx : op.exec l with
  | (.ok r, l') => exact ⟨r, l', rfl⟩
  | (.error e, l') =>
    rw [hx] at h
    cases h

end Samples

/-- A credit under a trimmed key is returned again after a hold on its account. -/
theorem replay_returns_record_sample : ∃ first l,
    (creditUnder "grant").exec Ledger.empty = (.ok first, l) ∧
    ∃ r, (withUuids (sampleUuids "f") (creditUnder "grant")).exec (run holdAfter l) =
      (.ok r, run holdAfter l) ∧ SameRecord (run holdAfter l) first r := by
  obtain ⟨first, l, hx⟩ := exec_of_isOk (creditUnder "grant") (l := Ledger.empty)
    (by decide +kernel)
  have hkey : StoredAsLookedUp (creditUnder "grant") := by
    change trimSpace "grant" = "grant"
    decide +kernel
  have hiff := replay_returns_record_iff [] holdAfter _ first l (sampleUuids "f") rfl hx
  exact ⟨first, l, hx, hiff.2 hkey⟩

/-- A credit whose key starts with a space commits and fails when it is repeated. -/
theorem padded_credit_not_replayed : ¬ ∀ (pre post : List LedgerOp) (op : LedgerOp)
    (first : Receipt) (l : Ledger) (u : Uuids), takesKey op →
    op.exec (run pre Ledger.empty) = (.ok first, l) →
    ∃ r, (withUuids u op).exec (run post l) = (.ok r, run post l) ∧
      SameRecord (run post l) first r := by
  intro h
  obtain ⟨first, l, hx⟩ := exec_of_isOk (creditUnder " grant") (l := Ledger.empty)
    (by decide +kernel)
  obtain ⟨r, hr, -⟩ := h [] [] (creditUnder " grant") first l (sampleUuids "f") rfl hx
  have hfail : ((withUuids (sampleUuids "f") (creditUnder " grant")).exec
      ((creditUnder " grant").exec Ledger.empty).2).1.isOk = false := by decide +kernel
  rw [hx] at hfail
  rw [run, List.foldl_nil] at hr
  rw [hr] at hfail
  cases hfail

end CodeGo.Billing.Replay
