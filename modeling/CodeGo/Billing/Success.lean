import CodeGo.Billing.Consistency
import CodeGo.Billing.Names

/-!
# Operations that succeed

An operation run alone on a sound ledger succeeds when its identifiers and keys
are new and the balance covers it.
-/

namespace CodeGo.Billing.Success

open Lib Lib.Prog Lib.Trim Schema Statements Aggregation LedgerRuntime StatementRules Effects
  Invariant Exec Consistency Names

variable {l : Ledger} {u : Uuids}

section Statements

variable {α κ : Type} {Q : Unit → Ledger → Prop}

theorem succeeds_select {f : Ledger → α} {Q : α → Ledger → Prop} (h : Q (f l) l) :
    Succeeds (select f) l Q := succeeds_step h

theorem succeeds_write [Indexed α κ] {locks : List Cell} {get : Ledger → Table α}
    {set : Table α → Ledger → Ledger} {op : Table α → Option (Table α)} (hop : (op (get l)).isSome)
    (h : ∀ t, Q () (set t l)) : Succeeds (write locks get set op) l Q := by
  obtain ⟨t, ht⟩ := Option.isSome_iff_exists.1 hop
  exact ⟨(), set t l, run_write_of_some ht, h t⟩

/-- A row that clashes with none is inserted. -/
theorem succeeds_insert [Indexed α κ] {locks : List Cell} {get : Ledger → Table α}
    {set : Table α → Ledger → Ledger} {r : α} (hnew : ∀ s ∈ get l, clash s r = false)
    (h : ∀ t, Q () (set t l)) :
    Succeeds (write locks get set fun t => t.insert? r) l Q :=
  succeeds_write (Table.insert?_isSome_iff.2 hnew) h

theorem succeeds_saveSnapshot {s : BillingBalanceSnapshot}
    (h : ∀ t, Q () { l with snapshots := t }) : Succeeds (saveSnapshot s) l Q :=
  succeeds_write (snapshot_save?_isSome _ s) h

theorem succeeds_ensureAndLockBalanceSnapshot {a : String}
    {Q : BillingBalanceSnapshot → Ledger → Prop}
    (h : ∀ t, Q (l.stored a) { l with snapshots := t }) :
    Succeeds (ensureAndLockBalanceSnapshot a) l Q := by
  obtain ⟨t, hrun, -⟩ := run_ensureAndLockBalanceSnapshot a l
  exact ⟨_, _, hrun, h t⟩

theorem succeeds_lockReservation {id : String} {r : BillingReservation}
    {Q : BillingReservation → Ledger → Prop} (hr : l.reservations.get? id = some r) (h : Q r l) :
    Succeeds (lockReservation id) l Q := ⟨r, l, run_lockReservation hr, h⟩

theorem succeeds_createSettleEntry {uuid a : String} {s : BillingSettlement} {after : Int}
    (hid : ∀ f ∈ l.entries, f.entryID ≠ uuid)
    (hkey : ∀ f ∈ l.entries, f.idempotencyKey ≠ "entry:" ++ s.idempotencyKey)
    (h : ∀ t, Q () { l with entries := t }) :
    Succeeds (createSettleEntry uuid a s after) l Q := by
  unfold createSettleEntry
  dsimp only
  split
  · apply succeeds_insert
    · intro f hf
      simp [clash, BillingLedgerEntry.beforeCreate, hid f hf, hkey f hf]
    · exact h
  · exact succeeds_ret (h l.entries)

theorem succeeds_createEvent {ev : BillingOutboxEvent} {Q : Bool → Ledger → Prop}
    (hnew : ∀ old ∈ l.outbox, old.eventID ≠ ev.eventID ∧ old.idempotencyKey ≠ ev.idempotencyKey)
    (h : ∀ t, Q true { l with outbox := t }) :
    Succeeds (createEventOnConflictDoNothing ev) l Q := by
  have hnone : (l.outbox.find? fun old => old.idempotencyKey = ev.idempotencyKey) = none := by
    rw [Table.find?_eq_none]
    exact fun old hold => decide_eq_false (hnew old hold).2
  have hsome : (l.outbox.insert? ev).isSome := by
    rw [Table.insert?_isSome_iff]
    intro old hold
    simp [clash, hnew old hold]
  obtain ⟨t, ht⟩ := Option.isSome_iff_exists.1 hsome
  apply succeeds_stepE (t := { l with outbox := t }) _ (h t)
  rw [insertEvent, hnone]
  dsimp only
  rw [ht]

theorem succeeds_recordOutboxEvent {uuid : String} {input : OutboxEventInput}
    (hacc : blank input.accountID = false) (htype : Solid input.aggregateType)
    (hagg : Solid input.aggregateID) (hevent : Solid input.eventType)
    (hkey : Solid input.idempotencyKey)
    (hnew : ∀ old ∈ l.outbox, old.eventID ≠ uuid ∧ old.idempotencyKey ≠ input.idempotencyKey)
    (h : ∀ t, Q () { l with outbox := t }) : Succeeds (recordOutboxEvent uuid input) l Q := by
  have hnone : (l.outbox.find? fun old => old.idempotencyKey = trimSpace input.idempotencyKey) =
      none := by
    rw [Table.find?_eq_none, hkey.trimSpace_eq]
    exact fun old hold => decide_eq_false (hnew old hold).2
  unfold recordOutboxEvent
  rw [if_neg (by simp [hacc, htype.blank_eq, hagg.blank_eq, hevent.blank_eq, hkey.blank_eq])]
  apply succeeds_bind
  apply succeeds_select
  rw [hnone]
  apply succeeds_bind
  apply succeeds_createEvent
  · simp only [BillingOutboxEvent.beforeCreate, defaultID_empty, hkey.trimSpace_eq]
    exact hnew
  · exact fun t => succeeds_ret (h t)

end Statements

section Operations

/-- The owner has an account afterwards, with a row of balances. -/
theorem ensureBillingAccount_succeeds {p : EnsureAccountParams} (hid : 0 < p.ownerID)
    (howner : blank p.ownerType = false) (htype : blank p.accountType = false)
    (hnew : Unused (u 0) l) :
    Succeeds (ensureBillingAccount u p) l fun a l' => (l'.snapshots.get? a.accountID).isSome := by
  have hensure : ∀ a l, Succeeds (ensureBalanceSnapshot a) l fun _ l' =>
      (l'.snapshots.get? a).isSome := by
    intro a l
    obtain ⟨t, hrun, hrow, -⟩ := run_ensureBalanceSnapshot a l
    exact ⟨_, _, hrun, Option.isSome_iff_exists.2 ⟨_, hrow⟩⟩
  unfold ensureBillingAccount
  rw [if_neg (by omega), if_neg (by simp [howner, htype])]
  unfold ensureBillingAccountTx
  apply succeeds_bind
  apply succeeds_select
  split
  next account _ => exact succeeds_bind ((hensure _ _).mono fun _ _ h => succeeds_ret h)
  next hnone =>
    rw [Table.find?_eq_none] at hnone
    apply succeeds_bind
    apply succeeds_insert
    · intro b hb
      have hid := hnew.accounts b hb
      have howner := of_decide_eq_false (hnone b hb)
      have hunit := blank_unitOf p.quotaUnit
      unfold unitOf at hunit
      simp only [clash, BillingAccount.beforeCreate, defaultID_empty, BillingAccount.owner, hunit]
      exact decide_eq_false (not_or.2 ⟨hid, howner⟩)
    · exact fun t => succeeds_bind ((hensure _ _).mono fun _ _ h => succeeds_ret h)

theorem creditAccount_succeeds {p : CreditAccountParams} (hfresh : Fresh u 2 l)
    (hacc : blank p.accountID = false) (hpos : 0 < p.amount) (hkey : Solid p.idempotencyKey)
    (hnew : Unused p.idempotencyKey l) (houtbox : Unused ("outbox:" ++ p.idempotencyKey) l) :
    Succeeds (creditAccount u p) l fun _ _ => True := by
  have hfind : (l.entries.find? fun e => e.idempotencyKey = p.idempotencyKey) = none := by
    rw [Table.find?_eq_none]
    exact fun f hf => decide_eq_false (hnew.entries f hf).2
  have hid := hfresh.unused_uuid (i := 0) (by omega)
  have hevent := hfresh.unused_uuid (i := 1) (by omega)
  unfold creditAccount
  rw [if_neg (by simp [hacc, hkey.blank_eq, hpos])]
  apply succeeds_bind
  apply succeeds_select
  rw [hfind]
  apply succeeds_bind
  apply succeeds_ensureAndLockBalanceSnapshot
  intro t
  apply succeeds_bind
  apply succeeds_saveSnapshot
  intro t
  apply succeeds_bind
  apply succeeds_insert
  · intro f hf
    have hid := (hid.entries f hf).1
    have hnew := (hnew.entries f hf).2
    simp [clash, BillingLedgerEntry.beforeCreate, hkey.trimSpace_eq, hid, hnew]
  intro t
  apply succeeds_bind
  simp only [BillingLedgerEntry.beforeCreate, defaultID_empty, hkey.trimSpace_eq]
  apply succeeds_recordOutboxEvent hacc
  · show Solid "ledger_entry"
    decide
  · exact hfresh.solid (i := 0) (by omega)
  · show Solid "billing.credit_granted"
    decide
  · exact hkey.append_left (by decide)
  · exact fun old hold => ⟨(hevent.outbox old hold).1, (houtbox.outbox old hold).2⟩
  · exact fun t => succeeds_ret trivial

theorem createReservation_succeeds {p : CreateReservationParams} (hfresh : Fresh u 3 l)
    (hacc : blank p.accountID = false) (hpos : 0 < p.reservedAmount)
    (hcovered : p.reservedAmount ≤ (l.stored p.accountID).availableBalance)
    (hkey : Solid p.idempotencyKey) (hnew : Unused p.idempotencyKey l)
    (hentry : Unused ("entry:" ++ p.idempotencyKey) l)
    (houtbox : Unused ("outbox:" ++ p.idempotencyKey) l) :
    Succeeds (createReservation u p) l fun _ _ => True := by
  have hfind : (l.reservations.find? fun r => r.idempotencyKey = p.idempotencyKey) = none := by
    rw [Table.find?_eq_none]
    exact fun f hf => decide_eq_false (hnew.reservations f hf).2
  have hid := hfresh.unused_uuid (i := 0) (by omega)
  have hentryID := hfresh.unused_uuid (i := 1) (by omega)
  have hevent := hfresh.unused_uuid (i := 2) (by omega)
  unfold createReservation
  rw [if_neg (by simp [hacc, hkey.blank_eq, hpos])]
  apply succeeds_bind
  apply succeeds_select
  rw [hfind]
  apply succeeds_bind
  apply succeeds_ensureAndLockBalanceSnapshot
  intro t
  rw [if_neg (not_lt.2 hcovered)]
  apply succeeds_bind
  apply succeeds_saveSnapshot
  intro t
  apply succeeds_bind
  apply succeeds_insert
  · intro f hf
    have hid := (hid.reservations f hf).1
    have hnew := (hnew.reservations f hf).2
    simp [clash, BillingReservation.beforeCreate, hkey.trimSpace_eq, hid, hnew]
  intro t
  apply succeeds_bind
  apply succeeds_insert
  · intro f hf
    have hid := (hentryID.entries f hf).1
    have hnew := (hentry.entries f hf).2
    simp [clash, BillingLedgerEntry.beforeCreate, BillingReservation.beforeCreate,
      hkey.trimSpace_eq, hid, hnew]
  intro t
  apply succeeds_bind
  simp only [BillingReservation.beforeCreate, defaultID_empty, hkey.trimSpace_eq]
  apply succeeds_recordOutboxEvent hacc
  · show Solid "reservation"
    decide
  · exact hfresh.solid (i := 0) (by omega)
  · show Solid "billing.reservation_created"
    decide
  · exact hkey.append_left (by decide)
  · exact fun old hold => ⟨(hevent.outbox old hold).1, (houtbox.outbox old hold).2⟩
  · exact fun t => succeeds_ret trivial

variable {r : BillingReservation}

theorem releaseReservation_succeeds {p : ReleaseReservationParams} (h : Sound l)
    (hfresh : Fresh u 2 l) (hr : l.reservations.get? p.reservationID = some r)
    (hopen : r.status = .open) (hfit : grantedSum l r.accountID < 2 ^ 63)
    (hid : Solid r.reservationID) (hacc : blank r.accountID = false) (hkey : Solid p.idempotencyKey)
    (hnew : Unused p.idempotencyKey l) (houtbox : Unused ("outbox:" ++ p.idempotencyKey) l) :
    Succeeds (releaseReservation u p) l fun _ _ => True := by
  have hfind : (l.entries.find? fun e => e.idempotencyKey = p.idempotencyKey) = none := by
    rw [Table.find?_eq_none]
    exact fun f hf => decide_eq_false (hnew.entries f hf).2
  have hentryID := hfresh.unused_uuid (i := 0) (by omega)
  have hevent := hfresh.unused_uuid (i := 1) (by omega)
  have hpk : r.reservationID = p.reservationID := Table.pk_of_get? hr
  have hheld := open_le_reserved h (Table.mem_of_get? hr) hopen hfit
  unfold releaseReservation
  rw [if_neg (by simp [← hpk, hid.blank_eq, hkey.blank_eq])]
  apply succeeds_bind
  apply succeeds_lockReservation hr
  rw [if_neg (by simp [hopen]), if_neg (by simp [hopen])]
  apply succeeds_bind
  apply succeeds_select
  rw [hfind]
  apply succeeds_bind
  apply succeeds_ensureAndLockBalanceSnapshot
  intro t
  rw [if_neg (not_lt.2 hheld)]
  apply succeeds_bind
  apply succeeds_saveSnapshot
  intro t
  apply succeeds_bind
  apply succeeds_step
  apply succeeds_bind
  apply succeeds_insert
  · intro f hf
    have hid := (hentryID.entries f hf).1
    have hnew := (hnew.entries f hf).2
    simp [clash, BillingLedgerEntry.beforeCreate, hkey.trimSpace_eq, hid, hnew]
  intro t
  apply succeeds_bind
  simp only [BillingLedgerEntry.beforeCreate, hkey.trimSpace_eq]
  apply succeeds_recordOutboxEvent hacc
  · show Solid "reservation"
    decide
  · exact hid
  · show Solid "billing.reservation_released"
    decide
  · exact hkey.append_left (by decide)
  · exact fun old hold => ⟨(hevent.outbox old hold).1, (houtbox.outbox old hold).2⟩
  · exact fun t => succeeds_ret trivial

/-- An open reservation has no settlement. -/
theorem no_settlement_of_open (h : RecordsAgree l) (hr : r ∈ l.reservations)
    (hopen : r.status = .open) : ∀ s ∈ l.settlements, s.reservationID ≠ r.reservationID := by
  intro s hs hid
  have := (settled_iff h hr).2 ⟨s, hs, hid⟩
  rw [hopen] at this
  cases this

theorem settleReservation_succeeds {p : SettleReservationParams} (h : Sound l)
    (hfresh : Fresh u 3 l) (hr : l.reservations.get? p.reservationID = some r)
    (hopen : r.status = .open) (hfit : grantedSum l r.accountID < 2 ^ 63)
    (hid : Solid r.reservationID) (hacc : blank r.accountID = false)
    (hact : 0 ≤ p.actualAmount)
    (hcovered : p.actualAmount - r.reservedAmount ≤ (l.stored r.accountID).availableBalance)
    (hkey : Solid p.idempotencyKey) (hnew : Unused p.idempotencyKey l)
    (hentry : Unused ("entry:" ++ p.idempotencyKey) l)
    (houtbox : Unused ("outbox:" ++ p.idempotencyKey) l) :
    Succeeds (settleReservation u p) l fun _ _ => True := by
  have hfind : (l.settlements.find? fun s => s.idempotencyKey = p.idempotencyKey) = none := by
    rw [Table.find?_eq_none]
    exact fun f hf => decide_eq_false (hnew.settlements f hf).2
  have hsettlementID := hfresh.unused_uuid (i := 0) (by omega)
  have hentryID := hfresh.unused_uuid (i := 1) (by omega)
  have hevent := hfresh.unused_uuid (i := 2) (by omega)
  have hpk : r.reservationID = p.reservationID := Table.pk_of_get? hr
  have hmem := Table.mem_of_get? hr
  have hheld := open_le_reserved h hmem hopen hfit
  have hunsettled := no_settlement_of_open h.records hmem hopen
  unfold settleReservation
  rw [if_neg (by simp [← hpk, hid.blank_eq, hkey.blank_eq]), if_neg (not_lt.2 hact)]
  apply succeeds_bind
  apply succeeds_select
  rw [hfind]
  apply succeeds_bind
  apply succeeds_lockReservation hr
  rw [if_neg (by simp [hopen])]
  apply succeeds_bind
  apply succeeds_ensureAndLockBalanceSnapshot
  intro t
  rw [if_neg (not_lt.2 hheld), if_neg (by omega)]
  apply succeeds_bind
  apply succeeds_saveSnapshot
  intro t
  apply succeeds_bind
  apply succeeds_insert
  · intro f hf
    have hid := (hsettlementID.settlements f hf).1
    have hnew := (hnew.settlements f hf).2
    have hres := hunsettled f hf
    simp [clash, BillingSettlement.beforeCreate, hkey.trimSpace_eq, hid, hnew, hres]
  intro t
  apply succeeds_bind
  apply succeeds_step
  apply succeeds_bind
  simp only [BillingSettlement.beforeCreate, defaultID_empty, hkey.trimSpace_eq]
  apply succeeds_createSettleEntry
  · exact fun f hf => (hentryID.entries f hf).1
  · exact fun f hf => (hentry.entries f hf).2
  intro t
  apply succeeds_bind
  apply succeeds_recordOutboxEvent hacc
  · show Solid "settlement"
    decide
  · exact hfresh.solid (i := 0) (by omega)
  · show Solid "billing.reservation_settled"
    decide
  · exact hkey.append_left (by decide)
  · exact fun old hold => ⟨(hevent.outbox old hold).1, (houtbox.outbox old hold).2⟩
  · exact fun t => succeeds_ret trivial

end Operations

section Runs

open Operations hiding run

/-- No hold is stuck: in the ledger that a sequence of calls leads to, a reservation that is open can
be released, and it can be settled at whatever its hold and the available balance cover, under a key
that is new. -/
theorem open_hold_can_be_closed {ops : List LedgerOp} (hrun : Operations.run ops Ledger.empty = l)
    {r : BillingReservation} (hr : r ∈ l.reservations) (hopen : r.status = .open)
    (hid : Solid r.reservationID) (hacc : blank r.accountID = false)
    (hfit : grantedSum l r.accountID < 2 ^ 63) (hfresh : Fresh u 3 l) {key : String}
    (hkey : Solid key) (hnew : ∀ name ∈ [key, "entry:" ++ key, "outbox:" ++ key], Unused name l)
    {actualAmount : Int} (hact : 0 ≤ actualAmount)
    (hcovered : actualAmount - r.reservedAmount ≤ (l.stored r.accountID).availableBalance) :
    Succeeds (releaseReservation u { reservationID := r.reservationID, idempotencyKey := key }) l
        (fun _ _ => True) ∧
      Succeeds (settleReservation u
        { reservationID := r.reservationID, actualAmount, idempotencyKey := key }) l
        fun _ _ => True := by
  have h : Sound l := by
    rw [← hrun]
    exact run_sound Sound.empty ops
  have hget := Table.get?_of_mem hr
  have hkeyNew := hnew key (by simp)
  have hentry := hnew ("entry:" ++ key) (by simp)
  have houtbox := hnew ("outbox:" ++ key) (by simp)
  constructor
  · exact releaseReservation_succeeds h (hfresh.mono (by omega)) hget hopen hfit hid hacc hkey hkeyNew
      houtbox
  · exact settleReservation_succeeds h hfresh hget hopen hfit hid hacc hact hcovered hkey hkeyNew
      hentry houtbox

/-- The sample run before its second hold is released. -/
def heldLedger : Ledger := Operations.run (sampleRun.take 4) Ledger.empty

theorem open_hold_can_be_closed_sample : ∃ r ∈ heldLedger.reservations,
    Succeeds (settleReservation (hexUuids 'e')
      { reservationID := r.reservationID, actualAmount := 30, idempotencyKey := "s2" }) heldLedger
      fun _ _ => True := by
  have hopen : ∃ r ∈ heldLedger.reservations.rows, r.status = .open ∧ Solid r.reservationID ∧
      blank r.accountID = false ∧ grantedSum heldLedger r.accountID < 2 ^ 63 ∧
        30 - r.reservedAmount ≤ (heldLedger.stored r.accountID).availableBalance := by
    decide +kernel
  have hnew : ∀ name ∈ ["s2", "entry:" ++ "s2", "outbox:" ++ "s2"], Unused name heldLedger := by
    decide +kernel
  obtain ⟨r, hr, hopen, hid, hacc, hfit, hcovered⟩ := hopen
  exact ⟨r, hr, (open_hold_can_be_closed rfl hr hopen hid hacc hfit
    (show Fresh (hexUuids 'e') 3 heldLedger by decide +kernel) (by decide) hnew (by decide) hcovered).2⟩

end Runs

end CodeGo.Billing.Success
