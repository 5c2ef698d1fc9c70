import CodeGo.Billing.StatementRules

/-!
# What a ledger operation does

For each operation of `LedgerRuntime`, the change between the state a transaction
commits onto and the state it leaves, among other transactions or alone. Every
later result on the operations rests on these relations, not on their bodies.
-/

namespace CodeGo.Billing.Effects

open Lib Lib.Lock Lib.Trim Lib.Wrap Schema Statements Aggregation LedgerRuntime StatementRules

/-- A credit was granted by the entry `e`. -/
structure Credited (l l' : Ledger) (e : BillingLedgerEntry) : Prop where
  entryType : e.entryType = .grantCredit
  direction : e.direction = .credit
  balanceAfter : e.balanceAfter = some (wrap64 ((l.stored e.accountID).availableBalance + e.amount))
  snapshots : SnapshotSet l.snapshots l'.snapshots e.accountID { l.stored e.accountID with
    availableBalance := wrap64 ((l.stored e.accountID).availableBalance + e.amount)
    grantedTotal := wrap64 ((l.stored e.accountID).grantedTotal + e.amount) }
  entries : l.entries.insert? e = some l'.entries
  accounts : l'.accounts = l.accounts
  reservations : l'.reservations = l.reservations
  settlements : l'.settlements = l.settlements

/-- What a lookup by key returns is in the table, under the key. -/
theorem find_by_key {α κ : Type} [Indexed α κ] {t : Table α} {r : α} {f : α → String} {key : String}
    (h : (t.find? fun r => f r = key) = some r) : r ∈ t ∧ f r = key := by
  have hkey := Table.prop_of_find? h
  rw [decide_eq_true_eq] at hkey
  exact ⟨Table.mem_of_find? h, hkey⟩

theorem creditAccountTx_ensures (I : Ledger → Prop) (u : Uuids) (p : CreditAccountParams) :
    Ensures I (creditAccountTx u p) fun e l l' =>
      e.accountID = p.accountID ∧ e.amount = p.amount ∧ e.entryType = .grantCredit ∧
        ((∃ c, I c ∧ e ∈ c.entries ∧ e.idempotencyKey = p.idempotencyKey) ∧ l' = l ∨
          Credited l l' e ∧ e.entryID = u 0 ∧ e.idempotencyKey = trimSpace p.idempotencyKey ∧
            OutboxAdded (u 1) (trimSpace ("outbox:" ++ e.idempotencyKey)) l.outbox l'.outbox) := by
  refine wp_bind (wp_select fun c₀ F₁ hI₀ _ h₁ => ?_)
  split
  next existing hfind =>
    split
    next => trivial
    next hsame =>
      simp only [not_or, not_not] at hsame
      have hread := find_by_key hfind
      exact fun c _ _ => ⟨hsame.1, hsame.2.1, hsame.2.2, .inl ⟨⟨c₀, hI₀, hread⟩, rfl⟩⟩
  next =>
    refine wp_bind (wp_ensureAndLockBalanceSnapshot (fun _ _ => rfl) fun w₂ F₂ locked h₂ => ?_)
    refine wp_bind (wp_saveSnapshot fun w₃ F₃ h₃ => ?_)
    have hw₃ := locked_saved h₂ h₃ rfl
    refine wp_bind (wp_createEntry (fun c hc => ?_) fun w₄ F₄ h₄ => ?_)
    · obtain ⟨-, -, t, -, hw⟩ := hw₃ c hc
      rw [hw]
      rfl
    refine wp_bind (wp_recordOutboxEvent (fun c hc => ?_) fun w₅ F₅ h₅ => ?_)
    · obtain ⟨hF₃, t, -, hw⟩ := h₄ c hc
      obtain ⟨-, -, t', -, hw'⟩ := hw₃ c hF₃
      rw [hw, hw']
      rfl
    intro c _ hc
    obtain ⟨hF₄, o, ho, hw₅⟩ := h₅ c hc
    obtain ⟨hF₃, es, hes, hw₄⟩ := h₄ c hF₄
    obtain ⟨-, rfl, ss, hss, hw₃⟩ := hw₃ c hF₃
    refine ⟨rfl, rfl, rfl, .inr ?_⟩
    rw [hw₅, hw₄, hw₃]
    exact ⟨⟨rfl, rfl, rfl, hss, hes, rfl, rfl, rfl⟩, defaultID_empty _, rfl, ho⟩

/-- The hold `r` was opened, with the entry `e`. -/
structure Held (l l' : Ledger) (r : BillingReservation) (e : BillingLedgerEntry) : Prop where
  entries : l.entries.insert? e = some l'.entries
  status : r.status = .open
  covered : r.reservedAmount ≤ (l.stored r.accountID).availableBalance
  account : e.accountID = r.accountID
  entryType : e.entryType = .reserveHold
  direction : e.direction = .debit
  amount : e.amount = r.reservedAmount
  balanceAfter : e.balanceAfter =
    some (wrap64 ((l.stored r.accountID).availableBalance - r.reservedAmount))
  snapshots : SnapshotSet l.snapshots l'.snapshots r.accountID { l.stored r.accountID with
    availableBalance := wrap64 ((l.stored r.accountID).availableBalance - r.reservedAmount)
    reservedBalance := wrap64 ((l.stored r.accountID).reservedBalance + r.reservedAmount) }
  reservations : l.reservations.insert? r = some l'.reservations
  accounts : l'.accounts = l.accounts
  settlements : l'.settlements = l.settlements

theorem createReservationTx_ensures (I : Ledger → Prop) (u : Uuids) (p : CreateReservationParams) :
    Ensures I (createReservationTx u p) fun r l l' =>
      (r.accountID = p.accountID ∧ r.reservedAmount = p.reservedAmount ∧
        r.requestID = trimSpace p.requestID ∧ r.workflowID = trimSpace p.workflowID) ∧
        ((∃ c, I c ∧ r ∈ c.reservations ∧ r.idempotencyKey = p.idempotencyKey) ∧ l' = l ∨
          ∃ e, Held l l' r e ∧ r.reservationID = u 0 ∧
            r.idempotencyKey = trimSpace p.idempotencyKey ∧ e.entryID = u 1 ∧
            e.idempotencyKey = "entry:" ++ r.idempotencyKey ∧
            OutboxAdded (u 2) (trimSpace ("outbox:" ++ r.idempotencyKey)) l.outbox l'.outbox) := by
  refine wp_bind (wp_select fun c₀ F₁ hI₀ _ h₁ => ?_)
  split
  next existing hfind =>
    split
    next => trivial
    next hsame =>
      simp only [not_or, not_not] at hsame
      have hread := find_by_key hfind
      exact fun c _ _ => ⟨hsame, .inl ⟨⟨c₀, hI₀, hread⟩, rfl⟩⟩
  next =>
    refine wp_bind (wp_ensureAndLockBalanceSnapshot (fun _ _ => rfl) fun w₂ F₂ locked h₂ => ?_)
    split
    next => trivial
    next hcovered =>
      refine wp_bind (wp_saveSnapshot fun w₃ F₃ h₃ => ?_)
      have hw₃ := locked_saved h₂ h₃ rfl
      refine wp_bind (wp_createReservationRow (fun c hc => ?_) fun w₄ F₄ h₄ => ?_)
      · obtain ⟨-, -, t, -, hw⟩ := hw₃ c hc
        rw [hw]
        rfl
      refine wp_bind (wp_createEntry (fun c hc => ?_) fun w₅ F₅ h₅ => ?_)
      · obtain ⟨hF₃, t, -, hw⟩ := h₄ c hc
        obtain ⟨-, -, t', -, hw'⟩ := hw₃ c hF₃
        rw [hw, hw']
        rfl
      refine wp_bind (wp_recordOutboxEvent (fun c hc => ?_) fun w₆ F₆ h₆ => ?_)
      · obtain ⟨hF₄, t, -, hw⟩ := h₅ c hc
        obtain ⟨hF₃, t', -, hw'⟩ := h₄ c hF₄
        obtain ⟨-, -, t'', -, hw''⟩ := hw₃ c hF₃
        rw [hw, hw', hw'']
        rfl
      intro c _ hc
      obtain ⟨hF₅, o, ho, hw₆⟩ := h₆ c hc
      obtain ⟨hF₄, es, hes, hw₅⟩ := h₅ c hF₅
      obtain ⟨hF₃, rs, hrs, hw₄⟩ := h₄ c hF₄
      obtain ⟨-, rfl, ss, hss, hw₃⟩ := hw₃ c hF₃
      have hw : w₆ c = ⟨c.accounts, ss, es, rs, c.settlements, o⟩ := by
        rw [hw₆, hw₅, hw₄, hw₃]
        rfl
      rw [hw]
      exact ⟨⟨rfl, rfl, rfl, rfl⟩, .inr ⟨_, ⟨hes, rfl, not_lt.1 hcovered, rfl, rfl, rfl, rfl, rfl, hss, hrs, rfl,
        rfl⟩, defaultID_empty _, rfl, defaultID_empty _, rfl, ho⟩⟩

/-- The open reservation `r` was released, with the entry `e`. -/
structure Released (l l' : Ledger) (r : BillingReservation) (e : BillingLedgerEntry) : Prop where
  entries : l.entries.insert? e = some l'.entries
  current : l.reservations.get? r.reservationID = some r
  status : r.status = .open
  held : r.reservedAmount ≤ (l.stored r.accountID).reservedBalance
  account : e.accountID = r.accountID
  entryType : e.entryType = .reserveRelease
  reference : e.referenceID = r.reservationID
  direction : e.direction = .credit
  amount : e.amount = r.reservedAmount
  balanceAfter : e.balanceAfter =
    some (wrap64 ((l.stored r.accountID).availableBalance + r.reservedAmount))
  snapshots : SnapshotSet l.snapshots l'.snapshots r.accountID { l.stored r.accountID with
    availableBalance := wrap64 ((l.stored r.accountID).availableBalance + r.reservedAmount)
    reservedBalance := wrap64 ((l.stored r.accountID).reservedBalance - r.reservedAmount) }
  reservations : l'.reservations =
    l.reservations.update r.reservationID _ (keepsIndexes_withStatus .released)
  accounts : l'.accounts = l.accounts
  settlements : l'.settlements = l.settlements

/-- A reservation is open only while no entry releases it. -/
def ReleasesClose (l : Ledger) : Prop :=
  ∀ e ∈ l.entries, e.entryType = .reserveRelease → ∀ r ∈ l.reservations,
    r.reservationID = e.referenceID → r.status ≠ .open

/-- `Save` with a changed status changes nothing else. -/
theorem update_overwrite {t : Table BillingReservation} {r : BillingReservation}
    (h : t.get? r.reservationID = some r) (st : ReservationStatus) :
    t.update r.reservationID _ (keepsIndexes_overwrite { r with status := st }) =
      t.update r.reservationID _ (keepsIndexes_withStatus st) := by
  ext1
  rw [Table.rows_update _ h, Table.rows_update _ h]
  rfl

theorem releaseReservationTx_ensures {I : Ledger → Prop} (hI : ∀ l, I l → ReleasesClose l)
    (u : Uuids) (p : ReleaseReservationParams) :
    Ensures I (releaseReservationTx u p) fun r l l' =>
      r.reservationID = p.reservationID ∧ r.status = .released ∧
        (l' = l ∧ l.reservations.get? p.reservationID = some r ∨
          ∃ r₀ e, r = withStatus .released r₀ ∧ Released l l' r₀ e ∧ e.entryID = u 0 ∧
            e.idempotencyKey = trimSpace p.idempotencyKey ∧
            OutboxAdded (u 1) (trimSpace ("outbox:" ++ e.idempotencyKey)) l.outbox l'.outbox) := by
  refine wp_bind (wp_lockReservation (fun _ _ => rfl) fun r F₁ h₁ => ?_)
  have hid : ∀ c, F₁ c → r.reservationID = p.reservationID := fun c hc => Table.pk_of_get? (h₁ c hc).2
  split
  next hrel => exact fun c _ hc => ⟨hid c hc, hrel, .inl ⟨rfl, (h₁ c hc).2⟩⟩
  next =>
  split
  next => trivial
  next hopen =>
  rw [not_not] at hopen
  refine wp_bind (wp_select fun c₀ F₂ hIc hc₀ h₂ => ?_)
  split
  next existing hfind =>
    split
    next => trivial
    next hmatch =>
      -- no entry releases a reservation that is still open
      simp only [not_or, not_not] at hmatch
      have hmem : r ∈ c₀.reservations := Table.mem_of_get? (h₁ c₀ hc₀).2
      exact absurd hopen (hI c₀ hIc existing (Table.mem_of_find? hfind) hmatch.2 r hmem hmatch.1.symm)
  next =>
    refine wp_bind (wp_ensureAndLockBalanceSnapshot (fun _ _ => rfl) fun w₃ F₃ locked h₃ => ?_)
    split
    next => trivial
    next hheld =>
      refine wp_bind (wp_saveSnapshot fun w₄ F₄ h₄ => ?_)
      have hw₄ := locked_saved h₃ h₄ rfl
      refine wp_bind (wp_step fun c₁ F₅ _ _ h₅ => ?_)
      refine wp_bind (wp_createEntry (fun c hc => ?_) fun w₆ F₆ h₆ => ?_)
      · obtain ⟨-, -, t, -, hw⟩ := hw₄ c (h₅ c hc).1
        rw [hw]
        rfl
      refine wp_bind (wp_recordOutboxEvent (fun c hc => ?_) fun w₇ F₇ h₇ => ?_)
      · obtain ⟨hF₅, t, -, hw⟩ := h₆ c hc
        obtain ⟨-, -, t', -, hw'⟩ := hw₄ c (h₅ c hF₅).1
        rw [hw, hw']
        rfl
      intro c _ hc
      obtain ⟨hF₆, o, ho, hw₇⟩ := h₇ c hc
      obtain ⟨hF₅, es, hes, hw₆⟩ := h₆ c hF₆
      obtain ⟨hF₂, rfl, ss, hss, hw₄⟩ := hw₄ c (h₅ c hF₅).1
      have hr := (h₁ c (h₂ c hF₂)).2
      rw [← hid c (h₂ c hF₂)] at hr
      have hw : w₇ c = ⟨c.accounts, ss, es, c.reservations.update r.reservationID _
          (keepsIndexes_withStatus .released), c.settlements, o⟩ := by
        rw [hw₇, hw₆, hw₄, ← update_overwrite hr]
        rfl
      rw [hw]
      exact ⟨hid c (h₂ c hF₂), rfl, .inr ⟨r, _, rfl, ⟨hes, hr, hopen, not_lt.1 hheld, rfl, rfl, rfl,
        rfl, rfl, rfl, hss, rfl, rfl, rfl⟩, defaultID_empty _, rfl, ho⟩⟩

/-- The entry of a settlement, which one at the held amount does not make. -/
structure SettleEntry (t t' : Table BillingLedgerEntry) (accountID : String) (s : BillingSettlement)
    (after : Int) (e : BillingLedgerEntry) : Prop where
  entries : t.insert? e = some t'
  nonzero : s.deltaAmount ≠ 0
  account : e.accountID = accountID
  entryType : e.entryType = if s.deltaAmount < 0 then .settleCredit else .settleDebit
  direction : e.direction = if s.deltaAmount < 0 then .credit else .debit
  amount : e.amount = if s.deltaAmount < 0 then -s.deltaAmount else s.deltaAmount
  balanceAfter : e.balanceAfter = some after
  key : e.idempotencyKey = "entry:" ++ s.idempotencyKey

/-- The entries after a settlement; `id` is the identifier of its entry. -/
def SettleEntries (t t' : Table BillingLedgerEntry) (id accountID : String) (s : BillingSettlement)
    (after : Int) : Prop :=
  (s.deltaAmount = 0 ∧ t' = t) ∨ ∃ e, SettleEntry t t' accountID s after e ∧ e.entryID = id

theorem wp_createSettleEntry {I : Ledger → Prop} {w : Ledger → Ledger} {F : Ledger → Prop}
    {uuid accountID : String} {s : BillingSettlement} {after : Int}
    {Q : Unit → (Ledger → Ledger) → (Ledger → Prop) → Prop}
    (hw : ∀ c, F c → (w c).entries = c.entries)
    (hQ : ∀ w' F', (∀ c, F' c → F c ∧ ∃ t, SettleEntries c.entries t uuid accountID s after ∧
      w' c = { w c with entries := t }) → Q () w' F') :
    wp I (createSettleEntry uuid accountID s after) w F Q := by
  unfold createSettleEntry
  dsimp only
  split
  next hne =>
    refine wp_createEntry hw fun w' F' h => hQ w' F' fun c hc => ?_
    obtain ⟨hF, t, ht, hw'⟩ := h c hc
    exact ⟨hF, t, .inr ⟨_, ⟨ht, hne, rfl, rfl, rfl, rfl, rfl, rfl⟩, defaultID_empty _⟩, hw'⟩
  next heq =>
    rw [not_not] at heq
    exact hQ w F fun c hc => ⟨hc, _, .inl ⟨heq, rfl⟩, by rw [← hw c hc]⟩

/-- The open reservation `r` was settled by `s`. -/
structure Settled (l l' : Ledger) (r : BillingReservation) (s : BillingSettlement) : Prop where
  settlements : l.settlements.insert? s = some l'.settlements
  current : l.reservations.get? r.reservationID = some r
  status : r.status = .open
  held : r.reservedAmount ≤ (l.stored r.accountID).reservedBalance
  covered : s.deltaAmount > 0 → s.deltaAmount ≤ (l.stored r.accountID).availableBalance
  reservation : s.reservationID = r.reservationID
  delta : s.deltaAmount = s.actualAmount - r.reservedAmount
  completed : s.status = .completed
  snapshots : SnapshotSet l.snapshots l'.snapshots r.accountID
    (settleSnapshot (l.stored r.accountID) r.reservedAmount s.actualAmount s.deltaAmount)
  reservations : l'.reservations =
    l.reservations.update r.reservationID _ (keepsIndexes_withStatus .settled)
  accounts : l'.accounts = l.accounts

theorem settleSnapshot_accountID (s : BillingBalanceSnapshot) (reserved actual delta : Int) :
    (settleSnapshot s reserved actual delta).accountID = s.accountID := by
  unfold settleSnapshot
  dsimp only
  split
  · rfl
  · split <;> rfl

theorem settleReservationTx_ensures (I : Ledger → Prop) (u : Uuids) (p : SettleReservationParams) :
    Ensures I (settleReservationTx u p) fun s l l' =>
      s.reservationID = p.reservationID ∧ s.actualAmount = p.actualAmount ∧
        ((∃ c, I c ∧ s ∈ c.settlements ∧ s.idempotencyKey = p.idempotencyKey) ∧ l' = l ∨
          ∃ r, Settled l l' r s ∧
            SettleEntries l.entries l'.entries (u 1) r.accountID s
              (l'.stored r.accountID).availableBalance ∧
            s.settlementID = u 0 ∧ s.idempotencyKey = trimSpace p.idempotencyKey ∧
            OutboxAdded (u 2) (trimSpace ("outbox:" ++ s.idempotencyKey)) l.outbox l'.outbox) := by
  refine wp_bind (wp_select fun c₀ F₁ hI₀ _ h₁ => ?_)
  split
  next existing hfind =>
    split
    next => trivial
    next hsame =>
      simp only [not_or, not_not] at hsame
      have hread := find_by_key hfind
      exact fun c _ _ => ⟨hsame.1, hsame.2, .inl ⟨⟨c₀, hI₀, hread⟩, rfl⟩⟩
  next =>
  refine wp_bind (wp_lockReservation (fun _ _ => rfl) fun r F₂ h₂ => ?_)
  have hid : ∀ c, F₂ c → r.reservationID = p.reservationID := fun c hc => Table.pk_of_get? (h₂ c hc).2
  split
  next => split <;> trivial
  next hopen =>
  rw [not_not] at hopen
  refine wp_bind (wp_ensureAndLockBalanceSnapshot (fun _ _ => rfl) fun w₃ F₃ locked h₃ => ?_)
  split
  next => trivial
  next hheld =>
  dsimp only
  split
  next => trivial
  next hcovered =>
  rw [not_and, not_lt] at hcovered
  refine wp_bind (wp_saveSnapshot fun w₄ F₄ h₄ => ?_)
  have hw₄ := locked_saved h₃ h₄ (settleSnapshot_accountID ..)
  refine wp_bind (wp_createSettlement (fun c hc => ?_) fun w₅ F₅ h₅ => ?_)
  · obtain ⟨-, -, t, -, hw⟩ := hw₄ c hc
    rw [hw]
    rfl
  refine wp_bind (wp_step fun c₁ F₆ _ _ h₆ => ?_)
  refine wp_bind (wp_createSettleEntry (fun c hc => ?_) fun w₇ F₇ h₇ => ?_)
  · obtain ⟨hF₄, t, -, hw⟩ := h₅ c (h₆ c hc).1
    obtain ⟨-, -, t', -, hw'⟩ := hw₄ c hF₄
    rw [hw, hw']
    rfl
  refine wp_bind (wp_recordOutboxEvent (fun c hc => ?_) fun w₈ F₈ h₈ => ?_)
  · obtain ⟨hF₆, t, -, hw⟩ := h₇ c hc
    obtain ⟨hF₄, t', -, hw'⟩ := h₅ c (h₆ c hF₆).1
    obtain ⟨-, -, t'', -, hw''⟩ := hw₄ c hF₄
    rw [hw, hw', hw'']
    rfl
  intro c _ hc
  obtain ⟨hF₇, o, ho, hw₈⟩ := h₈ c hc
  obtain ⟨hF₆, es, hes, hw₇⟩ := h₇ c hF₇
  obtain ⟨hF₄, ts, hts, hw₅⟩ := h₅ c (h₆ c hF₆).1
  obtain ⟨hF₂, rfl, ss, hss, hw₄⟩ := hw₄ c hF₄
  have hr := (h₂ c hF₂).2
  rw [← hid c hF₂] at hr
  have hw : w₈ c = ⟨c.accounts, ss, es, c.reservations.update r.reservationID _
      (keepsIndexes_withStatus .settled), ts, o⟩ := by
    rw [hw₈, hw₇, hw₅, hw₄, ← update_overwrite hr]
    rfl
  have hafter : (w₈ c).stored r.accountID = settleSnapshot (c.stored r.accountID) r.reservedAmount
      p.actualAmount (p.actualAmount - r.reservedAmount) := by
    rw [hw, Ledger.stored, hss.row, Option.getD_some]
  refine ⟨hid c hF₂, rfl, .inr ⟨r, ?_, ?_, defaultID_empty _, rfl, ?_⟩⟩
  · rw [hw]
    exact ⟨hts, hr, hopen, not_lt.1 hheld, hcovered, rfl, rfl, rfl, hss, rfl, rfl⟩
  · rw [hafter, hw]
    exact hes
  · rw [hw]
    exact ho

/-- The entry `e` records an adjustment. -/
structure Adjusted (l l' : Ledger) (e : BillingLedgerEntry) : Prop where
  entries : l.entries.insert? e = some l'.entries
  entryType : e.entryType = .adjustment
  direction : e.direction = .credit
  amount : e.amount = 0
  balanceAfter : e.balanceAfter = none
  snapshots : l'.snapshots = l.snapshots
  accounts : l'.accounts = l.accounts
  reservations : l'.reservations = l.reservations
  settlements : l'.settlements = l.settlements

theorem recordAdjustmentTx_ensures (I : Ledger → Prop) (u : Uuids) (p : RecordAdjustmentParams) :
    Ensures I (recordAdjustmentTx u p) fun e l l' =>
      e.accountID = p.accountID ∧ e.entryType = .adjustment ∧ e.idempotencyKey = p.idempotencyKey ∧
        ((∃ c, I c ∧ e ∈ c.entries) ∧ l' = l ∨ Adjusted l l' e ∧ e.entryID = u 0 ∧
          OutboxAdded (u 1) (trimSpace ("outbox:" ++ e.idempotencyKey)) l.outbox l'.outbox) := by
  refine wp_bind (wp_select fun c₀ F₁ hI₀ _ h₁ => ?_)
  split
  next existing hfind =>
    split
    next => trivial
    next hsame =>
      simp only [not_or, not_not] at hsame
      have hread := find_by_key hfind
      exact fun c _ _ => ⟨hsame.1, hsame.2, hread.2, .inl ⟨⟨c₀, hI₀, hread.1⟩, rfl⟩⟩
  next =>
    refine wp_bind (wp_createEntry (fun _ _ => rfl) fun w₂ F₂ h₂ => ?_)
    refine wp_bind (wp_recordOutboxEvent (fun c hc => ?_) fun w₃ F₃ h₃ => ?_)
    · obtain ⟨-, t, -, hw⟩ := h₂ c hc
      rw [hw]
      rfl
    intro c _ hc
    obtain ⟨hF₂, o, ho, hw₃⟩ := h₃ c hc
    obtain ⟨-, es, hes, hw₂⟩ := h₂ c hF₂
    refine ⟨rfl, rfl, rfl, .inr ?_⟩
    rw [hw₃, hw₂]
    exact ⟨⟨hes, rfl, rfl, rfl, rfl, rfl, rfl, rfl, rfl⟩, defaultID_empty _, ho⟩

/-- The account exists, with a snapshot. -/
structure AccountEnsured (l l' : Ledger) (a : BillingAccount) : Prop where
  accounts : l'.accounts = l.accounts ∨ l.accounts.insert? a = some l'.accounts
  snapshots : l'.snapshots = l.snapshots ∨ l'.snapshots = zeroIfAbsent a.accountID l.snapshots
  entries : l'.entries = l.entries
  reservations : l'.reservations = l.reservations
  settlements : l'.settlements = l.settlements
  outbox : l'.outbox = l.outbox

/-- The unit of an account, which is never blank. -/
def unitOf (quotaUnit : String) : String :=
  if trimSpace quotaUnit = "" then "quota" else trimSpace quotaUnit

theorem blank_unitOf (unit : String) :
    (if blank (unitOf unit) then "quota" else unitOf unit) = unitOf unit := by
  unfold unitOf
  by_cases h : trimSpace unit = ""
  · simp [h]
  · simp [h, blank]

/-- The owner that an account is looked up by. -/
def ownerOf (p : EnsureAccountParams) : String × Int × String × String :=
  (trimSpace p.ownerType, p.ownerID, trimSpace p.accountType, unitOf p.quotaUnit)

theorem ensureBillingAccountTx_ensures (I : Ledger → Prop) (u : Uuids) (p : EnsureAccountParams) :
    Ensures I (ensureBillingAccountTx u p) fun a l l' => AccountEnsured l l' a ∧ a.owner = ownerOf p ∧
      ((∃ c, I c ∧ a ∈ c.accounts) ∧ l'.accounts = l.accounts ∨
        l.accounts.insert? a = some l'.accounts ∧ a.accountID = u 0) := by
  have hsnap : ∀ {g : Table BillingBalanceSnapshot → Table BillingBalanceSnapshot} {a : String}
      {t : Table BillingBalanceSnapshot}, g = id ∨ g = zeroIfAbsent a →
      g t = t ∨ g t = zeroIfAbsent a t := by
    rintro g a t (rfl | rfl)
    · exact .inl rfl
    · exact .inr rfl
  refine wp_bind (wp_select fun c₀ F₁ hI₀ _ h₁ => ?_)
  split
  next account hfind =>
    have howner : account.owner = ownerOf p := by
      have hprop := Table.prop_of_find? hfind
      exact of_decide_eq_true hprop
    refine wp_bind (wp_ensureBalanceSnapshot (fun _ _ => rfl) fun w₂ F₂ g hg h₂ => ?_)
    intro c _ hc
    rw [(h₂ c hc).2]
    exact ⟨⟨.inl rfl, hsnap hg, rfl, rfl, rfl, rfl⟩, howner,
      .inl ⟨⟨c₀, hI₀, Table.mem_of_find? hfind⟩, rfl⟩⟩
  next =>
    refine wp_bind (wp_createAccount (fun _ _ => rfl) fun w₂ F₂ h₂ => ?_)
    refine wp_bind (wp_ensureBalanceSnapshot (fun c hc => ?_) fun w₃ F₃ g hg h₃ => ?_)
    · obtain ⟨-, t, -, hw⟩ := h₂ c hc
      rw [hw]
      rfl
    intro c _ hc
    obtain ⟨hF₂, hw₃⟩ := h₃ c hc
    obtain ⟨-, t, ht, hw₂⟩ := h₂ c hF₂
    rw [hw₃, hw₂]
    refine ⟨⟨.inr ht, hsnap hg, rfl, rfl, rfl, rfl⟩, ?_, .inr ⟨ht, defaultID_empty _⟩⟩
    rw [BillingAccount.owner, BillingAccount.beforeCreate]
    exact congrArg (fun unit => (_, _, _, unit)) (blank_unitOf p.quotaUnit)

/-- The balances of an account as the ledger records them. -/
def expectedSnapshot (l : Ledger) (accountID : String) : BillingBalanceSnapshot where
  accountID := accountID
  availableBalance := availableSum l accountID
  reservedBalance := reservedSum l accountID
  consumedTotal := consumedSum l accountID
  refundedTotal := refundedSum l accountID
  grantedTotal := grantedSum l accountID

/-- Every balance is an `int64`. -/
def SnapshotInRange (s : BillingBalanceSnapshot) : Prop :=
  InRange s.availableBalance ∧ InRange s.reservedBalance ∧ InRange s.consumedTotal ∧
    InRange s.refundedTotal ∧ InRange s.grantedTotal

instance (s : BillingBalanceSnapshot) : Decidable (SnapshotInRange s) :=
  inferInstanceAs (Decidable (_ ∧ _))

/-- The snapshot of an account was overwritten with its recomputation. -/
structure Rebuilt (l l' : Ledger) (accountID : String) : Prop where
  inRange : SnapshotInRange (expectedSnapshot l accountID)
  snapshots : SnapshotSet l.snapshots l'.snapshots accountID (expectedSnapshot l accountID)
  accounts : l'.accounts = l.accounts
  entries : l'.entries = l.entries
  reservations : l'.reservations = l.reservations
  settlements : l'.settlements = l.settlements

theorem wp_aggregateExpectedBalanceSnapshot {I F : Ledger → Prop} {a : String}
    {Q : BillingBalanceSnapshot → (Ledger → Ledger) → (Ledger → Prop) → Prop}
    (hQ : ∀ s F', (∀ c, F' c → F c ∧ s = expectedSnapshot c a ∧ SnapshotInRange s) → Q s id F') :
    wp I (aggregateExpectedBalanceSnapshot a) id F Q := by
  refine wp_bind (wp_selectSums (fun _ _ => rfl) (fun _ _ h => Prod.ext h.1 h.2)
    fun entries F₁ h₁ => ?_)
  refine wp_bind (wp_selectSums (fun _ _ => rfl) (fun _ _ h => Prod.ext h.1 h.2)
    fun settlements F₂ h₂ => ?_)
  refine wp_bind (wp_selectSums (fun _ _ => rfl) (fun _ _ h => Prod.ext h rfl)
    fun reserved F₃ h₃ => ?_)
  refine hQ _ F₃ fun c hc => ?_
  obtain ⟨hF₂, rfl, hres, -⟩ := h₃ c hc
  obtain ⟨hF₁, rfl, hcon, href⟩ := h₂ c hF₂
  obtain ⟨hF, rfl, hav, hgr⟩ := h₁ c hF₁
  exact ⟨hF, rfl, hav, hres, hcon, href, hgr⟩

theorem wp_rebuildBalanceSnapshotTx {I F : Ledger → Prop} {a : String}
    {Q : Unit → (Ledger → Ledger) → (Ledger → Prop) → Prop}
    (hQ : ∀ w' F', (∀ c, F' c → F c ∧ SnapshotInRange (expectedSnapshot c a) ∧
      ∃ t, SnapshotSet c.snapshots t a (expectedSnapshot c a) ∧ w' c = { c with snapshots := t }) →
      Q () w' F') :
    wp I (rebuildBalanceSnapshotTx a) id F Q := by
  refine wp_bind (wp_selectForUpdate (fun _ _ _ _ hx => hx) fun _ F₁ h₁ => ?_)
  refine wp_bind (wp_select fun _ F₂ _ _ h₂ => ?_)
  refine wp_bind (wp_aggregateExpectedBalanceSnapshot fun s F₃ h₃ => ?_)
  refine wp_saveSnapshot fun w' F' h' => hQ w' F' fun c hc => ?_
  obtain ⟨hF₃, t, ht, hw'⟩ := h' c hc
  obtain ⟨hF₂, rfl, hin⟩ := h₃ c hF₃
  exact ⟨(h₁ c (h₂ c hF₂)).1, hin, t, ht, hw'⟩

theorem rebuildBalanceSnapshotTx_ensures (I : Ledger → Prop) (a : String) :
    Ensures I (rebuildBalanceSnapshotTx a) fun _ l l' => Rebuilt l l' a := by
  refine wp_rebuildBalanceSnapshotTx fun w' F' h c _ hc => ?_
  obtain ⟨-, hin, t, ht, hw⟩ := h c hc
  rw [hw]
  exact ⟨hin, ht, rfl, rfl, rfl, rfl⟩

theorem processLedgerOutboxEvent_ensures (I : Ledger → Prop) (eventID : String) :
    Ensures I (processLedgerOutboxEvent eventID) fun _ l l' => l' = l ∨ ∃ a, Rebuilt l l' a := by
  refine wp_bind (wp_selectForUpdate (fun _ _ _ _ hx => hx) fun event F₁ _ => ?_)
  split
  · exact fun _ _ _ => .inl rfl
  · refine wp_bind (wp_rebuildBalanceSnapshotTx fun w₂ F₂ h₂ => ?_)
    refine wp_step fun _ F₃ _ _ h₃ => ?_
    intro c _ hc
    obtain ⟨-, hin, t, ht, hw⟩ := h₂ c (h₃ c hc).1
    refine .inr ⟨event.accountID, ?_⟩
    dsimp only
    rw [hw]
    exact ⟨hin, ht, rfl, rfl, rfl, rfl⟩

end CodeGo.Billing.Effects
