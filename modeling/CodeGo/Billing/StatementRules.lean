import CodeGo.Billing.Aggregation
import CodeGo.Billing.LedgerRuntime

/-!
# Rules for the statements

For each statement, the cells it may change and what a transaction knows after
it. A rule describes the pending writes on every state the transaction may
commit onto: what it read under a lock still holds there, and a row that a unique
index accepted is accepted there.
-/

namespace CodeGo.Billing.StatementRules

open Lib Lib.Lock Lib.Wrap Schema Statements Aggregation LedgerRuntime

/-- A lockable cell shows its row, or whether its index entry is taken. -/
instance : Parts Ledger Cell where
  agree
    | .account id, l, l' => l.accounts.get? id = l'.accounts.get? id
    | .accountOwner o, l, l' =>
      (l.accounts.has fun a => a.owner = o) = l'.accounts.has fun a => a.owner = o
    | .snapshot id, l, l' => l.snapshots.get? id = l'.snapshots.get? id
    | .entryID id, l, l' => l.entries.get? id = l'.entries.get? id
    | .entryKey k, l, l' =>
      (l.entries.has fun e => e.idempotencyKey = k) = l'.entries.has fun e => e.idempotencyKey = k
    | .reservation id, l, l' => l.reservations.get? id = l'.reservations.get? id
    | .reservationKey k, l, l' =>
      (l.reservations.has fun r => r.idempotencyKey = k) =
        l'.reservations.has fun r => r.idempotencyKey = k
    | .settlementID id, l, l' => l.settlements.get? id = l'.settlements.get? id
    | .settlementReservation id, l, l' =>
      (l.settlements.has fun s => s.reservationID = id) =
        l'.settlements.has fun s => s.reservationID = id
    | .settlementKey k, l, l' =>
      (l.settlements.has fun s => s.idempotencyKey = k) =
        l'.settlements.has fun s => s.idempotencyKey = k
    | .event id, l, l' => l.outbox.get? id = l'.outbox.get? id
    | .eventKey k, l, l' =>
      (l.outbox.has fun e => e.idempotencyKey = k) = l'.outbox.has fun e => e.idempotencyKey = k
  agree_refl x l := by cases x <;> rfl
  agree_trans x l l' l'' h h' := by cases x <;> exact h.trans h'

theorem framed_select {α : Type} (f : Ledger → α) : Framed (select f) :=
  ⟨fun s x _ => agree_refl x s, fun _ => trivial⟩

theorem framed_stepE {α : Type} {l : Label Cell View} {f : Ledger → Except Err α × Ledger}
    (h : ∀ s x, x ∉ l.locks → agree x s (f s).2) : Framed (Prog.stepE l f) :=
  ⟨h, fun r => by cases r <;> trivial⟩

theorem framed_selectForUpdate {α : Type} (cell : Cell) (missing : Err) (f : Ledger → Option α) :
    Framed (selectForUpdate cell missing f) := by
  refine framed_stepE fun s x _ => ?_
  split <;> exact agree_refl x s

theorem framed_write {α κ : Type} [Indexed α κ] {locks : List Cell} {get : Ledger → Table α}
    {set : Table α → Ledger → Ledger} {op : Table α → Option (Table α)}
    (h : ∀ s t x, op (get s) = some t → x ∉ locks → agree x s (set t s)) :
    Framed (write locks get set op) := by
  refine framed_stepE fun s x hx => ?_
  split
  next t ht => exact h s t x ht hx
  next => exact agree_refl x s

theorem get?_inserted {α κ : Type} [Indexed α κ] [DecidableEq κ] {t t' : Table α} {r : α}
    (ht : t.insert? r = some t') {id : κ} (h : id ≠ pk r) : t.get? id = t'.get? id := by
  rw [Table.get?_insert? ht, if_neg h]

theorem has_inserted {α κ : Type} [Indexed α κ] {t t' : Table α} {r : α}
    (ht : t.insert? r = some t') {p : α → Bool} (h : p r = false) : t.has p = t'.has p := by
  rw [Table.has_insert? ht, h, Bool.or_false]

theorem framed_createAccount (a : BillingAccount) : Framed (createAccount a) := by
  refine framed_write fun s t x ht hx => ?_
  simp only [List.mem_cons, List.not_mem_nil, or_false, not_or] at hx
  cases x with
  | account id => exact get?_inserted ht fun e => hx.1 (by rw [e]; rfl)
  | accountOwner o => exact has_inserted ht (decide_eq_false fun e => hx.2 (by rw [e]))
  | _ => rfl

theorem framed_createSnapshot (s : BillingBalanceSnapshot) : Framed (createSnapshot s) := by
  refine framed_write fun l t x ht hx => ?_
  simp only [List.mem_singleton] at hx
  cases x with
  | snapshot id => exact get?_inserted ht fun e => hx (by rw [e]; rfl)
  | _ => rfl

theorem framed_saveSnapshot (s : BillingBalanceSnapshot) : Framed (saveSnapshot s) := by
  refine framed_write fun l t x ht hx => ?_
  simp only [List.mem_singleton] at hx
  cases x with
  | snapshot id =>
    have : id ≠ s.accountID := fun e => hx (by rw [e])
    exact (Table.get?_save? ht id).trans (if_neg this) |>.symm
  | _ => rfl

theorem framed_createEntry (e : BillingLedgerEntry) : Framed (createEntry e) := by
  refine framed_write fun s t x ht hx => ?_
  simp only [List.mem_cons, List.not_mem_nil, or_false, not_or] at hx
  cases x with
  | entryID id => exact get?_inserted ht fun h => hx.1 (by rw [h]; rfl)
  | entryKey k => exact has_inserted ht (decide_eq_false fun h => hx.2 (by rw [h]))
  | _ => rfl

theorem framed_createReservationRow (r : BillingReservation) : Framed (createReservationRow r) := by
  refine framed_write fun s t x ht hx => ?_
  simp only [List.mem_cons, List.not_mem_nil, or_false, not_or] at hx
  cases x with
  | reservation id => exact get?_inserted ht fun h => hx.1 (by rw [h]; rfl)
  | reservationKey k => exact has_inserted ht (decide_eq_false fun h => hx.2 (by rw [h]))
  | _ => rfl

theorem framed_createSettlement (r : BillingSettlement) : Framed (createSettlement r) := by
  refine framed_write fun s t x ht hx => ?_
  simp only [List.mem_cons, List.not_mem_nil, or_false, not_or] at hx
  cases x with
  | settlementID id => exact get?_inserted ht fun h => hx.1 (by rw [h]; rfl)
  | settlementReservation k => exact has_inserted ht (decide_eq_false fun h => hx.2.1 (by rw [h]))
  | settlementKey k => exact has_inserted ht (decide_eq_false fun h => hx.2.2 (by rw [h]))
  | _ => rfl

/-- An update of one reservation in columns other than its keys. -/
theorem framed_updateReservation {id : String} {f : BillingReservation → BillingReservation}
    (hf : Table.KeepsIndexes f) (hkey : ∀ r, (f r).idempotencyKey = r.idempotencyKey) :
    Framed (Prog.step { locks := [.reservation id] } fun l =>
      ((), { l with reservations := l.reservations.update id f hf }) : Tx Unit) := by
  refine ⟨fun s x hx => ?_, fun _ => trivial⟩
  simp only [List.mem_singleton] at hx
  cases x with
  | reservation i =>
    have : i ≠ id := fun h => hx (by rw [h])
    simp only [Parts.agree, Table.get?_update, this, if_false]
  | reservationKey k =>
    simp only [Parts.agree]
    rw [Table.has_update hf fun r => by rw [hkey]]
  | _ => rfl

theorem framed_saveReservation (r : BillingReservation) : Framed (saveReservation r) :=
  framed_updateReservation _ fun _ => rfl

theorem framed_updateReservationStatus (id : String) (st : ReservationStatus) :
    Framed (updateReservationStatus id st) :=
  framed_updateReservation _ fun _ => rfl

theorem framed_createEvent (ev : BillingOutboxEvent) : Framed (createEventOnConflictDoNothing ev) := by
  refine framed_stepE fun s x hx => ?_
  simp only [List.mem_cons, List.not_mem_nil, or_false, not_or] at hx
  unfold insertEvent
  split
  next => exact agree_refl x s
  next =>
    split
    next t ht =>
      cases x with
      | event id => exact get?_inserted ht fun h => hx.1 (by rw [h]; rfl)
      | eventKey k => exact has_inserted ht (decide_eq_false fun h => hx.2 (by rw [h]))
      | _ => rfl
    next => exact agree_refl x s

theorem framed_publishEvent (id : String) : Framed (publishEvent id) := by
  refine ⟨fun s x hx => ?_, fun _ => trivial⟩
  simp only [List.mem_singleton] at hx
  cases x with
  | event i =>
    have : i ≠ id := fun h => hx (by rw [h])
    simp only [Parts.agree, Table.get?_update, this, if_false]
  | eventKey k => exact (Table.has_update keepsIndexes_publishedEvent fun _ => rfl).symm
  | _ => rfl

theorem framed_selectSums (v : View) (f : Ledger → Int × Int) : Framed (selectSums v f) := by
  refine framed_stepE fun s x _ => ?_
  split <;> exact agree_refl x s

theorem framed_ite {α : Type} {P : Prop} [Decidable P] {p q : Tx α} (hp : Framed p)
    (hq : Framed q) : Framed (if P then p else q) := by
  split
  · exact hp
  · exact hq

theorem framed_recordOutboxEvent (uuid : String) (input : OutboxEventInput) :
    Framed (recordOutboxEvent uuid input) := by
  have hvalidate : ∀ existing event, Framed (validateExistingOutboxEvent existing event) :=
    fun _ _ => framed_ite trivial trivial
  refine framed_ite trivial (.bind (framed_select _) fun found => ?_)
  cases found with
  | some existing => exact hvalidate _ _
  | none =>
    refine .bind (framed_createEvent _) fun created => ?_
    cases created with
    | true => exact trivial
    | false =>
      refine .bind (framed_select _) fun found => ?_
      cases found with
      | some existing => exact hvalidate _ _
      | none => exact trivial

theorem framed_ensureBalanceSnapshot (a : String) : Framed (ensureBalanceSnapshot a) := by
  refine .bind (framed_select _) fun found => ?_
  cases found with
  | some s => exact trivial
  | none =>
    refine .bind (framed_createSnapshot _).attempt fun r => ?_
    cases r with
    | ok _ => exact trivial
    | error err =>
      refine .bind (framed_select _) fun found => ?_
      cases found <;> exact trivial

theorem framed_ensureAndLockBalanceSnapshot (a : String) :
    Framed (ensureAndLockBalanceSnapshot a) :=
  .bind (framed_ensureBalanceSnapshot a) fun _ => framed_selectForUpdate _ _ _

section Rules

variable {α : Type} {I : Ledger → Prop} {w : Ledger → Ledger} {F : Ledger → Prop}

theorem wp_select {f : Ledger → α} {Q : α → (Ledger → Ledger) → (Ledger → Prop) → Prop}
    (hQ : ∀ c₀ F', I c₀ → F c₀ → (∀ c, F' c → F c) → Q (f (w c₀)) w F') :
    wp I (select f) w F Q :=
  fun c₀ hI hF => hQ c₀ _ hI hF fun _ h => h.1

/-- What is read under its lock is what the transaction commits onto. -/
theorem wp_selectForUpdate {cell : Cell} {missing : Err} {f : Ledger → Option α}
    {Q : α → (Ledger → Ledger) → (Ledger → Prop) → Prop}
    (hstable : ∀ c₀ c, F c₀ → F c → agree cell c₀ c → f (w c₀) = f (w c))
    (hQ : ∀ r F', (∀ c, F' c → F c ∧ f (w c) = some r) → Q r w F') :
    wp I (selectForUpdate cell missing f) w F Q := by
  refine wp_stepE fun c₀ r F' _ hF hr hF' => ?_
  have hread : ∀ w', w' = w → Q r w' F' := by
    rintro _ rfl
    refine hQ r F' fun c hc => ⟨(hF' c hc).1, ?_⟩
    rw [← hstable c₀ c hF (hF' c hc).1 ((hF' c hc).2.1 cell (by simp))]
    split at hr
    next r' hr' => cases hr; exact hr'
    next => cases hr
  refine hread _ (funext fun c => ?_)
  split <;> rfl

/-- A write that a unique index accepted is accepted by what the transaction commits onto. -/
theorem wp_write {κ : Type} [Indexed α κ] {locks : List Cell} {get : Ledger → Table α}
    {set : Table α → Ledger → Ledger} {op : Table α → Option (Table α)}
    {Q : Unit → (Ledger → Ledger) → (Ledger → Prop) → Prop}
    (hstable : ∀ c₀ c, F c₀ → F c → (∀ x ∈ locks, agree x c₀ c) →
      (op (get (w c₀))).isSome → (op (get (w c))).isSome)
    (hQ : ∀ w' F', (∀ c, F' c → F c ∧ ∃ t, op (get (w c)) = some t ∧ w' c = set t (w c)) →
      Q () w' F') :
    wp I (write locks get set op) w F Q := by
  refine wp_stepE fun c₀ a F' _ hF ha hF' => hQ _ _ fun c hc => ⟨(hF' c hc).1, ?_⟩
  have h₀ : (op (get (w c₀))).isSome := by
    split at ha
    next t ht => rw [ht]; rfl
    next => cases ha
  obtain ⟨t, ht⟩ := Option.isSome_iff_exists.1
    (hstable c₀ c hF (hF' c hc).1 (hF' c hc).2.1 h₀)
  exact ⟨t, ht, by simp only [ht]⟩

/-- A row for a table without pending writes: the locks show whether it clashes. -/
theorem wp_insert {κ : Type} [Indexed α κ] {locks : List Cell} {get : Ledger → Table α}
    {set : Table α → Ledger → Ledger} {r : α}
    {Q : Unit → (Ledger → Ledger) → (Ledger → Prop) → Prop}
    (hw : ∀ c, F c → get (w c) = get c)
    (hlocks : ∀ c₀ c, (∀ x ∈ locks, agree x c₀ c) →
      ((get c₀).insert? r).isSome → ((get c).insert? r).isSome)
    (hQ : ∀ w' F', (∀ c, F' c → F c ∧ ∃ t, (get c).insert? r = some t ∧ w' c = set t (w c)) →
      Q () w' F') :
    wp I (write locks get set fun t => t.insert? r) w F Q := by
  apply wp_write
  · intro c₀ c h₀ h hx hs
    rw [hw c h]
    rw [hw c₀ h₀] at hs
    exact hlocks c₀ c hx hs
  · intro w' F' h
    refine hQ w' F' fun c hc => ?_
    obtain ⟨hF, t, ht, hw'⟩ := h c hc
    rw [hw c hF] at ht
    exact ⟨hF, t, ht, hw'⟩

theorem entry_insert?_isSome {t : Table BillingLedgerEntry} {e : BillingLedgerEntry} :
    (t.insert? e).isSome ↔
      t.get? e.entryID = none ∧ (t.has fun f => f.idempotencyKey = e.idempotencyKey) = false := by
  rw [Table.insert?_isSome_iff, Table.get?_eq_none, Table.has_eq_false, ← forall₂_and]
  refine forall₂_congr fun s _ => ?_
  simp [clash, pk]

theorem reservation_insert?_isSome {t : Table BillingReservation} {r : BillingReservation} :
    (t.insert? r).isSome ↔ t.get? r.reservationID = none ∧
      (t.has fun s => s.idempotencyKey = r.idempotencyKey) = false := by
  rw [Table.insert?_isSome_iff, Table.get?_eq_none, Table.has_eq_false, ← forall₂_and]
  refine forall₂_congr fun s _ => ?_
  simp [clash, pk]

theorem settlement_insert?_isSome {t : Table BillingSettlement} {r : BillingSettlement} :
    (t.insert? r).isSome ↔ t.get? r.settlementID = none ∧
      (t.has fun s => s.reservationID = r.reservationID) = false ∧
      (t.has fun s => s.idempotencyKey = r.idempotencyKey) = false := by
  simp only [Table.insert?_isSome_iff, Table.get?_eq_none, Table.has_eq_false, ← forall₂_and]
  refine forall₂_congr fun s _ => ?_
  simp [clash, pk]

variable {Q : Unit → (Ledger → Ledger) → (Ledger → Prop) → Prop}

theorem wp_createEntry {e : BillingLedgerEntry} (hw : ∀ c, F c → (w c).entries = c.entries)
    (hQ : ∀ w' F', (∀ c, F' c → F c ∧ ∃ t, c.entries.insert? e = some t ∧
      w' c = { w c with entries := t }) → Q () w' F') :
    wp I (createEntry e) w F Q := by
  refine wp_insert hw (fun c₀ c hx hs => ?_) hQ
  rw [entry_insert?_isSome] at hs ⊢
  have hid := hx (.entryID e.entryID) (by simp)
  have hkey := hx (.entryKey e.idempotencyKey) (by simp)
  simp only [Parts.agree] at hid hkey
  rwa [← hid, ← hkey]

theorem wp_createReservationRow {r : BillingReservation}
    (hw : ∀ c, F c → (w c).reservations = c.reservations)
    (hQ : ∀ w' F', (∀ c, F' c → F c ∧ ∃ t, c.reservations.insert? r = some t ∧
      w' c = { w c with reservations := t }) → Q () w' F') :
    wp I (createReservationRow r) w F Q := by
  refine wp_insert hw (fun c₀ c hx hs => ?_) hQ
  rw [reservation_insert?_isSome] at hs ⊢
  have hid := hx (.reservation r.reservationID) (by simp)
  have hkey := hx (.reservationKey r.idempotencyKey) (by simp)
  simp only [Parts.agree] at hid hkey
  rwa [← hid, ← hkey]

theorem wp_createSettlement {r : BillingSettlement}
    (hw : ∀ c, F c → (w c).settlements = c.settlements)
    (hQ : ∀ w' F', (∀ c, F' c → F c ∧ ∃ t, c.settlements.insert? r = some t ∧
      w' c = { w c with settlements := t }) → Q () w' F') :
    wp I (createSettlement r) w F Q := by
  refine wp_insert hw (fun c₀ c hx hs => ?_) hQ
  rw [settlement_insert?_isSome] at hs ⊢
  have hid := hx (.settlementID r.settlementID) (by simp)
  have hres := hx (.settlementReservation r.reservationID) (by simp)
  have hkey := hx (.settlementKey r.idempotencyKey) (by simp)
  simp only [Parts.agree] at hid hres hkey
  rwa [← hid, ← hres, ← hkey]

theorem account_insert?_isSome {t : Table BillingAccount} {a : BillingAccount} :
    (t.insert? a).isSome ↔
      t.get? a.accountID = none ∧ (t.has fun b => b.owner = a.owner) = false := by
  rw [Table.insert?_isSome_iff, Table.get?_eq_none, Table.has_eq_false, ← forall₂_and]
  refine forall₂_congr fun s _ => ?_
  simp [clash, pk]

theorem wp_createAccount {a : BillingAccount} (hw : ∀ c, F c → (w c).accounts = c.accounts)
    (hQ : ∀ w' F', (∀ c, F' c → F c ∧ ∃ t, c.accounts.insert? a = some t ∧
      w' c = { w c with accounts := t }) → Q () w' F') :
    wp I (createAccount a) w F Q := by
  refine wp_insert hw (fun c₀ c hx hs => ?_) hQ
  rw [account_insert?_isSome] at hs ⊢
  have hid := hx (.account a.accountID) (by simp)
  have howner := hx (.accountOwner a.owner) (by simp)
  simp only [Parts.agree] at hid howner
  rwa [← hid, ← howner]

/-- Sums that stay as they were read. -/
theorem wp_selectSums {v : View} {f : Ledger → Int × Int}
    {Q : Int × Int → (Ledger → Ledger) → (Ledger → Prop) → Prop}
    (hw : ∀ c, F c → f (w c) = f c) (hview : ∀ c₀ c, agree v c₀ c → f c₀ = f c)
    (hQ : ∀ sums F', (∀ c, F' c → F c ∧ sums = f c ∧ InRange sums.1 ∧ InRange sums.2) →
      Q sums w F') :
    wp I (selectSums v f) w F Q := by
  refine wp_stepE fun c₀ sums F' _ hF hr hF' => ?_
  have hread : ∀ w', w' = w → Q sums w' F' := by
    rintro _ rfl
    refine hQ sums F' fun c hc => ⟨(hF' c hc).1, ?_⟩
    rw [← hview c₀ c ((hF' c hc).2.2 v (by simp)), ← hw c₀ hF]
    split at hr
    next hin => cases hr; exact ⟨rfl, hin⟩
    next => cases hr
  refine hread _ (funext fun c => ?_)
  split <;> rfl

theorem wp_lockReservation {id : String}
    {Q : BillingReservation → (Ledger → Ledger) → (Ledger → Prop) → Prop}
    (hw : ∀ c, F c → (w c).reservations = c.reservations)
    (hQ : ∀ r F', (∀ c, F' c → F c ∧ c.reservations.get? id = some r) → Q r w F') :
    wp I (lockReservation id) w F Q := by
  refine wp_selectForUpdate (fun c₀ c h₀ h hx => ?_) fun r F' h => hQ r F' fun c hc => ?_
  · simp only [Parts.agree] at hx
    rw [hw _ h₀, hw _ h, hx]
  · obtain ⟨hF, hr⟩ := h c hc
    rw [hw c hF] at hr
    exact ⟨hF, hr⟩

theorem snapshot_save?_isSome (t : Table BillingBalanceSnapshot) (s : BillingBalanceSnapshot) :
    (t.save? s).isSome := by
  cases hg : t.get? s.accountID with
  | some r =>
    have hpk : s.accountID = r.accountID := (Table.pk_of_get? hg).symm
    refine Table.save?_isSome (Table.mem_of_get? hg) hpk fun x => ?_
    simp only [clash, hpk]
  | none =>
    rw [Table.get?_eq_none] at hg
    rw [Table.save?_eq_insert? hg, Table.insert?_isSome_iff]
    exact fun x hx => decide_eq_false (hg x hx)

/-- The account's snapshot is `row`, every other snapshot is as in `t`. -/
structure SnapshotSet (t t' : Table BillingBalanceSnapshot) (accountID : String)
    (row : BillingBalanceSnapshot) : Prop where
  row : t'.get? accountID = some row
  others : ∀ b, b ≠ accountID → t'.get? b = t.get? b

theorem SnapshotSet.trans {t t' t'' : Table BillingBalanceSnapshot} {a : String}
    {row row' : BillingBalanceSnapshot} (h : SnapshotSet t t' a row) (h' : SnapshotSet t' t'' a row') :
    SnapshotSet t t'' a row' :=
  ⟨h'.row, fun b hb => (h'.others b hb).trans (h.others b hb)⟩

theorem wp_saveSnapshot {s : BillingBalanceSnapshot}
    (hQ : ∀ w' F', (∀ c, F' c → F c ∧ ∃ t, SnapshotSet (w c).snapshots t s.accountID s ∧
      w' c = { w c with snapshots := t }) → Q () w' F') :
    wp I (saveSnapshot s) w F Q := by
  refine wp_write (fun _ _ _ _ _ _ => snapshot_save?_isSome _ s) fun w' F' h => hQ w' F' fun c hc => ?_
  obtain ⟨hF, t, ht, hw'⟩ := h c hc
  refine ⟨hF, t, ⟨?_, fun b hb => ?_⟩, hw'⟩
  · exact (Table.get?_save? ht _).trans (if_pos rfl)
  · exact (Table.get?_save? ht b).trans (if_neg hb)

/-- An account without a snapshot row gets one of zeros. -/
def zeroIfAbsent (accountID : String) (t : Table BillingBalanceSnapshot) :
    Table BillingBalanceSnapshot :=
  (t.insert? { accountID := accountID }).getD t

theorem get?_zeroIfAbsent (a b : String) (t : Table BillingBalanceSnapshot) :
    (zeroIfAbsent a t).get? b =
      if b = a then some ((t.get? a).getD { accountID := a }) else t.get? b := by
  unfold zeroIfAbsent
  cases hi : t.insert? { accountID := a } with
  | some t' =>
    have hnone : t.get? a = none := by
      rw [Table.get?_eq_none]
      intro s hs e
      have := (Table.insert?_eq_some hi).2 s hs
      simp only [clash, decide_eq_false_iff_not] at this
      exact this e
    rw [Option.getD_some, Table.get?_insert? hi, hnone, Option.getD_none]
    rfl
  | none =>
    rw [Option.getD_none]
    split
    next e =>
      cases hg : t.get? a with
      | some s => rw [e, hg, Option.getD_some]
      | none =>
        rw [← Option.not_isSome_iff_eq_none, Table.insert?_isSome_iff] at hi
        rw [Table.get?_eq_none] at hg
        exact absurd (fun s hs => decide_eq_false (hg s hs)) hi
    next => rfl

/-- The pending writes on the snapshots either add nothing or a row of zeros. -/
theorem wp_ensureBalanceSnapshot {a : String} (hw : ∀ c, F c → (w c).snapshots = c.snapshots)
    (hQ : ∀ w' F' g, g = id ∨ g = zeroIfAbsent a →
      (∀ c, F' c → F c ∧ w' c = { w c with snapshots := g c.snapshots }) → Q () w' F') :
    wp I (ensureBalanceSnapshot a) w F Q := by
  refine wp_bind (wp_select fun c₀ F₁ _ _ h₁ => ?_)
  cases (w c₀).snapshots.get? a with
  | some s => exact hQ w F₁ id (.inl rfl) fun c hc => ⟨h₁ c hc, by rw [id, ← hw c (h₁ c hc)]⟩
  | none =>
    rw [createSnapshot, write, Prog.attempt_stepE]
    refine wp_bind (wp_step fun c₁ F₂ _ _ h₂ => ?_)
    -- whether or not the insert is refused, what is pending is `zeroIfAbsent`
    have hins : ∀ w', w' = (fun c => { w c with snapshots := zeroIfAbsent a (w c).snapshots }) →
        ∀ F', (∀ c, F' c → F₂ c) → Q () w' F' := by
      rintro _ rfl F' hF'
      refine hQ _ F' _ (.inr rfl) fun c hc => ?_
      have hF := h₁ c (h₂ c (hF' c hc)).1
      exact ⟨hF, by rw [hw c hF]⟩
    split
    next =>
      refine hins _ (funext fun c => ?_) F₂ fun _ hc => hc
      unfold zeroIfAbsent
      cases (w c).snapshots.insert? { accountID := a } <;> rfl
    next err _ =>
      refine wp_bind (wp_select fun c₂ F₃ _ _ h₃ => ?_)
      split
      next =>
        refine hins _ (funext fun c => ?_) F₃ h₃
        unfold zeroIfAbsent
        cases (w c).snapshots.insert? { accountID := a } <;> rfl
      next => trivial

theorem wp_ensureAndLockBalanceSnapshot {a : String}
    {Q : BillingBalanceSnapshot → (Ledger → Ledger) → (Ledger → Prop) → Prop}
    (hw : ∀ c, F c → (w c).snapshots = c.snapshots)
    (hQ : ∀ w' F' snapshot, (∀ c, F' c → F c ∧ snapshot = c.stored a ∧
      ∃ t, SnapshotSet c.snapshots t a snapshot ∧ w' c = { w c with snapshots := t }) →
      Q snapshot w' F') :
    wp I (ensureAndLockBalanceSnapshot a) w F Q := by
  refine wp_bind (wp_ensureBalanceSnapshot hw fun w' F' g hg h => ?_)
  have hget : ∀ t t' : Table BillingBalanceSnapshot, t.get? a = t'.get? a →
      (g t).get? a = (g t').get? a := by
    intro t t' e
    rcases hg with rfl | rfl
    · exact e
    · rw [get?_zeroIfAbsent, get?_zeroIfAbsent, e]
  refine wp_selectForUpdate (fun c₀ c h₀ hc hx => ?_) fun s F'' h' => ?_
  · rw [(h _ h₀).2, (h _ hc).2]
    exact hget _ _ hx
  · refine hQ w' F'' s fun c hc => ?_
    obtain ⟨hF', hs⟩ := h' c hc
    obtain ⟨hF, hw'⟩ := h c hF'
    rw [hw'] at hs
    refine ⟨hF, ?_, _, ⟨hs, fun b hb => ?_⟩, hw'⟩
    · rcases hg with rfl | rfl
      · simp only [id] at hs
        rw [Ledger.stored, hs, Option.getD_some]
      · rw [get?_zeroIfAbsent, if_pos rfl, Option.some.injEq] at hs
        exact hs.symm
    · rcases hg with rfl | rfl
      · rfl
      · rw [get?_zeroIfAbsent, if_neg hb]

/-- A snapshot that is read under its lock and saved: both pending writes as one. -/
theorem locked_saved {a : String} {locked row : BillingBalanceSnapshot} {w₂ w₃ : Ledger → Ledger}
    {F₂ F₃ : Ledger → Prop}
    (h₂ : ∀ c, F₂ c → F c ∧ locked = c.stored a ∧
      ∃ t, SnapshotSet c.snapshots t a locked ∧ w₂ c = { w c with snapshots := t })
    (h₃ : ∀ c, F₃ c → F₂ c ∧ ∃ t, SnapshotSet (w₂ c).snapshots t row.accountID row ∧
      w₃ c = { w₂ c with snapshots := t })
    (hrow : row.accountID = locked.accountID) (c : Ledger) (hc : F₃ c) :
    F c ∧ locked = c.stored a ∧
      ∃ t, SnapshotSet c.snapshots t a row ∧ w₃ c = { w c with snapshots := t } := by
  obtain ⟨hF₂, t, hset, hw⟩ := h₃ c hc
  obtain ⟨hF, hlocked, t', hset', hw'⟩ := h₂ c hF₂
  have ha : row.accountID = a := hrow.trans (Table.pk_of_get? hset'.row)
  rw [hw'] at hw hset
  rw [ha] at hset
  exact ⟨hF, hlocked, t, hset'.trans hset, hw⟩

/-- The outbox has at most one event more, `id` under `key`. -/
def OutboxAdded (id key : String) (t t' : Table BillingOutboxEvent) : Prop :=
  t' = t ∨ ∃ ev, ev.eventID = id ∧ ev.idempotencyKey = key ∧ t.insert? ev = some t'

/-- A refused or superfluous insert adds nothing. -/
theorem insertEvent_outboxAdded (ev : BillingOutboxEvent) (l : Ledger) :
    ∃ t, OutboxAdded ev.eventID ev.idempotencyKey l.outbox t ∧ (insertEvent ev l).2 = { l with outbox := t } := by
  unfold insertEvent
  split
  · exact ⟨_, .inl rfl, rfl⟩
  · split
    next t ht => exact ⟨t, .inr ⟨ev, rfl, rfl, ht⟩, rfl⟩
    next => exact ⟨_, .inl rfl, rfl⟩

theorem wp_validateExistingOutboxEvent {existing event : BillingOutboxEvent} (hQ : Q () w F) :
    wp I (validateExistingOutboxEvent existing event) w F Q := by
  unfold validateExistingOutboxEvent
  split
  · trivial
  · exact hQ

theorem wp_createEvent {ev : BillingOutboxEvent}
    {Q : Bool → (Ledger → Ledger) → (Ledger → Prop) → Prop}
    (hw : ∀ c, F c → (w c).outbox = c.outbox)
    (hQ : ∀ created w' F', (∀ c, F' c → F c ∧ ∃ t, OutboxAdded ev.eventID ev.idempotencyKey c.outbox t ∧
      w' c = { w c with outbox := t }) → Q created w' F') :
    wp I (createEventOnConflictDoNothing ev) w F Q := by
  refine wp_stepE fun c₁ created F' _ _ _ h => hQ created _ F' fun c hc => ?_
  obtain ⟨t, ht, hpend⟩ := insertEvent_outboxAdded ev (w c)
  exact ⟨(h c hc).1, t, by rw [← hw c (h c hc).1]; exact ht, hpend⟩

theorem wp_recordOutboxEvent {uuid : String} {input : OutboxEventInput}
    (hw : ∀ c, F c → (w c).outbox = c.outbox)
    (hQ : ∀ w' F', (∀ c, F' c → F c ∧ ∃ t,
      OutboxAdded uuid (Trim.trimSpace input.idempotencyKey) c.outbox t ∧
      w' c = { w c with outbox := t }) → Q () w' F') :
    wp I (recordOutboxEvent uuid input) w F Q := by
  unfold recordOutboxEvent
  split
  · trivial
  · refine wp_bind (wp_select fun c₀ F₁ _ _ h₁ => ?_)
    split
    next =>
      refine wp_validateExistingOutboxEvent (hQ w F₁ fun c hc => ⟨h₁ c hc, _, .inl rfl, ?_⟩)
      rw [← hw c (h₁ c hc)]
    next =>
      refine wp_bind (wp_createEvent (fun c hc => hw c (h₁ c hc)) fun created w₂ F₂ h₂ => ?_)
      have h₂' : ∀ c, F₂ c → F c ∧ ∃ t,
          OutboxAdded uuid (Trim.trimSpace input.idempotencyKey) c.outbox t ∧
          w₂ c = { w c with outbox := t } := fun c hc => by
        have hadd := (h₂ c hc).2
        simp only [BillingOutboxEvent.beforeCreate, defaultID_empty] at hadd
        exact ⟨h₁ c (h₂ c hc).1, hadd⟩
      cases created with
      | true => exact hQ w₂ F₂ h₂'
      | false =>
        refine wp_bind (wp_select fun c₂ F₃ _ _ h₃ => ?_)
        split
        next => exact wp_validateExistingOutboxEvent (hQ w₂ F₃ fun c hc => h₂' c (h₃ c hc))
        next => trivial

end Rules

end CodeGo.Billing.StatementRules
