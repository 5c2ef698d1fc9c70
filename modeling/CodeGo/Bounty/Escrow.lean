import CodeGo.Bounty.EscrowLedger
import CodeGo.Bounty.Runs

/-!
# The escrow of a task follows its status

A task that is published and not over has an open hold of its reward, one that is
over had the hold settled and the executor credited, or the hold released.
-/

namespace CodeGo.Bounty.Escrow

open Lib Lib.Prog Lib.Trim Billing.Schema Billing.Statements Billing.LedgerRuntime Billing.Effects
  Billing.Invariant Billing.Preservation Billing.Recorded Billing.Mirror Platform.Database
  Identity.Schema Schema Tasks Review Effects EscrowLedger

section Stages

def OwnedBy (l : Ledger) (accountID : String) (userID : Int) (w : Wallet) : Prop :=
  ∃ a ∈ l.accounts, a.accountID = accountID ∧ a.owner = ownerOf (walletAccount userID w)

/-- `r` is the reservation of the reward of `t`. -/
structure Holds (l : Ledger) (t : BountyTask) (r : BillingReservation) : Prop where
  mem : r ∈ l.reservations
  named : r.reservationID ≠ ""
  id : r.reservationID = t.reservationID
  key : r.idempotencyKey = reserveKey t.taskID
  amount : r.reservedAmount = t.rewardAmount
  account : OwnedBy l r.accountID t.publisherUserID t.rewardWalletType

/-- The account of the user was credited once under the key of the task. -/
def CreditedOnce (l : Ledger) (t : BountyTask) (executor amount : Int) : Prop :=
  ∃ e ∈ l.entries, e.idempotencyKey = creditKey t.taskID ∧ e.entryType = .grantCredit ∧
    e.amount = amount ∧ OwnedBy l e.accountID executor t.rewardWalletType ∧
    ∀ f ∈ l.entries, f.idempotencyKey = creditKey t.taskID → f = e

/-- The hold was settled at an amount, which the executor was credited. -/
structure PaidOut (l : Ledger) (t : BountyTask) (amount : Int) : Prop where
  hold : ∃ r, Holds l t r ∧ r.status = .settled
  settlement : ∃ x ∈ l.settlements, x.reservationID = t.reservationID ∧ x.actualAmount = amount
  credit : ∃ executor, t.assigneeUserID = some executor ∧ CreditedOnce l t executor amount

def HoldReleased (l : Ledger) (t : BountyTask) : Prop := ∃ r, Holds l t r ∧ r.status = .released

/-- Where a task is and what became of its escrow. -/
inductive Stage (l : Ledger) (t : BountyTask) : Prop where
  | draft (status : t.status = .draft) (unheld : t.reservationID = "")
      (unused : ∀ r ∈ l.reservations, r.idempotencyKey ≠ reserveKey t.taskID)
  | held (r : BillingReservation) (status : active t.status = true) (holds : Holds l t r)
      (open_ : r.status = .open)
  | paid (amount : Int) (bounded : 0 < amount ∧ amount ≤ t.rewardAmount)
      (status : t.status = .completed ∧ amount = t.rewardAmount ∨ t.status = .resolved)
      (paid : PaidOut l t amount)
  | released (status : t.status = .cancelled ∨ t.status = .expired ∨ t.status = .resolved)
      (released : HoldReleased l t)

variable {l l' : Ledger} {t t' : BountyTask} {r : BillingReservation}

theorem OwnedBy.spares {P : String → Prop} {a : String} {userID : Int} {w : Wallet}
    (h : OwnedBy l a userID w) (hs : Spares P l l') : OwnedBy l' a userID w := by
  obtain ⟨b, hb, hid, howner⟩ := h
  exact ⟨b, hs.accounts b hb, hid, howner⟩

theorem Holds.spares (h : Holds l t r) (hs : Spares (TaskKey t.taskID) l l') : Holds l' t r where
  mem := (hs.reservations r (.inl h.key)).2 h.mem
  named := h.named
  id := h.id
  key := h.key
  amount := h.amount
  account := h.account.spares hs

theorem CreditedOnce.spares {executor amount : Int} (h : CreditedOnce l t executor amount)
    (hs : Spares (TaskKey t.taskID) l l') : CreditedOnce l' t executor amount := by
  obtain ⟨e, he, hkey, htype, hamount, howner, honce⟩ := h
  refine ⟨e, (hs.entries e (.inr hkey)).2 he, hkey, htype, hamount, howner.spares hs, ?_⟩
  intro f hf hfkey
  exact honce f ((hs.entries f (.inr hfkey)).1 hf) hfkey

theorem PaidOut.spares {amount : Int} (h : PaidOut l t amount)
    (hs : Spares (TaskKey t.taskID) l l') : PaidOut l' t amount := by
  obtain ⟨⟨r, hr, hstatus⟩, ⟨x, hx, hof⟩, executor, hassignee, hcredit⟩ := h
  exact ⟨⟨r, hr.spares hs, hstatus⟩, ⟨x, hs.settlements x hx, hof⟩, executor, hassignee,
    hcredit.spares hs⟩

/-- What leaves the rows of a task alone leaves its stage. -/
theorem Stage.spares (h : Stage l t) (hs : Spares (TaskKey t.taskID) l l') : Stage l' t := by
  cases h with
  | draft status unheld unused =>
    refine .draft status unheld fun r hr hkey => ?_
    exact unused r ((hs.reservations r (.inl hkey)).1 hr) hkey
  | held r status holds open_ => exact .held r status (holds.spares hs) open_
  | paid amount bounded status paid => exact .paid amount bounded status (paid.spares hs)
  | released status released =>
    obtain ⟨r, hr, hstatus⟩ := released
    exact .released status ⟨r, hr.spares hs, hstatus⟩

theorem escrow_eq (h : escrow t' = escrow t) : t'.taskID = t.taskID ∧
    t'.publisherUserID = t.publisherUserID ∧ t'.rewardWalletType = t.rewardWalletType ∧
    t'.rewardAmount = t.rewardAmount ∧ t'.reservationID = t.reservationID := by
  simp only [escrow, Prod.mk.injEq] at h
  exact h

theorem Holds.escrow (h : Holds l t r) (he : escrow t' = escrow t) : Holds l t' r := by
  obtain ⟨hid, hpublisher, hwallet, hreward, hreservation⟩ := escrow_eq he
  obtain ⟨hmem, hnamed, hrid, hkey, hamount, haccount⟩ := h
  refine ⟨hmem, hnamed, ?_, ?_, ?_, ?_⟩
  · rw [hrid, hreservation]
  · rw [hkey, hid]
  · rw [hamount, hreward]
  · rwa [hpublisher, hwallet]

/-- A hold has one reservation. -/
theorem Holds.eq {r' : BillingReservation} (h : Holds l t r) (h' : Holds l t r') : r = r' :=
  Table.eq_of_clash h.mem h'.mem
    (Indexed.clash_of_pk r r' ((pk_reservation r).trans ((h.id.trans h'.id.symm).trans
      (pk_reservation r').symm)))

theorem Holds.get? (h : Holds l t r) : l.reservations.get? t.reservationID = some r := by
  rw [← h.id]
  exact Table.get?_of_mem h.mem

/-- An active task has an open hold. -/
theorem Stage.held_of_active (h : Stage l t) (hactive : active t.status = true) :
    ∃ r, Holds l t r ∧ r.status = .open := by
  cases h with
  | draft status unheld unused =>
    rw [status] at hactive
    cases hactive
  | held r status holds open_ => exact ⟨r, holds, open_⟩
  | paid amount bounded status paid =>
    rcases status with ⟨hst, -⟩ | hst <;> rw [hst] at hactive <;> cases hactive
  | released status released =>
    rcases status with hst | hst | hst <;> rw [hst] at hactive <;> cases hactive

end Stages

section Kept

/-- The escrow of every task is at the stage of its status, and nothing else is under its keys. -/
structure Kept (s : Store) : Prop where
  sound : Sound s.base.ledger
  stages : ∀ id t, s.tasks.get? id = some t → Stage s.base.ledger t
  holds : ∀ r ∈ s.base.ledger.reservations, ∀ id, r.idempotencyKey = reserveKey id →
    ∃ t, s.tasks.get? id = some t ∧ t.status ≠ .draft
  credits : ∀ e ∈ s.base.ledger.entries, ∀ id, e.idempotencyKey = creditKey id →
    ∃ t, s.tasks.get? id = some t ∧ (t.status = .completed ∨ t.status = .resolved)

variable {s s' : Store} {t t' : BountyTask}

/-- One task changes and the rows of all others stay: what is left to show about the task. -/
theorem Kept.rewrite (h : Kept s) {id : String}
    (hrows : ∀ x, s'.tasks.get? x = if x = id then some t' else s.tasks.get? x)
    (hspares : ∀ x, x ≠ id → Spares (TaskKey x) s.base.ledger s'.base.ledger)
    (hsound : Sound s'.base.ledger) (hstage : Stage s'.base.ledger t')
    (hhold : ∀ r ∈ s'.base.ledger.reservations, r.idempotencyKey = reserveKey id →
      t'.status ≠ .draft)
    (hcredit : ∀ e ∈ s'.base.ledger.entries, e.idempotencyKey = creditKey id →
      t'.status = .completed ∨ t'.status = .resolved) : Kept s' := by
  refine ⟨hsound, fun x t ht => ?_, fun r hr x hkey => ?_, fun e he x hkey => ?_⟩
  · rw [hrows] at ht
    split at ht
    next =>
      cases ht
      exact hstage
    next hne =>
      have hid : t.taskID = x := Table.pk_of_get? ht
      exact (h.stages x t ht).spares (by rw [hid]; exact hspares x hne)
  · rw [hrows]
    split
    next heq => exact ⟨t', rfl, hhold r hr (by rw [hkey, heq])⟩
    next hne => exact h.holds r (((hspares x hne).reservations r (.inl hkey)).1 hr) x hkey
  · rw [hrows]
    split
    next heq => exact ⟨t', rfl, hcredit e he (by rw [hkey, heq])⟩
    next hne => exact h.credits e (((hspares x hne).entries e (.inr hkey)).1 he) x hkey

/-- A task changes and the ledger does not. -/
theorem Kept.rewrite_same (h : Kept s) (hrw : Rewritten s s' t t') (hbase : s'.base = s.base)
    (hstage : Stage s.base.ledger t')
    (hdraft : t'.status = .draft → t.status = .draft)
    (hpaid : t.status = .completed ∨ t.status = .resolved → t'.status = t.status) : Kept s' := by
  refine h.rewrite hrw.rows (fun x _ => ?_) ?_ ?_ (fun r hr hkey => ?_) (fun e he hkey => ?_)
  · rw [hbase]
    exact .refl _ _
  · rw [hbase]
    exact h.sound
  · rwa [hbase]
  · rw [hbase] at hr
    obtain ⟨t₀, ht₀, hst⟩ := h.holds r hr t.taskID hkey
    rw [hrw.row] at ht₀
    cases ht₀
    exact fun hd => hst (hdraft hd)
  · rw [hbase] at he
    obtain ⟨t₀, ht₀, hst⟩ := h.credits e he t.taskID hkey
    rw [hrw.row] at ht₀
    cases ht₀
    rwa [hpaid hst]

theorem ne_paid_of_active (h : active t.status = true) :
    ¬ (t.status = .completed ∨ t.status = .resolved) := by
  rintro (hst | hst) <;> rw [hst] at h <;> cases h

theorem ne_draft_of_active (h : active t.status = true) : t.status ≠ .draft := by
  intro hst
  rw [hst] at h
  cases h

/-- An active task moves to another active status with the same escrow. -/
theorem Kept.rewrite_active (h : Kept s) (hrw : Rewritten s s' t t') (hbase : s'.base = s.base)
    (hescrow : escrow t' = escrow t) (hactive : active t.status = true)
    (hactive' : active t'.status = true) : Kept s' := by
  obtain ⟨r, hr, hopen⟩ := (h.stages _ t hrw.row).held_of_active hactive
  exact h.rewrite_same hrw hbase (.held r hactive' (hr.escrow hescrow) hopen)
    (fun hd => absurd hd (ne_draft_of_active hactive')) fun hp => absurd hp (ne_paid_of_active hactive)

end Kept

section Publication

variable {s s' : Store} {t : BountyTask} {now : Int} {u : Uuids} {r : BillingReservation}

/-- The account of the publisher is there, and the rows of the escrows are the same. -/
theorem spares_of_accountReady {userID : Int} {w : Wallet} {b : DB} {a : BillingAccount} {l : Ledger}
    (h : AccountReady u userID w b a l) :
    Spares EscrowKey b.ledger l ∧ a ∈ l.accounts ∧ a.owner = ownerOf (walletAccount userID w) := by
  cases h with
  | kept ensured used =>
    have hrecorded := ensureBillingAccount_ok ensured
    exact ⟨spares_of_account hrecorded, hrecorded.mem, hrecorded.owner⟩
  | bootstrapped l₁ e ensured unused credited =>
    have hrecorded := ensureBillingAccount_ok ensured
    have hcredit := creditAccount_ok credited
    have hkey : ¬ EscrowKey (trimSpace (mirrorBootstrapKey userID w)) := by
      rw [(solid_mirrorBootstrapKey userID w).trimSpace_eq]
      exact not_escrowKey_mirrorBootstrap userID w
    refine ⟨(spares_of_account hrecorded).trans (spares_of_credit hcredit hkey), ?_, hrecorded.owner⟩
    rw [hcredit.accounts_eq]
    exact hrecorded.mem

/-- The reward of a task is held under a key that was not in use. -/
theorem holds_of_rewardHeld (hu : ∀ i, u i ≠ "") (h : RewardHeld u s.base s'.base t r)
    (hunused : ∀ x ∈ s.base.ledger.reservations, x.idempotencyKey ≠ reserveKey t.taskID) :
    Holds s'.base.ledger { t with reservationID := r.reservationID } r ∧ r.status = .open ∧
      ∀ P : String → Prop, (∀ k, P k → EscrowKey k) → ¬ P (reserveKey t.taskID) →
        Spares P s.base.ledger s'.base.ledger := by
  obtain ⟨account, l, l', hready, hheld, hbase⟩ := h.reserved
  obtain ⟨hspares, hmem, howner⟩ := spares_of_accountReady hready
  have hrecorded := createReservation_ok hheld
  rw [hbase, setLedger_ledger]
  have hkey : trimSpace (rewardHold account.accountID t).idempotencyKey = reserveKey t.taskID :=
    (solid_reserveKey t.taskID).trimSpace_eq
  have hothers : ∀ P : String → Prop, (∀ k, P k → EscrowKey k) → ¬ P (reserveKey t.taskID) →
      Spares P l l' := fun P hP hno => spares_of_reservation hP hrecorded (by rwa [hkey])
  rcases hrecorded.outcome with ⟨⟨hr, hrkey⟩, -⟩ | ⟨e, hc, hid, hrkey, -⟩
  · have hescrow : EscrowKey r.idempotencyKey := ⟨t.taskID, .inl hrkey⟩
    exact absurd hrkey (hunused r ((hspares.reservations r hescrow).1 hr))
  · refine ⟨⟨mem_of_reservation hrecorded, ?_, rfl, hrkey.trans hkey, hrecorded.amount, account, ?_,
      hrecorded.account.symm, howner⟩, hc.status, fun P hP hno => ?_⟩
    · rw [hid]
      exact hu 3
    · rw [hc.accounts]
      exact hmem
    · exact (hspares.mono hP).trans (hothers P hP hno)

theorem Kept.publish (h : Kept s) (hu : ∀ i, u i ≠ "")
    (hbefore : s.tasks.get? t.taskID = some t ∨ s.tasks.get? t.taskID = none)
    (hrows : ∀ id, s'.tasks.get? id =
      if id = t.taskID then some (publishedAs now r.reservationID t) else s.tasks.get? id)
    (hstatus : t.status = .draft) (hheld : RewardHeld u s.base s'.base t r) : Kept s' := by
  have hdraft : ∀ t₀, s.tasks.get? t.taskID = some t₀ → t₀.status = .draft := by
    intro t₀ ht₀
    rcases hbefore with hrow | hrow <;> rw [hrow] at ht₀
    · cases ht₀
      exact hstatus
    · cases ht₀
  have hunused : ∀ x ∈ s.base.ledger.reservations, x.idempotencyKey ≠ reserveKey t.taskID := by
    intro x hx hkey
    obtain ⟨t₀, ht₀, hst⟩ := h.holds x hx t.taskID hkey
    exact hst (hdraft t₀ ht₀)
  obtain ⟨hholds, hopen, hspares⟩ := holds_of_rewardHeld hu hheld hunused
  have hcredits := hspares (· = creditKey t.taskID) (fun k hk => ⟨_, .inr hk⟩) reserveKey_ne_creditKey
  refine h.rewrite hrows (fun x hne => hspares _ (fun _ hk => hk.escrowKey) fun hk => ?_)
    (hcredits.sound h.sound) (.held r rfl ?_ hopen) (fun _ _ _ => nofun) fun e he hkey => ?_
  · exact hne (hk.id_eq (.inl rfl))
  · exact hholds.escrow (t := { t with reservationID := r.reservationID }) rfl
  · obtain ⟨t₀, ht₀, hst⟩ := h.credits e ((hcredits.entries e hkey).1 he) t.taskID hkey
    rw [hdraft t₀ ht₀] at hst
    rcases hst with hst | hst <;> cases hst

end Publication

section Closing

variable {s s' : Store} {t t' : BountyTask} {u : Uuids} {r : BillingReservation}

/-- The row of a hold that was closed. -/
theorem Holds.close {l l' : Ledger} {st : ReservationStatus} (h : Holds l t r)
    (hrows : l'.reservations = l.reservations.update r.reservationID _ (keepsIndexes_withStatus st))
    (haccounts : ∀ a ∈ l.accounts, a ∈ l'.accounts) : Holds l' t (withStatus st r) := by
  obtain ⟨hmem, hnamed, hid, hkey, hamount, a, ha, hof, howner⟩ := h
  refine ⟨?_, hnamed, hid, hkey, hamount, a, haccounts a ha, hof, howner⟩
  rw [hrows, mem_close (Table.get?_of_mem hmem)]
  exact .inr rfl

theorem Kept.release (h : Kept s) (hrw : Rewritten s s' t t') (hescrow : escrow t' = escrow t)
    (hactive : active t.status = true ∨ t' = t ∧ t.status = .cancelled)
    (hstatus : t'.status = .cancelled ∨ t'.status = .expired ∨ t'.status = .resolved)
    (hreleased : RewardReleased u s.base t s'.base) : Kept s' := by
  have hstage := h.stages _ t hrw.row
  -- the reservation, open or released before
  have hhold : ∃ r, Holds s.base.ledger t r ∧
      (active t.status = true ∧ r.status = .open ∨ t' = t ∧ r.status = .released) := by
    rcases hactive with hactive | ⟨heq, hcancelled⟩
    · obtain ⟨r, hr, hopen⟩ := hstage.held_of_active hactive
      exact ⟨r, hr, .inl ⟨hactive, hopen⟩⟩
    · cases hstage with
      | draft status unheld unused =>
        rw [status] at hcancelled
        cases hcancelled
      | held r status holds open_ =>
        rw [hcancelled] at status
        cases status
      | paid amount bounded status paid =>
        rcases status with ⟨hst, -⟩ | hst <;> rw [hst] at hcancelled <;> cases hcancelled
      | released status released =>
        obtain ⟨r, hr, hst⟩ := released
        exact ⟨r, hr, .inr ⟨heq, hst⟩⟩
  obtain ⟨r, hr, hcase⟩ := hhold
  cases hreleased with
  | none unheld same => exact absurd (hr.id.trans unheld) hr.named
  | released reason r' l ran base =>
    obtain ⟨r₀, hget, houtcome⟩ := releaseReservation_entry h.sound.records.releasesClose ran
    have hsame : r₀ = r := by
      have hget' : s.base.ledger.reservations.get? t.reservationID = some r₀ := hget
      rw [hr.get?, Option.some.injEq] at hget'
      exact hget'.symm
    subst hsame
    rcases hcase with ⟨hact, hopen⟩ | ⟨rfl, hrel⟩
    · rcases houtcome with ⟨hrel, -⟩ | ⟨e, hc, hkey⟩
      · rw [hopen] at hrel
        cases hrel
      have hkey : e.idempotencyKey = releaseKey t.taskID :=
        hkey.trans (solid_releaseKey t.taskID).trimSpace_eq
      have hother : ∀ P : String → Prop, (∀ k, P k → EscrowKey k) → ¬ P (reserveKey t.taskID) →
          Spares P s.base.ledger s'.base.ledger := by
        intro P hP hno
        rw [base, setLedger_ledger]
        refine spares_of_released hc (by rwa [hr.key]) fun hk => ?_
        rw [hkey] at hk
        exact not_escrowKey_release t.taskID (hP _ hk)
      have hcredits := hother (· = creditKey t.taskID) (fun k hk => ⟨_, .inr hk⟩)
        reserveKey_ne_creditKey
      refine h.rewrite hrw.rows (fun x hne => hother _ (fun _ hk => hk.escrowKey) fun hk => ?_)
        (hcredits.sound h.sound) (.released hstatus ⟨withStatus .released r₀, ?_, rfl⟩)
        (fun _ _ _ hd => ?_) fun f hf hfkey => ?_
      · exact hne (hk.id_eq (.inl rfl))
      · rw [base, setLedger_ledger]
        exact (hr.close hc.reservations fun a ha => by rwa [hc.accounts]).escrow hescrow
      · rcases hstatus with hst | hst | hst <;> rw [hst] at hd <;> cases hd
      · obtain ⟨t₀, ht₀, hst⟩ := h.credits f ((hcredits.entries f hfkey).1 hf) t.taskID hfkey
        rw [hrw.row] at ht₀
        cases ht₀
        exact absurd hst (ne_paid_of_active hact)
    · rcases houtcome with ⟨-, hl⟩ | ⟨e, hc, -⟩
      · have hbase : s'.base = s.base := by
          rw [base, hl]
          rfl
        exact h.rewrite_same hrw hbase hstage id fun _ => rfl
      · have hopen := hc.status
        rw [hrel] at hopen
        cases hopen

/-- What a settlement of an open hold leaves in the ledger. -/
theorem settled_hold {l l' : Ledger} {submissionID : String} {amount : Int} {x : BillingSettlement}
    (hs : Sound l) (hr : Holds l t r) (hopen : r.status = .open)
    (hran : (settleReservation u (rewardSettlement t submissionID amount)).run l = (.ok x, l')) :
    Holds l' t (withStatus .settled r) ∧
      (x ∈ l'.settlements ∧ x.reservationID = t.reservationID ∧ x.actualAmount = amount) ∧
      ∀ P : String → Prop, (∀ k, P k → EscrowKey k) → ¬ P (reserveKey t.taskID) → Spares P l l' := by
  have hrecorded := settleReservation_ok hran
  have hspares : ∀ P : String → Prop, (∀ k, P k → EscrowKey k) → ¬ P (reserveKey t.taskID) →
      Spares P l l' := by
    intro P hP hno
    refine spares_of_settlement hP hrecorded fun r' hr' => ?_
    have hget : l.reservations.get? t.reservationID = some r' := hr'
    rw [hr.get?, Option.some.injEq] at hget
    rwa [← hget, hr.key]
  rcases hrecorded.outcome with ⟨⟨hx, -⟩, -⟩ | ⟨r₀, id, hc, -⟩
  · -- a settlement of the hold from before contradicts that it is open
    obtain ⟨-, -, r', hr', hid, hst⟩ := hs.records.settlements x hx
    have hsame : r' = r := by
      have hget := Table.get?_of_mem hr'
      have hof : x.reservationID = t.reservationID := hrecorded.reservation
      rw [pk_reservation, hid, hof, hr.get?, Option.some.injEq] at hget
      exact hget.symm
    rw [hsame, hopen] at hst
    cases hst
  · have hof : x.reservationID = t.reservationID := hrecorded.reservation
    have hsame : r₀ = r := by
      have hget := hc.current
      rw [← hc.reservation, hof, hr.get?, Option.some.injEq] at hget
      exact hget.symm
    subst hsame
    exact ⟨hr.close hc.reservations fun a ha => by rwa [hc.accounts],
      ⟨(Table.mem_insert? hc.settlements).2 (.inr rfl), hof, hrecorded.actual⟩, hspares⟩

/-- The executor is credited once, under a key that was not in use. -/
theorem credited_once {b b' : DB} {executor amount : Int}
    (h : CreditedTx t.rewardWalletType executor amount (creditKey t.taskID) b b')
    (hunused : ∀ e ∈ b.ledger.entries, e.idempotencyKey ≠ creditKey t.taskID) :
    CreditedOnce b'.ledger t executor amount ∧
      ∀ P : String → Prop, (∀ k, P k → EscrowKey k) → ¬ P (creditKey t.taskID) →
        Spares P b.ledger b'.ledger := by
  obtain ⟨a, l, q, e, l', hpos, hmirrored, -, -, haccount, hgranted, hnamed, hcredited, rfl⟩ := h
  have hspares := spares_of_mirrored hmirrored
  obtain ⟨hmem, howner⟩ := account_of_mirrored hmirrored
  have hkey : trimSpace q.idempotencyKey = creditKey t.taskID := by
    rw [hnamed]
    exact (solid_creditKey t.taskID).trimSpace_eq
  refine ⟨?_, fun P hP hno =>
    (hspares.mono hP).trans (spares_of_credit hcredited (by rwa [hkey]))⟩
  rcases hcredited.outcome with ⟨⟨he, hekey⟩, -⟩ | ⟨hc, hekey⟩
  · rw [hnamed] at hekey
    have hescrow : EscrowKey e.idempotencyKey := ⟨t.taskID, .inr hekey⟩
    exact absurd hekey (hunused e ((hspares.entries e hescrow).1 he))
  · have hin : e ∈ b'.ledger.entries := (Table.mem_insert? hc.entries).2 (.inr rfl)
    have hekey := hekey.trans hkey
    refine ⟨e, hin, hekey, hcredited.entryType, hcredited.amount.trans hgranted, ⟨a, ?_, ?_, howner⟩,
      fun f hf hfkey => ?_⟩
    · rwa [hcredited.accounts_eq]
    · rw [hcredited.account, haccount]
    · exact Table.eq_of_clash hf hin (decide_eq_true (.inr (hfkey.trans hekey.symm)))

/-- A settlement of the hold of an active task pays it out, and touches no other escrow. -/
theorem Kept.paidOut (h : Kept s) {executor amount : Int} (hrw : Rewritten s s' t t')
    (hescrow : escrow t' = escrow t) (hassignee : t'.assigneeUserID = some executor)
    (hactive : active t.status = true) (hamount : amount = t.rewardAmount ∨ 0 < amount)
    (hpaid : RewardPaid u s.base t executor amount s'.base) :
    0 < amount ∧ PaidOut s'.base.ledger t' amount ∧ Sound s'.base.ledger ∧
      ∀ x, x ≠ t.taskID → Spares (TaskKey x) s.base.ledger s'.base.ledger := by
  obtain ⟨r, hr, hopen⟩ := (h.stages _ t hrw.row).held_of_active hactive
  have hreward : 0 < t.rewardAmount := by
    rw [← hr.amount]
    exact h.sound.records.held r hr.mem
  have hpositive : 0 < amount := by
    rcases hamount with heq | hpos <;> omega
  obtain ⟨x, submissionID, l, hsettled, hcredited⟩ := hpaid
  obtain ⟨hclosed, hsettlement, hsettles⟩ := settled_hold h.sound hr hopen hsettled
  rcases hcredited with ⟨-, hran⟩ | ⟨hzero, -⟩
  swap
  · omega
  have hunused : ∀ e ∈ l.entries, e.idempotencyKey ≠ creditKey t.taskID := by
    intro e he hkey
    have hspares := hsettles (· = creditKey t.taskID) (fun k hk => ⟨_, .inr hk⟩)
      reserveKey_ne_creditKey
    obtain ⟨t₀, ht₀, hst⟩ := h.credits e ((hspares.entries e hkey).1 he) t.taskID hkey
    rw [hrw.row] at ht₀
    cases ht₀
    exact ne_paid_of_active hactive hst
  have htx : CreditedTx t.rewardWalletType executor amount (creditKey t.taskID)
      (s.base.setLedger l) s'.base := creditQuotaTx_ok hran
  obtain ⟨hcredit, hcredits⟩ := credited_once htx hunused
  rw [setLedger_ledger] at hcredits
  have hown : Spares (· = reserveKey t.taskID) l s'.base.ledger :=
    hcredits _ (fun k hk => ⟨_, .inl hk⟩) reserveKey_ne_creditKey.symm
  have hstays : Holds s'.base.ledger t (withStatus .settled r) := by
    obtain ⟨hmem, hnamed, hrid, hkey, hamount, haccount⟩ := hclosed
    exact ⟨(hown.reservations _ hkey).2 hmem, hnamed, hrid, hkey, hamount, haccount.spares hown⟩
  obtain ⟨hid, -, hwallet, -, hreservation⟩ := escrow_eq hescrow
  refine ⟨hpositive, ⟨⟨_, hstays.escrow hescrow, rfl⟩, ⟨x, hown.settlements x hsettlement.1, ?_,
    hsettlement.2.2⟩, executor, hassignee, ?_⟩, ?_, fun x hne => ?_⟩
  · rw [hsettlement.2.1, hreservation]
  · unfold CreditedOnce
    rw [hid, hwallet]
    exact hcredit
  · exact hown.sound ((hsettles (fun _ => False) (fun _ hk => hk.elim) id).sound h.sound)
  · have hno : ∀ k, TaskKey t.taskID k → ¬ TaskKey x k := fun k hk hk' => hne (hk'.id_eq hk)
    exact (hsettles _ (fun _ hk => hk.escrowKey) (hno _ (.inl rfl))).trans
      (hcredits _ (fun _ hk => hk.escrowKey) (hno _ (.inr rfl)))

theorem Kept.pay (h : Kept s) {executor amount : Int} (hrw : Rewritten s s' t t')
    (hescrow : escrow t' = escrow t) (hassignee : t'.assigneeUserID = some executor)
    (hbounded : 0 ≤ amount ∧ amount ≤ t.rewardAmount)
    (hstatus : t.status = .reviewing ∧ t'.status = .completed ∧ amount = t.rewardAmount ∨
      t.status = .disputed ∧ t'.status = .resolved ∧ (amount = t.rewardAmount ∨ 0 < amount))
    (hpaid : RewardPaid u s.base t executor amount s'.base) : Kept s' := by
  have hactive : active t.status = true := by
    rcases hstatus with ⟨hst, -⟩ | ⟨hst, -⟩ <;> rw [hst] <;> rfl
  have hamount : amount = t.rewardAmount ∨ 0 < amount := by
    rcases hstatus with ⟨-, -, heq⟩ | ⟨-, -, hamount⟩
    · exact .inl heq
    · exact hamount
  obtain ⟨hpositive, hpaidOut, hsound, hothers⟩ :=
    h.paidOut hrw hescrow hassignee hactive hamount hpaid
  have hreward' : t'.rewardAmount = t.rewardAmount := (escrow_eq hescrow).2.2.2.1
  refine h.rewrite hrw.rows hothers hsound (.paid amount ⟨hpositive, by omega⟩ ?_ hpaidOut)
    (fun _ _ _ hd => ?_) fun _ _ _ => ?_
  · rcases hstatus with ⟨-, hst, heq⟩ | ⟨-, hst, -⟩
    · exact .inl ⟨hst, by omega⟩
    · exact .inr hst
  · rcases hstatus with ⟨-, hst, -⟩ | ⟨-, hst, -⟩ <;> rw [hst] at hd <;> cases hd
  · rcases hstatus with ⟨-, hst, -⟩ | ⟨-, hst, -⟩
    · exact .inl hst
    · exact .inr hst

end Closing

section Steps

variable {s s' : Store} {now : Int} {u : Uuids} {k : Option String}

theorem timerResumed_escrow (now : Int) (t : BountyTask) : escrow (timerResumed now t) = escrow t := by
  unfold timerResumed
  cases t.pausedAt <;> rfl

theorem resumed_escrow (now : Int) (t : BountyTask) :
    escrow (resumed now t t) = escrow t ∧ (resumed now t t).status = t.status := by
  unfold resumed
  cases t.suspendedAt <;> exact ⟨rfl, rfl⟩

/-- Every effect keeps the escrows in line with the statuses. -/
theorem Kept.effect (h : Kept s) (hu : ∀ i, u i ≠ "") (he : Effect now u k s s') : Kept s' := by
  cases he with
  | quiet tasks base blocking =>
    obtain ⟨hsound, hstages, hholds, hcredits⟩ := h
    rw [← tasks] at hstages hholds hcredits
    rw [← base] at hsound hstages hholds hcredits
    exact ⟨hsound, hstages, hholds, hcredits⟩
  | drafted t new rows status unheld unpaused base blocking =>
    refine h.rewrite rows (fun x _ => ?_) ?_ (.draft status unheld fun r hr hkey => ?_)
      (fun r hr hkey => ?_) fun e he hkey => ?_
    · rw [base]
      exact .refl _ _
    · rw [base]
      exact h.sound
    · rw [base] at hr
      obtain ⟨t₀, ht₀, -⟩ := h.holds r hr t.taskID hkey
      rw [new] at ht₀
      cases ht₀
    · rw [base] at hr
      obtain ⟨t₀, ht₀, -⟩ := h.holds r hr t.taskID hkey
      rw [new] at ht₀
      cases ht₀
    · rw [base] at he
      obtain ⟨t₀, ht₀, -⟩ := h.credits e he t.taskID hkey
      rw [new] at ht₀
      cases ht₀
  | edited t input hrw status base blocking =>
    have hstage := h.stages _ t hrw.row
    cases hstage with
    | draft _ unheld unused =>
      exact h.rewrite_same hrw base (.draft status unheld unused) (fun _ => status) fun _ => rfl
    | held r hst =>
      rw [status] at hst
      cases hst
    | paid amount bounded hst =>
      rcases hst with ⟨hst, -⟩ | hst <;> rw [status] at hst <;> cases hst
    | released hst => rcases hst with hst | hst | hst <;> rw [status] at hst <;> cases hst
  | published v n t r drawn before rows status positive held blocking =>
    refine h.publish (u := v) (fun i => ?_) (before.imp_right And.left) rows status held
    rw [drawn]
    exact hu (n + i)
  | moved t t' hrw escrow pauses active unsuspended blocked base blocking =>
    exact h.rewrite_active hrw base escrow active.1 active.2
  | asked t hrw status base blocking opened =>
    refine h.rewrite_active hrw base rfl ?_ rfl
    rcases status with hst | hst <;> rw [hst] <;> rfl
  | unpaused t hrw active unsuspended base blocking was closed =>
    exact h.rewrite_active hrw base (timerResumed_escrow now t) active rfl
  | suspended t hrw active unsuspended base blocking =>
    exact h.rewrite_active hrw base rfl active rfl
  | resumed t hrw status asked base blocking =>
    obtain ⟨hescrow, hstatus⟩ := resumed_escrow now t
    have hactive : active t.status = true := by
      rw [status]
      rfl
    exact h.rewrite_active hrw base hescrow hactive (by rw [hstatus]; exact hactive)
  | paid t t' executor amount hrw escrow assignee positive bounded status paid blocking =>
    exact h.pay hrw escrow assignee.2 bounded status paid
  | released t t' hrw escrow active unsuspended status released blocking =>
    exact h.release hrw escrow active status released

end Steps

end CodeGo.Bounty.Escrow
