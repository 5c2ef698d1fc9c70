import CodeGo.Billing.Recorded
import CodeGo.Billing.Success
import CodeGo.Commerce.SubscriptionFunding
import CodeGo.Lib.Decimal

/-!
# What the funding of a subscription does

For the functions of `SubscriptionFunding`, the changes that a successful run makes
to the row of the subscription, to its pre-consume records and to the ledger. Later
results rest on these relations, not on the bodies.
-/

namespace CodeGo.Commerce.SubscriptionEffects

open Lib Lib.Prog Lib.Trim Billing.Schema Billing.Statements Billing.LedgerRuntime Billing.Effects
  Billing.Invariant Billing.Exec Billing.Recorded Billing.RequestTotals Schema SubscriptionRules
  SubscriptionFunding

section Support

variable {s s' : Store}

/-- The plan is found under a valid identifier. -/
def PlanFound (s : Store) (planID : Int) (plan : SubscriptionPlan) : Prop :=
  0 < planID ∧ s.plans.get? planID = some plan

theorem getSubscriptionPlanRecordTx_ok {planID : Int} {plan : SubscriptionPlan}
    (h : (getSubscriptionPlanRecordTx planID).run s = (.ok plan, s')) :
    PlanFound s planID plan ∧ s = s' := by
  obtain ⟨hpos, h⟩ := checked h
  obtain ⟨hplan, rfl⟩ := readOrFail_ok h
  exact ⟨⟨not_le.1 hpos, hplan⟩, rfl⟩

theorem ofExcept_ok {α : Type} {x : Except Err α} {a : α}
    (h : (ofExcept x).run s = (.ok a, s')) : x = .ok a ∧ s = s' := by
  cases x with
  | error e => cases h
  | ok b =>
    cases h
    exact ⟨rfl, rfl⟩

/-- The usage of a stored row changed by `delta`. -/
structure UsageSaved (s s' : Store) (id : Int) (model : String) (delta : Int)
    (sub sub' : UserSubscription) (plan : SubscriptionPlan) : Prop where
  current : s.subscriptions.get? id = some sub
  found : PlanFound s sub.planID plan
  applied : applySubscriptionUsageDelta plan sub model delta = .ok sub'
  state : s' = s.setSubscription sub'

theorem postConsumeUserSubscriptionUsageDeltaTx_ok {id : Int} {model : String} {delta : Int}
    (h : (postConsumeUserSubscriptionUsageDeltaTx id model delta).run s = (.ok (), s')) :
    ∃ sub sub' plan, UsageSaved s s' id model delta sub sub' plan := by
  obtain ⟨sub, s₁, ⟨hsub, rfl⟩, h⟩ := run_bind_of_ok h readOrFail_ok
  obtain ⟨plan, s₂, ⟨hplan, rfl⟩, h⟩ := run_bind_of_ok h getSubscriptionPlanRecordTx_ok
  obtain ⟨sub', s₃, ⟨happ, rfl⟩, h⟩ := run_bind_of_ok h ofExcept_ok
  cases h
  exact ⟨sub, sub', plan, hsub, hplan, happ, rfl⟩

theorem UsageSaved.used {id : Int} {model : String} {delta : Int} {sub sub' : UserSubscription}
    {plan : SubscriptionPlan} (h : UsageSaved s s' id model delta sub sub' plan) :
    Used plan sub sub' (trimSpace model) delta := (applySubscriptionUsageDelta_ok h.applied).1

theorem terms_id {sub sub' : UserSubscription} (h : terms sub' = terms sub) : sub'.id = sub.id := by
  have hid : (terms sub').id = (terms sub).id := congrArg UserSubscription.id h
  exact hid

theorem planID_of_terms {sub sub' : UserSubscription} (h : terms sub' = terms sub) :
    sub'.planID = sub.planID := by
  have hplan : (terms sub').planID = (terms sub).planID := congrArg UserSubscription.planID h
  exact hplan

theorem UsageSaved.id_eq {id : Int} {model : String} {delta : Int} {sub sub' : UserSubscription}
    {plan : SubscriptionPlan} (h : UsageSaved s s' id model delta sub sub' plan) : sub'.id = id :=
  (terms_id h.used.terms).trans (Table.pk_of_get? h.current)

/-- The row that a change of usage leaves, and the other rows. -/
theorem UsageSaved.get? {id : Int} {model : String} {delta : Int} {sub sub' : UserSubscription}
    {plan : SubscriptionPlan} (h : UsageSaved s s' id model delta sub sub' plan) (id' : Int) :
    s'.subscriptions.get? id' = if id' = id then some sub' else s.subscriptions.get? id' := by
  have hid := h.id_eq
  rw [h.state, get?_setSubscription (by rw [hid]; exact h.current), hid]

end Support

section Resets

/-- The account of the subscription was granted what it misses to a target. -/
inductive ToppedUp (l l' : Ledger) (id : Int) (key : String)
    (target : BillingBalanceSnapshot → Int) : Prop
  | enough (a : BillingAccount) (h : AccountRecorded l l' (subscriptionAccount id) a)
      (hle : target (l'.stored a.accountID) ≤ (l'.stored a.accountID).availableBalance)
  | granted (a : BillingAccount) (l₁ : Ledger) (p : CreditAccountParams) (e : BillingLedgerEntry)
      (h : AccountRecorded l l₁ (subscriptionAccount id) a) (hacc : p.accountID = a.accountID)
      (ham : p.amount =
        target (l₁.stored a.accountID) - (l₁.stored a.accountID).availableBalance)
      (hkey : p.idempotencyKey = key) (hc : CreditRecorded l₁ l' p e)

/-- What the account of a row is to hold after a reset. -/
def resetTarget (sub : UserSubscription) (snapshot : BillingBalanceSnapshot) : Int :=
  sub.amountTotal - sub.amountUsed - snapshot.reservedBalance

def resetKey (sub : UserSubscription) (operationKey : String) : String :=
  "subscription-reset-balance:" ++ toString sub.id ++ ":" ++ operationKey

variable {s s' : Store} {cal : Calendar} {u : Uuids} {plan : SubscriptionPlan}
  {sub sub' : UserSubscription} {now : Int}

theorem lockSnapshot_ok {a : String} {l l' : Ledger} {row : BillingBalanceSnapshot}
    (h : (lockSnapshot a).run l = (.ok row, l')) : row = l.stored a ∧ l = l' := by
  rw [lockSnapshot, run_selectForUpdate] at h
  cases hr : l.snapshots.get? a with
  | none =>
    rw [hr] at h
    cases h
  | some r =>
    rw [hr] at h
    cases h
    exact ⟨by rw [Ledger.stored, hr, Option.getD_some], rfl⟩

theorem restoreSubscriptionLedgerBalanceAfterResetTx_ok {operationKey : String}
    (h : (restoreSubscriptionLedgerBalanceAfterResetTx u sub operationKey).run s = (.ok (), s')) :
    (sub.id ≤ 0 ∨ sub.amountTotal ≤ 0) ∧ s = s' ∨
      0 < sub.amountTotal ∧ ∃ l, s' = s.setLedger l ∧
        ToppedUp s.ledger l sub.id (resetKey sub operationKey) (resetTarget sub) := by
  unfold restoreSubscriptionLedgerBalanceAfterResetTx at h
  split at h
  next hskip =>
    cases h
    exact .inl ⟨hskip, rfl⟩
  next hneeded =>
    simp only [not_or, not_le] at hneeded
    obtain ⟨a, s₁, ⟨l₁, ha, rfl⟩, h⟩ := run_bind_of_ok h ledgerTx_ok
    obtain ⟨row, s₂, ⟨l₂, hrow, rfl⟩, h⟩ := run_bind_of_ok h ledgerTx_ok
    obtain ⟨rfl, rfl⟩ := lockSnapshot_ok hrow
    have hacc := ensureBillingAccount_ok ha
    refine .inr ⟨hneeded.2, ?_⟩
    dsimp only at h
    split at h
    next hle =>
      cases h
      exact ⟨l₁, rfl, .enough a hacc hle⟩
    next hlt =>
      obtain ⟨e, s₃, ⟨l₃, he, rfl⟩, h⟩ := run_bind_of_ok h ledgerTx_ok
      cases h
      exact ⟨l₃, rfl, .granted a l₁ _ e hacc rfl rfl rfl (creditAccount_ok he)⟩

/-- The outcome of a look at the reset of a row: none was due, or the row starts a new period. -/
inductive ResetOutcome (cal : Calendar) (plan : SubscriptionPlan) (sub : UserSubscription)
    (now : Int) (sub' : UserSubscription) (s s' : Store) : Prop
  | kept (hdue : resetDue cal plan sub now = false)
      (hsub : ∃ base next, sub' = { sub with lastResetTime := base, nextResetTime := next })
      (hs : s' = s ∧ sub' = sub ∨ s' = s.setSubscription sub')
      (hbase : resetBase sub' = resetBase sub)
  | reset (hdue : resetDue cal plan sub now = true) (base next : Int)
      (hlater : resetBase sub < resetBase sub') (hsub : sub' = resetUsage plan sub base next) (l : Ledger)
      (hledger : (usesLegacySubscriptionPeriodicQuota plan sub = false ∨ sub.id ≤ 0) ∧ l = s.ledger ∨
        usesLegacySubscriptionPeriodicQuota plan sub ∧
        ToppedUp s.ledger l sub'.id
          (resetKey sub' ("periodic:" ++ toString sub.id ++ ":" ++ toString base))
          (resetTarget sub'))
      (hs : s' = (s.setLedger l).setSubscription sub')

/-- The loop moves on to a later reset than the one before. -/
theorem advanceReset_le (cal : Calendar) (plan : SubscriptionPlan) (endUnix now base next : Int)
    (h : base < next) : base ≤ (advanceReset cal plan endUnix now base next).1 := by
  induction base, next using advanceReset.induct cal plan endUnix now with
  | case1 base next hdue ih =>
    rw [advanceReset, dif_pos hdue]
    rcases calcNextSubscriptionResetTime_gt cal next plan endUnix with hzero | hgt
    · rw [hzero, advanceReset, dif_neg (by omega)]
      exact h.le
    · have := ih hgt
      omega
  | case2 base next hdue =>
    rw [advanceReset, dif_neg hdue]

theorem lt_advanceReset (hdue : resetDue cal plan sub now = true) :
    resetBase sub < (advanceReset cal plan sub.endTime now (resetBase sub) (nextReset cal plan sub)).1 ∧
      0 < (advanceReset cal plan sub.endTime now (resetBase sub) (nextReset cal plan sub)).1 := by
  simp only [resetDue, Bool.and_eq_true, decide_eq_true_eq] at hdue
  obtain ⟨⟨-, hpos⟩, hle⟩ := hdue
  have hgt : resetBase sub < nextReset cal plan sub := by
    rcases calcNextSubscriptionResetTime_gt cal (resetBase sub) plan sub.endTime with hzero | hgt
    · unfold nextReset at hpos
      omega
    · exact hgt
  rw [advanceReset, dif_pos ⟨hpos, hle⟩]
  rcases calcNextSubscriptionResetTime_gt cal (nextReset cal plan sub) plan sub.endTime with hz | hn
  · rw [hz, advanceReset, dif_neg (by omega)]
    exact ⟨hgt, hpos⟩
  · have := advanceReset_le cal plan sub.endTime now _ _ hn
    omega

/-- A row that is stored with the reset it accounts for accounts for the same. -/
theorem resetBase_of_kept {next : Int}
    (hsub : sub' = { sub with lastResetTime := resetBase sub, nextResetTime := next }) :
    resetBase sub' = resetBase sub := by
  rw [hsub]
  by_cases h : sub.lastResetTime ≤ 0 ∨ (0 < sub.startTime ∧ sub.lastResetTime < sub.startTime)
  · simp only [resetBase, if_pos h]
    split <;> rfl
  · simp only [resetBase, if_neg h]

/-- A row accounts for a reset that it moved on to. -/
theorem resetBase_of_later {base next : Int} (hsub : sub' = resetUsage plan sub base next)
    (hlater : resetBase sub < base) (hpos : 0 < base) : resetBase sub' = base := by
  have hlast : sub'.lastResetTime = base ∧ sub'.startTime = sub.startTime := by
    rw [hsub]
    unfold resetUsage
    split <;> exact ⟨rfl, rfl⟩
  unfold resetBase at hlater ⊢
  rw [hlast.1, hlast.2]
  split at hlater <;> rw [if_neg (by omega)]

theorem recordResetTimes_ok {base next : Int}
    (h : (recordResetTimes sub base next).run s = (.ok sub', s')) :
    (∃ base next, sub' = { sub with lastResetTime := base, nextResetTime := next }) ∧
      (s' = s ∧ sub' = sub ∨ s' = s.setSubscription sub') := by
  unfold recordResetTimes at h
  split at h
  next =>
    obtain ⟨_, s₁, h₁, h⟩ := run_bind_eq_ok h
    cases h₁
    cases h
    exact ⟨⟨base, next, rfl⟩, .inr rfl⟩
  next =>
    cases h
    exact ⟨⟨sub.lastResetTime, sub.nextResetTime, rfl⟩, .inl ⟨rfl, rfl⟩⟩

theorem recordResetTimes_base {next : Int}
    (h : (recordResetTimes sub (resetBase sub) next).run s = (.ok sub', s')) :
    resetBase sub' = resetBase sub := by
  unfold recordResetTimes at h
  split at h
  next =>
    obtain ⟨_, s₁, h₁, h⟩ := run_bind_eq_ok h
    cases h
    exact resetBase_of_kept rfl
  next =>
    cases h
    rfl

theorem resetUsage_terms (base next : Int) : terms (resetUsage plan sub base next) = terms sub := by
  unfold resetUsage
  split <;> rfl

theorem maybeResetUserSubscriptionWithPlanTx_ok
    (h : (maybeResetUserSubscriptionWithPlanTx cal u sub plan now).run s = (.ok sub', s')) :
    ResetOutcome cal plan sub now sub' s s' := by
  unfold maybeResetUserSubscriptionWithPlanTx at h
  split at h
  next hnever =>
    cases h
    refine .kept ?_ ⟨sub.lastResetTime, sub.nextResetTime, rfl⟩ (.inl ⟨rfl, rfl⟩) rfl
    simp [resetDue, hnever]
  next hperiod =>
  split at h
  next hnot =>
    obtain ⟨hsub, hs⟩ := recordResetTimes_ok h
    refine .kept ?_ hsub hs (recordResetTimes_base h)
    simp only [resetDue, Bool.and_eq_false_iff, decide_eq_false_iff_not]
    omega
  next hnext =>
  split at h
  next hneg =>
    cases h
    refine .kept ?_ ⟨sub.lastResetTime, sub.nextResetTime, rfl⟩ (.inl ⟨rfl, rfl⟩) rfl
    simp only [resetDue, Bool.and_eq_false_iff, decide_eq_false_iff_not]
    omega
  next hpos =>
    have hdue : resetDue cal plan sub now = true := by
      simp only [resetDue, Bool.and_eq_true, decide_eq_true_eq]
      exact ⟨⟨hperiod, by omega⟩, by omega⟩
    obtain ⟨hlater, hpositive⟩ := lt_advanceReset hdue
    have hbase {sub' : UserSubscription} {next : Int} (hsub : sub' = resetUsage plan sub
        (advanceReset cal plan sub.endTime now (resetBase sub) (nextReset cal plan sub)).1 next) :
        resetBase sub < resetBase sub' := by
      rw [resetBase_of_later hsub hlater hpositive]
      exact hlater
    dsimp only at h
    split at h
    next hlegacy =>
      obtain ⟨_, s₁, h₁, h⟩ := run_bind_eq_ok h
      obtain ⟨_, s₂, h₂, h⟩ := run_bind_eq_ok h
      cases h₂
      cases h
      rcases restoreSubscriptionLedgerBalanceAfterResetTx_ok h₁ with ⟨hskip, rfl⟩ | ⟨-, l, rfl, hl⟩
      · have hid : sub.id ≤ 0 := by
          have hterms : terms (resetUsage plan sub
              (advanceReset cal plan sub.endTime now (resetBase sub) (nextReset cal plan sub)).1
              (advanceReset cal plan sub.endTime now (resetBase sub) (nextReset cal plan sub)).2) =
              terms sub := resetUsage_terms _ _
          obtain ⟨hid, htotal, -⟩ := rules_of_terms plan hterms
          rw [hid, htotal] at hskip
          simp only [usesLegacySubscriptionPeriodicQuota, Bool.and_eq_true, decide_eq_true_eq]
            at hlegacy
          omega
        exact .reset hdue _ _ (hbase rfl) rfl s.ledger (.inl ⟨.inr hid, rfl⟩) rfl
      · exact .reset hdue _ _ (hbase rfl) rfl l (.inr ⟨hlegacy, hl⟩) rfl
    next hnot =>
      obtain ⟨_, s₂, h₂, h⟩ := run_bind_eq_ok h
      cases h₂
      cases h
      exact .reset hdue _ _ (hbase rfl) rfl s.ledger (.inl ⟨.inl (by simpa using hnot), rfl⟩) rfl

theorem ResetOutcome.terms_eq (h : ResetOutcome cal plan sub now sub' s s') :
    terms sub' = terms sub := by
  cases h with
  | kept hdue hsub hs =>
    obtain ⟨base, next, rfl⟩ := hsub
    rfl
  | reset hdue base next hlater hsub l hledger hs =>
    rw [hsub, resetUsage_terms]

theorem ResetOutcome.id_eq (h : ResetOutcome cal plan sub now sub' s s') : sub'.id = sub.id :=
  terms_id h.terms_eq

theorem ResetOutcome.plans_eq (h : ResetOutcome cal plan sub now sub' s s') :
    s'.plans = s.plans := by
  cases h with
  | kept hdue hsub hs =>
    rcases hs with ⟨rfl, -⟩ | rfl
    · rfl
    · rfl
  | reset hdue base next hlater hsub l hledger hs =>
    rw [hs]
    rfl

theorem ResetOutcome.preConsumes_eq (h : ResetOutcome cal plan sub now sub' s s') :
    s'.preConsumes = s.preConsumes := by
  cases h with
  | kept hdue hsub hs =>
    rcases hs with ⟨rfl, -⟩ | rfl
    · rfl
    · rfl
  | reset hdue base next hlater hsub l hledger hs =>
    rw [hs]
    rfl

theorem ResetOutcome.get? (h : ResetOutcome cal plan sub now sub' s s')
    (hrow : s.subscriptions.get? sub.id = some sub) (id : Int) :
    s'.subscriptions.get? id = if id = sub.id then some sub' else s.subscriptions.get? id := by
  have hid := h.id_eq
  cases h with
  | kept hdue hsub hs =>
    rcases hs with ⟨rfl, rfl⟩ | rfl
    · split
      next e => rw [e, hrow]
      next => rfl
    · rw [get?_setSubscription (by rw [hid]; exact hrow), hid]
  | reset hdue base next hlater hsub l hledger hs =>
    rw [hs, get?_setSubscription (by rw [hid]; exact hrow), hid]
    rfl

theorem ToppedUp.sound {l l' : Ledger} {id : Int} {key : String}
    {target : BillingBalanceSnapshot → Int} (h : ToppedUp l l' id key target) (hl : Sound l) :
    Sound l' := by
  cases h with
  | enough a h hle => exact h.sound hl
  | granted a l₁ p e h hacc ham hkey hc => exact hc.sound (h.sound hl)

/-- Grants leave reservations and settlements alone. -/
theorem ToppedUp.records_eq {l l' : Ledger} {id : Int} {key : String}
    {target : BillingBalanceSnapshot → Int} (h : ToppedUp l l' id key target) :
    l'.reservations = l.reservations ∧ l'.settlements = l.settlements := by
  cases h with
  | enough a h hle => exact ⟨h.ensured.reservations, h.ensured.settlements⟩
  | granted a l₁ p e h hacc ham hkey hc =>
    rw [hc.records_eq.1, hc.records_eq.2]
    exact ⟨h.ensured.reservations, h.ensured.settlements⟩

theorem ResetOutcome.sound (h : ResetOutcome cal plan sub now sub' s s') (hs : Sound s.ledger) :
    Sound s'.ledger := by
  cases h with
  | kept hdue hsub hs' =>
    rcases hs' with ⟨rfl, -⟩ | rfl
    · exact hs
    · exact hs
  | reset hdue base next hlater hsub l hledger hs' =>
    rw [hs']
    rcases hledger with ⟨-, rfl⟩ | ⟨-, hl⟩
    · exact hs
    · exact hl.sound hs

theorem ResetOutcome.records_eq (h : ResetOutcome cal plan sub now sub' s s') :
    s'.ledger.reservations = s.ledger.reservations ∧
      s'.ledger.settlements = s.ledger.settlements := by
  cases h with
  | kept hdue hsub hs' =>
    rcases hs' with ⟨rfl, -⟩ | rfl
    · exact ⟨rfl, rfl⟩
    · exact ⟨rfl, rfl⟩
  | reset hdue base next hlater hsub l hledger hs' =>
    rw [hs']
    rcases hledger with ⟨-, rfl⟩ | ⟨-, hl⟩
    · exact ⟨rfl, rfl⟩
    · exact hl.records_eq

end Resets

section PreConsume

variable {s s' : Store} {cal : Calendar} {u : Uuids} {plan : SubscriptionPlan}
  {sub : UserSubscription} {now : Int} {record : SubscriptionPreConsumeRecord}
  {res : SubscriptionPreConsumeResult}

def bootstrapKey (subscriptionID : Int) : String :=
  "subscription-bootstrap:" ++ toString subscriptionID

/-- An account without entries is granted what the row has left. -/
inductive Bootstrapped (l l' : Ledger) (sub : UserSubscription) (accountID : String) : Prop
  | kept (h : (∃ e ∈ l.entries, e.accountID = accountID) ∨ sub.amountTotal ≤ sub.amountUsed)
      (hl : l = l')
  | granted (hnone : ∀ e ∈ l.entries, e.accountID ≠ accountID) (p : CreditAccountParams)
      (e : BillingLedgerEntry) (hacc : p.accountID = accountID)
      (ham : p.amount = sub.amountTotal - sub.amountUsed)
      (hkey : p.idempotencyKey = bootstrapKey sub.id) (hc : CreditRecorded l l' p e)

/-- The hold that the first amount of a request takes. -/
def reserveParams (accountID : String) (record : SubscriptionPreConsumeRecord) :
    CreateReservationParams where
  accountID := accountID
  requestID := record.requestID
  reservedAmount := record.preConsumed
  idempotencyKey := "subscription:" ++ record.requestID ++ ":reserve"

/-- The row reserves the first amount of a request; `id` names the hold. -/
inductive LedgerReserved (id : String) (l l' : Ledger) (sub : UserSubscription)
    (record : SubscriptionPreConsumeRecord) : Prop
  | mk (a : BillingAccount) (l₁ l₂ : Ledger) (r : BillingReservation)
      (account : AccountRecorded l l₁ (subscriptionAccount sub.id) a)
      (bootstrapped : Bootstrapped l₁ l₂ sub a.accountID)
      (reserved : ReservationRecorded id l₂ l' (reserveParams a.accountID record) r)

theorem countP_eq_zero {l : Ledger} {a : String} :
    l.entries.rows.countP (fun e => decide (e.accountID = a)) = 0 ↔
      ∀ e ∈ l.entries, e.accountID ≠ a := by
  simp only [List.countP_eq_zero, decide_eq_true_eq]
  exact Iff.rfl

theorem bootstrapIfEmptyTx_ok {accountID requestID : String}
    (h : (bootstrapIfEmptyTx u sub accountID requestID).run s = (.ok (), s')) :
    ∃ l, s' = s.setLedger l ∧ Bootstrapped s.ledger l sub accountID := by
  obtain ⟨n, s₁, ⟨l₁, hcount, rfl⟩, h⟩ := run_bind_of_ok h ledgerTx_ok
  cases hcount
  split at h
  next hzero =>
    unfold bootstrapSubscriptionLedgerTx at h
    split at h
    next =>
      obtain ⟨e, s₂, ⟨l₂, he, rfl⟩, h⟩ := run_bind_of_ok h ledgerTx_ok
      cases h
      exact ⟨l₂, rfl, .granted (countP_eq_zero.1 hzero) _ e rfl rfl rfl (creditAccount_ok he)⟩
    next hleft =>
      cases h
      exact ⟨s.ledger, rfl, .kept (.inr (by omega)) rfl⟩
  next hsome =>
    cases h
    rw [countP_eq_zero] at hsome
    push Not at hsome
    exact ⟨s.ledger, rfl, .kept (.inl hsome) rfl⟩

theorem reserveSubscriptionLedgerTx_ok
    (h : (reserveSubscriptionLedgerTx u sub record).run s = (.ok (), s')) :
    ∃ l, s' = s.setLedger l ∧ (sub.amountTotal ≤ 0 ∧ l = s.ledger ∨
      0 < sub.amountTotal ∧ LedgerReserved (u 3) s.ledger l sub record) := by
  unfold reserveSubscriptionLedgerTx at h
  split at h
  next hunlimited =>
    cases h
    exact ⟨s.ledger, rfl, .inl ⟨hunlimited, rfl⟩⟩
  next hlimited =>
    obtain ⟨a, s₁, ⟨l₁, ha, rfl⟩, h⟩ := run_bind_of_ok h ledgerTx_ok
    obtain ⟨_, s₂, ⟨l₂, rfl, hboot⟩, h⟩ := run_bind_of_ok h bootstrapIfEmptyTx_ok
    obtain ⟨r, s₃, ⟨l₃, hr, rfl⟩, h⟩ := run_bind_of_ok h ledgerTx_ok
    cases h
    refine ⟨l₃, rfl, .inr ⟨not_le.1 hlimited, ?_⟩⟩
    exact .mk a l₁ l₂ r (ensureBillingAccount_ok ha) hboot (createReservation_ok hr)

/-- A candidate was charged for a request that was not recorded before. -/
inductive Consumed (id : String) (s s' : Store) (plan : SubscriptionPlan) (sub : UserSubscription)
    (record : SubscriptionPreConsumeRecord) (res : SubscriptionPreConsumeResult) : Prop
  | mk (t : Table SubscriptionPreConsumeRecord) (l : Ledger) (used : UserSubscription)
      (recorded : s.preConsumes.insert? record = some t)
      (reserved : sub.amountTotal ≤ 0 ∧ l = s.ledger ∨
        0 < sub.amountTotal ∧ LedgerReserved id s.ledger l sub record)
      (applied : applySubscriptionUsageDelta plan sub record.modelName record.preConsumed = .ok used)
      (state : s' = ({ s with preConsumes := t }.setLedger l).setSubscription used)
      (result : res = ⟨sub.id, record.preConsumed, sub.amountTotal, sub.amountUsed, used.amountUsed⟩)

theorem consumeCandidate_ok (h : (consumeCandidate u plan sub record).run s = (.ok res, s'))
    (hnew : s.preConsumes.get? record.requestID = none) :
    Consumed (u 3) s s' plan sub record res := by
  have hinsert : (s.preConsumes.insert? record).isSome := by
    rw [Table.insert?_isSome_iff]
    intro r hr
    exact decide_eq_false (Table.get?_eq_none.1 hnew r hr)
  obtain ⟨t, ht⟩ := Option.isSome_iff_exists.1 hinsert
  have hcreate : (createPreConsume record).attempt.run s =
      (.ok (.ok ()), { s with preConsumes := t }) := by
    rw [run_attempt, createPreConsume, writeTable, run_stepE, ht]
  unfold consumeCandidate at h
  rw [run_bind_ok hcreate] at h
  obtain ⟨_, s₂, ⟨l, rfl, hl⟩, h⟩ := run_bind_of_ok h reserveSubscriptionLedgerTx_ok
  obtain ⟨used, s₃, ⟨happ, rfl⟩, h⟩ := run_bind_of_ok h ofExcept_ok
  obtain ⟨_, s₄, hsave, h⟩ := run_bind_eq_ok h
  cases hsave
  cases h
  exact .mk t l used ht hl happ rfl rfl

/-- Candidates other than `id` were passed over, after a look at the reset of each. -/
inductive Skipped (id : Int) (cal : Calendar) (now : Int) : Store → Store → Prop
  | refl (s : Store) : Skipped id cal now s s
  | step {s s₁ s' : Store} {plan : SubscriptionPlan} {sub sub' : UserSubscription}
      (hplan : PlanFound s sub.planID plan)
      (hrow : s.subscriptions.get? sub.id = some sub) (hne : sub.id ≠ id)
      (h : ResetOutcome cal plan sub now sub' s s₁) (rest : Skipped id cal now s₁ s') :
      Skipped id cal now s s'

/-- A request was charged to the candidate `c`, whose row is `sub` after a look at its reset. -/
inductive PreConsumed (id : String) (cal : Calendar) (now : Int) (record : SubscriptionPreConsumeRecord)
    (c : UserSubscription) (plan : SubscriptionPlan) (s s' : Store)
    (res : SubscriptionPreConsumeResult) : Prop
  | mk (s₁ s₂ : Store) (sub : UserSubscription) (skipped : Skipped c.id cal now s s₁)
      (before : s.subscriptions.get? c.id = some c)
      (current : s₁.subscriptions.get? c.id = some c) (found : PlanFound s c.planID plan)
      (reset : ResetOutcome cal plan c now sub s₁ s₂)
      (admitted : admits plan sub record.modelName record.preConsumed = true)
      (consumed : Consumed id s₂ s' plan sub { record with userSubscriptionID := sub.id } res)

theorem tryCandidates_ok {subs : List UserSubscription}
    (hrows : ∀ c ∈ subs, s.subscriptions.get? c.id = some c)
    (hnodup : (subs.map UserSubscription.id).Nodup)
    (hnew : s.preConsumes.get? record.requestID = none)
    (h : (tryCandidates cal u now record subs).run s = (.ok res, s')) :
    ∃ c ∈ subs, ∃ plan, ∃ i < 9 * subs.length,
      PreConsumed (u i) cal now record c plan s s' res := by
  induction subs generalizing s u with
  | nil => cases h
  | cons c rest ih =>
    obtain ⟨hhead, htail⟩ := List.nodup_cons.1 hnodup
    have hrow := hrows c (.head _)
    unfold tryCandidates at h
    obtain ⟨chosen, s₁, htry, h⟩ := run_bind_eq_ok h
    unfold tryCandidate at htry
    obtain ⟨plan, s₂, ⟨hplan, rfl⟩, htry⟩ := run_bind_of_ok htry getSubscriptionPlanRecordTx_ok
    obtain ⟨sub, s₃, hrun, htry⟩ := run_bind_eq_ok htry
    have hreset := maybeResetUserSubscriptionWithPlanTx_ok hrun
    split at htry
    next hadmits =>
      obtain ⟨res', s₄, hrun, htry⟩ := run_bind_eq_ok htry
      cases htry
      cases h
      have hnew' : s₃.preConsumes.get? record.requestID = none := by
        rw [hreset.preConsumes_eq]
        exact hnew
      refine ⟨c, .head _, plan, 6, by simp only [List.length_cons]; omega, ?_⟩
      have hconsumed := consumeCandidate_ok hrun hnew'
      exact .mk s s₃ sub (.refl s) hrow hrow hplan hreset hadmits hconsumed
    next hrefused =>
      -- the rows of the other candidates are untouched
      cases htry
      have hne : ∀ c' ∈ rest, c'.id ≠ c.id := by
        intro c' hc' e
        exact hhead (List.mem_map.2 ⟨c', hc', e⟩)
      have hrows' : ∀ c' ∈ rest, s₁.subscriptions.get? c'.id = some c' := by
        intro c' hc'
        rw [hreset.get? hrow, if_neg (hne c' hc')]
        exact hrows c' (.tail _ hc')
      have hnew' : s₁.preConsumes.get? record.requestID = none := by
        rw [hreset.preConsumes_eq]
        exact hnew
      obtain ⟨c', hc', plan', i, hi, hpre⟩ := ih hrows' htail hnew' h
      obtain ⟨s₄, s₅, sub', skipped, -, current, found, reset, admitted, consumed⟩ := hpre
      refine ⟨c', .tail _ hc', plan', 9 + i, by simp only [List.length_cons]; omega, ?_⟩
      rw [PlanFound, hreset.plans_eq] at found
      have hskipped := Skipped.step hplan hrow (Ne.symm (hne c' hc')) hreset skipped
      exact .mk s₄ s₅ sub' hskipped (hrows c' (.tail _ hc')) current found reset admitted consumed

/-- The request as `PreConsumeUserSubscription` records it, but for the subscription. -/
def newRecord (requestID : String) (userID : Int) (modelName : String) (amount : Int) :
    SubscriptionPreConsumeRecord where
  requestID := requestID
  userID := userID
  userSubscriptionID := 0
  modelName := trimSpace modelName
  preConsumed := amount
  status := .consumed

theorem preConsumeUserSubscription_ok {requestID modelName : String} {userID amount : Int}
    (hnew : s.preConsumes.get? requestID = none)
    (h : (preConsumeUserSubscription cal u now requestID userID modelName amount).run s =
      (.ok res, s')) :
    0 < amount ∧ ∃ c plan, ∃ i < 9 * (activeSubscriptions userID now s).length, c.userID = userID ∧
      PreConsumed (u i) cal now (newRecord requestID userID modelName amount) c plan s s' res := by
  obtain ⟨-, h⟩ := checked h
  obtain ⟨-, h⟩ := checked h
  obtain ⟨hpos, h⟩ := checked h
  refine ⟨not_le.1 hpos, ?_⟩
  obtain ⟨found, s₁, ⟨rfl, rfl⟩, h⟩ := run_bind_of_ok h read_ok
  rw [findPreConsume, hnew] at h
  obtain ⟨subs, s₂, ⟨hsubs, rfl⟩, h⟩ := run_bind_of_ok h read_ok
  cases subs with
  | nil => cases h
  | cons first rest =>
    obtain ⟨ordered, s₃, ⟨hordered, rfl⟩, h⟩ := run_bind_of_ok h read_ok
    have hperm : ordered.Perm (activeSubscriptions userID now s) := by
      rw [hordered, ← hsubs]
      apply List.perm_insertionSort
    have hmem : ∀ c ∈ ordered, c ∈ s.subscriptions ∧ c.userID = userID := by
      intro c hc
      have hfilter := hperm.mem_iff.1 hc
      rw [activeSubscriptions, List.mem_filter] at hfilter
      simp only [Bool.and_eq_true, decide_eq_true_eq] at hfilter
      exact ⟨hfilter.1, hfilter.2.1.1⟩
    have hnodup : (ordered.map UserSubscription.id).Nodup := by
      rw [(hperm.map _).nodup_iff, activeSubscriptions]
      apply List.Nodup.sublist ((List.filter_sublist).map _)
      rw [List.Nodup, List.pairwise_map]
      exact s.subscriptions.distinct.imp fun h => of_decide_eq_false h
    obtain ⟨c, hc, plan, i, hi, hpre⟩ := tryCandidates_ok
      (fun c hc => Table.get?_of_mem (hmem c hc).1) hnodup hnew h
    exact ⟨c, plan, i, by rw [← hperm.length_eq]; exact hi, (hmem c hc).2, hpre⟩

end PreConsume

section Reserve

variable {s s' : Store} {u : Uuids} {now : Int} {requestID modelName : String} {id amount : Int}

/-- The hold that a further amount of a request takes. -/
def reserveExtraParams (accountID requestID : String) (amount : Int) : CreateReservationParams where
  accountID := accountID
  requestID := requestID
  reservedAmount := amount
  idempotencyKey := "subscription:" ++ requestID ++ ":reserve-extra:" ++ toString amount

/-- A further amount was recorded as usage and reserved. -/
inductive ExtraReserved (s s' : Store) (requestID : String) (id : Int) (modelName : String)
    (amount : Int) : Prop
  | mk (sub sub' : UserSubscription) (plan : SubscriptionPlan) (s₁ : Store) (a : BillingAccount)
      (l₁ l : Ledger) (r : BillingReservation) (id' : String)
      (used : UsageSaved s s₁ id modelName amount sub sub' plan)
      (account : AccountRecorded s.ledger l₁ (subscriptionAccount id) a)
      (reserved : ReservationRecorded id' l₁ l (reserveExtraParams a.accountID requestID amount) r)
      (state : s' = s₁.setLedger l)

theorem reserveAdditionalSubscriptionQuota_ok
    (h : (reserveAdditionalSubscriptionQuota u now requestID id modelName amount).run s =
      (.ok (), s')) :
    0 < amount ∧ ExtraReserved s s' requestID id modelName amount := by
  obtain ⟨hargs, h⟩ := checked h
  obtain ⟨sub, s₁, ⟨hsub, rfl⟩, h⟩ := run_bind_of_ok h readOrFail_ok
  obtain ⟨-, h⟩ := checked h
  obtain ⟨plan, s₂, ⟨hplan, rfl⟩, h⟩ := run_bind_of_ok h getSubscriptionPlanRecordTx_ok
  obtain ⟨sub', s₃, ⟨happ, rfl⟩, h⟩ := run_bind_of_ok h ofExcept_ok
  obtain ⟨_, s₄, hsave, h⟩ := run_bind_eq_ok h
  cases hsave
  obtain ⟨a, s₅, ⟨l₁, ha, rfl⟩, h⟩ := run_bind_of_ok h ledgerTx_ok
  obtain ⟨r, s₆, ⟨l₂, hr, rfl⟩, h⟩ := run_bind_of_ok h ledgerTx_ok
  cases h
  refine ⟨by omega, ?_⟩
  exact .mk sub sub' plan _ a l₁ l₂ r (u 1) ⟨hsub, hplan, happ, rfl⟩ (ensureBillingAccount_ok ha)
    (createReservation_ok hr) rfl

end Reserve

section Close

/-- The open reservations are released one after the other. -/
inductive ReleasedAll : Ledger → List BillingReservation → Ledger → Prop
  | nil (l : Ledger) : ReleasedAll l [] l
  | cons {l l₁ l' : Ledger} {r : BillingReservation} {rest : List BillingReservation}
      {e : BillingLedgerEntry} (h : Released l l₁ r e) (hrest : ReleasedAll l₁ rest l') :
      ReleasedAll l (r :: rest) l'

/-- The open reservations are settled one after the other; `remaining` and `left` are what is to
be charged before and after. -/
inductive SettledAll : Ledger → List BillingReservation → Int → Ledger → Int → Prop
  | nil (l : Ledger) (remaining : Int) : SettledAll l [] remaining l remaining
  | cons {l l₁ l' : Ledger} {r : BillingReservation} {rest : List BillingReservation}
      {s : BillingSettlement} {id : String} {remaining left : Int} (h : Settled l l₁ r s)
      (he : SettleEntries l.entries l₁.entries id r.accountID s
        (l₁.stored r.accountID).availableBalance)
      (hs : s.actualAmount = settledShare remaining r.reservedAmount rest.isEmpty)
      (hrest : SettledAll l₁ rest (max 0 (remaining - s.actualAmount)) l' left) :
      SettledAll l (r :: rest) remaining l' left

/-- The reservations are open, and no two are the same. -/
structure AllOpen (l : Ledger) (rs : List BillingReservation) : Prop where
  current : ∀ r ∈ rs, l.reservations.get? r.reservationID = some r
  status : ∀ r ∈ rs, r.status = .open
  nodup : (rs.map BillingReservation.reservationID).Nodup

variable {s s' : Store} {l l' : Ledger} {u : Uuids} {requestID : String}

theorem allOpen_openReservations (requestID : String) (l : Ledger) :
    AllOpen l (openReservations requestID l) := by
  have hfilter : ∀ r ∈ openReservations requestID l, r ∈ l.reservations ∧ r.status = .open := by
    intro r hr
    rw [openReservations, List.mem_filter] at hr
    simp only [Bool.and_eq_true, decide_eq_true_eq] at hr
    exact ⟨hr.1, hr.2.2⟩
  constructor
  · exact fun r hr => Table.get?_of_mem (hfilter r hr).1
  · exact fun r hr => (hfilter r hr).2
  · apply List.Nodup.sublist ((List.filter_sublist).map _)
    rw [List.Nodup, List.pairwise_map]
    apply l.reservations.distinct.imp
    intro r r' hclash e
    rw [Indexed.clash_of_pk r r' e] at hclash
    cases hclash

/-- Closing the first reservation leaves the rest open. -/
theorem AllOpen.tail {r : BillingReservation} {rest : List BillingReservation}
    {st : ReservationStatus} (h : AllOpen l (r :: rest))
    (hl : l'.reservations = l.reservations.update r.reservationID _ (keepsIndexes_withStatus st)) :
    AllOpen l' rest := by
  obtain ⟨hhead, htail⟩ := List.nodup_cons.1 h.nodup
  constructor
  · intro r' hr'
    rw [hl, Table.get?_update, if_neg]
    · exact h.current r' (.tail _ hr')
    · exact fun e => hhead (List.mem_map.2 ⟨r', hr', e⟩)
  · exact fun r' hr' => h.status r' (.tail _ hr')
  · exact htail

theorem releaseReservations_ok {rs : List BillingReservation} {amount : Int} (hs : Sound s.ledger)
    (hopen : AllOpen s.ledger rs) (h : (releaseReservations u requestID rs).run s = (.ok amount, s')) :
    ∃ l, s' = s.setLedger l ∧ ReleasedAll s.ledger rs l ∧ amount = reservedTotal rs ∧ Sound l := by
  induction rs generalizing s u amount with
  | nil =>
    cases h
    exact ⟨s'.ledger, rfl, .nil _, rfl, hs⟩
  | cons r rest ih =>
    obtain ⟨r', s₁, ⟨l₁, hrel, rfl⟩, h⟩ := run_bind_of_ok h ledgerTx_ok
    obtain ⟨r₀, -, hrec⟩ := releaseReservation_ok hs.records.releasesClose hrel
    obtain ⟨amount', s₂, hrun, h⟩ := run_bind_eq_ok h
    cases h
    have hr₀ : r₀ = r := Option.some.inj (hrec.current.symm.trans (hopen.current r (.head _)))
    have hs₁ := hrec.sound hs
    rcases hrec.outcome with ⟨hst, -⟩ | ⟨e, hc⟩
    · rw [hr₀, hopen.status r (.head _)] at hst
      cases hst
    · rw [hr₀] at hc
      obtain ⟨l, rfl, hall, rfl, hl⟩ := ih (s := s.setLedger l₁) hs₁ (hopen.tail hc.reservations) hrun
      exact ⟨l, rfl, .cons hc hall, by simp [reservedTotal], hl⟩

theorem settleReservations_ok {rs : List BillingReservation} {remaining left : Int}
    (hs : Sound s.ledger) (hopen : AllOpen s.ledger rs)
    (h : (settleReservations u requestID rs remaining).run s = (.ok left, s')) :
    ∃ l, s' = s.setLedger l ∧ SettledAll s.ledger rs remaining l left ∧ Sound l := by
  induction rs generalizing s u remaining with
  | nil =>
    cases h
    exact ⟨s'.ledger, rfl, .nil _ _, hs⟩
  | cons r rest ih =>
    obtain ⟨t, s₁, ⟨l₁, hset, rfl⟩, h⟩ := run_bind_of_ok h ledgerTx_ok
    have hrec := settleReservation_ok hset
    have hs₁ := hrec.sound hs
    have hcurrent := hopen.current r (.head _)
    rcases hrec.outcome with ⟨⟨ht, -⟩, -⟩ | ⟨r₀, id, hc, he⟩
    · -- an open reservation has no settlement that the call could repeat
      exact absurd hrec.reservation (Billing.Success.no_settlement_of_open hs.records
        (Table.mem_of_get? hcurrent) (hopen.status r (.head _)) t ht)
    · have hr₀ : r₀ = r := by
        have hid : r₀.reservationID = r.reservationID := hc.reservation.symm.trans hrec.reservation
        have hcurrent₀ := hc.current
        rw [hid, hcurrent] at hcurrent₀
        exact (Option.some.inj hcurrent₀).symm
      rw [hr₀] at hc he
      have hact : t.actualAmount = settledShare remaining r.reservedAmount rest.isEmpty := hrec.actual
      rw [← hact] at h
      obtain ⟨l, rfl, hall, hl⟩ := ih (s := s.setLedger l₁) hs₁ (hopen.tail hc.reservations) h
      exact ⟨l, rfl, .cons hc he hact hall, hl⟩

/-- The status of a pre-consume record as it is saved. -/
def Store.markPreConsume (requestID : String) (status : PreConsumeStatus) (s : Store) : Store :=
  { s with
    preConsumes := s.preConsumes.update requestID _ (keepsIndexes_withPreConsumeStatus status) }

/-- The outcomes of a refund of a recorded request. -/
inductive Refunded (s s' : Store) (record : SubscriptionPreConsumeRecord) : Prop
  | already (hst : record.status = .refunded) (hs : s = s')
  | nothing (hst : record.status = .consumed) (hzero : record.preConsumed ≤ 0)
      (hs : s' = Store.markPreConsume record.requestID .refunded s)
  | released (hst : record.status = .consumed) (l : Ledger) (s₁ : Store)
      (sub sub' : UserSubscription) (plan : SubscriptionPlan)
      (hsome : openReservations record.requestID s.ledger ≠ [])
      (hall : ReleasedAll s.ledger (openReservations record.requestID s.ledger) l)
      (used : UsageSaved (s.setLedger l) s₁ record.userSubscriptionID record.modelName
        (-reservedTotal (openReservations record.requestID s.ledger)) sub sub' plan)
      (hs : s' = Store.markPreConsume record.requestID .refunded s₁)

theorem refundSubscriptionPreConsume_ok (hsound : Sound s.ledger)
    (h : (refundSubscriptionPreConsume u requestID).run s = (.ok (), s')) :
    ∃ record, s.preConsumes.get? requestID = some record ∧ Refunded s s' record := by
  obtain ⟨-, h⟩ := checked h
  obtain ⟨record, s₁, ⟨hrecord, rfl⟩, h⟩ := run_bind_of_ok h readOrFail_ok
  refine ⟨record, hrecord, ?_⟩
  split at h
  next hst =>
    cases h
    exact .already hst rfl
  next hst =>
  have hconsumed : record.status = .consumed := by
    cases hr : record.status with
    | consumed => rfl
    | refunded => exact absurd hr hst
  split at h
  next hzero =>
    cases h
    exact .nothing hconsumed hzero rfl
  next =>
    obtain ⟨amount, s₁, hrun, h⟩ := run_bind_eq_ok h
    obtain ⟨_, s₂, hpost, h⟩ := run_bind_eq_ok h
    cases h
    obtain ⟨rs, s₃, ⟨l, hselect, rfl⟩, hrun⟩ := run_bind_of_ok hrun ledgerTx_ok
    obtain ⟨hrs, rfl⟩ : rs = openReservations record.requestID s.ledger ∧ s.ledger = l := by
      cases hselect
      exact ⟨rfl, rfl⟩
    rw [setLedger_self] at hrun
    cases rs with
    | nil => cases hrun
    | cons r rest =>
      dsimp only at hrun
      rw [hrs] at hrun
      obtain ⟨l, rfl, hall, rfl, -⟩ :=
        releaseReservations_ok hsound (allOpen_openReservations record.requestID s.ledger) hrun
      obtain ⟨sub, sub', plan, used⟩ := postConsumeUserSubscriptionUsageDeltaTx_ok hpost
      exact .released hconsumed l s₂ sub sub' plan (by rw [← hrs]; exact List.cons_ne_nil _ _) hall
        used rfl

/-- The outcomes of the settlement of a recorded request. -/
inductive SettledRequest (s s' : Store) (record : SubscriptionPreConsumeRecord) (actual : Int) :
    Prop
  | already (hnone : openReservations record.requestID s.ledger = [])
      (hsettled : ∃ r ∈ s.ledger.reservations, r.requestID = record.requestID ∧ r.status = .settled)
      (hs : s = s')
  | settled (l : Ledger) (left : Int)
      (hsome : openReservations record.requestID s.ledger ≠ [])
      (hall : SettledAll s.ledger (openReservations record.requestID s.ledger) actual l left)
      (hleft : left ≤ 0)
      (hs : actual = reservedTotal (openReservations record.requestID s.ledger) ∧
          s' = s.setLedger l ∨
        ∃ sub sub' plan, UsageSaved (s.setLedger l) s' record.userSubscriptionID record.modelName
          (actual - reservedTotal (openReservations record.requestID s.ledger)) sub sub' plan)

theorem settleSubscriptionReservation_ok {subscriptionID actual : Int} (hsound : Sound s.ledger)
    (h : (settleSubscriptionReservation u requestID subscriptionID actual).run s = (.ok (), s')) :
    0 ≤ actual ∧ ∃ record, s.preConsumes.get? requestID = some record ∧
      record.userSubscriptionID = subscriptionID ∧ record.status = .consumed ∧
      SettledRequest s s' record actual := by
  obtain ⟨-, h⟩ := checked h
  obtain ⟨-, h⟩ := checked h
  obtain ⟨hact, h⟩ := checked h
  obtain ⟨record, s₁, ⟨hrecord, rfl⟩, h⟩ := run_bind_of_ok h readOrFail_ok
  obtain ⟨howner, h⟩ := checked h
  obtain ⟨hst, h⟩ := checked h
  have hconsumed : record.status = .consumed := by
    cases hr : record.status with
    | consumed => rfl
    | refunded => exact absurd hr hst
  refine ⟨not_lt.1 hact, record, hrecord, not_not.1 howner, hconsumed, ?_⟩
  obtain ⟨rs, s₁, ⟨l, hselect, rfl⟩, h⟩ := run_bind_of_ok h ledgerTx_ok
  obtain ⟨hrs, rfl⟩ : rs = openReservations record.requestID s.ledger ∧ s.ledger = l := by
    cases hselect
    exact ⟨rfl, rfl⟩
  rw [setLedger_self] at h
  cases rs with
  | nil =>
    obtain ⟨n, s₂, ⟨l, hcount, rfl⟩, h⟩ := run_bind_of_ok h ledgerTx_ok
    cases hcount
    split at h
    next hcount =>
      cases h
      obtain ⟨r, hr, hsettled⟩ := List.countP_pos_iff.1 hcount
      simp only [Bool.and_eq_true, decide_eq_true_eq] at hsettled
      exact .already hrs.symm ⟨r, hr, hsettled⟩ rfl
    next => cases h
  | cons r rest =>
    dsimp only at h
    rw [hrs] at h
    obtain ⟨left, s₂, hrun, h⟩ := run_bind_eq_ok h
    obtain ⟨l, rfl, hall, -⟩ :=
      settleReservations_ok hsound (allOpen_openReservations record.requestID s.ledger) hrun
    obtain ⟨hleft, h⟩ := checked h
    refine .settled l left (by rw [← hrs]; exact List.cons_ne_nil _ _) hall (not_lt.1 hleft) ?_
    split at h
    · exact .inr (postConsumeUserSubscriptionUsageDeltaTx_ok h)
    next heq =>
      cases h
      exact .inl ⟨not_not.1 heq, rfl⟩

section Totals

variable {rs : List BillingReservation} {q : String}

theorem reservedTotal_openReservations (q : String) (l : Ledger) :
    reservedTotal (openReservations q l) = heldFor l q := by
  have hsum := List.sum_map_ite (fun r : BillingReservation => r.requestID = q ∧ r.status = .open)
    BillingReservation.reservedAmount (fun _ => 0) l.reservations.rows
  unfold heldFor Table.sum
  rw [hsum, reservedTotal, openReservations]
  simp [Bool.decide_and]

theorem request_of_openReservations (q : String) (l : Ledger) :
    ∀ r ∈ openReservations q l, r.requestID = q := by
  intro r hr
  rw [openReservations, List.mem_filter] at hr
  simp only [Bool.and_eq_true, decide_eq_true_eq] at hr
  exact hr.2.1

theorem ReleasedAll.requestMoved (h : ReleasedAll l rs l') (hq : ∀ r ∈ rs, r.requestID = q) :
    RequestMoved l l' q { held := -reservedTotal rs } := by
  induction h with
  | nil l => exact .refl l q
  | @cons l l₁ l' r rest e h hrest ih =>
    have hstep := requestMoved_of_released h
    rw [hq r (.head _)] at hstep
    have hall := hstep.trans (ih fun r' hr' => hq r' (.tail _ hr'))
    simp only [add_zero] at hall
    rw [reservedTotal, List.map_cons, List.sum_cons, neg_add]
    exact hall

theorem ReleasedAll.sound (h : ReleasedAll l rs l') (hs : Sound l) : Sound l' := by
  induction h with
  | nil l => exact hs
  | cons h hrest ih => exact ih (Billing.Preservation.sound_of_released hs h)

theorem settledShare_nonneg {remaining reserved : Int} (hremaining : 0 ≤ remaining)
    (hreserved : 0 < reserved) (last : Bool) : 0 ≤ settledShare remaining reserved last := by
  unfold settledShare
  split
  · exact hremaining
  · split <;> omega

theorem SettledAll.sound {remaining left : Int} (h : SettledAll l rs remaining l' left)
    (hs : Sound l) (hremaining : 0 ≤ remaining) : Sound l' := by
  induction h with
  | nil l => exact hs
  | @cons l l₁ l' r rest s id remaining left h he hshare hrest ih =>
    have hheld := hs.records.held r (Table.mem_of_get? h.current)
    have hact : 0 ≤ s.actualAmount := by
      rw [hshare]
      exact settledShare_nonneg hremaining hheld _
    exact ih (Billing.Preservation.sound_of_settled hs h he hact) (by omega)

/-- What is charged never exceeds what remains, so the rest never falls below zero. -/
theorem settledShare_le (remaining reserved : Int) (last : Bool) :
    settledShare remaining reserved last ≤ remaining := by
  unfold settledShare
  split
  · exact le_refl _
  · split <;> omega

theorem SettledAll.requestMoved {remaining left : Int} (h : SettledAll l rs remaining l' left)
    (hq : ∀ r ∈ rs, r.requestID = q) :
    RequestMoved l l' q { held := -reservedTotal rs, actual := remaining - left } := by
  induction h with
  | nil l remaining =>
    rw [sub_self]
    exact .refl l q
  | @cons l l₁ l' r rest s id remaining left h he hs hrest ih =>
    have hle := settledShare_le remaining r.reservedAmount rest.isEmpty
    have hstep := requestMoved_of_settled h
    rw [hq r (.head _)] at hstep
    have hall := hstep.trans (ih fun r' hr' => hq r' (.tail _ hr'))
    rw [← hs] at hle
    rw [max_eq_right (by omega)] at hall
    rw [reservedTotal, List.map_cons, List.sum_cons, neg_add]
    have hact : remaining - left = s.actualAmount + (remaining - s.actualAmount - left) := by omega
    rw [hact]
    exact hall

/-- The last reservation takes all that remains. -/
theorem SettledAll.left_eq {remaining left : Int} (h : SettledAll l rs remaining l' left)
    (hne : rs ≠ []) : left = 0 := by
  induction h with
  | nil l remaining => exact absurd rfl hne
  | @cons l l₁ l' r rest s id remaining left h he hs hrest ih =>
    cases rest with
    | nil =>
      cases hrest
      rw [hs, settledShare]
      simp only [List.isEmpty_nil, Bool.true_and, decide_eq_true_eq]
      split
      · omega
      · split <;> omega
    | cons r' rest => exact ih (List.cons_ne_nil _ _)

end Totals

end Close

section Requests

variable {l l' : Ledger} {s s' : Store} {cal : Calendar} {now id : Int}

/-- A hold of the request was opened under a key that was not in use. -/
structure HoldOpened (l l' : Ledger) (q key : String) (amount : Int) : Prop where
  moved : RequestMoved l l' q { reserved := amount, held := amount }
  unused : ∀ r ∈ l.reservations, r.idempotencyKey ≠ key
  rows : ∃ r, r.requestID = q ∧ r.idempotencyKey = key ∧
    ∀ r', r' ∈ l'.reservations ↔ r' ∈ l.reservations ∨ r' = r

/-- A reservation that was recorded repeats an earlier one, or opens a hold. -/
theorem opened_of_recorded {id : String} {p : CreateReservationParams} {r : BillingReservation}
    (hs : Sound l) (hkey : Solid p.idempotencyKey) (h : ReservationRecorded id l l' p r) :
    ((r ∈ l.reservations ∧ r.idempotencyKey = p.idempotencyKey) ∧ l' = l) ∨
      HoldOpened l l' (trimSpace p.requestID) p.idempotencyKey p.reservedAmount := by
  rcases h.outcome with hold | ⟨e, hc, -, hk, -⟩
  · exact .inl hold
  rw [hkey.trimSpace_eq] at hk
  have hmoved := requestMoved_of_held hs.records hc
  rw [h.request, h.amount] at hmoved
  refine .inr ⟨hmoved, ?_, r, h.request, hk, fun r' => Table.mem_insert? hc.reservations⟩
  intro r' hr' e'
  have hclash := (Table.insert?_eq_some hc.reservations).2 r' hr'
  simp [clash, e', hk] at hclash

/-- Reservations and settlements that stayed carry a hold over. -/
theorem HoldOpened.of_eq {l₁ : Ledger} {q key : String} {amount : Int}
    (h : HoldOpened l₁ l' q key amount) (hr : l₁.reservations = l.reservations)
    (hs : l₁.settlements = l.settlements) : HoldOpened l l' q key amount := by
  have hmoved := (requestMoved_of_eq hr hs q).trans h.moved
  simp only [zero_add] at hmoved
  exact ⟨hmoved, by rw [← hr]; exact h.unused, by rw [← hr]; exact h.rows⟩

theorem solid_reserveKey (requestID : String) :
    Solid ("subscription:" ++ requestID ++ ":reserve") := by
  have hlast : Solid ":reserve" := by decide
  exact hlast.append_left (solidHead_append (by decide))

theorem solid_reserveExtraKey (requestID : String) (amount : Int) :
    Solid ("subscription:" ++ requestID ++ ":reserve-extra:" ++ toString amount) := by
  apply (Decimal.solid_toString amount).append_left
  exact solidHead_append (solidHead_append (by decide))

theorem Bootstrapped.records_eq {sub : UserSubscription} {a : String} (h : Bootstrapped l l' sub a) :
    l'.reservations = l.reservations ∧ l'.settlements = l.settlements := by
  cases h with
  | kept h hl =>
    rw [hl]
    exact ⟨rfl, rfl⟩
  | granted hnone p e hacc ham hkey hc => exact hc.records_eq

theorem Bootstrapped.sound {sub : UserSubscription} {a : String} (h : Bootstrapped l l' sub a)
    (hs : Sound l) : Sound l' := by
  cases h with
  | kept h hl => rwa [← hl]
  | granted hnone p e hacc ham hkey hc => exact hc.sound hs

theorem LedgerReserved.sound {id : String} {sub : UserSubscription}
    {record : SubscriptionPreConsumeRecord} (h : LedgerReserved id l l' sub record) (hs : Sound l) : Sound l' := by
  obtain ⟨_, _, _, _, account, bootstrapped, reserved⟩ := h
  exact reserved.sound (bootstrapped.sound (account.sound hs))

theorem LedgerReserved.opened {id : String} {sub : UserSubscription}
    {record : SubscriptionPreConsumeRecord} (h : LedgerReserved id l l' sub record) (hs : Sound l)
    (hunknown : Unknown (trimSpace record.requestID) l) :
    HoldOpened l l' (trimSpace record.requestID) ("subscription:" ++ record.requestID ++ ":reserve")
      record.preConsumed := by
  obtain ⟨_, _, l₂, r, account, bootstrapped, reserved⟩ := h
  have hr : l₂.reservations = l.reservations := by
    rw [bootstrapped.records_eq.1, account.ensured.reservations]
  have hset : l₂.settlements = l.settlements := by
    rw [bootstrapped.records_eq.2, account.ensured.settlements]
  have hl₂ := bootstrapped.sound (account.sound hs)
  rcases opened_of_recorded hl₂ (solid_reserveKey _) reserved with ⟨⟨hmem, -⟩, -⟩ | hopened
  · rw [hr] at hmem
    exact absurd reserved.request (hunknown r hmem)
  · exact hopened.of_eq hr hset

theorem Skipped.sound (h : Skipped id cal now s s') (hs : Sound s.ledger) : Sound s'.ledger := by
  induction h with
  | refl s => exact hs
  | step hplan hrow hne h rest ih => exact ih (h.sound hs)

theorem Skipped.records_eq (h : Skipped id cal now s s') :
    s'.ledger.reservations = s.ledger.reservations ∧
      s'.ledger.settlements = s.ledger.settlements := by
  induction h with
  | refl s => exact ⟨rfl, rfl⟩
  | step hplan hrow hne h rest ih =>
    rw [ih.1, ih.2]
    exact h.records_eq

theorem Skipped.tables_eq (h : Skipped id cal now s s') :
    s'.plans = s.plans ∧ s'.preConsumes = s.preConsumes := by
  induction h with
  | refl s => exact ⟨rfl, rfl⟩
  | step hplan hrow hne h rest ih =>
    rw [ih.1, ih.2]
    exact ⟨h.plans_eq, h.preConsumes_eq⟩

variable {record : SubscriptionPreConsumeRecord} {c : UserSubscription} {plan : SubscriptionPlan}
  {res : SubscriptionPreConsumeResult} {holdID : String}

theorem PreConsumed.sound (h : PreConsumed holdID cal now record c plan s s' res) (hs : Sound s.ledger) :
    Sound s'.ledger := by
  obtain ⟨_, _, _, skipped, -, -, -, reset, -, consumed⟩ := h
  obtain ⟨_, _, _, -, reserved, -, state, -⟩ := consumed
  have hs₂ := reset.sound (skipped.sound hs)
  rw [state]
  rcases reserved with ⟨-, rfl⟩ | ⟨-, hres⟩
  · exact hs₂
  · exact hres.sound hs₂

theorem PreConsumed.plans_eq (h : PreConsumed holdID cal now record c plan s s' res) :
    s'.plans = s.plans := by
  obtain ⟨_, s₂, _, skipped, -, -, -, reset, -, consumed⟩ := h
  obtain ⟨_, _, _, -, -, -, state, -⟩ := consumed
  rw [state]
  show s₂.plans = s.plans
  rw [reset.plans_eq, skipped.tables_eq.1]

theorem PreConsumed.result_id (h : PreConsumed holdID cal now record c plan s s' res) :
    res.userSubscriptionID = c.id := by
  obtain ⟨_, _, _, -, -, -, -, reset, -, consumed⟩ := h
  obtain ⟨_, _, _, -, -, -, -, result⟩ := consumed
  rw [result]
  exact reset.id_eq

theorem PreConsumed.recorded (h : PreConsumed holdID cal now record c plan s s' res) :
    s.preConsumes.insert? { record with userSubscriptionID := c.id } = some s'.preConsumes := by
  obtain ⟨_, _, _, skipped, -, -, -, reset, -, consumed⟩ := h
  obtain ⟨_, _, _, recorded, -, -, state, -⟩ := consumed
  rw [reset.preConsumes_eq, skipped.tables_eq.2, reset.id_eq] at recorded
  rw [state, recorded]
  rfl

/-- The hold of a new request on a limited subscription; an unlimited one has none. -/
theorem PreConsumed.opened (h : PreConsumed holdID cal now record c plan s s' res) (hs : Sound s.ledger)
    (hunknown : Unknown (trimSpace record.requestID) s.ledger) :
    c.amountTotal ≤ 0 ∧ s'.ledger.reservations = s.ledger.reservations ∧
        s'.ledger.settlements = s.ledger.settlements ∨
      0 < c.amountTotal ∧ HoldOpened s.ledger s'.ledger (trimSpace record.requestID)
        ("subscription:" ++ record.requestID ++ ":reserve") record.preConsumed := by
  obtain ⟨_, s₂, sub, skipped, -, -, -, reset, -, consumed⟩ := h
  obtain ⟨_, l, _, -, reserved, -, state, -⟩ := consumed
  have hs₂ := reset.sound (skipped.sound hs)
  have hr : s₂.ledger.reservations = s.ledger.reservations := by
    rw [reset.records_eq.1, skipped.records_eq.1]
  have hset : s₂.ledger.settlements = s.ledger.settlements := by
    rw [reset.records_eq.2, skipped.records_eq.2]
  have htotal : (terms sub).amountTotal = (terms c).amountTotal := by rw [reset.terms_eq]
  have htotal : sub.amountTotal = c.amountTotal := htotal
  have hledger : s'.ledger = l := by
    rw [state]
    rfl
  rw [hledger, ← htotal]
  rcases reserved with ⟨hle, rfl⟩ | ⟨hlt, hres⟩
  · exact .inl ⟨hle, hr, hset⟩
  · have hunknown₂ : Unknown (trimSpace record.requestID) s₂.ledger := by
      unfold Unknown
      rw [hr]
      exact hunknown
    exact .inr ⟨hlt, (hres.opened hs₂ hunknown₂).of_eq hr hset⟩

/-- The row of the subscription that was charged. -/
theorem PreConsumed.row (h : PreConsumed holdID cal now record c plan s s' res) :
    ∃ s₁ s₂ sub used, ResetOutcome cal plan c now sub s₁ s₂ ∧
      applySubscriptionUsageDelta plan sub record.modelName record.preConsumed = .ok used ∧
      s'.subscriptions.get? c.id = some used := by
  obtain ⟨s₁, s₂, sub, -, -, current, -, reset, -, consumed⟩ := h
  obtain ⟨_, _, used, -, -, applied, state, -⟩ := consumed
  refine ⟨s₁, s₂, sub, used, reset, applied, ?_⟩
  have hid : used.id = c.id :=
    (terms_id (applySubscriptionUsageDelta_ok applied).1.terms).trans reset.id_eq
  have hrow : s₂.subscriptions.get? used.id = some sub := by
    rw [reset.get? current, if_pos hid]
  rw [state]
  have hget : ∀ s : Store, s.subscriptions = s₂.subscriptions →
      (s.setSubscription used).subscriptions.get? c.id = some used := by
    intro s hs
    rw [get?_setSubscription (by rw [hs]; exact hrow), if_pos hid.symm]
  exact hget _ rfl

end Requests

end CodeGo.Commerce.SubscriptionEffects
