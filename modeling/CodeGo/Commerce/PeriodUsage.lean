import CodeGo.Commerce.SubscriptionEffects

/-!
# Maintenance of subscriptions

The transaction that `ResetDueSubscriptions` runs for a row it found due, from
`internal/commerce/app/subscription_maintenance_runtime.go`.
-/

namespace CodeGo.Commerce.SubscriptionMaintenance

open Lib Lib.Prog Billing.Schema Schema SubscriptionRules SubscriptionFunding SubscriptionEffects

/-- The row, if its stored reset is due. -/
def dueSubscription (id now : Int) (s : Store) : Option UserSubscription :=
  (s.subscriptions.get? id).filter fun sub => 0 < sub.nextResetTime && sub.nextResetTime ≤ now

/-- A row or a plan that is not found is passed over. -/
def resetDueSubscription (cal : Calendar) (u : Uuids) (now id : Int) : Flow Unit := do
  match ← read (dueSubscription id now) with
  | none => pure ()
  | some locked =>
    match ← (getSubscriptionPlanRecordTx locked.planID).attempt with
    | .error _ => pure ()
    | .ok plan => do
      let _ ← maybeResetUserSubscriptionWithPlanTx cal u locked plan now
      return ()

/-- What the transaction may do to a row. -/
inductive DueReset (cal : Calendar) (id now : Int) (s s' : Store) : Prop
  | passed (hs : s = s')
  | looked (sub sub' : UserSubscription) (plan : SubscriptionPlan)
      (hrow : s.subscriptions.get? id = some sub) (hplan : PlanFound s sub.planID plan)
      (h : ResetOutcome cal plan sub now sub' s s')

/-- The lookup of a plan only reads. -/
theorem getSubscriptionPlanRecordTx_state (planID : Int) (s : Store) :
    ((getSubscriptionPlanRecordTx planID).run s).2 = s := by
  unfold getSubscriptionPlanRecordTx
  split
  · rfl
  · rw [readOrFail, run_stepE]
    cases s.plans.get? planID <;> rfl

theorem resetDueSubscription_ok {cal : Calendar} {u : Uuids} {now id : Int} {s s' : Store}
    (h : (resetDueSubscription cal u now id).run s = (.ok (), s')) : DueReset cal id now s s' := by
  obtain ⟨found, s₁, ⟨hfound, rfl⟩, h⟩ := run_bind_of_ok h read_ok
  cases found with
  | none =>
    cases h
    exact .passed rfl
  | some sub =>
    obtain ⟨hrow, -⟩ := Option.filter_eq_some_iff.1 hfound.symm
    obtain ⟨r, s₂, hrun, h⟩ := run_bind_eq_ok h
    rw [run_attempt, getSubscriptionPlanRecordTx_state] at hrun
    cases hrun
    cases hlookup : ((getSubscriptionPlanRecordTx sub.planID).run s).1 with
    | error e =>
      rw [hlookup] at h
      cases h
      exact .passed rfl
    | ok plan =>
      rw [hlookup] at h
      obtain ⟨hplan, -⟩ :=
        getSubscriptionPlanRecordTx_ok (Prod.ext hlookup (getSubscriptionPlanRecordTx_state _ s))
      obtain ⟨sub', s₄, hreset, h⟩ := run_bind_eq_ok h
      cases h
      exact .looked sub sub' plan hrow hplan (maybeResetUserSubscriptionWithPlanTx_ok hreset)

end CodeGo.Commerce.SubscriptionMaintenance

/-!
# Usage of the current period

Requests of several callers on a subscription whose quota is reset from time to time.
A refund or a settlement changes the usage of whatever period is current, also when
the request was reserved in an earlier one.
-/

namespace CodeGo.Commerce.PeriodUsage

open Lib Lib.Prog Lib.Trim Billing.Schema Billing.Invariant Billing.RequestTotals Schema
  SubscriptionRules SubscriptionFunding SubscriptionEffects SubscriptionMaintenance

/-- The usage that a reset zeroes. -/
def recordedUsage (plan : SubscriptionPlan) (sub : UserSubscription) : Int :=
  if usesLegacySubscriptionPeriodicQuota plan sub then sub.amountUsed else sub.periodUsed

/-- What a request holds at present or was settled at. -/
def charge (l : Ledger) (requestID : String) : Int := heldFor l requestID + actualFor l requestID

/-- One committed or failed transaction. -/
inductive Action where
  | preConsume (u : Uuids) (now : Int) (requestID : String) (userID : Int) (modelName : String)
    (amount : Int)
  | settle (u : Uuids) (requestID : String) (subscriptionID actual : Int)
  | refund (u : Uuids) (requestID : String)
  | resetDue (u : Uuids) (now id : Int)

def Action.exec (cal : Calendar) : Action → Store → Store
  | preConsume u now requestID userID modelName amount, s =>
    ((preConsumeUserSubscription cal u now requestID userID modelName amount).commit s).2
  | settle u requestID subscriptionID actual, s =>
    ((settleSubscriptionReservation u requestID subscriptionID actual).commit s).2
  | refund u requestID, s => ((refundSubscriptionPreConsume u requestID).commit s).2
  | resetDue u now id, s => ((resetDueSubscription cal u now id).commit s).2

/-- The request that the action pre-consumes on the subscription. -/
def Action.started (id : Int) (s s' : Store) : Action → List String
  | preConsume _ _ requestID _ _ _ =>
    if s.preConsumes.get? requestID = none ∧
      (s'.preConsumes.get? requestID).map (·.userSubscriptionID) = some id then [requestID] else []
  | _ => []

/-- A store, and the requests that were pre-consumed on the subscription since its last reset. -/
structure Watched where
  store : Store
  since : List String

/-- The requests that stay in the current period; the row may account for another reset now. -/
def keptSince (id : Int) (s s' : Store) (since : List String) : List String :=
  if (s'.subscriptions.get? id).map resetBase = (s.subscriptions.get? id).map resetBase then since
  else []

def Watched.step (cal : Calendar) (id : Int) (w : Watched) (a : Action) : Watched where
  store := a.exec cal w.store
  since := a.started id w.store (a.exec cal w.store) ++
    keptSince id w.store (a.exec cal w.store) w.since

def Watched.run (cal : Calendar) (id : Int) (w : Watched) (acts : List Action) : Watched :=
  acts.foldl (Watched.step cal id) w

/-- The row of the subscription with a plan whose quota is reset. -/
def Periodic (s : Store) (id : Int) (sub : UserSubscription) (plan : SubscriptionPlan) : Prop :=
  s.subscriptions.get? id = some sub ∧ s.plans.get? sub.planID = some plan ∧
    normalizeResetPeriod plan.quotaResetPeriod ≠ .never

/-- The usage of the period covers the requests that were pre-consumed in it. -/
def Covered (id : Int) (w : Watched) : Prop :=
  ∀ sub plan, Periodic w.store id sub plan →
    (w.since.map (charge w.store.ledger)).sum ≤ recordedUsage plan sub

/-- The request was pre-consumed on the subscription. -/
def On (id : Int) (s : Store) (requestID : String) : Prop :=
  (s.preConsumes.get? requestID).map (·.userSubscriptionID) = some id

/-- An action that does not take usage of an earlier period back: a request that is settled for
less than it holds, or refunded, was pre-consumed since the last reset. New requests have names of
their own. -/
def Regular (id : Int) (w : Watched) : Action → Prop
  | .preConsume _ _ requestID _ _ _ => w.store.preConsumes.get? requestID = none →
    trimSpace requestID = requestID ∧ Unknown requestID w.store.ledger
  | .settle _ requestID _ actual => On id w.store requestID → requestID ∉ w.since →
    heldFor w.store.ledger requestID ≤ actual
  | .refund _ requestID => On id w.store requestID → requestID ∉ w.since →
    heldFor w.store.ledger requestID ≤ 0
  | .resetDue _ _ _ => True

def RegularRun (cal : Calendar) (id : Int) : Watched → List Action → Prop
  | _, [] => True
  | w, a :: acts => Regular id w a ∧ RegularRun cal id (w.step cal id a) acts

instance (id : Int) (s : Store) (requestID : String) : Decidable (On id s requestID) :=
  inferInstanceAs (Decidable ((s.preConsumes.get? requestID).map (·.userSubscriptionID) = some id))

instance (id : Int) (w : Watched) : (a : Action) → Decidable (Regular id w a)
  | .preConsume _ _ requestID _ _ _ =>
    inferInstanceAs (Decidable (w.store.preConsumes.get? requestID = none →
      trimSpace requestID = requestID ∧ Unknown requestID w.store.ledger))
  | .settle _ requestID _ actual =>
    inferInstanceAs (Decidable (On id w.store requestID → requestID ∉ w.since →
      heldFor w.store.ledger requestID ≤ actual))
  | .refund _ requestID =>
    inferInstanceAs (Decidable (On id w.store requestID → requestID ∉ w.since →
      heldFor w.store.ledger requestID ≤ 0))
  | .resetDue _ _ _ => .isTrue trivial

def decideRegularRun (cal : Calendar) (id : Int) :
    (w : Watched) → (acts : List Action) → Decidable (RegularRun cal id w acts)
  | _, [] => .isTrue trivial
  | w, a :: acts =>
    have := decideRegularRun cal id (w.step cal id a) acts
    inferInstanceAs (Decidable (Regular id w a ∧ RegularRun cal id (w.step cal id a) acts))

instance (cal : Calendar) (id : Int) (w : Watched) (acts : List Action) :
    Decidable (RegularRun cal id w acts) := decideRegularRun cal id w acts

section Rows

variable {cal : Calendar} {plan : SubscriptionPlan} {sub mid sub' : UserSubscription} {now id : Int}
  {s s' : Store}

/-- A look at the reset left the row's period, or started a new one. -/
structure Turned (plan : SubscriptionPlan) (sub sub' : UserSubscription) : Prop where
  terms : terms sub' = terms sub
  period : resetBase sub' = resetBase sub ∧ recordedUsage plan sub' = recordedUsage plan sub ∨
    resetBase sub < resetBase sub' ∧ recordedUsage plan sub' = 0

theorem Turned.refl (plan : SubscriptionPlan) (sub : UserSubscription) : Turned plan sub sub :=
  ⟨rfl, .inl ⟨rfl, rfl⟩⟩

theorem Turned.trans (h : Turned plan sub mid) (h' : Turned plan mid sub') : Turned plan sub sub' := by
  refine ⟨h'.terms.trans h.terms, ?_⟩
  rcases h.period with ⟨hbase, hused⟩ | ⟨hbase, hused⟩ <;>
    rcases h'.period with ⟨hbase', hused'⟩ | ⟨hbase', hused'⟩
  · exact .inl ⟨hbase'.trans hbase, hused'.trans hused⟩
  · exact .inr ⟨by omega, hused'⟩
  · exact .inr ⟨by omega, hused'.trans hused⟩
  · exact .inr ⟨by omega, hused'⟩

theorem recordedUsage_nonneg (plan : SubscriptionPlan) (sub : UserSubscription) :
    0 ≤ recordedUsage plan sub := by
  have hamount := sub.amountUsed_nonneg
  have hperiod := sub.periodUsed_nonneg
  unfold recordedUsage
  split <;> omega

theorem turned_of_resetOutcome (h : ResetOutcome cal plan sub now sub' s s') :
    Turned plan sub sub' := by
  have hterms := h.terms_eq
  obtain ⟨-, -, -, -, hlegacy, -⟩ := rules_of_terms plan hterms
  cases h with
  | kept hdue hsub hs hbase =>
    obtain ⟨base, next, rfl⟩ := hsub
    exact ⟨rfl, .inl ⟨hbase, rfl⟩⟩
  | reset hdue base next hlater hsub l hledger hs =>
    refine ⟨hterms, .inr ⟨hlater, ?_⟩⟩
    rw [recordedUsage, hlegacy, hsub, resetUsage]
    split
    · rfl
    · rfl

/-- Where a row comes from after other candidates were passed over. -/
theorem turned_of_skipped {other : Int} (h : Skipped other cal now s s')
    (hrow : s'.subscriptions.get? id = some sub') (hplan : s.plans.get? sub'.planID = some plan) :
    ∃ sub, s.subscriptions.get? id = some sub ∧ Turned plan sub sub' := by
  induction h with
  | refl s => exact ⟨sub', hrow, .refl plan sub'⟩
  | @step s s₁ s' plan' old new hfound hold hne hreset rest ih =>
    obtain ⟨mid, hmid, hturned⟩ := ih hrow (by rw [hreset.plans_eq]; exact hplan)
    rw [hreset.get? hold] at hmid
    split at hmid
    next hid =>
      obtain rfl : new = mid := Option.some.inj hmid
      have hnew := turned_of_resetOutcome hreset
      have hplanID : sub'.planID = old.planID :=
        planID_of_terms (hturned.terms.trans hnew.terms)
      rw [hplanID, hfound.2] at hplan
      obtain rfl : plan' = plan := Option.some.inj hplan
      exact ⟨old, by rw [hid]; exact hold, hnew.trans hturned⟩
    next => exact ⟨mid, hmid, hturned⟩

/-- Where a row comes from after a request was charged to a candidate. -/
theorem turned_of_preConsumed {c : UserSubscription} {plan' : SubscriptionPlan} {holdID : String}
    {record : SubscriptionPreConsumeRecord} {res : SubscriptionPreConsumeResult}
    (h : PreConsumed holdID cal now record c plan' s s' res)
    (hrow : s'.subscriptions.get? id = some sub') (hplan : s.plans.get? sub'.planID = some plan) :
    ∃ sub, s.subscriptions.get? id = some sub ∧
      (id ≠ c.id ∧ Turned plan sub sub' ∨
        id = c.id ∧ sub = c ∧ ∃ mid, Turned plan sub mid ∧
          Used plan mid sub' (trimSpace record.modelName) record.preConsumed) := by
  obtain ⟨s₁, s₂, mid, skipped, before, current, found, reset, -, consumed⟩ := h
  obtain ⟨t, l, used, -, -, applied, state, -⟩ := consumed
  have hused := (applySubscriptionUsageDelta_ok applied).1
  have hrows : s'.subscriptions.get? id = if id = c.id then some used else s₁.subscriptions.get? id := by
    have husedID : used.id = c.id := (terms_id hused.terms).trans reset.id_eq
    have hcurrent : s₂.subscriptions.get? used.id = some mid := by
      rw [reset.get? current, if_pos husedID]
    have hcurrent' : (({ s₂ with preConsumes := t } : Store).setLedger l).subscriptions.get? used.id =
        some mid := hcurrent
    have hsaved := get?_setSubscription hcurrent' id
    rw [state, hsaved, husedID]
    split
    · rfl
    next hne =>
      show s₂.subscriptions.get? id = _
      rw [reset.get? current, if_neg hne]
  rw [hrows] at hrow
  split at hrow
  next hid =>
    obtain rfl : used = sub' := Option.some.inj hrow
    have hturned := turned_of_resetOutcome reset
    have hplanID : used.planID = c.planID := planID_of_terms (hused.terms.trans hturned.terms)
    rw [hplanID, found.2] at hplan
    obtain rfl : plan' = plan := Option.some.inj hplan
    exact ⟨c, by rw [hid]; exact before, .inr ⟨hid, rfl, mid, hturned, hused⟩⟩
  next hne =>
    obtain ⟨sub, hsub, hturned⟩ := turned_of_skipped skipped hrow hplan
    exact ⟨sub, hsub, .inl ⟨hne, hturned⟩⟩

/-- A change of usage counts in the period of a limited subscription. -/
theorem recordedUsage_used {model : String} {delta : Int} (h : Used plan sub sub' model delta)
    (hperiod : normalizeResetPeriod plan.quotaResetPeriod ≠ .never) (hlimited : 0 < sub.amountTotal) :
    recordedUsage plan sub' = max 0 (recordedUsage plan sub + delta) := by
  obtain ⟨-, -, -, -, hlegacy, -⟩ := rules_of_terms plan h.terms
  unfold recordedUsage
  rw [hlegacy]
  split
  next => exact h.amountUsed
  next hnot =>
    have hcounts : countsPeriod plan sub = true := by
      have hpositive : 0 < sub.periodAmount := by
        by_contra hle
        exact hnot (by simp [usesLegacySubscriptionPeriodicQuota, hperiod, hlimited, not_lt.1 hle])
      simp [countsPeriod, hnot, getSubscriptionPeriodAmount, hpositive]
    rw [h.periodUsed, if_pos hcounts]

theorem resetBase_used {model : String} {delta : Int} (h : Used plan sub sub' model delta) :
    resetBase sub' = resetBase sub := by
  have hstart : (terms sub').startTime = (terms sub).startTime :=
    congrArg UserSubscription.startTime h.terms
  have hstart : sub'.startTime = sub.startTime := hstart
  rw [resetBase, resetBase, h.lastResetTime, hstart]

end Rows

section Invariant

variable {cal : Calendar} {plan : SubscriptionPlan} {sub mid sub' : UserSubscription} {now id : Int}
  {w : Watched} {s s' : Store} {since : List String} {requestID : String}

/-- The usage that covers the requests of the period; an unlimited subscription opens no holds. -/
def coverage (plan : SubscriptionPlan) (sub : UserSubscription) : Int :=
  if 0 < sub.amountTotal then recordedUsage plan sub else 0

/-- What every step keeps of a watched subscription. -/
structure Accounted (id : Int) (w : Watched) : Prop where
  sound : Sound w.store.ledger
  nodup : w.since.Nodup
  recorded : ∀ q ∈ w.since, On id w.store q
  covered : ∀ sub plan, Periodic w.store id sub plan →
    (w.since.map (charge w.store.ledger)).sum ≤ coverage plan sub

theorem coverage_nonneg (plan : SubscriptionPlan) (sub : UserSubscription) : 0 ≤ coverage plan sub := by
  have := recordedUsage_nonneg plan sub
  unfold coverage
  split <;> omega

theorem Accounted.all_covered (h : Accounted id w) : Covered id w := by
  intro sub plan hrow
  have hsum := h.covered sub plan hrow
  have husage := recordedUsage_nonneg plan sub
  unfold coverage at hsum
  split at hsum <;> omega

theorem keptSince_sublist (id : Int) (s s' : Store) (since : List String) :
    (keptSince id s s' since).Sublist since := by
  unfold keptSince
  split
  · exact List.Sublist.refl since
  · exact List.nil_sublist since

/-- The sum over distinct requests when one of them moves. -/
theorem sum_map_moved {f g : String → Int} {d : Int} {l : List String} (hnodup : l.Nodup)
    (h : ∀ q ∈ l, g q = f q + if requestID = q then d else 0) :
    (l.map g).sum = (l.map f).sum + if requestID ∈ l then d else 0 := by
  induction l with
  | nil => simp
  | cons q rest ih =>
    obtain ⟨hnot, hrest⟩ := List.nodup_cons.1 hnodup
    have hsum := ih hrest fun q' hq' => h q' (.tail _ hq')
    have hhead := h q (.head _)
    rw [List.map_cons, List.map_cons, List.sum_cons, List.sum_cons, hsum, hhead]
    by_cases hq : requestID = q
    · rw [if_pos hq, if_neg (by rw [hq]; exact hnot), if_pos (by simp [hq])]
      omega
    · have hmem : requestID ∈ q :: rest ↔ requestID ∈ rest := by simp [hq]
      rw [if_neg hq, if_congr hmem rfl rfl]
      omega

theorem coverage_of_terms (h : Turned plan sub sub') (hbase : resetBase sub' = resetBase sub) :
    coverage plan sub' = coverage plan sub := by
  obtain ⟨-, htotal, -⟩ := rules_of_terms plan h.terms
  unfold coverage
  rw [htotal]
  rcases h.period with ⟨-, hused⟩ | ⟨hlt, -⟩
  · rw [hused]
  · omega

/-- Requests of the period are covered after a look at the reset. -/
theorem keptSince_covered {f : String → Int} (hrow : s.subscriptions.get? id = some sub)
    (hrow' : s'.subscriptions.get? id = some sub') (h : Turned plan sub mid)
    (hbase : resetBase sub' = resetBase mid) (hsum : (since.map f).sum ≤ coverage plan sub) :
    ((keptSince id s s' since).map f).sum ≤ coverage plan mid := by
  unfold keptSince
  split
  next hsame =>
    rw [hrow, hrow', Option.map_some, Option.map_some, Option.some.injEq, hbase] at hsame
    rwa [coverage_of_terms h hsame]
  next => exact coverage_nonneg plan mid

/-- A step that moves the totals of no watched request. -/
theorem Accounted.turned (h : Accounted id w) (hs : Sound s'.ledger)
    (hrecords : ∀ q ∈ w.since, On id s' q)
    (hcharge : ∀ q ∈ w.since, charge s'.ledger q = charge w.store.ledger q)
    (hrow : ∀ sub' plan, Periodic s' id sub' plan →
      ∃ sub, Periodic w.store id sub plan ∧ Turned plan sub sub') :
    Accounted id ⟨s', keptSince id w.store s' w.since⟩ := by
  have hsub := keptSince_sublist id w.store s' w.since
  constructor
  case sound => exact hs
  case nodup => exact h.nodup.sublist hsub
  case recorded => exact fun q hq => hrecords q (hsub.subset hq)
  case covered =>
    intro sub' plan hperiodic
    obtain ⟨sub, hbefore, hturned⟩ := hrow sub' plan hperiodic
    have hsame : (keptSince id w.store s' w.since).map (charge s'.ledger) =
        (keptSince id w.store s' w.since).map (charge w.store.ledger) :=
      List.map_congr_left fun q hq => hcharge q (hsub.subset hq)
    rw [hsame]
    exact keptSince_covered hbefore.1 hperiodic.1 hturned rfl (h.covered sub plan hbefore)

theorem charge_of_moved {l l' : Ledger} {d : Totals} (h : RequestMoved l l' requestID d) (q : String) :
    charge l' q = charge l q + if requestID = q then d.held + d.actual else 0 := by
  unfold charge
  rw [h.held, h.actual]
  split <;> omega

/-- What a new request holds; those of others stay. -/
theorem charge_of_preConsumed {c : UserSubscription} {holdID : String}
    {record : SubscriptionPreConsumeRecord} {res : SubscriptionPreConsumeResult}
    (h : PreConsumed holdID cal now record c plan s s' res) (hs : Sound s.ledger)
    (htrim : trimSpace record.requestID = record.requestID)
    (hunknown : Unknown record.requestID s.ledger) (q : String) :
    charge s'.ledger q = charge s.ledger q +
      if record.requestID = q then (if 0 < c.amountTotal then record.preConsumed else 0) else 0 := by
  rcases h.opened hs (by rw [htrim]; exact hunknown) with ⟨hle, hr, hset⟩ | ⟨hlt, hopened⟩
  · rw [if_neg (not_lt.2 hle), charge_of_moved (requestMoved_of_eq hr hset record.requestID) q]
    rfl
  · rw [if_pos hlt, charge_of_moved hopened.moved q, htrim]
    simp

/-- A request that was charged to the subscription or to another. -/
theorem Accounted.preConsumed {c : UserSubscription} {plan' : SubscriptionPlan} {holdID : String}
    {record : SubscriptionPreConsumeRecord} {res : SubscriptionPreConsumeResult}
    (h : Accounted id w) (hnew : w.store.preConsumes.get? record.requestID = none)
    (htrim : trimSpace record.requestID = record.requestID)
    (hunknown : Unknown record.requestID w.store.ledger)
    (hdone : PreConsumed holdID cal now record c plan' w.store s' res) :
    Accounted id ⟨s', (if c.id = id then [record.requestID] else []) ++
      keptSince id w.store s' w.since⟩ := by
  have hs' := hdone.sound h.sound
  have hplans : s'.plans = w.store.plans := hdone.plans_eq
  have hrecord : ∀ q, s'.preConsumes.get? q = if q = record.requestID then
      some { record with userSubscriptionID := c.id } else w.store.preConsumes.get? q :=
    fun q => (Table.get?_insert? hdone.recorded q).trans rfl
  have hne : ∀ q ∈ w.since, q ≠ record.requestID := by
    intro q hq e
    have hon := h.recorded q hq
    rw [On, e, hnew] at hon
    cases hon
  have hrecords : ∀ q ∈ w.since, On id s' q := by
    intro q hq
    rw [On, hrecord, if_neg (hne q hq)]
    exact h.recorded q hq
  have hcharge := charge_of_preConsumed hdone h.sound htrim hunknown
  by_cases hid : c.id = id
  case neg =>
    rw [if_neg hid, List.nil_append]
    apply h.turned hs' hrecords
    · intro q hq
      rw [hcharge, if_neg fun e => hne q hq e.symm, add_zero]
    · intro sub' plan ⟨hrow, hplan, hperiod⟩
      obtain ⟨sub, hsub, hcase⟩ := turned_of_preConsumed hdone hrow (by rw [← hplans]; exact hplan)
      rcases hcase with ⟨-, hturned⟩ | ⟨e, -⟩
      · have hplanID := planID_of_terms hturned.terms
        rw [hplans, hplanID] at hplan
        exact ⟨sub, ⟨hsub, hplan, hperiod⟩, hturned⟩
      · exact absurd e.symm hid
  case pos =>
    have hsub := keptSince_sublist id w.store s' w.since
    rw [if_pos hid]
    constructor
    case sound => exact hs'
    case nodup =>
      rw [List.singleton_append, List.nodup_cons]
      exact ⟨fun hmem => hne _ (hsub.subset hmem) rfl, h.nodup.sublist hsub⟩
    case recorded =>
      intro q hq
      rcases List.mem_append.1 hq with hq | hq
      · rw [List.mem_singleton.1 hq, On, hrecord, if_pos rfl]
        exact congrArg some hid
      · exact hrecords q (hsub.subset hq)
    case covered =>
      intro sub' plan ⟨hrow, hplan, hperiod⟩
      replace hrow : s'.subscriptions.get? id = some sub' := hrow
      obtain ⟨sub, hrow₀, hcase⟩ := turned_of_preConsumed hdone hrow (by rw [← hplans]; exact hplan)
      rcases hcase with ⟨hne', -⟩ | ⟨-, rfl, mid, hturned, hused⟩
      · exact absurd hid.symm hne'
      have hplanID : sub'.planID = sub.planID :=
        planID_of_terms (hused.terms.trans hturned.terms)
      rw [hplans, hplanID] at hplan
      -- the requests of the period keep their charges, and the new one is counted in the row
      have hsame : (keptSince id w.store s' w.since).map (charge s'.ledger) =
          (keptSince id w.store s' w.since).map (charge w.store.ledger) := by
        apply List.map_congr_left
        intro q hq
        rw [hcharge, if_neg fun e => hne q (hsub.subset hq) e.symm, add_zero]
      have hbefore := keptSince_covered hrow₀ hrow hturned (resetBase_used hused)
        (h.covered sub plan ⟨hrow₀, hplan, hperiod⟩)
      have hzero : charge w.store.ledger record.requestID = 0 := by
        obtain ⟨-, hheld, hactual⟩ := hunknown.totals
        rw [charge, hheld, hactual, add_zero]
      obtain ⟨-, htotal, -⟩ := rules_of_terms plan hturned.terms
      obtain ⟨-, htotal', -⟩ := rules_of_terms plan hused.terms
      rw [List.map_append, List.sum_append, hsame, List.map_singleton, List.sum_singleton, hcharge,
        if_pos rfl, hzero, zero_add]
      unfold coverage at hbefore ⊢
      rw [htotal] at hbefore
      rw [htotal', htotal]
      split at hbefore
      next hlimited =>
        rw [if_pos hlimited, if_pos hlimited,
          recordedUsage_used hused hperiod (by rw [htotal]; exact hlimited)]
        omega
      next hunlimited =>
        rw [if_neg hunlimited, if_neg hunlimited]
        omega

/-- A request with an open hold holds something. -/
theorem heldFor_pos {l : Ledger} (h : Sound l) (hsome : openReservations requestID l ≠ []) :
    0 < heldFor l requestID := by
  rw [← reservedTotal_openReservations, reservedTotal]
  apply List.sum_pos
  · intro x hx
    obtain ⟨r, hr, rfl⟩ := List.mem_map.1 hx
    have hmem := Table.mem_of_get? ((allOpen_openReservations requestID l).current r hr)
    exact h.records.held r hmem
  · simpa using hsome

/-- A watched request charges no more than all together. -/
theorem charge_le_sum {l : Ledger} (h : Sound l) (hmem : requestID ∈ since) :
    charge l requestID ≤ (since.map (charge l)).sum := by
  apply List.single_le_sum
  · intro x hx
    obtain ⟨q, -, rfl⟩ := List.mem_map.1 hx
    exact add_nonneg (heldFor_nonneg h.records q) (actualFor_nonneg h.records q)
  · exact List.mem_map_of_mem hmem

/-- A request that was settled, or refunded as if it were settled at 0. -/
theorem Accounted.closed {record : SubscriptionPreConsumeRecord} {actual : Int}
    (h : Accounted id w) (hs : Sound s'.ledger)
    (hrecord : w.store.preConsumes.get? requestID = some record)
    (hrecords : ∀ q, On id w.store q → On id s' q) (hplans : s'.plans = w.store.plans)
    (hmoved : RequestMoved w.store.ledger s'.ledger requestID {
      held := -heldFor w.store.ledger requestID
      actual := actual })
    (hsome : openReservations requestID w.store.ledger ≠ [])
    (hused : ∀ sub', s'.subscriptions.get? id = some sub' →
      ∃ sub, w.store.subscriptions.get? id = some sub ∧
        (record.userSubscriptionID ≠ id ∧ sub' = sub ∨
          record.userSubscriptionID = id ∧ terms sub' = terms sub ∧
            ∀ plan, w.store.plans.get? sub.planID = some plan → Used plan sub sub'
              (trimSpace record.modelName) (actual - heldFor w.store.ledger requestID)))
    (hregular : On id w.store requestID → requestID ∉ w.since →
      heldFor w.store.ledger requestID ≤ actual) :
    Accounted id ⟨s', keptSince id w.store s' w.since⟩ := by
  have hsub := keptSince_sublist id w.store s' w.since
  have hon : On id w.store requestID ↔ record.userSubscriptionID = id := by
    rw [On, hrecord, Option.map_some, Option.some.injEq]
  constructor
  case sound => exact hs
  case nodup => exact h.nodup.sublist hsub
  case recorded => exact fun q hq => hrecords q (h.recorded q (hsub.subset hq))
  case covered =>
    intro sub' plan ⟨hrow, hplan, hperiod⟩
    replace hrow : s'.subscriptions.get? id = some sub' := hrow
    replace hplan : s'.plans.get? sub'.planID = some plan := hplan
    obtain ⟨sub, hrow₀, hcase⟩ := hused sub' hrow
    have hkept : ∀ sub', s'.subscriptions.get? id = some sub' → resetBase sub' = resetBase sub →
        keptSince id w.store s' w.since = w.since := by
      intro sub' hrow hbase
      rw [keptSince, hrow, hrow₀, Option.map_some, Option.map_some, hbase, if_pos rfl]
    have hmap := sum_map_moved h.nodup fun q _ => charge_of_moved hmoved q
    rw [hplans] at hplan
    rcases hcase with ⟨hother, rfl⟩ | ⟨howner, hterms, hused⟩
    · -- the request is on another subscription
      have hnot : requestID ∉ w.since := fun hmem => hother (hon.1 (h.recorded _ hmem))
      rw [hkept sub' hrow rfl, hmap, if_neg hnot, add_zero]
      exact h.covered sub' plan ⟨hrow₀, hplan, hperiod⟩
    · have hplanID := planID_of_terms hterms
      rw [hplanID] at hplan
      have hused := hused plan hplan
      have hbefore := h.covered sub plan ⟨hrow₀, hplan, hperiod⟩
      obtain ⟨-, htotal, -⟩ := rules_of_terms plan hterms
      have hheld := heldFor_pos h.sound hsome
      have hactual := actualFor_nonneg h.sound.records requestID
      rw [hkept sub' hrow (resetBase_used hused), hmap]
      unfold coverage at hbefore ⊢
      rw [htotal]
      split at hbefore
      next hlimited =>
        rw [if_pos hlimited, recordedUsage_used hused hperiod hlimited]
        dsimp only
        split
        · omega
        next hnot =>
          have := hregular (hon.2 howner) hnot
          omega
      next hunlimited =>
        have hnot : requestID ∉ w.since := by
          intro hmem
          have hle := charge_le_sum h.sound hmem
          have hcharge : charge w.store.ledger requestID =
              heldFor w.store.ledger requestID + actualFor w.store.ledger requestID := rfl
          omega
        rw [if_neg hunlimited, if_neg hnot, add_zero]
        exact hbefore

theorem used_zero (plan : SubscriptionPlan) (sub : UserSubscription) (model : String) :
    Used plan sub sub (trimSpace model) 0 := by
  have happly : applySubscriptionUsageDelta plan sub model 0 = .ok sub := rfl
  exact (applySubscriptionUsageDelta_ok happly).1

/-- The row that a change of usage on the ledger `l` leaves. -/
theorem used_of_usageSaved {l : Ledger} {owner delta : Int} {model : String}
    {old new : UserSubscription} {plan' : SubscriptionPlan}
    (h : UsageSaved (s.setLedger l) s' owner model delta old new plan')
    (hrow : s'.subscriptions.get? id = some sub') :
    ∃ sub, s.subscriptions.get? id = some sub ∧
      (owner ≠ id ∧ sub' = sub ∨
        owner = id ∧ terms sub' = terms sub ∧
          ∀ plan, s.plans.get? sub.planID = some plan →
            Used plan sub sub' (trimSpace model) delta) := by
  rw [h.get?] at hrow
  split at hrow
  next hid =>
    obtain rfl : new = sub' := Option.some.inj hrow
    have hcurrent := h.current
    rw [← hid, setLedger_subscriptions] at hcurrent
    refine ⟨old, hcurrent, .inr ⟨hid.symm, h.used.terms, ?_⟩⟩
    intro plan hplan
    have hfound := h.found.2
    rw [setLedger_plans, hplan] at hfound
    obtain rfl : plan = plan' := Option.some.inj hfound
    exact h.used
  next hne => exact ⟨sub', hrow, .inl ⟨fun e => hne e.symm, rfl⟩⟩

theorem Watched.step_eq_self {a : Action} (h : a.exec cal w.store = w.store) :
    w.step cal id a = w := by
  have hstarted : a.started id w.store w.store = [] := by
    cases a with
    | preConsume u now requestID userID modelName amount =>
      apply if_neg
      rintro ⟨hnone, hsome⟩
      rw [hnone] at hsome
      cases hsome
    | settle => rfl
    | refund => rfl
    | resetDue => rfl
  unfold Watched.step
  rw [h, hstarted, keptSince, if_pos rfl]
  rfl

theorem Accounted.settled {u : Uuids} {subscriptionID actual : Int} (h : Accounted id w)
    (hregular : Regular id w (.settle u requestID subscriptionID actual))
    (hrun : (settleSubscriptionReservation u requestID subscriptionID actual).run w.store =
      (.ok (), s')) : Accounted id ⟨s', keptSince id w.store s' w.since⟩ := by
  obtain ⟨hnonneg, record, hrecord, -, -, hsettled⟩ := settleSubscriptionReservation_ok h.sound hrun
  have hreq : record.requestID = requestID := Table.pk_of_get? hrecord
  cases hsettled with
  | already _ _ hs =>
    rw [← hs, keptSince, if_pos rfl]
    exact h
  | settled l left hsome hall hleft hs =>
    have hmoved := hall.requestMoved (request_of_openReservations _ _)
    have hsound := hall.sound h.sound hnonneg
    rw [hall.left_eq hsome, sub_zero, reservedTotal_openReservations, hreq] at hmoved
    rw [reservedTotal_openReservations, hreq] at hs
    rw [hreq] at hsome
    rcases hs with ⟨hzero, rfl⟩ | ⟨old, new, plan', hsaved⟩
    · apply Accounted.closed h
      case hs => exact hsound
      case hrecord => exact hrecord
      case hrecords => exact fun _ hq => hq
      case hplans => rfl
      case hmoved => exact hmoved
      case hsome => exact hsome
      case hregular => exact hregular
      case hused =>
        intro sub' hrow
        refine ⟨sub', hrow, ?_⟩
        rw [hzero, sub_self]
        by_cases howner : record.userSubscriptionID = id
        · exact .inr ⟨howner, rfl, fun plan _ => used_zero plan sub' record.modelName⟩
        · exact .inl ⟨howner, rfl⟩
    · have hledger : s'.ledger = l := by
        rw [hsaved.state]
        rfl
      apply Accounted.closed h
      case hs =>
        rw [hledger]
        exact hsound
      case hrecord => exact hrecord
      case hrecords =>
        rw [hsaved.state]
        exact fun _ hq => hq
      case hplans =>
        rw [hsaved.state]
        rfl
      case hmoved =>
        rw [hledger]
        exact hmoved
      case hsome => exact hsome
      case hregular => exact hregular
      case hused => exact fun sub' hrow => used_of_usageSaved hsaved hrow

/-- A refund settles the request at 0. -/
theorem Accounted.refunded {u : Uuids} (h : Accounted id w)
    (hregular : Regular id w (.refund u requestID))
    (hrun : (refundSubscriptionPreConsume u requestID).run w.store = (.ok (), s')) :
    Accounted id ⟨s', keptSince id w.store s' w.since⟩ := by
  obtain ⟨record, hrecord, hrefunded⟩ := refundSubscriptionPreConsume_ok h.sound hrun
  have hreq : record.requestID = requestID := Table.pk_of_get? hrecord
  have hon : ∀ q (s : Store), On id s q → On id (Store.markPreConsume record.requestID .refunded s) q := by
    intro q s hq
    rw [On, Store.markPreConsume, Table.get?_update]
    split
    next e =>
      cases hget : s.preConsumes.get? q with
      | none =>
        rw [On, hget] at hq
        cases hq
      | some r =>
        rw [On, hget] at hq
        rw [← e, hget]
        exact hq
    next => exact hq
  cases hrefunded with
  | already _ hs =>
    rw [← hs, keptSince, if_pos rfl]
    exact h
  | nothing _ _ hs =>
    rw [hs]
    apply Accounted.turned h
    case hs => exact h.sound
    case hrecords => exact fun q hq => hon q w.store (h.recorded q hq)
    case hcharge => exact fun _ _ => rfl
    case hrow => exact fun sub' plan hperiodic => ⟨sub', hperiodic, .refl plan sub'⟩
  | released _ l s₁ old new plan' hsome hall hsaved hs =>
    have hmoved := hall.requestMoved (request_of_openReservations _ _)
    have hsound := hall.sound h.sound
    rw [reservedTotal_openReservations, hreq] at hmoved hsaved
    rw [hreq] at hsome
    have hledger : s'.ledger = l := by
      rw [hs, hsaved.state]
      rfl
    apply Accounted.closed h
    case hs =>
      rw [hledger]
      exact hsound
    case hrecord => exact hrecord
    case hrecords =>
      rw [hs, hsaved.state]
      exact fun q hq => hon q _ hq
    case hplans =>
      rw [hs, hsaved.state]
      rfl
    case hmoved =>
      rw [hledger]
      exact hmoved
    case hsome => exact hsome
    case hregular => exact hregular
    case hused =>
      intro sub' hrow
      rw [hs] at hrow
      rw [zero_sub]
      exact used_of_usageSaved hsaved hrow

/-- The transaction of `ResetDueSubscriptions`. -/
theorem Accounted.resetDue {u : Uuids} {other : Int} (h : Accounted id w)
    (hrun : (resetDueSubscription cal u now other).run w.store = (.ok (), s')) :
    Accounted id ⟨s', keptSince id w.store s' w.since⟩ := by
  cases resetDueSubscription_ok hrun with
  | passed hs =>
    rw [← hs, keptSince, if_pos rfl]
    exact h
  | looked old new plan' hold hfound hreset =>
    obtain ⟨hreservations, hsettlements⟩ := hreset.records_eq
    have hid : old.id = other := Table.pk_of_get? hold
    rw [← hid] at hold
    apply Accounted.turned h
    case hs => exact hreset.sound h.sound
    case hrecords =>
      intro q hq
      rw [On, hreset.preConsumes_eq]
      exact h.recorded q hq
    case hcharge =>
      intro q _
      rw [charge_of_moved (requestMoved_of_eq hreservations hsettlements q) q]
      simp
    case hrow =>
      intro sub' plan ⟨hrow, hplan, hperiod⟩
      rw [hreset.plans_eq] at hplan
      rw [hreset.get? hold] at hrow
      split at hrow
      next hother =>
        obtain rfl : new = sub' := Option.some.inj hrow
        have hturned := turned_of_resetOutcome hreset
        rw [planID_of_terms hturned.terms] at hplan
        obtain rfl : plan = plan' := Option.some.inj (hplan.symm.trans hfound.2)
        exact ⟨old, ⟨by rw [hother]; exact hold, hplan, hperiod⟩, hturned⟩
      next => exact ⟨sub', ⟨hrow, hplan, hperiod⟩, .refl plan sub'⟩

end Invariant

section Runs

variable {cal : Calendar} {id : Int} {w : Watched} {a : Action} {acts : List Action}

/-- A request that is recorded already is not charged again. -/
theorem preConsume_replayed {u : Uuids} {now userID amount : Int} {requestID modelName : String}
    {s s' : Store} {record : SubscriptionPreConsumeRecord} {res : SubscriptionPreConsumeResult}
    (hrecord : s.preConsumes.get? requestID = some record)
    (h : (preConsumeUserSubscription cal u now requestID userID modelName amount).run s =
      (.ok res, s')) : s' = s := by
  obtain ⟨-, h⟩ := checked h
  obtain ⟨-, h⟩ := checked h
  obtain ⟨-, h⟩ := checked h
  obtain ⟨found, s₁, ⟨rfl, rfl⟩, h⟩ := run_bind_of_ok h read_ok
  rw [findPreConsume, hrecord] at h
  obtain ⟨-, h⟩ := checked h
  obtain ⟨sub, s₂, ⟨-, rfl⟩, h⟩ := run_bind_of_ok h readOrFail_ok
  obtain ⟨-, h⟩ := checked h
  cases h
  rfl

/-- A transaction that fails changes nothing, so only the one that commits matters. -/
theorem Accounted.of_commit {α : Type} {p : Flow α} (h : Accounted id w)
    (hexec : a.exec cal w.store = (p.commit w.store).2)
    (hok : ∀ x s', p.run w.store = (.ok x, s') → a.exec cal w.store = s' →
      Accounted id (w.step cal id a)) :
    Accounted id (w.step cal id a) := by
  cases hrun : p.commit w.store with
  | mk result s' =>
  rw [hrun] at hexec
  cases result with
  | error e =>
    rw [Watched.step_eq_self (hexec.trans (commit_eq_error hrun).1)]
    exact h
  | ok x => exact hok x s' (commit_eq_ok.1 hrun) hexec

theorem Accounted.step (h : Accounted id w) (hregular : Regular id w a) :
    Accounted id (w.step cal id a) := by
  cases a with
  | preConsume u now requestID userID modelName amount =>
    apply h.of_commit rfl
    intro res s' hrun hexec
    cases hnew : w.store.preConsumes.get? requestID with
    | some record =>
      rw [Watched.step_eq_self (hexec.trans (preConsume_replayed hnew hrun))]
      exact h
    | none =>
      obtain ⟨htrim, hunknown⟩ := hregular hnew
      obtain ⟨-, c, plan, i, -, -, hdone⟩ := preConsumeUserSubscription_ok hnew hrun
      have hrecord : s'.preConsumes.get? requestID = some
          { newRecord requestID userID modelName amount with userSubscriptionID := c.id } :=
        Table.get?_of_mem ((Table.mem_insert? hdone.recorded).2 (.inr rfl))
      have hstarted : (Action.preConsume u now requestID userID modelName amount).started id w.store s'
          = if c.id = id then [requestID] else [] := by
        rw [Action.started, hrecord]
        simp [hnew]
      rw [Watched.step, hexec, hstarted]
      exact h.preConsumed hnew htrim hunknown hdone
  | settle u requestID subscriptionID actual =>
    apply h.of_commit rfl
    intro _ s' hrun hexec
    rw [Watched.step, hexec]
    exact h.settled hregular hrun
  | refund u requestID =>
    apply h.of_commit rfl
    intro _ s' hrun hexec
    rw [Watched.step, hexec]
    exact h.refunded hregular hrun
  | resetDue u now other =>
    apply h.of_commit rfl
    intro _ s' hrun hexec
    rw [Watched.step, hexec]
    exact h.resetDue hrun

theorem Accounted.run (h : Accounted id w) (hregular : RegularRun cal id w acts) :
    Accounted id (w.run cal id acts) := by
  induction acts generalizing w with
  | nil => exact h
  | cons a acts ih =>
    obtain ⟨hfirst, hrest⟩ := hregular
    exact ih (h.step hfirst) hrest

end Runs

/-- A subscription whose 1000 are reset every day. -/
def dailyStore : Store :=
  sampleStore { samplePlan with quotaResetPeriod := "daily" } (sampleSubscription 1000)

/-- 10 are reserved for "p" on the first day and 30 for "q" on the second. -/
def twoDays : List Action := [
  .preConsume (sampleUuids "a") 10 "p" 7 "m" 10,
  .resetDue (sampleUuids "b") 100000 3,
  .preConsume (sampleUuids "c") 100000 "q" 7 "m" 30]

end CodeGo.Commerce.PeriodUsage
