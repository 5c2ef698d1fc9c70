import CodeGo.Commerce.Orders

/-!
# The award for the first purchase of an invitee

The fulfilment of an order counts the orders that its user has paid for before, when the order
itself is stored as paid already. So the count is never 0, and no purchase history awards a reset
opportunity.
-/

namespace CodeGo.Commerce.Orders

open CodeGo.Lib CodeGo.Lib.Prog

/-- The reset opportunities that a user has brought to the one who invited them. -/
def Store.gains (s : Store) (inviteeID : Int) : Nat :=
  s.ledger.countP fun row => row.changeType = .earn ∧ row.relatedUserID = inviteeID

/-- The stores that calls on the orders of a user lead to. -/
inductive PurchaseHistory (inviteeID : Int) (s₀ : Store) : Store → Prop where
  | start : PurchaseHistory inviteeID s₀ s₀
  | complete {s : Store} (now : Int)
    (tradeNo providerPayload expectedPaymentProvider actualPaymentMethod : String) :
    PurchaseHistory inviteeID s₀ s →
      (∀ o, s.orders.get? tradeNo = some o → o.userID = inviteeID ∧ 0 < o.money) →
      PurchaseHistory inviteeID s₀ ((completeSubscriptionOrder now tradeNo providerPayload
        expectedPaymentProvider actualPaymentMethod).commit s).2
  | fulfill {s : Store} (services : Services) (tradeNo : String) :
    PurchaseHistory inviteeID s₀ s →
      (∀ o, s.orders.get? tradeNo = some o → o.userID = inviteeID ∧ 0 < o.money) →
      PurchaseHistory inviteeID s₀ ((fulfillPaidSubscriptionOrder services tradeNo).commit s).2

section Steps

variable {s s' : Store} {tradeNo : String}

theorem commit_eq_or {α : Type} {p : Flow α} {s : Store} :
    (p.commit s).2 = s ∨ ∃ a, p.run s = (.ok a, (p.commit s).2) := by
  unfold commit
  match h : p.run s with
  | (.ok a, s') => exact .inr ⟨a, rfl⟩
  | (.error e, s') => exact .inl rfl

theorem service_ok {granted : Bool} {a : PUnit} (h : (service granted).run s = (.ok a, s')) :
    s' = s := by
  cases granted with
  | true =>
    cases h
    rfl
  | false => cases h

theorem freeProps_ok {orderType : PropOrderType} {status : PropStatus} {a : PUnit}
    (h : (freeProps orderType tradeNo status).run s = (.ok a, s')) :
    s'.orders = s.orders ∧ s'.ledger = s.ledger ∧ s'.plans = s.plans := by
  unfold freeProps at h
  split at h
  · cases h
    exact ⟨rfl, rfl, rfl⟩
  · cases h
    exact ⟨rfl, rfl, rfl⟩

/-- A user who has paid before brings no one an award. -/
theorem award_of_paid {inviteeID : Int} {purchaseType : ReferralPurchaseType}
    {orderSourceType orderSourceID : String} (hpaid : 0 < s.paidPurchases inviteeID) :
    ((awardReferralSubscriptionResetOpportunityTx inviteeID purchaseType orderSourceType
      orderSourceID).run s).2 = s := by
  unfold awardReferralSubscriptionResetOpportunityTx
  split
  next => rfl
  next hargs =>
    rw [Prog.run_bind_ok (show _ = (Except.ok (s.users inviteeID), s) from rfl)]
    cases s.users inviteeID with
    | none => rfl
    | some inviterID =>
      dsimp only
      split
      next => rfl
      next =>
        have hcount : (countSuccessfulPaidPurchasesTx inviteeID).run s =
            (.ok (s.paidPurchases inviteeID), s) := by
          unfold countSuccessfulPaidPurchasesTx
          rw [if_neg (by omega)]
          rfl
        rw [run_bind_ok hcount, if_pos hpaid]
        rfl

/-- The order as `FulfillPaidSubscriptionOrder` saves it. -/
def SubscriptionOrder.fulfilled (o : SubscriptionOrder) (groupBuyID : Int) : SubscriptionOrder :=
  { o with groupBuyID := groupBuyID, fulfillmentStatus := .completed }

theorem fulfill_ok {services : Services}
    (hpaid : ∀ o, s.orders.get? tradeNo = some o → 0 < s.paidPurchases o.userID) {a : PUnit}
    (h : (fulfillPaidSubscriptionOrder services tradeNo).run s = (.ok a, s')) :
    s'.ledger = s.ledger ∧ s'.plans = s.plans ∧ (s'.orders = s.orders ∨ ∃ o groupBuyID,
      s.orders.get? tradeNo = some o ∧ o.status = .success ∧
        s'.orders = (s.saveOrder (o.fulfilled groupBuyID)).orders) := by
  unfold fulfillPaidSubscriptionOrder at h
  split at h
  next => cases h
  next =>
    rw [Prog.run_bind_ok (show _ = (Except.ok (s.orders.get? tradeNo), s) from rfl)] at h
    cases horder : s.orders.get? tradeNo with
    | none =>
      rw [horder] at h
      cases h
    | some order =>
      rw [horder] at h
      have hpaid := hpaid order horder
      dsimp only at h
      split at h
      next => cases h
      next hsuccess =>
        rw [not_not] at hsuccess
        split at h
        next =>
          cases h
          exact ⟨rfl, rfl, .inl rfl⟩
        next =>
          split at h
          next => cases h
          next =>
            split at h
            next =>
              obtain ⟨_, s₁, hservice, h⟩ := run_bind_eq_ok h
              cases service_ok hservice
              cases h
              exact ⟨rfl, rfl, .inr ⟨order, order.groupBuyID, rfl, hsuccess, rfl⟩⟩
            next =>
              rw [Prog.run_bind_ok (show _ = (Except.ok (s.plans order.planID), s) from rfl)] at h
              cases hplan : s.plans order.planID with
              | none =>
                rw [hplan] at h
                cases h
              | some plan =>
                rw [hplan] at h
                obtain ⟨_, s₁, hservice, h₁⟩ := run_bind_eq_ok h
                have hs₁ := service_ok hservice
                subst hs₁
                obtain ⟨_, s₂, haward, h₂⟩ := run_bind_eq_ok h₁
                have hs₂ : s₂ = s₁ := by
                  rw [← award_of_paid hpaid, haward]
                subst hs₂
                obtain ⟨_, s₃, ⟨horders, hledger, hplans⟩, h₃⟩ := run_bind_of_ok h₂ freeProps_ok
                obtain ⟨_, s₄, hbonus, h₄⟩ := run_bind_eq_ok h₃
                have hs₄ := service_ok hbonus
                subst hs₄
                cases hgroup : services.groupBuy with
                | none =>
                  rw [hgroup] at h₄
                  cases h₄
                | some groupBuyID =>
                  rw [hgroup] at h₄
                  cases h₄
                  refine ⟨hledger, hplans, .inr ⟨order, groupBuyID, rfl, hsuccess, ?_⟩⟩
                  simp only [Store.saveOrder, horders]
                  rfl

theorem complete_ok {now : Int}
    {providerPayload expectedPaymentProvider actualPaymentMethod : String} {a : Bool}
    (h : (completeSubscriptionOrder now tradeNo providerPayload expectedPaymentProvider
      actualPaymentMethod).run s = (.ok a, s')) :
    (s' = s ∧ ∃ o, s.orders.get? tradeNo = some o ∧ o.status = .success) ∨
      ∃ o order, s.orders.get? tradeNo = some o ∧ o.status = .pending ∧
      order.tradeNo = tradeNo ∧ order.status = .success ∧ s' = s.saveOrder order := by
  unfold completeSubscriptionOrder at h
  split at h
  next => cases h
  next =>
    rw [Prog.run_bind_ok (show _ = (Except.ok (s.orders.get? tradeNo), s) from rfl)] at h
    cases horder : s.orders.get? tradeNo with
    | none =>
      rw [horder] at h
      cases h
    | some order =>
      rw [horder] at h
      have hkey : order.tradeNo = tradeNo := Table.pk_of_get? horder
      dsimp only at h
      split at h
      next => cases h
      next =>
        split at h
        next hsuccess =>
          cases h
          exact .inl ⟨rfl, order, rfl, hsuccess⟩
        next =>
          split at h
          next => cases h
          next hpending =>
            rw [not_not] at hpending
            cases h
            refine .inr ⟨order, _, rfl, hpending, ?_, ?_, rfl⟩
            · exact hkey
            · rfl

end Steps

section Histories

variable {inviteeID : Int} {s₀ s : Store} {tradeNo : String} {o₀ : SubscriptionOrder}

theorem get?_saved (s : Store) (order : SubscriptionOrder) (t : String) :
    (s.saveOrder order).orders.get? t =
      if t = order.tradeNo then (s.orders.get? order.tradeNo).map (orderColumns order)
      else s.orders.get? t :=
  Table.get?_update (keepsIndexes_orderColumns order) t

/-- The order is paid, and has brought no award. -/
structure PaidFor (inviteeID : Int) (tradeNo : String) (planID : Int) (s : Store) : Prop where
  order : ∃ o, s.orders.get? tradeNo = some o ∧ o.userID = inviteeID ∧ 0 < o.money ∧
    o.status = .success ∧ o.planID = planID
  gains : s.gains inviteeID = 0

theorem PaidFor.paidPurchases {planID : Int} (h : PaidFor inviteeID tradeNo planID s) :
    0 < s.paidPurchases inviteeID := by
  obtain ⟨o, hget, huser, hmoney, hstatus, -⟩ := h.order
  have hpos : 0 < s.orders.rows.countP fun o =>
      o.userID = inviteeID ∧ o.status = .success ∧ 0 < o.money :=
    List.countP_pos_iff.2 ⟨o, Table.mem_of_get? hget, by simp [huser, hstatus, hmoney]⟩
  unfold Store.paidPurchases
  omega

/-- A save of an order, as a success, keeps the paid one. -/
theorem PaidFor.saved {planID : Int} (order : SubscriptionOrder) {s' : Store}
    (h : PaidFor inviteeID tradeNo planID s) (hstatus : order.status = .success)
    (horders : s'.orders = (s.saveOrder order).orders) (hledger : s'.ledger = s.ledger) :
    PaidFor inviteeID tradeNo planID s' := by
  obtain ⟨o, hget, huser, hmoney, hsuccess, hplan⟩ := h.order
  constructor
  · rw [horders]
    by_cases ht : tradeNo = order.tradeNo
    · refine ⟨orderColumns order o, ?_, huser, hmoney, hstatus, hplan⟩
      rw [get?_saved, if_pos ht, ← ht, hget]
      rfl
    · exact ⟨o, by rw [get?_saved, if_neg ht, hget], huser, hmoney, hsuccess, hplan⟩
  · rw [Store.gains, hledger]
    exact h.gains

theorem PurchaseHistory.paidFor {planID : Int} (h₀ : PaidFor inviteeID tradeNo planID s₀)
    (hs : PurchaseHistory inviteeID s₀ s) : PaidFor inviteeID tradeNo planID s := by
  induction hs with
  | start => exact h₀
  | complete now t providerPayload expectedPaymentProvider actualPaymentMethod _ hof ih =>
    rcases commit_eq_or with hsame | ⟨a, hrun⟩
    · rw [hsame]
      exact ih
    · rcases complete_ok hrun with ⟨hsame, -⟩ | ⟨o, order, -, -, -, hsuccess, hsaved⟩
      · rw [hsame]
        exact ih
      · rw [hsaved]
        exact PaidFor.saved _ ih hsuccess rfl rfl
  | fulfill services t _ hof ih =>
    rcases commit_eq_or with hsame | ⟨a, hrun⟩
    · rw [hsame]
      exact ih
    · have hpaid := fun o ho => (hof o ho).1 ▸ ih.paidPurchases
      obtain ⟨hledger, -, horders | ⟨o, groupBuyID, -, hsuccess, horders⟩⟩ := fulfill_ok hpaid hrun
      · obtain ⟨o, ho⟩ := ih.order
        exact ⟨⟨o, by rw [horders]; exact ho.1, ho.2⟩, by rw [Store.gains, hledger]; exact ih.gains⟩
      · exact PaidFor.saved (o.fulfilled groupBuyID) ih hsuccess horders hledger

/-- What the first paid order of an invitee should bring to the inviter. -/
def Store.Awarded (s : Store) (inviteeID : Int) (dayPass : Bool) (tradeNo : String) : Prop :=
  if dayPass then s.gains inviteeID = 0
  else ∀ o, s.orders.get? tradeNo = some o → o.fulfillmentStatus = .completed →
    s.gains inviteeID = 1

/-- The plan of the order is a day pass. -/
def Store.dayPass (s : Store) (o : SubscriptionOrder) : Bool :=
  (s.plans o.planID).any isSubscriptionDayPassPlan

/-- The first order of an invitee that is paid brings what it should only as a day pass, or as long
as it is not fulfilled. -/
theorem referral_awarded_iff {inviteeID : Int} {s₀ s₁ s : Store} {tradeNo : String}
    {o₀ : SubscriptionOrder} (hnone : s₀.gains inviteeID = 0)
    (horder : s₀.orders.get? tradeNo = some o₀) (huser : o₀.userID = inviteeID)
    (hmoney : 0 < o₀.money) (hpending : o₀.status = .pending) {now : Int}
    {providerPayload expectedPaymentProvider actualPaymentMethod : String} {started : Bool}
    (hpaid : (completeSubscriptionOrder now tradeNo providerPayload expectedPaymentProvider
      actualPaymentMethod).run s₀ = (.ok started, s₁)) (hs : PurchaseHistory inviteeID s₁ s) :
    s.Awarded inviteeID (s₀.dayPass o₀) tradeNo ↔ s₀.dayPass o₀ = true ∨
      ∀ o, s.orders.get? tradeNo = some o → o.fulfillmentStatus = .pending := by
  have hs₁ : PaidFor inviteeID tradeNo o₀.planID s₁ := by
    rcases complete_ok hpaid with ⟨-, o, ho, hsuccess⟩ | ⟨o, order, ho, -, hkey, hsuccess, rfl⟩
    · rw [horder] at ho
      cases ho
      rw [hpending] at hsuccess
      cases hsuccess
    · rw [horder] at ho
      cases ho
      refine ⟨⟨orderColumns order o₀, ?_, huser, hmoney, hsuccess, rfl⟩, hnone⟩
      rw [get?_saved, if_pos hkey.symm, hkey, horder]
      rfl
  have hzero := (hs.paidFor hs₁).gains
  unfold Store.Awarded
  split
  next hday => simp [hzero, hday]
  next hday =>
    rw [hzero]
    constructor
    · intro h
      refine .inr fun o ho => ?_
      cases hstatus : o.fulfillmentStatus with
      | pending => rfl
      | completed => exact absurd (h o ho hstatus) (by decide)
    · rintro (h | h) o ho hstatus
      · exact absurd h hday
      · rw [h o ho] at hstatus
        cases hstatus

end Histories

def monthCardOrder : SubscriptionOrder where
  tradeNo := "T"
  userID := 2
  planID := 1
  money := 10
  status := .pending
  fulfillmentStatus := .pending

/-- An invitee with a pending order for a month card. -/
def invitee : Store where
  plans := fun _ => some { id := 1 }
  users := fun u => some (if u = 2 then 1 else 0)
  orders := ⟨[monthCardOrder], List.pairwise_singleton _ _⟩

def inviteePaid : Store := ((completeSubscriptionOrder 1 "T" "" "" "").run invitee).2

def inviteeServed : Store := ((fulfillPaidSubscriptionOrder {} "T").commit inviteePaid).2

theorem ofInvitee {s : Store} (h : s.orders.rows.map (fun o => (o.userID, o.money)) = [(2, 10)])
    (o : SubscriptionOrder) (ho : s.orders.get? "T" = some o) : o.userID = 2 ∧ 0 < o.money := by
  have hmem : (o.userID, o.money) ∈ s.orders.rows.map fun o => (o.userID, o.money) :=
    List.mem_map_of_mem (f := fun o => (o.userID, o.money)) (Table.mem_of_get? ho)
  rw [h, List.mem_singleton, Prod.mk.injEq] at hmem
  rw [hmem.1, hmem.2]
  exact ⟨rfl, by decide⟩

theorem inviteeHistory : PurchaseHistory 2 inviteePaid inviteeServed :=
  .fulfill {} "T" .start (ofInvitee (by decide +kernel))

theorem inviteePaid_run :
    (completeSubscriptionOrder 1 "T" "" "" "").run invitee = (.ok true, inviteePaid) := by
  have hok : ((completeSubscriptionOrder 1 "T" "" "" "").run invitee).1.toOption = some true := by
    decide +kernel
  unfold inviteePaid
  match h : (completeSubscriptionOrder 1 "T" "" "" "").run invitee with
  | (.ok a, s) =>
    rw [h] at hok
    cases hok
    rfl
  | (.error e, s) =>
    rw [h] at hok
    cases hok

theorem referral_awarded_iff_sample :
    inviteeServed.Awarded 2 (invitee.dayPass monthCardOrder) "T" ↔
      invitee.dayPass monthCardOrder = true ∨
        ∀ o, inviteeServed.orders.get? "T" = some o → o.fulfillmentStatus = .pending :=
  referral_awarded_iff (by decide) rfl rfl (by decide) rfl inviteePaid_run inviteeHistory

/-- The first order of an invitee is fulfilled and the inviter gains nothing. -/
theorem referral_not_awarded : PurchaseHistory 2 inviteePaid inviteeServed ∧
    (inviteeServed.orders.get? "T").map (·.fulfillmentStatus) = some .completed ∧
      inviteeServed.gains 2 = 0 ∧ ¬ inviteeServed.Awarded 2 (invitee.dayPass monthCardOrder) "T" := by
  have hgains : inviteeServed.gains 2 = 0 := by decide +kernel
  have hdone : (inviteeServed.orders.get? "T").map (·.fulfillmentStatus) = some .completed := by
    decide +kernel
  refine ⟨inviteeHistory, hdone, hgains, fun h => ?_⟩
  have hday : invitee.dayPass monthCardOrder = false := by decide
  obtain ⟨o, ho, hcompleted⟩ := Option.map_eq_some_iff.1 hdone
  rw [Store.Awarded, hday] at h
  have hone := h o ho hcompleted
  rw [hgains] at hone
  cases hone

end CodeGo.Commerce.Orders
