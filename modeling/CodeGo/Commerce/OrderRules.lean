import CodeGo.Commerce.Orders

/-!
# Rules for the statements on orders

Which rows each statement writes, for `Lock`: the rows that it locks, and no others.
-/

namespace CodeGo.Commerce.Orders

open CodeGo.Lib CodeGo.Lib.Prog CodeGo.Lib.Lock

/-- The orders of a user with the first-purchase discount. -/
def Store.discountedOrder (s : Store) (userID : Int) (tradeNo : String) : Bool :=
  (s.orders.get? tradeNo).any fun o => o.userID = userID ∧ o.firstPurchaseDiscountApplied

def Cell.agree (s s' : Store) : Cell → Prop
  | .order t => s'.orders.get? t = s.orders.get? t
  | .user u => s'.discountedOrder u = s.discountedOrder u
  | .account u => s'.accounts u = s.accounts u
  | .event k => s'.ledger.any (·.eventKey = k) = s.ledger.any (·.eventKey = k)
  | .subscription i => s'.subscriptions.get? i = s.subscriptions.get? i

instance : Parts Store Cell where
  agree x s s' := x.agree s s'
  agree_refl x s := by cases x <;> rfl
  agree_trans x s s' s'' h h' := by cases x <;> exact h'.trans h

theorem framed_read {α : Type} (f : Store → α) : Framed (read f) :=
  ⟨fun _ x _ => agree_refl x _, fun _ => trivial⟩

theorem framed_readOrder (tradeNo : String) : Framed (readOrder tradeNo) :=
  ⟨fun _ x _ => agree_refl x _, fun _ => trivial⟩

theorem framed_service (granted : Bool) : Framed (service granted) := .ite trivial trivial

theorem get?_saveOrder (s : Store) (order : SubscriptionOrder) (t : String) :
    (s.saveOrder order).orders.get? t =
      if t = order.tradeNo then (s.orders.get? order.tradeNo).map (orderColumns order)
      else s.orders.get? t :=
  Table.get?_update (keepsIndexes_orderColumns order) t

theorem framed_saveOrder (order : SubscriptionOrder) : Framed (saveOrder order) := by
  refine ⟨fun s x hx => ?_, fun _ => trivial⟩
  cases x with
  | order t =>
    have ht : t ≠ order.tradeNo := fun e => hx (by simp [e])
    show (s.saveOrder order).orders.get? t = s.orders.get? t
    rw [get?_saveOrder, if_neg ht]
  | user u =>
    -- the user and the discount of an order stay as they were created
    show (s.saveOrder order).discountedOrder u = s.discountedOrder u
    funext t
    unfold Store.discountedOrder
    rw [get?_saveOrder]
    split
    · subst_vars
      cases s.orders.get? order.tradeNo <;> rfl
    · rfl
  | account u => rfl
  | event k => rfl
  | subscription i => rfl

theorem framed_createOrder (order : SubscriptionOrder) : Framed (createOrder order) := by
  refine ⟨fun s x hx => ?_, fun r => by cases r <;> trivial⟩
  dsimp only
  cases hinsert : s.orders.insert? order with
  | none => exact agree_refl x s
  | some orders =>
    have hget := Table.get?_insert? hinsert
    cases x with
    | order t =>
      have ht : t ≠ order.tradeNo := fun e => hx (by simp [e])
      show orders.get? t = s.orders.get? t
      rw [hget, pk_order, if_neg ht]
    | user u =>
      show Store.discountedOrder { s with orders := orders } u = s.discountedOrder u
      funext t
      unfold Store.discountedOrder
      dsimp only
      rw [hget, pk_order]
      split
      case isTrue ht =>
        have hnone : s.orders.get? t = none := by
          rw [Table.get?_eq_none]
          intro p hp e
          have hclash := (Table.insert?_eq_some hinsert).2 p hp
          rw [Indexed.clash_of_pk p order (by rw [e, ht, pk_order])] at hclash
          cases hclash
        rw [hnone]
        cases hflag : order.firstPurchaseDiscountApplied with
        | false => simp [hflag]
        | true =>
          have hu : u ≠ order.userID := fun e => hx (by simp [hflag, e])
          simp [Ne.symm hu]
      case isFalse => rfl
    | account u => rfl
    | event k => rfl
    | subscription i => rfl

theorem framed_freeProps (orderType : PropOrderType) (tradeNo : String) (status : PropStatus) :
    Framed (freeProps orderType tradeNo status) :=
  .ite trivial ⟨fun _ x _ => by cases x <;> rfl, fun _ => trivial⟩

theorem framed_saveProp (prop : BlindBoxProp) : Framed (saveProp prop) :=
  ⟨fun _ x _ => by cases x <;> rfl, fun _ => trivial⟩

theorem framed_saveAccount (userID : Int) (account : SubscriptionResetOpportunityAccount) :
    Framed (saveAccount userID account) := by
  refine ⟨fun s x hx => ?_, fun _ => trivial⟩
  cases x with
  | account u =>
    have hu : u ≠ userID := fun e => hx (by simp [e])
    exact Function.update_of_ne hu _ _
  | order t => rfl
  | user u => rfl
  | event k => rfl
  | subscription i => rfl

theorem framed_createLedger (row : SubscriptionResetOpportunityLedger) :
    Framed (createLedger row) := by
  refine ⟨fun s x hx => ?_, fun r => by cases r <;> trivial⟩
  dsimp only
  split
  · exact agree_refl x s
  · cases x with
    | event k =>
      have hk : ¬ row.eventKey = k := fun e => hx (by simp [e])
      show (s.ledger ++ [row]).any _ = s.ledger.any _
      simp [hk]
    | order t => rfl
    | user u => rfl
    | account u => rfl
    | subscription i => rfl

theorem framed_saveSubscription (sub : UserSubscription) : Framed (saveSubscription sub) := by
  refine ⟨fun s x hx => ?_, fun _ => trivial⟩
  cases x with
  | subscription i =>
    have hi : i ≠ sub.id := fun e => hx (by simp [e])
    refine (Table.get?_update (keepsIndexes_subscriptionColumns sub) i).trans ?_
    rw [if_neg hi]
  | order t => rfl
  | user u => rfl
  | account u => rfl
  | event k => rfl

theorem framed_lockUser (userID : Int) : Framed (lockUser userID) :=
  ⟨fun _ x _ => agree_refl x _, fun r => by cases r <;> trivial⟩

theorem framed_getOrCreateAccount (userID : Int) :
    Framed (getOrCreateSubscriptionResetOpportunityAccountTx userID) := by
  apply Framed.ite
  · trivial
  · refine Framed.bind ⟨fun _ x _ => agree_refl x _, fun _ => trivial⟩ ?_
    rintro (_ | account)
    · refine Framed.bind (p := stepE _ _) ⟨fun s x hx => ?_, fun r => by cases r <;> trivial⟩
        fun _ => trivial
      dsimp only
      split
      · exact agree_refl x s
      · cases x with
        | account u =>
          have hu : u ≠ userID := fun e => hx (by simp [e])
          exact Function.update_of_ne hu _ _
        | order t => rfl
        | user u => rfl
        | event k => rfl
        | subscription i => rfl
    · trivial

theorem framed_award (inviteeID : Int) (purchaseType : ReferralPurchaseType)
    (orderSourceType orderSourceID : String) :
    Framed (awardReferralSubscriptionResetOpportunityTx inviteeID purchaseType orderSourceType
      orderSourceID) := by
  apply Framed.ite
  · trivial
  · apply (framed_read _).bind
    rintro (_ | inviterID)
    · trivial
    · apply Framed.ite
      · trivial
      · apply Framed.bind
        · exact .ite trivial (framed_read _)
        · intro previousPaidCount
          apply Framed.ite
          · trivial
          · apply (framed_read _).bind
            intro existing
            apply Framed.ite
            · trivial
            · apply (framed_getOrCreateAccount _).bind
              intro account
              exact (framed_saveAccount _ _).bind fun _ => framed_createLedger _

theorem framed_use (now : Int) (currentMonth : String) (explicitOrder : List Int) (restored : Bool)
    (userID : Int) :
    Framed (useUserSubscriptionResetOpportunity now currentMonth explicitOrder restored userID) := by
  apply Framed.ite
  · trivial
  · apply (framed_getOrCreateAccount _).bind
    intro account
    apply Framed.ite
    · trivial
    · apply Framed.ite
      · trivial
      · apply (framed_read _).bind
        rintro (_ | ⟨sub, subs⟩)
        · trivial
        · apply (framed_service _).bind
          intro _
          apply (framed_saveSubscription _).bind
          intro _
          exact (framed_saveAccount _ _).bind fun _ => framed_createLedger _

end CodeGo.Commerce.Orders
