import CodeGo.Commerce.OrderSteps

/-!
# Orders and their discounts, over all interleavings

The five transactions on subscription orders. `CompleteSubscriptionOrder`, `ExpireSubscriptionOrder`,
`CancelPendingSubscriptionOrder` and `FulfillPaidSubscriptionOrder` test an order in memory and save
all of it, and a prop is reserved by a read and a save. The lock of the user row guards the
first-purchase discount. So the law needs that no commit changes an order or an available prop that
a transaction in flight has read.
-/

namespace CodeGo.Commerce.Orders

open CodeGo.Lib CodeGo.Lib.Prog CodeGo.Lib.Lock CodeGo.Lib.Trim

/-- A row that was read is still as it was; of the purchases, what was settled is. -/
abbrev orderViews : Parts Store View where
  agree
    | .order t, s, s' => ∀ o, s.orders.get? t = some o → s'.orders.get? t = some o
    | .props u, s, s' => ∀ i p, s.props.get? i = some p →
        p.availableTo u .subscriptionDiscount90 = true → s'.props.get? i = some p
    | .account _, _, _ => True
    | .purchases, s, s' => Settled s s'
  agree_refl v s := by
    cases v with
    | order t => exact fun o h => h
    | props u => exact fun i p h _ => h
    | account u => trivial
    | purchases => exact .refl s
  agree_trans v s s' s'' h h' := by
    cases v with
    | order t => exact fun o ho => h' o (h o ho)
    | props u => exact fun i p hp ha => h' i p (h i p hp ha) ha
    | account u => trivial
    | purchases => exact Settled.trans h h'

attribute [local instance] orderViews

/-- The rows that are read and saved. -/
def View.row : View → Prop
  | .order _ => True
  | .props _ => True
  | .account _ => False
  | .purchases => False

section Statements

theorem get?_updateProps (s : Store) (f : BlindBoxProp → BlindBoxProp) (hf : ∀ p, (f p).id = p.id)
    (i : Int) : (s.updateProps f hf).props.get? i = (s.props.get? i).map f := by
  show (s.props.rows.map f).find? _ = (s.props.rows.find? _).map f
  rw [List.find?_map]
  congr 2
  funext p
  simp [hf]

theorem map_freed_none (tradeNo : String) (p : Option BlindBoxProp) :
    p.map (Freed tradeNo none) = p := by
  cases p <;> rfl

/-- The order that was read, saved with a new status. -/
theorem orderStep_save {c c' : Store} {order saved : SubscriptionOrder}
    {status : Option PropStatus} (horders : c'.orders = (c.saveOrder saved).orders)
    (hget : c.orders.get? order.tradeNo = some order)
    (hkey : saved.tradeNo = order.tradeNo) (hp : Progress order (orderColumns saved order) status)
    (hprops : ∀ i, c'.props.get? i = (c.props.get? i).map (Freed order.tradeNo status))
    (hplans : c'.plans = c.plans) : OrderStep c c' := by
  apply OrderStep.progress order (orderColumns saved order) status hget hp ?_ rfl ?_ hprops hplans
  · exact ⟨rfl, rfl, rfl, rfl, rfl, hp.status⟩
  · intro t
    rw [horders, get?_saveOrder, hkey, hget]
    rfl

/-- What the statements that grant things leave alone. -/
def Apart (w w' : Store → Store) : Prop :=
  ∀ c, (w' c).orders = (w c).orders ∧ (w' c).props = (w c).props ∧ (w' c).plans = (w c).plans

theorem Apart.refl (w : Store → Store) : Apart w w := fun _ => ⟨rfl, rfl, rfl⟩

theorem Apart.trans {w w' w'' : Store → Store} (h : Apart w w') (h' : Apart w' w'') :
    Apart w w'' := fun c =>
  ⟨(h' c).1.trans (h c).1, (h' c).2.1.trans (h c).2.1, (h' c).2.2.trans (h c).2.2⟩

variable {I : Store → Prop}

theorem does_read {α : Type} (f : Store → α) : Does I (read f) fun w _ w' => Apart w w' :=
  .step fun w _ => .refl w

theorem does_service (granted : Bool) : Does I (service granted) fun w _ w' => Apart w w' :=
  .ite (fun _ => .ret fun w => .refl w) fun _ => .fail

theorem does_getOrCreateAccount (userID : Int) :
    Does I (getOrCreateSubscriptionResetOpportunityAccountTx userID) fun w _ w' => Apart w w' := by
  apply Does.ite
  · exact fun _ => .fail
  · intro _
    apply Does.seq (R := Apart) Apart.trans (.step fun w _ => .refl w)
    rintro (_ | account)
    · apply Does.seq (R := Apart) (p := stepE _ _) Apart.trans
      · refine .stepE fun w c a _ c => ?_
        dsimp only
        split <;> exact ⟨rfl, rfl, rfl⟩
      · exact fun _ => .ret fun w => .refl w
    · exact .ret fun w => .refl w

theorem does_award (inviteeID : Int) (purchaseType : ReferralPurchaseType)
    (orderSourceType orderSourceID : String) :
    Does I (awardReferralSubscriptionResetOpportunityTx inviteeID purchaseType orderSourceType
      orderSourceID) fun w _ w' => Apart w w' := by
  have hret : Does I (.ret () : Flow PUnit) fun w _ w' => Apart w w' := .ret fun w => .refl w
  apply Does.ite
  · exact fun _ => hret
  · intro _
    apply Does.seq (R := Apart) Apart.trans (does_read _)
    rintro (_ | inviterID)
    · exact .fail
    · apply Does.ite (fun _ => hret)
      intro _
      have hcount : Does I (countSuccessfulPaidPurchasesTx inviteeID) fun w _ w' => Apart w w' :=
        .ite (fun _ => .ret fun w => .refl w) fun _ => does_read _
      apply Does.seq (R := Apart) Apart.trans hcount
      intro previousPaidCount
      apply Does.ite (fun _ => hret)
      intro _
      apply Does.seq (R := Apart) Apart.trans (does_read _)
      intro existing
      apply Does.ite (fun _ => hret)
      intro _
      apply Does.seq (R := Apart) Apart.trans (does_getOrCreateAccount _)
      intro account
      apply Does.seq (R := Apart) Apart.trans (.step fun w _ c => ⟨rfl, rfl, rfl⟩)
      intro _
      refine .stepE fun w c a _ c => ?_
      dsimp only
      split <;> exact ⟨rfl, rfl, rfl⟩

theorem does_freeProps (orderType : PropOrderType) {tradeNo : String} (status : PropStatus)
    (ht : blank tradeNo = false) :
    Does I (freeProps orderType tradeNo status) fun w _ w' => ∀ c, w' c =
      (w c).updateProps (·.freed orderType tradeNo status) (freed_id orderType tradeNo status) := by
  unfold freeProps
  rw [ht]
  exact .step fun w _ c => rfl

end Statements

section Requests

variable {I : Store → Prop}

/-- The order that is read stays as it is until the call commits. -/
theorem wp_readOrder {α : Type} {tradeNo : String} {q : Option SubscriptionOrder → Flow α}
    {F : Store → Prop} {Q : α → (Store → Store) → (Store → Prop) → Prop}
    (hnone : ∀ F', wp I (q none) id F' Q)
    (hsome : ∀ order F', order.tradeNo = tradeNo →
      (∀ c, F' c → c.orders.get? order.tradeNo = some order) → wp I (q (some order)) id F' Q) :
    wp I (readOrder tradeNo >>= q) id F Q := by
  apply wp_bind
  apply wp_step
  intro c₀ F' _ _ hF
  show wp I (q (c₀.orders.get? tradeNo)) id F' Q
  cases horder : c₀.orders.get? tradeNo with
  | none => exact hnone F'
  | some order =>
    have hkey := key_of_get? horder
    refine hsome order F' hkey fun c hc => ?_
    rw [hkey]
    exact (hF c hc).2.2 (.order tradeNo) (by simp) order horder

theorem ensures_complete (now : Int)
    (tradeNo providerPayload expectedPaymentProvider actualPaymentMethod : String) :
    Ensures I (completeSubscriptionOrder now tradeNo providerPayload expectedPaymentProvider
      actualPaymentMethod) fun _ c c' => OrderStep c c' := by
  unfold Ensures completeSubscriptionOrder
  split
  next => trivial
  next =>
    refine wp_readOrder (fun _ => trivial) fun order F _ hget => ?_
    dsimp only
    split
    next => trivial
    next =>
      split
      next => exact fun c _ _ => .same rfl rfl rfl
      next =>
        split
        next => trivial
        next hpending =>
          rw [not_not] at hpending
          apply wp_bind
          apply wp_step
          intro _ F' _ _ hF' c _ hc
          exact orderStep_save (c := c) rfl (hget c (hF' c hc).1) rfl (.complete hpending rfl rfl)
            (fun i => (map_freed_none _ _).symm) rfl

theorem wp_expireOrder {F : Store → Prop} (now : Int) {order : SubscriptionOrder}
    (ht : blank order.tradeNo = false)
    (hget : ∀ c, F c → c.orders.get? order.tradeNo = some order) :
    wp I (expireOrder now order) id F fun _ w F' => ∀ c, I c → F' c → OrderStep c (w c) := by
  unfold expireOrder
  split
  next => exact fun c _ _ => .same rfl rfl rfl
  next hpending =>
    rw [not_not] at hpending
    apply wp_bind
    apply wp_step
    intro _ F₁ _ _ hF₁
    apply wp_mono (does_freeProps .subscription .available ht _ F₁)
    rintro _ w F₂ ⟨hw, hF₂⟩ c _ hc
    rw [hw]
    exact orderStep_save rfl (hget c (hF₁ c (hF₂ c hc)).1) rfl (.expire hpending rfl)
      (get?_updateProps _ _ _) rfl

theorem ensures_expire (now : Int) (tradeNo expectedPaymentProvider : String) :
    Ensures I (expireSubscriptionOrder now tradeNo expectedPaymentProvider)
      fun _ c c' => OrderStep c c' := by
  unfold Ensures expireSubscriptionOrder
  split
  next => trivial
  next ht =>
    rw [Bool.not_eq_true] at ht
    refine wp_readOrder (fun _ => trivial) fun order F hkey hget => ?_
    dsimp only
    split
    next => trivial
    next => exact wp_expireOrder now (by rw [hkey]; exact ht) hget

theorem ensures_cancel (now userID : Int) (tradeNo : String) :
    Ensures I (cancelPendingSubscriptionOrder now userID tradeNo)
      fun _ c c' => OrderStep c c' := by
  unfold Ensures cancelPendingSubscriptionOrder
  split
  next => trivial
  next ht =>
    rw [not_or, Bool.not_eq_true] at ht
    refine wp_readOrder (fun _ => trivial) fun order F hkey hget => ?_
    dsimp only
    split
    next => trivial
    next => exact wp_expireOrder now (by rw [hkey]; exact ht.2) hget

theorem ensures_fulfill (services : Services) (tradeNo : String) :
    Ensures I (fulfillPaidSubscriptionOrder services tradeNo) fun _ c c' => OrderStep c c' := by
  unfold Ensures fulfillPaidSubscriptionOrder
  split
  next => trivial
  next ht =>
    rw [Bool.not_eq_true] at ht
    refine wp_readOrder (fun _ => trivial) fun order F hkey hget => ?_
    dsimp only
    split
    next => trivial
    next hpaid =>
      rw [not_not] at hpaid
      split
      next => exact fun c _ _ => .same rfl rfl rfl
      next hunfulfilled =>
        have hunfulfilled : order.fulfillmentStatus = .pending := by
          cases hstatus : order.fulfillmentStatus with
          | pending => rfl
          | completed => exact absurd hstatus hunfulfilled
        split
        next => trivial
        next =>
          split
          next hfuel =>
            apply wp_bind
            apply wp_mono (does_service services.fuel _ F)
            rintro _ w F₁ ⟨hw, hF₁⟩
            apply wp_step
            intro _ F₂ _ _ hF₂ c _ hc
            obtain ⟨horders, hprops, hplans⟩ := hw c
            have hsaved : ∀ saved, ((w c).saveOrder saved).orders = (c.saveOrder saved).orders := by
              intro saved
              simp only [Store.saveOrder, horders, id]
            refine orderStep_save (hsaved _) (hget c (hF₁ c (hF₂ c hc).1)) rfl
              (.fuel hpaid hunfulfilled hfuel hpaid rfl) (fun i => ?_) hplans
            show (w c).props.get? i = _
            rw [hprops]
            exact (map_freed_none _ _).symm
          next hfuel =>
            apply wp_bind
            apply wp_step
            intro c₁ F₁ _ _ hF₁
            dsimp only [id]
            cases c₁.plans order.planID with
            | none => trivial
            | some plan =>
              apply wp_bind
              apply wp_mono (does_service services.subscription _ F₁)
              rintro _ w₂ F₂ ⟨hw₂, hF₂⟩
              apply wp_bind
              apply wp_mono (does_award _ _ _ _ w₂ F₂)
              rintro _ w₃ F₃ ⟨hw₃, hF₃⟩
              apply wp_bind
              apply wp_mono (does_freeProps .subscription .used ht w₃ F₃)
              rintro _ w₄ F₄ ⟨hw₄, hF₄⟩
              apply wp_bind
              apply wp_mono (does_service services.bonus w₄ F₄)
              rintro _ w₅ F₅ ⟨hw₅, hF₅⟩
              cases services.groupBuy with
              | none => trivial
              | some groupBuyID =>
                apply wp_step
                intro _ F₆ _ _ hF₆ c _ hc
                obtain ⟨horders, hprops, hplans⟩ := (hw₂.trans hw₃) c
                obtain ⟨horders₅, hprops₅, hplans₅⟩ := hw₅ c
                rw [hw₄] at horders₅ hprops₅ hplans₅
                have horders' : (w₅ c).orders = c.orders := horders₅.trans horders
                have hsaved : ∀ saved,
                    ((w₅ c).saveOrder saved).orders = (c.saveOrder saved).orders := by
                  intro saved
                  simp only [Store.saveOrder, horders']
                refine orderStep_save (hsaved _)
                  (hget c (hF₁ c (hF₂ c (hF₃ c (hF₄ c (hF₅ c (hF₆ c hc).1))))).1) rfl
                  (.fulfill hpaid hunfulfilled hfuel hpaid rfl) (fun i => ?_)
                  (hplans₅.trans hplans)
                show (w₅ c).props.get? i = _
                rw [hprops₅, get?_updateProps, hprops, hkey]
                rfl

/-- A user was eligible and no order with the discount was created since. -/
theorem not_live_of_eligible {c c' : Store} {userID : Int} (hc : Lawful c)
    (heligible : c.eligible userID = true)
    (hcreated : c'.discountedOrder userID = c.discountedOrder userID) (hsettled : Settled c c')
    {t : String} {p' : SubscriptionOrder} (h' : c'.orders.get? t = some p')
    (huser : p'.userID = userID) (hdiscount : p'.firstPurchaseDiscountApplied = true) :
    p'.live = false := by
  have hthen : c.discountedOrder userID t = true := by
    rw [← hcreated]
    unfold Store.discountedOrder
    rw [h']
    simp [huser, hdiscount]
  unfold Store.discountedOrder at hthen
  obtain ⟨p, h, hp⟩ := (Option.any_eq_true _ _).1 hthen
  simp only [decide_eq_true_eq] at hp
  obtain ⟨hpuser, hpdiscount⟩ := hp
  obtain ⟨-, hplan, htype⟩ := hc.discounted t p h hpdiscount
  unfold Store.eligible at heligible
  rw [Bool.not_eq_true', Table.has_eq_false] at heligible
  have hbarred := heligible p (Table.mem_of_get? h)
  -- so the order was over by then, and it is as it was
  have hnotPending : p.status ≠ .pending := by
    intro hstatus
    simp [Store.firstPurchase, hpuser, hplan, htype, hstatus, hpdiscount] at hbarred
  have hnotPaid : p.status ≠ .success := by
    intro hstatus
    simp [Store.firstPurchase, hpuser, hplan, htype, hstatus] at hbarred
  obtain ⟨p'', hp'', hfollows⟩ := hsettled t p h
  rw [h'] at hp''
  cases hp''
  simp [SubscriptionOrder.live, hfollows.status hnotPending, hnotPending, hnotPaid]

/-- What the first-purchase campaign makes of a draft: no write, and a discount only for a user
without a discounted order that may reach success. -/
theorem wp_applyFirstPurchaseDiscount {plans : Int → Option SubscriptionPlan} {F : Store → Prop}
    (hI : ∀ c, I c → Lawful c ∧ c.plans = plans) (setting : PaymentSetting) (now : Int)
    (draft : Draft) (baseMoney : ℚ) :
    wp I (applyFirstPurchaseDiscountTx setting now draft.order baseMoney) id F fun o w F' =>
      w = id ∧ o.tradeNo = draft.tradeNo ∧ o.userID = draft.userID ∧ o.status = .pending ∧
        o.loweredBy = none ∧ (o.firstPurchaseDiscountApplied = true →
          (plans o.planID).any isFirstPurchaseDiscountPlan = true ∧ o.purchaseType ≠ .fuel ∧
            ∀ c, I c → F' c → ∀ t p, c.orders.get? t = some p → p.userID = o.userID →
              p.firstPurchaseDiscountApplied = true → p.live = false) := by
  have hplain : ∀ {P : Prop} {o : SubscriptionOrder}, o.tradeNo = draft.tradeNo →
      o.userID = draft.userID → o.status = .pending → o.loweredBy = none →
      o.firstPurchaseDiscountApplied = false → o.tradeNo = draft.tradeNo ∧
        o.userID = draft.userID ∧ o.status = .pending ∧ o.loweredBy = none ∧
          (o.firstPurchaseDiscountApplied = true → P) := by
    intro P o ht hu hs hl hf
    refine ⟨ht, hu, hs, hl, fun h => ?_⟩
    rw [hf] at h
    cases h
  unfold applyFirstPurchaseDiscountTx
  dsimp only
  split
  next => exact ⟨rfl, hplain rfl rfl rfl rfl rfl⟩
  next hcampaign =>
    rw [not_or] at hcampaign
    apply wp_bind
    apply wp_step
    intro c₀ F₁ hI₀ _ hF₁
    dsimp only [id]
    rw [show c₀.plans draft.order.planID = c₀.plans draft.planID from rfl]
    cases hplan : c₀.plans draft.planID with
    | none => trivial
    | some plan =>
      dsimp only
      split
      next => exact ⟨rfl, hplain rfl rfl rfl rfl rfl⟩
      next hfirst =>
        apply wp_bind
        apply wp_stepE
        intro c₁ _ F₂ _ _ _ hF₂
        apply wp_bind
        unfold isFirstPurchaseDiscountEligible
        split
        next => trivial
        next =>
          apply wp_step
          intro c₂ F₃ hI₂ hc₂ hF₃
          show wp I (if c₂.eligible draft.userID then _ else _) _ _ _
          split
          case isFalse => exact ⟨rfl, hplain rfl rfl rfl rfl rfl⟩
          case isTrue heligible =>
            refine ⟨rfl, rfl, rfl, rfl, rfl, fun _ => ⟨?_, ?_, ?_⟩⟩
            · show (plans draft.planID).any _ = true
              rw [← (hI c₀ hI₀).2, hplan]
              simpa using hfirst
            · exact hcampaign.2
            · intro c _ hc t p h huser hdiscount
              obtain ⟨hcF₂, -, hview⟩ := hF₃ c hc
              have hlock : ∀ c, F₂ c → c.discountedOrder draft.userID =
                  c₁.discountedOrder draft.userID :=
                fun c hc => (hF₂ c hc).2.1 (.user draft.userID) List.mem_cons_self
              exact not_live_of_eligible (hI c₂ hI₂).1 heligible
                ((hlock c hcF₂).trans (hlock c₂ hc₂).symm) (hview .purchases (by simp)) h huser
                hdiscount

theorem availableProp_spec {s : Store} {userID : Int} {propType : PropType} {p : BlindBoxProp}
    (h : s.availableProp userID propType = some p) :
    s.props.get? p.id = some p ∧ p.availableTo userID propType = true := by
  have hmem := List.mem_of_head? h
  rw [List.mem_mergeSort, List.mem_filter] at hmem
  exact ⟨Table.get?_of_mem hmem.1, hmem.2⟩

/-- The prop is reserved where it is still as it was read. -/
theorem wp_reserve {F : Store → Prop} {userID : Int} {tradeNo : String} (hu : 0 < userID)
    (ht : blank tradeNo = false) :
    wp I (reserveBlindBoxDiscountPropTx userID tradeNo .subscriptionDiscount90 .subscription) id F
      fun prop w F' => (∀ c, F' c → F c) ∧ (∀ c, (w c).orders = c.orders ∧
        (w c).plans = c.plans) ∧ ∀ c, F' c → ∀ o : SubscriptionOrder, o.tradeNo = tradeNo →
          o.loweredBy = prop.map (·.id) →
          (∀ i, (w c).props.get? i = (c.props.get? i).map (Reserved o)) ∧
            ∀ i, o.loweredBy = some i → ∃ p, c.props.get? i = some p ∧ p.status = .available := by
  unfold reserveBlindBoxDiscountPropTx
  rw [if_neg (by simp [ht]; omega)]
  apply wp_bind
  apply wp_step
  intro c₀ F₁ _ _ hF₁
  dsimp only [id]
  cases hprop : c₀.availableProp userID .subscriptionDiscount90 with
  | none =>
    refine ⟨fun c hc => (hF₁ c hc).1, fun c => ⟨rfl, rfl⟩, fun c hc o _ hlowered => ⟨?_, ?_⟩⟩
    · intro i
      show c.props.get? i = _
      cases c.props.get? i with
      | none => rfl
      | some p => simp [Reserved, hlowered]
    · intro i hi
      rw [hlowered] at hi
      cases hi
  | some prop =>
    obtain ⟨hget, havailable⟩ := availableProp_spec hprop
    apply wp_bind
    apply wp_step
    intro c₁ F₂ _ _ hF₂
    refine ⟨fun c hc => (hF₁ c (hF₂ c hc).1).1, fun c => ⟨rfl, rfl⟩,
      fun c hc o hkey hlowered => ?_⟩
    have hsame : c.props.get? prop.id = some prop :=
      (hF₁ c (hF₂ c hc).1).2.2 (.props userID) (by simp) prop.id prop hget havailable
    constructor
    · intro i
      refine (Table.get?_update (keepsIndexes_propColumns _) i).trans ?_
      split
      case isTrue hi =>
        subst hi
        show (c.props.get? prop.id).map _ = _
        rw [hsame]
        simp [Reserved, hlowered, hkey, propColumns]
      case isFalse hi =>
        show c.props.get? i = _
        cases hi' : c.props.get? i with
        | none => rfl
        | some p =>
          have hid := id_of_get? hi'
          have hne : ¬ prop.id = p.id := fun e => hi (by rw [← hid, ← e])
          simp [Reserved, hlowered, hne]
    · intro i hi
      rw [hlowered] at hi
      cases hi
      refine ⟨prop, hsame, ?_⟩
      simp [BlindBoxProp.availableTo] at havailable
      exact havailable.2.2

/-- The order is created with what the transaction has prepared for it. -/
theorem wp_createOrder {F : Store → Prop} {w : Store → Store} {o : SubscriptionOrder}
    (hpending : o.status = .pending) (horders : ∀ c, (w c).orders = c.orders)
    (hplans : ∀ c, (w c).plans = c.plans)
    (hprops : ∀ c, F c → ∀ i, (w c).props.get? i = (c.props.get? i).map (Reserved o))
    (hpriced : ∀ c, I c → F c → Priced c o) :
    wp I (createOrder o) w F fun _ w' F' => ∀ c, I c → F' c → OrderStep c (w' c) := by
  apply wp_stepE
  intro c₀ _ F' _ _ hcreated hF' c hI hc
  have hfree : ∀ {s : Store}, (s.orders.insert? o).isSome ↔ s.orders.get? o.tradeNo = none := by
    intro s
    rw [Table.insert?_isSome_iff, Table.get?_eq_none]
    simp [clash, Indexed.clash]
  have hnew₀ : c₀.orders.get? o.tradeNo = none := by
    rw [← hfree]
    rw [horders] at hcreated
    cases hinsert : c₀.orders.insert? o with
    | none =>
      rw [hinsert] at hcreated
      cases hcreated
    | some orders => rfl
  have hnew : c.orders.get? o.tradeNo = none := by
    have hlock : c.orders.get? o.tradeNo = c₀.orders.get? o.tradeNo :=
      (hF' c hc).2.1 (.order o.tradeNo) (by simp)
    rw [hlock, hnew₀]
  have hcF := (hF' c hc).1
  have hinsert := Option.isSome_iff_exists.1 (hfree.2 hnew)
  obtain ⟨orders, hinsert⟩ := hinsert
  have hgets := Table.get?_insert? hinsert
  dsimp only
  rw [horders, hinsert]
  exact .create o hnew hpending (hpriced c hI hcF) hgets (hprops c hcF) (hplans c)

theorem ensures_create {plans : Int → Option SubscriptionPlan}
    (hI : ∀ c, I c → Lawful c ∧ c.plans = plans) (setting : PaymentSetting) (now : Int)
    (draft : Draft) (baseMoney : ℚ) :
    Ensures I (createPendingSubscriptionOrderWithDiscounts setting now draft baseMoney)
      fun _ c c' => OrderStep c c' := by
  unfold Ensures createPendingSubscriptionOrderWithDiscounts
  split
  next => trivial
  next hargs =>
    rw [not_or, Bool.not_eq_true] at hargs
    dsimp only
    apply wp_bind
    apply wp_mono (wp_applyFirstPurchaseDiscount hI setting now draft _)
    rintro o w F ⟨rfl, htrade, huser, hpending, hlowered, hdiscount⟩
    split
    next hflag =>
      obtain ⟨hplan, htype, hfirst⟩ := hdiscount hflag
      apply wp_bind
      apply wp_createOrder hpending (fun _ => rfl) (fun _ => rfl)
      · intro c _ i
        show c.props.get? i = _
        cases c.props.get? i with
        | none => rfl
        | some p => simp [Reserved, hlowered]
      · intro c hIc hc
        constructor
        · exact fun _ => ⟨hlowered, by rw [(hI c hIc).2]; exact hplan, htype, hfirst c hIc hc⟩
        · intro i hi
          rw [hlowered] at hi
          cases hi
    next hflag =>
      apply wp_bind
      apply wp_mono (wp_reserve (by omega) (by rw [htrade]; exact hargs.2))
      rintro prop w F' ⟨hF', hsame, hreserved⟩
      cases prop with
      | none =>
        apply wp_bind
        apply wp_createOrder hpending (fun c => (hsame c).1) (fun c => (hsame c).2)
        · exact fun c hc => (hreserved c hc o rfl hlowered).1
        · intro c _ hc
          exact ⟨fun h => absurd h hflag, (hreserved c hc o rfl hlowered).2⟩
      | some prop =>
        apply wp_bind
        apply wp_createOrder
        · exact hpending
        · exact fun c => (hsame c).1
        · exact fun c => (hsame c).2
        · intro c hc
          refine (hreserved c hc _ ?_ ?_).1 <;> rfl
        · intro c _ hc
          refine ⟨fun h => absurd h hflag, (hreserved c hc _ ?_ ?_).2⟩ <;> rfl

end Requests

/-- The transactions on the orders. -/
inductive OrderRequest where
  | create (setting : PaymentSetting) (now : Int) (draft : Draft) (baseMoney : ℚ)
  | complete (now : Int)
    (tradeNo providerPayload expectedPaymentProvider actualPaymentMethod : String)
  | fulfill (services : Services) (tradeNo : String)
  | expire (now : Int) (tradeNo expectedPaymentProvider : String)
  | cancel (now userID : Int) (tradeNo : String)

def OrderRequest.code : OrderRequest → Flow PUnit
  | .create setting now draft baseMoney => do
    let _ ← createPendingSubscriptionOrderWithDiscounts setting now draft baseMoney
    pure ()
  | .complete now tradeNo providerPayload expectedPaymentProvider actualPaymentMethod => do
    let _ ← completeSubscriptionOrder now tradeNo providerPayload expectedPaymentProvider
      actualPaymentMethod
    pure ()
  | .fulfill services tradeNo => fulfillPaidSubscriptionOrder services tradeNo
  | .expire now tradeNo expectedPaymentProvider =>
    expireSubscriptionOrder now tradeNo expectedPaymentProvider
  | .cancel now userID tradeNo => cancelPendingSubscriptionOrder now userID tradeNo

/-- The invariant of a run: the plans stay, and the law holds. -/
def LawfulFor (plans : Int → Option SubscriptionPlan) (s : Store) : Prop :=
  Lawful s ∧ s.plans = plans

theorem OrderStep.plans {c c' : Store} (h : OrderStep c c') : c'.plans = c.plans := by
  cases h with
  | same _ _ hplans => exact hplans
  | progress _ _ _ _ _ _ _ _ _ hplans => exact hplans
  | create _ _ _ _ _ _ hplans => exact hplans

theorem OrderRequest.ensures (plans : Int → Option SubscriptionPlan) (r : OrderRequest) :
    Ensures (LawfulFor plans) r.code fun _ c c' => LawfulFor plans c' ∧ OrderStep c c' := by
  have hstep : Ensures (LawfulFor plans) r.code fun _ c c' => OrderStep c c' := by
    cases r with
    | create setting now draft baseMoney =>
      exact wp_bind (ensures_create (fun _ h => h) setting now draft baseMoney)
    | complete now tradeNo providerPayload expectedPaymentProvider actualPaymentMethod =>
      exact wp_bind (ensures_complete now tradeNo _ _ _)
    | fulfill services tradeNo => exact ensures_fulfill services tradeNo
    | expire now tradeNo expectedPaymentProvider => exact ensures_expire now tradeNo _
    | cancel now userID tradeNo => exact ensures_cancel now userID tradeNo
  apply wp_mono hstep
  intro _ w F h c hc hF
  have hcw := h c hc hF
  exact ⟨⟨hc.1.step hcw, hcw.plans.trans hc.2⟩, hcw⟩

theorem framed_applyFirstPurchaseDiscount (setting : PaymentSetting) (now : Int)
    (order : SubscriptionOrder) (baseMoney : ℚ) :
    Framed (applyFirstPurchaseDiscountTx setting now order baseMoney) := by
  apply Framed.ite
  · trivial
  · apply (framed_read _).bind
    rintro (_ | plan)
    · trivial
    · apply Framed.ite
      · trivial
      · apply (framed_lockUser _).bind
        intro _
        apply Framed.bind
        · exact .ite trivial (framed_read _)
        · exact fun _ => .ite trivial trivial

theorem framed_reserve (userID : Int) (tradeNo : String) (propType : PropType)
    (orderType : PropOrderType) :
    Framed (reserveBlindBoxDiscountPropTx userID tradeNo propType orderType) := by
  apply Framed.ite
  · trivial
  · apply Framed.bind (p := step _ _) ⟨fun _ x _ => agree_refl x _, fun _ => trivial⟩
    rintro (_ | prop)
    · trivial
    · exact (framed_saveProp _).bind fun _ => trivial

theorem framed_expireOrder (now : Int) (order : SubscriptionOrder) :
    Framed (expireOrder now order) :=
  .ite trivial ((framed_saveOrder _).bind fun _ => framed_freeProps _ _ _)

theorem OrderRequest.framed (r : OrderRequest) : Framed r.code := by
  cases r with
  | create setting now draft baseMoney =>
    apply Framed.bind (q := fun _ => .ret ()) _ fun _ => trivial
    apply Framed.ite
    · trivial
    · apply (framed_applyFirstPurchaseDiscount _ _ _ _).bind
      intro order
      apply Framed.ite
      · exact (framed_createOrder _).bind fun _ => trivial
      · apply (framed_reserve _ _ _ _).bind
        rintro (_ | prop)
        · exact (framed_createOrder _).bind fun _ => trivial
        · exact (framed_createOrder _).bind fun _ => trivial
  | complete now tradeNo providerPayload expectedPaymentProvider actualPaymentMethod =>
    apply Framed.bind (q := fun _ => .ret ()) _ fun _ => trivial
    apply Framed.ite
    · trivial
    · apply (framed_readOrder _).bind
      rintro (_ | order)
      · trivial
      · refine .ite trivial (.ite trivial (.ite trivial ?_))
        exact (framed_saveOrder _).bind fun _ => trivial
  | fulfill services tradeNo =>
    apply Framed.ite
    · trivial
    · apply (framed_readOrder _).bind
      rintro (_ | order)
      · trivial
      · refine .ite trivial (.ite trivial (.ite trivial ?_))
        apply Framed.ite
        · exact (framed_service _).bind fun _ => framed_saveOrder _
        · apply (framed_read _).bind
          rintro (_ | plan)
          · trivial
          · apply (framed_service _).bind
            intro _
            apply (framed_award _ _ _ _).bind
            intro _
            apply (framed_freeProps _ _ _).bind
            intro _
            apply (framed_service _).bind
            intro _
            cases services.groupBuy with
            | none => trivial
            | some groupBuyID => exact framed_saveOrder _
  | expire now tradeNo expectedPaymentProvider =>
    apply Framed.ite
    · trivial
    · apply (framed_readOrder _).bind
      rintro (_ | order)
      · trivial
      · exact .ite trivial (framed_expireOrder _ _)
  | cancel now userID tradeNo =>
    apply Framed.ite
    · trivial
    · apply (framed_readOrder _).bind
      rintro (_ | order)
      · trivial
      · exact .ite trivial (framed_expireOrder _ _)

/-- At most one discounted order of a user is paid, and each prop lowers one paid order at most. -/
structure OneEach (s : Store) : Prop where
  first : ∀ t t' o o', s.orders.get? t = some o → s.orders.get? t' = some o' →
    o.userID = o'.userID → o.firstPurchaseDiscountApplied = true →
    o'.firstPurchaseDiscountApplied = true → o.status = .success → o'.status = .success → t = t'
  prop : ∀ t t' o o' i, s.orders.get? t = some o → s.orders.get? t' = some o' →
    o.loweredBy = some i → o'.loweredBy = some i → o.status = .success → o'.status = .success →
    t = t'

/-- A prop that lowered the price of an order is reserved for it exactly while the order is open,
and used once it is fulfilled. -/
def Store.PropsFollow (s : Store) : Prop :=
  ∀ t o i, s.orders.get? t = some o → o.loweredBy = some i →
    ((∃ p, s.props.get? i = some p ∧ p.reservedFor .subscription t = true) ↔ o.open = true) ∧
      (o.status = .success → o.fulfillmentStatus = .completed →
        ∃ p, s.props.get? i = some p ∧ p.status = .used)

/-- A fuel order whose price a prop lowered is fulfilled. -/
def Store.FuelLowered (s : Store) : Prop :=
  ∃ t o i, s.orders.get? t = some o ∧ o.loweredBy = some i ∧ o.purchaseType = .fuel ∧
    o.status = .success ∧ o.fulfillmentStatus = .completed

theorem Lawful.oneEach {s : Store} (h : Lawful s) : OneEach s where
  first t t' o o' ho ho' huser hd hd' hpaid hpaid' := by
    apply h.first t t' o o' ho ho' huser hd hd'
    · simp [SubscriptionOrder.live, hpaid]
    · simp [SubscriptionOrder.live, hpaid']
  prop t t' o o' i ho ho' hi hi' hpaid hpaid' := by
    apply h.once t t' o o' i ho ho' hi hi'
    · simp [SubscriptionOrder.live, hpaid]
    · simp [SubscriptionOrder.live, hpaid']

/-- A live order is open or fulfilled. -/
theorem live_iff {o : SubscriptionOrder} : o.live = true ↔
    o.open = true ∨ o.status = .success ∧ o.fulfillmentStatus = .completed := by
  unfold SubscriptionOrder.live SubscriptionOrder.open
  cases o.status <;> cases o.fulfillmentStatus <;> simp

theorem open_of_completed {o : SubscriptionOrder} (hpaid : o.status = .success)
    (hcompleted : o.fulfillmentStatus = .completed) : o.open = false := by
  simp [SubscriptionOrder.open, hpaid, hcompleted]

/-- Fuel orders leave fulfilment without using their prop. -/
theorem Lawful.propsFollow_iff {s : Store} (h : Lawful s) : s.PropsFollow ↔ ¬ s.FuelLowered := by
  constructor
  · rintro hprops ⟨t, o, i, ho, hi, hfuel, hpaid, hcompleted⟩
    obtain ⟨p, hp, hholds⟩ := h.held t o i ho (live_iff.2 (.inr ⟨hpaid, hcompleted⟩)) hi
    cases hholds with
    | reserved _ hr =>
      rw [key_of_get? ho] at hr
      have hopen := (hprops t o i ho hi).1.1 ⟨p, hp, hr⟩
      rw [open_of_completed hpaid hcompleted] at hopen
      cases hopen
    | used _ _ htype _ => exact htype hfuel
  · intro hnone t o i ho hi
    refine ⟨⟨?_, fun hopen => ?_⟩, fun hpaid hcompleted => ?_⟩
    · rintro ⟨p, hp, hr⟩
      obtain ⟨o', ho', -, hlive, hrest⟩ := h.reserved i p t hp hr
      rw [ho] at ho'
      cases ho'
      rcases hrest with hopen | hfuel
      · exact hopen
      · rcases live_iff.1 hlive with hopen | ⟨hpaid, hcompleted⟩
        · exact hopen
        · exact absurd ⟨t, o, i, ho, hi, hfuel, hpaid, hcompleted⟩ hnone
    · obtain ⟨p, hp, hholds⟩ := h.held t o i ho (live_iff.2 (.inl hopen)) hi
      refine ⟨p, hp, ?_⟩
      cases hholds with
      | reserved _ hr =>
        rw [key_of_get? ho] at hr
        exact hr
      | used hpaid hcompleted =>
        rw [open_of_completed hpaid hcompleted] at hopen
        cases hopen
    · obtain ⟨p, hp, hholds⟩ := h.held t o i ho (live_iff.2 (.inr ⟨hpaid, hcompleted⟩)) hi
      refine ⟨p, hp, ?_⟩
      cases hholds with
      | reserved hopen _ =>
        rcases hopen with hopen | hfuel
        · rw [open_of_completed hpaid hcompleted] at hopen
          cases hopen
        · exact absurd ⟨t, o, i, ho, hi, hfuel, hpaid, hcompleted⟩ hnone
      | used _ _ _ hused => exact hused

/-- No orders yet, and no prop reserved for one. -/
theorem lawful_fresh {s : Store} (horders : s.orders = Table.empty)
    (hprops : ∀ p ∈ s.props, ∀ t, p.reservedOrder ≠ some (.subscription, t)) : Lawful s := by
  have hnone : ∀ t, s.orders.get? t = none := by
    intro t
    rw [horders]
    rfl
  constructor
  case reserved =>
    intro i p t hp hr
    exact absurd (reservedFor_iff.1 hr).1 (hprops p (Table.mem_of_get? hp) t)
  all_goals simp [hnone]

/-- As long as no order and no available prop that is in use changes: an order leaves the pending
status once, one discounted order of a user and one order with a prop are paid at most, and the
props follow their orders unless a prop lowered a fuel order. -/
theorem order_discounts_lawful {s₀ : Store} (horders : s₀.orders = Table.empty)
    (hprops : ∀ p ∈ s₀.props, ∀ t, p.reservedOrder ≠ some (.subscription, t))
    {s s' : System Store Cell View Error PUnit}
    (h : Reach OrderRequest.code (UndisturbedOn View.row) s₀ s)
    (hlater : Later OrderRequest.code (UndisturbedOn View.row) s s') :
    Settled s.committed s'.committed ∧ OneEach s.committed ∧
      (s.committed.PropsFollow ↔ ¬ s.committed.FuelLowered) := by
  have hsound : ∀ {s}, Reach OrderRequest.code (UndisturbedOn View.row) s₀ s →
      s.Sound (LawfulFor s₀.plans) fun _ => OrderStep := by
    intro s h
    refine h.sound_on (fun r => ⟨r.framed, r.ensures s₀.plans⟩) ?_ ⟨lawful_fresh horders hprops, rfl⟩
    intro v _ c c' hv hstep
    cases v with
    | order t => exact absurd trivial hv
    | props u => exact absurd trivial hv
    | account u => trivial
    | purchases => exact hstep.settled
  have hlawful := (hsound h).committed.1
  refine ⟨?_, hlawful.oneEach, hlawful.propsFollow_iff⟩
  induction hlater with
  | refl => exact .refl _
  | step m hlater _ hm ih =>
    rcases (hsound (h.later hlater)).guarantee hm with hsame | ⟨_, hstep⟩
    · rwa [hsame]
    · exact ih.trans hstep.settled

/-- A user with one discount prop. -/
def customer : Store where
  plans := fun _ => some { id := 1 }
  users := fun _ => some 0
  props := ⟨[{ id := 1, userID := 2, propType := .subscriptionDiscount90, discountRate := 1 / 10 }],
    List.pairwise_singleton _ _⟩

def noCampaign : PaymentSetting := ⟨false, 0, 0, 0⟩

def orderOfCustomer : OrderRequest :=
  .create noCampaign 1 { tradeNo := "T", userID := 2, planID := 1, money := 10 } 10

/-- The transactions in flight, the status of the order and that of the prop. -/
structure Seen where
  inFlight : Nat
  order : Option (OrderStatus × FulfillmentStatus)
  prop : Option PropStatus
  deriving DecidableEq

def seen (s : System Store Cell View Error PUnit) : Seen where
  inFlight := s.txns.length
  order := (s.committed.orders.get? "T").map fun o => (o.status, o.fulfillmentStatus)
  prop := (s.committed.props.get? 1).map (·.status)

theorem customer_fresh (p : BlindBoxProp) (hp : p ∈ customer.props) (t : String) :
    p.reservedOrder ≠ some (.subscription, t) := by
  rw [List.mem_singleton.1 hp]
  exact nofun

/-- Two parts of a run, one after the other. -/
def inTwo (check : System Store Cell View Error PUnit → Move OrderRequest → Bool)
    (ms ms' : List (Move OrderRequest)) :
    Option (System Store Cell View Error PUnit × System Store Cell View Error PUnit) := do
  let s ← perform check OrderRequest.code ⟨customer, []⟩ ms
  let s' ← perform check OrderRequest.code s ms'
  some (s, s')

theorem inTwo_spec {check : System Store Cell View Error PUnit → Move OrderRequest → Bool}
    {ok : System Store Cell View Error PUnit → Move OrderRequest → Prop}
    (hok : ∀ s m, check s m = true → ok s m) {ms ms' : List (Move OrderRequest)} {x}
    (h : (inTwo check ms ms').map (fun q => (seen q.1, seen q.2)) = some x) :
    ∃ s s', Reach OrderRequest.code ok customer s ∧ Later OrderRequest.code ok s s' ∧
      seen s = x.1 ∧ seen s' = x.2 := by
  obtain ⟨⟨s, s'⟩, hq, rfl⟩ := Option.map_eq_some_iff.1 h
  simp only [inTwo, Option.bind_eq_bind, Option.bind_eq_some_iff] at hq
  obtain ⟨s₁, hs₁, s₂, hs₂, hq⟩ := hq
  cases hq
  exact ⟨s, s', Reach.init.perform hok hs₁, Later.refl.perform hok hs₂, rfl, rfl⟩

theorem order_discounts_lawful_sample : ∃ s s' : System Store Cell View Error PUnit,
    seen s = ⟨0, some (.success, .pending), some .reserved⟩ ∧
      seen s' = ⟨0, some (.success, .completed), some .used⟩ ∧
      Settled s.committed s'.committed ∧ OneEach s.committed ∧
      (s.committed.PropsFollow ↔ ¬ s.committed.FuelLowered) := by
  have hrun : (inTwo unread
      [.start orderOfCustomer, .act 0, .act 0, .act 0, .commit 0,
        .start (.complete 2 "T" "" "" ""), .act 0, .act 0, .commit 0]
      (.start (.fulfill {} "T") :: List.replicate 5 (.act 0) ++ [.commit 0])).map
        (fun q => (seen q.1, seen q.2)) =
      some (⟨0, some (.success, .pending), some .reserved⟩,
        ⟨0, some (.success, .completed), some .used⟩) := by decide +kernel
  obtain ⟨s, s', h, hlater, hs, hs'⟩ := inTwo_spec (fun s m hm =>
    undisturbedOn_of_undisturbed View.row s m (undisturbed_of_unread s m hm)) hrun
  exact ⟨s, s', hs, hs', order_discounts_lawful rfl customer_fresh h hlater⟩

/-- A payment and an expiry that both read the pending order: what is stored as paid is stored as
expired after that, and the prop is free again. -/
theorem paid_order_expired : ∃ s s' : System Store Cell View Error PUnit,
    Reach OrderRequest.code (fun _ _ => True) customer s ∧
      Later OrderRequest.code (fun _ _ => True) s s' ∧
      seen s = ⟨1, some (.success, .pending), some .reserved⟩ ∧
      seen s' = ⟨0, some (.expired, .pending), some .available⟩ ∧
      ¬ Settled s.committed s'.committed := by
  have hrun : (inTwo (fun _ _ => true)
      [.start orderOfCustomer, .act 0, .act 0, .act 0, .commit 0,
        .start (.complete 2 "T" "" "" ""), .start (.expire 2 "T" ""), .act 0, .act 1, .act 0,
        .commit 0]
      [.act 0, .act 0, .commit 0]).map (fun q => (seen q.1, seen q.2)) =
      some (⟨1, some (.success, .pending), some .reserved⟩,
        ⟨0, some (.expired, .pending), some .available⟩) := by decide +kernel
  obtain ⟨s, s', h, hlater, hs, hs'⟩ := inTwo_spec (fun _ _ _ => trivial) hrun
  refine ⟨s, s', h, hlater, hs, hs', fun hsettled => ?_⟩
  simp only [seen, Seen.mk.injEq, Prod.mk.injEq, Option.map_eq_some_iff] at hs hs'
  obtain ⟨-, ⟨o, ho, hstatus, -⟩, -⟩ := hs
  obtain ⟨-, ⟨o', ho', hstatus', -⟩, -⟩ := hs'
  obtain ⟨o'', ho'', hfollows⟩ := hsettled "T" o ho
  rw [ho'] at ho''
  cases ho''
  have hsame := hfollows.status (by rw [hstatus]; decide)
  rw [hstatus', hstatus] at hsame
  cases hsame

end CodeGo.Commerce.Orders
