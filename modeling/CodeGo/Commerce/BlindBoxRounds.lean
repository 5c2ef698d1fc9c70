import CodeGo.Commerce.BlindBox

/-!
# What an opening does

A box adds one record, what the record grants, and one to the count of its order; the counter of
low rewards follows the record. `Rounds` is this for all boxes of a transaction, and
`wp_openBlindBoxesTx` what the transaction commits, whatever others commit meanwhile.
-/

namespace CodeGo.Commerce.BlindBox

open CodeGo.Lib CodeGo.Lib.Prog CodeGo.Lib.Lock

def Cell.agree (s s' : Store) : Cell → Prop
  | .order id => s'.orders.get? id = s.orders.get? id
  | .pity userID => s'.pityStates userID = s.pityStates userID
  | .zeroHour userID => s'.zeroHourStates userID = s.zeroHourStates userID

/-- An order that was read is still as it was. -/
def View.agree (s s' : Store) : View → Prop
  | .openable userID => ∀ o ∈ s.orders, o.openable userID = true → s'.orders.get? o.id = some o
  | .tradeNo t => ∀ o, s.orderOf t = some o → s'.orders.get? o.id = some o

theorem orderOf_eq_some {s : Store} {tradeNo : String} {o : BlindBoxOrder} :
    s.orderOf tradeNo = some o ↔ o ∈ s.orders ∧ o.tradeNo = tradeNo := by
  constructor
  · intro h
    exact ⟨Table.mem_of_find? h, by simpa using Table.prop_of_find? h⟩
  · rintro ⟨ho, rfl⟩
    apply Table.find?_eq_some_of_mem ho (by simp)
    intro p hp
    have hp : p.tradeNo = o.tradeNo := by simpa using hp
    simp [clash, hp]

theorem mem_of_get?_order {s : Store} {id : Int} {o : BlindBoxOrder}
    (h : s.orders.get? id = some o) : o ∈ s.orders ∧ o.id = id :=
  ⟨Table.mem_of_get? h, Table.pk_of_get? h⟩

theorem get?_order {s : Store} {o : BlindBoxOrder} (h : o ∈ s.orders) :
    s.orders.get? o.id = some o := Table.get?_of_mem h

instance : Parts Store Cell where
  agree x s s' := x.agree s s'
  agree_refl x s := by cases x <;> rfl
  agree_trans x s s' s'' h h' := by cases x <;> exact h'.trans h

instance : Parts Store View where
  agree v s s' := v.agree s s'
  agree_refl v s := by
    cases v with
    | openable userID => exact fun o ho _ => get?_order ho
    | tradeNo tradeNo => exact fun o ho => get?_order (orderOf_eq_some.1 ho).1
  agree_trans v s s' s'' h h' := by
    cases v with
    | openable userID =>
      exact fun o ho hopen => h' o (mem_of_get?_order (h o ho hopen)).1 hopen
    | tradeNo tradeNo =>
      exact fun o ho => h' o (orderOf_eq_some.2
        ⟨(mem_of_get?_order (h o ho)).1, (orderOf_eq_some.1 ho).2⟩)

section Adds

/-- What pending writes gain in a transaction for one user that saves no order. -/
structure Adds (userID : Int) (records : List BlindBoxOpenRecord) (grants : List Grant)
    (w w' : Store → Store) : Prop where
  orders : ∀ c, (w' c).orders = (w c).orders
  records : ∀ c, (w' c).records = (w c).records ++ records
  grants : ∀ c, (w' c).grants = (w c).grants ++ grants
  pityStates : ∀ c v, v ≠ userID → (w' c).pityStates v = (w c).pityStates v

variable {userID : Int} {R R' : List BlindBoxOpenRecord} {G G' : List Grant}
  {w w' w'' : Store → Store} {I : Store → Prop}

theorem Adds.refl (w : Store → Store) : Adds userID [] [] w w :=
  ⟨fun _ => rfl, fun _ => (List.append_nil _).symm, fun _ => (List.append_nil _).symm,
    fun _ _ _ => rfl⟩

theorem Adds.trans (h : Adds userID R G w w') (h' : Adds userID R' G' w' w'') :
    Adds userID (R ++ R') (G ++ G') w w'' where
  orders c := by rw [h'.orders, h.orders]
  records c := by rw [h'.records, h.records, List.append_assoc]
  grants c := by rw [h'.grants, h.grants, List.append_assoc]
  pityStates c v hv := by rw [h'.pityStates c v hv, h.pityStates c v hv]

theorem does_read {α : Type} (f : Store → α) :
    Does I (read f) fun w _ w' => w' = w := .step fun _ _ => rfl

theorem does_createRecord (record : BlindBoxOpenRecord) :
    Does I (createRecord record) fun w _ w' => Adds userID [record] [] w w' :=
  .step fun _ _ => ⟨fun _ => rfl, fun _ => rfl, fun _ => (List.append_nil _).symm, fun _ _ _ => rfl⟩

theorem does_createProp (prop : BlindBoxProp) :
    Does I (createProp prop) fun w _ w' => Adds userID [] [] w w' :=
  .step fun _ _ => ⟨fun _ => rfl, fun _ => (List.append_nil _).symm,
    fun _ => (List.append_nil _).symm, fun _ _ _ => rfl⟩

variable (userID) in
theorem does_grant (granted : Bool) (g : Grant) :
    Does I (grant granted g) fun w _ w' => Adds userID [] [g] w w' := by
  apply Does.stepE
  intro w c a ha
  cases granted with
  | true =>
    exact ⟨fun _ => rfl, fun _ => (List.append_nil _).symm, fun _ => rfl, fun _ _ _ => rfl⟩
  | false => cases ha

theorem does_saveZeroHourState (v : Int) (state : BlindBoxZeroHourState) :
    Does I (saveZeroHourState v state) fun w _ w' => Adds userID [] [] w w' :=
  .step fun _ _ => ⟨fun _ => rfl, fun _ => (List.append_nil _).symm,
    fun _ => (List.append_nil _).symm, fun _ _ _ => rfl⟩

theorem does_addZeroHourProgressTx (v : Int) (state : BlindBoxZeroHourState) (points : Int) :
    Does I (addZeroHourProgressTx v state points) fun w _ w' => Adds userID [] [] w w' := by
  apply Does.ite
  · exact fun _ => .ret .refl
  · intro _
    apply (does_saveZeroHourState v _).bind
    exact fun _ => .ret fun w' w h => h

theorem does_resetZeroHourProgressTx (v : Int) (state : BlindBoxZeroHourState) :
    Does I (resetZeroHourProgressTx v state) fun w _ w' => Adds userID [] [] w w' := by
  apply (does_saveZeroHourState v _).bind
  exact fun _ => .ret fun w' w h => h

theorem does_createBlindBoxPropTx (v : Int) (title : String) :
    Does I (createBlindBoxPropTx v title) fun w _ w' =>
      Adds userID [] [] w w' ∧ (getBlindBoxPropSpecByTitle title).isSome := by
  unfold createBlindBoxPropTx
  cases getBlindBoxPropSpecByTitle title with
  | some propType => exact (does_createProp _).mono fun _ _ _ h => ⟨h, rfl⟩
  | none => exact .fail

theorem does_getBlindBoxSubscriptionPlanTx (setting : Setting) :
    Does I (getBlindBoxSubscriptionPlanTx setting) fun w _ w' => w' = w := by
  apply Does.ite
  · exact fun _ => .fail
  · intro _
    apply (does_read _).bind
    rintro (_ | _)
    · exact .fail
    · exact .ret fun w' w h => h

theorem does_tryZeroHourRewardTx (v now : Int) (state : BlindBoxZeroHourState) (roll : ℚ) :
    Does I (tryZeroHourRewardTx v now state roll) fun w _ w' => w' = w := by
  apply (does_read _).bind
  rintro (_ | _)
  · exact .ret fun w' w h => h
  · exact .ret fun w' w h => h

theorem does_findFirstPurchaseOrderID (v : Int) (orders : List BlindBoxOrder) :
    Does I (findFirstPurchaseOrderID v orders) fun w _ w' => w' = w := by
  induction orders with
  | nil => exact .ret fun _ => rfl
  | cons order orders ih =>
    apply Does.ite
    · exact fun _ => ih
    · intro _
      apply Does.bind (R := fun w _ w' => w' = w)
      · apply Does.ite
        · exact fun _ => .ret fun _ => rfl
        · exact fun _ => does_read _
      · rintro (_ | _)
        · exact ih.mono fun w' _ w'' h w h' => h.trans h'
        · exact .ret fun w' w h => h

end Adds

/-- What a record grants through the other services. -/
def BlindBoxOpenRecord.granted (r : BlindBoxOpenRecord) : List Grant :=
  match r.rewardType with
  | .prop => []
  | .subscription => [.subscription r.userID r.userSubscriptionID]
  | _ => [.credit r.userID r.rewardWalletType r.creditAmount]

/-- Neither of high value, nor a subscription, nor the hidden card. -/
def BlindBoxOpenRecord.low (setting : Setting) (r : BlindBoxOpenRecord) : Bool :=
  !(isBlindBoxHighValueReward r.rewardType r.rewardUSD setting.lowRewardThresholdUSD ||
    r.rewardType = .subscription || (r.rewardType = .prop ∧ r.rewardTier = zeroHourTier : Bool))

/-- The guaranteed reward is of high value. -/
structure Setting.Guaranteed (setting : Setting) : Prop where
  threshold : 1 ≤ setting.pityThreshold
  low : 0 < setting.lowRewardThresholdUSD
  guarantee : setting.lowRewardThresholdUSD ≤ setting.pityGuaranteeUSD

def Opening.orders (l : Opening) : List BlindBoxOrder := l.finished ++ l.current :: l.rest

/-- One more box of the order with this id is open. -/
def BlindBoxOrder.count (id : Int) (o : BlindBoxOrder) : BlindBoxOrder :=
  if o.id = id then { o with openedCount := o.openedCount + 1 } else o

/-- The reward of a box, once it is counted. -/
structure Rewarded (setting : Setting) (record : BlindBoxOpenRecord) (pityTriggered : Bool)
    (l l' : Opening) (r : BlindBoxOpenRecord) : Prop where
  userID : r.userID = record.userID
  orderID : r.orderID = record.orderID
  orders : l'.orders = l.orders
  counter : l'.consecutiveLowRewards = if r.low setting then l.consecutiveLowRewards + 1 else 0
  pity : setting.Guaranteed → pityTriggered = true → r.low setting = false

structure Round (setting : Setting) (userID : Int) (l l' : Opening) (r : BlindBoxOpenRecord) :
    Prop where
  userID : r.userID = userID
  orders : (l.orders.map (·.id)).Nodup → l'.orders = l.orders.map (·.count r.orderID)
  room : ∃ o ∈ l.orders, o.id = r.orderID ∧ o.openedCount < o.quantity
  counter : l'.consecutiveLowRewards = if r.low setting then l.consecutiveLowRewards + 1 else 0
  pity : setting.Guaranteed → setting.pityThreshold ≤ l.consecutiveLowRewards + 1 →
    r.low setting = false

inductive Rounds (setting : Setting) (userID : Int) :
    Opening → List BlindBoxOpenRecord → Opening → Prop where
  | refl (l : Opening) : Rounds setting userID l [] l
  | cons {l l' l'' : Opening} {r : BlindBoxOpenRecord} {R : List BlindBoxOpenRecord} :
    Round setting userID l l' r → Rounds setting userID l' R l'' → Rounds setting userID l (r :: R) l''

theorem Rounds.trans {setting : Setting} {userID : Int} {l l' l'' : Opening}
    {R R' : List BlindBoxOpenRecord} (h : Rounds setting userID l R l')
    (h' : Rounds setting userID l' R' l'') : Rounds setting userID l (R ++ R') l'' := by
  induction h with
  | refl l => exact h'
  | cons hround _ ih => exact .cons hround (ih h')

theorem nextOrder_orders (finished : List BlindBoxOrder) (current : BlindBoxOrder)
    (rest : List BlindBoxOrder) :
    (nextOrder finished current rest).1 ++
      (nextOrder finished current rest).2.1 :: (nextOrder finished current rest).2.2 =
        finished ++ current :: rest := by
  induction rest generalizing finished current with
  | nil => rfl
  | cons next rest ih =>
    unfold nextOrder
    split
    · rw [ih, List.append_assoc]
      rfl
    · rfl

theorem map_count {finished rest : List BlindBoxOrder} {o : BlindBoxOrder}
    (h : ((finished ++ o :: rest).map (·.id)).Nodup) :
    (finished ++ o :: rest).map (·.count o.id) =
      finished ++ { o with openedCount := o.openedCount + 1 } :: rest := by
  have hother : ∀ os : List BlindBoxOrder, (∀ p ∈ os, p.id ≠ o.id) →
      os.map (·.count o.id) = os := by
    intro os hos
    refine (List.map_congr_left fun p hp => ?_).trans (List.map_id os)
    simp [BlindBoxOrder.count, hos p hp]
  rw [List.map_append, List.map_cons, List.nodup_append, List.nodup_cons] at h
  obtain ⟨-, ⟨hrest, -⟩, hfinished⟩ := h
  rw [List.map_append, List.map_cons, hother finished, hother rest]
  · simp [BlindBoxOrder.count]
  · exact fun p hp e => hrest (e ▸ List.mem_map_of_mem hp)
  · exact fun p hp e => hfinished p.id (List.mem_map_of_mem hp) o.id List.mem_cons_self e

section Rewards

variable {setting : Setting} {record : BlindBoxOpenRecord} {I : Store → Prop}

theorem isBlindBoxHighValueReward_guarantee (h : setting.Guaranteed) {rewardType : RewardType}
    (ht : rewardType ≠ .claudeQuota) :
    isBlindBoxHighValueReward rewardType setting.pityGuaranteeUSD setting.lowRewardThresholdUSD =
      true := by
  have hlow := h.low
  have hguarantee := h.guarantee
  have hpos : ¬ (setting.pityGuaranteeUSD ≤ 0 ∨ setting.lowRewardThresholdUSD ≤ 0) := by
    rintro (h' | h') <;> linarith
  simp only [isBlindBoxHighValueReward, if_neg hpos, if_neg ht, decide_eq_true_eq]
  exact hguarantee

theorem does_openCredit {draw : Draw} {pityTriggered : Bool} {reward : Reward}
    {rewardType : RewardType} {walletType : RewardWalletType} {l : Opening}
    (hprop : rewardType ≠ .prop) (hsubscription : rewardType ≠ .subscription)
    (hpity : setting.Guaranteed → pityTriggered = true →
      isBlindBoxHighValueReward rewardType reward.rewardUSD setting.lowRewardThresholdUSD = true) :
    Does I (openCredit setting record draw pityTriggered reward rewardType walletType l)
      fun w l' w' => ∃ r, Rewarded setting record pityTriggered l l' r ∧
        Adds record.userID [r] r.granted w w' := by
  let r : BlindBoxOpenRecord :=
    { record with
      rewardType := rewardType
      rewardWalletType := walletType
      rewardUSD := reward.rewardUSD
      creditAmount := quotaUnitsFromBlindBoxUSD setting reward.rewardUSD
      rewardTier := reward.tierName
      isPity := pityTriggered }
  have hlow : r.low setting =
      !isBlindBoxHighValueReward rewardType reward.rewardUSD setting.lowRewardThresholdUSD := by
    simp [r, BlindBoxOpenRecord.low, hprop, hsubscription]
  have hgranted : r.granted =
      [.credit record.userID walletType (quotaUnitsFromBlindBoxUSD setting reward.rewardUSD)] := by
    cases rewardType with
    | quota => rfl
    | claudeQuota => rfl
    | prop => exact absurd rfl hprop
    | subscription => exact absurd rfl hsubscription
  apply Does.ite
  · exact fun _ => .fail
  · intro _
    apply (does_createRecord r).bind
    intro _
    apply (does_grant _ _ _).bind
    refine fun _ => .ret fun w' w₂ hgrant w hrecord => ⟨r, ⟨rfl, rfl, rfl, ?_, ?_⟩, ?_⟩
    · rw [hlow]
      cases isBlindBoxHighValueReward rewardType reward.rewardUSD setting.lowRewardThresholdUSD <;>
        rfl
    · intro hset htriggered
      rw [hlow, hpity hset htriggered]
      rfl
    · rw [hgranted]
      exact hrecord.trans hgrant

theorem propTitle_zeroHourTier : getBlindBoxPropSpecByTitle (propTitle zeroHourTier) = none := by
  decide +kernel

/-- A prop that can be created is not recorded as the hidden card. -/
theorem does_openReward {draw : Draw} {pityTriggered : Bool} {reward : Reward} {l : Opening}
    (htitle : reward.rewardType = .prop → reward.tierName = zeroHourTier →
      reward.title = zeroHourTier)
    (hpity : pityTriggered = true → reward.rewardType = .quota ∧
      reward.rewardUSD = setting.pityGuaranteeUSD) :
    Does I (openReward setting record draw pityTriggered reward l)
      fun w l' w' => ∃ r, Rewarded setting record pityTriggered l l' r ∧
        Adds record.userID [r] r.granted w w' := by
  have hquota : ∀ walletType, Does I
      (openCredit setting record draw pityTriggered reward .quota walletType l)
      fun w l' w' => ∃ r, Rewarded setting record pityTriggered l l' r ∧
        Adds record.userID [r] r.granted w w' := by
    intro walletType
    refine does_openCredit (by decide) (by decide) fun hset htriggered => ?_
    rw [(hpity htriggered).2]
    exact isBlindBoxHighValueReward_guarantee hset (by decide)
  unfold openReward
  cases htype : reward.rewardType with
  | quota => exact hquota _
  | subscription => exact hquota _
  | claudeQuota =>
    refine does_openCredit (by decide) (by decide) fun _ htriggered => ?_
    rw [htype] at hpity
    cases (hpity htriggered).1
  | prop =>
    let r : BlindBoxOpenRecord :=
      { record with
        rewardType := .prop
        rewardTier := reward.tierName
        rewardUSD := 0
        creditAmount := 0
        isPity := false }
    apply (does_createRecord r).bind
    intro _
    apply (does_createBlindBoxPropTx record.userID _).bind
    refine fun _ => .ret fun w' w₂ hprop w hrecord => ⟨r, ⟨rfl, rfl, rfl, ?_, ?_⟩, ?_⟩
    · have htier : reward.tierName ≠ zeroHourTier := by
        intro e
        have hsome := hprop.2
        rw [htitle htype e, propTitle_zeroHourTier] at hsome
        cases hsome
      have hlow : r.low setting = true := by
        simp [r, BlindBoxOpenRecord.low, isBlindBoxHighValueReward, htier]
      rw [hlow]
      rfl
    · intro _ htriggered
      rw [htype] at hpity
      cases (hpity htriggered).1
    · exact hrecord.trans hprop.1

theorem does_openZeroHour {l : Opening} :
    Does I (openZeroHour record l) fun w l' w' =>
      ∃ r, Rewarded setting record false l l' r ∧ Adds record.userID [r] r.granted w w' := by
  let r : BlindBoxOpenRecord := { record with rewardType := .prop, rewardTier := zeroHourTier }
  apply (does_createRecord r).bind
  intro _
  apply (does_createBlindBoxPropTx record.userID _).bind
  intro _
  apply (does_resetZeroHourProgressTx record.userID _).bind
  refine fun _ => .ret fun w₃ w₂ hreset w₁ hprop w hrecord => ⟨r, ⟨rfl, rfl, rfl, ?_, nofun⟩, ?_⟩
  · simp [r, BlindBoxOpenRecord.low]
  · exact (hrecord.trans hprop.1).trans hreset

theorem does_openSubscription {draw : Draw} {pityTriggered : Bool} {l : Opening} :
    Does I (openSubscription setting record draw l) fun w l' w' =>
      ∃ r, Rewarded setting record pityTriggered l l' r ∧
        Adds record.userID [r] r.granted w w' := by
  let r : BlindBoxOpenRecord :=
    { record with
      rewardType := .subscription
      rewardTier := "subscription"
      userSubscriptionID := draw.userSubscriptionID
      rewardUSD := 0 }
  have hlow : r.low setting = false := by simp [r, BlindBoxOpenRecord.low]
  apply (does_getBlindBoxSubscriptionPlanTx setting).bind
  intro _
  apply (does_grant record.userID _ _).bind
  intro _
  apply (does_createRecord r).bind
  refine fun _ => .ret fun w₃ w₂ hrecord w₁ hgrant w hplan => ⟨r, ⟨rfl, rfl, rfl, ?_, ?_⟩, ?_⟩
  · rw [hlow]
    rfl
  · exact fun _ _ => hlow
  · subst hplan
    exact hgrant.trans hrecord

theorem drawReward_title {pityTriggered isFirstPurchaseOpen : Bool} {draw : Draw}
    (htype : (drawReward setting pityTriggered isFirstPurchaseOpen draw).rewardType = .prop)
    (htier : (drawReward setting pityTriggered isFirstPurchaseOpen draw).tierName = zeroHourTier) :
    (drawReward setting pityTriggered isFirstPurchaseOpen draw).title = zeroHourTier := by
  unfold drawReward at *
  cases pityTriggered with
  | true => cases htype
  | false =>
    cases isFirstPurchaseOpen with
    | false => exact htier
    | true =>
      -- the tier of a first purchase has a name of its own
      have hname : ∀ ordinary claude reward,
          (applyFirstPurchaseMinimumGuarantee ordinary claude reward).tierName =
            reward.tierName := by
        intro ordinary claude reward
        unfold applyFirstPurchaseMinimumGuarantee
        split <;> (try split) <;> rfl
      simp only [if_true, Bool.false_eq_true, if_false, hname] at htier
      exact absurd htier (by decide)

theorem does_openDrawn {isFirstPurchaseOpen pityTriggered : Bool} {draw : Draw} {l : Opening} :
    Does I (openDrawn setting isFirstPurchaseOpen pityTriggered record draw l) fun w l' w' =>
      ∃ r, Rewarded setting record pityTriggered l l' r ∧
        Adds record.userID [r] r.granted w w' := by
  unfold openDrawn
  apply Does.bind (R := fun w _ w' => Adds record.userID [] [] w w')
  · apply Does.ite
    · exact fun _ => does_addZeroHourProgressTx record.userID _ _
    · exact fun _ => .ret .refl
  · intro zeroHour
    have hafter : ∀ w w' l', (∃ r, Rewarded setting record pityTriggered l l' r ∧
        Adds record.userID [r] r.granted w' w) → ∀ w₀, Adds record.userID [] [] w₀ w' →
        ∃ r, Rewarded setting record pityTriggered l l' r ∧
          Adds record.userID [r] r.granted w₀ w := by
      rintro w w' l' ⟨r, hr, hadds⟩ w₀ h₀
      exact ⟨r, hr, h₀.trans hadds⟩
    apply Does.ite
    · intro _
      apply does_openSubscription.mono
      rintro w l' w' ⟨r, hr, hadds⟩
      exact hafter w' w l' ⟨r, ⟨hr.userID, hr.orderID, hr.orders, hr.counter, hr.pity⟩, hadds⟩
    · intro _
      apply (does_openReward drawReward_title ?_).mono
      · rintro w l' w' ⟨r, hr, hadds⟩
        exact hafter w' w l' ⟨r, ⟨hr.userID, hr.orderID, hr.orders, hr.counter, hr.pity⟩, hadds⟩
      · intro htriggered
        simp [drawReward, htriggered]

/-- A reward of the box that `nextOrder` leads to, counted in its order. -/
theorem Rewarded.round {userID now : Int} {pityTriggered : Bool} {l l' : Opening}
    {finished rest : List BlindBoxOrder} {current : BlindBoxOrder} {r : BlindBoxOpenRecord}
    (horders : finished ++ current :: rest = l.orders) (hroom : 0 < current.remaining)
    (htriggered : setting.pityThreshold ≤ l.consecutiveLowRewards + 1 → pityTriggered = true)
    (h : Rewarded setting { userID := userID, orderID := current.id, createTime := now }
      pityTriggered
      { l with
        finished := finished
        current := { current with openedCount := current.openedCount + 1 }
        rest := rest } l' r) : Round setting userID l l' r where
  userID := h.userID
  orders hnodup := by
    rw [← horders] at hnodup ⊢
    rw [h.orderID, map_count hnodup]
    exact h.orders
  room := by
    refine ⟨current, ?_, h.orderID.symm, ?_⟩
    · rw [← horders]
      simp
    · unfold BlindBoxOrder.remaining at hroom
      omega
  counter := h.counter
  pity hset hthreshold := h.pity hset (htriggered hthreshold)

theorem does_openBox {moment : Moment} {userID firstPurchaseOrderID : Int} {draw : Draw}
    {l : Opening} :
    Does I (openBox setting moment userID firstPurchaseOrderID draw l) fun w l' w' =>
      ∃ r, Round setting userID l l' r ∧ Adds userID [r] r.granted w w' := by
  unfold openBox
  have horders := nextOrder_orders l.finished l.current l.rest
  generalize nextOrder l.finished l.current l.rest = next at horders ⊢
  obtain ⟨finished, current, rest⟩ := next
  apply Does.ite
  · exact fun _ => .fail
  · intro hroom
    have hroom : 0 < current.remaining := by omega
    have htriggered : setting.pityThreshold ≤ l.consecutiveLowRewards + 1 →
        decide (setting.pityThreshold ≤ l.consecutiveLowRewards + 1) = true := by simp
    apply Does.bind (R := fun w hit w' => w' = w ∧
      (hit = true → decide (setting.pityThreshold ≤ l.consecutiveLowRewards + 1) = false))
    · apply Does.ite
      · intro hcond
        apply (does_tryZeroHourRewardTx _ _ _ _).mono
        intro w hit w' hw
        refine ⟨hw, fun _ => ?_⟩
        simp only [Bool.and_eq_true, Bool.not_eq_true'] at hcond
        exact hcond.2
      · exact fun _ => .ret fun w => ⟨rfl, nofun⟩
    · rintro (_ | _)
      · apply does_openDrawn.mono
        rintro w' l' w'' ⟨r, hr, hadds⟩ w ⟨rfl, -⟩
        exact ⟨r, hr.round horders hroom htriggered, hadds⟩
      · apply does_openZeroHour.mono
        rintro w' l' w'' ⟨r, hr, hadds⟩ w ⟨rfl, hhit⟩
        refine ⟨r, hr.round horders hroom fun h => ?_, hadds⟩
        rw [← hhit rfl]
        exact htriggered h

theorem does_rounds {moment : Moment} {draws : Nat → Draw} {userID firstPurchaseOrderID : Int}
    (count : List Nat) (l : Opening) :
    Does I (count.foldlM
        (fun l i => openBox setting moment userID firstPurchaseOrderID (draws i) l) l)
      fun w l' w' => ∃ R, Rounds setting userID l R l' ∧
        Adds userID R (R.flatMap (·.granted)) w w' := by
  apply Does.foldlM (R := fun l w l' w' => ∃ R, Rounds setting userID l R l' ∧
    Adds userID R (R.flatMap (·.granted)) w w')
  · exact fun l w => ⟨[], .refl l, .refl w⟩
  · rintro l w l' w' l'' w'' ⟨R, hR, hadds⟩ ⟨R', hR', hadds'⟩
    refine ⟨R ++ R', hR.trans hR', ?_⟩
    rw [List.flatMap_append]
    exact hadds.trans hadds'
  · intro l i
    apply does_openBox.mono
    rintro w l' w' ⟨r, hround, hadds⟩
    refine ⟨[r], .cons hround (.refl _), ?_⟩
    simpa using hadds

end Rewards

section Transaction

variable {setting : Setting} {moment : Moment} {draws : Nat → Draw} {userID : Int}
  {I F : Store → Prop}

/-- The orders of `getOpenableBlindBoxOrdersTx`. -/
def Store.openableOrders (s : Store) (userID : Int) (orderID : Option Int) : List BlindBoxOrder :=
  (s.orders.rows.filter fun o => o.openable userID ∧ orderID.all (· = o.id)).mergeSort
    fun o p => o.id ≤ p.id

def saveOrders (orders : Table BlindBoxOrder) (os : List BlindBoxOrder) : Table BlindBoxOrder :=
  os.foldl (fun t o => t.update o.id (orderColumns o) (keepsIndexes_orderColumns o)) orders

theorem does_saveOrders (os : List BlindBoxOrder) :
    Does I (os.forM saveOrder) fun w _ w' =>
      ∀ c, w' c = { w c with orders := saveOrders (w c).orders os } := by
  induction os with
  | nil => exact .ret fun _ _ => rfl
  | cons o os ih =>
    apply Does.bind (R := fun w _ w' => ∀ c, w' c = (w c).saveOrder o)
    · exact .step fun _ _ _ => rfl
    · intro _
      apply ih.mono
      intro w' _ w'' h w h' c
      rw [h c, h' c]
      rfl

theorem does_savePityState (v consecutiveLowRewards : Int) :
    Does I (savePityState v consecutiveLowRewards) fun w _ w' =>
      ∀ c, w' c = { w c with
        pityStates := Function.update (w c).pityStates v (some consecutiveLowRewards) } :=
  .step fun _ _ _ => rfl

variable (userID) in
theorem does_getOrCreateZeroHourStateTx (v : Int) :
    Does I (getOrCreateZeroHourStateTx v) fun w _ w' => Adds userID [] [] w w' := by
  apply (does_read _).bind
  rintro (_ | state)
  · apply Does.bind (R := fun w _ w' => Adds userID [] [] w w')
    · apply Does.stepE
      intro w c a ha
      refine ⟨fun c => ?_, fun c => ?_, fun c => ?_, fun c v _ => ?_⟩ <;> split <;> simp
    · exact fun _ => .ret fun w' w h w₀ h₀ => h₀ ▸ h
  · refine .ret fun w' w h => ?_
    subst h
    exact .refl _

/-- What the transaction commits when it opens the boxes of `l`, down to `l'`. -/
structure Commits (userID : Int) (R : List BlindBoxOpenRecord) (l' : Opening)
    (w : Store → Store) : Prop where
  orders : ∀ c, (w c).orders = saveOrders c.orders l'.orders
  records : ∀ c, (w c).records = c.records ++ R
  grants : ∀ c, (w c).grants = c.grants ++ R.flatMap (·.granted)
  pityStates : ∀ c, (w c).pityStates =
    Function.update c.pityStates userID (some l'.consecutiveLowRewards)

/-- The counter is the one of a state that was committed meanwhile. -/
theorem wp_getOrCreateBlindBoxPityStateTx :
    wp I (getOrCreateBlindBoxPityStateTx userID) id F fun k w' F' =>
      (∃ c, F c ∧ k = (c.pityStates userID).getD 0) ∧ Adds userID [] [] id w' ∧
        ∀ c, F' c → F c := by
  apply wp_bind
  apply wp_step
  intro c₀ F₁ _ hF₀ hF₁
  dsimp only [id]
  cases hpity : c₀.pityStates userID with
  | some k => exact ⟨⟨c₀, hF₀, by rw [hpity]; rfl⟩, .refl _, fun c hc => (hF₁ c hc).1⟩
  | none =>
    apply wp_bind
    apply wp_stepE
    intro c₁ _ F₂ _ _ _ hF₂
    refine ⟨⟨c₀, hF₀, by rw [hpity]; rfl⟩, ?_, fun c hc => (hF₁ c (hF₂ c hc).1).1⟩
    refine ⟨fun c => ?_, fun c => ?_, fun c => ?_, fun c v hv => ?_⟩ <;> split <;>
      simp [Function.update, *]

theorem wp_openBlindBoxesTx {count : Nat} {orderID : Option Int} :
    wp I (openBlindBoxesTx setting moment draws userID count orderID) id F fun _ w F' =>
      ∃ c₀ c₁ l R l', F c₀ ∧ F c₁ ∧
        (∀ c, F' c → F c ∧ View.agree c₀ c (.openable userID)) ∧
        l.orders = c₀.openableOrders userID orderID ∧
        l.consecutiveLowRewards = (c₁.pityStates userID).getD 0 ∧
        Rounds setting userID l R l' ∧ Commits userID R l' w := by
  apply wp_bind
  apply wp_step
  intro _ F₁ _ _ hF₁
  dsimp only
  split
  next => trivial
  apply wp_bind
  apply wp_bind
  apply wp_step
  intro c₀ F₂ hI₀ hF₀ hF₂
  have hwatch : ∀ c, F₂ c → F c ∧ View.agree c₀ c (.openable userID) := by
    intro c hc
    obtain ⟨hc₁, -, hv⟩ := hF₂ c hc
    exact ⟨(hF₁ c hc₁).1, hv _ (by simp)⟩
  show wp I (if _ then _ else _) _ _ _
  split
  next => trivial
  apply wp_bind
  apply wp_mono wp_getOrCreateBlindBoxPityStateTx
  rintro k w₁ F₃ ⟨⟨c₁, hc₁, rfl⟩, hadds₁, hF₃⟩
  apply wp_bind
  apply wp_mono (does_getOrCreateZeroHourStateTx userID userID w₁ F₃)
  rintro zeroHour w₂ F₄ ⟨hadds₂, hF₄⟩
  apply wp_bind
  have hfirst : Does I (if 0 < setting.firstPurchaseGuaranteeUSD then
      findFirstPurchaseOrderID userID (c₀.openableOrders userID orderID)
      else pure 0 : Flow Int) fun w _ w' => w' = w := by
    apply Does.ite
    · exact fun _ => does_findFirstPurchaseOrderID userID _
    · exact fun _ => .ret fun _ => rfl
  apply wp_mono (hfirst w₂ F₄)
  rintro firstPurchaseOrderID _ F₅ ⟨rfl, hF₅⟩
  dsimp only [id]
  rw [show (List.filter _ _).mergeSort _ = c₀.openableOrders userID orderID from rfl]
  cases horders : c₀.openableOrders userID orderID with
  | nil => trivial
  | cons current rest =>
    apply wp_bind
    apply wp_mono (does_rounds (List.range count) _ _ F₅)
    rintro l' w₃ F₆ ⟨⟨R, hrounds, hadds₃⟩, hF₆⟩
    apply wp_bind
    apply wp_mono (does_saveOrders l'.orders w₃ F₆)
    rintro _ w₄ F₇ ⟨hsave, hF₇⟩
    apply wp_bind
    apply wp_mono (does_savePityState userID l'.consecutiveLowRewards w₄ F₇)
    rintro _ w₅ F₈ ⟨hpity, hF₈⟩
    have hadds := (hadds₁.trans hadds₂).trans hadds₃
    refine ⟨c₀, c₁, ⟨[], current, rest, _, zeroHour, []⟩, R, l', (hF₁ c₀ hF₀).1, (hwatch c₁ hc₁).1,
      fun c hc => hwatch c (hF₃ c (hF₄ c (hF₅ c (hF₆ c (hF₇ c (hF₈ c hc)))))), horders.symm, rfl,
      hrounds, ?_⟩
    constructor
    · intro c
      rw [hpity, hsave, hadds.orders]
      rfl
    · intro c
      rw [hpity, hsave]
      exact hadds.records c
    · intro c
      rw [hpity, hsave]
      exact hadds.grants c
    · intro c
      rw [hpity, hsave]
      funext v
      by_cases hv : v = userID
      · subst hv
        simp
      · simp only [Function.update_of_ne hv]
        exact hadds.pityStates c v hv

end Transaction

end CodeGo.Commerce.BlindBox
