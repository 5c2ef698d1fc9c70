import CodeGo.Commerce.BlindBoxPity
import Mathlib.Data.List.Nodup

/-!
# The stock of blind boxes

`Stocked` relates the orders, the records and what was granted. A transaction keeps it as long as
nobody commits a change of an order that it has read and will save again; two openings of one box
that read its order before either commits do not.
-/

namespace CodeGo.Commerce.BlindBox

open CodeGo.Lib CodeGo.Lib.Prog CodeGo.Lib.Lock

/-- No order has more records than boxes, its count is that of its records, and what is granted is
what the records say, each once. -/
structure Stocked (s : Store) : Prop where
  opened : ∀ o ∈ s.orders, o.openedCount = s.records.countP (·.orderID = o.id)
  quantity : ∀ o ∈ s.orders, (s.records.countP (·.orderID = o.id) : Int) ≤ o.quantity
  grants : s.grants = s.records.flatMap (·.granted)

section Counts

variable {setting : Setting} {userID : Int} {l l' : Opening} {R : List BlindBoxOpenRecord}

/-- The order once the boxes of these records are open. -/
def BlindBoxOrder.counted (R : List BlindBoxOpenRecord) (o : BlindBoxOrder) : BlindBoxOrder :=
  { o with openedCount := o.openedCount + R.countP (·.orderID = o.id) }

theorem id_count (id : Int) (o : BlindBoxOrder) : (o.count id).id = o.id := by
  unfold BlindBoxOrder.count
  split <;> rfl

theorem counted_count (r : BlindBoxOpenRecord) (R : List BlindBoxOpenRecord) (o : BlindBoxOrder) :
    (o.count r.orderID).counted R = o.counted (r :: R) := by
  by_cases h : o.id = r.orderID
  · simp only [BlindBoxOrder.count, BlindBoxOrder.counted, h, if_true, List.countP_cons,
      decide_true]
    congr 1
    push_cast
    omega
  · have hr : ¬ r.orderID = o.id := Ne.symm h
    simp [BlindBoxOrder.count, BlindBoxOrder.counted, h, hr]

theorem ids_count (id : Int) (os : List BlindBoxOrder) :
    (os.map (·.count id)).map (·.id) = os.map (·.id) := by
  rw [List.map_map]
  exact List.map_congr_left fun o _ => id_count id o

/-- What is left of an order covers the box that a round opens. -/
theorem Round.quantity {r : BlindBoxOpenRecord} (h : Round setting userID l l' r)
    (hnodup : (l.orders.map (·.id)).Nodup) (hroom : ∀ o ∈ l.orders, o.openedCount ≤ o.quantity) :
    ∀ o ∈ l'.orders, o.openedCount ≤ o.quantity := by
  rw [h.orders hnodup]
  intro o' ho'
  obtain ⟨o, ho, rfl⟩ := List.mem_map.1 ho'
  obtain ⟨p, hp, hpid, hless⟩ := h.room
  by_cases hid : o.id = r.orderID
  · have hop : o = p := List.inj_on_of_nodup_map hnodup ho hp (hid.trans hpid.symm)
    subst hop
    simp only [BlindBoxOrder.count, hid, if_true]
    omega
  · simp only [BlindBoxOrder.count, hid, if_false]
    exact hroom o ho

theorem Rounds.orders (h : Rounds setting userID l R l') (hnodup : (l.orders.map (·.id)).Nodup) :
    l'.orders = l.orders.map (·.counted R) := by
  induction h with
  | refl l =>
    refine ((List.map_congr_left fun o _ => ?_).trans (List.map_id _)).symm
    simp [BlindBoxOrder.counted]
  | @cons l l₁ l' r R hround _ ih =>
    have horders := hround.orders hnodup
    rw [ih (by rw [horders, ids_count]; exact hnodup), horders, List.map_map]
    exact List.map_congr_left fun o _ => counted_count r R o

theorem Rounds.quantity (h : Rounds setting userID l R l') (hnodup : (l.orders.map (·.id)).Nodup)
    (hroom : ∀ o ∈ l.orders, o.openedCount ≤ o.quantity) :
    ∀ o ∈ l'.orders, o.openedCount ≤ o.quantity := by
  induction h with
  | refl l => exact hroom
  | cons hround _ ih =>
    have horders := hround.orders hnodup
    exact ih (by rw [horders, ids_count]; exact hnodup) (hround.quantity hnodup hroom)

/-- The records are of orders that the opening holds. -/
theorem Rounds.orderID (h : Rounds setting userID l R l') (hnodup : (l.orders.map (·.id)).Nodup) :
    ∀ r ∈ R, ∃ o ∈ l.orders, o.id = r.orderID := by
  induction h with
  | refl l => exact fun r hr => absurd hr List.not_mem_nil
  | @cons l l₁ l' r R hround _ ih =>
    have horders := hround.orders hnodup
    intro r' hr'
    rcases List.mem_cons.1 hr' with rfl | hr'
    · obtain ⟨o, ho, hid, -⟩ := hround.room
      exact ⟨o, ho, hid⟩
    · obtain ⟨o₁, ho₁, hid⟩ := ih (by rw [horders, ids_count]; exact hnodup) r' hr'
      rw [horders] at ho₁
      obtain ⟨o, ho, rfl⟩ := List.mem_map.1 ho₁
      exact ⟨o, ho, by rw [← hid, id_count]⟩

end Counts

theorem get?_saveOrders {os : List BlindBoxOrder} (hnodup : (os.map (·.id)).Nodup)
    (orders : Table BlindBoxOrder) (id : Int) :
    (saveOrders orders os).get? id = match os.find? (·.id = id) with
      | some o => (orders.get? id).map (orderColumns o)
      | none => orders.get? id := by
  induction os generalizing orders with
  | nil => rfl
  | cons o os ih =>
    obtain ⟨hhead, htail⟩ := List.nodup_cons.1 hnodup
    have hrest := ih htail (orders.update o.id (orderColumns o) (keepsIndexes_orderColumns o))
    show (saveOrders _ os).get? id = _
    rw [hrest, Table.get?_update]
    by_cases hid : o.id = id
    · subst hid
      have hnone : os.find? (·.id = o.id) = none := by
        rw [List.find?_eq_none]
        intro p hp
        simp only [decide_eq_true_eq]
        exact fun e => hhead (List.mem_map.2 ⟨p, hp, e⟩)
      simp [hnone]
    · have hid' : ¬ id = o.id := Ne.symm hid
      simp [hid, hid']

theorem mem_openableOrders {s : Store} {userID : Int} {orderID : Option Int} {o : BlindBoxOrder}
    (h : o ∈ s.openableOrders userID orderID) : o ∈ s.orders ∧ o.openable userID = true := by
  have h := List.mem_mergeSort.1 h
  simp only [List.mem_filter, decide_eq_true_eq] at h
  exact ⟨h.1, h.2.1⟩

theorem nodup_openableOrders (s : Store) (userID : Int) (orderID : Option Int) :
    ((s.openableOrders userID orderID).map (·.id)).Nodup := by
  have hrows : (s.orders.rows.map (·.id)).Nodup := by
    rw [List.Nodup, List.pairwise_map]
    refine s.orders.distinct.imp fun {o p} hop e => ?_
    rw [Indexed.clash_of_pk o p e] at hop
    cases hop
  have hfilter := (List.filter_sublist (l := s.orders.rows) (p := fun o =>
    decide (o.openable userID = true ∧ orderID.all (· = o.id) = true))).map BlindBoxOrder.id
  exact ((List.mergeSort_perm _ _).map _).nodup_iff.2 (hrows.sublist hfilter)

section Transactions

variable {setting : Setting} {moment : Moment} {draws : Nat → Draw} {userID : Int}

/-- Orders that are still as they were read take the counts of the opening. -/
theorem Stocked.commits {c₀ c : Store} {orderID : Option Int} {l l' : Opening}
    {R : List BlindBoxOpenRecord} {w : Store → Store} (hc : Stocked c)
    (hview : View.agree c₀ c (.openable userID))
    (horders : l.orders = c₀.openableOrders userID orderID)
    (hrounds : Rounds setting userID l R l') (hcommits : Commits userID R l' w) :
    Stocked (w c) := by
  have hnodup : (l.orders.map (·.id)).Nodup := by
    rw [horders]
    exact nodup_openableOrders c₀ userID orderID
  have hread : ∀ o ∈ l.orders, c.orders.get? o.id = some o ∧ o.openedCount < o.quantity := by
    intro o ho
    rw [horders] at ho
    obtain ⟨hmem, hopen⟩ := mem_openableOrders ho
    have hless : o.openedCount < o.quantity := by
      simp only [BlindBoxOrder.openable, decide_eq_true_eq] at hopen
      exact hopen.2.2
    exact ⟨hview o hmem hopen, hless⟩
  have hsaved := hrounds.orders hnodup
  have hroom := hrounds.quantity hnodup fun o ho => (hread o ho).2.le
  have hids : (l'.orders.map (·.id)).Nodup := by
    rw [hsaved, List.map_map]
    exact hnodup
  -- each order is as it was, or one that was saved
  have hstep : ∀ p ∈ (w c).orders,
      (p ∈ c.orders ∧ R.countP (·.orderID = p.id) = 0) ∨
        ∃ o ∈ c.orders, o.id = p.id ∧
          p.openedCount = o.openedCount + R.countP (·.orderID = p.id) ∧
            p.openedCount ≤ p.quantity := by
    intro p hp
    have hget := get?_order hp
    rw [hcommits.orders, get?_saveOrders hids] at hget
    cases hfind : l'.orders.find? (·.id = p.id) with
    | none =>
      rw [hfind] at hget
      refine .inl ⟨(mem_of_get?_order hget).1, ?_⟩
      rw [List.countP_eq_zero]
      intro r hr
      obtain ⟨o, ho, hid⟩ := hrounds.orderID hnodup r hr
      have hnot := List.find?_eq_none.1 hfind (o.counted R)
        (by rw [hsaved]; exact List.mem_map_of_mem ho)
      simp only [decide_eq_true_eq] at hnot ⊢
      exact fun e => hnot (hid.trans e)
    | some o' =>
      rw [hfind] at hget
      have ho' := List.mem_of_find?_eq_some hfind
      have hid' : o'.id = p.id := by simpa using List.find?_some hfind
      have hfull := hroom o' ho'
      rw [hsaved] at ho'
      obtain ⟨o, ho, rfl⟩ := List.mem_map.1 ho'
      have hid : o.id = p.id := hid'
      have hsame := (hread o ho).1
      rw [hid] at hsame
      rw [hsame] at hget
      cases hget
      exact .inr ⟨o, (mem_of_get?_order hsame).1, hid, by rw [← hid]; rfl, hfull⟩
  have hcount : ∀ id, ((w c).records.countP (·.orderID = id) : Int) =
      c.records.countP (·.orderID = id) + R.countP (·.orderID = id) := by
    intro id
    rw [hcommits.records, List.countP_append]
    push_cast
    rfl
  constructor
  · intro p hp
    rw [hcount]
    rcases hstep p hp with ⟨hmem, hzero⟩ | ⟨o, ho, hid, hopened, -⟩
    · have := hc.opened p hmem
      omega
    · have := hc.opened o ho
      rw [hid] at this
      omega
  · intro p hp
    rw [hcount]
    rcases hstep p hp with ⟨hmem, hzero⟩ | ⟨o, ho, hid, hopened, hfull⟩
    · have := hc.quantity p hmem
      omega
    · have := hc.opened o ho
      rw [hid] at this
      omega
  · rw [hcommits.grants, hcommits.records, List.flatMap_append, hc.grants]

theorem wp_stocked_openBlindBoxesTx {F : Store → Prop} {count : Nat} {orderID : Option Int} :
    wp Stocked (openBlindBoxesTx setting moment draws userID count orderID) id F fun _ w F' =>
      ∀ c, Stocked c → F' c → Stocked (w c) := by
  apply wp_mono wp_openBlindBoxesTx
  rintro _ w F' ⟨c₀, c₁, l, R, l', -, -, hF', horders, -, hrounds, hcommits⟩ c hc hF
  exact hc.commits (hF' c hF).2 horders hrounds hcommits

theorem ensures_openBlindBoxes (count : Int) :
    Ensures Stocked (openBlindBoxes setting moment draws userID count) fun _ _ c => Stocked c := by
  unfold Ensures openBlindBoxes
  split
  next => trivial
  next =>
    split
    next => trivial
    next => exact wp_stocked_openBlindBoxesTx

theorem ensures_openBlindBoxOrderByTradeNoTx (tradeNo : String) :
    Ensures Stocked (openBlindBoxOrderByTradeNoTx setting moment draws tradeNo)
      fun _ _ c => Stocked c := by
  unfold Ensures openBlindBoxOrderByTradeNoTx
  split
  next => trivial
  next =>
    apply wp_bind
    apply wp_step
    intro c₀ F' _ _ _
    dsimp only [id]
    cases c₀.orderOf tradeNo with
    | none => trivial
    | some order =>
      dsimp only
      split
      next => trivial
      next =>
        split
        next => exact fun c hc _ => hc
        next => exact wp_stocked_openBlindBoxesTx

/-- The row that is saved keeps the count and the quantity that it has. -/
theorem Stocked.saveOrder {c : Store} (hc : Stocked c) {order order' : BlindBoxOrder}
    (hget : c.orders.get? order.id = some order) (hid : order'.id = order.id)
    (hopened : order'.openedCount = order.openedCount) (hquantity : order'.quantity = order.quantity) :
    Stocked (c.saveOrder order') := by
  have hmem := (mem_of_get?_order hget).1
  have hrow : ∀ p ∈ (c.saveOrder order').orders, ∃ o ∈ c.orders, o.id = p.id ∧
      o.openedCount = p.openedCount ∧ o.quantity = p.quantity := by
    intro p hp
    rw [← hid] at hget
    rcases (Table.mem_update (keepsIndexes_orderColumns order') hget).1 hp with ⟨hp, -⟩ | rfl
    · exact ⟨p, hp, rfl, rfl, rfl⟩
    · exact ⟨order, hmem, rfl, hopened.symm, hquantity.symm⟩
  constructor
  · intro p hp
    obtain ⟨o, ho, hid, hopened, -⟩ := hrow p hp
    rw [← hid, ← hopened]
    exact hc.opened o ho
  · intro p hp
    obtain ⟨o, ho, hid, -, hquantity⟩ := hrow p hp
    rw [← hid, ← hquantity]
    exact hc.quantity o ho
  · exact hc.grants

theorem ensures_completeBlindBoxOrder
    (now : Int) (tradeNo providerPayload expectedPaymentProvider actualPaymentMethod : String) :
    Ensures Stocked (completeBlindBoxOrder now tradeNo providerPayload expectedPaymentProvider
      actualPaymentMethod) fun _ _ c => Stocked c := by
  unfold Ensures completeBlindBoxOrder
  split
  next => trivial
  next =>
    apply wp_bind
    apply wp_step
    intro c₀ F' _ _ hF'
    dsimp only [id]
    cases horder : c₀.orderOf tradeNo with
    | none => trivial
    | some order =>
      dsimp only
      split
      next => trivial
      next =>
        split
        next => exact fun c hc _ => hc
        next =>
          split
          next => trivial
          next =>
            apply wp_step
            intro c₁ F'' _ _ hF'' c hc hF
            have hview := (hF' c (hF'' c hF).1).2.2 (.tradeNo tradeNo) (by simp)
            exact hc.saveOrder (hview order horder) rfl rfl rfl

end Transactions

section Framed

variable {setting : Setting} {moment : Moment} {draws : Nat → Draw} {userID : Int}

theorem framed_read {α : Type} (f : Store → α) : Framed (read f) :=
  ⟨fun _ x _ => agree_refl x _, fun _ => trivial⟩

theorem framed_createRecord (record : BlindBoxOpenRecord) : Framed (createRecord record) :=
  ⟨fun _ x _ => by cases x <;> rfl, fun _ => trivial⟩

theorem framed_createProp (prop : BlindBoxProp) : Framed (createProp prop) :=
  ⟨fun _ x _ => by cases x <;> rfl, fun _ => trivial⟩

theorem framed_grant (granted : Bool) (g : Grant) : Framed (grant granted g) := by
  constructor
  · intro s x _
    cases granted <;> cases x <;> rfl
  · rintro (_ | _) <;> trivial

theorem framed_saveOrder (order : BlindBoxOrder) : Framed (saveOrder order) := by
  refine ⟨fun s x hx => ?_, fun _ => trivial⟩
  cases x with
  | order id =>
    have hid : id ≠ order.id := fun e => hx (by simp [e])
    show (s.saveOrder order).orders.get? id = s.orders.get? id
    simp only [Store.saveOrder, Table.get?_update, if_neg hid]
  | pity v => rfl
  | zeroHour v => rfl

theorem framed_savePityState (v consecutiveLowRewards : Int) :
    Framed (savePityState v consecutiveLowRewards) := by
  refine ⟨fun s x hx => ?_, fun _ => trivial⟩
  cases x with
  | pity v' =>
    have hv : v' ≠ v := fun e => hx (by simp [e])
    exact Function.update_of_ne hv _ _
  | order id => rfl
  | zeroHour v' => rfl

theorem framed_saveZeroHourState (v : Int) (state : BlindBoxZeroHourState) :
    Framed (saveZeroHourState v state) := by
  refine ⟨fun s x hx => ?_, fun _ => trivial⟩
  cases x with
  | zeroHour v' =>
    have hv : v' ≠ v := fun e => hx (by simp [e])
    exact Function.update_of_ne hv _ _
  | order id => rfl
  | pity v' => rfl

theorem framed_resetZeroHourProgressTx (v : Int) (state : BlindBoxZeroHourState) :
    Framed (resetZeroHourProgressTx v state) :=
  (framed_saveZeroHourState v _).bind fun _ => trivial

theorem framed_getOrCreateBlindBoxPityStateTx (v : Int) :
    Framed (getOrCreateBlindBoxPityStateTx v) := by
  apply (framed_read _).bind
  rintro (_ | k)
  · apply Framed.bind (p := stepE _ _)
    · refine ⟨fun s x hx => ?_, fun r => by cases r <;> trivial⟩
      dsimp only
      split
      · exact agree_refl x s
      · cases x with
        | pity v' =>
          have hv : v' ≠ v := fun e => hx (by simp [e])
          exact Function.update_of_ne hv _ _
        | order id => rfl
        | zeroHour v' => rfl
    · exact fun _ => trivial
  · trivial

theorem framed_getOrCreateZeroHourStateTx (v : Int) : Framed (getOrCreateZeroHourStateTx v) := by
  apply (framed_read _).bind
  rintro (_ | state)
  · apply Framed.bind (p := stepE _ _)
    · refine ⟨fun s x hx => ?_, fun r => by cases r <;> trivial⟩
      dsimp only
      split
      · exact agree_refl x s
      · cases x with
        | zeroHour v' =>
          have hv : v' ≠ v := fun e => hx (by simp [e])
          exact Function.update_of_ne hv _ _
        | order id => rfl
        | pity v' => rfl
    · exact fun _ => trivial
  · trivial

theorem framed_createBlindBoxPropTx (v : Int) (title : String) :
    Framed (createBlindBoxPropTx v title) := by
  unfold createBlindBoxPropTx
  cases getBlindBoxPropSpecByTitle title with
  | some propType => exact framed_createProp _
  | none => trivial

theorem framed_openCredit {record : BlindBoxOpenRecord} {draw : Draw} {pityTriggered : Bool}
    {reward : Reward} {rewardType : RewardType} {walletType : RewardWalletType} {l : Opening} :
    Framed (openCredit setting record draw pityTriggered reward rewardType walletType l) := by
  apply Framed.ite
  · trivial
  · apply (framed_createRecord _).bind
    exact fun _ => (framed_grant _ _).bind fun _ => trivial

theorem framed_openReward {record : BlindBoxOpenRecord} {draw : Draw} {pityTriggered : Bool}
    {reward : Reward} {l : Opening} :
    Framed (openReward setting record draw pityTriggered reward l) := by
  unfold openReward
  cases reward.rewardType with
  | prop =>
    apply (framed_createRecord _).bind
    exact fun _ => (framed_createBlindBoxPropTx _ _).bind fun _ => trivial
  | quota => exact framed_openCredit
  | claudeQuota => exact framed_openCredit
  | subscription => exact framed_openCredit

theorem framed_openDrawn {isFirstPurchaseOpen pityTriggered : Bool} {record : BlindBoxOpenRecord}
    {draw : Draw} {l : Opening} :
    Framed (openDrawn setting isFirstPurchaseOpen pityTriggered record draw l) := by
  unfold openDrawn
  apply Framed.bind
  · apply Framed.ite
    · exact .ite trivial ((framed_saveZeroHourState _ _).bind fun _ => trivial)
    · trivial
  · intro zeroHour
    apply Framed.ite
    · apply Framed.bind
      · apply Framed.ite
        · trivial
        · apply (framed_read _).bind
          rintro (_ | _) <;> trivial
      · intro _
        apply (framed_grant _ _).bind
        exact fun _ => (framed_createRecord _).bind fun _ => trivial
    · exact framed_openReward

theorem framed_openBox {firstPurchaseOrderID : Int} {draw : Draw} {l : Opening} :
    Framed (openBox setting moment userID firstPurchaseOrderID draw l) := by
  unfold openBox
  apply Framed.ite
  · trivial
  · apply Framed.bind
    · apply Framed.ite
      · apply (framed_read _).bind
        rintro (_ | _) <;> trivial
      · trivial
    · rintro (_ | _)
      · exact framed_openDrawn
      · apply (framed_createRecord _).bind
        intro _
        apply (framed_createBlindBoxPropTx _ _).bind
        intro _
        exact (framed_resetZeroHourProgressTx _ _).bind fun _ => trivial

theorem framed_findFirstPurchaseOrderID (orders : List BlindBoxOrder) :
    Framed (findFirstPurchaseOrderID userID orders) := by
  induction orders with
  | nil => trivial
  | cons order orders ih =>
    apply Framed.ite
    · exact ih
    · apply Framed.bind
      · exact .ite trivial (framed_read _)
      · rintro (_ | _)
        · exact ih
        · trivial

theorem framed_openBlindBoxesTx {count : Nat} {orderID : Option Int} :
    Framed (openBlindBoxesTx setting moment draws userID count orderID) := by
  apply (framed_read _).bind
  intro openCountToday
  apply Framed.ite
  · trivial
  · apply Framed.bind
    · exact Framed.bind ⟨fun _ x _ => agree_refl x _, fun _ => trivial⟩ fun _ => trivial
    · rintro ⟨orders, available⟩
      apply Framed.ite
      · trivial
      · apply (framed_getOrCreateBlindBoxPityStateTx _).bind
        intro k
        apply (framed_getOrCreateZeroHourStateTx _).bind
        intro zeroHour
        apply Framed.bind
        · exact .ite (framed_findFirstPurchaseOrderID _) trivial
        · intro firstPurchaseOrderID
          cases orders with
          | nil => trivial
          | cons current rest =>
            apply (Framed.foldlM (fun _ _ => framed_openBox) _ _).bind
            intro l
            apply (Framed.forM framed_saveOrder _).bind
            exact fun _ => (framed_savePityState _ _).bind fun _ => trivial

end Framed

/-- The transactions of the three entry points. -/
inductive Request where
  | openBlindBoxes (setting : Setting) (moment : Moment) (draws : Nat → Draw) (userID count : Int)
  | openBlindBoxOrderByTradeNo (setting : Setting) (moment : Moment) (draws : Nat → Draw)
    (tradeNo : String)
  | completeBlindBoxOrder (now : Int)
    (tradeNo providerPayload expectedPaymentProvider actualPaymentMethod : String)

def Request.code : Request → Flow (List BlindBoxOpenRecord)
  | .openBlindBoxes setting moment draws userID count =>
    BlindBox.openBlindBoxes setting moment draws userID count
  | .openBlindBoxOrderByTradeNo setting moment draws tradeNo =>
    openBlindBoxOrderByTradeNoTx setting moment draws tradeNo
  | .completeBlindBoxOrder now tradeNo providerPayload expectedPaymentProvider
      actualPaymentMethod => do
    BlindBox.completeBlindBoxOrder now tradeNo providerPayload expectedPaymentProvider
      actualPaymentMethod
    pure []

theorem Request.framed (r : Request) : Framed r.code := by
  cases r with
  | openBlindBoxes setting moment draws userID count =>
    exact .ite trivial (.ite trivial framed_openBlindBoxesTx)
  | openBlindBoxOrderByTradeNo setting moment draws tradeNo =>
    apply Framed.ite
    · trivial
    · apply (framed_read _).bind
      rintro (_ | order)
      · trivial
      · exact .ite trivial (.ite trivial framed_openBlindBoxesTx)
  | completeBlindBoxOrder now tradeNo providerPayload expectedPaymentProvider
      actualPaymentMethod =>
    refine Framed.bind (q := fun _ => .ret []) ?_ fun _ => trivial
    apply Framed.ite
    · trivial
    · refine Framed.bind ⟨fun _ x _ => agree_refl x _, fun _ => trivial⟩ ?_
      rintro (_ | order)
      · trivial
      · exact .ite trivial (.ite trivial (.ite trivial (framed_saveOrder _)))

theorem Request.ensures (r : Request) : Ensures Stocked r.code fun _ _ c => Stocked c := by
  cases r with
  | openBlindBoxes setting moment draws userID count => exact ensures_openBlindBoxes count
  | openBlindBoxOrderByTradeNo setting moment draws tradeNo =>
    exact ensures_openBlindBoxOrderByTradeNoTx tradeNo
  | completeBlindBoxOrder now tradeNo providerPayload expectedPaymentProvider
      actualPaymentMethod =>
    exact wp_bind (ensures_completeBlindBoxOrder _ _ _ _ _)

/-- As long as no order that is in use changes, no box is opened twice. -/
theorem never_over_opened {s₀ : Store} (h₀ : Stocked s₀)
    {s : System Store Cell View Error (List BlindBoxOpenRecord)}
    (h : Reach Request.code Undisturbed s₀ s) : Stocked s.committed :=
  (h.sound (fun r => ⟨r.framed, r.ensures⟩) h₀).committed

/-- A paid order of one box. -/
def oneBox : Store where
  orders := ⟨[paidOrder 1], List.pairwise_singleton _ _⟩
  pityStates := fun _ => some 0
  zeroHourStates := fun _ => some {}

theorem stocked_oneBox : Stocked oneBox where
  opened := by decide
  quantity := by decide
  grants := rfl

def openOne : Request := .openBlindBoxes smallTier noon (fun _ => {}) 1 1

theorem never_over_opened_sample : ∃ s : System Store Cell View Error (List BlindBoxOpenRecord),
    Reach Request.code Undisturbed oneBox s ∧ s.committed.records.length = 1 ∧
      Stocked s.committed := by
  have hrun : ((perform unread Request.code ⟨oneBox, []⟩
      (.start openOne :: List.replicate 10 (.act 0) ++ [.commit 0])).map
        fun s => s.committed.records.length) = some 1 := by decide +kernel
  obtain ⟨s, hs, hlength⟩ := Option.map_eq_some_iff.1 hrun
  have hreach := Reach.init.perform undisturbed_of_unread hs
  exact ⟨s, hreach, hlength, never_over_opened stocked_oneBox hreach⟩

/-- How many transactions, records and grants there are, and for each order its count, its
quantity and its records. -/
def counts (s : System Store Cell View Error (List BlindBoxOpenRecord)) :
    List Nat × List (Int × Int × Nat) :=
  ([s.txns.length, s.committed.records.length, s.committed.grants.length],
    s.committed.orders.rows.map fun o =>
      (o.openedCount, o.quantity, s.committed.records.countP (·.orderID = o.id)))

/-- Two openings that read the order before either commits open its one box twice. -/
theorem opened_twice : ∃ s : System Store Cell View Error (List BlindBoxOpenRecord),
    Reach Request.code (fun _ _ => True) oneBox s ∧ Stocked oneBox ∧
      counts s = ([0, 2, 2], [(1, 1, 2)]) ∧ ¬ Stocked s.committed := by
  have hrun : (perform (fun _ _ => true) Request.code ⟨oneBox, []⟩
      (.start openOne :: .start openOne :: List.replicate 2 (.act 1) ++
        (List.replicate 10 (.act 0) ++ .commit 0 :: List.replicate 8 (.act 0) ++
          [.commit 0]))).map counts = some ([0, 2, 2], [(1, 1, 2)]) := by decide +kernel
  obtain ⟨s, hs, hcounts⟩ := Option.map_eq_some_iff.1 hrun
  refine ⟨s, Reach.init.perform (fun _ _ _ => trivial) hs, stocked_oneBox, hcounts, ?_⟩
  intro hstocked
  have hrow : ((1 : Int), (1 : Int), 2) ∈ (counts s).2 := by
    rw [hcounts]
    exact List.mem_singleton_self _
  obtain ⟨o, ho, hrow⟩ := List.mem_map.1 hrow
  have hquantity := hstocked.quantity o ho
  simp only [Prod.mk.injEq] at hrow
  obtain ⟨-, hone, htwo⟩ := hrow
  rw [hone, htwo] at hquantity
  omega

end CodeGo.Commerce.BlindBox
