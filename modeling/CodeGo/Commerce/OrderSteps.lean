import CodeGo.Commerce.OrderRules

/-!
# What a commit does to orders and props

`OrderStep` says all that the transactions of the orders can do to orders and discount props, and
`Lawful` is what every such step keeps.
-/

namespace CodeGo.Commerce.Orders

open CodeGo.Lib

/-- Pending or paid. -/
def SubscriptionOrder.live (o : SubscriptionOrder) : Bool := o.status = .pending ∨ o.status = .success

/-- Pending, or paid but not fulfilled. -/
def SubscriptionOrder.open (o : SubscriptionOrder) : Bool :=
  o.status = .pending ∨ o.status = .success ∧ o.fulfillmentStatus = .pending

/-- An order after some steps: what it was created with stays, and so does its status once it is not
pending. -/
structure SubscriptionOrder.Follows (o o' : SubscriptionOrder) : Prop where
  userID : o'.userID = o.userID
  planID : o'.planID = o.planID
  purchaseType : o'.purchaseType = o.purchaseType
  discount : o'.firstPurchaseDiscountApplied = o.firstPurchaseDiscountApplied
  loweredBy : o'.loweredBy = o.loweredBy
  status : o.status ≠ .pending → o'.status = o.status

/-- No order is lost, and each leaves the pending status at most once. -/
def Settled (s s' : Store) : Prop :=
  ∀ t o, s.orders.get? t = some o → ∃ o', s'.orders.get? t = some o' ∧ o.Follows o'

theorem SubscriptionOrder.Follows.refl (o : SubscriptionOrder) : o.Follows o :=
  ⟨rfl, rfl, rfl, rfl, rfl, fun _ => rfl⟩

theorem SubscriptionOrder.Follows.trans {o o' o'' : SubscriptionOrder} (h : o.Follows o')
    (h' : o'.Follows o'') : o.Follows o'' where
  userID := h'.userID.trans h.userID
  planID := h'.planID.trans h.planID
  purchaseType := h'.purchaseType.trans h.purchaseType
  discount := h'.discount.trans h.discount
  loweredBy := h'.loweredBy.trans h.loweredBy
  status hne := by
    have hstatus := h.status hne
    rw [h'.status (by rw [hstatus]; exact hne), hstatus]

theorem Settled.refl (s : Store) : Settled s s := fun _ o h => ⟨o, h, .refl o⟩

theorem Settled.trans {s s' s'' : Store} (h : Settled s s') (h' : Settled s' s'') :
    Settled s s'' := by
  intro t o ho
  obtain ⟨o', ho', hf⟩ := h t o ho
  obtain ⟨o'', ho'', hf'⟩ := h' t o' ho'
  exact ⟨o'', ho'', hf.trans hf'⟩

/-- How the status of an order changes, and what becomes of the props that are reserved for it. -/
inductive Progress : SubscriptionOrder → SubscriptionOrder → Option PropStatus → Prop where
  | complete {o o' : SubscriptionOrder} : o.status = .pending → o'.status = .success →
    o'.fulfillmentStatus = .pending → Progress o o' none
  | expire {o o' : SubscriptionOrder} : o.status = .pending → o'.status = .expired →
    Progress o o' (some .available)
  | fulfill {o o' : SubscriptionOrder} : o.status = .success → o.fulfillmentStatus = .pending →
    o.purchaseType ≠ .fuel → o'.status = .success → o'.fulfillmentStatus = .completed →
    Progress o o' (some .used)
  | fuel {o o' : SubscriptionOrder} : o.status = .success → o.fulfillmentStatus = .pending →
    o.purchaseType = .fuel → o'.status = .success → o'.fulfillmentStatus = .completed →
    Progress o o' none

/-- The props that are reserved for the order, set free. -/
def Freed (tradeNo : String) (status : Option PropStatus) (p : BlindBoxProp) : BlindBoxProp :=
  match status with
  | none => p
  | some status => p.freed .subscription tradeNo status

/-- The discounts that a new order may have. -/
structure Priced (c : Store) (o : SubscriptionOrder) : Prop where
  discount : o.firstPurchaseDiscountApplied = true → o.loweredBy = none ∧
    (c.plans o.planID).any isFirstPurchaseDiscountPlan = true ∧ o.purchaseType ≠ .fuel ∧
      ∀ t p, c.orders.get? t = some p → p.userID = o.userID →
        p.firstPurchaseDiscountApplied = true → p.live = false
  prop : ∀ i, o.loweredBy = some i → ∃ p, c.props.get? i = some p ∧ p.status = .available

/-- The prop of a new order, reserved for it. -/
def Reserved (o : SubscriptionOrder) (p : BlindBoxProp) : BlindBoxProp :=
  if o.loweredBy = some p.id then
    { p with status := .reserved, reservedOrder := some (.subscription, o.tradeNo) }
  else p

inductive OrderStep (c c' : Store) : Prop where
  | same : c'.orders = c.orders → c'.props = c.props → c'.plans = c.plans → OrderStep c c'
  | progress (o o' : SubscriptionOrder) (status : Option PropStatus) :
    c.orders.get? o.tradeNo = some o → Progress o o' status → o.Follows o' →
    o'.tradeNo = o.tradeNo →
    (∀ t, c'.orders.get? t = if t = o.tradeNo then some o' else c.orders.get? t) →
    (∀ i, c'.props.get? i = (c.props.get? i).map (Freed o.tradeNo status)) →
    c'.plans = c.plans → OrderStep c c'
  | create (o : SubscriptionOrder) :
    c.orders.get? o.tradeNo = none → o.status = .pending → Priced c o →
    (∀ t, c'.orders.get? t = if t = o.tradeNo then some o else c.orders.get? t) →
    (∀ i, c'.props.get? i = (c.props.get? i).map (Reserved o)) →
    c'.plans = c.plans → OrderStep c c'

theorem Progress.status {o o' : SubscriptionOrder} {status : Option PropStatus}
    (h : Progress o o' status) : o.status ≠ .pending → o'.status = o.status := by
  intro hne
  cases h with
  | complete hpending _ _ => exact absurd hpending hne
  | expire hpending _ => exact absurd hpending hne
  | fulfill hsuccess _ _ hsuccess' _ => exact hsuccess'.trans hsuccess.symm
  | fuel hsuccess _ _ hsuccess' _ => exact hsuccess'.trans hsuccess.symm

theorem OrderStep.settled {c c' : Store} (h : OrderStep c c') : Settled c c' := by
  intro t p hp
  cases h with
  | same horders _ _ => exact ⟨p, by rw [horders]; exact hp, .refl p⟩
  | progress o o' status hget _ hfollows _ horders _ _ =>
    by_cases ht : t = o.tradeNo
    · subst ht
      rw [hget] at hp
      cases hp
      exact ⟨o', by rw [horders, if_pos rfl], hfollows⟩
    · exact ⟨p, by rw [horders, if_neg ht]; exact hp, .refl p⟩
  | create o hnew _ _ horders _ _ =>
    have ht : t ≠ o.tradeNo := by
      rintro rfl
      rw [hnew] at hp
      cases hp
    exact ⟨p, by rw [horders, if_neg ht]; exact hp, .refl p⟩

/-- The prop that lowered the price of an order, as long as the order may still reach success. -/
inductive Holds (o : SubscriptionOrder) (p : BlindBoxProp) : Prop where
  | reserved : (o.open = true ∨ o.purchaseType = .fuel) →
    p.reservedFor .subscription o.tradeNo = true → Holds o p
  | used : o.status = .success → o.fulfillmentStatus = .completed → o.purchaseType ≠ .fuel →
    p.status = .used → Holds o p

structure Lawful (s : Store) : Prop where
  /-- an order with the discount counts as a first purchase -/
  discounted : ∀ t o, s.orders.get? t = some o → o.firstPurchaseDiscountApplied = true →
    o.loweredBy = none ∧ (s.plans o.planID).any isFirstPurchaseDiscountPlan = true ∧
      o.purchaseType ≠ .fuel
  first : ∀ t t' o o', s.orders.get? t = some o → s.orders.get? t' = some o' →
    o.userID = o'.userID → o.firstPurchaseDiscountApplied = true →
    o'.firstPurchaseDiscountApplied = true → o.live = true → o'.live = true → t = t'
  held : ∀ t o i, s.orders.get? t = some o → o.live = true → o.loweredBy = some i →
    ∃ p, s.props.get? i = some p ∧ Holds o p
  reserved : ∀ i p t, s.props.get? i = some p → p.reservedFor .subscription t = true →
    ∃ o, s.orders.get? t = some o ∧ o.loweredBy = some i ∧ o.live = true ∧
      (o.open = true ∨ o.purchaseType = .fuel)
  once : ∀ t t' o o' i, s.orders.get? t = some o → s.orders.get? t' = some o' →
    o.loweredBy = some i → o'.loweredBy = some i → o.live = true → o'.live = true → t = t'

theorem key_of_get? {s : Store} {t : String} {o : SubscriptionOrder}
    (h : s.orders.get? t = some o) : o.tradeNo = t := Table.pk_of_get? h

theorem id_of_get? {s : Store} {i : Int} {p : BlindBoxProp} (h : s.props.get? i = some p) :
    p.id = i := Table.pk_of_get? h

theorem reservedFor_iff {p : BlindBoxProp} {t : String} :
    p.reservedFor .subscription t = true ↔
      p.reservedOrder = some (.subscription, t) ∧ p.status = .reserved := by
  simp [BlindBoxProp.reservedFor]

/-- A prop is reserved for one order at most. -/
theorem reservedFor_unique {p : BlindBoxProp} {t t' : String}
    (h : p.reservedFor .subscription t = true) (h' : p.reservedFor .subscription t' = true) :
    t = t' := by
  have hsame := (reservedFor_iff.1 h).1.symm.trans (reservedFor_iff.1 h').1
  simpa using hsame

/-- A prop that is set free is not reserved for the order, and one that is reserved for another is
as it was. -/
theorem reservedFor_freed {p : BlindBoxProp} {t t' : String} {status : PropStatus}
    (h : (p.freed .subscription t status).reservedFor .subscription t' = true) :
    t' ≠ t ∧ p.freed .subscription t status = p := by
  unfold BlindBoxProp.freed at h ⊢
  split at h
  case isTrue hr => simp [BlindBoxProp.reservedFor] at h
  case isFalse hr =>
    rw [if_neg hr]
    exact ⟨fun e => hr (e ▸ h), rfl⟩

/-- Only a prop that is reserved for the order changes. -/
theorem freed_of_not_reservedFor {p : BlindBoxProp} {t : String} {status : PropStatus}
    (h : ¬ p.reservedFor .subscription t = true) : p.freed .subscription t status = p := by
  unfold BlindBoxProp.freed
  rw [if_neg h]

/-- A prop that an order holds is not available. -/
theorem Holds.ne_available {o : SubscriptionOrder} {p : BlindBoxProp} (h : Holds o p) :
    p.status ≠ .available := by
  cases h with
  | reserved _ hr => simp [(reservedFor_iff.1 hr).2]
  | used _ _ _ hused => simp [hused]

/-- A prop that an order holds is not reserved for another. -/
theorem Holds.not_reservedFor {o : SubscriptionOrder} {p : BlindBoxProp} {t : String}
    (h : Holds o p) (ht : o.tradeNo ≠ t) : ¬ p.reservedFor .subscription t = true := by
  intro hr
  cases h with
  | reserved _ hr' => exact ht (reservedFor_unique hr' hr)
  | used _ _ _ hused =>
    have hstatus := (reservedFor_iff.1 hr).2
    rw [hused] at hstatus
    cases hstatus

theorem Progress.live {o o' : SubscriptionOrder} {status : Option PropStatus}
    (h : Progress o o' status) : o.live = true := by
  cases h with
  | complete hpending => simp [SubscriptionOrder.live, hpending]
  | expire hpending => simp [SubscriptionOrder.live, hpending]
  | fulfill hsuccess => simp [SubscriptionOrder.live, hsuccess]
  | fuel hsuccess => simp [SubscriptionOrder.live, hsuccess]

/-- The order that goes on holds its prop as it should. -/
theorem Progress.holds {o o' : SubscriptionOrder} {status : Option PropStatus}
    (h : Progress o o' status) (hkey : o'.tradeNo = o.tradeNo)
    (hfollows : o.Follows o') (hlive : o'.live = true) {p : BlindBoxProp} (hp : Holds o p) :
    Holds o' (Freed o.tradeNo status p) := by
  cases h with
  | complete hpending hsuccess hunfulfilled =>
    cases hp with
    | reserved _ hr =>
      exact .reserved (.inl (by simp [SubscriptionOrder.open, hsuccess, hunfulfilled])) (hkey ▸ hr)
    | used hpaid => rw [hpending] at hpaid; cases hpaid
  | expire hpending hexpired => simp [SubscriptionOrder.live, hexpired] at hlive
  | fulfill hsuccess hunfulfilled htype hsuccess' hcompleted =>
    cases hp with
    | reserved _ hr =>
      apply Holds.used hsuccess' hcompleted
      · rw [hfollows.purchaseType]
        exact htype
      · simp only [Freed, BlindBoxProp.freed]
        rw [if_pos hr]
    | used _ hdone => rw [hunfulfilled] at hdone; cases hdone
  | fuel hsuccess hunfulfilled htype hsuccess' hcompleted =>
    cases hp with
    | reserved _ hr => exact .reserved (.inr (hfollows.purchaseType.trans htype)) (hkey ▸ hr)
    | used _ hdone => rw [hunfulfilled] at hdone; cases hdone

/-- Where an order of the new store comes from. -/
theorem origin {c c' : Store} {o o' : SubscriptionOrder} {status : Option PropStatus}
    (hget : c.orders.get? o.tradeNo = some o) (hp : Progress o o' status) (hf : o.Follows o')
    (horders : ∀ t, c'.orders.get? t = if t = o.tradeNo then some o' else c.orders.get? t)
    {t : String} {p' : SubscriptionOrder} (h : c'.orders.get? t = some p') :
    ∃ p, c.orders.get? t = some p ∧ p.Follows p' ∧ (p'.live = true → p.live = true) := by
  rw [horders] at h
  split at h
  case isTrue ht =>
    cases h
    exact ⟨o, ht ▸ hget, hf, fun _ => hp.live⟩
  case isFalse => exact ⟨p', h, .refl p', fun h => h⟩

theorem Lawful.progress {c c' : Store} {o o' : SubscriptionOrder} {status : Option PropStatus}
    (hc : Lawful c) (hget : c.orders.get? o.tradeNo = some o) (hp : Progress o o' status)
    (hf : o.Follows o') (hkey : o'.tradeNo = o.tradeNo)
    (horders : ∀ t, c'.orders.get? t = if t = o.tradeNo then some o' else c.orders.get? t)
    (hprops : ∀ i, c'.props.get? i = (c.props.get? i).map (Freed o.tradeNo status))
    (hplans : c'.plans = c.plans) : Lawful c' where
  discounted t p' h' hdiscount := by
    obtain ⟨p, h, hfollows, -⟩ := origin hget hp hf horders h'
    rw [hfollows.loweredBy, hfollows.planID, hfollows.purchaseType, hplans]
    exact hc.discounted t p h (hfollows.discount ▸ hdiscount)
  first t₁ t₂ p₁' p₂' h₁' h₂' huser hd₁ hd₂ hl₁ hl₂ := by
    obtain ⟨p₁, h₁, hf₁, hlive₁⟩ := origin hget hp hf horders h₁'
    obtain ⟨p₂, h₂, hf₂, hlive₂⟩ := origin hget hp hf horders h₂'
    have husers : p₁.userID = p₂.userID := by rw [← hf₁.userID, ← hf₂.userID, huser]
    exact hc.first t₁ t₂ p₁ p₂ h₁ h₂ husers (hf₁.discount ▸ hd₁) (hf₂.discount ▸ hd₂)
      (hlive₁ hl₁) (hlive₂ hl₂)
  held t p' i h' hlive hlowered := by
    rw [horders] at h'
    split at h'
    case isTrue ht =>
      cases h'
      obtain ⟨q, hq, hholds⟩ := hc.held _ o i hget hp.live (hf.loweredBy ▸ hlowered)
      exact ⟨Freed o.tradeNo status q, by rw [hprops, hq]; rfl, hp.holds hkey hf hlive hholds⟩
    case isFalse ht =>
      obtain ⟨q, hq, hholds⟩ := hc.held t p' i h' hlive hlowered
      have hother : p'.tradeNo ≠ o.tradeNo := by rw [key_of_get? h']; exact ht
      refine ⟨q, ?_, hholds⟩
      rw [hprops, hq]
      cases status with
      | none => rfl
      | some status =>
        exact congrArg some (freed_of_not_reservedFor (hholds.not_reservedFor hother))
  reserved i p' t h' hr := by
    rw [hprops] at h'
    obtain ⟨q, hq, rfl⟩ := Option.map_eq_some_iff.1 h'
    cases status with
    | some status =>
      -- the props of the order are free, and the others belong to the orders they belonged to
      obtain ⟨ht, hsame⟩ := reservedFor_freed hr
      simp only [Freed] at hr
      rw [hsame] at hr
      obtain ⟨p, h, hrest⟩ := hc.reserved i q t hq hr
      exact ⟨p, by rw [horders, if_neg ht]; exact h, hrest⟩
    | none =>
      obtain ⟨p, h, hlowered, hlive, hopen⟩ := hc.reserved i q t hq hr
      by_cases ht : t = o.tradeNo
      · subst ht
        rw [hget] at h
        cases h
        refine ⟨o', by rw [horders, if_pos rfl], hf.loweredBy.trans hlowered, ?_⟩
        cases hp with
        | complete _ hsuccess hunfulfilled =>
          simp [SubscriptionOrder.live, SubscriptionOrder.open, hsuccess, hunfulfilled]
        | fuel _ _ htype hsuccess _ =>
          simp [SubscriptionOrder.live, hsuccess, hf.purchaseType, htype]
      · exact ⟨p, by rw [horders, if_neg ht]; exact h, hlowered, hlive, hopen⟩
  once t₁ t₂ p₁' p₂' i h₁' h₂' hl₁ hl₂ hlive₁' hlive₂' := by
    obtain ⟨p₁, h₁, hf₁, hlive₁⟩ := origin hget hp hf horders h₁'
    obtain ⟨p₂, h₂, hf₂, hlive₂⟩ := origin hget hp hf horders h₂'
    exact hc.once t₁ t₂ p₁ p₂ i h₁ h₂ (hf₁.loweredBy ▸ hl₁) (hf₂.loweredBy ▸ hl₂)
      (hlive₁ hlive₁') (hlive₂ hlive₂')

/-- The prop of a new order was available, and is reserved for it now. -/
theorem reserved_cases {c : Store} {o : SubscriptionOrder} (hpriced : Priced c o) {i : Int}
    {q : BlindBoxProp} (hq : c.props.get? i = some q) :
    o.loweredBy = some i ∧ q.status = .available ∧
        (Reserved o q).reservedFor .subscription o.tradeNo = true ∨
      o.loweredBy ≠ some i ∧ Reserved o q = q := by
  have hid := id_of_get? hq
  unfold Reserved
  rw [hid]
  split
  case isTrue hlowered =>
    obtain ⟨p, hp, havailable⟩ := hpriced.prop i hlowered
    rw [hq] at hp
    cases hp
    exact .inl ⟨hlowered, havailable, by simp [BlindBoxProp.reservedFor]⟩
  case isFalse hlowered => exact .inr ⟨hlowered, rfl⟩

theorem Lawful.create {c c' : Store} {o : SubscriptionOrder} (hc : Lawful c)
    (hnew : c.orders.get? o.tradeNo = none) (hpending : o.status = .pending)
    (hpriced : Priced c o)
    (horders : ∀ t, c'.orders.get? t = if t = o.tradeNo then some o else c.orders.get? t)
    (hprops : ∀ i, c'.props.get? i = (c.props.get? i).map (Reserved o))
    (hplans : c'.plans = c.plans) : Lawful c' where
  discounted t p h hdiscount := by
    rw [hplans]
    rw [horders] at h
    split at h
    case isTrue =>
      cases h
      obtain ⟨hprop, hplan, htype, -⟩ := hpriced.discount hdiscount
      exact ⟨hprop, hplan, htype⟩
    case isFalse => exact hc.discounted t p h hdiscount
  first t₁ t₂ p₁ p₂ h₁ h₂ huser hd₁ hd₂ hl₁ hl₂ := by
    rw [horders] at h₁ h₂
    split at h₁ <;> split at h₂
    case isTrue.isTrue ht₁ ht₂ => rw [ht₁, ht₂]
    case isTrue.isFalse =>
      cases h₁
      obtain ⟨-, -, -, hfirst⟩ := hpriced.discount hd₁
      rw [hfirst t₂ p₂ h₂ huser.symm hd₂] at hl₂
      cases hl₂
    case isFalse.isTrue =>
      cases h₂
      obtain ⟨-, -, -, hfirst⟩ := hpriced.discount hd₂
      rw [hfirst t₁ p₁ h₁ huser hd₁] at hl₁
      cases hl₁
    case isFalse.isFalse => exact hc.first t₁ t₂ p₁ p₂ h₁ h₂ huser hd₁ hd₂ hl₁ hl₂
  held t p i h hlive hlowered := by
    rw [horders] at h
    split at h
    case isTrue ht =>
      cases h
      obtain ⟨q, hq, -⟩ := hpriced.prop i hlowered
      refine ⟨Reserved o q, by rw [hprops, hq]; rfl, ?_⟩
      rcases reserved_cases hpriced hq with ⟨-, -, hr⟩ | ⟨hother, -⟩
      · exact .reserved (.inl (by simp [SubscriptionOrder.open, hpending])) hr
      · exact absurd hlowered hother
    case isFalse ht =>
      obtain ⟨q, hq, hholds⟩ := hc.held t p i h hlive hlowered
      refine ⟨q, ?_, hholds⟩
      rw [hprops, hq]
      rcases reserved_cases hpriced hq with ⟨-, havailable, -⟩ | ⟨-, hsame⟩
      · exact absurd havailable hholds.ne_available
      · exact congrArg some hsame
  reserved i p' t h' hr := by
    rw [hprops] at h'
    obtain ⟨q, hq, rfl⟩ := Option.map_eq_some_iff.1 h'
    rcases reserved_cases hpriced hq with ⟨hlowered, -, hr'⟩ | ⟨-, hsame⟩
    · have ht := reservedFor_unique hr' hr
      subst ht
      refine ⟨o, by rw [horders, if_pos rfl], hlowered, ?_, .inl ?_⟩
      · simp [SubscriptionOrder.live, hpending]
      · simp [SubscriptionOrder.open, hpending]
    · rw [hsame] at hr
      obtain ⟨p, h, hrest⟩ := hc.reserved i q t hq hr
      have ht : t ≠ o.tradeNo := by
        rintro rfl
        rw [hnew] at h
        cases h
      exact ⟨p, by rw [horders, if_neg ht]; exact h, hrest⟩
  once t₁ t₂ p₁ p₂ i h₁ h₂ hl₁ hl₂ hlive₁ hlive₂ := by
    -- the prop of an order that is live is not available
    have hnone : ∀ t p, c.orders.get? t = some p → p.live = true → p.loweredBy = some i →
        o.loweredBy ≠ some i := by
      intro t p h hlive hlowered hnew
      obtain ⟨q, hq, hholds⟩ := hc.held t p i h hlive hlowered
      obtain ⟨q', hq', havailable⟩ := hpriced.prop i hnew
      rw [hq] at hq'
      cases hq'
      exact hholds.ne_available havailable
    rw [horders] at h₁ h₂
    split at h₁ <;> split at h₂
    case isTrue.isTrue ht₁ ht₂ => rw [ht₁, ht₂]
    case isTrue.isFalse =>
      cases h₁
      exact absurd hl₁ (hnone t₂ p₂ h₂ hlive₂ hl₂)
    case isFalse.isTrue =>
      cases h₂
      exact absurd hl₂ (hnone t₁ p₁ h₁ hlive₁ hl₁)
    case isFalse.isFalse => exact hc.once t₁ t₂ p₁ p₂ i h₁ h₂ hl₁ hl₂ hlive₁ hlive₂

theorem Lawful.step {c c' : Store} (hc : Lawful c) (h : OrderStep c c') : Lawful c' := by
  cases h with
  | same horders hprops hplans =>
    constructor
    · simpa only [horders, hplans] using hc.discounted
    · simpa only [horders] using hc.first
    · simpa only [horders, hprops] using hc.held
    · simpa only [horders, hprops] using hc.reserved
    · simpa only [horders] using hc.once
  | progress o o' status hget hp hf hkey horders hprops hplans =>
    exact hc.progress hget hp hf hkey horders hprops hplans
  | create o hnew hpending hpriced horders hprops hplans =>
    exact hc.create hnew hpending hpriced horders hprops hplans

end CodeGo.Commerce.Orders
