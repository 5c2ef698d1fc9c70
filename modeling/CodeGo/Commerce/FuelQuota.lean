import CodeGo.Commerce.SubscriptionCapacity

/-!
# Fuel

`fulfillSubscriptionFuelTx` of `internal/commerce/app/subscription_fuel.go`: a paid order
that adds quota to a subscription.
-/

namespace CodeGo.Commerce.SubscriptionFuel

open Lib Lib.Prog Lib.Trim Billing.Schema Billing.Statements Billing.LedgerRuntime
  Billing.Aggregation Billing.Recorded Schema SubscriptionRules SubscriptionFunding
  SubscriptionEffects

def fuelUnavailable : Err := .message "subscription fuel is unavailable"

def addAmountTotal (quota : Int) (sub : UserSubscription) : UserSubscription :=
  { sub with amountTotal := sub.amountTotal + quota }

theorem keepsIndexes_addAmountTotal (quota : Int) : Table.KeepsIndexes (addAmountTotal quota) :=
  fun _ => ⟨rfl, fun _ => rfl⟩

/-- `UPDATE user_subscriptions SET amount_total = amount_total + ?`. -/
def Store.addAmountTotal (id quota : Int) (s : Store) : Store :=
  { s with subscriptions := s.subscriptions.update id _ (keepsIndexes_addAmountTotal quota) }

def fuelCredit (order : SubscriptionOrder) (accountID : String) : CreditAccountParams where
  accountID := accountID
  amount := order.fuelQuota
  idempotencyKey := "subscription-fuel:" ++ order.tradeNo
  reasonCode := "subscription_fuel"
  referenceType := "subscription_fuel_order"
  referenceID := order.tradeNo
  operatorType := "commerce"
  operatorID := toString order.id

def fulfillSubscriptionFuelTx (u : Uuids) (now : Int) (order : SubscriptionOrder) : Flow Unit :=
  if order.purchaseType ≠ .fuel ∨ order.targetSubscriptionID ≤ 0 ∨ order.fuelQuota ≤ 0 then
    .fail fuelUnavailable
  else do
    let subscription ← readOrFail fuelUnavailable fun s =>
      (s.subscriptions.get? order.targetSubscriptionID).filter (·.userID = order.userID)
    if subscription.status ≠ .active ∨ subscription.endTime ≤ now ∨
        subscription.endTime ≠ order.fuelExpiresAt then
      .fail fuelUnavailable
    else do
      let account ← ledgerTx (ensureBillingAccount u (subscriptionAccount subscription.id))
      let _ ← ledgerTx (creditAccount (u.drop 1) (fuelCredit order account.accountID))
      modify (Store.addAmountTotal subscription.id order.fuelQuota)

/-- The fuel of an order was credited to the account of the subscription and added to its row. -/
inductive Fueled (s s' : Store) (order : SubscriptionOrder) (sub : UserSubscription) : Prop
  | mk (a : BillingAccount) (l l' : Ledger) (e : BillingLedgerEntry)
      (current : s.subscriptions.get? order.targetSubscriptionID = some sub)
      (positive : 0 < order.fuelQuota) (status : sub.status = .active)
      (account : AccountRecorded s.ledger l (subscriptionAccount sub.id) a)
      (credited : CreditRecorded l l' (fuelCredit order a.accountID) e)
      (state : s' = Store.addAmountTotal sub.id order.fuelQuota (s.setLedger l'))

theorem fulfillSubscriptionFuelTx_ok {u : Uuids} {now : Int} {order : SubscriptionOrder}
    {s s' : Store} (h : (fulfillSubscriptionFuelTx u now order).run s = (.ok (), s')) :
    ∃ sub, Fueled s s' order sub := by
  obtain ⟨hargs, h⟩ := checked h
  obtain ⟨sub, s₁, ⟨hsub, rfl⟩, h⟩ := run_bind_of_ok h readOrFail_ok
  obtain ⟨hactive, h⟩ := checked h
  obtain ⟨a, s₂, ⟨l, ha, rfl⟩, h⟩ := run_bind_of_ok h ledgerTx_ok
  obtain ⟨e, s₃, ⟨l', he, rfl⟩, h⟩ := run_bind_of_ok h ledgerTx_ok
  cases h
  obtain ⟨hsub, -⟩ := Option.filter_eq_some_iff.1 hsub
  simp only [not_or, not_not, not_le] at hargs hactive
  exact ⟨sub, .mk a l l' e hsub hargs.2.2 hactive.1 (ensureBillingAccount_ok ha) (creditAccount_ok he)
    rfl⟩

theorem Fueled.sound {order : SubscriptionOrder} {s s' : Store} {sub : UserSubscription}
    (h : Fueled s s' order sub) (hs : Billing.Invariant.Sound s.ledger) :
    Billing.Invariant.Sound s'.ledger := by
  obtain ⟨_, _, _, _, -, -, -, account, credited, state⟩ := h
  rw [state]
  exact credited.sound (account.sound hs)

end CodeGo.Commerce.SubscriptionFuel

/-!
# What fuel adds

The amounts that a subscription accepts before and after a fuel order. The credit of the
fuel is an entry of the ledger account, so after it the account is no longer granted what
the row has left.
-/

namespace CodeGo.Commerce.FuelQuota

open Lib Lib.Prog Lib.Trim Billing.Schema Billing.Statements Billing.LedgerRuntime
  Billing.Aggregation Billing.Invariant Billing.Preservation Billing.Recorded Billing.Names Schema
  SubscriptionRules SubscriptionFunding SubscriptionEffects SubscriptionLedger SubscriptionCapacity
  SubscriptionFuel

variable {s s' : Store} {u u' v : Uuids} {cal : Calendar} {plan : SubscriptionPlan}
  {sub : UserSubscription} {order : SubscriptionOrder} {now paid userID : Int}
  {requestID modelName : String}

/-- The key of the fuel of an order is new to the ledger. -/
def FuelNew (order : SubscriptionOrder) (l : Ledger) : Prop :=
  ∀ e ∈ l.entries, e.idempotencyKey ≠ "subscription-fuel:" ++ order.tradeNo

/-- What the fuel of an order leaves on the account of the subscription. -/
structure FuelSums (id fuel : Int) (l l' : Ledger) : Prop where
  positive : 0 < fuel
  entered : Entered id l'
  available : availableOf id l' = availableOf id l + fuel
  reserved : reservedOf id l' = reservedOf id l

theorem fuel_sums (hrow : s.subscriptions.get? order.targetSubscriptionID = some sub)
    (hfuel : (fulfillSubscriptionFuelTx v paid order).commit s = (.ok (), s'))
    (hnew : FuelNew order s.ledger) (hv : Drawable s.ledger v 1 sub.id 0) :
    FuelSums sub.id order.fuelQuota s.ledger s'.ledger := by
  have hid : sub.id = order.targetSubscriptionID := Table.pk_of_get? hrow
  rw [commit_eq_ok] at hfuel
  obtain ⟨hargs, h⟩ := checked hfuel
  simp only [not_or, not_not, not_le] at hargs
  obtain ⟨-, htarget, hpos⟩ := hargs
  obtain ⟨found, s₁, ⟨hsub, rfl⟩, h⟩ := run_bind_of_ok h readOrFail_ok
  rw [hrow, Option.filter_eq_some_iff] at hsub
  obtain ⟨hsub, -⟩ := hsub
  cases hsub
  obtain ⟨-, h⟩ := checked h
  obtain ⟨a, l, hensure, ho⟩ := hv.opened s (by omega) (by omega)
  rw [run_bind_ok hensure] at h
  obtain ⟨e, s₃, ⟨l', he, rfl⟩, h⟩ := run_bind_of_ok h ledgerTx_ok
  cases h
  have hrec : CreditRecorded l l' (fuelCredit order a.accountID) e := creditAccount_ok he
  have howner : AccountOf sub.id a := ho.recorded.owner
  have hsame := same_of_accountEnsured ho.recorded.ensured a.accountID
  rcases hrec.outcome with ⟨⟨hmem, hk⟩, -⟩ | ⟨hc, -⟩
  · rw [ho.recorded.ensured.entries] at hmem
    exact absurd hk (hnew e hmem)
  · have hm := moved_of_credited hc
    have hacc : e.accountID = a.accountID := hrec.account
    have hamount : e.amount = order.fuelQuota := hrec.amount
    have hmem : a ∈ l'.accounts := by
      rw [hc.accounts]
      exact ho.recorded.mem
    show FuelSums sub.id order.fuelQuota s.ledger l'
    constructor
    case positive => exact hpos
    case entered =>
      rw [entered_iff hmem howner]
      exact (hasEntry_insert hc.entries rfl).2 (.inr hacc)
    case available =>
      rw [availableOf_eq hmem howner, hm.available, if_pos hacc, hsame.available, ho.available, hamount]
    case reserved =>
      rw [reservedOf_eq hmem howner, hm.reserved, if_pos hacc, hsame.reserved, ho.reserved]
      exact add_zero _

/-- What the fuel adds to the capacity of a limited subscription. -/
theorem capacity_of_fuel (h : FuelSums sub.id order.fuelQuota s.ledger s'.ledger)
    (hlimited : 0 < sub.amountTotal) (hused : sub.amountUsed ≤ sub.amountTotal) :
    capacity cal plan sub now s.ledger + order.fuelQuota ≤
        capacity cal plan (addAmountTotal order.fuelQuota sub) now s'.ledger ↔
      Entered sub.id s.ledger ∨ sub.amountUsed = sub.amountTotal ∨
        refillDue cal plan sub now = true := by
  have hpos := h.positive
  have hid : (addAmountTotal order.fuelQuota sub).id = sub.id := rfl
  have htotal : (addAmountTotal order.fuelQuota sub).amountTotal =
      sub.amountTotal + order.fuelQuota := rfl
  have hamount : (addAmountTotal order.fuelQuota sub).amountUsed = sub.amountUsed := rfl
  have hdue : refillDue cal plan (addAmountTotal order.fuelQuota sub) now =
      refillDue cal plan sub now := by
    have hreset : resetDue cal plan (addAmountTotal order.fuelQuota sub) now =
        resetDue cal plan sub now := rfl
    have hfuelled : 0 < sub.amountTotal + order.fuelQuota := by omega
    unfold refillDue usesLegacySubscriptionPeriodicQuota
    rw [hreset, htotal, decide_eq_true hlimited, decide_eq_true hfuelled]
    rfl
  unfold capacity rowCapacity
  rw [hdue, hid, htotal, hamount, h.available, h.reserved, if_pos h.entered]
  cases refillDue cal plan sub now with
  | true =>
    rw [if_pos rfl, if_pos rfl]
    exact iff_of_true (by omega) (.inr (.inr rfl))
  | false =>
    rw [if_neg Bool.false_ne_true, if_neg Bool.false_ne_true]
    by_cases hentered : Entered sub.id s.ledger
    · rw [if_pos hentered]
      exact iff_of_true (by omega) (.inl hentered)
    · -- only the fuel is on the account
      rw [if_neg hentered, availableOf_of_not_entered hentered]
      constructor
      · intro hle
        exact .inr (.inl (by omega))
      · rintro (hentered' | hnone | hfalse)
        · exact absurd hentered' hentered
        · omega
        · cases hfalse

/-- Fuel brings no limit of the period. -/
theorem countsPeriod_of_fuel {fuel : Int} (hpos : 0 < fuel) (htotal : 0 ≤ sub.amountTotal)
    (hperiod : countsPeriod plan sub = false) : countsPeriod plan (addAmountTotal fuel sub) = false := by
  have hamount : (addAmountTotal fuel sub).amountTotal = sub.amountTotal + fuel := rfl
  have hsame : (addAmountTotal fuel sub).periodAmount = sub.periodAmount := rfl
  cases hnever : decide (normalizeResetPeriod plan.quotaResetPeriod ≠ .never) <;>
    simp only [countsPeriod, usesLegacySubscriptionPeriodicQuota, getSubscriptionPeriodAmount, hnever,
      hamount, hsame, Bool.true_and, Bool.false_and, Bool.and_eq_false_iff, Bool.not_eq_false',
      Bool.and_eq_true, decide_eq_true_eq, decide_eq_false_iff_not] at hperiod ⊢
  · split at hperiod <;> split <;> grind
  · split at hperiod <;> split <;> grind

theorem capacity_le (hused : 0 ≤ sub.amountUsed) (l : Ledger) :
    capacity cal plan sub now l ≤ sub.amountTotal := by
  unfold capacity rowCapacity
  split
  · exact min_le_left _ _
  · split <;> omega

theorem capacity_nonneg {l : Ledger} {n : Nat} {room : Int} (h : Drawable l u n sub.id room)
    (htotal : 0 ≤ sub.amountTotal) (hused : sub.amountUsed ≤ sub.amountTotal) :
    0 ≤ capacity cal plan sub now l := by
  have havailable : 0 ≤ availableOf sub.id l := by
    cases ha : accountOf sub.id l with
    | none => rw [(accountOf_eq_none ha).2.1]
    | some a =>
      obtain ⟨hmem, howner⟩ := of_accountOf ha
      have hgranted := h.granted a hmem howner
      have hroom := h.room_nonneg
      rw [availableOf_eq hmem howner]
      exact h.sound.solvent a.accountID (by omega)
  unfold capacity rowCapacity
  split
  · omega
  · split <;> omega

/-- An order of 10 for the subscription of user 7. -/
def fuelSample : SubscriptionOrder where
  id := 5
  userID := 7
  planID := 1
  tradeNo := "t"
  purchaseType := .fuel
  targetSubscriptionID := 3
  fuelQuota := 10
  fuelExpiresAt := 1000000

/-- A subscription of 1000 that was never used. -/
def unused : Store := sampleStore samplePlan (sampleSubscription 1000)

def fueled : Store := ((fulfillSubscriptionFuelTx (hexUuids 'c') 10 fuelSample).commit unused).2

theorem fueled_commit :
    (fulfillSubscriptionFuelTx (hexUuids 'c') 10 fuelSample).commit unused = (.ok (), fueled) :=
  commit_of_eq (by decide +kernel)

theorem drawable_unused : Drawable unused.ledger (hexUuids 'c') 1 3 0 where
  sound := Sound.empty
  drawn := fresh_hexUuids (by decide) (by decide) (by decide)
  owners _ he := nomatch he
  named _ ha := nomatch ha
  granted _ ha := nomatch ha
  room_nonneg := by decide
  room_lt := by decide

theorem prepared_unused : Prepared sampleCalendar samplePlan 10 (sampleSubscription 1000)
    (hexUuids 'a') "r" unused where
  found := ⟨by decide, rfl⟩
  request := rfl
  ledger := {
    sound := Sound.empty
    drawn := fresh_hexUuids (by decide) (by decide) (by decide)
    owners := fun _ he => nomatch he
    named := fun _ ha => nomatch ha
    granted := fun _ ha => nomatch ha
    room_nonneg := by decide
    room_lt := by decide }
  bootstrap := ⟨by decide +kernel, by decide +kernel, by decide +kernel⟩
  due := ⟨by decide +kernel, by decide +kernel, by decide +kernel⟩
  reserve := by decide
  grantNew _ := by decide
  dueNew _ := by decide

theorem prepared_fueled : Prepared sampleCalendar samplePlan 10
    (addAmountTotal 10 (sampleSubscription 1000)) (hexUuids 'b') "r" fueled where
  found := ⟨by decide, by decide +kernel⟩
  request := by decide +kernel
  ledger := by
    have howners : ∀ e ∈ fueled.ledger.entries.rows, ∀ i < 9, e.accountID ≠ hexUuids 'b' i := by
      decide +kernel
    have hnamed : ∀ a ∈ fueled.ledger.accounts.rows, blank a.accountID = false ∧
        grantedSum fueled.ledger a.accountID + 1010 < 2 ^ 63 := by decide +kernel
    constructor
    case sound =>
      obtain ⟨sub, hfueled⟩ := fulfillSubscriptionFuelTx_ok (commit_eq_ok.1 fueled_commit)
      exact hfueled.sound Sound.empty
    case drawn => exact fresh_hexUuids (by decide) (by decide) (by decide +kernel)
    case owners => exact howners
    case named => exact fun a ha _ => (hnamed a ha).1
    case granted => exact fun a ha _ => (hnamed a ha).2
    case room_nonneg => decide
    case room_lt => decide
  bootstrap := ⟨by decide +kernel, by decide +kernel, by decide +kernel⟩
  due := ⟨by decide +kernel, by decide +kernel, by decide +kernel⟩
  reserve := by decide +kernel
  grantNew hno := absurd (by decide +kernel) hno
  dueNew _ := by decide +kernel

end CodeGo.Commerce.FuelQuota
