import CodeGo.Commerce.SubscriptionEffects
import Mathlib.Data.List.Dedup

/-!
# What a subscription is charged for a request

A request that is pre-consumed, extended by further amounts and settled. The ledger
opens one hold for each amount, under a key made of the request and the amount, while
the row counts every call.
-/

namespace CodeGo.Commerce.ExactCharge

open Lib Lib.Prog Lib.Trim Billing.Schema Billing.Invariant Billing.RequestTotals Schema
  SubscriptionRules SubscriptionFunding SubscriptionEffects

/-- Successful calls that reserve further amounts for a request, the latest first. -/
inductive Extras (requestID : String) (id : Int) : Store → List Int → Store → Prop
  | none (s : Store) : Extras requestID id s [] s
  | more {s s₁ s' : Store} {amounts : List Int} {u : Uuids} {now : Int} {modelName : String}
      {amount : Int} (h : Extras requestID id s amounts s₁)
      (hcall : (reserveAdditionalSubscriptionQuota u now requestID id modelName amount).commit s₁ =
        (.ok (), s')) : Extras requestID id s (amount :: amounts) s'

/-- The recorded usage of a subscription. -/
def amountUsed (s : Store) (id : Int) : Int :=
  ((s.subscriptions.get? id).map UserSubscription.amountUsed).getD 0

/-- No reservation carries the request, whatever space stands around it. -/
def UnknownTrimmed (requestID : String) (l : Ledger) : Prop :=
  ∀ r ∈ l.reservations, trimSpace r.requestID ≠ trimSpace requestID

def reserveKey (requestID : String) : String := "subscription:" ++ requestID ++ ":reserve"

def extraKey (requestID : String) (amount : Int) : String :=
  "subscription:" ++ requestID ++ ":reserve-extra:" ++ toString amount

section Keys

variable {requestID : String} {amount amount' : Int}

theorem extraKey_injective (h : extraKey requestID amount = extraKey requestID amount') :
    amount = amount' := by
  have hlist := congrArg String.toList h
  simp only [extraKey, String.toList_append, List.append_cancel_left_eq] at hlist
  exact Decimal.toString_injective (String.toList_injective hlist)

theorem extraKey_ne_reserveKey : extraKey requestID amount ≠ reserveKey requestID := by
  intro h
  have hlength := congrArg (fun key => key.toList.length) h
  simp only [extraKey, reserveKey, String.toList_append, List.length_append] at hlength
  have hextra : ":reserve-extra:".toList.length = 15 := by decide
  have hreserve : ":reserve".toList.length = 8 := by decide
  omega

end Keys

/-- The state of a request that holds `amount` and the further amounts: each different one is held
once, each is counted. -/
structure Charging (requestID : String) (id used amount : Int) (amounts : List Int) (s : Store) :
    Prop where
  sound : Sound s.ledger
  record : ∃ record, s.preConsumes.get? requestID = some record ∧ record.requestID = requestID ∧
    record.userSubscriptionID = id
  row : ∃ sub, s.subscriptions.get? id = some sub ∧ sub.amountUsed = used + amount + amounts.sum
  reserved : reservedFor s.ledger (trimSpace requestID) = amount + amounts.dedup.sum
  held : heldFor s.ledger (trimSpace requestID) = amount + amounts.dedup.sum
  actual : actualFor s.ledger (trimSpace requestID) = 0
  keys : ∀ r ∈ s.ledger.reservations, trimSpace r.requestID = trimSpace requestID →
    r.requestID = trimSpace requestID ∧ (r.idempotencyKey = reserveKey requestID ∨
      ∃ e ∈ amounts, r.idempotencyKey = extraKey requestID e)
  extras : ∀ e ∈ amounts, ∃ r ∈ s.ledger.reservations, r.idempotencyKey = extraKey requestID e
  positive : 0 < amount ∧ ∀ e ∈ amounts, 0 < e

section Runs

variable {requestID : String} {id used amount : Int} {amounts : List Int} {s s' : Store}
  {cal : Calendar} {u : Uuids} {now : Int}

/-- The request after its first hold. -/
theorem charging_of_preConsumed {userID : Int} {modelName : String} {c : UserSubscription}
    {plan : SubscriptionPlan} {res : SubscriptionPreConsumeResult} {holdID : String}
    (hsound : Sound s.ledger) (hunknown : UnknownTrimmed requestID s.ledger) (hpos : 0 < amount) (hlimited : 0 < c.amountTotal)
    (hdue : resetDue cal plan c now = false)
    (h : PreConsumed holdID cal now (newRecord requestID userID modelName amount) c plan s s' res) :
    Charging requestID c.id c.amountUsed amount [] s' := by
  have hunknown' : Unknown (trimSpace requestID) s.ledger := by
    intro r hr e
    apply hunknown r hr
    rw [e, trimSpace_trimSpace]
  obtain ⟨hreserved₀, hheld₀, hactual₀⟩ := hunknown'.totals
  have hopened : HoldOpened s.ledger s'.ledger (trimSpace requestID) (reserveKey requestID) amount := by
    rcases h.opened hsound hunknown' with ⟨hle, -⟩ | ⟨-, hopened⟩
    · omega
    · exact hopened
  constructor
  case sound => exact h.sound hsound
  case record =>
    have hrecord : ({ newRecord requestID userID modelName amount with
        userSubscriptionID := c.id } : SubscriptionPreConsumeRecord) ∈ s'.preConsumes :=
      (Table.mem_insert? h.recorded).2 (.inr rfl)
    exact ⟨_, Table.get?_of_mem hrecord, rfl, rfl⟩
  case row =>
    obtain ⟨s₁, s₂, sub, used, reset, happ, hrow⟩ := h.row
    refine ⟨used, hrow, ?_⟩
    have hused := (applySubscriptionUsageDelta_ok happ).1.amountUsed
    have hnonneg := c.amountUsed_nonneg
    have hsub : sub.amountUsed = c.amountUsed := by
      cases reset with
      | kept _ hsub _ =>
        obtain ⟨base, next, rfl⟩ := hsub
        rfl
      | reset hdue' => rw [hdue] at hdue'; cases hdue'
    rw [hused, hsub]
    simp only [newRecord, List.sum_nil, add_zero]
    omega
  case reserved =>
    rw [hopened.moved.reserved, hreserved₀, if_pos rfl]
    simp
  case held =>
    rw [hopened.moved.held, hheld₀, if_pos rfl]
    simp
  case actual =>
    rw [hopened.moved.actual, hactual₀, if_pos rfl]
    rfl
  case keys =>
    obtain ⟨r₀, hreq, hkey, hrows⟩ := hopened.rows
    intro r hr hq
    rcases (hrows r).1 hr with hr | rfl
    · exact absurd hq (hunknown r hr)
    · exact ⟨hreq, .inl hkey⟩
  case extras => exact fun e he => nomatch he
  case positive => exact ⟨hpos, fun e he => nomatch he⟩

/-- A further amount: a new one opens a hold, one that was reserved before is counted only. -/
theorem Charging.more {e : Int} {modelName : String}
    (h : Charging requestID id used amount amounts s) (hpos : 0 < e)
    (hcall : ExtraReserved s s' requestID id modelName e) :
    Charging requestID id used amount (e :: amounts) s' := by
  obtain ⟨sub, sub', _, _, _, _, l, r, _, saved, account, reserved, state⟩ := hcall
  have hs₁ := account.sound h.sound
  have hledger : s'.ledger = l := by
    rw [state]
    rfl
  have hrow : s'.subscriptions.get? id = some sub' := by
    rw [state, setLedger_subscriptions, saved.get?, if_pos rfl]
  have hrecords : s'.preConsumes = s.preConsumes := by
    rw [state, saved.state]
    rfl
  have hsum : sub'.amountUsed = used + amount + (e :: amounts).sum := by
    obtain ⟨row, hget, hamount⟩ := h.row
    have hsub : row = sub := Option.some.inj (hget.symm.trans saved.current)
    have hadded := saved.used.amountUsed
    have hnonneg := sub.amountUsed_nonneg
    rw [hadded, ← hsub, hamount, List.sum_cons]
    rw [← hsub, hamount] at hnonneg
    omega
  have hkeysolid := solid_reserveExtraKey requestID e
  have hpositive : ∀ x ∈ e :: amounts, 0 < x := List.forall_mem_cons.2 ⟨hpos, h.positive.2⟩
  rcases opened_of_recorded hs₁ hkeysolid reserved with ⟨⟨hmem, hkey⟩, hl⟩ | hopened
  · -- the key is in use: the amount was reserved before
    have hres : l.reservations = s.ledger.reservations := by
      rw [hl, account.ensured.reservations]
    have hset : l.settlements = s.ledger.settlements := by
      rw [hl, account.ensured.settlements]
    have hmoved := requestMoved_of_eq hres hset (trimSpace requestID)
    rw [account.ensured.reservations] at hmem
    have hreq : r.requestID = trimSpace requestID := reserved.request
    have hold : e ∈ amounts := by
      rcases (h.keys r hmem (by rw [hreq, trimSpace_trimSpace])).2 with hfirst | ⟨e', he', hextra⟩
      · exact absurd (hkey.symm.trans hfirst) extraKey_ne_reserveKey
      · rw [extraKey_injective (hkey.symm.trans hextra)]
        exact he'
    constructor
    case sound => rw [hledger]; exact reserved.sound hs₁
    case record => rw [hrecords]; exact h.record
    case row => exact ⟨sub', hrow, hsum⟩
    case reserved =>
      rw [hledger, hmoved.reserved, h.reserved, List.dedup_cons_of_mem hold]
      simp
    case held =>
      rw [hledger, hmoved.held, h.held, List.dedup_cons_of_mem hold]
      simp
    case actual =>
      rw [hledger, hmoved.actual, h.actual]
      simp
    case keys =>
      rw [hledger, hres]
      intro r' hr' hq
      obtain ⟨hreq', hkey'⟩ := h.keys r' hr' hq
      refine ⟨hreq', hkey'.imp_right ?_⟩
      rintro ⟨e', he', hextra⟩
      exact ⟨e', .tail _ he', hextra⟩
    case extras =>
      rw [hledger, hres]
      intro e' he'
      rcases List.mem_cons.1 he' with rfl | he'
      · exact ⟨r, hmem, hkey⟩
      · exact h.extras e' he'
    case positive => exact ⟨h.positive.1, hpositive⟩
  · have hopened : HoldOpened s.ledger l (trimSpace requestID) (extraKey requestID e) e :=
      hopened.of_eq account.ensured.reservations account.ensured.settlements
    have hnew : e ∉ amounts := by
      intro he
      obtain ⟨r', hr', hkey'⟩ := h.extras e he
      exact hopened.unused r' hr' hkey'
    obtain ⟨r₀, hreq, hkey, hrows⟩ := hopened.rows
    constructor
    case sound => rw [hledger]; exact reserved.sound hs₁
    case record => rw [hrecords]; exact h.record
    case row => exact ⟨sub', hrow, hsum⟩
    case reserved =>
      rw [hledger, hopened.moved.reserved, h.reserved, List.dedup_cons_of_notMem hnew, if_pos rfl,
        List.sum_cons]
      dsimp only
      omega
    case held =>
      rw [hledger, hopened.moved.held, h.held, List.dedup_cons_of_notMem hnew, if_pos rfl,
        List.sum_cons]
      dsimp only
      omega
    case actual =>
      rw [hledger, hopened.moved.actual, h.actual]
      simp
    case keys =>
      rw [hledger]
      intro r' hr' hq
      rcases (hrows r').1 hr' with hr' | rfl
      · obtain ⟨hreq', hkey'⟩ := h.keys r' hr' hq
        refine ⟨hreq', hkey'.imp_right ?_⟩
        rintro ⟨e', he', hextra⟩
        exact ⟨e', .tail _ he', hextra⟩
      · exact ⟨hreq, .inr ⟨e, .head _, hkey⟩⟩
    case extras =>
      rw [hledger]
      intro e' he'
      rcases List.mem_cons.1 he' with rfl | he'
      · exact ⟨r₀, (hrows r₀).2 (.inr rfl), hkey⟩
      · obtain ⟨r', hr', hkey'⟩ := h.extras e' he'
        exact ⟨r', (hrows r').2 (.inl hr'), hkey'⟩
    case positive => exact ⟨h.positive.1, hpositive⟩

theorem Charging.extras_run (h : Charging requestID id used amount [] s)
    (hrun : Extras requestID id s amounts s') : Charging requestID id used amount amounts s' := by
  induction hrun with
  | none => exact h
  | more hrun hcall ih =>
    obtain ⟨hpos, hcall⟩ := reserveAdditionalSubscriptionQuota_ok (commit_eq_ok.1 hcall)
    exact ih.more hpos hcall

/-- Repeated amounts are held once, so they are missing in the sum of the holds. -/
theorem dedup_sum {amounts : List Int} (hpos : ∀ e ∈ amounts, 0 < e) :
    0 ≤ amounts.dedup.sum ∧ amounts.dedup.sum ≤ amounts.sum ∧
      (amounts.dedup.sum = amounts.sum ↔ amounts.Nodup) := by
  induction amounts with
  | nil => simp
  | cons e rest ih =>
    obtain ⟨hnonneg, hle, hiff⟩ := ih fun x hx => hpos x (.tail _ hx)
    have he := hpos e (.head _)
    by_cases hmem : e ∈ rest
    · rw [List.dedup_cons_of_mem hmem, List.sum_cons]
      refine ⟨hnonneg, by omega, ?_⟩
      constructor
      · omega
      · exact fun h => absurd hmem (List.nodup_cons.1 h).1
    · rw [List.dedup_cons_of_notMem hmem, List.sum_cons, List.sum_cons, List.nodup_cons]
      refine ⟨by omega, by omega, ?_⟩
      rw [← hiff]
      constructor
      · exact fun h => ⟨hmem, by omega⟩
      · exact fun h => by rw [h.2]

/-- The settlement charges what is asked for, and takes the holds off the usage. -/
theorem Charging.settle {u : Uuids} {subscriptionID actual : Int}
    (h : Charging requestID id used amount amounts s) (hused : 0 ≤ used)
    (hcall : (settleSubscriptionReservation u requestID subscriptionID actual).run s =
      (.ok (), s')) :
    actualFor s'.ledger (trimSpace requestID) = actual ∧
      reservedFor s'.ledger (trimSpace requestID) = amount + amounts.dedup.sum ∧
      amountUsed s' id = used + actual + (amounts.sum - amounts.dedup.sum) := by
  obtain ⟨hact, record, hrecord, -, -, hcase⟩ := settleSubscriptionReservation_ok h.sound hcall
  obtain ⟨record', hrecord', hreq, hid⟩ := h.record
  obtain rfl : record' = record := Option.some.inj (hrecord'.symm.trans hrecord)
  obtain ⟨hnonneg, hle, -⟩ := dedup_sum h.positive.2
  have hpos := h.positive.1
  -- a reservation under the request as it was given shows that the request is trimmed
  have htrimmed : ∀ r ∈ s.ledger.reservations, r.requestID = record'.requestID →
      trimSpace requestID = record'.requestID := by
    intro r hr he
    rw [← he]
    refine (h.keys r hr ?_).1.symm
    rw [he, hreq]
  have hopen := reservedTotal_openReservations record'.requestID s.ledger
  cases hcase with
  | already hnone hsettled hs =>
    obtain ⟨r, hr, he, -⟩ := hsettled
    rw [hnone, ← htrimmed r hr he, h.held] at hopen
    simp only [reservedTotal, List.map_nil, List.sum_nil] at hopen
    omega
  | settled l left hsome hall hleft hs =>
    obtain ⟨r, hr⟩ := List.exists_mem_of_ne_nil _ hsome
    have hrow := Table.mem_of_get? ((allOpen_openReservations _ _).current r hr)
    have htrim := htrimmed r hrow (request_of_openReservations _ _ r hr)
    have hmoved := hall.requestMoved (request_of_openReservations _ _)
    rw [hall.left_eq hsome, ← htrim, sub_zero] at hmoved
    rw [← htrim, h.held] at hopen
    rw [← htrim, hopen] at hs
    obtain ⟨sub, hsub, hamount⟩ := h.row
    have hledger : s'.ledger = l := by
      rcases hs with ⟨-, rfl⟩ | ⟨sub, sub', plan, hsaved⟩
      · rfl
      · rw [hsaved.state]
        rfl
    rw [hledger, hmoved.actual, hmoved.reserved, h.actual, h.reserved]
    refine ⟨by simp, by simp, ?_⟩
    rcases hs with ⟨heq, rfl⟩ | ⟨old, sub', plan, hsaved⟩
    · rw [amountUsed, setLedger_subscriptions, hsub]
      simp only [Option.map_some, Option.getD_some]
      omega
    · rw [hid] at hsaved
      have hold : sub = old := Option.some.inj (hsub.symm.trans hsaved.current)
      have hdelta := hsaved.used.amountUsed
      rw [← hold, hamount] at hdelta
      rw [amountUsed, hsaved.get?, if_pos rfl]
      simp only [Option.map_some, Option.getD_some]
      omega

end Runs

def limitedStore : Store := sampleStore samplePlan (sampleSubscription 1000)

def preConsumeSample : Flow SubscriptionPreConsumeResult :=
  preConsumeUserSubscription sampleCalendar (sampleUuids "a") 10 "r" 7 "m" 10

def extraSample (base : String) (amount : Int) : Flow Unit :=
  reserveAdditionalSubscriptionQuota (sampleUuids base) 10 "r" 3 "m" amount

def settleSample : Flow Unit := settleSubscriptionReservation (sampleUuids "d") "r" 3 12

/-- After 10 were reserved at first, then 5 and another amount. -/
def extended (amount : Int) : Store :=
  ((extraSample "c" amount).commit
    ((extraSample "b" 5).commit (preConsumeSample.commit limitedStore).2).2).2

theorem extras_sample {amount : Int}
    (h : ((extraSample "c" amount).commit
      ((extraSample "b" 5).commit (preConsumeSample.commit limitedStore).2).2).1 = .ok ()) :
    Extras "r" 3 (preConsumeSample.commit limitedStore).2 [amount, 5] (extended amount) := by
  have hfirst : ((extraSample "b" 5).commit (preConsumeSample.commit limitedStore).2).1 =
      .ok () := by decide +kernel
  exact .more (.more (.none _) (commit_of_eq hfirst)) (commit_of_eq h)

theorem preConsume_sample : preConsumeSample.commit limitedStore =
    (.ok ⟨3, 10, 1000, 0, 10⟩, (preConsumeSample.commit limitedStore).2) :=
  commit_of_eq (by decide +kernel)

end CodeGo.Commerce.ExactCharge
