import CodeGo.Commerce.SubscriptionLedger
import CodeGo.Commerce.SubscriptionNames

/-!
# Refunds of subscription requests

When a refund takes back all that `PreConsumeUserSubscription` did. The refund looks
for the hold in the ledger by the request as it was given; the hold is recorded for
limited subscriptions only, and under the request without the space around it.
-/

namespace CodeGo.Commerce.RefundUndo

open Lib Lib.Prog Lib.Trim Billing.Schema Billing.Aggregation Billing.Effects Billing.Invariant
  Billing.Preservation Billing.RequestTotals Billing.Names Billing.Success Schema SubscriptionRules
  SubscriptionFunding SubscriptionEffects SubscriptionNames SubscriptionLedger

section Keys

def releaseKey (requestID reservationID : String) : String :=
  "subscription:" ++ requestID ++ ":release:" ++ reservationID

/-- Neither the key nor the one of its event. -/
def Other (key name : String) : Prop := name ≠ key ∧ name ≠ "outbox:" ++ key

variable {requestID reservationID key t : String}

theorem head_releaseKey : (releaseKey requestID reservationID).toList.head? = some 's' := by
  unfold releaseKey
  exact head_append (head_append (head_append (by decide) _) _) _

/-- Another key of a subscription does not collide with the release of a hold. -/
theorem keyNames_of_ne (hhead : key.toList.head? = some 's') (hsolid : Solid key)
    (hne : key ≠ releaseKey requestID reservationID) :
    KeyNames (Other (releaseKey requestID reservationID)) key := by
  have hrelease := @head_releaseKey requestID reservationID
  have houtbox : ∀ k : String, ("outbox:" ++ k).toList.head? = some 'o' :=
    fun k => head_append (by decide) k
  have hentry : ("entry:" ++ key).toList.head? = some 'e' := head_append (by decide) key
  have hsolid' : Solid ("outbox:" ++ key) := hsolid.append_left (by decide)
  constructor
  · rw [hsolid.trimSpace_eq]
    exact ⟨hne, ne_of_head (by rw [hhead, houtbox]; decide)⟩
  · rw [hsolid.trimSpace_eq]
    exact ⟨ne_of_head (by rw [hentry, hrelease]; decide),
      ne_of_head (by rw [hentry, houtbox]; decide)⟩
  · rw [hsolid.trimSpace_eq, hsolid'.trimSpace_eq]
    refine ⟨ne_of_head (by rw [houtbox, hrelease]; decide), fun e => hne ?_⟩
    have hlist := congrArg String.toList e
    rw [String.toList_append, String.toList_append] at hlist
    exact String.toList_injective (List.append_cancel_left hlist)

/-- A key that differs in the character after `subscription`. -/
theorem keyNames_of_dash (hkey : key = "subscription-" ++ t) (hsolid : Solid key) :
    KeyNames (Other (releaseKey requestID reservationID)) key := by
  apply keyNames_of_ne
  · rw [hkey]
    exact head_append (by decide) t
  · exact hsolid
  · intro e
    rw [hkey] at e
    have hchar := congrArg (fun k : String => k.toList[12]?) e
    simp [releaseKey, String.toList_append] at hchar

theorem keyNames_resetKey (sub : UserSubscription) (base : Int) :
    KeyNames (Other (releaseKey requestID reservationID))
      (resetKey sub ("periodic:" ++ toString sub.id ++ ":" ++ toString base)) := by
  unfold resetKey
  apply keyNames_of_dash (t := "reset-balance:" ++ toString sub.id ++ ":" ++
    ("periodic:" ++ toString sub.id ++ ":" ++ toString base))
  · apply String.toList_injective
    simp [String.toList_append]
  · have hbase : Solid ("periodic:" ++ toString sub.id ++ ":" ++ toString base) :=
      (Decimal.solid_toString base).append_left (solidHead_append (solidHead_append (by decide)))
    exact hbase.append_left (solidHead_append (solidHead_append (by decide)))

theorem keyNames_bootstrapKey (id : Int) :
    KeyNames (Other (releaseKey requestID reservationID)) (bootstrapKey id) := by
  unfold bootstrapKey
  apply keyNames_of_dash (t := "bootstrap:" ++ toString id)
  · apply String.toList_injective
    simp [String.toList_append]
  · exact (Decimal.solid_toString id).append_left (by decide)

theorem keyNames_reserveKey :
    KeyNames (Other (releaseKey requestID reservationID))
      ("subscription:" ++ requestID ++ ":reserve") := by
  apply keyNames_of_ne
  · exact head_append (head_append (by decide) _) _
  · exact solid_reserveKey requestID
  · intro e
    have hlist := congrArg String.toList e
    simp only [releaseKey, String.toList_append, List.append_assoc,
      List.append_cancel_left_eq] at hlist
    have hchar := congrArg (fun l : List Char => l[3]?) hlist
    simp at hchar

/-- An identifier that `GetUUID` draws is no such key. -/
theorem other_of_isUuid {x : String} (h : IsUuid x) : Other (releaseKey requestID reservationID) x := by
  constructor
  · apply ne_of_isUuid h
    simp [releaseKey, String.toList_append]
  · apply ne_of_isUuid h
    simp [releaseKey, String.toList_append]

/-- Names recorded before the identifier of the hold was drawn. -/
theorem other_of_apart {u : Uuids} {n i : Nat} {name : String} (h : Apart u n name) (hi : i < n) :
    Other (releaseKey requestID (u i)) name := by
  constructor
  · rintro rfl
    apply h i hi
    rw [releaseKey, String.toList_append]
    exact List.suffix_append _ _
  · rintro rfl
    apply h i hi
    rw [releaseKey, String.toList_append, String.toList_append]
    exact (List.suffix_append _ _).trans (List.suffix_append _ _)

end Keys

section Hold

variable {s s' : Store} {cal : Calendar} {now : Int} {record : SubscriptionPreConsumeRecord}
  {c : UserSubscription} {plan : SubscriptionPlan} {res : SubscriptionPreConsumeResult}
  {holdID : String}

/-- The hold `r` of a request on the account `a`, in the ledger after the pre-consume. -/
structure HoldOn (l l' : Ledger) (c : UserSubscription) (record : SubscriptionPreConsumeRecord)
    (holdID : String) (a : BillingAccount) (r : BillingReservation) : Prop where
  account : a ∈ l'.accounts
  owner : AccountOf c.id a
  named : blank a.accountID = false
  accountID : r.accountID = a.accountID
  reservationID : r.reservationID = holdID
  amount : r.reservedAmount = record.preConsumed
  alone : openReservations (trimSpace record.requestID) l' = [r]
  reserved : reservedSum l' a.accountID = reservedSum l a.accountID + record.preConsumed
  granted : grantedSum l a.accountID ≤ grantedSum l' a.accountID
  available : HasEntry l a.accountID →
    availableSum l' a.accountID = availableSum l a.accountID - record.preConsumed
  bootstrapped : ¬ HasEntry l a.accountID →
    availableSum l' a.accountID = c.amountTotal - c.amountUsed - record.preConsumed

theorem left_of_admits {model : String} {amount : Int} (h : admits plan c model amount = true)
    (hlimited : 0 < c.amountTotal) (hpos : 0 < amount) : c.amountUsed < c.amountTotal := by
  simp only [admits, Bool.and_eq_true, Bool.not_eq_true', Bool.and_eq_false_iff,
    decide_eq_false_iff_not] at h
  omega

theorem hold_of_preConsumed (h : PreConsumed holdID cal now record c plan s s' res)
    (hs : Sound s.ledger) (hunknown : Unknown (trimSpace record.requestID) s.ledger)
    (hlimited : 0 < c.amountTotal) (hpos : 0 < record.preConsumed)
    (hdue : resetDue cal plan c now = false) :
    ∃ a r, HoldOn s.ledger s'.ledger c record holdID a r := by
  obtain ⟨s₁, s₂, sub, skipped, -, -, -, reset, admitted, consumed⟩ := h
  -- no reset was due, so the ledger is as the other candidates left it
  have helse := elsewhere_of_skipped skipped
  have hs₁ := skipped.sound hs
  have hkept : s₂.ledger = s₁.ledger ∧ sub.amountTotal = c.amountTotal ∧
      sub.amountUsed = c.amountUsed ∧ sub.id = c.id := by
    cases reset with
    | kept hdue hsub hs =>
      obtain ⟨base, next, hsub⟩ := hsub
      have hledger : s₂.ledger = s₁.ledger := by
        rcases hs with ⟨rfl, -⟩ | rfl <;> rfl
      rw [hsub]
      exact ⟨hledger, rfl, rfl, rfl⟩
    | reset hdue' => rw [hdue] at hdue'; cases hdue'
  obtain ⟨hledger, htotal, hused, hid⟩ := hkept
  have hleft := left_of_admits admitted (by rw [htotal]; exact hlimited) hpos
  obtain ⟨_, l, _, -, reserved, -, state, -⟩ := consumed
  have hl : s'.ledger = l := by
    rw [state]
    rfl
  rcases reserved with ⟨hle, -⟩ | ⟨-, hreserved⟩
  · omega
  obtain ⟨a, l₂, l₃, r, account, bootstrapped, reserved⟩ := hreserved
  rw [hledger] at account
  have hsame := same_of_accountEnsured account.ensured a.accountID
  obtain ⟨hboot, hgrant, haccounts, hentry, hnone⟩ := bootstrapped_sums bootstrapped hleft
  have hs₃ := bootstrapped.sound (account.sound hs₁)
  have hrows : l₃.reservations = s.ledger.reservations := by
    rw [bootstrapped.records_eq.1, account.ensured.reservations, skipped.records_eq.1]
  rcases reserved.outcome with ⟨⟨hmem, -⟩, -⟩ | ⟨e, hheld, hholdID, -⟩
  · rw [hrows] at hmem
    exact absurd reserved.request (hunknown r hmem)
  have hm := moved_of_held hs₃.records hheld
  have hacc : r.accountID = a.accountID := reserved.account
  have hamount : r.reservedAmount = record.preConsumed := reserved.amount
  have howner : AccountOf c.id a := by
    rw [← hid]
    exact account.owner
  have hmem : a ∈ l.accounts := by
    rw [hheld.accounts, haccounts]
    exact account.mem
  -- the account is the only one of its number, so no other candidate moved it
  have hstart : SameAccount s.ledger s₁.ledger a.accountID := by
    apply helse.same
    intro b hb hx
    rw [account_eq (account.keeps hb) account.mem hx]
    exact howner
  have hentries : HasEntry l₂ a.accountID ↔ HasEntry s.ledger a.accountID :=
    hsame.entries.trans hstart.entries
  refine ⟨a, r, ?_⟩
  rw [hl]
  constructor
  case account => exact hmem
  case owner => exact howner
  case named => exact reserved.named
  case accountID => exact hacc
  case reservationID => exact hholdID
  case amount => exact hamount
  case alone =>
    have hreq : r.requestID = trimSpace record.requestID := reserved.request
    have hold : (s.ledger.reservations.rows.filter fun r =>
        r.requestID = trimSpace record.requestID && r.status = .open) = [] := by
      rw [List.filter_eq_nil_iff]
      intro r' hr'
      simp [hunknown r' hr']
    rw [openReservations, (Table.insert?_eq_some hheld.reservations).1, hrows, List.filter_append,
      hold]
    simp [hreq, hheld.status]
  case reserved =>
    rw [hm.reserved, if_pos hacc, hboot, hsame.reserved, hstart.reserved]
    exact congrArg _ hamount
  case granted =>
    rw [hm.granted, if_pos hacc]
    have := hsame.granted
    have := hstart.granted
    dsimp only
    omega
  case available =>
    intro he
    rw [hm.available, if_pos hacc, hentry (hentries.2 he), hsame.available, hstart.available, hamount]
    dsimp only
    omega
  case bootstrapped =>
    intro hn
    rw [hm.available, if_pos hacc, hnone fun he => hn (hentries.1 he), htotal, hused, hamount]
    dsimp only
    omega

end Hold

section Refund

variable {s s' : Store} {u : Uuids} {record : SubscriptionPreConsumeRecord}
  {r : BillingReservation}

theorem succeeds_postConsume {id delta : Int} {model : String} {sub sub' : UserSubscription}
    {plan : SubscriptionPlan} (hsub : s.subscriptions.get? id = some sub)
    (hplan : PlanFound s sub.planID plan)
    (happly : applySubscriptionUsageDelta plan sub model delta = .ok sub') :
    Succeeds (postConsumeUserSubscriptionUsageDeltaTx id model delta) s fun _ _ => True := by
  obtain ⟨hpos, hfound⟩ := hplan
  unfold postConsumeUserSubscriptionUsageDeltaTx
  apply succeeds_bind
  apply succeeds_readOrFail hsub
  apply succeeds_bind
  unfold getSubscriptionPlanRecordTx
  rw [if_neg (by omega)]
  apply succeeds_readOrFail hfound
  apply succeeds_bind
  rw [happly]
  apply succeeds_ret
  apply succeeds_step
  trivial

/-- A request with one hold is refunded when its key and the usage allow it. -/
theorem refund_succeeds {sub sub' : UserSubscription} {plan : SubscriptionPlan}
    {requestID : String} (hs : Sound s.ledger) (hfresh : Fresh u 2 s.ledger)
    (hrequest : blank requestID = false) (hrecord : s.preConsumes.get? requestID = some record)
    (hst : record.status = .consumed) (hpos : 0 < record.preConsumed)
    (halone : openReservations record.requestID s.ledger = [r])
    (hsub : s.subscriptions.get? record.userSubscriptionID = some sub)
    (hplan : PlanFound s sub.planID plan)
    (happly : applySubscriptionUsageDelta plan sub record.modelName (-r.reservedAmount) = .ok sub')
    (hfit : grantedSum s.ledger r.accountID < 2 ^ 63) (hid : Solid r.reservationID)
    (hacc : blank r.accountID = false)
    (hnew : NamesAll (Other (releaseKey record.requestID r.reservationID)) s.ledger) :
    Succeeds (refundSubscriptionPreConsume u requestID) s fun _ _ => True := by
  have hopen := allOpen_openReservations record.requestID s.ledger
  rw [halone] at hopen
  have hkey : Solid (releaseKey record.requestID r.reservationID) :=
    hid.append_left (solidHead_append (solidHead_append (by decide)))
  unfold refundSubscriptionPreConsume
  rw [if_neg (by simp [hrequest])]
  apply succeeds_bind
  apply succeeds_readOrFail hrecord
  rw [if_neg (by simp [hst]), if_neg (by omega)]
  apply succeeds_bind
  apply succeeds_bind
  apply succeeds_ledgerTx
  apply succeeds_select
  rw [halone]
  apply succeeds_bind
  apply succeeds_ledgerTx
  apply (releaseReservation_succeeds hs hfresh (hopen.current r (.head _))
    (hopen.status r (.head _)) hfit hid hacc hkey (hnew.mono fun _ h => h.1)
    (hnew.mono fun _ h => h.2)).mono
  intro _ l _
  apply succeeds_bind
  apply succeeds_ret
  apply succeeds_ret
  apply succeeds_bind
  rw [add_zero]
  apply (succeeds_postConsume (s := s.setLedger l) hsub hplan happly).mono
  intro _ s' _
  apply succeeds_step
  trivial

end Refund

section Undo

variable {s s₁ s₂ : Store} {cal : Calendar} {u : Uuids} {now : Int} {requestID holdID : String}
  {record : SubscriptionPreConsumeRecord} {sub : UserSubscription} {plan : SubscriptionPlan}
  {a : BillingAccount} {r : BillingReservation}

/-- The usage that two rows record is the same. -/
structure SameUsage (sub sub' : UserSubscription) : Prop where
  id : sub'.id = sub.id
  amountUsed : sub'.amountUsed = sub.amountUsed
  periodUsed : sub'.periodUsed = sub.periodUsed
  models : ∀ model, modelUsage sub' model = modelUsage sub model

/-- The subscription `sub` and its ledger account are as they were in `s`. An account without
entries stands for the quota that the row has left, which its first use grants. -/
structure Undone (s s' : Store) (sub : UserSubscription) : Prop where
  row : ∃ sub', s'.subscriptions.get? sub.id = some sub' ∧ SameUsage sub sub'
  reserved : ∀ a ∈ s'.ledger.accounts, AccountOf sub.id a →
    (s'.ledger.stored a.accountID).reservedBalance = (s.ledger.stored a.accountID).reservedBalance
  available : ∀ a ∈ s'.ledger.accounts, AccountOf sub.id a → HasEntry s.ledger a.accountID →
    (s'.ledger.stored a.accountID).availableBalance = (s.ledger.stored a.accountID).availableBalance
  bootstrapped : ∀ a ∈ s'.ledger.accounts, AccountOf sub.id a → ¬ HasEntry s.ledger a.accountID →
    (s'.ledger.stored a.accountID).availableBalance = sub.amountTotal - sub.amountUsed

/-- The release of its hold brings the account back. -/
theorem undone_of_released {l l₁ l₂ : Ledger} {e : BillingLedgerEntry}
    (h : HoldOn l l₁ sub record holdID a r) (hs : Sound l) (hs₁ : Sound l₁)
    (hfit : grantedSum l₁ a.accountID < 2 ^ 63) (hc : Released l₁ l₂ r e) :
    (l₂.stored a.accountID).reservedBalance = (l.stored a.accountID).reservedBalance ∧
      (HasEntry l a.accountID →
        (l₂.stored a.accountID).availableBalance = (l.stored a.accountID).availableBalance) ∧
      (¬ HasEntry l a.accountID →
        (l₂.stored a.accountID).availableBalance = sub.amountTotal - sub.amountUsed) := by
  have hm := moved_of_released hc
  have hacc := h.accountID
  have hamount := h.amount
  have hreserved := h.reserved
  have hgranted : grantedSum l₂ a.accountID = grantedSum l₁ a.accountID := by
    rw [hm.granted]
    simp
  have hbefore := stored_exact hs (lt_of_le_of_lt h.granted hfit)
  have hafter := stored_exact (sound_of_released hs₁ hc) (by rw [hgranted]; exact hfit)
  rw [hafter.1, hafter.2.1, hbefore.1, hbefore.2.1, hm.reserved, hm.available, if_pos hacc,
    if_pos hacc]
  dsimp only
  refine ⟨by omega, fun hentry => ?_, fun hnone => ?_⟩
  · have := h.available hentry
    omega
  · have := h.bootstrapped hnone
    omega

/-- What the pre-consume left of a request on a limited subscription whose name has no space
around it, which the refund then takes back. -/
structure Holding (s s₁ : Store) (record : SubscriptionPreConsumeRecord) (sub used : UserSubscription)
    (plan : SubscriptionPlan) (holdID : String) (a : BillingAccount) (r : BillingReservation) :
    Prop where
  hold : HoldOn s.ledger s₁.ledger sub record holdID a r
  before : Sound s.ledger
  sound : Sound s₁.ledger
  trimmed : trimSpace record.requestID = record.requestID
  positive : 0 < record.preConsumed
  status : record.status = .consumed
  owner : record.userSubscriptionID = sub.id
  recorded : s₁.preConsumes.get? record.requestID = some record
  row : s₁.subscriptions.get? sub.id = some used
  found : PlanFound s₁ used.planID plan
  applied : ∃ mid, SameUsage sub mid ∧
    applySubscriptionUsageDelta plan mid record.modelName record.preConsumed = .ok used
  fits : grantedSum s₁.ledger a.accountID < 2 ^ 63

/-- A refund of the request undoes it, and the request is then recorded as refunded. -/
theorem Holding.undone {used : UserSubscription} (h : Holding s s₁ record sub used plan holdID a r)
    (hrefund : (refundSubscriptionPreConsume u record.requestID).run s₁ = (.ok (), s₂)) :
    Undone s s₂ sub ∧
      ∃ record', s₂.preConsumes.get? record.requestID = some record' ∧ record'.status = .refunded := by
  obtain ⟨rec, hrec, hrefunded⟩ := refundSubscriptionPreConsume_ok h.sound hrefund
  obtain rfl : record = rec := Option.some.inj (h.recorded.symm.trans hrec)
  have halone := h.hold.alone
  rw [h.trimmed] at halone
  cases hrefunded with
  | already hst =>
    rw [h.status] at hst
    cases hst
  | nothing hst hzero =>
    have := h.positive
    omega
  | released hst l s₃ old sub' plan' hsome hall saved hs =>
  rw [halone] at hall saved
  obtain ⟨⟩ | ⟨hc, hnil⟩ := hall
  cases hnil
  have hledger : s₂.ledger = l := by
    rw [hs, saved.state]
    rfl
  obtain ⟨hreserved, havailable, hbootstrapped⟩ :=
    undone_of_released h.hold h.before h.sound h.fits hc
  -- an account of the subscription is the one of the hold, for owners are unique
  have hunique : ∀ b ∈ s₂.ledger.accounts, AccountOf sub.id b → b = a := by
    intro b hb howner
    rw [hledger, hc.accounts] at hb
    refine Table.eq_of_clash hb h.hold.account (decide_eq_true (.inr ?_))
    exact howner.trans h.hold.owner.symm
  have hold : old = used := by
    have hcurrent := saved.current
    rw [h.owner, setLedger_subscriptions, h.row] at hcurrent
    exact (Option.some.inj hcurrent).symm
  have hplan : plan' = plan := by
    have hfound := saved.found.2
    rw [hold, setLedger_plans, h.found.2] at hfound
    exact (Option.some.inj hfound).symm
  obtain ⟨mid, hmid, happlied⟩ := h.applied
  have hid : sub'.id = sub.id := by
    rw [terms_id (applySubscriptionUsageDelta_ok saved.applied).1.terms, hold,
      terms_id (applySubscriptionUsageDelta_ok happlied).1.terms, hmid.id]
  have hrow : s₂.subscriptions.get? sub.id = some sub' := by
    rw [hs, saved.state]
    show ((s₁.setLedger l).setSubscription sub').subscriptions.get? sub.id = some sub'
    have hcurrent : (s₁.setLedger l).subscriptions.get? sub'.id = some used := by
      rw [hid]
      exact h.row
    rw [get?_setSubscription hcurrent, if_pos hid.symm]
  obtain ⟨sub'', happly, hused, hperiod, hmodels⟩ :=
    applySubscriptionUsageDelta_undo happlied h.positive
  have hsame : sub' = sub'' := by
    have hamount : reservedTotal [r] = record.preConsumed := by
      simp [reservedTotal, h.hold.amount]
    have hrefunded := saved.applied
    rw [hold, hplan, hamount, happly] at hrefunded
    exact (Except.ok.inj hrefunded).symm
  constructor
  · constructor
    case row =>
      refine ⟨sub', hrow, hid, ?_, ?_, ?_⟩
      · rw [hsame, hused, hmid.amountUsed]
      · rw [hsame, hperiod, hmid.periodUsed]
      · intro model
        rw [hsame, hmodels, hmid.models]
    case reserved =>
      intro b hb howner
      rw [hunique b hb howner, hledger]
      exact hreserved
    case available =>
      intro b hb howner
      rw [hunique b hb howner, hledger]
      exact havailable
    case bootstrapped =>
      intro b hb howner
      rw [hunique b hb howner, hledger]
      exact hbootstrapped
  · refine ⟨withPreConsumeStatus .refunded record, ?_, rfl⟩
    rw [hs, saved.state]
    show (s₁.preConsumes.update record.requestID _
      (keepsIndexes_withPreConsumeStatus .refunded)).get? record.requestID = _
    rw [Table.get?_update, if_pos rfl, h.recorded]
    rfl

/-- A request that is recorded as refunded is not refunded again. -/
theorem refund_again (hrequest : blank requestID = false)
    (hrecord : s.preConsumes.get? requestID = some record) (hst : record.status = .refunded) :
    (refundSubscriptionPreConsume u requestID).commit s = (.ok (), s) := by
  rw [commit_eq_ok, refundSubscriptionPreConsume, if_neg (by simp [hrequest])]
  have hread : (readOrFail .recordNotFound (findPreConsume requestID)).run s = (.ok record, s) := by
    rw [readOrFail, run_stepE, findPreConsume, hrecord]
  rw [run_bind_ok hread, if_pos hst]
  rfl

/-- Without an open hold the refund is refused. -/
theorem refund_refused (hrecord : s.preConsumes.get? requestID = some record)
    (hst : record.status = .consumed) (hpos : 0 < record.preConsumed)
    (hnone : openReservations record.requestID s.ledger = []) (hs : Sound s.ledger) :
    (refundSubscriptionPreConsume u requestID).commit s ≠ (.ok (), s₂) := by
  intro hrefund
  obtain ⟨rec, hrec, hrefunded⟩ := refundSubscriptionPreConsume_ok hs (commit_eq_ok.1 hrefund)
  obtain rfl : record = rec := Option.some.inj (hrecord.symm.trans hrec)
  cases hrefunded with
  | already hst' =>
    rw [hst] at hst'
    cases hst'
  | nothing _ hzero => omega
  | released _ l s₃ old sub' plan' hsome => exact hsome hnone

/-- The rows that the pre-consume leaves of a request, when no reset was due. -/
theorem PreConsumed.rows {res : SubscriptionPreConsumeResult}
    (h : PreConsumed holdID cal now record sub plan s s₁ res) (hdue : resetDue cal plan sub now = false) :
    ∃ mid used, SameUsage sub mid ∧ s₁.subscriptions.get? sub.id = some used ∧
      applySubscriptionUsageDelta plan mid record.modelName record.preConsumed = .ok used ∧
      PlanFound s₁ used.planID plan := by
  have hplans := h.plans_eq
  obtain ⟨w₁, w₂, mid, used, reset, happly, hrow⟩ := h.row
  have hmid : ∃ base next, mid = { sub with lastResetTime := base, nextResetTime := next } := by
    cases reset with
    | kept _ hsub _ => exact hsub
    | reset hdue' =>
      rw [hdue] at hdue'
      cases hdue'
  obtain ⟨base, next, rfl⟩ := hmid
  refine ⟨{ sub with lastResetTime := base, nextResetTime := next }, used,
    ⟨rfl, rfl, rfl, fun _ => rfl⟩, hrow, happly, ?_⟩
  have hplanID : (terms used).planID = sub.planID := by
    rw [(applySubscriptionUsageDelta_ok happly).1.terms]
    rfl
  have hplanID : used.planID = sub.planID := hplanID
  rw [hplanID]
  obtain ⟨_, _, _, -, -, -, found, -, -, -⟩ := h
  refine ⟨found.1, ?_⟩
  rw [hplans]
  exact found.2

theorem blank_of_preConsume {modelName : String} {userID amount : Int}
    {res : SubscriptionPreConsumeResult}
    (h : (preConsumeUserSubscription cal u now requestID userID modelName amount).run s =
      (.ok res, s₁)) : blank requestID = false := by
  obtain ⟨-, h⟩ := checked h
  obtain ⟨hblank, -⟩ := checked h
  exact Bool.not_eq_true _ ▸ hblank

end Undo

/-- A request of 10 on a subscription of user 7 that grants `total`. -/
def preConsumeSample : Flow SubscriptionPreConsumeResult :=
  preConsumeUserSubscription sampleCalendar (hexUuids 'a') 10 "r" 7 "m" 10

def storeOf (total : Int) : Store := sampleStore samplePlan (sampleSubscription total)

def preConsumed (total : Int) : Store := (preConsumeSample.commit (storeOf total)).2

end CodeGo.Commerce.RefundUndo
