import CodeGo.Billing.RealtimeQuota

/-!
# What a realtime session is charged

The increments of a session are charged beside its billing session, which is settled at the
whole. What the settlement finds is what the pre-consumption left, so that the increments come on
top of it.
-/

namespace CodeGo.Billing.Realtime

open Lib.Prog Schema Session

variable {σ ℓ : Type} (a : TokenAccounts σ ℓ) (info : RelayInfo) (s : Ratios) (ri : RealtimeInfo)

def reportedUsage (increments : List Increment) : RealtimeUsage :=
  increments.foldl (fun total i => total.add i.usage) {}

def incrementFunding (increments : List Increment) : Int :=
  (increments.map Increment.fundingDebit).sum

def incrementToken (increments : List Increment) : Int :=
  (increments.map Increment.tokenDebit).sum

@[simp] theorem reportedUsage_snoc (increments : List Increment) (i : Increment) :
    reportedUsage (increments ++ [i]) = (reportedUsage increments).add i.usage := by
  simp [reportedUsage]

/-- What the session and its increments took from the funding source. -/
def fundingTotal (w : Wss σ) : Int :=
  fundingDebit w.billing.calls + chargeDebit w.billing.calls + incrementFunding w.increments

/-- What they took from the token. -/
def tokenTotal (info : RelayInfo) (w : Wss σ) : Int :=
  tokenDebit w.billing.calls + (if info.isPlayground then 0 else chargeDebit w.billing.calls) +
    incrementToken w.increments

section Increments

/-- The billing session and its record stay as they are. -/
def SameSession (b b' : RelayBilling σ) : Prop :=
  b'.billing = b.billing ∧ b'.calls = b.calls

theorem SameSession.refl (b : RelayBilling σ) : SameSession b b := ⟨rfl, rfl⟩

theorem SameSession.trans {b b' b'' : RelayBilling σ} (h : SameSession b b')
    (h' : SameSession b' b'') : SameSession b b'' :=
  ⟨h'.1.trans h.1, h'.2.trans h.2⟩

/-- An increment is charged beside the session. -/
theorem consumeIncrement_session (usage : RealtimeUsage) (quota : Int) (b : RelayBilling σ) :
    SameSession b (consumeIncrement a info usage quota b).2.1 ∧
      (consumeIncrement a info usage quota b).2.2.usage = usage := by
  unfold consumeIncrement
  split
  · exact ⟨⟨rfl, rfl⟩, rfl⟩
  · split
    · exact ⟨⟨rfl, rfl⟩, rfl⟩
    · exact ⟨⟨rfl, rfl⟩, rfl⟩

theorem preWssConsumeQuota_session (usage : RealtimeUsage) (b : RelayBilling σ) :
    SameSession b (preWssConsumeQuota a info s ri usage b).2.1 ∧
      (preWssConsumeQuota a info s ri usage b).2.2.usage = usage := by
  unfold preWssConsumeQuota
  split
  · exact ⟨⟨rfl, rfl⟩, rfl⟩
  split
  · exact ⟨⟨rfl, rfl⟩, rfl⟩
  split
  · exact ⟨⟨rfl, rfl⟩, rfl⟩
  dsimp only
  split
  · exact ⟨⟨rfl, rfl⟩, rfl⟩
  split
  · exact ⟨⟨rfl, rfl⟩, rfl⟩
  · exact consumeIncrement_session a info usage _ { b with accounts := _ }

/-- The session so far: its billing session as it was opened, its usage as it was reported. -/
structure Metered (b : RelayBilling σ) (w : Wss σ) : Prop where
  session : SameSession b w.billing
  sumUsage : w.sumUsage = reportedUsage w.increments

variable {b : RelayBilling σ} {w : Wss σ}

theorem Metered.preConsumeUsage (h : Metered b w) (usage : RealtimeUsage) :
    Metered b (preConsumeUsage a info s ri usage w).2 := by
  obtain ⟨hsession, husage⟩ := preWssConsumeQuota_session a info s ri usage w.billing
  constructor
  · exact h.session.trans hsession
  · show w.sumUsage.add usage = _
    rw [Realtime.preConsumeUsage, reportedUsage_snoc, husage, h.sumUsage]

theorem Metered.onEvent (h : Metered b w) (e : Event) :
    Metered b (onEvent a info s ri e w).2 := by
  cases e with
  | client textTokens audioTokens => exact ⟨h.session, h.sumUsage⟩
  | done usage =>
    have hpre : Metered b { w with usage := w.usage.add usage } := ⟨h.session, h.sumUsage⟩
    have hpost := hpre.preConsumeUsage a info s ri (w.usage.add usage)
    unfold Realtime.onEvent
    dsimp only at hpost ⊢
    split
    next e w' heq =>
      rw [heq] at hpost
      exact hpost
    next w' heq =>
      rw [heq] at hpost
      exact ⟨hpost.session, hpost.sumUsage⟩
  | doneCounted textTokens audioTokens =>
    have hpre : Metered b { w with
        localUsage := w.localUsage.add (inputUsage textTokens audioTokens) } :=
      ⟨h.session, h.sumUsage⟩
    have hpost := hpre.preConsumeUsage a info s ri (w.localUsage.add (inputUsage textTokens audioTokens))
    unfold Realtime.onEvent
    dsimp only at hpost ⊢
    split
    next e w' heq =>
      rw [heq] at hpost
      exact hpost
    next w' heq =>
      rw [heq] at hpost
      exact ⟨hpost.session, hpost.sumUsage⟩
  | other textTokens audioTokens => exact ⟨h.session, h.sumUsage⟩

theorem Metered.onEvents (h : Metered b w) (events : List Event) :
    Metered b (onEvents a info s ri events w) := by
  induction events generalizing w with
  | nil => exact h
  | cons e events ih =>
    have hstep := h.onEvent a info s ri e
    unfold Realtime.onEvents
    split
    next e' w' heq =>
      rw [heq] at hstep
      exact hstep
    next w' heq =>
      rw [heq] at hstep
      exact ih hstep

theorem Metered.reportRest (h : Metered b w) (usage : RealtimeUsage) :
    Metered b (reportRest a info s ri usage w) := by
  unfold Realtime.reportRest
  split
  · exact h.preConsumeUsage a info s ri usage
  · exact h

/-- The handler leaves the billing session alone and sums up what it reported. -/
theorem openaiRealtimeHandler_metered (events : List Event) (b : RelayBilling σ) :
    Metered b (openaiRealtimeHandler a info s ri events { billing := b }) := by
  have hstart : Metered b ({ billing := b } : Wss σ) := ⟨.refl b, rfl⟩
  exact ((hstart.onEvents a info s ri events).reportRest a info s ri _).reportRest a info s ri _

end Increments

section Settlement

variable {a info s ri}
variable {b : RelayBilling σ}

/-- A session that was opened, or a free request without one. -/
structure Opened (info : RelayInfo) (b : RelayBilling σ) : Prop where
  session : ∀ x, b.billing = some x → Running info x b.calls ∧ Drawn 0 x b.calls
  free : b.billing = none → b.calls = []

theorem openBilling_opened {claude freeModel : Bool} {quota : Int} {accounts : σ}
    (hquota : 0 ≤ quota) (h : openBilling a info claude freeModel quota accounts = (none, b)) :
    Opened info b := by
  unfold openBilling at h
  split at h
  · cases h
    exact ⟨nofun, fun _ => rfl⟩
  · unfold preConsumeRelayBilling at h
    dsimp only at h
    have hbooks : Books info 0 false
      (RelayBilling.live { accounts } { funding := .wallet } : Live σ).calls := books_nil
    have hnew : Post (newBillingSession a.toAccounts info claude quota) _ (Started info 0) :=
      post_newBillingSession hbooks (Int.le_refl 0) hquota
    unfold Post at hnew
    generalize (newBillingSession a.toAccounts info claude quota).run
      (RelayBilling.live { accounts } { funding := .wallet }) = r at h hnew
    obtain ⟨e | _ | apiErr, t⟩ := r
    · exact hnew.elim
    · cases h
      constructor
      · rintro x hx
        cases hx
        exact hnew
      · exact nofun
    · cases h

/-- What the session and its settlement take, without the increments. -/
structure SettledAt (info : RelayInfo) (quota missing : Int) (b : RelayBilling σ) : Prop where
  funding : fundingDebit b.calls + chargeDebit b.calls = quota
  token : tokenDebit b.calls + (if info.isPlayground then 0 else chargeDebit b.calls) =
    (if info.isPlayground then 0 else quota) + missing

theorem chargeQuota_settledAt {quota : Int} (hcalls : b.calls = [])
    (h : (chargeQuota a.toAccounts info quota b).1 = .ok ()) :
    SettledAt info quota 0 (chargeQuota a.toAccounts info quota b).2 := by
  have hnew : (chargeQuota a.toAccounts info quota b).2.calls = [(.charge quota, true)] := by
    show b.calls ++ [(.charge quota, (chargeQuota a.toAccounts info quota b).1.isOk)] = _
    rw [hcalls, h]
    rfl
  constructor
  · rw [hnew]
    simp [fundingDebit, chargeDebit, charged, drawAfter]
  · rw [hnew]
    simp [tokenDebit, chargeDebit, charged, taken]

/-- A settlement that reports no error takes its quota, whatever was pre-consumed. -/
theorem settleRelayBilling_settledAt {quota : Int} (h : Opened info b) (hquota : 0 ≤ quota)
    (hok : (settleRelayBilling a.toAccounts info quota b).1 = .ok ()) :
    SettledAt info quota (leaked b.calls) (settleRelayBilling a.toAccounts info quota b).2 := by
  unfold settleRelayBilling at hok ⊢
  cases hbilling : b.billing with
  | none =>
    rw [hbilling] at hok
    have hcalls := h.free hbilling
    rw [hcalls]
    show SettledAt info quota 0 _
    dsimp only at hok ⊢
    split at hok
    next hzero =>
      rw [if_pos hzero, hzero]
      constructor
      · rw [hcalls]
        rfl
      · rw [hcalls]
        simp [tokenDebit, chargeDebit]
    next hne =>
      rw [if_neg hne]
      exact chargeQuota_settledAt hcalls hok
  | some x =>
    rw [hbilling] at hok
    obtain ⟨hrunning, hdrawn⟩ := h.session x hbilling
    have hpaid : Post (settle a.toAccounts info quota) (b.live x) _ :=
      post_settle_paid hrunning hdrawn
    have hpaid := hpaid hok
    have hmax : max quota 0 = quota := by omega
    constructor
    · show fundingDebit ((settle a.toAccounts info quota).run (b.live x)).2.calls +
        chargeDebit ((settle a.toAccounts info quota).run (b.live x)).2.calls = quota
      rw [hpaid.funding, hpaid.charges, hmax, Int.add_zero]
    · show tokenDebit ((settle a.toAccounts info quota).run (b.live x)).2.calls +
        (if info.isPlayground then 0 else
          chargeDebit ((settle a.toAccounts info quota).run (b.live x)).2.calls) = _
      rw [hpaid.token, hpaid.charges, hmax, ite_self, Int.add_zero]
      rfl

end Settlement

section Charge

variable {a info s ri}

/-- The session is charged with the quota of its usage, to a unit for each usage it reported, and
no usage is charged when it is reported and with the whole. -/
structure ChargedOnce (info : RelayInfo) (quota : Int) (w : Wss σ) : Prop where
  funding : |fundingTotal w - quota| ≤ w.increments.length
  token : |tokenTotal info w - (if info.isPlayground then 0 else quota)| ≤ w.increments.length
  once : ∀ i ∈ w.increments, i.fundingDebit = 0 ∧ i.tokenDebit = 0

/-- The totals of a session: the quota of the summed usage, and every increment on top of it. -/
structure Totals (info : RelayInfo) (quota missing : Int) (w : Wss σ) : Prop where
  funding : fundingTotal w = quota + incrementFunding w.increments
  token : tokenTotal info w =
    (if info.isPlayground then 0 else quota) + missing + incrementToken w.increments

theorem wssHelper_totals {b : RelayBilling σ} {events : List Event} (h : Opened info b)
    (hquota : 0 ≤ postWssQuota s ri (wssHelper a info s ri events b).2.sumUsage)
    (hok : (wssHelper a info s ri events b).1 = .ok ()) :
    (wssHelper a info s ri events b).2.sumUsage =
        reportedUsage (wssHelper a info s ri events b).2.increments ∧
      Totals info (postWssQuota s ri (wssHelper a info s ri events b).2.sumUsage) (leaked b.calls)
        (wssHelper a info s ri events b).2 := by
  have hmetered := openaiRealtimeHandler_metered a info s ri events b
  unfold wssHelper postWssConsumeQuota at hquota hok ⊢
  dsimp only at hquota hok ⊢
  generalize openaiRealtimeHandler a info s ri events { billing := b } = w at *
  obtain ⟨hbilling, hcalls⟩ := hmetered.session
  have hopened : Opened info w.billing := by
    constructor
    · rw [hbilling, hcalls]
      exact h.session
    · rw [hbilling, hcalls]
      exact h.free
  have hsettled := settleRelayBilling_settledAt hopened hquota hok
  rw [hcalls] at hsettled
  refine ⟨hmetered.sumUsage, ?_, ?_⟩
  · unfold fundingTotal
    dsimp only
    rw [hsettled.funding]
  · unfold tokenTotal
    dsimp only
    rw [hsettled.token]

theorem Totals.chargedOnce_iff {quota missing : Int} {w : Wss σ} (h : Totals info quota missing w)
    (hmissing : 0 ≤ missing) :
    ChargedOnce info quota w ↔
      (∀ i ∈ w.increments, i.fundingDebit = 0 ∧ i.tokenDebit = 0) ∧
        missing ≤ w.increments.length := by
  have hzero : (∀ i ∈ w.increments, i.fundingDebit = 0 ∧ i.tokenDebit = 0) →
      incrementFunding w.increments = 0 ∧ incrementToken w.increments = 0 := by
    intro hall
    constructor
    · apply List.sum_eq_zero
      intro n hn
      obtain ⟨i, hi, rfl⟩ := List.mem_map.1 hn
      exact (hall i hi).1
    · apply List.sum_eq_zero
      intro n hn
      obtain ⟨i, hi, rfl⟩ := List.mem_map.1 hn
      exact (hall i hi).2
  constructor
  · intro hcharged
    have htoken := hcharged.token
    rw [h.token, (hzero hcharged.once).2] at htoken
    refine ⟨hcharged.once, ?_⟩
    have := (abs_le.1 htoken).2
    omega
  · rintro ⟨hall, hmiss⟩
    obtain ⟨hfunding, htoken⟩ := hzero hall
    refine ⟨?_, ?_, hall⟩
    · rw [h.funding, hfunding]
      simp
    · rw [h.token, htoken, abs_le]
      omega

end Charge

def sampleRatios : Ratios where
  completionRatio _ := 4
  audioRatio _ := 20
  audioCompletionRatio _ := 2
  modelRatio _ := 5 / 2
  groupRatio _ := 1
  groupGroupRatio _ _ := none
  quotaPerUnit := 500000
  consumptionDiscountRate := 0

def sampleRealtime (usePrice : Bool) : RealtimeInfo where
  usePrice
  originModelName := "gpt-4o-realtime-preview"
  upstreamModelName := "gpt-4o-realtime-preview"
  userGroup := "default"
  usingGroup := "default"
  priceUsePrice := false
  priceModelRatio := 5 / 2
  priceGroupRatio := 1

/-- Accounts with a balance that accept every call. -/
def openAccounts : TokenAccounts Unit Unit where
  getUserQuota _ := .ret 100000
  newFunding _ _ := .ret ()
  funding _ := ⟨fun _ => .ret (), fun _ => .ret (), .ret ()⟩
  preConsumed _ := 0
  reserveAdditional _ := .ret ()
  preConsumeTokenQuota _ := .ret ()
  adjustTokenQuota _ := .ret ()
  adjustWalletQuota _ := .ret ()
  postSubscriptionUsageDelta _ := .ret ()
  getToken := .ret (true, 0)

def walletInfo : RelayInfo where
  tokenUnlimited := true
  isPlayground := false
  forcePreConsume := false
  billingPreference := "wallet_only"
  fundingSourceOrder := []
  tokenQuota := 0
  trustQuota := 5000000

/-- One answer of 40 text tokens to 100 of them. -/
def oneAnswer : List Event :=
  [.done { totalTokens := 140, inputTokens := 100, outputTokens := 40
           inputTokenDetails := { textTokens := 100 }
           outputTokenDetails := { textTokens := 40 } }]

def sampleOpen : RelayBilling Unit :=
  (openBilling openAccounts walletInfo false false 500 ()).2

theorem sampleOpen_eq : openBilling openAccounts walletInfo false false 500 () =
    (none, sampleOpen) := by
  have h : (openBilling openAccounts walletInfo false false 500 ()).1.isNone = true := by
    decide +kernel
  exact Prod.ext (Option.isNone_iff_eq_none.1 h) rfl

def sampleSession (usePrice : Bool) : Except Err Unit × Wss Unit :=
  wssHelper openAccounts walletInfo sampleRatios (sampleRealtime usePrice) oneAnswer sampleOpen

end CodeGo.Billing.Realtime
