import CodeGo.Commerce.SubscriptionRules

/-!
# Admission and usage of a subscription

`subscription_funding_runtime.go` and `subscription_mutation_support.go` with counters of 64
bits: the three limits are tested before a request is admitted, and again when its usage is
added. A sum that leaves the 64 bits counts as none.
-/

namespace CodeGo.Commerce.Admission

open Lib.Trim Lib.Wrap Billing.Schema Schema SubscriptionRules

/-- `used + delta`, or nothing where that is negative. -/
def newUsed (used delta : Int) : Int :=
  let newUsed := wrap64 (used + delta)
  if newUsed < 0 then 0 else newUsed

theorem newUsed_nonneg (used delta : Int) : 0 ≤ newUsed used delta := by
  unfold newUsed
  dsimp only
  split <;> omega

def applyPeriodUsage (plan : SubscriptionPlan) (sub : UserSubscription) (delta : Int) :
    Except Err UserSubscription :=
  let newPeriodUsed := newUsed sub.periodUsed delta
  if countsPeriod plan sub then
    if newPeriodUsed > getSubscriptionPeriodAmount plan sub then
      .error (periodExceeded newPeriodUsed (getSubscriptionPeriodAmount plan sub))
    else .ok { sub with
      periodUsed := newPeriodUsed
      periodUsed_nonneg := newUsed_nonneg _ _ }
  else .ok sub

def applyModelUsage (sub : UserSubscription) (model : String) (delta : Int) :
    Except Err UserSubscription :=
  if model = "" ∨ modelLimit sub model ≤ 0 then .ok sub
  else
    let newUsage := newUsed (modelUsage sub model) delta
    if newUsage > modelLimit sub model then
      .error (modelExceeded model newUsage (modelLimit sub model))
    else
      let usage := putQuota (normalizeSubscriptionModelQuotaMap sub.modelUsage) model newUsage
      .ok { sub with modelUsage := normalizeSubscriptionModelQuotaMap usage }

def setAmountUsed (sub : UserSubscription) (used : Int) (hused : 0 ≤ used) : UserSubscription :=
  { sub with amountUsed := used, amountUsed_nonneg := hused }

def applySubscriptionUsageDelta (plan : SubscriptionPlan) (sub : UserSubscription)
    (modelName : String) (delta : Int) : Except Err UserSubscription :=
  let newAmountUsed := newUsed sub.amountUsed delta
  if delta = 0 then .ok sub
  else if 0 < sub.amountTotal ∧ newAmountUsed > sub.amountTotal then
    .error (usedExceedsTotal newAmountUsed sub.amountTotal)
  else do
    let sub ← applyPeriodUsage plan (setAmountUsed sub newAmountUsed (newUsed_nonneg _ _)) delta
    applyModelUsage sub (trimSpace modelName) delta

/-- The tests of `PreConsumeUserSubscription`, which skips a candidate that fails one of them. -/
def admits (plan : SubscriptionPlan) (sub : UserSubscription) (modelName : String) (amount : Int) :
    Bool :=
  let remain := wrap64 (sub.amountTotal - sub.amountUsed)
  let periodRemain := wrap64 (getSubscriptionPeriodAmount plan sub - sub.periodUsed)
  let model := trimSpace modelName
  !(0 < sub.amountTotal && remain < amount) &&
  !(countsPeriod plan sub && periodRemain < amount) &&
  !(model ≠ "" && 0 < modelLimit sub model &&
    wrap64 (modelUsage sub model + amount) > modelLimit sub model)

/-- The counters and limits are numbers of 64 bits. -/
structure Counts64 (plan : SubscriptionPlan) (sub : UserSubscription) (model : String) : Prop where
  amountUsed : sub.amountUsed < 2 ^ 63
  amountTotal : sub.amountTotal < 2 ^ 63
  periodUsed : sub.periodUsed < 2 ^ 63
  periodAmount : getSubscriptionPeriodAmount plan sub < 2 ^ 63
  modelUsage : modelUsage sub model < 2 ^ 63
  modelLimit : modelLimit sub model < 2 ^ 63

section Limits

variable {used amount limit : Int}

theorem newUsed_eq (hu : 0 ≤ used) (hu' : used < 2 ^ 63) (ha : 0 < amount) (ha' : amount < 2 ^ 63) :
    newUsed used amount = if used + amount < 2 ^ 63 then used + amount else 0 := by
  unfold newUsed
  dsimp only
  split_ifs with hneg hsum hsum
  · rw [wrap64_of_nonneg (by omega) hsum] at hneg
    omega
  · rfl
  · exact wrap64_of_nonneg (by omega) hsum
  · have hwrap : wrap64 (used + amount) = used + amount - 2 ^ 64 := by
      unfold wrap64
      rw [Int.bmod_eq_iff] <;> omega
    omega

/-- The sum of the usage and the amount is a number of 64 bits above the limit. -/
def Exceeds (used amount limit : Int) : Prop := limit < used + amount ∧ used + amount < 2 ^ 63

theorem newUsed_le_iff (hu : 0 ≤ used) (hu' : used < 2 ^ 63) (ha : 0 < amount)
    (ha' : amount < 2 ^ 63) (hlimit : 0 ≤ limit) :
    newUsed used amount ≤ limit ↔ ¬ Exceeds used amount limit := by
  rw [newUsed_eq hu hu' ha ha']
  unfold Exceeds
  split <;> omega

/-- What is left of a limit is tested exactly. -/
theorem remain_lt_iff (hu : 0 ≤ used) (hu' : used < 2 ^ 63) (hlimit : 0 ≤ limit)
    (hlimit' : limit < 2 ^ 63) : wrap64 (limit - used) < amount ↔ limit < used + amount := by
  rw [wrap64_of_inRange ⟨by omega, by omega⟩]
  omega

end Limits

section Success

variable {plan : SubscriptionPlan} {sub sub' : UserSubscription} {modelName model : String}
variable {delta : Int}

/-- The period counter is the only column that changes. -/
theorem applyPeriodUsage_ok (h : applyPeriodUsage plan sub delta = .ok sub') :
    (∃ used hused, sub' = { sub with periodUsed := used, periodUsed_nonneg := hused }) ∧
      (countsPeriod plan sub = true → sub'.periodUsed ≤ getSubscriptionPeriodAmount plan sub) := by
  unfold applyPeriodUsage at h
  dsimp only at h
  split at h
  next hc =>
    split at h
    · cases h
    next hle =>
      cases h
      exact ⟨⟨_, _, rfl⟩, fun _ => not_lt.1 hle⟩
  next hc =>
    cases h
    exact ⟨⟨sub.periodUsed, sub.periodUsed_nonneg, rfl⟩, fun h => absurd h hc⟩

theorem applyPeriodUsage_succeeds_iff :
    (∃ sub', applyPeriodUsage plan sub delta = .ok sub') ↔
      (countsPeriod plan sub = true →
        newUsed sub.periodUsed delta ≤ getSubscriptionPeriodAmount plan sub) := by
  unfold applyPeriodUsage
  dsimp only
  by_cases hc : countsPeriod plan sub = true
  · rw [if_pos hc]
    by_cases hle : newUsed sub.periodUsed delta ≤ getSubscriptionPeriodAmount plan sub
    · rw [if_neg (not_lt.2 hle)]
      exact ⟨fun _ _ => hle, fun _ => ⟨_, rfl⟩⟩
    · rw [if_pos (not_le.1 hle)]
      constructor
      · rintro ⟨sub', h⟩
        cases h
      · intro h
        exact absurd (h hc) hle
  · rw [if_neg hc]
    exact ⟨fun _ h => absurd h hc, fun _ => ⟨_, rfl⟩⟩

/-- The usage of the model is the only column that changes. -/
theorem applyModelUsage_ok (h : applyModelUsage sub model delta = .ok sub')
    (htrim : trimSpace model = model) :
    (∃ usage, sub' = { sub with modelUsage := usage }) ∧
      (limitsModel sub model → modelUsage sub' model ≤ modelLimit sub model) := by
  unfold applyModelUsage at h
  split at h
  next hnone =>
    cases h
    refine ⟨⟨sub.modelUsage, rfl⟩, ?_⟩
    rintro ⟨hne, hlimit⟩
    rcases hnone with he | hle
    · exact absurd he hne
    · omega
  next hsome =>
    simp only [not_or, not_le] at hsome
    dsimp only at h
    split at h
    · cases h
    next hle =>
      cases h
      have hnormal := (normal_normalize sub.modelUsage).putQuota htrim hsome.1
        (newUsed_nonneg (modelUsage sub model) delta)
      refine ⟨⟨_, rfl⟩, fun _ => ?_⟩
      rw [modelUsage, normalize_of_normal (normal_normalize _), normalize_of_normal hnormal,
        getQuota_putQuota, if_pos rfl]
      exact not_lt.1 hle

theorem applyModelUsage_succeeds_iff :
    (∃ sub', applyModelUsage sub model delta = .ok sub') ↔
      (limitsModel sub model → newUsed (modelUsage sub model) delta ≤ modelLimit sub model) := by
  unfold applyModelUsage
  by_cases hl : limitsModel sub model
  · rw [if_neg (by rintro (he | hle); exacts [hl.1 he, absurd hl.2 (not_lt.2 hle)])]
    dsimp only
    by_cases hle : newUsed (modelUsage sub model) delta ≤ modelLimit sub model
    · rw [if_neg (not_lt.2 hle)]
      exact ⟨fun _ _ => hle, fun _ => ⟨_, rfl⟩⟩
    · rw [if_pos (not_le.1 hle)]
      constructor
      · rintro ⟨sub', h⟩
        cases h
      · intro h
        exact absurd (h hl) hle
  · have hnone : model = "" ∨ modelLimit sub model ≤ 0 := by
      by_contra hsome
      simp only [not_or, not_le] at hsome
      exact hl hsome
    rw [if_pos hnone]
    exact ⟨fun _ h => absurd h hl, fun _ => ⟨_, rfl⟩⟩

/-- Usage is added exactly when each of the three counters stays within its limit. -/
theorem applySubscriptionUsageDelta_succeeds_iff (hdelta : delta ≠ 0) :
    (∃ sub', applySubscriptionUsageDelta plan sub modelName delta = .ok sub') ↔
      (0 < sub.amountTotal → newUsed sub.amountUsed delta ≤ sub.amountTotal) ∧
      (countsPeriod plan sub = true →
        newUsed sub.periodUsed delta ≤ getSubscriptionPeriodAmount plan sub) ∧
      (limitsModel sub (trimSpace modelName) →
        newUsed (modelUsage sub (trimSpace modelName)) delta ≤
          modelLimit sub (trimSpace modelName)) := by
  unfold applySubscriptionUsageDelta
  dsimp only
  rw [if_neg hdelta]
  by_cases htotal : 0 < sub.amountTotal ∧ newUsed sub.amountUsed delta > sub.amountTotal
  · rw [if_pos htotal]
    constructor
    · rintro ⟨sub', h⟩
      cases h
    · intro h
      exact absurd (h.1 htotal.1) (not_le.2 htotal.2)
  rw [if_neg htotal]
  rw [not_and, not_lt] at htotal
  have hcounted := @applyPeriodUsage_succeeds_iff plan
    (setAmountUsed sub (newUsed sub.amountUsed delta) (newUsed_nonneg _ _)) delta
  cases hmid : applyPeriodUsage plan
      (setAmountUsed sub (newUsed sub.amountUsed delta) (newUsed_nonneg _ _)) delta with
  | error e =>
    constructor
    · rintro ⟨sub', h⟩
      cases h
    · intro h
      obtain ⟨mid, hok⟩ := hcounted.2 h.2.1
      cases hmid.symm.trans hok
  | ok mid =>
    have hperiod : countsPeriod plan sub = true →
        newUsed sub.periodUsed delta ≤ getSubscriptionPeriodAmount plan sub :=
      hcounted.1 ⟨mid, hmid⟩
    obtain ⟨⟨used, hused, rfl⟩, -⟩ := applyPeriodUsage_ok hmid
    have hmodel := @applyModelUsage_succeeds_iff
      { setAmountUsed sub (newUsed sub.amountUsed delta) (newUsed_nonneg _ _) with
        periodUsed := used, periodUsed_nonneg := hused } (trimSpace modelName) delta
    exact hmodel.trans ⟨fun h => ⟨htotal, hperiod, h⟩, fun h => h.2.2⟩

/-- What was added stays within the limits. -/
theorem applySubscriptionUsageDelta_within (hdelta : delta ≠ 0)
    (h : applySubscriptionUsageDelta plan sub modelName delta = .ok sub') :
    Within plan sub' (trimSpace modelName) := by
  unfold applySubscriptionUsageDelta at h
  dsimp only at h
  rw [if_neg hdelta] at h
  split at h
  · cases h
  next htotal =>
    rw [not_and, not_lt] at htotal
    cases hmid : applyPeriodUsage plan
        (setAmountUsed sub (newUsed sub.amountUsed delta) (newUsed_nonneg _ _)) delta with
    | error e =>
      rw [hmid] at h
      cases h
    | ok mid =>
      rw [hmid] at h
      obtain ⟨⟨usage, rfl⟩, hmodel⟩ := applyModelUsage_ok h (trimSpace_trimSpace _)
      obtain ⟨⟨used, hused, rfl⟩, hperiod⟩ := applyPeriodUsage_ok hmid
      exact ⟨htotal, hperiod, hmodel⟩

end Success

section Agreement

variable {plan : SubscriptionPlan} {sub : UserSubscription} {modelName : String} {amount : Int}

/-- A request that is admitted is counted within the limits, and one that is not would have been
refused. -/
structure Agrees (plan : SubscriptionPlan) (sub : UserSubscription) (modelName : String)
    (amount : Int) : Prop where
  admitted : admits plan sub modelName amount = true → ∃ sub',
    applySubscriptionUsageDelta plan sub modelName amount = .ok sub' ∧
      Within plan sub' (trimSpace modelName)
  skipped : admits plan sub modelName amount = false → ∃ err,
    applySubscriptionUsageDelta plan sub modelName amount = .error err

/-- One of the limits is exceeded. -/
def Exceeded (plan : SubscriptionPlan) (sub : UserSubscription) (modelName : String)
    (amount : Int) : Prop :=
  0 < sub.amountTotal ∧ Exceeds sub.amountUsed amount sub.amountTotal ∨
    countsPeriod plan sub = true ∧
      Exceeds sub.periodUsed amount (getSubscriptionPeriodAmount plan sub) ∨
    limitsModel sub (trimSpace modelName) ∧
      Exceeds (modelUsage sub (trimSpace modelName)) amount (modelLimit sub (trimSpace modelName))

/-- No sum with the total or the period leaves the 64 bits. -/
def Countable (plan : SubscriptionPlan) (sub : UserSubscription) (amount : Int) : Prop :=
  (0 < sub.amountTotal → sub.amountUsed + amount < 2 ^ 63) ∧
    (countsPeriod plan sub = true → sub.periodUsed + amount < 2 ^ 63)

theorem getSubscriptionPeriodAmount_pos (h : countsPeriod plan sub = true) :
    0 < getSubscriptionPeriodAmount plan sub := by
  unfold countsPeriod at h
  rw [Bool.and_eq_true] at h
  exact of_decide_eq_true h.2

/-- A request is admitted when the sums with the total and the period stay within their limits, and
the usage of the model does. -/
theorem admits_iff (hcounts : Counts64 plan sub (trimSpace modelName)) :
    admits plan sub modelName amount = true ↔
      (0 < sub.amountTotal → sub.amountUsed + amount ≤ sub.amountTotal) ∧
      (countsPeriod plan sub = true →
        sub.periodUsed + amount ≤ getSubscriptionPeriodAmount plan sub) ∧
      (limitsModel sub (trimSpace modelName) →
        newUsed (modelUsage sub (trimSpace modelName)) amount ≤
          modelLimit sub (trimSpace modelName)) := by
  have htotal : 0 < sub.amountTotal → (wrap64 (sub.amountTotal - sub.amountUsed) < amount ↔
      sub.amountTotal < sub.amountUsed + amount) := fun h =>
    remain_lt_iff sub.amountUsed_nonneg hcounts.amountUsed h.le hcounts.amountTotal
  have hperiod : countsPeriod plan sub = true →
      (wrap64 (getSubscriptionPeriodAmount plan sub - sub.periodUsed) < amount ↔
        getSubscriptionPeriodAmount plan sub < sub.periodUsed + amount) := fun h =>
    remain_lt_iff sub.periodUsed_nonneg hcounts.periodUsed (getSubscriptionPeriodAmount_pos h).le
      hcounts.periodAmount
  have hmodel : limitsModel sub (trimSpace modelName) →
      (wrap64 (modelUsage sub (trimSpace modelName) + amount) >
          modelLimit sub (trimSpace modelName) ↔
        newUsed (modelUsage sub (trimSpace modelName)) amount >
          modelLimit sub (trimSpace modelName)) := by
    intro h
    have hlimit := h.2
    unfold newUsed
    dsimp only
    split <;> omega
  unfold admits
  simp only [Bool.and_eq_true, Bool.not_eq_true', Bool.and_eq_false_iff, decide_eq_false_iff_not,
    and_assoc]
  refine and_congr ?_ (and_congr ?_ ?_)
  · by_cases h : 0 < sub.amountTotal
    · simp only [h, not_true_eq_false, false_or, htotal h, not_lt, forall_const]
    · simp [h]
  · by_cases h : countsPeriod plan sub = true
    · simp [h, hperiod h]
    · simp [h]
  · by_cases h : limitsModel sub (trimSpace modelName)
    · have hmodel := hmodel h
      simp [h.1, h.2, h, hmodel]
    · by_cases hne : trimSpace modelName = ""
      · simp [hne, limitsModel]
      · have hlimit : ¬ 0 < modelLimit sub (trimSpace modelName) := fun hlimit => h ⟨hne, hlimit⟩
        simp [hne, hlimit, h]

theorem counted_iff (hcounts : Counts64 plan sub (trimSpace modelName)) (hpos : 0 < amount)
    (hamount : amount < 2 ^ 63) :
    (∃ sub', applySubscriptionUsageDelta plan sub modelName amount = .ok sub') ↔
      ¬ Exceeded plan sub modelName amount := by
  have htotal := fun h : 0 < sub.amountTotal =>
    newUsed_le_iff sub.amountUsed_nonneg hcounts.amountUsed hpos hamount h.le
  have hperiod := fun h : countsPeriod plan sub = true =>
    newUsed_le_iff sub.periodUsed_nonneg hcounts.periodUsed hpos hamount
      (getSubscriptionPeriodAmount_pos h).le
  have hmodel := fun h : limitsModel sub (trimSpace modelName) =>
    newUsed_le_iff (modelUsage_nonneg sub (trimSpace modelName)) hcounts.modelUsage hpos hamount
      h.2.le
  rw [applySubscriptionUsageDelta_succeeds_iff (by omega)]
  unfold Exceeded
  rw [not_or, not_or, not_and, not_and, not_and]
  exact and_congr (forall_congr' htotal) (and_congr (forall_congr' hperiod) (forall_congr' hmodel))

/-- What is admitted is counted, whatever the sums. -/
theorem admitted_counted (hcounts : Counts64 plan sub (trimSpace modelName)) (hpos : 0 < amount)
    (hamount : amount < 2 ^ 63) (h : admits plan sub modelName amount = true) :
    ∃ sub', applySubscriptionUsageDelta plan sub modelName amount = .ok sub' ∧
      Within plan sub' (trimSpace modelName) := by
  obtain ⟨htotal, hperiod, hmodel⟩ := (admits_iff hcounts).1 h
  have hok : ∃ sub', applySubscriptionUsageDelta plan sub modelName amount = .ok sub' := by
    rw [applySubscriptionUsageDelta_succeeds_iff (by omega)]
    refine ⟨fun ht => ?_, fun hc => ?_, hmodel⟩
    · rw [newUsed_le_iff sub.amountUsed_nonneg hcounts.amountUsed hpos hamount ht.le]
      exact fun hex => absurd (htotal ht) (not_le.2 hex.1)
    · rw [newUsed_le_iff sub.periodUsed_nonneg hcounts.periodUsed hpos hamount
        (getSubscriptionPeriodAmount_pos hc).le]
      exact fun hex => absurd (hperiod hc) (not_le.2 hex.1)
  obtain ⟨sub', hok⟩ := hok
  exact ⟨sub', hok, applySubscriptionUsageDelta_within (by omega) hok⟩

/-- Without sums beyond the 64 bits, what is counted is admitted. -/
theorem counted_admitted (hcounts : Counts64 plan sub (trimSpace modelName)) (hpos : 0 < amount)
    (hamount : amount < 2 ^ 63) (hcountable : Countable plan sub amount)
    (h : ¬ Exceeded plan sub modelName amount) : admits plan sub modelName amount = true := by
  have hmodel := ((applySubscriptionUsageDelta_succeeds_iff (by omega)).1
    ((counted_iff hcounts hpos hamount).2 h)).2.2
  unfold Exceeded Exceeds at h
  push Not at h
  rw [admits_iff hcounts]
  refine ⟨fun ht => ?_, fun hc => ?_, hmodel⟩
  · by_contra hlt
    exact absurd (h.1 ht (not_le.1 hlt)) (not_le.2 (hcountable.1 ht))
  · by_contra hlt
    exact absurd (h.2.1 hc (not_le.1 hlt)) (not_le.2 (hcountable.2 hc))

/-- What is admitted leaves no sum beyond the 64 bits. -/
theorem countable_of_admitted (hcounts : Counts64 plan sub (trimSpace modelName))
    (h : admits plan sub modelName amount = true) : Countable plan sub amount := by
  obtain ⟨htotal, hperiod, -⟩ := (admits_iff hcounts).1 h
  exact ⟨fun ht => (htotal ht).trans_lt hcounts.amountTotal,
    fun hc => (hperiod hc).trans_lt hcounts.periodAmount⟩

/-- The tests before a request and those at its usage agree exactly as long as no sum with the total
or the period leaves the 64 bits, or where a limit is exceeded anyway. -/
theorem admission_agrees_iff (plan : SubscriptionPlan) (sub : UserSubscription) (modelName : String)
    (amount : Int) (hcounts : Counts64 plan sub (trimSpace modelName)) (hpos : 0 < amount)
    (hamount : amount < 2 ^ 63) :
    Agrees plan sub modelName amount ↔
      Countable plan sub amount ∨ Exceeded plan sub modelName amount := by
  have hcounted := @counted_iff plan sub modelName amount hcounts hpos hamount
  constructor
  · intro hagrees
    by_contra hnot
    rw [not_or] at hnot
    obtain ⟨sub', hok⟩ := hcounted.2 hnot.2
    cases hadmits : admits plan sub modelName amount with
    | true => exact hnot.1 (countable_of_admitted hcounts hadmits)
    | false =>
      obtain ⟨err, herr⟩ := hagrees.skipped hadmits
      cases herr.symm.trans hok
  · intro h
    refine ⟨admitted_counted hcounts hpos hamount, fun hskipped => ?_⟩
    cases hrun : applySubscriptionUsageDelta plan sub modelName amount with
    | error err => exact ⟨err, rfl⟩
    | ok sub' =>
      have hwithin := hcounted.1 ⟨sub', hrun⟩
      have hadmits := counted_admitted hcounts hpos hamount (h.resolve_right hwithin) hwithin
      cases hskipped.symm.trans hadmits

def samplePlan : SubscriptionPlan := { id := 1, totalAmount := 100, quotaResetPeriod := "daily" }

def sampleSub : UserSubscription :=
  { id := 1, userID := 7, planID := 1, amountTotal := 100, amountUsed := 40, periodAmount := 50
    periodUsed := 10, modelLimits := [("gpt-4o", 30)], modelUsage := [("gpt-4o", 5)] }

theorem admission_agrees_sample : Agrees samplePlan sampleSub " gpt-4o" 20 :=
  (admission_agrees_iff samplePlan sampleSub " gpt-4o" 20
    ⟨by decide +kernel, by decide +kernel, by decide +kernel, by decide +kernel, by decide +kernel,
      by decide +kernel⟩ (by decide) (by decide)).2
    (.inl ⟨by decide +kernel, by decide +kernel⟩)

/-- The largest amount is not admitted, and counted as nothing. -/
theorem largest_amount_counted : ¬ Agrees samplePlan sampleSub "" (2 ^ 63 - 1) := by
  intro h
  obtain ⟨err, herr⟩ := h.skipped (by decide)
  have hok : (applySubscriptionUsageDelta samplePlan sampleSub "" (2 ^ 63 - 1)).toOption.map
      (·.amountUsed) = some 0 := by decide +kernel
  rw [herr] at hok
  cases hok

end Agreement

end CodeGo.Commerce.Admission
