import CodeGo.Commerce.Schema

/-!
# Rules of a subscription

`internal/commerce/domain/subscription_rules.go`, `subscription_quota.go` and the
functions of `subscription_mutation_support.go` and `subscription_store.go` that
only compute: quota maps, periods, tiers and the effect of usage on a row.
-/

namespace CodeGo.Commerce.SubscriptionRules

open Lib.Trim Billing.Schema Schema

def normalizeSubscriptionModelQuotaMap (input : ModelQuotaMap) : ModelQuotaMap :=
  input.filterMap fun e =>
    if trimSpace e.1 = "" ∨ e.2 ≤ 0 then none else some (trimSpace e.1, e.2)

/-- `m[key]`, 0 without such a key. -/
def getQuota (m : ModelQuotaMap) (key : String) : Int := (m.lookup key).getD 0

/-- `delete(m, key)` for the value 0, `m[key] = value` otherwise. -/
def putQuota (m : ModelQuotaMap) (key : String) (value : Int) : ModelQuotaMap :=
  if value = 0 then m.filter (·.1 ≠ key) else (key, value) :: m.filter (·.1 ≠ key)

/-- Keys are trimmed and not empty, quotas are positive. -/
def Normal (m : ModelQuotaMap) : Prop := ∀ e ∈ m, trimSpace e.1 = e.1 ∧ e.1 ≠ "" ∧ 0 < e.2

theorem normal_normalize (m : ModelQuotaMap) : Normal (normalizeSubscriptionModelQuotaMap m) := by
  intro e he
  obtain ⟨x, -, hx⟩ := List.mem_filterMap.1 he
  split at hx
  next => cases hx
  next hkeep =>
    cases hx
    simp only [not_or, not_le] at hkeep
    exact ⟨trimSpace_trimSpace _, hkeep⟩

theorem normalize_of_normal {m : ModelQuotaMap} (h : Normal m) :
    normalizeSubscriptionModelQuotaMap m = m := by
  induction m with
  | nil => rfl
  | cons e rest ih =>
    obtain ⟨htrim, hne, hpos⟩ := h e (.head _)
    have hrest := ih fun x hx => h x (.tail _ hx)
    unfold normalizeSubscriptionModelQuotaMap at hrest ⊢
    rw [List.filterMap_cons, htrim, if_neg (by simp [hne, hpos]), hrest]

theorem getQuota_cons (e : String × Int) (m : ModelQuotaMap) (key : String) :
    getQuota (e :: m) key = if key = e.1 then e.2 else getQuota m key := by
  unfold getQuota
  rw [List.lookup_cons]
  split
  next h =>
    rw [if_pos (by simpa using h)]
    rfl
  next h =>
    rw [if_neg (by simpa using h)]

theorem getQuota_filter (m : ModelQuotaMap) (key key' : String) :
    getQuota (m.filter (·.1 ≠ key)) key' = if key' = key then 0 else getQuota m key' := by
  induction m with
  | nil => simp [getQuota]
  | cons e rest ih =>
    rw [List.filter_cons]
    by_cases he : e.1 = key
    · rw [if_neg (by simp [he]), ih, getQuota_cons]
      by_cases hkey : key' = key
      · rw [if_pos hkey, if_pos hkey]
      · rw [if_neg hkey, if_neg hkey, if_neg (by rw [he]; exact hkey)]
    · rw [if_pos (by simp [he]), getQuota_cons, getQuota_cons, ih]
      by_cases hkey : key' = e.1
      · rw [if_pos hkey, if_neg (by rw [hkey]; exact he), if_pos hkey]
      · rw [if_neg hkey, if_neg hkey]

theorem getQuota_putQuota (m : ModelQuotaMap) (key key' : String) (value : Int) :
    getQuota (putQuota m key value) key' = if key' = key then value else getQuota m key' := by
  unfold putQuota
  split
  next hzero => rw [getQuota_filter, hzero]
  next =>
    rw [getQuota_cons, getQuota_filter]
    by_cases hkey : key' = key
    · rw [if_pos hkey, if_pos hkey]
    · rw [if_neg hkey, if_neg hkey, if_neg hkey]

theorem Normal.putQuota {m : ModelQuotaMap} (h : Normal m) {key : String} {value : Int}
    (htrim : trimSpace key = key) (hne : key ≠ "") (hvalue : 0 ≤ value) :
    Normal (putQuota m key value) := by
  have hfilter : Normal (m.filter (·.1 ≠ key)) := fun e he => h e (List.mem_of_mem_filter he)
  unfold SubscriptionRules.putQuota
  split
  next => exact hfilter
  next hnonzero =>
    intro e he
    rcases List.mem_cons.1 he with rfl | he
    · exact ⟨htrim, hne, by dsimp only; omega⟩
    · exact hfilter e he

theorem getQuota_nonneg {m : ModelQuotaMap} (h : Normal m) (key : String) : 0 ≤ getQuota m key := by
  induction m with
  | nil => exact le_refl 0
  | cons e rest ih =>
    rw [getQuota_cons]
    split
    · exact (h e (.head _)).2.2.le
    · exact ih fun x hx => h x (.tail _ hx)

inductive ResetPeriod where
  | never | daily | weekly | monthly | custom
  deriving DecidableEq, Repr

def normalizeResetPeriod (period : String) : ResetPeriod :=
  if trimSpace period = "daily" then .daily
  else if trimSpace period = "weekly" then .weekly
  else if trimSpace period = "monthly" then .monthly
  else if trimSpace period = "custom" then .custom
  else .never

/-- The calendar of the time zone of the server, on Unix times. -/
structure Calendar where
  /-- the midnight that ends the day -/
  nextDay : Int → Int
  /-- the same time of day a number of days, months or years later -/
  addDate : Int → Int → Int → Int → Int
  /-- the midnight before the first day of the next month -/
  nextMonth : Int → Int
  lt_nextDay : ∀ t, t < nextDay t
  lt_addDays : ∀ t, t < addDate t 0 0 7
  lt_nextMonth : ∀ t, t < nextMonth t

/-- A calendar of 28-day months and 336-day years, for samples. -/
def sampleCalendar : Calendar where
  nextDay t := t + 86400
  addDate t years months days := t + 86400 * (days + 28 * months + 336 * years)
  nextMonth t := t + 86400 * 28
  lt_nextDay t := by omega
  lt_addDays t := by omega
  lt_nextMonth t := by omega

/-- The next reset, 0 for none. -/
def calcNextSubscriptionResetTime (cal : Calendar) (base : Int) (plan : SubscriptionPlan)
    (endUnix : Int) : Int :=
  let within (next : Int) : Int := if endUnix > 0 ∧ next > endUnix then 0 else next
  match normalizeResetPeriod plan.quotaResetPeriod with
  | .never => 0
  | .daily => within (cal.nextDay base)
  | .weekly => within (cal.addDate base 0 0 7)
  | .monthly => within (cal.nextMonth base)
  | .custom =>
    if plan.quotaResetCustomSeconds ≤ 0 then 0 else within (base + plan.quotaResetCustomSeconds)

theorem calcNextSubscriptionResetTime_gt (cal : Calendar) (base : Int) (plan : SubscriptionPlan)
    (endUnix : Int) :
    calcNextSubscriptionResetTime cal base plan endUnix = 0 ∨
      base < calcNextSubscriptionResetTime cal base plan endUnix := by
  have hday := cal.lt_nextDay base
  have hweek := cal.lt_addDays base
  have hmonth := cal.lt_nextMonth base
  unfold calcNextSubscriptionResetTime
  dsimp only
  cases normalizeResetPeriod plan.quotaResetPeriod with
  | never => exact .inl rfl
  | daily => dsimp only; split <;> omega
  | weekly => dsimp only; split <;> omega
  | monthly => dsimp only; split <;> omega
  | custom =>
    dsimp only
    split
    · exact .inl rfl
    · split <;> omega

/-- The loop of the reset: the last reset that is due, and the one after it. -/
def advanceReset (cal : Calendar) (plan : SubscriptionPlan) (endUnix now base next : Int) :
    Int × Int :=
  if _h : 0 < next ∧ next ≤ now then
    advanceReset cal plan endUnix now next (calcNextSubscriptionResetTime cal next plan endUnix)
  else (base, next)
termination_by (if 0 < next then now + 1 - next else 0).toNat
decreasing_by
  have := calcNextSubscriptionResetTime_gt cal next plan endUnix
  split <;> split <;> omega

def isSubscriptionDayPassPlan (plan : SubscriptionPlan) : Bool :=
  plan.durationUnit = .day && 0 < plan.durationValue && plan.durationValue ≤ 2

def usesLegacySubscriptionPeriodicQuota (plan : SubscriptionPlan) (sub : UserSubscription) : Bool :=
  normalizeResetPeriod plan.quotaResetPeriod ≠ .never && sub.periodAmount ≤ 0 && 0 < sub.amountTotal

def getSubscriptionPeriodAmount (plan : SubscriptionPlan) (sub : UserSubscription) : Int :=
  if sub.periodAmount > 0 then sub.periodAmount
  else if usesLegacySubscriptionPeriodicQuota plan sub then sub.amountTotal
  else if plan.periodAmount > 0 then plan.periodAmount
  else 0

section Usage

def usedExceedsTotal (used total : Int) : Err :=
  .message ("subscription used exceeds total, used=" ++ toString used ++ " total=" ++ toString total)

def periodExceeded (used period : Int) : Err :=
  .message ("subscription period quota exceeded, used=" ++ toString used ++ " period=" ++
    toString period)

def modelExceeded (model : String) (used limit : Int) : Err :=
  .message ("subscription model quota exceeded, model=" ++ model ++ " used=" ++ toString used ++
    " limit=" ++ toString limit)

def addUsage (sub : UserSubscription) (delta : Int) : UserSubscription :=
  { sub with
    amountUsed := max 0 (sub.amountUsed + delta)
    amountUsed_nonneg := le_max_left _ _ }

def addPeriodUsage (sub : UserSubscription) (delta : Int) : UserSubscription :=
  { sub with
    periodUsed := max 0 (sub.periodUsed + delta)
    periodUsed_nonneg := le_max_left _ _ }

/-- Whether the period of the subscription is counted in `periodUsed`. -/
def countsPeriod (plan : SubscriptionPlan) (sub : UserSubscription) : Bool :=
  !usesLegacySubscriptionPeriodicQuota plan sub && 0 < getSubscriptionPeriodAmount plan sub

def applyPeriodUsage (plan : SubscriptionPlan) (sub : UserSubscription) (delta : Int) :
    Except Err UserSubscription :=
  if countsPeriod plan sub then
    if (addPeriodUsage sub delta).periodUsed > getSubscriptionPeriodAmount plan sub then
      .error (periodExceeded (addPeriodUsage sub delta).periodUsed (getSubscriptionPeriodAmount plan sub))
    else .ok (addPeriodUsage sub delta)
  else .ok sub

/-- The limit of a model, 0 for none. -/
def modelLimit (sub : UserSubscription) (model : String) : Int :=
  getQuota (normalizeSubscriptionModelQuotaMap sub.modelLimits) model

/-- The usage of a model. -/
def modelUsage (sub : UserSubscription) (model : String) : Int :=
  getQuota (normalizeSubscriptionModelQuotaMap sub.modelUsage) model

def applyModelUsage (sub : UserSubscription) (model : String) (delta : Int) :
    Except Err UserSubscription :=
  if model = "" ∨ modelLimit sub model ≤ 0 then .ok sub
  else if max 0 (modelUsage sub model + delta) > modelLimit sub model then
    .error (modelExceeded model (max 0 (modelUsage sub model + delta)) (modelLimit sub model))
  else
    let usage := putQuota (normalizeSubscriptionModelQuotaMap sub.modelUsage) model
      (max 0 (modelUsage sub model + delta))
    .ok { sub with modelUsage := normalizeSubscriptionModelQuotaMap usage }

def applySubscriptionUsageDelta (plan : SubscriptionPlan) (sub : UserSubscription)
    (modelName : String) (delta : Int) : Except Err UserSubscription :=
  if delta = 0 then .ok sub
  else if 0 < sub.amountTotal ∧ (addUsage sub delta).amountUsed > sub.amountTotal then
    .error (usedExceedsTotal (addUsage sub delta).amountUsed sub.amountTotal)
  else do
    let sub ← applyPeriodUsage plan (addUsage sub delta) delta
    applyModelUsage sub (trimSpace modelName) delta

/-- What a subscription grants: its row without the usage and the times of the resets. -/
def terms (sub : UserSubscription) : UserSubscription :=
  { sub with
    amountUsed := 0, amountUsed_nonneg := le_rfl
    periodUsed := 0, periodUsed_nonneg := le_rfl
    modelUsage := [], lastResetTime := 0, nextResetTime := 0 }

/-- The model has a limit of its own. -/
def limitsModel (sub : UserSubscription) (model : String) : Prop :=
  model ≠ "" ∧ 0 < modelLimit sub model

/-- Usage of `delta` was recorded in the row; below zero it stops. -/
structure Used (plan : SubscriptionPlan) (sub sub' : UserSubscription) (model : String)
    (delta : Int) : Prop where
  terms : terms sub' = terms sub
  lastResetTime : sub'.lastResetTime = sub.lastResetTime
  amountUsed : sub'.amountUsed = max 0 (sub.amountUsed + delta)
  periodUsed : sub'.periodUsed =
    if countsPeriod plan sub then max 0 (sub.periodUsed + delta) else sub.periodUsed
  limited : limitsModel sub model →
    modelUsage sub' model = max 0 (modelUsage sub model + delta)
  models : ∀ key, key ≠ model ∨ ¬ limitsModel sub model → modelUsage sub' key = modelUsage sub key

/-- The usage of the row is within its total, the period and the limit of the model. -/
structure Within (plan : SubscriptionPlan) (sub : UserSubscription) (model : String) : Prop where
  total : 0 < sub.amountTotal → sub.amountUsed ≤ sub.amountTotal
  period : countsPeriod plan sub = true → sub.periodUsed ≤ getSubscriptionPeriodAmount plan sub
  model : limitsModel sub model → modelUsage sub model ≤ modelLimit sub model

variable {plan : SubscriptionPlan} {sub sub' : UserSubscription} {model : String} {delta : Int}

theorem modelUsage_nonneg (sub : UserSubscription) (model : String) : 0 ≤ modelUsage sub model :=
  getQuota_nonneg (normal_normalize _) model

/-- What the terms of a row decide. -/
theorem rules_of_terms (plan : SubscriptionPlan) (h : terms sub' = terms sub) :
    sub'.id = sub.id ∧ sub'.amountTotal = sub.amountTotal ∧
      countsPeriod plan sub' = countsPeriod plan sub ∧
      getSubscriptionPeriodAmount plan sub' = getSubscriptionPeriodAmount plan sub ∧
      usesLegacySubscriptionPeriodicQuota plan sub' = usesLegacySubscriptionPeriodicQuota plan sub ∧
      ∀ key, modelLimit sub' key = modelLimit sub key := by
  have hrules : ∀ sub : UserSubscription, sub.id = (terms sub).id ∧
      sub.amountTotal = (terms sub).amountTotal ∧
      countsPeriod plan sub = countsPeriod plan (terms sub) ∧
      getSubscriptionPeriodAmount plan sub = getSubscriptionPeriodAmount plan (terms sub) ∧
      usesLegacySubscriptionPeriodicQuota plan sub =
        usesLegacySubscriptionPeriodicQuota plan (terms sub) ∧
      ∀ key, modelLimit sub key = modelLimit (terms sub) key :=
    fun sub => ⟨rfl, rfl, rfl, rfl, rfl, fun _ => rfl⟩
  obtain ⟨h₁, h₂, h₃, h₄, h₅, h₆⟩ := hrules sub'
  rw [h] at h₁ h₂ h₃ h₄ h₅
  exact ⟨h₁, h₂, h₃, h₄, h₅, fun key => by rw [h₆ key, h]; rfl⟩

theorem applyPeriodUsage_ok (h : applyPeriodUsage plan sub delta = .ok sub') :
    sub' = (if countsPeriod plan sub then addPeriodUsage sub delta else sub) ∧
      (countsPeriod plan sub = true → sub'.periodUsed ≤ getSubscriptionPeriodAmount plan sub) := by
  unfold applyPeriodUsage at h
  split at h
  next hc =>
    split at h
    · cases h
    next hle =>
      cases h
      rw [if_pos hc]
      exact ⟨rfl, fun _ => not_lt.1 hle⟩
  next hc =>
    cases h
    rw [if_neg hc]
    exact ⟨rfl, fun h => absurd h hc⟩

/-- The usage of a model is its own column. -/
theorem applyModelUsage_ok (h : applyModelUsage sub model delta = .ok sub')
    (htrim : trimSpace model = model) :
    (∃ usage, sub' = { sub with modelUsage := usage }) ∧
      (limitsModel sub model → modelUsage sub' model = max 0 (modelUsage sub model + delta) ∧
        modelUsage sub' model ≤ modelLimit sub model) ∧
      ∀ key, key ≠ model ∨ ¬ limitsModel sub model → modelUsage sub' key = modelUsage sub key := by
  unfold applyModelUsage at h
  split at h
  next hnone =>
    cases h
    refine ⟨⟨sub.modelUsage, rfl⟩, ?_, fun _ _ => rfl⟩
    rintro ⟨hne, hlimit⟩
    rcases hnone with he | hle
    · exact absurd he hne
    · omega
  next hsome =>
    simp only [not_or, not_le] at hsome
    split at h
    · cases h
    next hle =>
      cases h
      have hnormal := (normal_normalize sub.modelUsage).putQuota htrim hsome.1
        (le_max_left 0 (modelUsage sub model + delta))
      refine ⟨⟨_, rfl⟩, fun _ => ?_, fun key hkey => ?_⟩
      · rw [modelUsage, normalize_of_normal (normal_normalize _), normalize_of_normal hnormal,
          getQuota_putQuota, if_pos rfl]
        exact ⟨rfl, not_lt.1 hle⟩
      · rw [modelUsage, normalize_of_normal (normal_normalize _), normalize_of_normal hnormal,
          getQuota_putQuota, if_neg (hkey.resolve_right (not_not.2 hsome))]
        rfl

theorem applySubscriptionUsageDelta_ok
    (h : applySubscriptionUsageDelta plan sub model delta = .ok sub') :
    Used plan sub sub' (trimSpace model) delta ∧
      (delta ≠ 0 → Within plan sub' (trimSpace model)) := by
  unfold applySubscriptionUsageDelta at h
  split at h
  next hzero =>
    cases h
    have hamount := sub.amountUsed_nonneg
    have hperiod := sub.periodUsed_nonneg
    have hmodel := modelUsage_nonneg sub (trimSpace model)
    refine ⟨⟨rfl, rfl, by omega, by split <;> omega, fun _ => by omega, fun _ _ => rfl⟩, ?_⟩
    exact fun hne => absurd hzero hne
  next hnonzero =>
    split at h
    · cases h
    next htotal =>
      rw [not_and, not_lt] at htotal
      -- the total, then the period, then the model
      cases hmid : applyPeriodUsage plan (addUsage sub delta) delta with
      | error e =>
        rw [hmid] at h
        cases h
      | ok mid =>
        rw [hmid] at h
        obtain ⟨⟨usage, rfl⟩, hlimited, hothers⟩ := applyModelUsage_ok h (trimSpace_trimSpace _)
        obtain ⟨rfl, hwithin⟩ := applyPeriodUsage_ok hmid
        have hcounts : countsPeriod plan (addUsage sub delta) = countsPeriod plan sub := rfl
        rw [hcounts] at hlimited hothers hwithin ⊢
        cases hc : countsPeriod plan sub with
        | true =>
          rw [hc] at hlimited hothers hwithin
          exact ⟨⟨rfl, rfl, rfl, by rw [hc]; rfl, fun hl => (hlimited hl).1, hothers⟩, fun _ =>
            ⟨htotal, fun _ => hwithin rfl,
              fun hl => (hlimited hl).2⟩⟩
        | false =>
          rw [hc] at hlimited hothers
          exact ⟨⟨rfl, rfl, rfl, by rw [hc]; rfl, fun hl => (hlimited hl).1, hothers⟩, fun _ =>
            ⟨htotal, fun h => absurd (hc.symm.trans h) (by decide),
              fun hl => (hlimited hl).2⟩⟩

theorem applySubscriptionUsageDelta_succeeds
    (htotal : 0 < sub.amountTotal → max 0 (sub.amountUsed + delta) ≤ sub.amountTotal)
    (hperiod : countsPeriod plan sub = true →
      max 0 (sub.periodUsed + delta) ≤ getSubscriptionPeriodAmount plan sub)
    (hmodel : limitsModel sub (trimSpace model) →
      max 0 (modelUsage sub (trimSpace model) + delta) ≤ modelLimit sub (trimSpace model)) :
    ∃ sub', applySubscriptionUsageDelta plan sub model delta = .ok sub' := by
  unfold applySubscriptionUsageDelta
  split
  · exact ⟨sub, rfl⟩
  rw [if_neg (fun h => absurd (htotal h.1) (not_le.2 h.2))]
  have hmid : ∃ mid, applyPeriodUsage plan (addUsage sub delta) delta = .ok mid := by
    unfold applyPeriodUsage
    split
    next hc =>
      have hle : ¬ (addPeriodUsage (addUsage sub delta) delta).periodUsed >
          getSubscriptionPeriodAmount plan (addUsage sub delta) := not_lt.2 (hperiod hc)
      rw [if_neg hle]
      exact ⟨_, rfl⟩
    next => exact ⟨_, rfl⟩
  obtain ⟨mid, hmid⟩ := hmid
  have hmidModel : modelUsage mid (trimSpace model) = modelUsage sub (trimSpace model) ∧
      modelLimit mid (trimSpace model) = modelLimit sub (trimSpace model) := by
    rw [(applyPeriodUsage_ok hmid).1]
    split <;> exact ⟨rfl, rfl⟩
  rw [hmid]
  show ∃ sub', applyModelUsage mid (trimSpace model) delta = .ok sub'
  unfold applyModelUsage
  rw [hmidModel.1, hmidModel.2]
  split
  · exact ⟨mid, rfl⟩
  next hsome =>
    simp only [not_or, not_le] at hsome
    rw [if_neg (not_lt.2 (hmodel hsome))]
    exact ⟨_, rfl⟩

/-- Usage that was recorded can be taken back, and the row is as before. -/
theorem applySubscriptionUsageDelta_undo
    (h : applySubscriptionUsageDelta plan sub model delta = .ok sub') (hpos : 0 < delta) :
    ∃ sub'', applySubscriptionUsageDelta plan sub' model (-delta) = .ok sub'' ∧
      sub''.amountUsed = sub.amountUsed ∧ sub''.periodUsed = sub.periodUsed ∧
      ∀ key, modelUsage sub'' key = modelUsage sub key := by
  obtain ⟨hused, hwithin⟩ := applySubscriptionUsageDelta_ok h
  replace hwithin := hwithin (by omega)
  obtain ⟨-, htotal, hcounts, hamount, -, hlimit⟩ := rules_of_terms plan hused.terms
  have hnonneg := sub.amountUsed_nonneg
  have hperiod := sub.periodUsed_nonneg
  have hmodel := modelUsage_nonneg sub (trimSpace model)
  have husedAmount := hused.amountUsed
  have husedPeriod := hused.periodUsed
  have hlimits : limitsModel sub' (trimSpace model) ↔ limitsModel sub (trimSpace model) := by
    unfold limitsModel
    rw [hlimit]
  have hundo : ∃ sub'', applySubscriptionUsageDelta plan sub' model (-delta) = .ok sub'' := by
    apply applySubscriptionUsageDelta_succeeds
    · intro hpos
      have := hwithin.total hpos
      omega
    · intro hc
      have := hwithin.period hc
      rw [hcounts] at hc
      rw [if_pos hc] at husedPeriod
      omega
    · intro hl
      have hle := hwithin.model hl
      have hsum := hused.limited (hlimits.1 hl)
      omega
  obtain ⟨sub'', hundo⟩ := hundo
  obtain ⟨hback, -⟩ := applySubscriptionUsageDelta_ok hundo
  have hbackAmount := hback.amountUsed
  have hbackPeriod := hback.periodUsed
  rw [hcounts] at hbackPeriod
  refine ⟨sub'', hundo, by omega, ?_, fun key => ?_⟩
  · split at hbackPeriod
    next hc =>
      rw [if_pos hc] at husedPeriod
      omega
    next hc =>
      rw [if_neg hc] at husedPeriod
      omega
  · by_cases hkey : key = trimSpace model ∧ limitsModel sub (trimSpace model)
    · obtain ⟨rfl, hl⟩ := hkey
      have hsum := hused.limited hl
      have hsum' := hback.limited (hlimits.2 hl)
      omega
    · have hother : key ≠ trimSpace model ∨ ¬ limitsModel sub (trimSpace model) := by
        by_cases hk : key = trimSpace model
        · exact .inr fun hl => hkey ⟨hk, hl⟩
        · exact .inl hk
      rw [hback.models key (by rw [hlimits]; exact hother), hused.models key hother]

end Usage

end CodeGo.Commerce.SubscriptionRules
