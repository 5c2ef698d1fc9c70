import CodeGo.Commerce.SubscriptionFunding
import CodeGo.Lib.Civil

/-!
# The times of resets

`subscription_mutation_support.go` in UTC and with durations of 64 bits: a custom period is a
number of nanoseconds there, which wraps. For periods that fit the loop that catches up with the
clock is the one of `SubscriptionRules`, and ends.
-/

namespace CodeGo.Commerce.ResetTimes

open Lib Lib.Civil Schema
open SubscriptionRules (Calendar ResetPeriod normalizeResetPeriod advanceReset)
open SubscriptionFunding (resetBase)

/-- The calendar of UTC. -/
def utc : Calendar where
  nextDay t := 86400 * (t / 86400 + 1)
  addDate t years months days :=
    let day := t / 86400
    let month := monthIndex day
    86400 * (monthStart (month + 12 * years + months) + (day - monthStart month) + days) + t % 86400
  nextMonth t := 86400 * monthStart (monthIndex (t / 86400) + 1)
  lt_nextDay t := by omega
  lt_addDays t := by
    show t < 86400 * (monthStart (monthIndex (t / 86400) + 12 * 0 + 0) + _ + 7) + t % 86400
    rw [show monthIndex (t / 86400) + 12 * 0 + 0 = monthIndex (t / 86400) by omega]
    omega
  lt_nextMonth t := by
    have h := (monthIndex_spec (t / 86400)).2
    omega

/-- `time.Duration(seconds) * time.Second` -/
def durationOfSeconds (seconds : Int) : Int := Wrap.wrap64 (seconds * 1000000000)

/-- The Unix time of `base.Add(duration)`. -/
def addDuration (base duration : Int) : Int := base + duration / 1000000000

/-- The next reset, 0 for none. -/
def calcNextSubscriptionResetTime (base : Int) (plan : SubscriptionPlan) (endUnix : Int) : Int :=
  let within (next : Int) : Int := if endUnix > 0 ∧ next > endUnix then 0 else next
  match normalizeResetPeriod plan.quotaResetPeriod with
  | .never => 0
  | .daily => within (utc.nextDay base)
  | .weekly => within (utc.addDate base 0 0 7)
  | .monthly => within (utc.nextMonth base)
  | .custom =>
    if plan.quotaResetCustomSeconds ≤ 0 then 0
    else within (addDuration base (durationOfSeconds plan.quotaResetCustomSeconds))

/-- The loop that catches up with the clock, for a number of tests of its condition. -/
def catchUp (plan : SubscriptionPlan) (endUnix now : Int) : Nat → Int → Int → Option (Int × Int)
  | 0, _, _ => none
  | fuel + 1, base, next =>
    if 0 < next ∧ next ≤ now then
      catchUp plan endUnix now fuel next (calcNextSubscriptionResetTime next plan endUnix)
    else some (base, next)

structure Times where
  lastResetTime : Int
  nextResetTime : Int
  deriving DecidableEq, Repr

/-- The times that `maybeResetUserSubscriptionWithPlanTx` leaves in the row. -/
def maybeResetTimes (fuel : Nat) (plan : SubscriptionPlan) (sub : UserSubscription) (now : Int) :
    Option Times :=
  let base := resetBase sub
  let next := calcNextSubscriptionResetTime base plan sub.endTime
  if normalizeResetPeriod plan.quotaResetPeriod = .never then
    some ⟨sub.lastResetTime, sub.nextResetTime⟩
  else if next = 0 ∨ next > now then some ⟨base, next⟩
  else
    let advanced := 0 < next ∧ next ≤ now
    (catchUp plan sub.endTime now fuel base next).map fun (base, next) =>
      if advanced then ⟨base, next⟩
      else if sub.nextResetTime = 0 ∧ next > 0 then ⟨base, next⟩
      else ⟨sub.lastResetTime, sub.nextResetTime⟩

/-- The test of `validateSubscriptionPlanInput` on the reset period. -/
def validQuotaReset (plan : SubscriptionPlan) : Bool :=
  !(normalizeResetPeriod plan.quotaResetPeriod = .custom && plan.quotaResetCustomSeconds ≤ 0)

section Termination

variable {plan : SubscriptionPlan} {sub : UserSubscription} {endUnix now base next : Int}

/-- A custom period that is a duration of 64 bits. -/
def FitsDuration (plan : SubscriptionPlan) : Prop :=
  normalizeResetPeriod plan.quotaResetPeriod = .custom →
    plan.quotaResetCustomSeconds * 1000000000 < 2 ^ 63

theorem calcNextSubscriptionResetTime_eq (h : FitsDuration plan) :
    calcNextSubscriptionResetTime base plan endUnix =
      SubscriptionRules.calcNextSubscriptionResetTime utc base plan endUnix := by
  unfold calcNextSubscriptionResetTime SubscriptionRules.calcNextSubscriptionResetTime
  cases hperiod : normalizeResetPeriod plan.quotaResetPeriod with
  | custom =>
    have hfits := h hperiod
    dsimp only
    split
    next => rfl
    next hpos =>
      have hduration : durationOfSeconds plan.quotaResetCustomSeconds =
          plan.quotaResetCustomSeconds * 1000000000 :=
        Wrap.wrap64_of_nonneg (by omega) hfits
      have hadd : addDuration base (durationOfSeconds plan.quotaResetCustomSeconds) =
          base + plan.quotaResetCustomSeconds := by
        rw [hduration, addDuration]
        omega
      rw [hadd]
  | never => rfl
  | daily => rfl
  | weekly => rfl
  | monthly => rfl

theorem calcNextSubscriptionResetTime_gt (h : FitsDuration plan) (base endUnix : Int) :
    calcNextSubscriptionResetTime base plan endUnix = 0 ∨
      base < calcNextSubscriptionResetTime base plan endUnix := by
  rw [calcNextSubscriptionResetTime_eq h]
  exact SubscriptionRules.calcNextSubscriptionResetTime_gt utc base plan endUnix

variable (endUnix now base next) in
/-- The loop ends, where the one of the rules does. -/
theorem catchUp_ends (h : FitsDuration plan) :
    ∃ fuel, catchUp plan endUnix now fuel base next =
      some (advanceReset utc plan endUnix now base next) := by
  induction base, next using SubscriptionRules.advanceReset.induct utc plan endUnix now with
  | case1 base next hdue ih =>
    obtain ⟨fuel, hfuel⟩ := ih
    refine ⟨fuel + 1, ?_⟩
    rw [advanceReset, dif_pos hdue, ← hfuel]
    show (if 0 < next ∧ next ≤ now then _ else _) = _
    rw [if_pos hdue, calcNextSubscriptionResetTime_eq h]
  | case2 base next hdue =>
    refine ⟨1, ?_⟩
    rw [advanceReset, dif_neg hdue]
    exact if_neg hdue

/-- Where the loop stops: at the last reset that is due, before the next one if there is one. -/
theorem advanceReset_spec (cal : Calendar) (plan : SubscriptionPlan) (endUnix base : Int)
    (hdue : 0 < next ∧ next ≤ now) :
    next ≤ (advanceReset cal plan endUnix now base next).1 ∧
      (advanceReset cal plan endUnix now base next).1 ≤ now ∧
      ((advanceReset cal plan endUnix now base next).2 = 0 ∨
        now < (advanceReset cal plan endUnix now base next).2) := by
  induction base, next using SubscriptionRules.advanceReset.induct cal plan endUnix now with
  | case1 base next _ ih =>
    rw [advanceReset, dif_pos hdue]
    have hgt := SubscriptionRules.calcNextSubscriptionResetTime_gt cal next plan endUnix
    by_cases hmore : 0 < SubscriptionRules.calcNextSubscriptionResetTime cal next plan endUnix ∧
        SubscriptionRules.calcNextSubscriptionResetTime cal next plan endUnix ≤ now
    · have hrest := ih hmore
      omega
    · rw [advanceReset, dif_neg hmore]
      dsimp only
      omega
  | case2 base next hnot => exact absurd hdue hnot

theorem resetBase_ge (hstart : 0 ≤ sub.startTime) : sub.lastResetTime ≤ resetBase sub := by
  unfold resetBase
  split <;> omega

theorem resetBase_nonneg (hstart : 0 ≤ sub.startTime) : 0 ≤ resetBase sub := by
  unfold resetBase
  split <;> omega

/-- The row catches up with the clock: it stands at a reset that is due, or where it began when
that lies ahead, and the next reset lies ahead of both. -/
theorem maybeResetTimes_catchesUp
    (hperiod : normalizeResetPeriod plan.quotaResetPeriod ≠ .never) (hfits : FitsDuration plan)
    (hstart : 0 ≤ sub.startTime) :
    ∃ fuel times, maybeResetTimes fuel plan sub now = some times ∧
      times.lastResetTime ≤ max now (resetBase sub) ∧
      (times.nextResetTime = 0 ∨ max now times.lastResetTime < times.nextResetTime) ∧
      sub.lastResetTime ≤ times.lastResetTime := by
  have hbase := resetBase_ge hstart
  have hnonneg := resetBase_nonneg hstart
  have hgt := calcNextSubscriptionResetTime_gt hfits (resetBase sub) sub.endTime
  generalize hnext : calcNextSubscriptionResetTime (resetBase sub) plan sub.endTime = next at hgt
  by_cases hahead : next = 0 ∨ next > now
  · have htimes : maybeResetTimes 0 plan sub now = some ⟨resetBase sub, next⟩ := by
      unfold maybeResetTimes
      dsimp only
      rw [if_neg hperiod, hnext, if_pos hahead]
    refine ⟨0, _, htimes, ?_, ?_, hbase⟩ <;> dsimp only <;> omega
  · have hdue : 0 < next ∧ next ≤ now := by omega
    obtain ⟨fuel, hfuel⟩ := catchUp_ends sub.endTime now (resetBase sub) next hfits
    obtain ⟨hlow, hle, hafter⟩ := advanceReset_spec utc plan sub.endTime (resetBase sub) hdue
    have htimes : maybeResetTimes fuel plan sub now =
        some ⟨(advanceReset utc plan sub.endTime now (resetBase sub) next).1,
          (advanceReset utc plan sub.endTime now (resetBase sub) next).2⟩ := by
      unfold maybeResetTimes
      dsimp only
      rw [if_neg hperiod, hnext, if_neg hahead, hfuel, Option.map_some, if_pos hdue]
    refine ⟨fuel, _, htimes, ?_, ?_, ?_⟩ <;> dsimp only <;> omega

end Termination

def daily : SubscriptionPlan where
  id := 1
  quotaResetPeriod := "daily"

/-- A custom period of `2 ^ 55` seconds, which wraps to none at all. -/
def standing : SubscriptionPlan where
  id := 1
  quotaResetPeriod := "custom"
  quotaResetCustomSeconds := 2 ^ 55

def since (startTime lastResetTime : Int) : UserSubscription where
  id := 1
  userID := 1
  planID := 1
  startTime
  lastResetTime
  amountUsed_nonneg := SubscriptionFunding.zero_nonneg
  periodUsed_nonneg := SubscriptionFunding.zero_nonneg

theorem maybeResetTimes_daily :
    ∃ fuel times, maybeResetTimes fuel daily (since 1000 1000) 200000 = some times ∧
      times.lastResetTime ≤ max 200000 (resetBase (since 1000 1000)) ∧
      (times.nextResetTime = 0 ∨ max 200000 times.lastResetTime < times.nextResetTime) ∧
      (since 1000 1000).lastResetTime ≤ times.lastResetTime :=
  maybeResetTimes_catchesUp (by decide +kernel) (by unfold FitsDuration; decide +kernel) (by decide)

theorem catchUp_standing (fuel : Nat) (base : Int) :
    catchUp standing 0 2000 fuel base 1000 = none := by
  induction fuel generalizing base with
  | zero => rfl
  | succ fuel ih =>
    have hstays : calcNextSubscriptionResetTime 1000 standing 0 = 1000 := by decide +kernel
    rw [catchUp, if_pos (by decide), hstays]
    exact ih 1000

/-- The loop of a plan that passes the test runs for ever; a subscription that begins later has its
last reset ahead of the clock, and one from before 1970 keeps a next reset that has passed. -/
theorem standing_never_ends :
    validQuotaReset standing = true ∧
      (∀ fuel, maybeResetTimes fuel standing (since 1000 1000) 2000 = none) ∧
      maybeResetTimes 0 daily (since 90000 0) 1000 = some ⟨90000, 172800⟩ ∧
      maybeResetTimes 1 daily { since (-200000) 0 with nextResetTime := 5 } 1000 = some ⟨0, 5⟩ := by
  refine ⟨by decide +kernel, fun fuel => ?_, by decide +kernel, by decide +kernel⟩
  have hfirst : calcNextSubscriptionResetTime (resetBase (since 1000 1000)) standing
      (since 1000 1000).endTime = 1000 := by decide +kernel
  have hperiod : normalizeResetPeriod standing.quotaResetPeriod ≠ .never := by decide +kernel
  unfold maybeResetTimes
  dsimp only
  rw [if_neg hperiod, hfirst, if_neg (by decide)]
  show ((catchUp standing 0 2000 fuel _ 1000).map _) = none
  rw [catchUp_standing]
  rfl

end CodeGo.Commerce.ResetTimes
