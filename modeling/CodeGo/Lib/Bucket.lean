import Mathlib.Algebra.Order.Field.Basic
import Mathlib.Data.List.Basic
import Mathlib.Tactic.Linarith
import Mathlib.Tactic.Ring

/-!
# Buckets of tokens

A bucket fills at a rate up to its capacity, and each withdrawal takes the same amount out of it.
The times of the withdrawals are listed the newest first.
-/

namespace CodeGo.Lib.Bucket

variable {K : Type} [Field K] [LinearOrder K] [IsStrictOrderedRing K]
  {capacity rate amount : K} {times : List K} {t : K}

/-- The tokens in the bucket at a time, after the withdrawals before it. -/
def accrued (capacity rate amount : K) : List K → K → K
  | [], _ => capacity
  | t₁ :: times, t => min capacity (accrued capacity rate amount times t₁ - amount + (t - t₁) * rate)

/-- Each withdrawal found its amount in the bucket. -/
def Covered (capacity rate amount : K) : List K → Prop
  | [] => True
  | t :: times => amount ≤ accrued capacity rate amount times t ∧ Covered capacity rate amount times

omit [IsStrictOrderedRing K] in
theorem accrued_le_capacity (times : List K) (t : K) :
    accrued capacity rate amount times t ≤ capacity := by
  cases times with
  | nil => exact le_refl capacity
  | cons t₁ times => exact min_le_left _ _

theorem accrued_nonneg (hcapacity : 0 ≤ capacity) (hrate : 0 ≤ rate)
    (h : Covered capacity rate amount times) (ht : ∀ u ∈ times, u ≤ t) :
    0 ≤ accrued capacity rate amount times t := by
  cases times with
  | nil => exact hcapacity
  | cons t₁ times =>
    have hle : t₁ ≤ t := ht t₁ List.mem_cons_self
    have hgain : 0 ≤ (t - t₁) * rate := mul_nonneg (sub_nonneg.2 hle) hrate
    have hleft : 0 ≤ accrued capacity rate amount times t₁ - amount := sub_nonneg.2 h.1
    exact le_min hcapacity (by linarith)

/-- What was withdrawn since `a` and what is left have flowed in or were there. -/
theorem withdrawn_add_accrued_le (hrate : 0 ≤ rate) (hsorted : times.Pairwise (· ≥ ·)) {a : K}
    (ha : a ≤ t) (ht : ∀ u ∈ times, u ≤ t) :
    (times.countP (a ≤ ·) : K) * amount + accrued capacity rate amount times t ≤
      capacity + rate * (t - a) := by
  have hflow : 0 ≤ rate * (t - a) := mul_nonneg hrate (sub_nonneg.2 ha)
  induction times generalizing t with
  | nil =>
    simp only [List.countP_nil, Nat.cast_zero, zero_mul, accrued]
    linarith
  | cons t₁ times ih =>
    rw [List.pairwise_cons] at hsorted
    by_cases hlate : a ≤ t₁
    · have hbefore := ih hsorted.2 hlate hsorted.1 (mul_nonneg hrate (sub_nonneg.2 hlate))
      have hstep : accrued capacity rate amount (t₁ :: times) t ≤
          accrued capacity rate amount times t₁ - amount + (t - t₁) * rate := min_le_right _ _
      have hcount : ((t₁ :: times).countP (a ≤ ·) : K) = times.countP (a ≤ ·) + 1 := by
        rw [List.countP_cons_of_pos (by simpa using hlate)]
        exact Nat.cast_succ _
      calc ((t₁ :: times).countP (a ≤ ·) : K) * amount + accrued capacity rate amount (t₁ :: times) t
          ≤ (times.countP (a ≤ ·) : K) * amount + accrued capacity rate amount times t₁ +
              (t - t₁) * rate := by
            rw [hcount]
            linarith
        _ ≤ capacity + rate * (t₁ - a) + (t - t₁) * rate := by linarith
        _ = capacity + rate * (t - a) := by ring
    · have hnone : (t₁ :: times).countP (a ≤ ·) = 0 := by
        rw [List.countP_eq_zero]
        intro u hu
        simp only [decide_eq_true_eq, not_le]
        rcases List.mem_cons.1 hu with rfl | hu
        · exact not_le.1 hlate
        · exact (hsorted.1 u hu).trans_lt (not_le.1 hlate)
      rw [hnone, Nat.cast_zero, zero_mul, zero_add]
      have hfull : accrued capacity rate amount (t₁ :: times) t ≤ capacity :=
        accrued_le_capacity (t₁ :: times) t
      linarith

/-- The withdrawals of an interval. -/
theorem withdrawn_le (hcapacity : 0 ≤ capacity) (hrate : 0 ≤ rate)
    (hsorted : times.Pairwise (· ≥ ·)) (h : Covered capacity rate amount times) {a b : K}
    (hab : a ≤ b) :
    (times.countP (fun u => a ≤ u ∧ u ≤ b) : K) * amount ≤ capacity + rate * (b - a) := by
  induction times with
  | nil =>
    have hflow : 0 ≤ rate * (b - a) := mul_nonneg hrate (sub_nonneg.2 hab)
    simp only [List.countP_nil, Nat.cast_zero, zero_mul]
    linarith
  | cons t times ih =>
    rw [List.pairwise_cons] at hsorted
    by_cases ht : t ≤ b
    · have hall : ∀ u ∈ t :: times, u ≤ b := by
        intro u hu
        rcases List.mem_cons.1 hu with rfl | hu
        · exact ht
        · exact (hsorted.1 u hu).trans ht
      have hcount : (t :: times).countP (fun u => a ≤ u ∧ u ≤ b) = (t :: times).countP (a ≤ ·) := by
        apply List.countP_congr
        intro u hu
        simp [hall u hu]
      have hle : ((t :: times).countP (a ≤ ·) : K) * amount +
          accrued capacity rate amount (t :: times) b ≤ capacity + rate * (b - a) :=
        withdrawn_add_accrued_le hrate (List.pairwise_cons.2 hsorted) hab hall
      have hleft := accrued_nonneg hcapacity hrate h hall
      rw [hcount]
      linarith
    · have hskip : (t :: times).countP (fun u => a ≤ u ∧ u ≤ b) =
          times.countP fun u => a ≤ u ∧ u ≤ b := by
        rw [List.countP_cons_of_neg]
        simp [ht]
      rw [hskip]
      exact ih hsorted.2 h.2

end CodeGo.Lib.Bucket
