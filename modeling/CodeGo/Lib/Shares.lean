import Mathlib.Algebra.BigOperators.Group.List.Basic
import Mathlib.Data.List.Basic
import Mathlib.Algebra.Ring.Nat

/-!
# Shares

The number line below a sum is cut into shares laid end to end; a number drawn below the sum falls
into exactly one of them, and each share is hit by as many numbers as it is long.
-/

namespace CodeGo.Lib.Shares

/-- The place of the share that a number falls into. -/
def pick : List Nat → Nat → Option Nat
  | [], _ => none
  | share :: shares, draw =>
    if draw < share then some 0 else (pick shares (draw - share)).map (· + 1)

theorem pick_isSome {shares : List Nat} {draw : Nat} :
    (pick shares draw).isSome ↔ draw < shares.sum := by
  induction shares generalizing draw with
  | nil => simp [pick]
  | cons share shares ih =>
    rw [pick, List.sum_cons]
    split
    · simp only [Option.isSome_some, true_iff]
      omega
    · rw [Option.isSome_map, ih]
      omega

theorem pick_lt_length {shares : List Nat} {draw i : Nat} (h : pick shares draw = some i) :
    i < shares.length := by
  induction shares generalizing draw i with
  | nil => cases h
  | cons share shares ih =>
    rw [pick] at h
    split at h
    · cases h
      exact Nat.zero_lt_succ _
    · obtain ⟨j, hj, rfl⟩ := Option.map_eq_some_iff.1 h
      exact Nat.succ_lt_succ (ih hj)

theorem pick_of_lt {share : Nat} {shares : List Nat} {draw : Nat} (h : draw < share) :
    pick (share :: shares) draw = some 0 := by
  rw [pick, if_pos h]

theorem pick_add (share : Nat) (shares : List Nat) (draw : Nat) :
    pick (share :: shares) (share + draw) = (pick shares draw).map (· + 1) := by
  rw [pick, if_neg (by omega), Nat.add_sub_cancel_left]

/-- A share is hit by as many numbers as it is long. -/
theorem countP_pick (shares : List Nat) (i : Nat) :
    (List.range shares.sum).countP (pick shares · = some i) = shares.getD i 0 := by
  induction shares generalizing i with
  | nil => rfl
  | cons share shares ih =>
    have hin : (List.range share).countP (pick (share :: shares) · = some i) =
        (List.range share).countP (fun _ => 0 = i) := by
      apply List.countP_congr
      intro draw hdraw
      rw [pick_of_lt (List.mem_range.1 hdraw)]
      simp
    rw [List.sum_cons, List.range_add, List.countP_append, hin, List.countP_map]
    cases i with
    | zero =>
      have hout : (List.range shares.sum).countP
          ((pick (share :: shares) · = some 0) ∘ (share + ·)) = 0 := by
        rw [List.countP_eq_zero]
        intro draw _
        simp [pick_add]
      rw [hout]
      simp
    | succ i =>
      rw [List.getD_cons_succ, ← ih i]
      have hout : (List.range shares.sum).countP
          ((pick (share :: shares) · = some (i + 1)) ∘ (share + ·)) =
          (List.range shares.sum).countP (pick shares · = some i) := by
        apply List.countP_congr
        intro draw _
        simp [pick_add]
      rw [hout]
      simp

theorem sum_place (j n : Nat) :
    ((List.range n).map fun i => if j = i then 1 else 0).sum = if j < n then 1 else 0 := by
  induction n with
  | zero => rfl
  | succ n ih =>
    rw [List.range_succ, List.map_append, List.sum_append, ih, List.map_singleton,
      List.sum_singleton]
    by_cases hn : j = n
    · subst hn
      simp
    · have : j < n + 1 ↔ j < n := by omega
      simp only [if_neg hn, this, Nat.add_zero]

/-- However numbers are given places, no more of them are placed than there are. -/
theorem sum_countP_le {α : Type} (place : α → Option Nat) (draws : List α) (n : Nat) :
    ((List.range n).map fun i => draws.countP (place · = some i)).sum ≤ draws.length := by
  induction draws with
  | nil => simp
  | cons draw draws ih =>
    have hone : ((List.range n).map fun i => if place draw = some i then 1 else 0).sum ≤ 1 := by
      cases place draw with
      | none => simp
      | some j =>
        simp only [Option.some.injEq, sum_place]
        split <;> omega
    simp only [List.countP_cons, decide_eq_true_eq, List.sum_map_add, List.length_cons]
    omega

end CodeGo.Lib.Shares
