import Mathlib.Algebra.Order.Group.Defs
import Mathlib.Algebra.Order.Sub.Basic
import Mathlib.Data.List.Basic
import Mathlib.Order.Basic
import Mathlib.Tactic.Common

/-!
# Logs of recent times

A log that keeps the last times only still tells whether as many of all times are recent: the
oldest one it keeps is recent then. Times that come only while the log has room are spaced. Times
are listed the newest first.
-/

namespace CodeGo.Lib.Window

variable {α : Type} [LinearOrder α]

/-- As many times as that are after `since`. -/
def Reached (n : Nat) (since : α) (times : List α) : Prop := n ≤ times.countP (since < ·)

instance (n : Nat) (since : α) (times : List α) : Decidable (Reached n since times) :=
  inferInstanceAs (Decidable (_ ≤ _))

theorem countP_eq_zero_of_old {since : α} {times : List α} (h : ∀ t ∈ times, t ≤ since) :
    times.countP (since < ·) = 0 := by
  rw [List.countP_eq_zero]
  intro t ht
  simpa using h t ht

theorem reached_append_old {n : Nat} {since : α} {times old : List α} (h : ∀ t ∈ old, t ≤ since) :
    Reached n since (times ++ old) ↔ Reached n since times := by
  rw [Reached, Reached, List.countP_append, countP_eq_zero_of_old h, Nat.add_zero]

/-- The times are sorted, so the first `n + 1` of them are recent when the last of these is. -/
theorem reached_succ_iff {times : List α} (h : times.Pairwise (· ≥ ·)) (since : α) (n : Nat) :
    Reached (n + 1) since times ↔ ∃ t, times[n]? = some t ∧ since < t := by
  induction times generalizing n with
  | nil => simp [Reached]
  | cons t times ih =>
    rw [List.pairwise_cons] at h
    by_cases ht : since < t
    · cases n with
      | zero => simp [Reached, ht]
      | succ n =>
        rw [List.getElem?_cons_succ, ← ih h.2 n, Reached, Reached]
        simp [ht]
    · have hold : ∀ u ∈ times, u ≤ since := fun u hu => le_trans (h.1 u hu) (not_lt.1 ht)
      have hzero : Reached (n + 1) since (t :: times) ↔ False := by
        rw [Reached, List.countP_cons, countP_eq_zero_of_old hold]
        simp [ht]
      rw [hzero]
      constructor
      · exact False.elim
      · rintro ⟨u, hu, hlt⟩
        have hmem := List.mem_of_getElem? hu
        rcases List.mem_cons.1 hmem with rfl | hmem
        · exact ht hlt
        · exact absurd (hold u hmem) (not_le.2 hlt)

omit [LinearOrder α] in
theorem getLast?_take_succ (times : List α) (n : Nat) (h : n < times.length) :
    (times.take (n + 1)).getLast? = times[n]? := by
  rw [List.getLast?_eq_getElem?, List.length_take, Nat.min_eq_left h, Nat.succ_sub_one,
    List.getElem?_take_of_lt (Nat.lt_succ_self n)]

/-- What a log of the last `n + 1` times tells. -/
theorem reached_iff_log {times : List α} (h : times.Pairwise (· ≥ ·)) (since : α) (n : Nat) :
    Reached (n + 1) since times ↔
      n + 1 ≤ (times.take (n + 1)).length ∧ ∃ t, (times.take (n + 1)).getLast? = some t ∧ since < t := by
  rw [reached_succ_iff h, List.length_take]
  constructor
  · rintro ⟨t, ht, hlt⟩
    have hlength : n < times.length := (List.getElem?_eq_some_iff.1 ht).1
    exact ⟨by omega, t, by rw [getLast?_take_succ times n hlength, ht], hlt⟩
  · rintro ⟨hlength, t, ht, hlt⟩
    rw [getLast?_take_succ times n (by omega)] at ht
    exact ⟨t, ht, hlt⟩

section Spacing

variable {β : Type} [AddCommGroup β] [LinearOrder β] [IsOrderedAddMonoid β]

/-- No time of the log came when as many as `n` were within the last `d` before it. -/
def Spaced (n : Nat) (d : β) : List β → Prop
  | [] => True
  | t :: times => ¬ Reached n (t - d) times ∧ Spaced n d times

/-- A spaced log has at most `n` times between two that are less than `d` apart. -/
theorem Spaced.countP_le {n : Nat} {d : β} {times : List β} (hsorted : times.Pairwise (· ≥ ·))
    (h : Spaced n d times) {a b : β} (hab : b - a < d) :
    times.countP (fun t => a ≤ t ∧ t ≤ b) ≤ n := by
  induction times with
  | nil => exact Nat.zero_le n
  | cons t times ih =>
    rw [List.pairwise_cons] at hsorted
    obtain ⟨hroom, hrest⟩ := h
    have hbefore := ih hsorted.2 hrest
    rw [List.countP_cons]
    by_cases ht : a ≤ t ∧ t ≤ b
    · -- those before `t` in the interval are within the last `d` before it
      have hsince : t - d < a := sub_lt_comm.1 ((sub_le_sub_right ht.2 a).trans_lt hab)
      have hmono : times.countP (fun u => a ≤ u ∧ u ≤ b) ≤ times.countP (t - d < ·) := by
        apply List.countP_mono_left
        intro u _ hu
        simp only [decide_eq_true_eq] at hu ⊢
        exact hsince.trans_le hu.1
      have hfew : times.countP (t - d < ·) < n := not_le.1 hroom
      simp only [ht, and_self, decide_true, if_true]
      omega
    · simp only [ht, decide_false, Bool.false_eq_true, if_false]
      omega

end Spacing

end CodeGo.Lib.Window
