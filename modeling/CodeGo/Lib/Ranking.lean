import Mathlib.Data.Finset.Card
import Mathlib.Data.List.Dedup
import Mathlib.Data.List.Sort
import Mathlib.Order.Defs.LinearOrder

/-!
# Ranking

The distinct values of a list, the highest first, and how many of them are above a value.
-/

namespace CodeGo.Lib.Ranking

variable {α : Type} [LinearOrder α]

/-- The distinct values, the highest first. -/
def falling (values : List α) : List α := values.dedup.insertionSort (· ≥ ·)

/-- How many distinct values are above a value. -/
def rank (values : List α) (a : α) : Nat := (values.toFinset.filter (a < ·)).card

/-- The place of a number of steps down the distinct values, the last place past the end. -/
def clamped (values : List α) (steps : Nat) : Nat := min steps (values.toFinset.card - 1)

theorem pairwise_falling (values : List α) : (falling values).Pairwise (· > ·) := by
  have hsorted : (falling values).Pairwise (· ≥ ·) := List.pairwise_insertionSort _ _
  have hnodup : (falling values).Nodup :=
    (List.perm_insertionSort _ _).nodup_iff.2 (List.nodup_dedup _)
  refine (hsorted.and hnodup).imp ?_
  rintro a b ⟨hle, hne⟩
  exact lt_of_le_of_ne hle (Ne.symm hne)

theorem nodup_falling (values : List α) : (falling values).Nodup :=
  (pairwise_falling values).imp fun h => h.ne'

@[simp] theorem mem_falling {values : List α} {a : α} : a ∈ falling values ↔ a ∈ values := by
  rw [falling, List.mem_insertionSort, List.mem_dedup]

theorem toFinset_falling (values : List α) : (falling values).toFinset = values.toFinset := by
  ext a
  simp

theorem length_falling (values : List α) : (falling values).length = values.toFinset.card := by
  rw [← toFinset_falling, List.toFinset_card_of_nodup (nodup_falling values)]

theorem clamped_lt {values : List α} (hne : values ≠ []) (steps : Nat) :
    clamped values steps < (falling values).length := by
  obtain ⟨a, ha⟩ := List.exists_mem_of_ne_nil _ hne
  have := List.length_pos_of_mem (mem_falling.2 ha)
  rw [clamped, ← length_falling]
  omega

@[simp] theorem falling_nil : falling ([] : List α) = [] := by
  rw [falling, List.dedup_nil, List.insertionSort_nil]

/-- Going down step by step and stopping at the last place leads to the clamped place. -/
theorem getD_falling {values : List α} (hne : values ≠ []) (steps : Nat) (default : α) :
    (falling values).getD
        (if (falling values).length ≤ steps then (falling values).length - 1 else steps) default =
      (falling values).get ⟨clamped values steps, clamped_lt hne steps⟩ := by
  have hplace : (if (falling values).length ≤ steps then (falling values).length - 1 else steps) =
      clamped values steps := by
    rw [clamped, ← length_falling]
    split <;> omega
  rw [hplace, List.getD_eq_getElem?_getD, List.getElem?_eq_getElem (clamped_lt hne steps)]
  rfl

/-- As many values of a falling list are above one of its values as come before it. -/
theorem length_filter_getElem {values : List α} (h : values.Pairwise (· > ·)) {k : Nat}
    (hk : k < values.length) : (values.filter (values[k] < ·)).length = k := by
  induction values generalizing k with
  | nil => cases hk
  | cons value values ih =>
    rw [List.pairwise_cons] at h
    cases k with
    | zero =>
      have : ∀ v ∈ value :: values, ¬ value < v := by
        intro v hv
        rcases List.mem_cons.1 hv with rfl | hv
        · exact lt_irrefl _
        · exact lt_asymm (h.1 v hv)
      simpa using this
    | succ k =>
      have hk' : k < values.length := by simpa using hk
      have habove : values[k] < value := h.1 _ (List.getElem_mem hk')
      simp only [List.getElem_cons_succ, List.filter_cons, habove, decide_true, if_true,
        List.length_cons, ih h.2 hk']

theorem rank_getElem (values : List α) {k : Nat} (hk : k < (falling values).length) :
    rank values (falling values)[k] = k := by
  have hfilter : values.toFinset.filter ((falling values)[k] < ·) =
      ((falling values).filter ((falling values)[k] < ·)).toFinset := by
    rw [← toFinset_falling]
    ext a
    simp
  rw [rank, hfilter, List.toFinset_card_of_nodup ((nodup_falling values).filter _)]
  exact length_filter_getElem (pairwise_falling values) hk

/-- A value stands in the list at its rank. -/
theorem eq_get_iff {values : List α} {a : α} (ha : a ∈ values) (k : Fin (falling values).length) :
    a = (falling values).get k ↔ rank values a = k := by
  constructor
  · rintro rfl
    exact rank_getElem values k.2
  · intro hrank
    obtain ⟨j, hj, rfl⟩ := List.getElem_of_mem (mem_falling.2 ha)
    rw [rank_getElem values hj] at hrank
    simp only [List.get_eq_getElem, hrank]

/-- A highest value is one with none above it. -/
theorem rank_eq_zero {values : List α} {a : α} : rank values a = 0 ↔ ∀ b ∈ values, b ≤ a := by
  rw [rank, Finset.card_eq_zero, Finset.filter_eq_empty_iff]
  simp only [List.mem_toFinset, not_lt]

/-- Ranks only depend on which values there are. -/
theorem rank_congr {values values' : List α} (h : ∀ a, a ∈ values ↔ a ∈ values') (a : α) :
    rank values a = rank values' a := by
  have : values.toFinset = values'.toFinset := by
    ext b
    simpa using h b
  rw [rank, rank, this]

theorem clamped_congr {values values' : List α} (h : ∀ a, a ∈ values ↔ a ∈ values') (steps : Nat) :
    clamped values steps = clamped values' steps := by
  have : values.toFinset = values'.toFinset := by
    ext b
    simpa using h b
  rw [clamped, clamped, this]

end CodeGo.Lib.Ranking
