import CodeGo.Lib.Binary64
import CodeGo.Lib.Truncation
import Mathlib

/-!
# The quota of a task submission

`task_relay_runtime.go`: the base quota of a task is multiplied by the other ratios of its
price, and recalculated from the ratios that the upstream confirms. A map is iterated in
any order.
-/

namespace CodeGo.Workflow.TaskPricing

open Lib.Binary64 (truncate)
open Lib.Truncation

/-- `PriceData.OtherRatios`: a ratio for each key, all of them positive. -/
structure OtherRatios where
  entries : List (String × ℚ) := []
  nodup : (entries.map Prod.fst).Nodup := by simp
  positive : ∀ r ∈ entries, 0 < r.2 := by simp

namespace OtherRatios

def values (ratios : OtherRatios) : List ℚ := ratios.entries.map Prod.snd

/-- An order in which the map may be iterated. -/
def Order (ratios : OtherRatios) (order : List (String × ℚ)) : Prop :=
  order.Perm ratios.entries

theorem Order.positive {ratios : OtherRatios} {order : List (String × ℚ)}
    (h : ratios.Order order) : ∀ r ∈ order, 0 < r.2 :=
  fun r hr => ratios.positive r (h.mem_iff.1 hr)

end OtherRatios

structure PriceData where
  quota : Int
  otherRatios : OtherRatios

/-- A ratio that is not positive is left out. -/
def PriceData.addOtherRatio (p : PriceData) (key : String) (ratio : ℚ) : PriceData :=
  if hratio : ratio ≤ 0 then p
  else
    { p with
      otherRatios :=
        { entries := p.otherRatios.entries.filter (·.1 ≠ key) ++ [(key, ratio)]
          nodup := by
            have hrest := (p.otherRatios.nodup.sublist
              (List.filter_sublist (p := fun r => r.1 ≠ key).map Prod.fst))
            rw [List.map_append, List.nodup_append]
            refine ⟨hrest, by simp, ?_⟩
            intro k hk k' hk'
            obtain ⟨r, hr, rfl⟩ := List.mem_map.1 hk
            have hne := of_decide_eq_true (List.mem_filter.1 hr).2
            simp only [List.map_cons, List.map_nil, List.mem_singleton] at hk'
            rwa [hk']
          positive := by
            intro r hr
            rcases List.mem_append.1 hr with hr | hr
            · exact p.otherRatios.positive r (List.mem_filter.1 hr).1
            · rw [List.mem_singleton.1 hr]
              exact not_le.1 hratio } }

/-- The loop of `RelayTaskSubmit`, for a model without a price patch. -/
def submitQuota (quota : Int) (order : List (String × ℚ)) : Int :=
  order.foldl (fun quota r => if r.2 ≠ 1 then truncate (quota * r.2) else quota) quota

/-- The quota without the ratios that it was multiplied by. -/
def baseQuota (quota : Int) (order : List (String × ℚ)) : Int :=
  order.foldl (fun quota r => if r.2 ≠ 1 ∧ 0 < r.2 then truncate (quota / r.2) else quota) quota

/-- `order` and `order'` are the orders of the old and of the new ratios. -/
def recalcQuotaFromRatios (quota : Int) (order order' : List (String × ℚ)) : Int :=
  let result := order'.foldl (fun (result : ℚ) r => if r.2 ≠ 1 then result * r.2 else result)
    (baseQuota quota order)
  truncate result

/-- The quota does not depend on the order of the ratios, and is found again from it. -/
def PricedOnce (p : PriceData) : Prop :=
  (∀ order order', p.otherRatios.Order order → p.otherRatios.Order order' →
    submitQuota p.quota order = submitQuota p.quota order') ∧
  ∀ order old new, p.otherRatios.Order order → p.otherRatios.Order old →
    p.otherRatios.Order new →
    recalcQuotaFromRatios (submitQuota p.quota order) old new = submitQuota p.quota order

section Loops

variable {quota : Int} {order : List (String × ℚ)}

theorem truncate_of_nonneg {x : ℚ} (h : 0 ≤ x) : truncate x = ⌊x⌋ := if_pos h

theorem submitQuota_eq_scale (hpos : ∀ r ∈ order, 0 < r.2) (hquota : 0 ≤ quota) :
    submitQuota quota order = scale quota (order.map Prod.snd) := by
  induction order generalizing quota with
  | nil => rfl
  | cons r order ih =>
    have hr : 0 < r.2 := hpos r (.head _)
    have hprod : 0 ≤ (quota : ℚ) * r.2 := by positivity
    have hstep : (if r.2 ≠ 1 then truncate (quota * r.2) else quota) = ⌊(quota : ℚ) * r.2⌋ := by
      split
      next => exact truncate_of_nonneg hprod
      next hone =>
        rw [not_not.1 hone, mul_one, Int.floor_intCast]
    show submitQuota (if r.2 ≠ 1 then truncate (quota * r.2) else quota) order = _
    rw [hstep, ih (fun r hr => hpos r (.tail _ hr)) (Int.floor_nonneg.2 hprod)]
    rfl

theorem baseQuota_eq_scale (hpos : ∀ r ∈ order, 0 < r.2) (hquota : 0 ≤ quota) :
    baseQuota quota order = scale quota ((order.map Prod.snd).map (·⁻¹)) := by
  induction order generalizing quota with
  | nil => rfl
  | cons r order ih =>
    have hr : 0 < r.2 := hpos r (.head _)
    have hquot : 0 ≤ (quota : ℚ) / r.2 := by positivity
    have hstep : (if r.2 ≠ 1 ∧ 0 < r.2 then truncate (quota / r.2) else quota) =
        ⌊(quota : ℚ) * r.2⁻¹⌋ := by
      rw [← div_eq_mul_inv]
      split
      next => exact truncate_of_nonneg hquot
      next hone =>
        have hone : r.2 = 1 := by
          by_contra hne
          exact hone ⟨hne, hr⟩
        rw [hone, div_one, Int.floor_intCast]
    show baseQuota (if r.2 ≠ 1 ∧ 0 < r.2 then truncate (quota / r.2) else quota) order = _
    rw [hstep, ih (fun r hr => hpos r (.tail _ hr))
      (Int.floor_nonneg.2 (by rwa [← div_eq_mul_inv]))]
    rfl

theorem multiplied_eq_prod (x : ℚ) :
    order.foldl (fun (result : ℚ) r => if r.2 ≠ 1 then result * r.2 else result) x =
      x * (order.map Prod.snd).prod := by
  induction order generalizing x with
  | nil => simp
  | cons r order ih =>
    have hstep : (if r.2 ≠ 1 then x * r.2 else x) = x * r.2 := by
      split
      next => rfl
      next hone => rw [not_not.1 hone, mul_one]
    rw [List.foldl_cons, hstep, ih, List.map_cons, List.prod_cons, mul_assoc]

theorem recalcQuotaFromRatios_eq_restored {order' : List (String × ℚ)}
    (hpos : ∀ r ∈ order, 0 < r.2) (hquota : 0 ≤ quota) (hperm : order'.Perm order) :
    recalcQuotaFromRatios quota order order' = restored quota (order.map Prod.snd) := by
  have hvalues : ∀ r ∈ order.map Prod.snd, 0 < r := by
    intro r hr
    obtain ⟨x, hx, rfl⟩ := List.mem_map.1 hr
    exact hpos x hx
  have hbase := scale_nonneg (inv_pos_of_mem hvalues) hquota
  have hprod := List.prod_pos hvalues
  unfold recalcQuotaFromRatios restored
  rw [multiplied_eq_prod, baseQuota_eq_scale hpos hquota, (hperm.map Prod.snd).prod_eq]
  apply truncate_of_nonneg
  positivity

end Loops

/-- An order of the values is the order of the values of an order of the map. -/
theorem exists_order {o l : List ℚ} (h : o.Perm l) {entries : List (String × ℚ)}
    (hl : entries.map Prod.snd = l) :
    ∃ order : List (String × ℚ), order.Perm entries ∧ order.map Prod.snd = o := by
  induction h generalizing entries with
  | nil => exact ⟨entries, .refl _, hl⟩
  | cons x _ ih =>
    obtain ⟨r, rest, rfl, rfl, hrest⟩ := List.map_eq_cons_iff.1 hl
    obtain ⟨order, hperm, hmap⟩ := ih hrest
    exact ⟨r :: order, hperm.cons r, by rw [List.map_cons, hmap]⟩
  | swap x y l =>
    obtain ⟨r, rest, rfl, rfl, hrest⟩ := List.map_eq_cons_iff.1 hl
    obtain ⟨r', rest, rfl, rfl, rfl⟩ := List.map_eq_cons_iff.1 hrest
    exact ⟨r' :: r :: rest, .swap r r' rest, rfl⟩
  | trans _ _ ih ih' =>
    obtain ⟨order, hperm, hmap⟩ := ih' hl
    obtain ⟨order', hperm', hmap'⟩ := ih hmap
    exact ⟨order', hperm'.trans hperm, hmap'⟩

theorem pricedOnce_iff_orders (p : PriceData) (hquota : 0 ≤ p.quota) :
    PricedOnce p ↔
      (∀ o o' : List ℚ, o.Perm p.otherRatios.values → o'.Perm p.otherRatios.values →
        scale p.quota o = scale p.quota o') ∧
      ∀ o o' : List ℚ, o.Perm p.otherRatios.values → o'.Perm p.otherRatios.values →
        restored (scale p.quota o) o' = scale p.quota o := by
  have hsubmit : ∀ order, p.otherRatios.Order order →
      submitQuota p.quota order = scale p.quota (order.map Prod.snd) :=
    fun order h => submitQuota_eq_scale h.positive hquota
  have hnonneg : ∀ order, p.otherRatios.Order order → 0 ≤ submitQuota p.quota order := by
    intro order h
    rw [hsubmit order h]
    refine scale_nonneg (fun r hr => ?_) hquota
    obtain ⟨x, hx, rfl⟩ := List.mem_map.1 hr
    exact h.positive x hx
  have hback : ∀ order old new, p.otherRatios.Order order → p.otherRatios.Order old →
      p.otherRatios.Order new →
      recalcQuotaFromRatios (submitQuota p.quota order) old new =
        restored (scale p.quota (order.map Prod.snd)) (old.map Prod.snd) := by
    intro order old new h hold hnew
    rw [recalcQuotaFromRatios_eq_restored hold.positive (hnonneg order h)
      (hnew.trans hold.symm), hsubmit order h]
  constructor
  · rintro ⟨hsame, hfound⟩
    constructor
    · intro o o' ho ho'
      obtain ⟨order, horder, rfl⟩ := exists_order ho rfl
      obtain ⟨order', horder', rfl⟩ := exists_order ho' rfl
      rw [← hsubmit order horder, ← hsubmit order' horder']
      exact hsame order order' horder horder'
    · intro o o' ho ho'
      obtain ⟨order, horder, rfl⟩ := exists_order ho rfl
      obtain ⟨old, hold, rfl⟩ := exists_order ho' rfl
      rw [← hback order old old horder hold hold, ← hsubmit order horder]
      exact hfound order old old horder hold hold
  · rintro ⟨hsame, hfound⟩
    constructor
    · intro order order' horder horder'
      rw [hsubmit order horder, hsubmit order' horder']
      exact hsame _ _ (horder.map _) (horder'.map _)
    · intro order old new horder hold hnew
      rw [hback order old new horder hold hnew, hsubmit order horder]
      exact hfound _ _ (horder.map _) (hold.map _)

/-- A submission is priced once if and only if its base quota exceeds one that no part of
the ratios takes to a fraction by so little that every order cuts the rest away. -/
theorem pricedOnce_iff (p : PriceData) (hquota : 0 ≤ p.quota) :
    PricedOnce p ↔ ∃ whole, WholeParts whole p.otherRatios.values ∧ whole ≤ p.quota ∧
      ∀ order, p.otherRatios.Order order → p.quota < whole + least (order.map Prod.snd) := by
  have hpos : ∀ r ∈ p.otherRatios.values, 0 < r := by
    intro r hr
    obtain ⟨x, hx, rfl⟩ := List.mem_map.1 hr
    exact p.otherRatios.positive x hx
  rw [pricedOnce_iff_orders p hquota, orders_agree_iff hpos]
  constructor
  · rintro ⟨whole, hwhole, hle, hleast⟩
    exact ⟨whole, hwhole, hle, fun order h => hleast _ (h.map _)⟩
  · rintro ⟨whole, hwhole, hle, hleast⟩
    refine ⟨whole, hwhole, hle, fun o ho => ?_⟩
    obtain ⟨order, horder, rfl⟩ := exists_order ho rfl
    exact hleast order horder

theorem pricedOnce_seconds :
    PricedOnce { quota := 333, otherRatios := { entries := [("seconds", 5)] } } := by
  refine (pricedOnce_iff _ (by decide)).2 ⟨333, ?_, by decide, ?_⟩
  · intro s hs
    rcases List.sublist_cons_iff.1 hs with hs | ⟨t, rfl, ht⟩
    · rw [List.sublist_nil.1 hs]
      exact ⟨333, by norm_num⟩
    · rw [List.sublist_nil.1 ht]
      exact ⟨1665, by norm_num⟩
  · intro order horder
    rw [List.perm_singleton.1 horder]
    decide +kernel

/-- Five seconds of a size that costs half as much again. -/
def fiveSeconds : PriceData where
  quota := 333
  otherRatios := { entries := [("seconds", 5), ("size", 3 / 2)] }

/-- The cut after the seconds loses less than the cut before them. -/
theorem fiveSeconds_not_pricedOnce : 0 ≤ fiveSeconds.quota ∧ ¬ PricedOnce fiveSeconds := by
  refine ⟨by decide, fun h => ?_⟩
  have hsame := h.1 [("seconds", 5), ("size", 3 / 2)] [("size", 3 / 2), ("seconds", 5)]
    (.refl _) (.swap _ _ [])
  have hdiffer : submitQuota 333 [("seconds", 5), ("size", 3 / 2)] = 2497 ∧
      submitQuota 333 [("size", 3 / 2), ("seconds", 5)] = 2495 := by decide +kernel
  have hquota : fiveSeconds.quota = 333 := rfl
  rw [hquota, hdiffer.1, hdiffer.2] at hsame
  exact absurd hsame (by decide)

end CodeGo.Workflow.TaskPricing
